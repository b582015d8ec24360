import EncounterTimeline.Proofs.Markup.Tags

/-! # The events of a written document

A written document is cut into the tags and the text it was made of; the blanks between tags are dropped.
-/
namespace EncounterTimeline

open Markup

namespace Document

variable {body name rest : List Char} {as : Written} {opened : List (List Char)} {level : Nat}

/-- The body of a tag whose name is a key is the name and what is written of its attributes. -/
theorem ofBody_written (h : isKey name = true) (as : Written) :
    Tag.ofBody (name ++ attributeText as) = ⟨name, attributeText as⟩ := by
  have plain : ∀ c ∈ name, (!isSpace c) = true := by
    intro c hc
    have key := List.all_eq_true.mp (Bool.and_eq_true_iff.mp h).2 c hc
    rw [(isKeyChar_plain key).2.1]
    rfl
  have ends : attributeText as = [] ∨ ∃ more, attributeText as = ' ' :: more := by
    induction as with
    | nil => exact .inl rfl
    | cons a as ih =>
      obtain ⟨key, value⟩ := a
      cases value with
      | none => exact ih
      | some v => exact .inr ⟨_, rfl⟩
  rcases ends with empty | ⟨more, more_eq⟩
  · rw [empty, List.append_nil, Tag.ofBody, List.takeWhile_eq_self_iff.mpr plain, List.dropWhile_eq_nil_iff.mpr plain]
  · rw [more_eq, Tag.ofBody, Text.takeWhile_stop ' ' more plain (by decide),
      Text.dropWhile_stop ' ' more plain (by decide)]

/-- The name of a tag: a key that is no mark of another kind of markup. -/
structure TagName (name : List Char) : Prop where
  key : isKey name = true
  first : (name.head?.all fun c => c != '!' && c != '?' && c != '/') = true

theorem TagName.tagBody (h : TagName name) (keys : ∀ a ∈ as, isKey a.1.toList = true) :
    TagBody (name ++ attributeText as) where
  balanced := (balanced_of_plain (isKey.plain h.key)).append (balanced_attributeText keys)
  first := by
    cases name with
    | nil => cases h.key
    | cons c more =>
      have all := List.all_eq_true.mp (Bool.and_eq_true_iff.mp h.key).2
      have first : c ≠ '!' ∧ c ≠ '?' ∧ c ≠ '/' := by simpa [and_assoc] using h.first
      exact ⟨c, more ++ attributeText as, rfl, all c List.mem_cons_self, first⟩

theorem isSpace_of_mem_newline {c : Char} (h : c ∈ newline level) : isSpace c = true := by
  rcases List.mem_cons.mp h with rfl | h
  · rfl
  · rw [List.eq_of_mem_replicate h]
    rfl

/-- The blanks between tags say nothing. -/
theorem lexemes_newline {more : List Char} {x : Lexeme} (piece : markup more = some (x, rest)) :
    lexemes (newline level ++ '<' :: more) = x :: lexemes rest := by
  have plain : '<' ∉ newline level := fun h => by cases isSpace_of_mem_newline h
  have blank : textRun (newline level) = [] := by
    rw [textRun, Text.trimBoth_of_all fun c => isSpace_of_mem_newline]
  rw [lexemes_markup plain piece, blank, List.nil_append]

theorem lexemes_emptyTag (h : TagBody body) :
    lexemes (emptyTag level body ++ rest) = .emptyTag body :: lexemes rest := by
  have text : emptyTag level body ++ rest = newline level ++ '<' :: (body ++ '/' :: '>' :: rest) := by
    simp [emptyTag]
  rw [text, lexemes_newline (markup_emptyTag h rest)]

theorem lexemes_fieldText {tag value : String} (h : TagName tag.toList) (last : tag.toList.getLast? ≠ some '/') :
    lexemes (fieldText tag value ++ rest) =
      .openTag tag.toList :: (textRun (escape value.toList) ++ .closeTag tag.toList :: lexemes rest) := by
  have text : fieldText tag value ++ rest = newline 1 ++
      '<' :: (tag.toList ++ '>' :: (escape value.toList ++ '<' :: ('/' :: tag.toList ++ '>' :: rest))) := by
    simp [fieldText]
  have opens : TagBody tag.toList := by
    have named : TagBody (tag.toList ++ attributeText []) := h.tagBody (by simp)
    simpa [attributeText] using named
  have plain : '<' ∉ escape value.toList := fun h => (not_delimiter_of_mem_escape h).1 rfl
  rw [text, lexemes_newline (markup_openTag opens last _), lexemes_markup plain (markup_closeTag opens.balanced rest)]

def textEvents (raw : List Char) : List Event := if raw.isEmpty then [] else [.text raw]

def fieldEvents (tag value : String) : List Event :=
  .enter ⟨tag.toList, []⟩ :: textEvents (Text.trimBoth isSpace (escape value.toList)) ++ [.leave tag.toList]

def entryTag (entry : Draft) : Tag := Tag.ofBody (entryBody entry)

def entryEvents : Draft → List Event
  | .subroutine name cues =>
    .enter (entryTag (.subroutine name cues)) ::
      cues.map (fun c => .single (entryTag (.activity c))) ++ [.leave ['s']]
  | entry => [.single (entryTag entry)]

theorem eventsFrom_textRun (opened : List (List Char)) (run : List Char) (more : List Lexeme) :
    eventsFrom opened (textRun run ++ more) =
      textEvents (Text.trimBoth isSpace run) ++ eventsFrom opened more := by
  rw [textRun]
  cases Text.trimBoth isSpace run <;> rfl

/-- A closing tag closes the tag that was opened last. -/
theorem eventsFrom_closeTag (h : closedName name = name) (more : List Lexeme) :
    eventsFrom (name :: opened) (.closeTag name :: more) = .leave name :: eventsFrom opened more := by
  rw [eventsFrom, if_pos h]

theorem events_fieldText {tag : String} (value : String) (h : TagName tag.toList)
    (last : tag.toList.getLast? ≠ some '/') (closed : closedName tag.toList = tag.toList) :
    eventsFrom opened (lexemes (fieldText tag value ++ rest)) =
      fieldEvents tag value ++ eventsFrom opened (lexemes rest) := by
  have named := ofBody_written h.key []
  rw [attributeText, List.flatMap_nil, List.append_nil] at named
  rw [lexemes_fieldText h last, eventsFrom, named, eventsFrom_textRun, eventsFrom_closeTag closed]
  simp [fieldEvents]

theorem writable_presetAttributes (p : Preset) : Writable (presetAttributes p) where
  keys := by simp only [presetAttributes, List.forall_mem_cons]; decide
  distinct := by simp only [presetAttributes, List.map_cons, List.map_nil]; decide

theorem writable_ruleAttributes (r : Rule) : Writable (ruleAttributes r) where
  keys := by simp only [ruleAttributes, List.forall_mem_cons]; decide
  distinct := by simp only [ruleAttributes, List.map_cons, List.map_nil]; decide

theorem writable_cueAttributes (c : Cue) : Writable (cueAttributes c) where
  keys := by simp only [cueAttributes, List.forall_mem_cons]; decide
  distinct := by simp only [cueAttributes, List.map_cons, List.map_nil]; decide

theorem writable_name (name : Option String) : Writable [("name", name)] where
  keys := by simp only [List.forall_mem_cons]; decide
  distinct := by simp only [List.map_cons, List.map_nil]; decide

/-- The body of the tag of an entry is a name and written attributes. -/
theorem entryBody_written (entry : Draft) :
    ∃ name as, entryBody entry = name ++ attributeText as ∧ TagName name ∧ Writable as := by
  cases entry with
  | preset p => exact ⟨"default".toList, _, rfl, ⟨rfl, rfl⟩, writable_presetAttributes p⟩
  | activity c => exact ⟨['a'], _, rfl, ⟨rfl, rfl⟩, writable_cueAttributes c⟩
  | trigger r => exact ⟨['t'], _, rfl, ⟨rfl, rfl⟩, writable_ruleAttributes r⟩
  | subroutine name cues => exact ⟨['s'], _, rfl, ⟨rfl, rfl⟩, writable_name name⟩

theorem tagBody_entryBody (entry : Draft) : TagBody (entryBody entry) := by
  obtain ⟨name, as, body, named, writable⟩ := entryBody_written entry
  rw [body]
  exact named.tagBody writable.keys

theorem events_emptyTag (entry : Draft) :
    eventsFrom opened (lexemes (emptyTag level (entryBody entry) ++ rest)) =
      .single (entryTag entry) :: eventsFrom opened (lexemes rest) := by
  rw [lexemes_emptyTag (tagBody_entryBody entry), eventsFrom, entryTag]

theorem events_statements (cues : List Cue) :
    eventsFrom opened (lexemes ((cues.flatMap fun c => emptyTag 2 (entryBody (.activity c))) ++ rest)) =
      cues.map (fun c => .single (entryTag (.activity c))) ++ eventsFrom opened (lexemes rest) := by
  induction cues with
  | nil => rfl
  | cons c cues ih => rw [List.flatMap_cons, List.append_assoc, events_emptyTag, ih, List.map_cons, List.cons_append]

theorem last_attributeText {name : List Char} (last : name.getLast? ≠ some '/') (as : Written) :
    (name ++ attributeText as).getLast? ≠ some '/' := by
  have ends : attributeText as = [] ∨ ∃ front, attributeText as = front ++ ['"'] := by
    induction as with
    | nil => exact .inl rfl
    | cons a as ih =>
      obtain ⟨key, value⟩ := a
      cases value with
      | none => exact ih
      | some v =>
        have text : attributeText ((key, some v) :: as) =
            ' ' :: key.toList ++ '=' :: '"' :: escape v.toList ++ ['"'] ++ attributeText as := by simp [attributeText]
        right
        rcases ih with empty | ⟨front, front_eq⟩
        · exact ⟨_, by rw [text, empty, List.append_nil]⟩
        · exact ⟨_, by rw [text, front_eq, ← List.append_assoc]⟩
  rcases ends with empty | ⟨front, front_eq⟩
  · rw [empty, List.append_nil]
    exact last
  · rw [front_eq, ← List.append_assoc, List.getLast?_concat]
    decide

theorem events_entryText (entry : Draft) :
    eventsFrom opened (lexemes (entryText entry ++ rest)) = entryEvents entry ++ eventsFrom opened (lexemes rest) := by
  cases entry with
  | preset | activity | trigger => exact events_emptyTag _
  | subroutine name cues =>
    have text : entryText (.subroutine name cues) ++ rest = newline 1 ++
        '<' :: (entryBody (.subroutine name cues) ++ '>' ::
          ((cues.flatMap fun c => emptyTag 2 (entryBody (.activity c))) ++
            (newline 1 ++ '<' :: ('/' :: ['s'] ++ '>' :: rest)))) := by
      simp [entryText]
    have body : entryBody (.subroutine name cues) = ['s'] ++ attributeText [("name", name)] := rfl
    have last : (entryBody (.subroutine name cues)).getLast? ≠ some '/' := body ▸ last_attributeText (by decide) _
    have closing : Balanced ['s'] := balanced_of_plain (isKey.plain rfl)
    have named : Tag.ofBody (entryBody (.subroutine name cues)) = ⟨['s'], attributeText [("name", name)]⟩ :=
      body ▸ ofBody_written (by decide) _
    have closed : closedName ['s'] = ['s'] := by decide
    rw [text, lexemes_newline (markup_openTag (tagBody_entryBody _) last _), eventsFrom, events_statements,
      lexemes_newline (markup_closeTag closing rest), named, eventsFrom_closeTag closed, entryEvents, entryTag, named]
    simp

theorem events_entries (entries : List Draft) :
    eventsFrom opened (lexemes (entries.flatMap entryText ++ rest)) =
      entries.flatMap entryEvents ++ eventsFrom opened (lexemes rest) := by
  induction entries with
  | nil => rfl
  | cons entry entries ih => simp only [List.flatMap_cons, List.append_assoc, events_entryText, ih]

def rootName : List Char := "timeline".toList

def writtenEvents (d : Document) : List Event :=
  .enter ⟨rootName, []⟩ :: fieldEvents "name" d.name ++ fieldEvents "zone" d.zone ++
    fieldEvents "locale" d.locale.name ++ d.entries.flatMap entryEvents ++ [.leave rootName]

theorem markup_declaration (rest : List Char) :
    markup ("?xml version=\"1.0\" encoding=\"utf-8\"?>".toList ++ rest) = some (.remark, rest) := rfl

theorem lexemes_blank (blank : ∀ c ∈ rest, isSpace c = true) : lexemes rest = [] := by
  have plain : '<' ∉ rest := fun mem => by cases blank _ mem
  rw [lexemes_plain plain, textRun, Text.trimBoth_of_all blank]

/-- Blanks after a document say nothing. -/
theorem events_render (d : Document) (blank : ∀ c ∈ rest, isSpace c = true) :
    events (render d ++ rest) = writtenEvents d := by
  have text : render d ++ rest = [] ++ '<' :: ("?xml version=\"1.0\" encoding=\"utf-8\"?>".toList ++
      (newline 0 ++ '<' :: (rootName ++ '>' :: (fieldText "name" d.name ++ (fieldText "zone" d.zone ++
        (fieldText "locale" d.locale.name ++ (d.entries.flatMap entryText ++
          (newline 0 ++ '<' :: ('/' :: rootName ++ '>' :: rest))))))))) := by
    have declared : declaration = '<' :: "?xml version=\"1.0\" encoding=\"utf-8\"?>".toList := rfl
    have opening : "<timeline>".toList = '<' :: (rootName ++ ['>']) := rfl
    have closing : "</timeline>".toList = '<' :: ('/' :: rootName ++ ['>']) := rfl
    simp only [render, declared, opening, closing, List.append_assoc, List.cons_append, List.nil_append]
  have unmarked : dropMark (render d ++ rest) = render d ++ rest := rfl
  have root : TagName rootName := ⟨rfl, rfl⟩
  have opens : TagBody rootName := by
    have body : TagBody (rootName ++ attributeText []) := root.tagBody (by simp)
    rwa [attributeText, List.flatMap_nil, List.append_nil] at body
  have named : Tag.ofBody rootName = ⟨rootName, []⟩ := by
    have body := ofBody_written root.key []
    rwa [attributeText, List.flatMap_nil, List.append_nil] at body
  have before : textRun [] = [] := rfl
  rw [events, unmarked, text, lexemes_markup (by simp) (markup_declaration _),
    lexemes_newline (markup_openTag opens (by decide) _), before, List.nil_append, eventsFrom, eventsFrom, named,
    events_fieldText _ ⟨rfl, rfl⟩ (by decide) (by decide),
    events_fieldText _ ⟨rfl, rfl⟩ (by decide) (by decide),
    events_fieldText _ ⟨rfl, rfl⟩ (by decide) (by decide), events_entries,
    lexemes_newline (markup_closeTag opens.balanced _), eventsFrom_closeTag (by decide), lexemes_blank blank]
  simp [writtenEvents, eventsFrom]

end Document

end EncounterTimeline

import EncounterTimeline.Document.Printer
import EncounterTimeline.Document.Reader
import EncounterTimeline.Proofs.Markup.Escape

/-! # Written tags

A tag that is written with escaped values is read as it was written: its quotes are balanced and no angle bracket stands
in it, so it ends where it should, and its attributes come back in order.
-/
namespace EncounterTimeline

namespace Markup

open Document (Written attributeText)

def isKeyChar (c : Char) : Bool := !(c == '=' || isSpace c || c == '>' || c == '"' || c == '\'')

def isKey (key : List Char) : Bool := !key.isEmpty && key.all isKeyChar

variable {key value rest cs : List Char} {known : Attributes}

theorem isKeyChar_plain {c : Char} (h : isKeyChar c = true) :
    (!(c == '=' || isSpace c)) = true ∧ isSpace c = false ∧ c ≠ '>' ∧ c ≠ '"' ∧ c ≠ '\'' := by
  simp only [isKeyChar, Bool.not_eq_true', Bool.or_eq_false_iff, beq_eq_false_iff_ne] at h
  obtain ⟨⟨⟨⟨eq, space⟩, gt⟩, quot⟩, apos⟩ := h
  simp [eq, space, gt, quot, apos]

theorem readKey_written (h : isKey key = true) : readKey (key ++ '=' :: rest) = some (key, rest) := by
  cases key with
  | nil => cases h
  | cons first more =>
    have plain : ∀ c ∈ more, (!(c == '=' || isSpace c)) = true := by
      intro c hc
      have all := List.all_eq_true.mp (Bool.and_eq_true_iff.mp h).2
      exact (isKeyChar_plain (all c (List.mem_cons_of_mem _ hc))).1
    have taken := Text.takeWhile_stop '=' rest plain rfl
    have dropped := Text.dropWhile_stop '=' rest plain rfl
    rw [List.cons_append, readKey, taken, dropped]
    rfl

theorem readValue_written : readValue ('"' :: escape value ++ '"' :: rest) = some (escape value, rest) := by
  have plain : ∀ c ∈ escape value, (c != '"') = true := by
    intro c hc
    exact bne_iff_ne.mpr (not_delimiter_of_mem_escape hc).2.2.2
  have taken := Text.takeWhile_stop '"' rest plain rfl
  have dropped := Text.dropWhile_stop '"' rest plain rfl
  rw [List.cons_append, readValue, List.dropWhile_cons_of_neg (by decide)]
  dsimp only
  rw [if_pos (by decide), taken, dropped]

/-- An attribute whose key is not known yet is read as it was written. -/
theorem readAttributes_written (value rest : List Char) (h : isKey key = true) (fresh : known.lookup key = none) :
    readAttributes known (' ' :: key ++ '=' :: '"' :: escape value ++ '"' :: rest) =
      readAttributes (known ++ [(key, value)]) rest := by
  have inner : key ++ '=' :: '"' :: escape value ++ '"' :: rest =
      key ++ '=' :: ('"' :: escape value ++ '"' :: rest) := by simp
  have start : (' ' :: key ++ '=' :: '"' :: escape value ++ '"' :: rest).dropWhile isSpace =
      key ++ '=' :: ('"' :: escape value ++ '"' :: rest) := by
    rw [← inner]
    cases key with
    | nil => cases h
    | cons first more =>
      have all := List.all_eq_true.mp (Bool.and_eq_true_iff.mp h).2
      have plain := (isKeyChar_plain (all first List.mem_cons_self)).2.1
      rw [List.cons_append, List.cons_append, List.dropWhile_cons_of_pos rfl, List.cons_append, List.cons_append,
        List.dropWhile_cons_of_neg (by simp [plain])]
  rw [readAttributes]
  split
  · rename_i empty
    rw [start] at empty
    simp at empty
  · rename_i c r here
    rw [start] at here
    rw [← here]
    split
    · rename_i failed
      rw [readKey_written h] at failed
      cases failed
    · rename_i found
      rw [readKey_written h] at found
      cases found
      rw [if_neg (by simp [fresh])]
      split
      · rename_i failed
        rw [readValue_written] at failed
        cases failed
      · rename_i found
        rw [readValue_written] at found
        cases found
        rw [unescape_escape]

def present (as : Written) : Attributes := as.filterMap fun a => a.2.map fun v => (a.1.toList, v.toList)

structure Writable (as : Written) : Prop where
  keys : ∀ a ∈ as, isKey a.1.toList = true
  distinct : (as.map Prod.fst).Nodup

theorem readAttributes_attributeText {as : Written} (h : Writable as)
    (fresh : ∀ a ∈ as, known.lookup a.1.toList = none) :
    readAttributes known (attributeText as) = some (known ++ present as) := by
  induction as generalizing known with
  | nil => simp [attributeText, present, readAttributes]
  | cons a as ih =>
    obtain ⟨key, value⟩ := a
    have tail : Writable as :=
      { keys := fun a ha => h.keys a (List.mem_cons_of_mem _ ha)
        distinct := (List.nodup_cons.mp h.distinct).2 }
    cases value with
    | none => exact ih tail fun a ha => fresh a (List.mem_cons_of_mem _ ha)
    | some v =>
      have read := readAttributes_written v.toList (attributeText as) (h.keys _ List.mem_cons_self)
        (fresh _ List.mem_cons_self)
      have text : attributeText ((key, some v) :: as) =
          ' ' :: key.toList ++ '=' :: '"' :: escape v.toList ++ '"' :: attributeText as := by
        simp [attributeText]
      rw [text, read, ih tail]
      · simp [present]
      · intro a ha
        have other : a.1.toList ≠ key.toList := by
          intro same
          rw [String.toList_inj] at same
          have listed : a.1 ∈ as.map Prod.fst := List.mem_map_of_mem ha
          exact (List.nodup_cons.mp h.distinct).1 (same ▸ listed)
        rw [List.lookup_append, fresh a (List.mem_cons_of_mem _ ha), List.lookup_cons, beq_false_of_ne other]
        rfl

theorem lookup_present {as : Written} (distinct : (as.map Prod.fst).Nodup) (key : String) :
    (present as).lookup key.toList = (as.lookup key).join.map String.toList := by
  induction as with
  | nil => rfl
  | cons a as ih =>
    obtain ⟨k, value⟩ := a
    obtain ⟨absent, distinct⟩ := List.nodup_cons.mp distinct
    have rest := ih distinct
    by_cases here : key = k
    · subst here
      cases value with
      | some v => simp [present]
      | none =>
        have missing : as.lookup key = none := by
          rw [List.lookup_eq_none_iff]
          intro a ha
          have listed : a.1 ∈ as.map Prod.fst := List.mem_map_of_mem ha
          exact bne_iff_ne.mpr fun same => absent (same ▸ listed)
        show (present as).lookup key.toList = _
        rw [rest, missing, List.lookup_cons, beq_self_eq_true]
        rfl
    · have apart : (key == k) = false := beq_false_of_ne here
      have apart' : (key.toList == k.toList) = false := by
        apply beq_false_of_ne
        rwa [Ne, String.toList_inj]
      cases value with
      | none =>
        show (present as).lookup key.toList = _
        rw [rest, List.lookup_cons, apart]
      | some v =>
        show ((k.toList, v.toList) :: present as).lookup key.toList = _
        rw [List.lookup_cons, apart', List.lookup_cons, apart, rest]

theorem text_present {as : Written} (distinct : (as.map Prod.fst).Nodup) (key : String) :
    (present as).text key = (as.lookup key).join := by
  rw [Attributes.text, lookup_present distinct, Option.map_map]
  cases (as.lookup key).join <;> simp

/-- Quotes are closed and angle brackets quoted, so a tag does not end in the text. -/
def Balanced (cs : List Char) : Prop :=
  ∀ rest, upToUnquoted none (cs ++ rest) = (upToUnquoted none rest).map fun p => (cs ++ p.1, p.2)

theorem balanced_nil : Balanced [] := by
  intro rest
  cases h : upToUnquoted none rest <;> simp [h]

theorem Balanced.append {ds : List Char} (hc : Balanced cs) (hd : Balanced ds) : Balanced (cs ++ ds) := by
  intro rest
  rw [List.append_assoc, hc, hd]
  cases upToUnquoted none rest <;> simp

theorem Balanced.cons {c : Char} (plain : c ≠ '>' ∧ c ≠ '"' ∧ c ≠ '\'') (h : Balanced cs) : Balanced (c :: cs) := by
  intro rest
  obtain ⟨gt, quot, apos⟩ := plain
  rw [List.cons_append, upToUnquoted]
  simp only [beq_false_of_ne gt, beq_false_of_ne quot, beq_false_of_ne apos, nextQuote, Bool.false_and, Bool.or_self,
    Bool.false_eq_true, if_false]
  rw [h rest]
  cases upToUnquoted none rest <;> simp

theorem balanced_of_plain (h : ∀ c ∈ cs, c ≠ '>' ∧ c ≠ '"' ∧ c ≠ '\'') : Balanced cs := by
  induction cs with
  | nil => exact balanced_nil
  | cons c cs ih =>
    obtain ⟨plain, rest⟩ := List.forall_mem_cons.mp h
    exact (ih rest).cons plain

theorem upToUnquoted_quoted (h : ∀ c ∈ cs, c ≠ '"') (rest : List Char) : upToUnquoted (some '"') (cs ++ '"' :: rest) =
    (upToUnquoted none rest).map fun p => (cs ++ '"' :: p.1, p.2) := by
  induction cs with
  | nil =>
    rw [List.nil_append, upToUnquoted]
    rfl
  | cons c cs ih =>
    obtain ⟨plain, others⟩ := List.forall_mem_cons.mp h
    rw [List.cons_append, upToUnquoted]
    simp only [Option.isNone_some, Bool.and_false, Bool.false_eq_true, if_false, nextQuote, beq_false_of_ne plain]
    rw [ih others]
    cases upToUnquoted none rest <;> simp

theorem balanced_quoted (h : ∀ c ∈ cs, c ≠ '"') : Balanced ('"' :: cs ++ ['"']) := by
  intro rest
  have opened := upToUnquoted_quoted h rest
  have step : upToUnquoted none ('"' :: (cs ++ '"' :: rest)) =
      (upToUnquoted (some '"') (cs ++ '"' :: rest)).map fun p => ('"' :: p.1, p.2) := rfl
  rw [List.cons_append, List.cons_append, List.append_assoc, List.singleton_append, step, opened]
  cases upToUnquoted none rest <;> simp

theorem isKey.plain (h : isKey key = true) : ∀ c ∈ key, c ≠ '>' ∧ c ≠ '"' ∧ c ≠ '\'' := by
  intro c hc
  exact (isKeyChar_plain (List.all_eq_true.mp (Bool.and_eq_true_iff.mp h).2 c hc)).2.2

theorem balanced_attributeText {as : Written} (keys : ∀ a ∈ as, isKey a.1.toList = true) :
    Balanced (attributeText as) := by
  induction as with
  | nil => exact balanced_nil
  | cons a as ih =>
    obtain ⟨key, value⟩ := a
    obtain ⟨own, others⟩ := List.forall_mem_cons.mp keys
    cases value with
    | none => exact ih others
    | some v =>
      have text : attributeText ((key, some v) :: as) =
          ' ' :: key.toList ++ ('=' :: ('"' :: escape v.toList ++ ['"'])) ++ attributeText as := by
        simp [attributeText]
      have quoted : Balanced ('"' :: escape v.toList ++ ['"']) :=
        balanced_quoted fun c hc => (not_delimiter_of_mem_escape hc).2.2.2
      have named := (balanced_of_plain (isKey.plain own)).cons (c := ' ') (by decide)
      rw [text]
      exact (named.append (quoted.cons (by decide))).append (ih others)

structure TagBody (body : List Char) : Prop where
  balanced : Balanced body
  first : ∃ c more, body = c :: more ∧ isKeyChar c = true ∧ c ≠ '!' ∧ c ≠ '?' ∧ c ≠ '/'

theorem markup_tag (h : TagBody cs) (rest : List Char) : markup (cs ++ '>' :: rest) = some (tag cs, rest) := by
  have ends : upToUnquoted none (cs ++ '>' :: rest) = some (cs, rest) := by
    rw [h.balanced]
    simp [upToUnquoted]
  obtain ⟨c, more, rfl, -, mark, ask, slash⟩ := h.first
  rw [List.cons_append] at ends ⊢
  unfold markup
  split
  · rename_i nothing
    cases nothing
  · rename_i same
    exact absurd (List.cons.inj same).1 mark
  · rename_i same
    exact absurd (List.cons.inj same).1 mark
  · rename_i same
    exact absurd (List.cons.inj same).1 mark
  · rename_i same
    exact absurd (List.cons.inj same).1 mark
  · rename_i same
    exact absurd (List.cons.inj same).1 ask
  · rename_i same
    exact absurd (List.cons.inj same).1 slash
  · rw [ends]
    rfl

theorem markup_emptyTag (h : TagBody cs) (rest : List Char) :
    markup (cs ++ '/' :: '>' :: rest) = some (.emptyTag cs, rest) := by
  have slashed : TagBody (cs ++ ['/']) := by
    obtain ⟨c, more, rfl, others⟩ := h.first
    exact
      { balanced := h.balanced.append (balanced_nil.cons (by decide))
        first := ⟨c, more ++ ['/'], rfl, others⟩ }
  have ends := markup_tag slashed rest
  rw [List.append_assoc] at ends
  have empty : tag (cs ++ ['/']) = .emptyTag cs := by
    simp [tag]
  rw [← empty]
  exact ends

theorem markup_openTag (h : TagBody cs) (last : cs.getLast? ≠ some '/') (rest : List Char) :
    markup (cs ++ '>' :: rest) = some (.openTag cs, rest) := by
  rw [markup_tag h]
  have opens : tag cs = .openTag cs := by
    unfold tag
    split
    · rename_i r reversed
      rw [← List.head?_reverse, reversed] at last
      exact absurd rfl last
    · rfl
  rw [opens]

theorem markup_closeTag (h : Balanced cs) (rest : List Char) :
    markup ('/' :: cs ++ '>' :: rest) = some (.closeTag cs, rest) := by
  have ends : upToUnquoted none (cs ++ '>' :: rest) = some (cs, rest) := by
    rw [h]
    simp [upToUnquoted]
  show (upToUnquoted none (cs ++ '>' :: rest)).bind _ = _
  rw [ends]
  rfl

theorem not_mem_iff_plain {run : List Char} : '<' ∉ run ↔ ∀ c ∈ run, (c != '<') = true := by
  simp only [bne_iff_ne]
  exact List.forall_mem_ne'.symm

theorem lexemes_plain {run : List Char} (plain : '<' ∉ run) : lexemes run = textRun run := by
  have before := not_mem_iff_plain.mp plain
  rw [lexemes, List.takeWhile_eq_self_iff.mpr before]
  split
  · rw [List.append_nil]
  · rename_i found
    rw [List.dropWhile_eq_nil_iff.mpr before] at found
    cases found

/-- Text without angle brackets before one that begins with one. -/
theorem lexemes_cut {run : List Char} (plain : '<' ∉ run) (more : List Char) :
    lexemes (run ++ '<' :: more) = textRun run ++
      match markup more with
      | none => [.malformed]
      | some (x, rest) => x :: lexemes rest := by
  have before := not_mem_iff_plain.mp plain
  have taken := Text.takeWhile_stop '<' more before (by decide)
  have dropped := Text.dropWhile_stop '<' more before (by decide)
  rw [lexemes, taken]
  congr 1
  split
  · rename_i nothing
    rw [dropped] at nothing
    cases nothing
  · rename_i c r here
    rw [dropped] at here
    cases here
    split
    · rename_i failed
      rw [failed]
    · rename_i found
      rw [found]

/-- Text without angle brackets before a piece of markup. -/
theorem lexemes_markup {run more : List Char} {x : Lexeme} (plain : '<' ∉ run) (piece : markup more = some (x, rest)) :
    lexemes (run ++ '<' :: more) = textRun run ++ x :: lexemes rest := by
  rw [lexemes_cut plain, piece]

theorem lexemes_piece {more : List Char} {x : Lexeme} (piece : markup more = some (x, rest)) :
    lexemes ('<' :: more) = x :: lexemes rest :=
  lexemes_markup (show '<' ∉ [] from List.not_mem_nil) piece

theorem lexemes_nil : lexemes [] = [] := lexemes_plain List.not_mem_nil

/-- Lexemes are found piece by piece. -/
theorem lexemes_cons {more : List Char} {x : Lexeme} {xs : List Lexeme} (piece : markup more = some (x, rest))
    (later : lexemes rest = xs) : lexemes ('<' :: more) = x :: xs := by
  rw [lexemes_piece piece, later]

end Markup

end EncounterTimeline

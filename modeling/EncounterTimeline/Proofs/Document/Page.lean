import EncounterTimeline.Proofs.Document.Events

/-! # Pages

A page is a document as a tree: what stands before the root, the root, and what is inside it at any depth. Written out, it
is cut into the events of that tree again, whatever the names that nest in it, as long as its document type is closed where
its angle brackets say so.
-/
namespace EncounterTimeline

open Markup Document

namespace Markup

variable {text closer front back rest : List Char} {closes : List Char → Bool}

/-- A text that closes at its end and at no `>` inside it ends where it should. -/
theorem upTo_stop {body before : List Char} (ends : closes (body.reverse ++ before) = true)
    (inside : ∀ front back, body = front ++ '>' :: back → closes (front.reverse ++ before) = false) (rest : List Char) :
    upTo closes before (body ++ '>' :: rest) = some (before.reverse ++ body, rest) := by
  induction body generalizing before with
  | nil =>
    have ends : closes before = true := ends
    simp [upTo, ends]
  | cons c body ih =>
    have goesOn : (c == '>' && closes before) = false := by
      by_cases here : c = '>'
      · have open_ : closes before = false := inside [] body (by rw [here]; rfl)
        rw [open_, Bool.and_false]
      · rw [beq_false_of_ne here, Bool.false_and]
    rw [List.cons_append, upTo, if_neg (by simp [goesOn]), ih]
    · simp
    · simpa using ends
    · intro front back split
      have := inside (c :: front) back (by rw [split]; rfl)
      simpa using this

theorem infix_of_closes (plain : '>' ∉ closer) (split : text ++ closer = front ++ closer ++ '>' :: back) :
    closer ++ ['>'] <:+: text := by
  rcases List.append_eq_append_iff.mp split with ⟨x, -, tail⟩ | ⟨x, whole, tail⟩
  · exact absurd (tail ▸ List.mem_append_right x List.mem_cons_self) plain
  · cases x with
    | nil => exact absurd (List.mem_cons_self (a := '>') (l := back)) (tail ▸ plain)
    | cons c x =>
      cases (List.cons.inj tail).1
      exact ⟨front, x, by rw [whole]; simp⟩

theorem split_after {mark tail : List Char} (split : mark ++ tail = front ++ back) (long : mark.length ≤ front.length) :
    ∃ inner, front = mark ++ inner ∧ tail = inner ++ back := by
  rcases List.append_eq_append_iff.mp split with ⟨x, whole, tail_eq⟩ | ⟨x, whole, tail_eq⟩
  · exact ⟨x, whole, tail_eq⟩
  · have length := congrArg List.length whole
    rw [List.length_append] at length
    obtain rfl := List.length_eq_zero_iff.mp (show x.length = 0 by omega)
    exact ⟨[], by simpa using whole.symm, by simpa using tail_eq.symm⟩

/-- Between its marks a text is read to its end if only what ends in the closing mark closes it, and that is not in it. -/
theorem upTo_closer (mark closer : List Char) (plain : '>' ∉ closer) (clear : ¬ closer ++ ['>'] <:+: text)
    (ends : closes (mark ++ text ++ closer).reverse = true)
    (form : ∀ front back, mark ++ text ++ closer = front ++ '>' :: back → closes front.reverse = true →
      ∃ before, front = before ++ closer ∧ mark.length ≤ before.length) (rest : List Char) :
    upTo closes [] (mark ++ text ++ closer ++ '>' :: rest) = some (mark ++ text ++ closer, rest) := by
  refine upTo_stop (by rwa [List.append_nil]) (fun front back split => Bool.eq_false_iff.mpr fun closed => clear ?_) rest
  rw [List.append_nil] at closed
  obtain ⟨before, rfl, long⟩ := form front back split closed
  have cut : mark ++ (text ++ closer) = before ++ (closer ++ '>' :: back) := by simpa using split
  obtain ⟨inner, -, tail⟩ := split_after cut long
  have split_tail : text ++ closer = inner ++ closer ++ '>' :: back := by rw [tail, List.append_assoc]
  exact infix_of_closes plain split_tail

theorem markup_comment (h : ¬ "-->".toList <:+: text) (rest : List Char) :
    markup ("!--".toList ++ text ++ "--".toList ++ '>' :: rest) = some (.remark, rest) := by
  have form (front : List Char) (closed : closesComment front.reverse = true) :
      ∃ before, front = before ++ "--".toList ∧ "!--".toList.length ≤ before.length := by
    unfold closesComment at closed
    split at closed
    · rename_i r reversed
      exact ⟨r.reverse, by simpa using congrArg List.reverse reversed, by simpa using closed⟩
    · cases closed
  have ends := upTo_closer "!--".toList "--".toList (by decide) h
    (show closesComment _ = true by simp [closesComment]) (fun front _ _ => form front) rest
  show (upTo closesComment [] ("!--".toList ++ text ++ "--".toList ++ '>' :: rest)).bind _ = _
  rw [ends]
  rfl

theorem markup_instruction (first : ∃ c ∈ text.head?, c ≠ '>') (h : ¬ "?>".toList <:+: text) (rest : List Char) :
    markup (['?'] ++ text ++ ['?'] ++ '>' :: rest) = some (.remark, rest) := by
  obtain ⟨c, more, other, rfl⟩ : ∃ c more, c ≠ '>' ∧ text = c :: more := by
    obtain ⟨c, here, other⟩ := first
    obtain ⟨more, rfl⟩ := List.head?_eq_some_iff.mp here
    exact ⟨c, more, other, rfl⟩
  have form (front back : List Char) (split : ['?'] ++ (c :: more) ++ ['?'] = front ++ '>' :: back)
      (closed : closesInstruction front.reverse = true) :
      ∃ before, front = before ++ ['?'] ∧ ['?'].length ≤ before.length := by
    unfold closesInstruction at closed
    split at closed
    · rename_i r reversed
      have front_eq : front = r.reverse ++ ['?'] := by simpa using congrArg List.reverse reversed
      cases r with
      | nil =>
        rw [front_eq] at split
        simp [other] at split
      | cons x r => exact ⟨_, front_eq, by simp⟩
    · cases closed
  have ends := upTo_closer ['?'] ['?'] (by decide) h (by simp [closesInstruction]) form rest
  show (upTo closesInstruction [] (['?'] ++ (c :: more) ++ ['?'] ++ '>' :: rest)).bind _ = _
  rw [ends]
  simp [instruction]

theorem markup_verbatim (h : ¬ "]]>".toList <:+: text) (rest : List Char) :
    markup (verbatimMark ++ text ++ "]]".toList ++ '>' :: rest) = some (.verbatim text, rest) := by
  have form (front back : List Char) (split : verbatimMark ++ text ++ "]]".toList = front ++ '>' :: back)
      (closed : closesVerbatim front.reverse = true) :
      ∃ before, front = before ++ "]]".toList ∧ verbatimMark.length ≤ before.length := by
    unfold closesVerbatim at closed
    split at closed
    · rename_i r reversed
      have front_eq : front = r.reverse ++ "]]".toList := by simpa using congrArg List.reverse reversed
      refine ⟨_, front_eq, ?_⟩
      -- The mark has no such bracket in it, so the brackets stand behind it.
      have cut : verbatimMark ++ (text ++ "]]".toList) = r.reverse ++ ("]]".toList ++ '>' :: back) := by
        rw [front_eq] at split
        simpa using split
      rcases List.append_eq_append_iff.mp cut with ⟨x, whole, -⟩ | ⟨x, whole, tail⟩
      · rw [whole, List.length_append]
        exact Nat.le_add_right _ _
      · cases x with
        | nil => rw [whole, List.append_nil]
        | cons c x =>
          cases (List.cons.inj tail).1
          have inside : ']' ∈ verbatimMark := whole ▸ List.mem_append_right _ List.mem_cons_self
          exact absurd inside (by decide)
    · cases closed
  have ends := upTo_closer verbatimMark "]]".toList (by decide) h (by simp [closesVerbatim]) form rest
  show (upTo closesVerbatim [] (verbatimMark ++ text ++ "]]".toList ++ '>' :: rest)).bind _ = _
  rw [ends]
  simp [verbatim, List.append_assoc]

/-- As many angle brackets are opened as closed, and none is closed before the end that none inside opened. -/
structure Paired (text : List Char) : Prop where
  whole : text.count '<' = text.count '>'
  inside : ∀ front back, text = front ++ '>' :: back → front.count '<' ≠ front.count '>'

theorem markup_doctype (h : Paired text) (named : text.all isSpace = false) (rest : List Char) :
    markup (doctypeMark ++ text ++ '>' :: rest) = some (.remark, rest) := by
  have plain : doctypeMark.count '<' = 0 ∧ doctypeMark.count '>' = 0 := by decide
  have counts (inner : List Char) :
      closesDoctype (doctypeMark ++ inner).reverse = (inner.count '<' == inner.count '>') := by
    rw [closesDoctype, List.count_reverse, List.count_reverse, List.count_append, List.count_append, plain.1, plain.2,
      Nat.zero_add, Nat.zero_add]
  have ends : upTo closesDoctype [] (doctypeMark ++ text ++ '>' :: rest) = some (doctypeMark ++ text, rest) := by
    refine upTo_stop (by rw [List.append_nil, counts, h.whole, beq_self_eq_true]) (fun front back split => ?_) rest
    rcases List.append_eq_append_iff.mp split with ⟨inner, rfl, tail⟩ | ⟨x, whole, tail⟩
    · rw [List.append_nil, counts]
      exact beq_false_of_ne (h.inside inner back tail)
    · cases x with
      | nil =>
        rw [List.append_nil] at whole
        have none := counts []
        rw [List.append_nil, whole] at none
        exact absurd rfl (h.inside [] back tail.symm)
      | cons c x =>
        cases (List.cons.inj tail).1
        have inside : '>' ∈ doctypeMark := whole ▸ List.mem_append_right _ List.mem_cons_self
        exact absurd inside (by decide)
  show (upTo closesDoctype [] (doctypeMark ++ text ++ '>' :: rest)).bind _ = _
  rw [ends]
  have mark : doctypeMark.map Char.toUpper = doctypeMark := by decide
  simp only [Option.bind_some, doctype, List.take_left', List.drop_left', mark, named, beq_self_eq_true, Bool.not_false,
    Bool.and_self, if_true, Option.map_some]

inductive Aside where
  | comment (text : List Char)
  | instruction (text : List Char)
  deriving DecidableEq, Repr

namespace Aside

def body : Aside → List Char
  | comment text => "!--".toList ++ text ++ "--".toList ++ ['>']
  | instruction text => ['?'] ++ text ++ ['?'] ++ ['>']

def WellFormed : Aside → Prop
  | comment text => ¬ "-->".toList <:+: text
  | instruction text => (∃ c ∈ text.head?, c ≠ '>') ∧ ¬ "?>".toList <:+: text

theorem WellFormed.markup {a : Aside} (h : a.WellFormed) (rest : List Char) :
    Markup.markup (a.body ++ rest) = some (.remark, rest) := by
  cases a with
  | comment text =>
    rw [body, List.append_assoc, List.singleton_append]
    exact markup_comment h rest
  | instruction text =>
    rw [body, List.append_assoc, List.singleton_append]
    exact markup_instruction h.1 h.2 rest

end Aside

namespace Tag

def body (tag : Tag) : List Char := tag.name ++ tag.attributeText

structure WellFormed (tag : Tag) : Prop where
  named : TagName tag.name
  parted : ∀ c ∈ tag.attributeText.head?, isSpace c = true
  balanced : Balanced tag.attributeText

variable {tag : Tag}

namespace WellFormed

theorem name_plain (h : tag.WellFormed) : ∀ c ∈ tag.name, isSpace c = false := by
  intro c mem
  exact (isKeyChar_plain (List.all_eq_true.mp (Bool.and_eq_true_iff.mp h.named.key).2 c mem)).2.1

theorem ofBody (h : tag.WellFormed) : Tag.ofBody tag.body = tag := by
  have plain : ∀ c ∈ tag.name, (!isSpace c) = true := by simpa using h.name_plain
  obtain ⟨name, text⟩ := tag
  cases text with
  | nil =>
    rw [body, List.append_nil, Tag.ofBody, List.takeWhile_eq_self_iff.mpr plain, List.dropWhile_eq_nil_iff.mpr plain]
  | cons c text =>
    have blank : (!isSpace c) = false := by rw [h.parted c rfl]; rfl
    rw [body, Tag.ofBody, Text.takeWhile_stop c text plain blank, Text.dropWhile_stop c text plain blank]

theorem tagBody (h : tag.WellFormed) : TagBody tag.body := by
  have bare : TagBody (tag.name ++ Document.attributeText []) := h.named.tagBody (by simp)
  rw [Document.attributeText, List.flatMap_nil, List.append_nil] at bare
  obtain ⟨c, more, name_eq, first⟩ := bare.first
  exact
    { balanced := bare.balanced.append h.balanced
      first := ⟨c, more ++ tag.attributeText, by rw [body, name_eq]; rfl, first⟩ }

theorem closedName (h : tag.WellFormed) {gap : List Char} (blank : ∀ c ∈ gap, isSpace c = true) :
    closedName (tag.name ++ gap) = tag.name := by
  have filled : tag.name ≠ [] := by
    intro empty
    have key := h.named.key
    rw [empty] at key
    cases key
  have cut : (tag.name ++ gap).reverse.dropWhile isSpace = tag.name.reverse := by
    rw [List.reverse_append, List.dropWhile_append_of_pos (by simpa using blank)]
    obtain ⟨c, more, reversed⟩ := List.exists_cons_of_ne_nil (List.reverse_ne_nil_iff.mpr filled)
    have last : isSpace c = false := h.name_plain c (List.mem_reverse.mp (reversed ▸ List.mem_cons_self))
    rw [reversed, List.dropWhile_cons_of_neg (by simp [last])]
  rw [Markup.closedName, cut]
  split
  · rename_i empty
    exact absurd (List.reverse_eq_nil_iff.mp empty) filled
  · rw [List.reverse_reverse]

end WellFormed

end Tag

inductive Leaf where
  | aside (a : Aside)
  | verbatim (content : List Char)
  | single (tag : Tag)
  deriving DecidableEq, Repr

namespace Leaf

def body : Leaf → List Char
  | aside a => a.body
  | verbatim content => verbatimMark ++ content ++ "]]".toList ++ ['>']
  | single tag => tag.body ++ ['/', '>']

def WellFormed : Leaf → Prop
  | aside a => a.WellFormed
  | verbatim content => ¬ "]]>".toList <:+: content
  | single tag => tag.WellFormed

def events : Leaf → List Event
  | aside _ => []
  | verbatim content => [.verbatim content]
  | single tag => [.single tag]

end Leaf

/-- What stands between the two tags of an element: a run of text, and then nothing more, or a leaf or an element with its
own content and the blanks of its closing tag, and later content. -/
inductive Content where
  | ends (run : List Char)
  | leaf (run : List Char) (l : Leaf) (later : Content)
  | element (run : List Char) (tag : Tag) (inner : Content) (gap : List Char) (later : Content)
  deriving DecidableEq, Repr

structure Opens (tag : Tag) (gap : List Char) : Prop where
  wellFormed : tag.WellFormed
  last : tag.body.getLast? ≠ some '/'
  gap : ∀ c ∈ gap, isSpace c = true

namespace Content

def write : Content → List Char
  | ends run => run
  | leaf run l later => run ++ '<' :: (l.body ++ later.write)
  | element run tag inner gap later =>
    run ++ '<' :: (tag.body ++ '>' :: (inner.write ++ '<' :: ('/' :: (tag.name ++ gap) ++ '>' :: later.write)))

def WellFormed : Content → Prop
  | ends run => '<' ∉ run
  | leaf run l later => '<' ∉ run ∧ l.WellFormed ∧ later.WellFormed
  | element run tag inner gap later => '<' ∉ run ∧ Opens tag gap ∧ inner.WellFormed ∧ later.WellFormed

def runEvents (run : List Char) : List Event := textEvents (Text.trimBoth isSpace run)

def events : Content → List Event
  | ends run => runEvents run
  | leaf run l later => runEvents run ++ l.events ++ later.events
  | element run tag inner _ later => runEvents run ++ .enter tag :: inner.events ++ .leave tag.name :: later.events

variable {c : Content} {run more rest : List Char} {x : Lexeme} {opened : List (List Char)}

theorem eventsFrom_leaf {l : Leaf} (plain : '<' ∉ run) (h : l.WellFormed) :
    eventsFrom opened (lexemes (run ++ '<' :: (l.body ++ rest))) =
      runEvents run ++ l.events ++ eventsFrom opened (lexemes rest) := by
  have piece : ∃ x, markup (l.body ++ rest) = some (x, rest) ∧
      eventsFrom opened (x :: lexemes rest) = l.events ++ eventsFrom opened (lexemes rest) := by
    cases l with
    | aside a => exact ⟨_, Aside.WellFormed.markup h rest, rfl⟩
    | verbatim content =>
      rw [Leaf.body, List.append_assoc, List.singleton_append]
      exact ⟨_, markup_verbatim h rest, rfl⟩
    | single tag =>
      have tagged : tag.WellFormed := h
      have text : Leaf.body (.single tag) ++ rest = tag.body ++ '/' :: '>' :: rest := by simp [Leaf.body]
      rw [text]
      refine ⟨_, markup_emptyTag tagged.tagBody rest, ?_⟩
      rw [eventsFrom, tagged.ofBody]
      rfl
  obtain ⟨x, found, shown⟩ := piece
  rw [lexemes_markup plain found, eventsFrom_textRun, shown, runEvents, List.append_assoc]

theorem eventsFrom_enter {tag : Tag} {gap : List Char} (plain : '<' ∉ run) (h : Opens tag gap) :
    eventsFrom opened (lexemes (run ++ '<' :: (tag.body ++ '>' :: rest))) =
      runEvents run ++ .enter tag :: eventsFrom (tag.name :: opened) (lexemes rest) := by
  rw [lexemes_markup plain (markup_openTag h.wellFormed.tagBody h.last rest), eventsFrom_textRun, eventsFrom, h.wellFormed.ofBody]
  rfl

theorem markup_leave {tag : Tag} {gap : List Char} (h : Opens tag gap) (rest : List Char) :
    markup ('/' :: (tag.name ++ gap) ++ '>' :: rest) = some (.closeTag (tag.name ++ gap), rest) := by
  have blank : ∀ c ∈ gap, c ≠ '>' ∧ c ≠ '"' ∧ c ≠ '\'' := by
    intro c mem
    have space := h.gap c mem
    refine ⟨?_, ?_, ?_⟩ <;> rintro rfl <;> cases space
  exact markup_closeTag ((balanced_of_plain (isKey.plain h.wellFormed.named.key)).append (balanced_of_plain blank)) rest

/-- Content before a piece of markup that does not belong to it is cut into its events, whatever tags are open. -/
theorem eventsFrom_write (h : c.WellFormed) (piece : markup more = some (x, rest)) :
    eventsFrom opened (lexemes (c.write ++ '<' :: more)) = c.events ++ eventsFrom opened (x :: lexemes rest) := by
  -- Inside an element its own closing tag is the piece that follows, and its name is open.
  induction c generalizing opened more x rest with
  | ends run =>
    have plain : '<' ∉ run := h
    rw [write, lexemes_markup plain piece, eventsFrom_textRun, events, runEvents]
  | leaf run l later ih =>
    obtain ⟨plain, leaf, others⟩ := h
    rw [write, List.append_assoc, List.cons_append, List.append_assoc, eventsFrom_leaf plain leaf, ih others piece, events]
    simp only [List.append_assoc]
  | element run tag inner gap later ihInner ihLater =>
    obtain ⟨plain, opens, inside, others⟩ := h
    have text : (element run tag inner gap later).write ++ '<' :: more = run ++ '<' :: (tag.body ++ '>' ::
        (inner.write ++ '<' :: ('/' :: (tag.name ++ gap) ++ '>' :: (later.write ++ '<' :: more)))) := by
      simp [write]
    have closed : eventsFrom (tag.name :: opened) (.closeTag (tag.name ++ gap) :: lexemes (later.write ++ '<' :: more)) =
        .leave tag.name :: eventsFrom opened (lexemes (later.write ++ '<' :: more)) := by
      rw [eventsFrom, if_pos (opens.wellFormed.closedName opens.gap)]
    rw [text, eventsFrom_enter plain opens, ihInner inside (markup_leave opens _), closed, ihLater others piece, events]
    simp

end Content

def isPlain (c : Char) : Bool := !(c == '<' || c == '>' || c == '"' || c == '\'')

/-- What may stand in a document type: quoted literals, and further declarations, comments and instructions. -/
inductive Declares : List Char → Prop where
  | nil : Declares []
  | plain {c : Char} {rest : List Char} (h : isPlain c = true) (later : Declares rest) : Declares (c :: rest)
  | literal {quote : Char} {text rest : List Char} (h : quote = '"' ∨ quote = '\'') (inside : quote ∉ text)
      (later : Declares rest) : Declares (quote :: text ++ quote :: rest)
  | aside {a : Aside} {rest : List Char} (h : a.WellFormed) (later : Declares rest) : Declares ('<' :: a.body ++ rest)
  | declaration {inner rest : List Char} (h : Declares inner) (later : Declares rest) :
      Declares ('<' :: '!' :: inner ++ '>' :: rest)

theorem Declares.append_plain (text : List Char) {rest : List Char} (h : text.all isPlain = true) (later : Declares rest) :
    Declares (text ++ rest) := by
  induction text with
  | nil => exact later
  | cons c text ih =>
    obtain ⟨own, others⟩ := Bool.and_eq_true_iff.mp h
    exact .plain own (ih others)

inductive Heading where
  | aside (a : Aside)
  | doctype (text : List Char)
  deriving DecidableEq, Repr

namespace Heading

def body : Heading → List Char
  | aside a => a.body
  | doctype text => doctypeMark ++ text ++ ['>']

def WellFormed : Heading → Prop
  | aside a => a.WellFormed
  | doctype text => Declares text ∧ text.all isSpace = false

def Paired : Heading → Prop
  | aside _ => True
  | doctype text => Markup.Paired text

theorem WellFormed.markup {h : Heading} (wellFormed : h.WellFormed) (paired : h.Paired) (rest : List Char) :
    Markup.markup (h.body ++ rest) = some (.remark, rest) := by
  cases h with
  | aside a => exact Aside.WellFormed.markup wellFormed rest
  | doctype text =>
    rw [body, List.append_assoc, List.singleton_append]
    exact markup_doctype paired wellFormed.2 rest

end Heading

structure Page where
  marked : Bool := false
  headings : List (List Char × Heading) := []
  gap : List Char := []
  root : Tag
  inside : Option (Content × List Char) := none
  after : List Char := []
  deriving DecidableEq, Repr

namespace Page

def rootText (p : Page) : List Char :=
  match p.inside with
  | none => p.root.body ++ '/' :: '>' :: p.after
  | some (c, gap) => p.root.body ++ '>' :: (c.write ++ '<' :: ('/' :: (p.root.name ++ gap) ++ '>' :: p.after))

def headingText (headings : List (List Char × Heading)) : List Char :=
  headings.flatMap fun (run, h) => run ++ '<' :: h.body

def write (p : Page) : List Char :=
  (if p.marked then ['\uFEFF'] else []) ++ (headingText p.headings ++ (p.gap ++ '<' :: p.rootText))

structure WellFormed (p : Page) : Prop where
  headings : ∀ h ∈ p.headings, (∀ c ∈ h.1, isSpace c = true) ∧ h.2.WellFormed
  gap : ∀ c ∈ p.gap, isSpace c = true
  root : p.inside = none → p.root.WellFormed
  inside : ∀ c gap, p.inside = some (c, gap) → Opens p.root gap ∧ c.WellFormed

def Paired (p : Page) : Prop := ∀ h ∈ p.headings, h.2.Paired

def events (p : Page) : List Event :=
  match p.inside with
  | none => [.single p.root]
  | some (c, _) => .enter p.root :: c.events ++ [.leave p.root.name]

variable {p : Page} {opened : List (List Char)} {headings : List (List Char × Heading)} {run rest : List Char}

theorem not_mem_of_blank (blank : ∀ c ∈ run, isSpace c = true) : '<' ∉ run := fun mem => by cases blank _ mem

theorem runEvents_of_blank (blank : ∀ c ∈ run, isSpace c = true) : Content.runEvents run = [] := by
  rw [Content.runEvents, Text.trimBoth_of_all blank]
  rfl

theorem eventsFrom_headings (h : ∀ h ∈ headings, (∀ c ∈ h.1, isSpace c = true) ∧ h.2.WellFormed)
    (paired : ∀ h ∈ headings, h.2.Paired) :
    eventsFrom opened (lexemes (headingText headings ++ rest)) = eventsFrom opened (lexemes rest) := by
  induction headings with
  | nil => rfl
  | cons heading headings ih =>
    obtain ⟨run, heading⟩ := heading
    obtain ⟨⟨blank, own⟩, others⟩ := List.forall_mem_cons.mp h
    obtain ⟨ownPaired, othersPaired⟩ := List.forall_mem_cons.mp paired
    have text : headingText ((run, heading) :: headings) ++ rest =
        run ++ '<' :: (heading.body ++ (headingText headings ++ rest)) := by
      simp [headingText]
    have silent : textRun run = [] := by rw [textRun, Text.trimBoth_of_all blank]
    rw [text, lexemes_markup (not_mem_of_blank blank) (own.markup ownPaired _), silent, List.nil_append, eventsFrom,
      ih others othersPaired]

theorem dropMark_write (h : p.WellFormed) :
    dropMark p.write = headingText p.headings ++ (p.gap ++ '<' :: p.rootText) := by
  have started : ∃ run more, (∀ c ∈ run, isSpace c = true) ∧
      headingText p.headings ++ (p.gap ++ '<' :: p.rootText) = run ++ '<' :: more := by
    cases headings : p.headings with
    | nil => exact ⟨p.gap, p.rootText, h.gap, rfl⟩
    | cons heading others =>
      have own := h.headings heading (headings ▸ List.mem_cons_self)
      exact ⟨heading.1, _, own.1, by simp [headingText]; rfl⟩
  obtain ⟨run, more, blank, text⟩ := started
  rw [write, text]
  cases p.marked with
  | true => rfl
  | false =>
    cases run with
    | nil => rfl
    | cons c run =>
      have other : c ≠ '\uFEFF' := by
        rintro rfl
        cases blank _ List.mem_cons_self
      simp [dropMark, other]

/-- A written page is cut into the events of its root, and then whatever stands behind it. -/
theorem events_write (h : p.WellFormed) (paired : p.Paired) :
    ∃ more, Markup.events p.write = p.events ++ more := by
  refine ⟨eventsFrom [] (lexemes p.after), ?_⟩
  have plain := not_mem_of_blank h.gap
  rw [Markup.events, dropMark_write h, eventsFrom_headings h.headings paired, events, rootText]
  cases inside : p.inside with
  | none =>
    have root := h.root inside
    rw [lexemes_markup plain (markup_emptyTag root.tagBody _), eventsFrom_textRun, eventsFrom, root.ofBody]
    exact congrArg (· ++ _) (runEvents_of_blank h.gap)
  | some pair =>
    obtain ⟨c, gap⟩ := pair
    obtain ⟨opens, content⟩ := h.inside c gap inside
    have closed : eventsFrom [p.root.name] (.closeTag (p.root.name ++ gap) :: lexemes p.after) =
        .leave p.root.name :: eventsFrom [] (lexemes p.after) := by
      rw [eventsFrom, if_pos (opens.wellFormed.closedName opens.gap)]
    rw [Content.eventsFrom_enter plain opens, runEvents_of_blank h.gap,
      Content.eventsFrom_write content (Content.markup_leave opens _), closed]
    simp

end Page

end Markup

end EncounterTimeline

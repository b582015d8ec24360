import EncounterTimeline.Document.File
import EncounterTimeline.Proofs.Document.Tree
import EncounterTimeline.Proofs.Markup.Cuts

/-! # Two spellings of an empty element

An element without content can be written with one tag or with two. Wherever it stands in a document the same is read of
both, but for the fields that are written as text: one tag is not taken for such a field, neither in the root nor in the
field itself, where two tags end the field.
-/
namespace EncounterTimeline

open Markup

namespace Document

variable {front back content : List Char} {tag : Tag} {f : Field} {r : Reader}

def oneTag (front : List Char) (tag : Tag) (back : List Char) : String :=
  String.ofList (front ++ '<' :: (tag.body ++ '/' :: '>' :: back))

def twoTags (front : List Char) (tag : Tag) (back : List Char) : String :=
  String.ofList (front ++ '<' :: (tag.body ++ '>' :: '<' :: ('/' :: tag.name ++ '>' :: back)))

/-- The field that an element with nothing in it ends if it is written with two tags, and what that field holds by then: a
field in the root, or the field that the reader is in. -/
def Reader.endedBy? (r : Reader) (tag : Tag) : Option (Field × List Char) :=
  match r.place with
  | .root => (Field.ofTag? (String.ofList tag.name)).map (·, [])
  | .field f content => if String.ofList tag.name = f.tag then some (f, content) else none
  | _ => none

/-- What was entered and is skipped is left again by its own closing tag. -/
theorem Reader.step_leave_skipping (d : Document) (name : List Char) (back : Option OpenRoutine) :
    Reader.step ⟨.skipping name 0 back, d⟩ (.leave name) = .ok ⟨backTo back, d⟩ := by
  simp only [Reader.step, Reader.stepSkipping, if_true]
  rfl

/-- Where no field is ended, both spellings of an element lead to the same reader, or to the same error. -/
theorem Reader.step_enter_leave (h : r.endedBy? tag = none) :
    (r.step (.enter tag) >>= fun r' => r'.step (.leave tag.name)) = r.step (.single tag) := by
  obtain ⟨place, d⟩ := r
  cases place with
  | prolog =>
    simp only [Reader.step, Reader.stepProlog]
    split
    · rename_i root
      show Except.ok (if String.ofList tag.name == rootTag then _ else _) = _
      rw [if_pos root]
      rfl
    · rfl
  | root =>
    have other : Field.ofTag? (String.ofList tag.name) = none := Option.map_eq_none_iff.mp h
    simp only [Reader.step, Reader.stepRoot, other]
    split
    · rename_i routine
      cases routineName tag with
      | error e => rfl
      | ok name =>
        show Except.ok (if String.ofList tag.name == "s" then _ else _) = _
        rw [if_pos routine]
        rfl
    · cases readEntry tag with
      | error e => rfl
      | ok entry => exact step_leave_skipping ..
  | field f content =>
    have other : (String.ofList tag.name == f.tag) = false := beq_false_of_ne fun own => by
      simp [endedBy?, own] at h
    show (if String.ofList tag.name == f.tag then _ else _) = _
    rw [other]
    rfl
  | routine s =>
    simp only [Reader.step, Reader.stepRoutine]
    cases readEntry tag with
    | error e => rfl
    | ok entry => exact step_leave_skipping ..
  | skipping name depth back =>
    by_cases own : tag.name = name
    · have enters : Reader.step ⟨.skipping name depth back, d⟩ (.enter tag) = .ok ⟨.skipping name (depth + 1) back, d⟩ := by
        simp only [Reader.step, Reader.stepSkipping, own, if_true]
        rfl
      have leaves : Reader.step ⟨.skipping name (depth + 1) back, d⟩ (.leave name) =
          .ok ⟨.skipping name depth back, d⟩ := by
        simp only [Reader.step, Reader.stepSkipping, if_true]
        rfl
      rw [enters, own]
      exact leaves
    · have stays (e : Event) (other : e = .enter tag ∨ e = .leave tag.name) :
          Reader.step ⟨.skipping name depth back, d⟩ e = .ok ⟨.skipping name depth back, d⟩ := by
        rcases other with rfl | rfl <;> simp only [Reader.step, Reader.stepSkipping, own, if_false]
      rw [stays _ (.inl rfl)]
      exact stays _ (.inr rfl)
  | finished => rfl

/-- One tag is passed over where two tags end a field. -/
theorem Reader.step_single_ended (h : r.endedBy? tag = some (f, content)) : r.step (.single tag) = .ok r := by
  obtain ⟨place, d⟩ := r
  cases place with
  | root =>
    obtain ⟨g, field, -⟩ := Option.map_eq_some_iff.mp h
    have name := tag_of_ofTag? field
    simp only [Reader.step, Reader.stepRoot, readEntry, name]
    cases g <;> rfl
  | field => rfl
  | prolog | routine | skipping | finished => cases h

/-- Two tags end the field, which is stored as it is by then. -/
theorem Reader.step_enter_leave_ended (h : r.endedBy? tag = some (f, content)) :
    (r.step (.enter tag) >>= fun r' => r'.step (.leave tag.name)) = (⟨.root, ·⟩) <$> setField r.document f content := by
  obtain ⟨place, d⟩ := r
  cases place with
  | root =>
    obtain ⟨g, field, same⟩ := Option.map_eq_some_iff.mp h
    cases same
    have name := beq_iff_eq.mpr (tag_of_ofTag? field)
    simp only [Reader.step, Reader.stepRoot, field]
    show (if String.ofList tag.name == f.tag then _ else _) = _
    rw [if_pos name]
    rfl
  | field g text =>
    obtain ⟨own, same⟩ := Option.ite_none_right_eq_some.mp h
    cases same
    show (if String.ofList tag.name == f.tag then _ else _) = _
    rw [if_pos (beq_iff_eq.mpr own)]
    rfl
  | prolog | routine | skipping | finished => cases h

theorem eventsFrom_oneTag (opens : Opens tag []) (left : List (List Char)) :
    eventsFrom left (lexemes ('<' :: (tag.body ++ '/' :: '>' :: back))) =
      .single tag :: eventsFrom left (lexemes back) := by
  rw [lexemes_piece (markup_emptyTag opens.wellFormed.tagBody back), eventsFrom, opens.wellFormed.ofBody]

theorem eventsFrom_twoTags (opens : Opens tag []) (left : List (List Char)) :
    eventsFrom left (lexemes ('<' :: (tag.body ++ '>' :: '<' :: ('/' :: tag.name ++ '>' :: back)))) =
      .enter tag :: .leave tag.name :: eventsFrom left (lexemes back) := by
  have closing := Content.markup_leave opens back
  have named := opens.wellFormed.closedName opens.gap
  rw [List.append_nil] at closing named
  rw [lexemes_piece (markup_openTag opens.wellFormed.tagBody opens.last _), eventsFrom, opens.wellFormed.ofBody,
    lexemes_piece closing, eventsFrom, if_pos named]

def readTo (cs : List Char) : Except DocumentError Reader := (events cs).foldlM Reader.step {}

/-- A reader that has taken something malformed had come to its end. -/
theorem finished_of_malformed {es : List Event} {start : Reader}
    (h : (es ++ [Event.malformed]).foldlM Reader.step start = .ok r) : r.place = .finished := by
  rw [List.foldlM_append] at h
  obtain ⟨r', -, last⟩ := except_bind_eq_ok h
  obtain ⟨place, d⟩ := r'
  cases place with
  | finished =>
    cases last
    rfl
  | prolog | root | field | routine | skipping => cases last

section Spellings

variable {es : List Event} {left : List (List Char)}

/-- Behind the element the same events follow in both spellings. -/
theorem read_oneTag (h : Leaves front es left) (opens : Opens tag []) (back : List Char) : read (oneTag front tag back) =
    (es.foldlM Reader.step {} >>= fun r =>
      r.step (.single tag) >>= (eventsFrom left (lexemes back)).foldlM Reader.step).bind Reader.finish := by
  rw [read, oneTag, String.toList_ofList, ofEvents, h.events, eventsFrom_oneTag opens, List.foldlM_append]
  rfl

theorem read_twoTags (h : Leaves front es left) (opens : Opens tag []) (back : List Char) : read (twoTags front tag back) =
    (es.foldlM Reader.step {} >>= fun r => (r.step (.enter tag) >>= fun r' => r'.step (.leave tag.name)) >>=
      (eventsFrom left (lexemes back)).foldlM Reader.step).bind Reader.finish := by
  rw [read, twoTags, String.toList_ofList, ofEvents, h.events, eventsFrom_twoTags opens, List.foldlM_append]
  simp only [List.foldlM_cons, bind_assoc]

/-- Where no field is ended, or the reader has failed before, it makes no difference how the element is written. -/
theorem read_oneTag_eq (opens : Opens tag []) (cleared : Cleared front)
    (h : ∀ r, readTo front = .ok r → r.endedBy? tag = none) (back : List Char) :
    read (oneTag front tag back) = read (twoTags front tag back) := by
  rcases cleared.leaves with ⟨left, leaves⟩ | ⟨es, -, ended⟩
  · rw [read_oneTag leaves opens, read_twoTags leaves opens]
    cases taken : (events front).foldlM Reader.step ({} : Reader) with
    | error e => rfl
    | ok r =>
      show (r.step (.single tag) >>= _).bind _ = ((r.step (.enter tag) >>= _) >>= _).bind _
      rw [Reader.step_enter_leave (h r taken)]
  · rw [read, read, oneTag, twoTags, String.toList_ofList, String.toList_ofList, ended, ended]

theorem read_oneTag_ended (leaves : Leaves front es left) (opens : Opens tag []) (taken : es.foldlM Reader.step {} = .ok r)
    (h : r.endedBy? tag = some (f, content)) (back : List Char) :
    read (oneTag front tag back) = ((eventsFrom left (lexemes back)).foldlM Reader.step r).bind Reader.finish := by
  rw [read_oneTag leaves opens, taken]
  show (r.step (.single tag) >>= _).bind _ = _
  rw [Reader.step_single_ended h]
  rfl

theorem read_twoTags_ended (leaves : Leaves front es left) (opens : Opens tag []) (taken : es.foldlM Reader.step {} = .ok r)
    (h : r.endedBy? tag = some (f, content)) (back : List Char) : read (twoTags front tag back) =
      ((⟨.root, ·⟩) <$> setField r.document f content >>= (eventsFrom left (lexemes back)).foldlM Reader.step).bind
        Reader.finish := by
  rw [read_twoTags leaves opens, taken, ← Reader.step_enter_leave_ended h]
  rfl

/-- A reader that would end a field has taken nothing malformed. -/
theorem leaves_of_endedBy (cleared : Cleared front) (taken : readTo front = .ok r)
    (h : r.endedBy? tag = some (f, content)) : ∃ left, Leaves front (events front) left := by
  rcases cleared.leaves with leaves | ⟨es, ended, -⟩
  · exact leaves
  · rw [readTo, ended] at taken
    rw [Reader.endedBy?, finished_of_malformed taken] at h
    cases h

end Spellings

def Field.sample : Field → List Char
  | .locale => "EN".toList
  | .name | .zone => "A".toList

def fieldFront (f : Field) : List Char := '<' :: (rootName ++ '>' :: '<' :: (f.tag.toList ++ '>' :: f.sample))

def rootFront (f : Field) : List Char := fieldFront f ++ '<' :: ('/' :: f.tag.toList ++ ['>'])

theorem leaves_fieldFront (f : Field) : Leaves (fieldFront f)
    [.enter ⟨rootName, []⟩, .enter ⟨f.tag.toList, []⟩, .text f.sample] [f.tag.toList, rootName] := by
  have cut : lexemes (dropMark (fieldFront f)) = [.openTag rootName, .openTag f.tag.toList, .text f.sample] := by
    cases f <;> exact lexemes_cons rfl (lexemes_cons rfl (lexemes_plain (by decide)))
  refine ⟨by rw [Cleared, cut]; simp, fun ys => ?_⟩
  rw [cut]
  cases f <;> rfl

theorem leaves_rootFront (f : Field) : Leaves (rootFront f)
    [.enter ⟨rootName, []⟩, .enter ⟨f.tag.toList, []⟩, .text f.sample, .leave f.tag.toList] [rootName] := by
  have before := leaves_fieldFront f
  have closing : lexemes ('<' :: ('/' :: f.tag.toList ++ ['>'])) = [.closeTag f.tag.toList] := by
    cases f <;> exact lexemes_cons rfl lexemes_nil
  have cut := before.cleared.lexemes ('/' :: f.tag.toList ++ ['>'])
  rw [closing] at cut
  refine ⟨?_, fun ys => ?_⟩
  · rw [Cleared, rootFront, cut]
    exact fun mem => before.cleared (by simpa using mem)
  · rw [rootFront, cut, List.append_assoc, before.goesOn]
    cases f <;> rfl

def Field.sampled : Field → Document
  | .name => { name := "A" }
  | .zone => { zone := "A" }
  | .locale => { locale := .en }

def rootBack : List Char := "</timeline>".toList

def fieldBack (f : Field) : List Char := 'x' :: '<' :: ('/' :: f.tag.toList ++ '>' :: rootBack)

theorem lexemes_rootBack : lexemes rootBack = [.closeTag rootName] := lexemes_cons rfl lexemes_nil

theorem lexemes_fieldBack (f : Field) :
    lexemes (fieldBack f) = [.text ['x'], .closeTag f.tag.toList, .closeTag rootName] := by
  have plain : '<' ∉ ['x'] := by decide
  have closing (f : Field) : markup ('/' :: f.tag.toList ++ '>' :: rootBack) = some (.closeTag f.tag.toList, rootBack) := by
    cases f <;> rfl
  exact (lexemes_markup plain (closing f)).trans (congrArg _ (congrArg _ lexemes_rootBack))

theorem readTo_rootFront (f : Field) : readTo (rootFront f) = .ok ⟨.root, f.sampled⟩ := by
  rw [readTo, (leaves_rootFront f).events_front]
  cases f <;> rfl

theorem readTo_fieldFront (f : Field) : readTo (fieldFront f) = .ok ⟨.field f f.sample, {}⟩ := by
  rw [readTo, (leaves_fieldFront f).events_front]
  cases f <;> rfl

/-- In the root one tag leaves a field as it was, and two tags empty it. -/
theorem read_rootFront (opens : Opens tag []) (name : String.ofList tag.name = f.tag) :
    read (oneTag (rootFront f) tag rootBack) = .ok f.sampled ∧
      read (twoTags (rootFront f) tag rootBack) = setField f.sampled f [] := by
  have leaves := leaves_rootFront f
  have taken := readTo_rootFront f
  rw [readTo, leaves.events_front] at taken
  have ends : Reader.endedBy? ⟨.root, f.sampled⟩ tag = some (f, []) := by
    simp only [Reader.endedBy?, name]
    cases f <;> rfl
  constructor
  · rw [read_oneTag_ended leaves opens taken ends, lexemes_rootBack]
    rfl
  · rw [read_twoTags_ended leaves opens taken ends, lexemes_rootBack]
    cases f <;> rfl

/-- In the field itself one tag is passed over, and two tags end the field before its text does. -/
theorem read_fieldFront (opens : Opens tag []) (name : String.ofList tag.name = f.tag) :
    read (oneTag (fieldFront f) tag (fieldBack f)) = setField {} f (f.sample ++ ['x']) ∧
      read (twoTags (fieldFront f) tag (fieldBack f)) = .ok f.sampled := by
  have leaves := leaves_fieldFront f
  have taken := readTo_fieldFront f
  rw [readTo, leaves.events_front] at taken
  have ends : Reader.endedBy? ⟨.field f f.sample, {}⟩ tag = some (f, f.sample) := if_pos name
  constructor
  · rw [read_oneTag_ended leaves opens taken ends, lexemes_fieldBack]
    cases f <;> rfl
  · rw [read_twoTags_ended leaves opens taken ends, lexemes_fieldBack]
    cases f <;> rfl

/-- A sample is changed by every other text that is stored, if that can be stored at all. -/
theorem setField_ne_sampled {d : Document} {other : List Char} (h : other = [] ∨ other = f.sample ++ ['x']) :
    setField d f other ≠ .ok f.sampled := by
  intro same
  cases f with
  | name =>
    have text : String.ofList other = "A" := congrArg Document.name (Except.ok.inj same)
    rcases h with rfl | rfl <;> exact absurd text (by decide)
  | zone =>
    have text : String.ofList other = "A" := congrArg Document.zone (Except.ok.inj same)
    rcases h with rfl | rfl <;> exact absurd text (by decide)
  | locale => rcases h with rfl | rfl <;> cases same

theorem ofText_eq_iff {s t : String} : ofText s = ofText t ↔ read s = read t := by
  rw [ofText, ofText]
  cases read s <;> cases read t <;> simp

/-- Wherever an empty element stands, both spellings are read the same, unless two tags would end a field there: one tag is
then passed over, and two tags store the field. There are documents that this makes different, for each of the fields and
both in the root and in the field itself. -/
theorem ofText_spellings (opens : Opens tag []) :
    (∀ front back, Cleared front → (∀ r, readTo front = .ok r → r.endedBy? tag = none) →
      ofText (oneTag front tag back) = ofText (twoTags front tag back)) ∧
    (∀ front r f content, Cleared front → readTo front = .ok r → r.endedBy? tag = some (f, content) → ∃ left, ∀ back,
      read (oneTag front tag back) = ((eventsFrom left (lexemes back)).foldlM Reader.step r).bind Reader.finish ∧
      read (twoTags front tag back) = ((⟨.root, ·⟩) <$> setField r.document f content >>=
        (eventsFrom left (lexemes back)).foldlM Reader.step).bind Reader.finish) ∧
    ∀ f : Field, String.ofList tag.name = f.tag →
      (∃ front back d, Cleared front ∧ readTo front = .ok ⟨.root, d⟩ ∧
        ofText (oneTag front tag back) ≠ ofText (twoTags front tag back)) ∧
      ∃ front back content d, Cleared front ∧ readTo front = .ok ⟨.field f content, d⟩ ∧
        ofText (oneTag front tag back) ≠ ofText (twoTags front tag back) := by
  simp only [Ne, ofText_eq_iff]
  refine ⟨fun front back cleared h => read_oneTag_eq opens cleared h back, fun front r f content cleared taken h => ?_,
    fun f name => ⟨?_, ?_⟩⟩
  · obtain ⟨left, leaves⟩ := leaves_of_endedBy cleared taken h
    exact ⟨left, fun back => ⟨read_oneTag_ended leaves opens taken h back, read_twoTags_ended leaves opens taken h back⟩⟩
  · obtain ⟨one, two⟩ := read_rootFront opens name
    refine ⟨_, rootBack, _, (leaves_rootFront f).cleared, readTo_rootFront f, fun same => ?_⟩
    exact setField_ne_sampled (.inl rfl) (two.symm.trans (same.symm.trans one))
  · obtain ⟨one, two⟩ := read_fieldFront opens name
    refine ⟨_, fieldBack f, _, _, (leaves_fieldFront f).cleared, readTo_fieldFront f, fun same => ?_⟩
    exact setField_ne_sampled (.inr rfl) (one.symm.trans (same.trans two))

theorem opens_field (f : Field) : Opens ⟨f.tag.toList, []⟩ [] where
  wellFormed := ⟨by cases f <;> exact ⟨rfl, rfl⟩, by simp, balanced_nil⟩
  last := by cases f <;> decide
  gap := by simp

/-- In an element that is skipped a name is no field, and both spellings are passed over. -/
theorem ofText_spellings_note :
    ofText "<timeline><note><name/></note></timeline>" = ofText "<timeline><note><name></name></note></timeline>" := by
  have cut : lexemes (dropMark "<timeline><note>".toList) = [.openTag rootName, .openTag "note".toList] :=
    lexemes_cons rfl (lexemes_cons rfl lexemes_nil)
  have cleared : Cleared "<timeline><note>".toList := by
    rw [Cleared, cut]
    simp
  have entered : readTo "<timeline><note>".toList = .ok ⟨.skipping "note".toList 0 none, {}⟩ := by
    rw [readTo, events, cut]
    rfl
  refine (ofText_spellings (opens_field .name)).1 "<timeline><note>".toList "</note></timeline>".toList cleared
    fun r taken => ?_
  cases entered.symm.trans taken
  rfl

/-- One tag keeps the name that was read before, and two tags lose it. -/
theorem ofText_name_differs :
    ofText "<timeline><name>A</name><name/></timeline>" ≠ ofText "<timeline><name>A</name><name></name></timeline>" := by
  obtain ⟨one, two⟩ := read_rootFront (opens_field .name) (f := .name) rfl
  intro same
  exact setField_ne_sampled (.inl rfl) (two.symm.trans ((ofText_eq_iff.mp same).symm.trans one))

end Document

end EncounterTimeline

import EncounterTimeline.Proofs.Document.Page
import EncounterTimeline.Proofs.Document.RoundTrip

/-! # The reader on a tree

The reader takes one event after the other and remembers little; a page is a tree. On a page it takes the children of the
root one by one, and of a subroutine the children of that: whatever stands deeper, or inside any other tag, it skips.
-/
namespace EncounterTimeline

open Markup Document

/-- An element seen from the one it stands in; an empty-element tag has no content. -/
structure Child where
  tag : Tag
  inner : Option Content
  deriving DecidableEq, Repr

namespace Markup.Content

def children : Content → List Child
  | ends _ => []
  | leaf _ (.single tag) later => ⟨tag, none⟩ :: later.children
  | leaf _ _ later => later.children
  | element _ tag inner _ later => ⟨tag, some inner⟩ :: later.children

def Plain (c : Content) : Prop := c.children = []

def leafText : Leaf → List Char
  | .verbatim content => content
  | .aside _ | .single _ => []

def text? : Content → Option (List Char)
  | ends run => unescape (Text.trimBoth isSpace run)
  | leaf run l later => do
    let shown ← unescape (Text.trimBoth isSpace run)
    let more ← later.text?
    return shown ++ leafText l ++ more
  | element run _ _ _ later => do
    let shown ← unescape (Text.trimBoth isSpace run)
    let more ← later.text?
    return shown ++ more

end Markup.Content

namespace Child

def name (x : Child) : String := String.ofList x.tag.name

def parts (x : Child) : List Child := (x.inner.map Content.children).getD []

end Child

namespace Document

variable {d : Document} {s : OpenRoutine} {f : Field} {c : Content} {tag : Tag} {run : List Char} {es : List Event}

def asked {α : Type} : Option α → Except DocumentError α
  | some a => .ok a
  | none => .error .markup

def takePart (s : OpenRoutine) (x : Child) : Except DocumentError OpenRoutine := s.add <$> readEntry x.tag

def routineOf (x : Child) : Except DocumentError Draft := do
  let name ← routineName x.tag
  let s ← x.parts.foldlM takePart ⟨name, []⟩
  return .subroutine s.name s.cues

def takeChild (d : Document) (x : Child) : Except DocumentError Document :=
  match Field.ofTag? x.name, x.inner with
  | some f, some c => asked c.text? >>= setField d f
  | _, _ => if x.name == "s" then d.push <$> routineOf x else addEntry d <$> readEntry x.tag

theorem fold_silent {p : Place} (ignores : ∀ raw, Reader.step ⟨p, d⟩ (.text raw) = .ok ⟨p, d⟩) :
    (Content.runEvents run ++ es).foldlM Reader.step ⟨p, d⟩ = es.foldlM Reader.step ⟨p, d⟩ := by
  rw [Content.runEvents, textEvents]
  split
  · rfl
  · rw [List.singleton_append, fold_cons (ignores _)]

/-- What is skipped changes nothing, whatever is nested in it. -/
theorem fold_skipping (c : Content) (name : List Char) (depth : Nat) (back : Option OpenRoutine) :
    (c.events ++ es).foldlM Reader.step ⟨.skipping name depth back, d⟩ =
      es.foldlM Reader.step ⟨.skipping name depth back, d⟩ := by
  induction c generalizing depth es with
  | ends run => exact fold_silent fun _ => rfl
  | leaf run l later ih =>
    have own : (l.events ++ (later.events ++ es)).foldlM Reader.step ⟨.skipping name depth back, d⟩ =
        (later.events ++ es).foldlM Reader.step ⟨.skipping name depth back, d⟩ := by
      cases l <;> rfl
    rw [Content.events, List.append_assoc, List.append_assoc, fold_silent fun _ => rfl, own, ih]
  | element run tag inner gap later ihInner ihLater =>
    simp only [Content.events, List.append_assoc, List.cons_append]
    rw [fold_silent fun _ => rfl]
    -- An element of the name that is skipped is counted in and out again.
    by_cases same : tag.name = name
    · have enters : Reader.step ⟨.skipping name depth back, d⟩ (.enter tag) = .ok ⟨.skipping name (depth + 1) back, d⟩ := by
        simp only [Reader.step, Reader.stepSkipping, if_pos same]
        rfl
      have leaves : Reader.step ⟨.skipping name (depth + 1) back, d⟩ (.leave tag.name) =
          .ok ⟨.skipping name depth back, d⟩ := by
        simp only [Reader.step, Reader.stepSkipping, if_pos same]
        rfl
      rw [fold_cons enters, ihInner, fold_cons leaves, ihLater]
    · have enters : Reader.step ⟨.skipping name depth back, d⟩ (.enter tag) = .ok ⟨.skipping name depth back, d⟩ := by
        simp only [Reader.step, Reader.stepSkipping, if_neg same]
      have leaves : Reader.step ⟨.skipping name depth back, d⟩ (.leave tag.name) = .ok ⟨.skipping name depth back, d⟩ := by
        simp only [Reader.step, Reader.stepSkipping, if_neg same]
      rw [fold_cons enters, ihInner, fold_cons leaves, ihLater]

theorem fold_skipped (tag : Tag) (c : Content) (back : Option OpenRoutine) :
    (c.events ++ .leave tag.name :: es).foldlM Reader.step ⟨.skipping tag.name 0 back, d⟩ =
      es.foldlM Reader.step ⟨Reader.backTo back, d⟩ := by
  have leaves : Reader.step ⟨.skipping tag.name 0 back, d⟩ (.leave tag.name) = .ok ⟨Reader.backTo back, d⟩ := by
    simp only [Reader.step, Reader.stepSkipping]
    rfl
  rw [fold_skipping, fold_cons leaves]

theorem fold_fieldRun (acc : List Char) :
    (Content.runEvents run ++ es).foldlM Reader.step ⟨.field f acc, d⟩ =
      asked (unescape (Text.trimBoth isSpace run)) >>= fun shown => es.foldlM Reader.step ⟨.field f (acc ++ shown), d⟩ := by
  rw [Content.runEvents]
  generalize Text.trimBoth isSpace run = raw
  cases raw with
  | nil =>
    have nothing : unescape [] = some [] := rfl
    rw [nothing]
    simp [textEvents, asked, bind, Except.bind]
  | cons c raw =>
    rw [textEvents, if_neg (by simp), List.singleton_append, List.foldlM_cons]
    simp only [Reader.step, Reader.stepField]
    cases unescape (c :: raw) <;> rfl

theorem fold_field (plain : c.Plain) (acc : List Char) :
    (c.events ++ es).foldlM Reader.step ⟨.field f acc, d⟩ =
      asked c.text? >>= fun text => es.foldlM Reader.step ⟨.field f (acc ++ text), d⟩ := by
  induction c generalizing acc with
  | ends run => exact fold_fieldRun acc
  | leaf run l later ih =>
    have others : later.Plain ∧ ∀ acc, (l.events ++ (later.events ++ es)).foldlM Reader.step ⟨.field f acc, d⟩ =
        (later.events ++ es).foldlM Reader.step ⟨.field f (acc ++ Content.leafText l), d⟩ := by
      cases l with
      | single tag => cases plain
      | aside a => exact ⟨plain, fun acc => by rw [Content.leafText, List.append_nil]; rfl⟩
      | verbatim content => exact ⟨plain, fun acc => rfl⟩
    rw [Content.events, List.append_assoc, List.append_assoc, fold_fieldRun, Content.text?]
    cases unescape (Text.trimBoth isSpace run) with
    | none => rfl
    | some shown =>
      show (l.events ++ (later.events ++ es)).foldlM Reader.step _ = _
      rw [others.2, ih others.1]
      cases later.text? with
      | none => rfl
      | some more => simp [asked, bind, Except.bind, List.append_assoc]
  | element => cases plain

/-- In a subroutine the children are its parts. -/
theorem fold_routine (c : Content) (s : OpenRoutine) :
    (c.events ++ es).foldlM Reader.step ⟨.routine s, d⟩ =
      c.children.foldlM takePart s >>= fun s => es.foldlM Reader.step ⟨.routine s, d⟩ := by
  induction c generalizing s with
  | ends run => exact fold_silent fun _ => rfl
  | leaf run l later ih =>
    rw [Content.events, List.append_assoc, List.append_assoc, fold_silent fun _ => rfl]
    cases l with
    | aside | verbatim => exact ih s
    | single tag =>
      rw [Leaf.events, List.singleton_append, List.foldlM_cons, Content.children, List.foldlM_cons]
      simp only [Reader.step, Reader.stepRoutine, takePart]
      cases readEntry tag with
      | error fault => rfl
      | ok entry => exact ih _
  | element run tag inner gap later ihInner ihLater =>
    simp only [Content.events, List.append_assoc, List.cons_append]
    rw [fold_silent fun _ => rfl, List.foldlM_cons, Content.children, List.foldlM_cons]
    simp only [Reader.step, Reader.stepRoutine, takePart]
    cases readEntry tag with
    | error fault => rfl
    | ok entry => exact (fold_skipped tag inner _).trans (ihLater _)

theorem takeChild_field (h : Field.ofTag? (String.ofList tag.name) = some f) (d : Document) (c : Content) :
    takeChild d ⟨tag, some c⟩ = asked c.text? >>= setField d f := by
  simp only [takeChild, Child.name, h]

theorem takeChild_other {inner : Option Content} (h : Field.ofTag? (String.ofList tag.name) = none ∨ inner = none)
    (d : Document) : takeChild d ⟨tag, inner⟩ =
      if String.ofList tag.name == "s" then d.push <$> routineOf ⟨tag, inner⟩ else addEntry d <$> readEntry tag := by
  unfold takeChild
  split
  · rename_i field content
    rcases h with none | rfl
    · cases none.symm.trans field
    · cases content
  · rfl

theorem fold_single (tag : Tag) :
    (.single tag :: es).foldlM Reader.step ⟨.root, d⟩ =
      takeChild d ⟨tag, none⟩ >>= fun e => es.foldlM Reader.step ⟨.root, e⟩ := by
  rw [List.foldlM_cons, takeChild_other (.inr rfl)]
  simp only [Reader.step, Reader.stepRoot]
  split
  · rw [routineOf]
    cases routineName tag <;> rfl
  · cases readEntry tag <;> rfl

theorem tag_of_ofTag? {name : String} (h : Field.ofTag? name = some f) : name = f.tag := by
  have found := List.find?_some h
  exact (beq_iff_eq.mp found).symm

theorem fold_element {inner : Content} (plain : (Field.ofTag? (String.ofList tag.name)).isSome → inner.Plain) :
    (.enter tag :: (inner.events ++ .leave tag.name :: es)).foldlM Reader.step ⟨.root, d⟩ =
      takeChild d ⟨tag, some inner⟩ >>= fun e => es.foldlM Reader.step ⟨.root, e⟩ := by
  cases field : Field.ofTag? (String.ofList tag.name) with
  | some f =>
    have enters : Reader.step ⟨.root, d⟩ (.enter tag) = .ok ⟨.field f [], d⟩ := by
      simp only [Reader.step, Reader.stepRoot, field]
      rfl
    have leaves (text : List Char) : Reader.step ⟨.field f text, d⟩ (.leave tag.name) =
        (⟨.root, ·⟩) <$> setField d f text := by
      simp only [Reader.step, Reader.stepField, tag_of_ofTag? field, beq_self_eq_true, if_true]
      rfl
    rw [takeChild_field field, fold_cons enters, fold_field (plain (by rw [field]; rfl))]
    cases inner.text? with
    | none => rfl
    | some text =>
      show (.leave tag.name :: es).foldlM Reader.step ⟨.field f text, d⟩ = setField d f text >>= _
      rw [List.foldlM_cons, leaves]
      cases setField d f text <;> rfl
  | none =>
    rw [takeChild_other (.inl field), List.foldlM_cons]
    simp only [Reader.step, Reader.stepRoot, field]
    split
    · rename_i routine
      rw [routineOf]
      cases routineName tag with
      | error fault => rfl
      | ok name =>
        have leaves (s : OpenRoutine) : Reader.step ⟨.routine s, d⟩ (.leave tag.name) =
            .ok ⟨.root, d.push (.subroutine s.name s.cues)⟩ := by
          simp only [Reader.step, Reader.stepRoutine, routine, if_true]
        show (inner.events ++ .leave tag.name :: es).foldlM Reader.step ⟨.routine ⟨name, []⟩, d⟩ = _
        rw [fold_routine]
        show _ = (d.push <$> (inner.children.foldlM takePart ⟨name, []⟩ >>= _)) >>= _
        cases inner.children.foldlM takePart ⟨name, []⟩ with
        | error fault => rfl
        | ok s => exact fold_cons (leaves s)
    · cases readEntry tag with
      | error fault => rfl
      | ok entry => exact fold_skipped tag inner none

theorem fold_root (plain : ∀ x ∈ c.children, (Field.ofTag? x.name).isSome → ∀ inner ∈ x.inner, inner.Plain) (d : Document) :
    (c.events ++ es).foldlM Reader.step ⟨.root, d⟩ =
      c.children.foldlM takeChild d >>= fun e => es.foldlM Reader.step ⟨.root, e⟩ := by
  induction c generalizing d with
  | ends run => exact fold_silent fun _ => rfl
  | leaf run l later ih =>
    rw [Content.events, List.append_assoc, List.append_assoc, fold_silent fun _ => rfl]
    cases l with
    | aside | verbatim => exact ih plain d
    | single tag =>
      obtain ⟨-, others⟩ := List.forall_mem_cons.mp plain
      rw [Leaf.events, List.singleton_append, fold_single, Content.children, List.foldlM_cons]
      cases takeChild d ⟨tag, none⟩ with
      | error fault => rfl
      | ok e => exact ih others e
  | element run tag inner gap later ihInner ihLater =>
    obtain ⟨own, others⟩ := List.forall_mem_cons.mp plain
    simp only [Content.events, List.append_assoc, List.cons_append]
    rw [fold_silent fun _ => rfl, fold_element fun field => own field inner rfl, Content.children, List.foldlM_cons]
    cases takeChild d ⟨tag, some inner⟩ with
    | error fault => rfl
    | ok e => exact ihLater others e

theorem fold_finished (d : Document) (es : List Event) :
    es.foldlM Reader.step ⟨.finished, d⟩ = .ok ⟨.finished, d⟩ := by
  induction es with
  | nil => rfl
  | cons e es ih => rw [fold_cons (s := ⟨.finished, d⟩) rfl, ih]

end Document

namespace Markup.Page

variable {p : Page}

def children (p : Page) : List Child := (p.inside.map fun (c, _) => c.children).getD []

/-- The root is that of a document, and no element stands in the fields that are written as text. -/
structure Describes (p : Page) : Prop where
  root : String.ofList p.root.name = rootTag
  plain : ∀ x ∈ p.children, (Field.ofTag? x.name).isSome → ∀ inner ∈ x.inner, inner.Plain

/-- What is read of a page is what its children give, one after the other. -/
theorem read_write (wellFormed : p.WellFormed) (paired : p.Paired) (h : p.Describes) :
    read (String.ofList p.write) = p.children.foldlM takeChild {} := by
  obtain ⟨more, events⟩ := events_write wellFormed paired
  rw [Document.read, String.toList_ofList, events, ofEvents]
  have root : (String.ofList p.root.name == rootTag) = true := beq_iff_eq.mpr h.root
  cases inside : p.inside with
  | none =>
    have step : Reader.step {} (.single p.root) = .ok ⟨.finished, {}⟩ := by
      simp only [Reader.step, Reader.stepProlog, root, if_true]
      rfl
    have shown : p.events = [.single p.root] := by rw [Page.events, inside]
    have children : p.children = [] := by rw [Page.children, inside]; rfl
    rw [shown, children, List.singleton_append, fold_cons step, fold_finished]
    rfl
  | some pair =>
    obtain ⟨c, gap⟩ := pair
    have enters : Reader.step {} (.enter p.root) = .ok ⟨.root, {}⟩ := by
      simp only [Reader.step, Reader.stepProlog, root, if_true]
      rfl
    have leaves (d : Document) : Reader.step ⟨.root, d⟩ (.leave p.root.name) = .ok ⟨.finished, d⟩ := by
      simp only [Reader.step, Reader.stepRoot, root, if_true]
      rfl
    have shown : p.events = .enter p.root :: (c.events ++ [.leave p.root.name]) := by rw [Page.events, inside]; rfl
    have children : p.children = c.children := by rw [Page.children, inside]; rfl
    rw [shown, children, List.cons_append, fold_cons enters, List.append_assoc, fold_root (children ▸ h.plain)]
    cases c.children.foldlM takeChild {} with
    | error fault => rfl
    | ok d =>
      show ((Event.leave p.root.name :: more).foldlM Reader.step ⟨.root, d⟩).bind _ = _
      rw [fold_cons (leaves d), fold_finished]
      rfl

end Markup.Page

end EncounterTimeline

import EncounterTimeline.Proofs.Timeline.Ownership

/-! # Identities under editing

Whatever is added, inserted, removed and duplicated, the identities of a definition stay distinct and its table of owners
stays right. What an operation answers is the identity of what it stored, and without an answer nothing has changed.
-/
namespace EncounterTimeline

inductive Edit where
  | add (e : Element)
  | insert (index : Nat) (e : Element)
  | addStatement (owner : ElementId) (e : Element)
  | remove (id : ElementId)
  | duplicate (id : ElementId)

namespace Edit

def perform : Edit → Workbench → Option ElementId × Workbench
  | add e, w => let (id, w) := w.add e; (some id, w)
  | insert index e, w => let (id, w) := w.insert index e; (some id, w)
  | addStatement owner e, w => w.addStatement owner e
  | remove id, w => let (removed, w) := w.remove id; (removed.map Element.id, w)
  | duplicate id, w => w.duplicateElement id

def element? : Edit → Option Element
  | add e | insert _ e | addStatement _ e => some e
  | remove _ | duplicate _ => none

def inserts : Edit → Bool
  | remove _ => false
  | _ => true

end Edit

namespace Workbench

/-- The element may be handed in: its identities are distinct, and none of them is still to be generated. -/
structure Admits (w : Workbench) (e : Element) : Prop where
  distinct : e.ids.Nodup
  generated : ∀ id ∈ e.ids, id < w.nextId

/-- The workbenches that come about from an empty definition, whatever else generates identities meanwhile. -/
inductive Edited : Workbench → Prop
  | empty (d : Definition) (n : Nat) (bare : d.elements = []) (blank : d.ownership = .empty) :
      Edited { definition := d, nextId := n }
  | generate {w : Workbench} (n : Nat) (h : Edited w) : Edited { w with nextId := w.nextId + n }
  | edit {w : Workbench} (op : Edit) (h : Edited w) (handed : ∀ e ∈ op.element?, w.Admits e) :
      Edited (op.perform w).2

inductive Stored (d e : Definition) : Owner → Nat → Element → Prop
  | root {i : Nat} {new : Element} (place : i ≤ d.elements.length)
      (elements : e.elements = d.elements.insertIdx i new) : Stored d e .root i new
  | statement {i j : Nat} {s : Subroutine} {new : Activity} (owner : d.elements[i]? = some (.subroutine s))
      (place : j ≤ s.statements.length)
      (elements : e.elements =
        d.elements.set i (.subroutine { s with statements := s.statements.insertIdx j new })) :
      Stored d e (.subroutine s.id) j (.activity new)

variable {w : Workbench} {e : Element} {id : ElementId}

theorem ids_numberActivities (n : Nat) (l : List Activity) :
    (Element.numberActivities n l).map Activity.id = List.range' n l.length := by
  induction l generalizing n with
  | nil => rfl
  | cons a l ih => simp [Element.numberActivities, ih, List.range'_succ]

theorem ids_withIds (n : Nat) (e : Element) : (e.withIds n).ids = List.range' n e.ids.length := by
  cases e with
  | subroutine s =>
    simp [Element.withIds, Element.ids, Element.id, Element.statements, ids_numberActivities, List.range'_succ]
  | preset | activity | trigger => rfl

theorem cue_numberActivities (n : Nat) (l : List Activity) :
    (Element.numberActivities n l).map Activity.cue = l.map Activity.cue := by
  induction l generalizing n with
  | nil => rfl
  | cons a l ih => simp [Element.numberActivities, ih]

theorem draft_withIds (n : Nat) (e : Element) : (e.withIds n).draft = e.draft := by
  cases e with
  | subroutine s => simp [Element.withIds, Element.draft, cue_numberActivities]
  | preset | activity | trigger => rfl

theorem definition_admitted (w : Workbench) (e : Element) : (w.admitted e).2.definition = w.definition := by
  unfold admitted
  split <;> rfl

theorem draft_admitted (w : Workbench) (e : Element) : (w.admitted e).1.draft = e.draft := by
  unfold admitted
  split
  · exact draft_withIds _ e
  · rfl

/-- The table of owners is right, and no identity of the definition is still to be generated. -/
structure Sound (w : Workbench) : Prop where
  right : w.definition.ownership.Right w.definition.elements
  generated : ∀ id ∈ w.definition.ids, id < w.nextId

structure Takes (w : Workbench) (e : Element) : Prop extends w.Admits e where
  absent : ∀ id ∈ e.ids, id ∉ w.definition.ids

theorem Sound.generate (h : w.Sound) (n : Nat) : Sound { w with nextId := w.nextId + n } where
  right := h.right
  generated id used := Nat.lt_add_right n (h.generated id used)

theorem Sound.takes_withIds (h : w.Sound) (e : Element) :
    Takes { w with nextId := w.nextId + e.ids.length } (e.withIds w.nextId) where
  distinct := by
    rw [ids_withIds]
    exact List.nodup_range'
  generated id new := by
    rw [ids_withIds, List.mem_range'_1] at new
    exact new.2
  absent id new used := by
    rw [ids_withIds, List.mem_range'_1] at new
    exact absurd (h.generated id used) (Nat.not_lt.mpr new.1)

theorem Sound.admitted (h : w.Sound) (handed : w.Admits e) :
    (w.admitted e).2.Sound ∧ (w.admitted e).2.Takes (w.admitted e).1 := by
  unfold Workbench.admitted
  split
  · exact ⟨h.generate _, h.takes_withIds e⟩
  · rename_i apart
    refine ⟨h, { handed with absent := ?_ }⟩
    intro id new used
    exact apart (List.any_eq_true.mpr ⟨id, new, h.right.knows_iff.mpr used⟩)

theorem mem_ids_of_perm {L : List Element} {d : Definition} (order : d.elements.Perm (e :: L)) :
    id ∈ d.ids ↔ id ∈ e.ids ∨ id ∈ L.flatMap Element.ids := by
  rw [Definition.ids, (order.flatMap_right _).mem_iff, List.flatMap_cons, List.mem_append]

/-- An element enters the root. -/
theorem Sound.enter {i : Nat} (h : w.Sound) (takes : w.Takes e) (place : i ≤ w.definition.elements.length) :
    Sound { w with definition := { w.definition with
      elements := w.definition.elements.insertIdx i e, ownership := w.definition.ownership.enter e } } := by
  have order := List.perm_insertIdx e w.definition.elements place
  refine { right := (h.right.enter takes.distinct takes.absent).perm order.symm, generated := ?_ }
  intro id used
  rcases (mem_ids_of_perm order).mp used with new | old
  · exact takes.generated id new
  · exact h.generated id old

/-- An element leaves the root. -/
theorem Sound.strike {i : Nat} (h : w.Sound) (here : w.definition.elements[i]? = some e) :
    Sound { w with definition := { w.definition with
      elements := w.definition.elements.eraseIdx i, ownership := w.definition.ownership.strike e } } := by
  obtain ⟨lt, rfl⟩ := List.getElem?_eq_some_iff.mp here
  have order := (List.getElem_cons_eraseIdx_perm lt).symm
  exact
    { right := (h.right.perm order).strike
      generated := fun id used => h.generated id ((mem_ids_of_perm order).mpr (.inr used)) }

theorem perm_setSubroutine {i : Nat} {s : Subroutine} (t : Subroutine)
    (here : w.definition.elements[i]? = some (.subroutine s)) :
    w.definition.elements.Perm (.subroutine s :: w.definition.elements.eraseIdx i) ∧
      (w.setSubroutine i t).definition.elements.Perm (.subroutine t :: w.definition.elements.eraseIdx i) := by
  obtain ⟨lt, same⟩ := List.getElem?_eq_some_iff.mp here
  constructor
  · rw [← same]
    exact (List.getElem_cons_eraseIdx_perm lt).symm
  · exact List.set_perm_cons_eraseIdx lt _

/-- A statement enters a subroutine. -/
theorem Sound.put {i : Nat} {s : Subroutine} {a : Activity} {l : List Activity} (h : w.Sound)
    (here : w.definition.elements[i]? = some (.subroutine s)) (order : l.Perm (a :: s.statements))
    (takes : w.Takes (.activity a)) : ((w.setSubroutine i { s with statements := l }).setOwnership
      (w.definition.ownership.put a.id (.subroutine s.id))).Sound := by
  obtain ⟨before, after⟩ := perm_setSubroutine { s with statements := l } here
  have old := h.right.perm before
  have absent : a.id ∉ (Element.subroutine s :: w.definition.elements.eraseIdx i).flatMap Element.ids := by
    rw [← (before.flatMap_right Element.ids).mem_iff]
    exact takes.absent a.id List.mem_cons_self
  refine { right := (old.put order absent).perm after.symm, generated := ?_ }
  intro id used
  rcases (mem_ids_of_perm after).mp used with own | other
  · rcases List.mem_cons.mp ((Element.ids_subroutine order).mem_iff.mp own) with rfl | own
    · exact takes.generated a.id List.mem_cons_self
    · exact h.generated id ((mem_ids_of_perm before).mpr (.inl own))
  · exact h.generated id ((mem_ids_of_perm before).mpr (.inr other))

/-- A statement leaves a subroutine. -/
theorem Sound.erase {i : Nat} {s : Subroutine} {a : Activity} {l : List Activity} (h : w.Sound)
    (here : w.definition.elements[i]? = some (.subroutine s)) (order : s.statements.Perm (a :: l)) :
    ((w.setSubroutine i { s with statements := l }).setOwnership (w.definition.ownership.erase a.id)).Sound := by
  obtain ⟨before, after⟩ := perm_setSubroutine { s with statements := l } here
  refine { right := ((h.right.perm before).erase order).perm after.symm, generated := ?_ }
  intro id used
  rcases (mem_ids_of_perm after).mp used with own | other
  · have own := (Element.ids_subroutine (r := s) order).mem_iff.mpr (List.mem_cons_of_mem _ own)
    exact h.generated id ((mem_ids_of_perm before).mpr (.inl own))
  · exact h.generated id ((mem_ids_of_perm before).mpr (.inr other))

theorem subroutineIndex?_eq_some {owner : ElementId} {i : Nat} (h : w.subroutineIndex? owner = some i) :
    ∃ s, w.definition.elements[i]? = some (.subroutine s) ∧ s.id = owner := by
  obtain ⟨lt, found, -⟩ := List.findIdx?_eq_some_iff_getElem.mp h
  cases here : w.definition.elements[i] with
  | subroutine s =>
    rw [here] at found
    exact ⟨s, List.getElem?_eq_some_iff.mpr ⟨lt, here⟩, by simpa [Element.asSubroutine] using found⟩
  | preset | activity | trigger =>
    rw [here] at found
    cases found

theorem statementPlace?_eq_some {owner : ElementId} {i j : Nat} {s : Subroutine}
    (h : w.statementPlace? owner id = some (i, s, j)) :
    w.definition.elements[i]? = some (.subroutine s) ∧ s.id = owner ∧ ∃ a, s.statements[j]? = some a ∧ a.id = id := by
  simp only [statementPlace?, Option.bind_eq_bind, Option.bind_eq_some_iff, Option.pure_def, Option.some.injEq,
    Prod.mk.injEq] at h
  obtain ⟨i', hi, s', hs, j', hj, rfl, rfl, rfl⟩ := h
  obtain ⟨t, ht, same⟩ := subroutineIndex?_eq_some hi
  have hs' : w.definition.subroutineAt? i' = some t := by simp [Definition.subroutineAt?, ht, Element.asSubroutine]
  cases hs.symm.trans hs'
  obtain ⟨lt, found, -⟩ := List.findIdx?_eq_some_iff_getElem.mp hj
  exact ⟨ht, same, _, List.getElem?_eq_some_iff.mpr ⟨lt, rfl⟩, by simpa using found⟩

/-- An insertion stores what is admitted. -/
theorem insert_eq (w : Workbench) (i : Nat) (e : Element) : w.insert i e =
    ((w.admitted e).1.id, { (w.admitted e).2 with definition := { w.definition with
      elements := w.definition.elements.insertIdx (min i w.definition.elements.length) (w.admitted e).1
      ownership := w.definition.ownership.enter (w.admitted e).1 } }) := by
  simp only [insert, definition_admitted]

/-- A statement is refused, or what is admitted is an activity and becomes the last statement of its owner. -/
theorem addStatement_cases (w : Workbench) (owner : ElementId) (e : Element) :
    w.addStatement owner e = (none, (w.admitted e).2) ∨
      ∃ i s a, w.definition.elements[i]? = some (.subroutine s) ∧ s.id = owner ∧ (w.admitted e).1 = .activity a ∧
        w.addStatement owner e = (some a.id, ((w.admitted e).2.setSubroutine i (s.push a)).setOwnership
          ((w.admitted e).2.definition.ownership.put a.id (.subroutine s.id))) := by
  generalize result : w.addStatement owner e = p
  simp only [addStatement] at result
  split at result
  · rename_i i a found activity
    obtain ⟨s, here, rfl⟩ := subroutineIndex?_eq_some found
    rw [definition_admitted] at here
    have subroutine : (w.admitted e).2.definition.subroutineAt? i = some s := by
      simp [Definition.subroutineAt?, definition_admitted, here, Element.asSubroutine]
    rw [subroutine] at result
    exact .inr ⟨i, s, a, here, rfl, activity, result.symm⟩
  · exact .inl result.symm

theorem remove_cases (w : Workbench) (id : ElementId) : w.remove id = (none, w) ∨
    (∃ i e, w.definition.elements[i]? = some e ∧
      w.remove id = (some e, { w with definition := { w.definition with
        elements := w.definition.elements.eraseIdx i, ownership := w.definition.ownership.strike e } })) ∨
    ∃ i s j a, w.definition.elements[i]? = some (.subroutine s) ∧ s.statements[j]? = some a ∧
      w.remove id = (some (.activity a),
        (w.setSubroutine i { s with statements := s.statements.eraseIdx j }).setOwnership
          (w.definition.ownership.erase a.id)) := by
  generalize result : w.remove id = p
  simp only [remove] at result
  split at result
  · exact .inl result.symm
  · split at result
    · exact .inl result.symm
    · rename_i i _
      split at result
      · exact .inl result.symm
      · rename_i e here
        exact .inr (.inl ⟨i, e, here, result.symm⟩)
  · split at result
    · exact .inl result.symm
    · rename_i i s j found
      obtain ⟨here, -, a, ha, rfl⟩ := statementPlace?_eq_some found
      rw [ha] at result
      exact .inr (.inr ⟨i, s, j, a, here, ha, result.symm⟩)

theorem duplicateElement_cases (w : Workbench) (id : ElementId) : w.duplicateElement id = (none, w) ∨
    (∃ i e, w.definition.elements[i]? = some e ∧
      w.duplicateElement id = (some ((w.duplicate e).2.insert (i + 1) (w.duplicate e).1).1,
        ((w.duplicate e).2.insert (i + 1) (w.duplicate e).1).2)) ∨
    ∃ i s j a, w.definition.elements[i]? = some (.subroutine s) ∧ s.statements[j]? = some a ∧
      w.duplicateElement id = (some w.nextId, (Workbench.setSubroutine { w with nextId := w.nextId + 1 } i
        { s with statements := s.statements.insertIdx (j + 1) { a with id := w.nextId } }).setOwnership
          (w.definition.ownership.put w.nextId (.subroutine s.id))) := by
  generalize result : w.duplicateElement id = p
  simp only [duplicateElement] at result
  split at result
  · exact .inl result.symm
  · split at result
    · exact .inl result.symm
    · rename_i i _
      split at result
      · exact .inl result.symm
      · rename_i e here
        exact .inr (.inl ⟨i, e, here, result.symm⟩)
  · split at result
    · exact .inl result.symm
    · rename_i i s j found
      obtain ⟨here, rfl, a, ha, rfl⟩ := statementPlace?_eq_some found
      rw [ha] at result
      exact .inr (.inr ⟨i, s, j, a, here, ha, result.symm⟩)

theorem sound_insert_of_admitted (sound : (w.admitted e).2.Sound) (takes : (w.admitted e).2.Takes (w.admitted e).1)
    (i : Nat) : (w.insert i e).2.Sound := by
  have definition := definition_admitted w e
  rw [insert_eq]
  have place : min i w.definition.elements.length ≤ (w.admitted e).2.definition.elements.length := by
    rw [definition]
    exact Nat.min_le_right _ _
  have stored := sound.enter takes place
  rw [definition] at stored
  exact stored

theorem Sound.insert (h : w.Sound) (handed : w.Admits e) (i : Nat) : (w.insert i e).2.Sound := by
  obtain ⟨sound, takes⟩ := h.admitted handed
  exact sound_insert_of_admitted sound takes i

theorem Sound.addStatement (h : w.Sound) (handed : w.Admits e) (owner : ElementId) :
    (w.addStatement owner e).2.Sound := by
  obtain ⟨sound, takes⟩ := h.admitted handed
  rcases addStatement_cases w owner e with refused | ⟨i, s, a, here, -, activity, stored⟩
  · rw [refused]
    exact sound
  · rw [stored]
    rw [← definition_admitted w e] at here
    rw [activity] at takes
    exact sound.put here (List.perm_append_singleton a s.statements) takes

theorem Sound.remove (h : w.Sound) (id : ElementId) : (w.remove id).2.Sound := by
  rcases remove_cases w id with refused | ⟨i, e, here, removed⟩ | ⟨i, s, j, a, here, ha, removed⟩
  · rw [refused]
    exact h
  · rw [removed]
    exact h.strike here
  · rw [removed]
    obtain ⟨lt, rfl⟩ := List.getElem?_eq_some_iff.mp ha
    exact h.erase here (List.getElem_cons_eraseIdx_perm lt).symm

theorem Sound.duplicateElement (h : w.Sound) (id : ElementId) : (w.duplicateElement id).2.Sound := by
  rcases duplicateElement_cases w id with refused | ⟨i, e, here, stored⟩ | ⟨i, s, j, a, here, ha, stored⟩
  · rw [refused]
    exact h
  · rw [stored]
    have sound : (w.duplicate e).2.Sound := h.generate e.ids.length
    exact sound.insert (h.takes_withIds e).toAdmits (i + 1)
  · rw [stored]
    have sound : Sound { w with nextId := w.nextId + 1 } := h.generate 1
    have takes : Takes { w with nextId := w.nextId + 1 } (.activity { a with id := w.nextId }) :=
      h.takes_withIds (.activity a)
    obtain ⟨lt, -⟩ := List.getElem?_eq_some_iff.mp ha
    exact sound.put here (List.perm_insertIdx _ _ lt) takes

theorem Sound.perform (h : w.Sound) (op : Edit) (handed : ∀ e ∈ op.element?, w.Admits e) :
    (op.perform w).2.Sound := by
  cases op with
  | add e => exact h.insert (handed e rfl) _
  | insert i e => exact h.insert (handed e rfl) i
  | addStatement owner e => exact h.addStatement (handed e rfl) owner
  | remove id => exact h.remove id
  | duplicate id => exact h.duplicateElement id

theorem Edited.sound (h : Edited w) : w.Sound := by
  induction h with
  | empty d n bare blank =>
    exact
      { right := by
          rw [bare, blank]
          exact Ownership.right_empty
        generated := by simp [Definition.ids, bare] }
  | generate n _ ih => exact ih.generate n
  | edit op _ handed ih => exact ih.perform op handed

theorem stored_insert (w : Workbench) (i : Nat) (e : Element) :
    ∃ new, Stored w.definition (w.insert i e).2.definition .root (min i w.definition.elements.length) new ∧
      new.id = (w.insert i e).1 ∧ new.draft = e.draft := by
  rw [insert_eq]
  exact ⟨_, .root (Nat.min_le_right _ _) rfl, rfl, draft_admitted w e⟩

theorem stored_duplicateElement {source : ElementId} (answer : (w.duplicateElement source).1 = some id) :
    ∃ owner place new, Stored w.definition (w.duplicateElement source).2.definition owner place new ∧ new.id = id := by
  rcases duplicateElement_cases w source with refused | ⟨i, e, here, stored⟩ | ⟨i, s, j, a, here, ha, stored⟩
  · rw [refused] at answer
    cases answer
  · rw [stored] at answer ⊢
    obtain ⟨new, stored, same, -⟩ := stored_insert (w.duplicate e).2 (i + 1) (w.duplicate e).1
    cases answer
    exact ⟨.root, _, new, stored, same⟩
  · rw [stored] at answer ⊢
    cases answer
    obtain ⟨lt, -⟩ := List.getElem?_eq_some_iff.mp ha
    exact ⟨.subroutine s.id, j + 1, .activity { a with id := w.nextId }, .statement here lt rfl, rfl⟩

theorem stored_perform {op : Edit} (inserts : op.inserts = true) (answer : (op.perform w).1 = some id) :
    ∃ owner place new, Stored w.definition (op.perform w).2.definition owner place new ∧ new.id = id ∧
      ∀ e ∈ op.element?, new.draft = e.draft := by
  cases op with
  | add e =>
    cases answer
    obtain ⟨new, stored, same, draft⟩ := stored_insert w w.definition.elements.length e
    exact ⟨_, _, new, stored, same, by rintro _ ⟨⟩; exact draft⟩
  | insert i e =>
    cases answer
    obtain ⟨new, stored, same, draft⟩ := stored_insert w i e
    exact ⟨_, _, new, stored, same, by rintro _ ⟨⟩; exact draft⟩
  | addStatement owner e =>
    simp only [Edit.perform] at answer ⊢
    rcases addStatement_cases w owner e with refused | ⟨i, s, a, here, -, activity, stored⟩
    · rw [refused] at answer
      cases answer
    · rw [stored] at answer ⊢
      cases answer
      refine ⟨_, _, .activity a, .statement here (Nat.le_refl _) ?_, rfl, ?_⟩
      · rw [List.insertIdx_length_self]
        simp only [setOwnership, setSubroutine, definition_admitted]
        rfl
      · rintro _ ⟨⟩
        rw [← activity]
        exact draft_admitted w e
  | remove => cases inserts
  | duplicate source =>
    obtain ⟨owner, place, new, stored, same⟩ := stored_duplicateElement answer
    exact ⟨owner, place, new, stored, same, by rintro _ ⟨⟩⟩

theorem definition_perform_of_none {op : Edit} (refused : (op.perform w).1 = none) :
    (op.perform w).2.definition = w.definition := by
  cases op with
  | add | insert => cases refused
  | addStatement owner e =>
    simp only [Edit.perform] at refused ⊢
    rcases addStatement_cases w owner e with same | ⟨i, s, a, -, -, -, stored⟩
    · rw [same]
      exact definition_admitted w e
    · rw [stored] at refused
      cases refused
  | remove id =>
    simp only [Edit.perform] at refused ⊢
    rcases remove_cases w id with same | ⟨i, e, -, removed⟩ | ⟨i, s, j, a, -, -, removed⟩
    · rw [same]
    · rw [removed] at refused
      cases refused
    · rw [removed] at refused
      cases refused
  | duplicate id =>
    simp only [Edit.perform] at refused ⊢
    rcases duplicateElement_cases w id with same | ⟨i, e, -, stored⟩ | ⟨i, s, j, a, -, -, stored⟩
    · rw [same]
    · rw [stored] at refused
      cases refused
    · rw [stored] at refused
      cases refused

/-- In a definition that was edited from nothing the identities are distinct and the table knows them, each with its
owner, and no others. An operation that inserts answers the identity of what it stored, and one without an answer leaves
the definition as it was. -/
theorem identities_tracked (h : Edited w) :
    w.definition.ids.Nodup ∧
      (∀ id, w.definition.ownerOf id = some .root ↔ ∃ e ∈ w.definition.elements, e.id = id) ∧
      (∀ id s, w.definition.ownerOf id = some (.subroutine s) ↔
        ∃ r, .subroutine r ∈ w.definition.elements ∧ r.id = s ∧ ∃ a ∈ r.statements, a.id = id) ∧
      (∀ id, w.definition.ownerOf id = none ↔ id ∉ w.definition.ids) ∧
      ∀ op : Edit,
        (∀ id, op.inserts = true → (op.perform w).1 = some id →
          ∃ owner place new, Stored w.definition (op.perform w).2.definition owner place new ∧ new.id = id ∧
            ∀ e ∈ op.element?, new.draft = e.draft) ∧
        ((op.perform w).1 = none → (op.perform w).2.definition = w.definition) := by
  have right := h.sound.right
  refine ⟨right.distinct, ?_, ?_, ?_, ?_⟩
  · intro id
    simp only [Definition.ownerOf, right.owners, Element.owner?_eq_root, eq_comm (a := id)]
  · intro id s
    rw [Definition.ownerOf, right.owners]
    constructor
    · rintro ⟨e, he, found⟩
      obtain ⟨same, listed⟩ := (Element.owner?_eq_subroutine (right.nodup_of_mem he)).mp found
      cases e with
      | subroutine r => exact ⟨r, he, same, List.mem_map.mp listed⟩
      | preset | activity | trigger => cases listed
    · rintro ⟨r, hr, same, listed⟩
      exact ⟨_, hr, (Element.owner?_eq_subroutine (right.nodup_of_mem hr)).mpr ⟨same, List.mem_map.mpr listed⟩⟩
  · intro id
    rw [Definition.ownerOf, Definition.ids, ← right.knows_iff, Ownership.knows, Option.not_isSome_iff_eq_none]
  · intro op
    exact ⟨fun id inserts answer => stored_perform inserts answer, definition_perform_of_none⟩

/-- A subroutine is added, and a clone of it again. -/
theorem identities_tracked_clone : ∃ w : Workbench, Edited w ∧ w.definition.ids = [0, 1, 2, 3] ∧
    w.definition.ids.Nodup ∧ w.definition.ownerOf 3 = some (.subroutine 2) := by
  let loop : Element := .subroutine { id := 0, name := some "Loop", statements := [{ id := 1, cue := {} }] }
  have handed (w : Workbench) (h : 2 ≤ w.nextId) : ∀ e ∈ (Edit.add loop).element?, w.Admits e := by
    rintro _ ⟨⟩
    refine { distinct := by decide, generated := ?_ }
    intro id own
    have small : id < 2 := by revert own id; decide
    exact Nat.lt_of_lt_of_le small h
  have empty := Edited.empty {} 2 rfl rfl
  have once := empty.edit (.add loop) (handed _ (by decide))
  have twice := once.edit (.add loop) (handed _ (by decide))
  obtain ⟨distinct, -, nested, -⟩ := identities_tracked twice
  exact ⟨_, twice, by decide, distinct, (nested 3 2).mpr ⟨_, List.mem_cons_of_mem _ List.mem_cons_self, rfl,
    _, List.mem_cons_self, rfl⟩⟩

end Workbench

end EncounterTimeline

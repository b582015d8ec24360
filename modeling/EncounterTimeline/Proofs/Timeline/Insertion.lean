import EncounterTimeline.Proofs.Timeline.Undo

/-! # Insertion and distinct identities

An insertion compares the identities of an element with those of the definition, and renews all of them if one is there
already. It does not compare them with each other: an element that repeats an identity keeps the repetition unless it is
renewed, and then a statement of it cannot be removed alone.
-/
namespace EncounterTimeline

def Edit.Inserts (op : Edit) (e : Element) : Prop := op = .add e ∨ ∃ i, op = .insert i e

namespace Workbench

variable {w : Workbench} {e : Element} {s : Subroutine} {a : Activity} {id : ElementId} {i : Nat} {op : Edit}

/-- Every statement is removed by its own identity, and what stays in the lists stays known. -/
def Separable (w : Workbench) : Prop :=
  ∀ s a, .subroutine s ∈ w.definition.elements → a ∈ s.statements →
    (w.remove a.id).1 = some (.activity a) ∧
      ∀ id ∈ (w.remove a.id).2.definition.ids, (w.remove a.id).2.definition.ownerOf id ≠ none

theorem Sound.ownerOf_ne_none (h : w.Sound) (listed : id ∈ w.definition.ids) : w.definition.ownerOf id ≠ none := by
  have known := h.right.knows_iff.mpr listed
  rwa [Ownership.knows, Option.isSome_iff_ne_none] at known

theorem Sound.separable (h : w.Sound) : w.Separable := by
  intro s a member ha
  obtain ⟨i, here⟩ := List.mem_iff_getElem?.mp member
  obtain ⟨j, ha⟩ := List.mem_iff_getElem?.mp ha
  refine ⟨?_, fun id listed => (h.remove a.id).ownerOf_ne_none listed⟩
  rw [remove_statement h here ha]

/-- What is removed takes its identities along, each once, and is unknown from then on. -/
theorem perm_ids_of_remove (removed : (w.remove id).1 = some e) :
    w.definition.ids.Perm (e.ids ++ (w.remove id).2.definition.ids) ∧ (w.remove id).2.definition.ownerOf e.id = none := by
  rcases remove_cases w id with refused | ⟨i, f, here, out⟩ | ⟨i, s, j, a, here, ha, out⟩
  · rw [refused] at removed
    cases removed
  · rw [out] at removed ⊢
    cases removed
    obtain ⟨lt, rfl⟩ := List.getElem?_eq_some_iff.mp here
    refine ⟨(List.getElem_cons_eraseIdx_perm lt).symm.flatMap_right _, ?_⟩
    exact Ownership.ownerOf_strike.trans (if_pos List.mem_cons_self)
  · rw [out] at removed ⊢
    cases removed
    obtain ⟨before, after⟩ := perm_setSubroutine { s with statements := s.statements.eraseIdx j } here
    obtain ⟨lt, rfl⟩ := List.getElem?_eq_some_iff.mp ha
    have own := Element.ids_subroutine (r := s) (List.getElem_cons_eraseIdx_perm lt).symm
    have rest := (after.flatMap_right Element.ids).symm.cons s.statements[j].id
    refine ⟨(before.flatMap_right Element.ids).trans (.trans (own.append_right _) rest), ?_⟩
    exact Ownership.ownerOf_erase.trans (if_pos rfl)

theorem Separable.count_eq_one (h : w.Separable) (member : .subroutine s ∈ w.definition.elements)
    (ha : a ∈ s.statements) : w.definition.ids.count a.id = 1 := by
  obtain ⟨removed, known⟩ := h s a member ha
  obtain ⟨order, unknown⟩ := perm_ids_of_remove removed
  have gone : a.id ∉ (w.remove a.id).2.definition.ids := fun listed => known a.id listed unknown
  rw [order.count_eq, List.count_append, List.count_eq_zero_of_not_mem gone]
  simp [Element.ids, Element.id, Element.statements]

theorem ids_sublist (he : e ∈ w.definition.elements) : e.ids.Sublist w.definition.ids :=
  List.sublist_flatten_of_mem (List.mem_map_of_mem he)

/-- If the statements can be taken apart, no element repeats an identity. -/
theorem Separable.nodup_of_mem (h : w.Separable) (he : e ∈ w.definition.elements) : e.ids.Nodup := by
  cases e with
  | subroutine s =>
    have once (id : ElementId) (nested : id ∈ s.statements.map Activity.id) :
        (s.id :: s.statements.map Activity.id).count id ≤ 1 := by
      obtain ⟨a, ha, rfl⟩ := List.mem_map.mp nested
      exact h.count_eq_one he ha ▸ (ids_sublist he).count_le a.id
    change (s.id :: s.statements.map Activity.id).Nodup
    refine List.nodup_cons.mpr ⟨fun nested => ?_, List.nodup_iff_count_le_one.mpr fun id => ?_⟩
    · have twice := List.one_le_count_iff.mpr nested
      have bound := once s.id nested
      rw [List.count_cons_self] at bound
      omega
    · by_cases nested : id ∈ s.statements.map Activity.id
      · exact Nat.le_trans List.count_le_count_cons (once id nested)
      · rw [List.count_eq_zero_of_not_mem nested]
        exact Nat.zero_le 1
  | preset | activity | trigger => exact List.nodup_singleton _

theorem insert_of_inserts (inserts : op.Inserts e) : ∃ i, (op.perform w).2 = (w.insert i e).2 := by
  rcases inserts with rfl | ⟨i, rfl⟩
  · exact ⟨w.definition.elements.length, rfl⟩
  · exact ⟨i, rfl⟩

/-- Distinct identities, or renewed ones, keep the workbench sound. -/
theorem Sound.insert_of_distinct (h : w.Sound) (generated : ∀ id ∈ e.ids, id < w.nextId)
    (fit : e.ids.Nodup ∨ w.shares e = true) (i : Nat) : (w.insert i e).2.Sound := by
  by_cases shared : w.shares e = true
  · have renewed : w.admitted e = w.duplicate e := if_pos shared
    apply sound_insert_of_admitted
    · rw [renewed]
      exact h.generate e.ids.length
    · rw [renewed]
      exact h.takes_withIds e
  · exact h.insert { distinct := fit.resolve_right shared, generated } i

/-- An element that is not renewed is stored with the identities it has. -/
theorem mem_insert_of_not_shares (apart : w.shares e ≠ true) (i : Nat) :
    e ∈ (w.insert i e).2.definition.elements := by
  have kept : w.admitted e = (e, w) := if_neg apart
  rw [insert_eq, kept]
  exact (List.mem_insertIdx (Nat.min_le_right _ _)).mpr (.inl rfl)

/-- After an element is added or inserted, the identities are distinct, and the statements can be taken out one by one,
exactly when the element repeats no identity or shares one with the definition. -/
theorem insert_distinct_iff (h : w.Sound) (generated : ∀ id ∈ e.ids, id < w.nextId) (inserts : op.Inserts e) :
    ((op.perform w).2.definition.ids.Nodup ↔ e.ids.Nodup ∨ w.shares e = true) ∧
      ((op.perform w).2.Separable ↔ e.ids.Nodup ∨ w.shares e = true) := by
  obtain ⟨i, same⟩ := insert_of_inserts (w := w) inserts
  rw [same]
  have sound (fit : e.ids.Nodup ∨ w.shares e = true) := h.insert_of_distinct generated fit i
  refine ⟨⟨fun distinct => ?_, fun fit => (sound fit).right.distinct⟩,
    fun separable => ?_, fun fit => (sound fit).separable⟩
  · by_cases shared : w.shares e = true
    · exact .inr shared
    · exact .inl ((ids_sublist (mem_insert_of_not_shares shared i)).nodup distinct)
  · by_cases shared : w.shares e = true
    · exact .inr shared
    · exact .inl (separable.nodup_of_mem (mem_insert_of_not_shares shared i))

def twofold (id : ElementId) (a : Activity) : Element :=
  .subroutine ((Subroutine.push { id, name := some "Loop" } a).push a)

-- The activity stands at the root already, so the subroutine is renewed.
example :
    let a : Activity := { id := 0, cue := { text := some "Adds" } }
    let w := (Workbench.add { definition := {}, nextId := 2 } (.activity a)).2
    (w.add (twofold 1 a)).2.definition.ids = [0, 2, 3, 4] := by decide

/-- The activity is in no list yet: both statements keep its identity, and with the first the second is forgotten. -/
theorem exists_ids_repeated :
    let a : Activity := { id := 0, cue := { text := some "Adds" } }
    let w : Workbench := { definition := {}, nextId := 2 }
    w.Sound ∧ (∀ id ∈ (twofold 1 a).ids, id < w.nextId) ∧ (w.add (twofold 1 a)).2.definition.ids = [1, 0, 0] ∧
      ¬ (w.add (twofold 1 a)).2.definition.ids.Nodup ∧ ¬ (w.add (twofold 1 a)).2.Separable ∧
      ((w.add (twofold 1 a)).2.remove 0).1 = some (.activity a) ∧
      ((w.add (twofold 1 a)).2.remove 0).2.definition.ids = [1, 0] ∧
      ((w.add (twofold 1 a)).2.remove 0).2.definition.ownerOf 0 = none := by
  intro a w
  have sound : w.Sound := (Edited.empty {} 2 rfl rfl).sound
  have removed : ((w.add (twofold 1 a)).2.remove 0).2.definition.ids = [1, 0] := by decide
  have unknown : ((w.add (twofold 1 a)).2.remove 0).2.definition.ownerOf 0 = none := by decide
  refine ⟨sound, by decide, by decide, by decide, fun separable => ?_, rfl, removed, unknown⟩
  have known := (separable _ a (List.mem_singleton_self _) List.mem_cons_self).2 0
  exact known (by rw [removed]; decide) unknown

end Workbench

end EncounterTimeline

import EncounterTimeline.Timeline.Workbench
import Mathlib.Data.List.Nodup
import Mathlib.Data.List.Perm.Basic

/-! # The table of owners

A table is right about a list of elements if it knows their identities, each with its owner, and no other. The order of
the elements is of no account, so what enters or leaves the list may be taken to do so at its head.
-/
namespace EncounterTimeline

def Element.owner? (e : Element) (id : ElementId) : Option Owner :=
  if id = e.id then some .root
  else if id ∈ e.statements.map Activity.id then some (.subroutine e.id)
  else none

variable {L M : List Element} {e : Element} {o : Ownership} {id : ElementId} {owner : Owner} {r : Subroutine}
  {a : Activity} {l m : List Activity}

namespace Element

theorem owner?_eq_root : e.owner? id = some .root ↔ id = e.id := by
  unfold owner?
  split
  · simp [*]
  · split <;> simp [*]

theorem mem_ids : id ∈ e.ids ↔ ∃ owner, e.owner? id = some owner := by
  rw [ids, List.mem_cons, owner?]
  split
  · simp [*]
  · split <;> simp [*]

theorem owner?_eq_subroutine {s : ElementId} (h : e.ids.Nodup) :
    e.owner? id = some (.subroutine s) ↔ e.id = s ∧ id ∈ e.statements.map Activity.id := by
  have own : e.id ∉ e.statements.map Activity.id := (List.nodup_cons.mp h).1
  unfold owner?
  split
  · rename_i same
    subst same
    simp [own]
  · split <;> simp [*]

theorem owner?_subroutine : (subroutine r).owner? id =
    if id = r.id then some .root
    else if id ∈ r.statements.map Activity.id then some (.subroutine r.id)
    else none := rfl

/-- One statement more is one identity more. -/
theorem ids_subroutine (order : l.Perm (a :: m)) : (subroutine { r with statements := l }).ids.Perm
    (a.id :: (subroutine { r with statements := m }).ids) :=
  ((order.map Activity.id).cons r.id).trans (List.Perm.swap a.id r.id _)

theorem owner?_subroutine_of_ne (order : l.Perm (a :: m)) (other : id ≠ a.id) :
    (subroutine { r with statements := l }).owner? id = (subroutine { r with statements := m }).owner? id := by
  have same : id ∈ l.map Activity.id ↔ id ∈ m.map Activity.id := by
    rw [(order.map Activity.id).mem_iff, List.map_cons, List.mem_cons]
    exact or_iff_right other
  simp only [owner?_subroutine, same]

end Element

namespace Ownership

theorem ownerOf_put {i : ElementId} :
    (o.put i owner).ownerOf id = if id = i then some owner else o.ownerOf id := rfl

theorem ownerOf_erase {i : ElementId} : (o.erase i).ownerOf id = if id = i then none else o.ownerOf id := rfl

theorem ownerOf_putAll (l : List Activity) (o : Ownership) (owner : Owner) :
    (l.foldl (fun o a => o.put a.id owner) o).ownerOf id =
      if id ∈ l.map Activity.id then some owner else o.ownerOf id := by
  induction l generalizing o with
  | nil => rfl
  | cons a l ih =>
    rw [List.foldl_cons, ih, ownerOf_put, List.map_cons]
    by_cases later : id ∈ l.map Activity.id
    · rw [if_pos later, if_pos (List.mem_cons_of_mem _ later)]
    · rw [if_neg later]
      by_cases here : id = a.id
      · simp [here]
      · simp [here, later]

theorem ownerOf_eraseAll (l : List Activity) (o : Ownership) :
    (l.foldl (fun o a => o.erase a.id) o).ownerOf id =
      if id ∈ l.map Activity.id then none else o.ownerOf id := by
  induction l generalizing o with
  | nil => rfl
  | cons a l ih =>
    rw [List.foldl_cons, ih, ownerOf_erase, List.map_cons]
    by_cases later : id ∈ l.map Activity.id
    · rw [if_pos later, if_pos (List.mem_cons_of_mem _ later)]
    · rw [if_neg later]
      by_cases here : id = a.id
      · simp [here]
      · simp [here, later]

theorem ownerOf_enter (h : e.ids.Nodup) : (o.enter e).ownerOf id = (e.owner? id).or (o.ownerOf id) := by
  have own : e.id ∉ e.statements.map Activity.id := (List.nodup_cons.mp h).1
  rw [enter, ownerOf_putAll, ownerOf_put, Element.owner?]
  by_cases root : id = e.id
  · subst root
    simp [own]
  · simp only [root, if_false]
    split <;> rfl

theorem ownerOf_strike : (o.strike e).ownerOf id = if id ∈ e.ids then none else o.ownerOf id := by
  rw [strike, ownerOf_eraseAll, ownerOf_erase, Element.ids]
  simp only [List.mem_cons]
  by_cases root : id = e.id
  · simp [root]
  · simp [root]

/-- The identities of a list of elements are distinct, and the table knows them and their owners. -/
structure Right (o : Ownership) (L : List Element) : Prop where
  distinct : (L.flatMap Element.ids).Nodup
  owners : ∀ id owner, o.ownerOf id = some owner ↔ ∃ e ∈ L, e.owner? id = some owner

theorem right_empty : empty.Right [] where
  distinct := List.nodup_nil
  owners id owner := by simp [empty]

namespace Right

theorem perm (h : o.Right L) (same : L.Perm M) : o.Right M where
  distinct := (same.flatMap_right _).nodup_iff.mp h.distinct
  owners id owner := by simp only [h.owners, same.mem_iff]

theorem knows_iff (h : o.Right L) : o.knows id = true ↔ id ∈ L.flatMap Element.ids := by
  simp only [knows, Option.isSome_iff_exists, h.owners, List.mem_flatMap, Element.mem_ids]
  constructor
  · rintro ⟨owner, e, he, found⟩
    exact ⟨e, he, owner, found⟩
  · rintro ⟨e, he, owner, found⟩
    exact ⟨owner, e, he, found⟩

theorem nodup_of_mem (h : o.Right L) (he : e ∈ L) : e.ids.Nodup := (List.nodup_flatMap.mp h.distinct).1 e he

theorem enter (h : o.Right L) (distinct : e.ids.Nodup) (absent : ∀ id ∈ e.ids, id ∉ L.flatMap Element.ids) :
    (o.enter e).Right (e :: L) where
  distinct := List.nodup_append'.mpr ⟨distinct, h.distinct, fun id new => absent id new⟩
  owners id owner := by
    rw [ownerOf_enter distinct, List.exists_mem_cons_iff, ← h.owners]
    cases here : e.owner? id with
    | none => simp
    | some own =>
      have new := absent id (Element.mem_ids.mpr ⟨own, here⟩)
      have unknown : o.ownerOf id = none := by
        rw [← Option.not_isSome_iff_eq_none]
        exact fun known => new (h.knows_iff.mp known)
      simp [unknown]

theorem strike (h : o.Right (e :: L)) : (o.strike e).Right L := by
  have distinct := h.distinct
  rw [List.flatMap_cons, List.nodup_append'] at distinct
  obtain ⟨-, rest, apart⟩ := distinct
  refine { distinct := rest, owners := ?_ }
  intro id owner
  rw [ownerOf_strike]
  by_cases gone : id ∈ e.ids
  · rw [if_pos gone]
    simp only [reduceCtorEq, false_iff]
    rintro ⟨f, hf, here⟩
    exact apart gone (List.mem_flatMap.mpr ⟨f, hf, Element.mem_ids.mpr ⟨owner, here⟩⟩)
  · rw [if_neg gone, h.owners, List.exists_mem_cons_iff]
    exact or_iff_right fun here => gone (Element.mem_ids.mpr ⟨owner, here⟩)

/-- A statement enters the subroutine at the head. -/
theorem put (h : o.Right (.subroutine r :: L)) (order : l.Perm (a :: r.statements))
    (absent : a.id ∉ (Element.subroutine r :: L).flatMap Element.ids) :
    (o.put a.id (.subroutine r.id)).Right (.subroutine { r with statements := l } :: L) := by
  have ids := (Element.ids_subroutine (r := r) order).append_right (L.flatMap Element.ids)
  refine { distinct := ids.nodup_iff.mpr (List.nodup_cons.mpr ⟨absent, h.distinct⟩), owners := ?_ }
  intro id owner
  rw [List.exists_mem_cons_iff]
  by_cases here : id = a.id
  · subst here
    rw [List.flatMap_cons, List.mem_append, not_or] at absent
    have root : a.id ≠ r.id := fun same => absent.1 (same ▸ List.mem_cons_self)
    have listed : a.id ∈ l.map Activity.id := List.mem_map_of_mem (order.mem_iff.mpr List.mem_cons_self)
    have elsewhere : ¬ ∃ e ∈ L, e.owner? a.id = some owner := by
      rintro ⟨e, he, found⟩
      exact absent.2 (List.mem_flatMap.mpr ⟨e, he, Element.mem_ids.mpr ⟨owner, found⟩⟩)
    rw [or_iff_left elsewhere, Element.owner?_subroutine, if_neg root, if_pos listed, ownerOf_put, if_pos rfl]
  · rw [Element.owner?_subroutine_of_ne order here, ownerOf_put, if_neg here, h.owners, List.exists_mem_cons_iff]

/-- A statement leaves the subroutine at the head. -/
theorem erase (h : o.Right (.subroutine r :: L)) (order : r.statements.Perm (a :: l)) :
    (o.erase a.id).Right (.subroutine { r with statements := l } :: L) := by
  have ids := (Element.ids_subroutine (r := r) order).append_right (L.flatMap Element.ids)
  obtain ⟨absent, distinct⟩ := List.nodup_cons.mp (ids.nodup_iff.mp h.distinct)
  refine { distinct, owners := ?_ }
  intro id owner
  by_cases here : id = a.id
  · subst here
    simp only [ownerOf_erase, if_true, reduceCtorEq, false_iff]
    rintro ⟨e, he, found⟩
    exact absent (List.mem_flatMap.mpr ⟨e, he, Element.mem_ids.mpr ⟨owner, found⟩⟩)
  · rw [List.exists_mem_cons_iff, ← Element.owner?_subroutine_of_ne order here, ownerOf_erase, if_neg here, h.owners,
      List.exists_mem_cons_iff]

end Right

end Ownership

end EncounterTimeline

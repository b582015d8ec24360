import EncounterTimeline.Timeline.Definition
import Mathlib.Data.List.Nodup

/-! # Addresses of activities

An activity stands at one address, a scope and a place in it. Changing a scope changes what stands at its own
addresses and nothing else, the activities of a definition are what its addresses hold, and distinct identities
make distinct addresses.
-/
namespace EncounterTimeline.Definition

variable {d : Definition} {s t : Scope} {i j k : Nat} {a b : Activity}

theorem statement?_eq_some_iff : d.statement? s i = some a ↔ (d.places s)[i]? = some (some a) :=
  Option.join_eq_some_iff

theorem statement?_root : d.statement? .root i = some a ↔ d.elements[i]? = some (.activity a) := by
  rw [statement?_eq_some_iff]
  simp only [places, List.getElem?_map, Option.map_eq_some_iff]
  constructor
  · rintro ⟨e, he, ha⟩
    cases e <;> simp_all [Element.asActivity]
  · intro h
    exact ⟨_, h, rfl⟩

theorem subroutineAt?_eq_some_iff {r : Subroutine} :
    d.subroutineAt? k = some r ↔ d.elements[k]? = some (.subroutine r) := by
  simp only [subroutineAt?, Option.bind_eq_some_iff]
  constructor
  · rintro ⟨e, he, hr⟩
    cases e <;> simp_all [Element.asSubroutine]
  · intro h
    exact ⟨_, h, rfl⟩

theorem statement?_subroutine : d.statement? (.subroutine k) i = some a ↔
    ∃ r, d.subroutineAt? k = some r ∧ r.statements[i]? = some a := by
  rw [statement?_eq_some_iff]
  cases h : d.subroutineAt? k with
  | none => simp [places, h]
  | some r => simp [places, h]

theorem lt_scopeLength_of_statement? (h : d.statement? s i = some a) : i < d.scopeLength s := by
  have h := statement?_eq_some_iff.mp h
  obtain ⟨hi, -⟩ := List.getElem?_eq_some_iff.mp h
  exact hi

theorem subroutineAt?_mapScope_root (f : Nat → Activity → Activity) :
    (d.mapScope .root f).subroutineAt? k = d.subroutineAt? k := by
  simp only [subroutineAt?, mapScope, List.getElem?_mapIdx]
  cases d.elements[k]? with
  | none => rfl
  | some e => cases e <;> rfl

theorem subroutineAt?_mapScope_subroutine (f : Nat → Activity → Activity) :
    (d.mapScope (.subroutine j) f).subroutineAt? k =
      (d.subroutineAt? k).map fun r =>
        if j = k then { r with statements := r.statements.mapIdx f } else r := by
  simp only [subroutineAt?, mapScope, List.getElem?_modify]
  cases d.elements[k]? with
  | none => rfl
  | some e => by_cases h : j = k <;> cases e <;> simp [h, Element.asSubroutine]

/-- What stands at an address after a scope is changed. -/
theorem statement?_mapScope (f : Nat → Activity → Activity) :
    (d.mapScope s f).statement? t i =
      if t = s then (d.statement? t i).map (f i) else d.statement? t i := by
  cases t with
  | root =>
    cases s with
    | root =>
      simp only [statement?, places, mapScope, List.getElem?_map, List.getElem?_mapIdx, if_true]
      cases d.elements[i]? with
      | none => rfl
      | some e => cases e <;> rfl
    | subroutine j =>
      simp only [statement?, places, mapScope, List.getElem?_map, List.getElem?_modify,
        reduceCtorEq, if_false]
      cases d.elements[i]? with
      | none => rfl
      | some e => by_cases h : j = i <;> cases e <;> simp [h, Element.asActivity]
  | subroutine k =>
    cases s with
    | root =>
      simp only [statement?, places, subroutineAt?_mapScope_root, reduceCtorEq, if_false]
    | subroutine j =>
      simp only [statement?, places, subroutineAt?_mapScope_subroutine, Scope.subroutine.injEq]
      cases d.subroutineAt? k with
      | none => simp
      | some r =>
        by_cases h : j = k
        · subst h
          cases hr : r.statements[i]? <;> simp [hr]
        · simp [h, Ne.symm h]

theorem statement?_modifyStatement (f : Activity → Activity) :
    (d.modifyStatement s j f).statement? t i =
      if t = s ∧ i = j then (d.statement? t i).map f else d.statement? t i := by
  rw [modifyStatement, statement?_mapScope]
  by_cases ht : t = s
  · by_cases hi : i = j
    · simp [ht, hi]
    · simp [ht, hi]
  · simp [ht]

/-- What stands at an address after latches are cleared from a place on. -/
theorem statement?_rearmFrom :
    (d.rearmFrom s j).statement? t i =
      if t = s ∧ j ≤ i then (d.statement? t i).map Activity.rearm else d.statement? t i := by
  rw [rearmFrom, statement?_mapScope]
  by_cases ht : t = s
  · by_cases hi : j ≤ i
    · simp [ht, hi]
    · simp [ht, hi]
  · simp [ht]

theorem mem_activities : a ∈ d.activities ↔ ∃ s i, d.statement? s i = some a := by
  rw [activities, List.mem_flatMap]
  constructor
  · rintro ⟨e, he, ha⟩
    obtain ⟨k, hk⟩ := List.mem_iff_getElem?.mp he
    cases e with
    | preset | trigger => simp [Element.activities] at ha
    | activity b =>
      rw [Element.activities, List.mem_singleton] at ha
      exact ⟨.root, k, statement?_root.mpr (ha ▸ hk)⟩
    | subroutine r =>
      obtain ⟨i, hi⟩ := List.mem_iff_getElem?.mp ha
      exact ⟨.subroutine k, i, statement?_subroutine.mpr ⟨r, subroutineAt?_eq_some_iff.mpr hk, hi⟩⟩
  · rintro ⟨s, i, h⟩
    cases s with
    | root =>
      exact ⟨_, List.mem_of_getElem? (statement?_root.mp h), by simp [Element.activities]⟩
    | subroutine k =>
      obtain ⟨r, hr, hi⟩ := statement?_subroutine.mp h
      exact ⟨_, List.mem_of_getElem? (subroutineAt?_eq_some_iff.mp hr), List.mem_of_getElem? hi⟩

def holder : Scope → Nat → Nat
  | .root, i => i
  | .subroutine k, _ => k

theorem holder_getElem? (h : d.statement? s i = some a) :
    ∃ e, d.elements[holder s i]? = some e ∧ a.id ∈ e.ids := by
  cases s with
  | root => exact ⟨_, statement?_root.mp h, List.mem_cons_self⟩
  | subroutine k =>
    obtain ⟨r, hr, hi⟩ := statement?_subroutine.mp h
    refine ⟨_, subroutineAt?_eq_some_iff.mp hr, List.mem_cons_of_mem _ ?_⟩
    exact List.mem_map_of_mem (List.mem_of_getElem? hi)

/-- Elements of different places have no identity in common. -/
theorem place_eq_of_id_mem (h : d.ids.Nodup) {e f : Element} {x : ElementId}
    (he : d.elements[i]? = some e) (hf : d.elements[j]? = some f) (xe : x ∈ e.ids) (xf : x ∈ f.ids) :
    i = j := by
  have apart := (List.nodup_flatMap.mp h).2
  rw [List.pairwise_iff_getElem] at apart
  obtain ⟨hi, rfl⟩ := List.getElem?_eq_some_iff.mp he
  obtain ⟨hj, rfl⟩ := List.getElem?_eq_some_iff.mp hf
  rcases Nat.lt_trichotomy i j with lt | eq | gt
  · exact (apart i j hi hj lt xe xf).elim
  · exact eq
  · exact (apart j i hj hi gt xf xe).elim

/-- With distinct identities an identity has one address. -/
theorem address_eq_of_id_eq (h : d.ids.Nodup) (ha : d.statement? s i = some a)
    (hb : d.statement? t j = some b) (same : a.id = b.id) : s = t ∧ i = j := by
  obtain ⟨e, he, ae⟩ := holder_getElem? ha
  obtain ⟨f, hf, bf⟩ := holder_getElem? hb
  have hk : holder s i = holder t j := place_eq_of_id_mem h he hf (same ▸ ae) bf
  cases s with
  | root =>
    cases t with
    | root => exact ⟨rfl, hk⟩
    | subroutine k =>
      obtain ⟨r, hr, -⟩ := statement?_subroutine.mp hb
      have ha := statement?_root.mp ha
      have hr := subroutineAt?_eq_some_iff.mp hr
      simp only [holder] at hk
      rw [hk, hr] at ha
      cases ha
  | subroutine k =>
    obtain ⟨r, hr, hi⟩ := statement?_subroutine.mp ha
    cases t with
    | root =>
      have hb := statement?_root.mp hb
      have hr := subroutineAt?_eq_some_iff.mp hr
      simp only [holder] at hk
      rw [← hk, hr] at hb
      cases hb
    | subroutine l =>
      obtain ⟨q, hq, hj⟩ := statement?_subroutine.mp hb
      simp only [holder] at hk
      subst hk
      cases hr.symm.trans hq
      have own := (List.nodup_flatMap.mp h).1 _ (List.mem_of_getElem? (subroutineAt?_eq_some_iff.mp hr))
      have inner : (r.statements.map Activity.id).Nodup := (List.nodup_cons.mp own).2
      refine ⟨rfl, ?_⟩
      have hi' : (r.statements.map Activity.id)[i]? = some a.id := by simp [hi]
      have hj' : (r.statements.map Activity.id)[j]? = some a.id := by simp [hj, same]
      obtain ⟨li, -⟩ := List.getElem?_eq_some_iff.mp hi'
      exact (List.getElem?_inj li inner).mp (hi'.trans hj'.symm)

/-- With distinct identities no trigger has that of an activity. -/
theorem trigger_id_ne (h : d.ids.Nodup) (ha : d.statement? s i = some a) {t : Trigger}
    (ht : .trigger t ∈ d.elements) : t.id ≠ a.id := by
  intro same
  obtain ⟨k, hk⟩ := List.mem_iff_getElem?.mp ht
  obtain ⟨e, he, own⟩ := holder_getElem? ha
  have place : k = holder s i := place_eq_of_id_mem h hk he List.mem_cons_self (by rw [Element.id, same]; exact own)
  rw [place] at hk
  cases s with
  | root => cases hk.symm.trans (statement?_root.mp ha)
  | subroutine l =>
    obtain ⟨r, hr, -⟩ := statement?_subroutine.mp ha
    cases hk.symm.trans (subroutineAt?_eq_some_iff.mp hr)

end EncounterTimeline.Definition

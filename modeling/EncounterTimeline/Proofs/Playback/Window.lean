import EncounterTimeline.Playback.Window
import EncounterTimeline.Proofs.Timeline.Scope

/-! # What is in the window

The window of a frame holds activities of its scope, at or after it and not done, each at a place of its own;
the activity that a line synchronises is one of them.
-/
namespace EncounterTimeline

namespace Definition

variable {d : Definition} {f : Frame} {visible : Nat} {i : Nat} {a : Activity} {line : String} {m : SyncMatch}

theorem mem_window (h : (i, a) ∈ d.window f visible) :
    d.statement? f.scope i = some a ∧ f.index ≤ i ∧ a.latches.done = false := by
  have h := List.mem_of_mem_take h
  obtain ⟨⟨place, k⟩, hm, hp⟩ := List.mem_filterMap.mp h
  obtain ⟨n, hn⟩ := List.mem_iff_getElem?.mp hm
  rw [List.getElem?_drop, List.getElem?_zipIdx] at hn
  obtain ⟨q, hq, he⟩ := Option.map_eq_some_iff.mp hn
  simp only [Prod.mk.injEq] at he
  obtain ⟨rfl, rfl⟩ := he
  cases q with
  | none => simp at hp
  | some b =>
    cases hd : b.latches.done with
    | true => simp [hd] at hp
    | false =>
      simp only [hd, Bool.false_eq_true, if_false, Option.some.injEq, Prod.mk.injEq] at hp
      obtain ⟨rfl, rfl⟩ := hp
      exact ⟨statement?_eq_some_iff.mpr (by simpa using hq), by omega, hd⟩

/-- The places of the window rise. -/
theorem window_pairwise (d : Definition) (f : Frame) (visible : Nat) :
    (d.window f visible).Pairwise fun x y => x.1 < y.1 := by
  have rising : ((d.places f.scope).zipIdx).Pairwise fun x y => x.2 < y.2 := by
    have h : ((d.places f.scope).zipIdx.map Prod.snd).Pairwise (· < ·) := by
      rw [List.zipIdx_map_snd]
      exact List.pairwise_lt_range'
    exact List.pairwise_map.mp h
  apply List.Pairwise.take
  apply List.Pairwise.filterMap _ _ (List.Pairwise.drop rising)
  rintro ⟨q, i⟩ ⟨r, j⟩ lt x hx y hy
  cases q with
  | none => simp at hx
  | some a =>
    cases r with
    | none => simp at hy
    | some b => grind

/-- The places of the window are the first in its scope that hold an activity which is not done. -/
theorem map_fst_window (d : Definition) (f : Frame) (visible : Nat) : (d.window f visible).map Prod.fst =
    ((List.range' f.index (d.scopeLength f.scope - f.index)).filter fun i =>
      (d.statement? f.scope i).any fun a => !a.latches.done).take visible := by
  have numbered : (d.places f.scope).zipIdx.drop f.index =
      (List.range' f.index (d.scopeLength f.scope - f.index)).map fun i => (d.statement? f.scope i, i) := by
    apply List.ext_getElem
    · simp [scopeLength]
    · intro i h₁ h₂
      have lt : f.index + i < (d.places f.scope).length := by
        simp only [List.length_drop, List.length_zipIdx] at h₁
        omega
      simp [statement?, List.getElem?_eq_getElem lt]
  rw [window, numbered, List.filterMap_map, List.map_take, List.map_filterMap, ← List.filterMap_eq_filter]
  congr 1
  apply List.filterMap_congr
  intro i _
  cases ha : d.statement? f.scope i with
  | none => simp [ha, Option.guard]
  | some a => cases done : a.latches.done <;> simp [ha, done, Option.guard]

theorem places_mapScope {s : Scope} (g : Nat → Activity → Activity) :
    (d.mapScope s g).places s = (d.places s).mapIdx fun i place => place.map (g i) := by
  apply List.ext_getElem?
  intro i
  rw [List.getElem?_mapIdx]
  cases s with
  | root =>
    simp only [places, mapScope, List.getElem?_map, List.getElem?_mapIdx]
    cases d.elements[i]? with
    | none => rfl
    | some e => cases e <;> rfl
  | subroutine k =>
    simp only [places, subroutineAt?_mapScope_subroutine]
    cases d.subroutineAt? k with
    | none => rfl
    | some r => cases hi : r.statements[i]? <;> simp [hi]

/-- Changes that finish nothing keep the places of the window. -/
theorem window_mapScope {g : Nat → Activity → Activity}
    (h : ∀ i a, (g i a).latches.done = a.latches.done) :
    (d.mapScope f.scope g).window f visible = (d.window f visible).map fun (i, a) => (i, g i a) := by
  have numbered (l : List (Option Activity)) : (l.mapIdx fun i place => place.map (g i)).zipIdx =
      l.zipIdx.map fun x => (x.1.map (g x.2), x.2) := by
    apply List.ext_getElem?
    intro n
    simp only [List.getElem?_zipIdx, List.getElem?_mapIdx, List.getElem?_map]
    cases l[n]? <;> simp
  simp only [window, places_mapScope, numbered, ← List.map_drop, List.filterMap_map, List.map_take,
    List.map_filterMap]
  congr 2
  funext x
  obtain ⟨place, i⟩ := x
  cases place with
  | none => rfl
  | some a => cases done : a.latches.done <;> simp [done, h]

theorem mem_of_earliest {l : List SyncMatch} (h : SyncMatch.earliest l = some m) : m ∈ l := by
  induction l generalizing m with
  | nil => cases h
  | cons k rest ih =>
    rw [SyncMatch.earliest] at h
    cases hr : SyncMatch.earliest rest with
    | none =>
      simp only [hr, Option.some.injEq] at h
      exact h ▸ List.mem_cons_self
    | some n =>
      simp only [hr] at h
      split at h
      · cases h
        exact List.mem_cons_of_mem _ (ih hr)
      · cases h
        exact List.mem_cons_self

/-- What a line synchronises is in the window and may be synchronised by it. -/
theorem findSync_eq_some (h : d.findSync f visible line = some m) :
    (m.index, m.activity) ∈ d.window f visible ∧ m.activity.canSync = true ∧
      (m.activity.cue.sync.any fun p => p.isMatch line) = true ∧
      m.effectiveTime = m.activity.cue.effectiveTime f.base := by
  have hm := mem_of_earliest h
  obtain ⟨⟨i, a⟩, hw, hs⟩ := List.mem_filterMap.mp hm
  dsimp only at hs
  rw [Option.ite_none_right_eq_some, Bool.and_eq_true, Option.some.injEq] at hs
  obtain ⟨⟨armed, fits⟩, rfl⟩ := hs
  exact ⟨hw, armed, fits, rfl⟩

end Definition

theorem Activity.canSync_iff {a : Activity} : a.canSync = true ↔
    a.latches.synced = false ∧ a.latches.done = false ∧ a.cue.sync.any SyncPattern.isUsable = true := by
  simp [canSync, and_assoc]

end EncounterTimeline

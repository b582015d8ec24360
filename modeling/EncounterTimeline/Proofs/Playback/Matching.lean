import EncounterTimeline.Proofs.Decimal.Value
import EncounterTimeline.Proofs.Playback.Draining

/-! # Which activity a line synchronises

The activities of the window that may be synchronised are tried in the order of their effective times, and where these are
the same in the order of the list; the first whose pattern fits the line is chosen. So the line synchronises the least of
those that fit, in a strict order.
-/
namespace EncounterTimeline

open Decimal

namespace SyncMatch

variable {l : List SyncMatch} {m n k : SyncMatch}

theorem precedes_iff : m.precedes n = true ↔ orderKey m.effectiveTime < orderKey n.effectiveTime ∨
    orderKey m.effectiveTime = orderKey n.effectiveTime ∧ m.index < n.index := by
  simp [precedes]

theorem precedes_asymm (h : m.precedes n = true) : n.precedes m = false := by
  rw [← Bool.not_eq_true, precedes_iff]
  rw [precedes_iff] at h
  omega

/-- Activities of different places are never level. -/
theorem precedes_or_precedes (h : m.index ≠ n.index) : m.precedes n = true ∨ n.precedes m = true := by
  rw [precedes_iff, precedes_iff]
  omega

def notAfter (m n : SyncMatch) : Bool := !n.precedes m

theorem notAfter_trans (h : m.notAfter n = true) (h' : n.notAfter k = true) : m.notAfter k = true := by
  simp only [notAfter, Bool.not_eq_true', ← Bool.not_eq_true, precedes_iff] at *
  omega

theorem notAfter_total (m n : SyncMatch) : (m.notAfter n || n.notAfter m) = true := by
  simp only [notAfter, Bool.or_eq_true, Bool.not_eq_true', ← Bool.not_eq_true, precedes_iff]
  omega

theorem pairwise_mergeSort (l : List SyncMatch) :
    (l.mergeSort notAfter).Pairwise fun m n => m.notAfter n = true := by
  apply List.pairwise_mergeSort
  · exact fun m n k => notAfter_trans
  · exact notAfter_total

structure Least (kind : SyncMatch → Prop) (m : SyncMatch) : Prop where
  own : kind m
  first : ∀ n, kind n → n ≠ m → m.precedes n = true

theorem Least.unique {kind : SyncMatch → Prop} (h : Least kind m) (h' : Least kind n) : m = n := by
  by_contra differ
  have before := h.first n h'.own (Ne.symm differ)
  have after := h'.first m h.own differ
  rw [precedes_asymm before] at after
  cases after

/-- Whatever is not after any other of a kind with places of their own is the least. -/
theorem least_of_notAfter {kind : SyncMatch → Prop} (apart : ∀ n k, kind n → kind k → n.index = k.index → n = k)
    (own : kind m) (h : ∀ n, kind n → m.notAfter n = true) : Least kind m := by
  refine ⟨own, fun n other differ => ?_⟩
  have places : m.index ≠ n.index := fun same => differ (apart n m other own same.symm)
  rcases precedes_or_precedes places with before | after
  · exact before
  · have kept := h n other
    rw [notAfter, after] at kept
    cases kept

theorem earliest_eq_none_iff : earliest l = none ↔ l = [] := by
  cases l with
  | nil => simp [earliest]
  | cons m rest =>
    simp only [earliest, reduceCtorEq, iff_false]
    cases earliest rest with
    | none => exact Option.some_ne_none m
    | some n =>
      dsimp only
      cases n.precedes m <;> exact Option.some_ne_none _

theorem notAfter_of_earliest (h : earliest l = some m) : ∀ n ∈ l, m.notAfter n = true := by
  induction l generalizing m with
  | nil => cases h
  | cons k rest ih =>
    have self (n : SyncMatch) : n.notAfter n = true := (Bool.or_self _).symm.trans (notAfter_total n n)
    rw [earliest] at h
    rw [List.forall_mem_cons]
    cases hr : earliest rest with
    | none =>
      rw [earliest_eq_none_iff] at hr
      subst hr
      cases h
      exact ⟨self k, by simp⟩
    | some n =>
      simp only [hr] at h
      -- The head is up against the first of the rest.
      cases before : n.precedes k with
      | true =>
        rw [before, if_pos rfl] at h
        cases h
        exact ⟨by rw [notAfter, precedes_asymm before, Bool.not_false], ih hr⟩
      | false =>
        rw [before, if_neg Bool.false_ne_true] at h
        cases h
        have level : k.notAfter n = true := by rw [notAfter, before, Bool.not_false]
        exact ⟨self k, fun j hj => notAfter_trans level (ih hr j hj)⟩

end SyncMatch

namespace Definition

variable {d : Definition} {f : Frame} {visible : ℕ} {fits : SyncPattern → Bool} {m n : SyncMatch}

def armed (d : Definition) (f : Frame) (visible : ℕ) : List SyncMatch :=
  (d.window f visible).filterMap fun (i, a) => if a.canSync then some ⟨i, a, a.cue.effectiveTime f.base⟩ else none

def firstFitting (d : Definition) (f : Frame) (visible : ℕ) (fits : SyncPattern → Bool) : Option SyncMatch :=
  ((d.armed f visible).mergeSort SyncMatch.notAfter).find? fun m => m.activity.cue.sync.any fits

/-- An activity near the frame that was not synchronised and has a usable pattern that fits. -/
structure Candidate (d : Definition) (f : Frame) (visible : ℕ) (fits : SyncPattern → Bool) (m : SyncMatch) : Prop where
  near : m.index ∈ d.nearTerm f visible
  here : d.statement? f.scope m.index = some m.activity
  unsynced : m.activity.latches.synced = false
  fitting : ∃ pattern, m.activity.cue.sync = some pattern ∧ pattern.isUsable = true ∧ fits pattern = true
  effective : m.effectiveTime = m.activity.cue.effectiveTime f.base

theorem Candidate.eq_of_index (h : d.Candidate f visible fits m) (h' : d.Candidate f visible fits n)
    (same : m.index = n.index) : m = n := by
  have activity : m.activity = n.activity := Option.some.inj (h.here.symm.trans (same ▸ h'.here))
  obtain ⟨i, a, time⟩ := m
  obtain ⟨j, b, time'⟩ := n
  cases same
  cases activity
  have effective : time = a.cue.effectiveTime f.base := h.effective
  have effective' : time' = a.cue.effectiveTime f.base := h'.effective
  rw [effective, effective']

theorem mem_window_iff {i : ℕ} {a : Activity} :
    (i, a) ∈ d.window f visible ↔ i ∈ d.nearTerm f visible ∧ d.statement? f.scope i = some a := by
  rw [nearTerm, ← map_fst_window, List.mem_map]
  constructor
  · exact fun h => ⟨⟨_, h, rfl⟩, (mem_window h).1⟩
  · rintro ⟨⟨⟨i, b⟩, hb, rfl⟩, ha⟩
    cases (mem_window hb).1.symm.trans ha
    exact hb

theorem mem_armed_iff : m ∈ d.armed f visible ↔
    (m.index, m.activity) ∈ d.window f visible ∧ m.activity.canSync = true ∧
      m.effectiveTime = m.activity.cue.effectiveTime f.base := by
  rw [armed, List.mem_filterMap]
  constructor
  · rintro ⟨⟨i, a⟩, hw, hm⟩
    obtain ⟨armed, rfl⟩ := Option.ite_none_right_eq_some.mp hm |>.imp_right Option.some.inj
    exact ⟨hw, armed, rfl⟩
  · rintro ⟨hw, armed, effective⟩
    refine ⟨_, hw, ?_⟩
    dsimp only
    rw [if_pos armed, ← effective]

theorem candidate_iff : d.Candidate f visible fits m ↔
    m ∈ d.armed f visible ∧ m.activity.cue.sync.any fits = true := by
  rw [mem_armed_iff, mem_window_iff, Activity.canSync_iff]
  constructor
  · rintro ⟨near, here, unsynced, ⟨pattern, written, usable, fit⟩, effective⟩
    have fresh := (mem_window (mem_window_iff.mpr ⟨near, here⟩)).2.2
    simp [written, usable, fit, near, here, unsynced, fresh, effective]
  · rintro ⟨⟨⟨near, here⟩, ⟨unsynced, -, usable⟩, effective⟩, fit⟩
    obtain ⟨pattern, written, usable⟩ := (Option.any_eq_true _ _).mp usable
    rw [written] at fit
    exact ⟨near, here, unsynced, ⟨pattern, written, usable, fit⟩, effective⟩

theorem syncMatches_eq (line : String) : d.syncMatches f visible line =
    (d.armed f visible).filter fun m => m.activity.cue.sync.any fun pattern => pattern.isMatch line := by
  rw [syncMatches, armed, List.filter_filterMap]
  apply List.filterMap_congr
  rintro ⟨i, a⟩ _
  dsimp only
  cases a.canSync with
  | false => rfl
  | true => cases fit : a.cue.sync.any fun pattern => pattern.isMatch line <;> simp [Option.filter, fit]

theorem least_of_findSync {line : String} (h : d.findSync f visible line = some m) :
    SyncMatch.Least (d.Candidate f visible fun pattern => pattern.isMatch line) m := by
  have mem (n : SyncMatch) : n ∈ d.syncMatches f visible line ↔
      d.Candidate f visible (fun pattern => pattern.isMatch line) n := by
    rw [syncMatches_eq, List.mem_filter, candidate_iff]
  refine SyncMatch.least_of_notAfter (fun _ _ => Candidate.eq_of_index) ((mem m).mp (mem_of_earliest h)) ?_
  exact fun n other => SyncMatch.notAfter_of_earliest h n ((mem n).mpr other)

theorem least_of_firstFitting (h : d.firstFitting f visible fits = some m) :
    SyncMatch.Least (d.Candidate f visible fits) m := by
  have sorted := SyncMatch.pairwise_mergeSort (d.armed f visible)
  rw [firstFitting, List.find?_eq_some_iff_append] at h
  obtain ⟨fit, passed, later, split, unfit⟩ := h
  have mem (n : SyncMatch) : n ∈ d.armed f visible ↔ n ∈ passed ∨ n = m ∨ n ∈ later := by
    rw [← List.mem_mergeSort, split, List.mem_append, List.mem_cons]
  rw [split, List.pairwise_append, List.pairwise_cons] at sorted
  refine SyncMatch.least_of_notAfter (fun _ _ => Candidate.eq_of_index)
    (candidate_iff.mpr ⟨(mem m).mpr (.inr (.inl rfl)), fit⟩) ?_
  intro n other
  obtain ⟨listed, fit'⟩ := candidate_iff.mp other
  -- What was tried before does not fit, and what comes later in the sorted list is not before.
  rcases (mem n).mp listed with before | rfl | after
  · have missed := unfit n before
    rw [fit'] at missed
    cases missed
  · exact (Bool.or_self _).symm.trans (SyncMatch.notAfter_total n n)
  · exact sorted.2.1.1 n after

theorem findSync_eq_none_iff {line : String} : d.findSync f visible line = none ↔
    ∀ m, ¬ d.Candidate f visible (fun pattern => pattern.isMatch line) m := by
  simp [findSync, SyncMatch.earliest_eq_none_iff, syncMatches_eq, candidate_iff, List.filter_eq_nil_iff]

theorem firstFitting_eq_none_iff : d.firstFitting f visible fits = none ↔ ∀ m, ¬ d.Candidate f visible fits m := by
  simp [firstFitting, candidate_iff]

theorem findSync_eq_firstFitting (line : String) :
    d.findSync f visible line = d.firstFitting f visible fun pattern => pattern.isMatch line := by
  cases hm : d.findSync f visible line with
  | none => exact (firstFitting_eq_none_iff.mpr (findSync_eq_none_iff.mp hm)).symm
  | some m =>
    have least := least_of_findSync hm
    cases hn : d.firstFitting f visible fun pattern => pattern.isMatch line with
    | none => exact (firstFitting_eq_none_iff.mp hn m least.own).elim
    | some n => rw [least.unique (least_of_firstFitting hn)]

theorem firstFitting_eq_some_iff :
    d.firstFitting f visible fits = some m ↔ SyncMatch.Least (d.Candidate f visible fits) m := by
  constructor
  · exact least_of_firstFitting
  · intro least
    cases hn : d.firstFitting f visible fits with
    | none => exact (firstFitting_eq_none_iff.mp hn m least.own).elim
    | some n => rw [(least_of_firstFitting hn).unique least]

theorem Candidate.index_le (h : d.Candidate f visible fits m) : f.index ≤ m.index :=
  (mem_window (mem_window_iff.mpr ⟨h.near, h.here⟩)).2.1

theorem valueOf_le_of_least (h : SyncMatch.Least (d.Candidate f visible fits) m) (hn : d.Candidate f visible fits n)
    (finite : m.effectiveTime.isFinite = true) (finite' : n.effectiveTime.isFinite = true) :
    valueOf m.effectiveTime ≤ valueOf n.effectiveTime := by
  by_contra later
  have key := orderKey_lt_of_valueOf_lt finite' finite (not_le.mp later)
  by_cases same : n = m
  · rw [same] at key
    exact lt_irrefl _ key
  · have before := SyncMatch.precedes_iff.mp (h.first n hn same)
    omega

/-- A line synchronises the first that fits of the activities tried in their order. Whatever it is to fit: none is found
exactly if none near the frame is a candidate, and otherwise it is the candidate with the least effective time in the
total order of doubles, and of several such the first in the list. It is not before the frame, and no candidate is due
earlier. -/
theorem findSync_least (d : Definition) (f : Frame) (visible : ℕ) :
    (∀ line, d.findSync f visible line = d.firstFitting f visible fun pattern => pattern.isMatch line) ∧
    ∀ fits : SyncPattern → Bool,
      (d.firstFitting f visible fits = none ↔ ∀ n, ¬ d.Candidate f visible fits n) ∧
      ∀ m,
        (d.firstFitting f visible fits = some m ↔ d.Candidate f visible fits m ∧
          ∀ n, d.Candidate f visible fits n → n.index ≠ m.index →
            orderKey m.effectiveTime < orderKey n.effectiveTime ∨
              orderKey m.effectiveTime = orderKey n.effectiveTime ∧ m.index < n.index) ∧
        (d.firstFitting f visible fits = some m → f.index ≤ m.index ∧
          ∀ n, d.Candidate f visible fits n → m.effectiveTime.isFinite = true → n.effectiveTime.isFinite = true →
            valueOf m.effectiveTime ≤ valueOf n.effectiveTime) := by
  refine ⟨findSync_eq_firstFitting, fun fits => ⟨firstFitting_eq_none_iff, fun m => ⟨?_, ?_⟩⟩⟩
  · rw [firstFitting_eq_some_iff]
    constructor
    · rintro ⟨own, first⟩
      refine ⟨own, fun n other apart => SyncMatch.precedes_iff.mp (first n other fun same => apart ?_)⟩
      rw [same]
    · rintro ⟨own, first⟩
      refine ⟨own, fun n other differ => SyncMatch.precedes_iff.mpr (first n other fun same => differ ?_)⟩
      exact other.eq_of_index own same
  · intro found
    have least := least_of_firstFitting found
    exact ⟨least.own.index_le, fun n other finite finite' => valueOf_le_of_least least other finite finite'⟩

def disordered : Definition :=
  { elements :=
      [.trigger { id := 0, rule := {} },
        .activity { id := 1, cue := { time := ⟨20000000000⟩, sync := some (.ofSource "(?-i)Phase") } },
        .activity { id := 2, cue := { time := ⟨10000000000⟩, sync := some (.ofSource "(?-i)Phase") } },
        .activity { id := 3, cue := { time := ⟨10000000000⟩, sync := some (.ofSource "(?-i)Phase") } }] }

example : (disordered.findSync .start 3 "Phase").map SyncMatch.index = some 2 := by decide +kernel

example : (disordered.findSync .start 1 "Phase").map SyncMatch.index = some 1 := by decide +kernel

end Definition

end EncounterTimeline

import EncounterTimeline.Proofs.Playback.Synchronisation
import EncounterTimeline.Proofs.Playback.Triggers

/-! # What a line that synchronises changes

The clock goes to the scripted moment of the activity and the cursor to its place. What lies between is passed over without
a notice and without following a jump, and nothing else of the definition changes.
-/
namespace EncounterTimeline

/-- What is written, the count of a trigger and the activities make up an element. -/
theorem Element.eq_of_script {x y : Element} (written : x.script = y.script) (counted : x.asTrigger = y.asTrigger)
    (activities : x.activities = y.activities) : x = y := by
  cases x with
  | preset => cases y <;> simp_all [script]
  | activity => cases y <;> simp_all [script, Element.activities]
  | trigger => cases y <;> simp_all [script, asTrigger]
  | subroutine r =>
    cases y with
    | subroutine q =>
      obtain ⟨id, name, statements⟩ := r
      obtain ⟨id', name', statements'⟩ := q
      simp_all [script, Element.activities]
    | _ => cases written

namespace Definition

variable {d e : Definition} {k : ℕ}

theorem statement?_of_subroutine {r : Subroutine} (h : d.elements[k]? = some (.subroutine r)) (i : ℕ) :
    d.statement? (.subroutine k) i = r.statements[i]? := by
  ext a
  rw [statement?_subroutine]
  constructor
  · rintro ⟨q, hq, ha⟩
    cases (subroutineAt?_eq_some_iff.mp hq).symm.trans h
    exact ha
  · exact fun ha => ⟨r, subroutineAt?_eq_some_iff.mpr h, ha⟩

/-- The activities of an element are what stands at its addresses. -/
theorem activities_eq_of_statements (statements : ∀ c i, d.statement? c i = e.statement? c i) {x y : Element}
    (hx : d.elements[k]? = some x) (hy : e.elements[k]? = some y) (written : x.script = y.script) :
    x.activities = y.activities := by
  cases x with
  | preset | trigger => cases y <;> first | rfl | cases written
  | activity a =>
    cases y with
    | activity b =>
      have here := statements .root k
      rw [statement?_root.mpr hx, statement?_root.mpr hy] at here
      rw [Option.some.inj here]
    | _ => cases written
  | subroutine r =>
    cases y with
    | subroutine q =>
      apply List.ext_getElem?
      intro i
      show r.statements[i]? = q.statements[i]?
      rw [← statement?_of_subroutine hx, statements, statement?_of_subroutine hy]
    | _ => cases written

/-- What is written, the counts of the triggers and what stands at the addresses make up a definition. -/
theorem eq_of_script (script : d.script = e.script)
    (triggers : d.elements.map Element.asTrigger = e.elements.map Element.asTrigger)
    (statements : ∀ c i, d.statement? c i = e.statement? c i) : d = e := by
  have elements : d.elements = e.elements := by
    -- Place by place: the script fixes the kind and what is written, the rest is at addresses or a count.
    apply List.ext_getElem?
    intro k
    have written : (d.elements[k]?).map Element.script = (e.elements[k]?).map Element.script := by
      rw [← List.getElem?_map, ← List.getElem?_map]
      exact congrArg (fun c : Definition => c.elements[k]?) script
    have counted : (d.elements[k]?).map Element.asTrigger = (e.elements[k]?).map Element.asTrigger := by
      rw [← List.getElem?_map, ← List.getElem?_map, triggers]
    cases hx : d.elements[k]? with
    | none =>
      rw [hx, Option.map_none] at written
      exact (Option.map_eq_none_iff.mp written.symm).symm
    | some x =>
      rw [hx] at written counted
      obtain ⟨y, hy, same⟩ := Option.map_eq_some_iff.mp written.symm
      rw [hy] at counted
      have activities := activities_eq_of_statements statements hx hy same.symm
      rw [hy, Element.eq_of_script same.symm (Option.some.inj counted) activities]
  cases d
  cases e
  simp_all [Definition.script]

end Definition

namespace Session

variable {p : Pace} {s t u : Session} {f : Frame} {m : SyncMatch} {line : String} {host : Duration}

/-- The session after a line has synchronised an activity ahead of the frame. -/
structure Rebased (s : Session) (f : Frame) (m : SyncMatch) (host : Duration) (t : Session) : Prop where
  clock : t.clock = Clock.settle (m.activity.cue.effectiveTime f.base + m.activity.cue.syncStart.getD 0.0)
  lastHost : t.lastHost = host
  cursor : t.cursor = ⟨some { f with index := m.index }, s.cursor.returns⟩
  journal : t.journal = .synced m.activity.id :: s.journal
  skipped : ∀ i, f.index ≤ i → i < m.index → t.definition.statement? f.scope i =
    (s.definition.statement? f.scope i).map fun a =>
      { a with latches := { a.latches with done := true, active := false } }
  matched : t.definition.statement? f.scope m.index =
    some { m.activity with latches := { m.activity.latches with synced := true, active := true } }
  unchanged : ∀ c i, c ≠ f.scope ∨ i < f.index ∨ m.index < i →
    t.definition.statement? c i = s.definition.statement? c i
  triggers : t.definition.elements.map Element.asTrigger = s.definition.elements.map Element.asTrigger
  script : t.definition.script = s.definition.script

theorem rebased_syncTo (hf : s.cursor.frame = some f)
    (here : s.definition.statement? f.scope m.index = some m.activity)
    (effective : m.effectiveTime = m.activity.cue.effectiveTime f.base) (le : f.index ≤ m.index)
    (host : Duration) : s.Rebased f m host (s.syncTo f m host) := by
  have changed (c : Scope) (i : ℕ) :=
    Definition.statement?_mapScope (d := s.definition) (s := f.scope) (t := c) (i := i)
      fun i a => if i = m.index then a.latchSync else if f.index ≤ i && i < m.index then a.skip else a
  refine
    { clock := by rw [← effective]; rfl
      lastHost := rfl
      cursor := ?_
      journal := rfl
      skipped := fun i low high => ?_
      matched := ?_
      unchanged := fun c i apart => ?_
      triggers := Definition.map_asTrigger_mapScope _
      script := script_syncTo f m host }
  · show s.cursor.moveTo m.index = _
    rw [Cursor.moveTo, hf, Option.map_some]
  · refine (changed f.scope i).trans ?_
    have between : (f.index ≤ i && i < m.index : Bool) = true := by simp [low, high]
    rw [if_pos rfl]
    simp only [if_neg high.ne, between, if_true]
    rfl
  · refine (changed f.scope m.index).trans ?_
    rw [if_pos rfl, here, Option.map_some, if_pos rfl]
    rfl
  · refine (changed c i).trans ?_
    by_cases same : c = f.scope
    · have outside := apart.resolve_left fun other => other same
      have past : (f.index ≤ i && i < m.index : Bool) = false := by
        rw [← Bool.not_eq_true, Bool.and_eq_true, decide_eq_true_eq, decide_eq_true_eq]
        omega
      rw [if_pos same]
      simp only [if_neg (show i ≠ m.index by omega), past, Bool.false_eq_true, if_false, Option.map_id']
    · rw [if_neg same]

/-- Nothing is left open. -/
theorem Rebased.unique (h : s.Rebased f m host t) (h' : s.Rebased f m host u) : t = u := by
  have definition : t.definition = u.definition := by
    refine Definition.eq_of_script (h.script.trans h'.script.symm) (h.triggers.trans h'.triggers.symm) fun c i => ?_
    by_cases apart : c ≠ f.scope ∨ i < f.index ∨ m.index < i
    · rw [h.unchanged c i apart, h'.unchanged c i apart]
    · obtain ⟨rfl, low, high⟩ : c = f.scope ∧ f.index ≤ i ∧ i ≤ m.index := by
        simpa only [not_or, not_lt, ne_eq, not_not] using apart
      rcases Nat.lt_or_eq_of_le high with below | rfl
      · rw [h.skipped i low below, h'.skipped i low below]
      · rw [h.matched, h'.matched]
  have clock := h.clock.trans h'.clock.symm
  have cursor := h.cursor.trans h'.cursor.symm
  have lastHost := h.lastHost.trans h'.lastHost.symm
  have journal := h.journal.trans h'.journal.symm
  cases t
  cases u
  simp_all only

theorem synchronize_of_findSync (hf : s.cursor.frame = some f) (hm : s.definition.findSync f p.visible line = some m)
    (host : Duration) : s.synchronize p line host = (some m.activity.id, s.syncTo f m host) := by
  simp only [synchronize, hf, hm]

theorem rebased_of_findSync (hf : s.cursor.frame = some f) (hm : s.definition.findSync f p.visible line = some m)
    (host : Duration) : s.Rebased f m host (s.syncTo f m host) := by
  obtain ⟨window, -, -, effective⟩ := Definition.findSync_eq_some hm
  obtain ⟨here, le, -⟩ := Definition.mem_window window
  exact rebased_syncTo hf here effective le host

end Session

end EncounterTimeline

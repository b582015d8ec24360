import EncounterTimeline.Proofs.Playback.Entries
import EncounterTimeline.Proofs.Playback.Placement
import EncounterTimeline.Proofs.Playback.Synchronisation
import EncounterTimeline.Settings.Basic

/-! # A step executes whatever is due

The loop stops where there is nothing to execute: the cursor has finished, or stands at an activity that is not due.
Otherwise it has executed as many activities as one step may. The window is shown last, for the frame and the clock
position that the loop stopped with.
-/
namespace EncounterTimeline

namespace Happening

def isExecution : Happening → Bool
  | .executed _ => true
  | _ => false

theorem isExecution_of_subject {e : Happening} (h : e.subject = none) : e.isExecution = false := by
  cases e with
  | executed => cases h
  | _ => rfl

end Happening

def Journal.executions (j : Journal) : Nat := j.countP Happening.isExecution

def Definition.nearTerm (d : Definition) (f : Frame) (visible : Nat) : List Nat :=
  ((List.range' f.index (d.scopeLength f.scope - f.index)).filter fun i =>
    (d.statement? f.scope i).any fun a => !a.latches.done).take visible

/-- The activity is shown as it is at a clock position, and its notice is not overdue. -/
structure Activity.Presented (a : Activity) (clock base window : Float) : Prop where
  active : a.latches.active = true
  remaining : a.remaining = remainingFor (a.cue.before clock base)
  progress : a.progress = progressFor (a.cue.before clock base) window
  notified : a.latches.notified = true ∨ a.cue.before clock base > a.cue.noticeThreshold

namespace Activity

variable (a : Activity) (clock base window : Float)

theorem isDue_attend : (a.attend clock base window).isDue clock base = a.isDue clock base := by
  unfold attend
  split <;> rfl

theorem presented_attend : (a.attend clock base window).Presented clock base window := by
  unfold attend
  split
  · exact ⟨rfl, rfl, rfl, .inl rfl⟩
  · rename_i early
    have ahead : a.cue.before clock base > a.cue.noticeThreshold := by simpa [Cue.noticeDue] using early
    exact ⟨rfl, rfl, rfl, .inr ahead⟩

end Activity

namespace Journal

variable {j : Journal} {es : List Happening}

theorem executions_record : (j.record es).executions = j.executions + es.countP Happening.isExecution := by
  simp [executions, record, Nat.add_comm]

theorem executions_record_aside (h : ∀ e ∈ es, e.isExecution = false) : (j.record es).executions = j.executions := by
  rw [executions_record, List.countP_eq_zero.mpr, Nat.add_zero]
  intro e he
  simp [h e he]

end Journal

namespace Session

variable {p : Pace} {s : Session} {f : Frame} {a : Activity}

theorem isExecution_of_mem_pending {e : Happening} (h : e ∈ s.pending a) : e.isExecution = false := by
  obtain ⟨text, -, -, rfl⟩ := mem_pending.mp h
  rfl

theorem executions_follow (s : Session) (owner : ElementId) (jump : Option Jump) (resume : Nat) :
    (s.follow owner jump resume).journal.executions = s.journal.executions := by
  rw [journal_follow]
  apply Journal.executions_record_aside
  intro e he
  exact Happening.isExecution_of_subject (subject_of_mem_transferEntry he)

theorem executions_strike (p : Pace) (s : Session) (f : Frame) (a : Activity) :
    (s.strike p f a).journal.executions = s.journal.executions + 1 := by
  rw [strike, record_journal, Journal.record_append, Journal.executions_record, Journal.executions_record_aside]
  · rfl
  · exact fun _ he => isExecution_of_mem_pending he

theorem executions_await (p : Pace) (s : Session) (f : Frame) (a : Activity) :
    (s.await p f a).journal.executions = s.journal.executions :=
  Journal.executions_record_aside fun _ he => isExecution_of_mem_pending (mem_pendingNow.mp he).2

theorem executions_refreshWindow (p : Pace) (s : Session) :
    (s.refreshWindow p).journal.executions = s.journal.executions := by
  cases hf : s.cursor.frame with
  | none => simp only [refreshWindow, hf]
  | some f =>
    rw [refreshWindow_of_frame hf]
    apply Journal.executions_record_aside
    intro e he
    obtain ⟨⟨i, a⟩, -, he⟩ := List.mem_flatMap.mp he
    exact isExecution_of_mem_pending (mem_pendingNow.mp he).2

def Waits (s : Session) : Prop :=
  ∃ f a, s.cursor.frame = some f ∧ f.activity? s.definition = some a ∧ a.isDue s.clock f.base = false

theorem activity?_await (ha : f.activity? s.definition = some a) :
    f.activity? (s.await p f a).definition = some (a.attend s.clock f.base p.lookAhead) := by
  have there : s.definition.statement? f.scope f.index = some a := ha
  show (s.definition.modifyStatement f.scope f.index _).statement? f.scope f.index = _
  rw [Definition.statement?_modifyStatement]
  simp [there]

theorem activity?_refreshWindow (hf : s.cursor.frame = some f) (ha : f.activity? s.definition = some a) :
    ∃ b, f.activity? (s.refreshWindow p).definition = some b ∧ (b = a ∨ b = a.attend s.clock f.base p.lookAhead) := by
  have there : s.definition.statement? f.scope f.index = some a := ha
  have shown := Definition.statement?_mapScope (d := s.definition) (s := f.scope) (t := f.scope) (i := f.index)
    fun i a => if ((s.definition.window f p.visible).map Prod.fst).contains i then
      a.attend s.clock f.base p.lookAhead else a
  rw [if_pos rfl, there, Option.map_some] at shown
  rw [refreshWindow_of_frame hf]
  refine ⟨_, shown, ?_⟩
  split
  · exact .inr rfl
  · exact .inl rfl

theorem waits_await (hf : s.cursor.frame = some f) (ha : f.activity? s.definition = some a)
    (early : a.isDue s.clock f.base = false) : (s.await p f a).Waits :=
  ⟨f, a.attend s.clock f.base p.lookAhead, hf, activity?_await ha, (a.isDue_attend ..).trans early⟩

theorem Waits.refreshWindow (h : s.Waits) : (s.refreshWindow p).Waits := by
  obtain ⟨f, a, hf, ha, early⟩ := h
  have cursor : (s.refreshWindow p).cursor.frame = some f := by rw [cursor_refreshWindow, hf]
  obtain ⟨b, hb, same⟩ := activity?_refreshWindow (p := p) hf ha
  refine ⟨f, b, cursor, hb, ?_⟩
  rw [(SameTime.refreshWindow p s).clock]
  rcases same with rfl | rfl
  · exact early
  · exact (a.isDue_attend ..).trans early

/-- The loop executes so many activities at most, and if fewer then it has come to the end or its last round has waited at
an activity that is not due. -/
theorem play_stops (h : s.Placed) (p : Pace) (limit : Nat) : ∃ n ≤ limit,
    (play p limit s).journal.executions = s.journal.executions + n ∧
      ((play p limit s).cursor.frame = none ∨
        (∃ (t : Session) (f : Frame) (a : Activity), t.cursor.frame = some f ∧ f.activity? t.definition = some a ∧
          a.isDue t.clock f.base = false ∧ play p limit s = t.await p f a) ∨
        n = limit) := by
  induction limit generalizing s with
  | zero => exact ⟨0, Nat.le_refl 0, rfl, .inr (.inr rfl)⟩
  | succ limit ih =>
    cases hf : s.cursor.frame with
    | none =>
      rw [play_finished hf]
      exact ⟨0, Nat.zero_le _, rfl, .inl hf⟩
    | some f =>
      obtain ⟨a, ha⟩ := h.current f hf
      cases due : a.isDue s.clock f.base with
      | true =>
        rw [play_execute hf ha due]
        have struck : (s.strike p f a).Placed := Cursor.Placed.congr (script_strike p s f a).symm h
        obtain ⟨n, le, count, stopped⟩ := ih (struck.follow a.id a.cue.jump (Nat.le_refl 1))
        refine ⟨n + 1, Nat.succ_le_succ le, ?_, ?_⟩
        · rw [count, executions_follow, executions_strike]
          omega
        · exact stopped.imp_right (Or.imp_right (congrArg (· + 1)))
      | false =>
        rw [play_await hf ha due]
        exact ⟨0, Nat.zero_le _, executions_await p s f a, .inr (.inl ⟨s, f, a, hf, ha, due, rfl⟩)⟩

theorem play_drains (h : s.Placed) (p : Pace) (limit : Nat) : ∃ n ≤ limit,
    (play p limit s).journal.executions = s.journal.executions + n ∧
      ((play p limit s).cursor.frame = none ∨ (play p limit s).Waits ∨ n = limit) := by
  obtain ⟨n, le, count, stopped⟩ := play_stops h p limit
  refine ⟨n, le, count, stopped.imp_right (Or.imp_left ?_)⟩
  rintro ⟨t, f, a, hf, ha, early, awaits⟩
  rw [awaits]
  exact waits_await hf ha early

theorem presented_refreshWindow (p : Pace) (s : Session) (hf : (s.refreshWindow p).cursor.frame = some f) {i : Nat}
    (near : i ∈ (s.refreshWindow p).definition.nearTerm f p.visible) :
    ∃ a, (s.refreshWindow p).definition.statement? f.scope i = some a ∧ a.Presented s.clock f.base p.lookAhead := by
  rw [cursor_refreshWindow] at hf
  rw [Definition.nearTerm, ← Definition.map_fst_window] at near
  obtain ⟨⟨i, a⟩, mem, rfl⟩ := List.mem_map.mp near
  refine ⟨a, (Definition.mem_window mem).1, ?_⟩
  rw [refreshWindow_of_frame hf] at mem
  obtain ⟨b, rfl⟩ := exists_of_window_overWindow (fun a => a.done_attend ..) mem
  exact b.presented_attend ..

/-- Wherever a run has come to and whatever the clock says, a step executes no more activities than the pace allows, and
then the cursor has finished, or stands at an activity that is not due, or so many have been executed. What is in the
window then is shown with the remaining time and the progress of the clock, and its notices have been given unless it
is too early. -/
theorem step_drains (p : Pace) (d : Definition) (x : Scene) (h : Scene.Reached p d x) (clock : Float) :
    let t := Session.step { x.session with clock := clock } p
    (1 ≤ p.maxSteps ∧ ∃ n ≤ p.maxSteps, t.journal.executions = x.session.journal.executions + n ∧
      (t.cursor.isFinished = true ∨
        (∃ f a, t.cursor.frame = some f ∧ f.activity? t.definition = some a ∧ a.cue.before clock f.base > -a.grace) ∨
        n = p.maxSteps)) ∧
    t.clock = clock ∧
    ∀ f, t.cursor.frame = some f → ∀ i ∈ t.definition.nearTerm f p.visible,
      ∃ a, t.definition.statement? f.scope i = some a ∧ a.Presented clock f.base p.lookAhead := by
  intro t
  have placed : ({ x.session with clock := clock } : Session).Placed := h.placed
  have stood := SameTime.play p p.maxSteps { x.session with clock := clock }
  have same := SameTime.step p { x.session with clock := clock }
  obtain ⟨n, le, count, stopped⟩ := play_drains placed p p.maxSteps
  refine ⟨⟨p.maxSteps_pos, n, le, (executions_refreshWindow p _).trans count, ?_⟩, same.clock, ?_⟩
  · rcases stopped with finished | waits | exhausted
    · left
      show (Session.refreshWindow _ p).cursor.isFinished = true
      rw [cursor_refreshWindow, Cursor.isFinished, finished]
      rfl
    · obtain ⟨f, a, hf, ha, early⟩ := waits.refreshWindow (p := p)
      refine .inr (.inl ⟨f, a, hf, ha, ?_⟩)
      rw [show (Session.refreshWindow _ p).clock = clock from same.clock] at early
      simpa [Activity.isDue] using early
    · exact .inr (.inr exhausted)
  · intro f hf i near
    have shown := presented_refreshWindow p _ hf near
    rw [stood.clock] at shown
    exact shown

def treadmill : Session :=
  { definition := { elements := [.activity { id := 0, cue := { text := some "Turn", goto := some "Turn" } }] } }

def brisk : Pace := ({ maxStepsPerTick := 2 } : Settings).pace

theorem step_drains_treadmill :
    let s := treadmill.start brisk .zero
    let t := Session.step { s with clock := 7.0 } brisk
    Scene.Reached brisk treadmill.definition ⟨.rest, s⟩ ∧ t.journal.executions = 2 ∧
      ∃ f a, t.cursor.frame = some f ∧ t.definition.statement? f.scope 0 = some a ∧
        a.Presented 7.0 f.base brisk.lookAhead := by
  intro s t
  have reached : Scene.Reached brisk treadmill.definition ⟨.rest, s⟩ := .start treadmill .zero rfl
  have near : (t.cursor.frame.any fun f => (t.definition.nearTerm f brisk.visible).contains 0) = true := by
    decide +kernel
  obtain ⟨-, -, shown⟩ := step_drains brisk treadmill.definition _ reached 7.0
  refine ⟨reached, by decide +kernel, ?_⟩
  obtain ⟨f, hf, near⟩ := (Option.any_eq_true _ _).mp near
  obtain ⟨a, ha, presented⟩ := shown f hf 0 (List.contains_iff_mem.mp near)
  exact ⟨f, a, hf, ha, presented⟩

end Session

end EncounterTimeline

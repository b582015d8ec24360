import EncounterTimeline.Proofs.Decimal.NegativeZero
import EncounterTimeline.Proofs.Playback.Draining
import EncounterTimeline.Proofs.Playback.Positions

/-! # A step leaves nothing to do

A step that stops before its limit leaves the session steady: the cursor has finished, or stands at an activity that is
not due, and what is shown is as the clock has it. In a steady session another step finds nothing to change. Neither does
a line that nothing waits for, nor a tick in which no time passes.
-/
namespace EncounterTimeline

namespace Activity

variable {a : Activity} {clock base window : Float}

theorem latchNotice_eq_self (h : a.latches.notified = true) : a.latchNotice = a := by
  have latches : { a.latches with notified := true } = a.latches := by rw [← h]
  rw [latchNotice, latches]

namespace Presented

theorem display_eq_self (h : a.Presented clock base window) : a.display clock base window = a := by
  have latches : { a.latches with active := true } = a.latches := by rw [← h.active]
  rw [display, refresh, latches, ← h.remaining, ← h.progress]

/-- Its notice has been given where it is due. -/
theorem notified_of_noticeDue (h : a.Presented clock base window)
    (due : a.cue.noticeDue (a.cue.before clock base) = true) : a.latches.notified = true := by
  refine h.notified.resolve_right fun early => ?_
  rw [Cue.noticeDue, decide_eq_true early] at due
  cases due

theorem attend_eq_self (h : a.Presented clock base window) : a.attend clock base window = a := by
  rw [attend, h.display_eq_self]
  split
  · rename_i due
    exact latchNotice_eq_self (h.notified_of_noticeDue due)
  · rfl

theorem pendingNow_eq_nil {s : Session} (h : a.Presented s.clock base window) : s.pendingNow base a = [] := by
  rw [Session.pendingNow]
  split
  · rename_i due
    rw [Session.pending, pendingNotice, if_pos (h.notified_of_noticeDue due)]
    rfl
  · rfl

end Presented

end Activity

namespace Definition

variable {d : Definition} {c : Scope} {line : String}

/-- A change of a scope that changes none of its activities. -/
theorem mapScope_eq_self {g : Nat → Activity → Activity} (h : ∀ i a, d.statement? c i = some a → g i a = a) :
    d.mapScope c g = d := by
  cases c with
  | root =>
    have elements : (d.mapScope .root g).elements = d.elements := by
      apply List.ext_getElem?
      intro i
      simp only [mapScope, List.getElem?_mapIdx]
      cases he : d.elements[i]? with
      | none => rfl
      | some e =>
        cases e with
        | activity a => simp [h i a (statement?_root.mpr he)]
        | _ => rfl
    exact congrArg (fun es => { d with elements := es }) elements
  | subroutine k =>
    have elements : (d.mapScope (.subroutine k) g).elements = d.elements := by
      apply List.ext_getElem?
      intro i
      simp only [mapScope, List.getElem?_modify]
      cases he : d.elements[i]? with
      | none => rfl
      | some e =>
        by_cases here : k = i
        · subst here
          cases e with
          | subroutine r =>
            have statements : r.statements.mapIdx g = r.statements := by
              apply List.ext_getElem?
              intro j
              rw [List.getElem?_mapIdx]
              cases hj : r.statements[j]? with
              | none => rfl
              | some a =>
                rw [Option.map_some, h j a (statement?_subroutine.mpr ⟨r, subroutineAt?_eq_some_iff.mpr he, hj⟩)]
            simp [statements]
          | _ => simp
        · simp [here]
    exact congrArg (fun es => { d with elements := es }) elements

theorem countFired_eq_self (silent : ∀ t ∈ d.triggers, t.rule.isMatch line = false) : d.countFired line = d := by
  have elements : (d.countFired line).elements = d.elements := by
    apply List.ext_getElem?
    intro i
    simp only [countFired, List.getElem?_map]
    cases he : d.elements[i]? with
    | none => rfl
    | some e =>
      cases e with
      | trigger t =>
        have listed : t ∈ d.triggers := List.mem_filterMap.mpr ⟨_, List.mem_of_getElem? he, rfl⟩
        simp [silent t listed]
      | _ => rfl
  exact congrArg (fun es => { d with elements := es }) elements

theorem firedBy_eq_nil (silent : ∀ t ∈ d.triggers, t.rule.isMatch line = false) : d.firedBy line = [] := by
  rw [firedBy, List.filter_eq_nil_iff]
  intro t ht
  rw [silent t ht]
  exact Bool.false_ne_true

end Definition

namespace Clock

structure Regular (x : Float) : Prop where
  finite : x.isFinite = true
  signless : x ≠ -0.0

variable {x : Float}

theorem regular_zero : Regular 0.0 := ⟨Decimal.isFinite_zero, by decide +kernel⟩

theorem regular_settle (h : x ≠ -0.0) : Regular (settle x) := by
  rw [settle]
  split
  · exact ⟨by assumption, h⟩
  · exact regular_zero

end Clock

theorem Duration.seconds_ne_negative_zero (d : Duration) : d.seconds ≠ -0.0 := by
  intro h
  exact Decimal.toFloat_ne_negative_zero _ (Decimal.eq_negative_zero_of_add h).1

namespace Clock.Regular

variable {x : Float}

theorem advance (h : Regular x) (d : Duration) : Regular (Clock.advance x d) :=
  regular_settle fun negative => h.signless (Decimal.eq_negative_zero_of_add negative).1

/-- No time takes the clock nowhere. -/
theorem advance_zero (h : Regular x) : Clock.advance x .zero = x := by
  have none : Duration.zero.seconds = 0.0 := by decide +kernel
  rw [Clock.advance, ahead, none, Decimal.add_zero_of_ne h.finite h.signless, settle, if_pos h.finite]

end Clock.Regular

namespace Session

variable {p : Pace} {s : Session} {f : Frame} {line : String} {host : Duration}

/-- Only negative zero itself, set from outside, takes a clock to negative zero. -/
theorem regular_perform (h : Clock.Regular s.clock) {o : Operation} (outside : ∀ x, o = .rebase x → x ≠ -0.0) :
    Clock.Regular (s.perform p o).clock := by
  cases o with
  | tick host =>
    rw [show (s.perform p (.tick host)).clock = (s.pass p host).clock from (SameTime.step p _).clock]
    exact h.advance _
  | step =>
    rw [show (s.perform p .step).clock = s.clock from (SameTime.step p s).clock]
    exact h
  | line text host =>
    rw [show (s.perform p (.line text host)).clock = (s.synchronize p text host).2.clock from
      (sameTime_hear p s text host).clock]
    rcases synchronize_cases p s text host with he | ⟨f, m, hf, hm, he⟩
    · rw [he]
      exact h
    · rw [he]
      have effective : m.effectiveTime = f.base + m.activity.cue.time.seconds := (Definition.findSync_eq_some hm).2.2.2
      refine Clock.regular_settle fun negative => ?_
      have time := (Decimal.eq_negative_zero_of_add negative).1
      rw [effective] at time
      exact m.activity.cue.time.seconds_ne_negative_zero (Decimal.eq_negative_zero_of_add time).2
  | rebase x => exact Clock.regular_settle (outside x rfl)

theorem regular_run (h : Clock.Regular s.clock) {ops : List Operation}
    (outside : ∀ x, .rebase x ∈ ops → x ≠ -0.0) : Clock.Regular (s.run p ops).clock := by
  induction ops generalizing s with
  | nil => exact h
  | cons o ops ih =>
    have first := regular_perform (p := p) h fun x (same : o = .rebase x) => outside x (by simp [same])
    exact ih first fun x later => outside x (List.mem_cons_of_mem o later)

structure Ignores (p : Pace) (s : Session) (line : String) : Prop where
  unfit : ∀ f ∈ s.cursor.frame, ∀ x ∈ s.definition.window f p.visible, x.2.canSync = true →
    (x.2.cue.sync.any fun q => q.isMatch line) = false
  silent : ∀ t ∈ s.definition.triggers, t.rule.isMatch line = false

/-- Where the cursor stands nothing is due, and what it waits at and what its window holds is shown as it is now. -/
structure Steady (p : Pace) (s : Session) : Prop where
  waits : ∀ f, s.cursor.frame = some f → ∃ a, f.activity? s.definition = some a ∧
    a.isDue s.clock f.base = false ∧ a.Presented s.clock f.base p.lookAhead
  shown : ∀ f, s.cursor.frame = some f → ∀ x ∈ s.definition.window f p.visible,
    x.2.Presented s.clock f.base p.lookAhead

theorem await_eq_self {a : Activity} (ha : f.activity? s.definition = some a)
    (shown : a.Presented s.clock f.base p.lookAhead) : s.await p f a = s := by
  have kept : (s.definition.modifyStatement f.scope f.index fun a => a.attend s.clock f.base p.lookAhead) =
      s.definition := by
    apply Definition.mapScope_eq_self
    intro i b hb
    split
    · rename_i here
      subst here
      cases hb.symm.trans ha
      exact shown.attend_eq_self
    · rfl
  rw [await, kept, shown.pendingNow_eq_nil]
  rfl

theorem refreshWindow_eq_self (hf : s.cursor.frame = some f)
    (shown : ∀ x ∈ s.definition.window f p.visible, x.2.Presented s.clock f.base p.lookAhead) :
    s.refreshWindow p = s := by
  have kept : (s.overWindow p f fun a => a.attend s.clock f.base p.lookAhead) = s.definition := by
    apply Definition.mapScope_eq_self
    intro i b hb
    split
    · rename_i near
      obtain ⟨⟨j, a⟩, mem, rfl⟩ := List.mem_map.mp (List.contains_iff_mem.mp near)
      cases hb.symm.trans (Definition.mem_window mem).1
      exact (shown _ mem).attend_eq_self
    · rfl
  have silent : s.dueIn p f = [] := List.flatMap_eq_nil_iff.mpr fun x hx => (shown x hx).pendingNow_eq_nil
  rw [refreshWindow_of_frame hf, kept, silent]
  rfl

theorem Steady.step_eq_self (h : s.Steady p) : s.step p = s := by
  obtain ⟨n, limit⟩ : ∃ n, p.maxSteps = n + 1 := ⟨p.maxSteps - 1, by have := p.maxSteps_pos; omega⟩
  rw [step, limit]
  cases hf : s.cursor.frame with
  | none =>
    rw [play_finished hf]
    simp only [refreshWindow, hf]
  | some f =>
    obtain ⟨a, ha, early, shown⟩ := h.waits f hf
    rw [play_await hf ha early, await_eq_self ha shown, refreshWindow_eq_self hf (h.shown f hf)]

/-- A step that executes fewer activities than it may leaves the session steady. -/
theorem steady_step (placed : s.Placed)
    (few : (s.step p).journal.executions < s.journal.executions + p.maxSteps) : (s.step p).Steady p := by
  obtain ⟨n, -, count, stopped⟩ := play_stops placed p p.maxSteps
  have total : (s.step p).journal.executions = s.journal.executions + n := (executions_refreshWindow p _).trans count
  have time : (s.step p).clock = (play p p.maxSteps s).clock := (SameTime.refreshWindow p _).clock
  have cursor : (s.step p).cursor = (play p p.maxSteps s).cursor := cursor_refreshWindow p _
  refine ⟨fun f hf => ?_, ?_⟩
  · rw [cursor] at hf
    rcases stopped with finished | ⟨u, g, a, hg, ha, early, last⟩ | exhausted
    · cases finished.symm.trans hf
    · -- The loop has shown the activity it waits at, and the window can only show it again.
      rw [last] at hf time
      cases hg.symm.trans hf
      obtain ⟨b, hb, same⟩ := activity?_refreshWindow (p := p) hf (activity?_await ha)
      rw [step, last, (SameTime.refreshWindow p _).clock, (SameTime.await p u f a).clock]
      refine ⟨b, hb, ?_⟩
      rcases same with rfl | rfl
      · exact ⟨(a.isDue_attend ..).trans early, a.presented_attend ..⟩
      · exact ⟨(Activity.isDue_attend ..).trans ((a.isDue_attend ..).trans early), Activity.presented_attend ..⟩
    · omega
  · rintro f hf ⟨i, a⟩ mem
    have near : i ∈ (s.step p).definition.nearTerm f p.visible := by
      rw [Definition.nearTerm, ← Definition.map_fst_window]
      exact List.mem_map_of_mem mem
    obtain ⟨b, hb, shown⟩ := presented_refreshWindow p _ hf near
    cases hb.symm.trans (Definition.mem_window mem).1
    rw [time]
    exact shown

/-- A step changes nothing exactly in a steady session. -/
theorem step_eq_self_iff (placed : s.Placed) : s.step p = s ↔ s.Steady p := by
  refine ⟨fun same => ?_, Steady.step_eq_self⟩
  have idle : (s.step p).journal.executions < s.journal.executions + p.maxSteps := by
    rw [same]
    exact Nat.lt_add_of_pos_right p.maxSteps_pos
  rw [← same]
  exact steady_step placed idle

namespace Steady

theorem hear_eq (h : s.Steady p) (ignores : s.Ignores p line) (host : Duration) :
    s.hear p line host = (⟨none, []⟩, s) := by
  have still : s.synchronize p line host = (none, s) := by
    refine (synchronize_cases p s line host).resolve_right ?_
    rintro ⟨f, m, hf, hm, -⟩
    obtain ⟨window, armed, fits, -⟩ := Definition.findSync_eq_some hm
    cases (ignores.unfit f hf _ window armed).symm.trans fits
  have quiet : s.fire line = ([], s) := by
    rw [fire, countFired, Definition.firedBy_eq_nil ignores.silent, Definition.countFired_eq_self ignores.silent]
    rfl
  simp only [hear, still, quiet, h.step_eq_self]

/-- A tick in which no host time has passed moves nothing but the reference of the next. -/
theorem tick_eq (h : s.Steady p) (regular : Clock.Regular s.clock) (past : host.nanos ≤ s.lastHost.nanos) :
    s.tick p host = { s with lastHost := host, journal := s.journal.record [.elapsed .zero] } := by
  have none : (host.since s.lastHost).atMost p.maxTickStep = .zero := by
    rw [Duration.since, Nat.sub_eq_zero_of_le past, Duration.atMost, Nat.zero_min]
    rfl
  have passed : s.pass p host = { s with lastHost := host, journal := s.journal.record [.elapsed .zero] } := by
    rw [pass, none, regular.advance_zero]
    rfl
  rw [tick, passed]
  exact step_eq_self ⟨h.waits, h.shown⟩

end Steady

/-- Wherever a run has come to, a step that executes fewer activities than it may leaves nothing for another step to do.
After it a line that fits no armed activity of the window and no trigger changes nothing, and a tick in which no host time
has passed takes the host time and changes nothing else, unless the clock was set to negative zero from outside. -/
theorem step_again (p : Pace) (s₀ : Session) (host₀ : Duration) (ops : List Operation)
    (few : (((s₀.start p host₀).run p ops).step p).journal.executions <
      ((s₀.start p host₀).run p ops).journal.executions + p.maxSteps) :
    let t := ((s₀.start p host₀).run p ops).step p
    t.step p = t ∧
    (∀ line host, t.Ignores p line → t.hear p line host = (⟨none, []⟩, t)) ∧
    ((∀ x, .rebase x ∈ ops → x ≠ -0.0) → ∀ host, host.nanos ≤ t.lastHost.nanos →
      t.tick p host = { t with lastHost := host, journal := t.journal.record [.elapsed .zero] }) := by
  intro t
  have reached : Scene.Reached p s₀.definition ⟨.rest, (s₀.start p host₀).run p ops⟩ :=
    (Scene.Reached.start s₀ host₀ rfl).run ops
  have steady : t.Steady p := steady_step reached.placed few
  refine ⟨steady.step_eq_self, fun line host ignores => steady.hear_eq ignores host, ?_⟩
  intro outside host past
  have started : Clock.Regular (s₀.start p host₀).clock := by
    rw [clock_start]
    exact Clock.regular_zero
  have regular : Clock.Regular t.clock := by
    rw [(SameTime.step p _).clock]
    exact regular_run started outside
  exact steady.tick_eq regular past

def soon : Session :=
  { definition :=
      { elements :=
          [.activity
              { id := 0
                cue :=
                  { time := ⟨5000000000⟩, notice := some "Soon", noticeOffset := some 3.0
                    sync := some (.ofSource "(?-i)Phase") } },
            .trigger { id := 1, rule := { sync := some (.ofSource "(?-i)Enrage") } }] } }

/-- The step gives the notice, and what comes after it gives none. -/
theorem step_again_soon :
    let s := (soon.start ({} : Settings).pace .zero).run ({} : Settings).pace [.rebase 2.5]
    let t := s.step ({} : Settings).pace
    s.journal.notices.length = 0 ∧ t.journal.notices.length = 1 ∧ t.step ({} : Settings).pace = t ∧
      t.hear ({} : Settings).pace "Wipe" .zero = (⟨none, []⟩, t) ∧
      t.tick ({} : Settings).pace .zero =
        { t with lastHost := .zero, journal := t.journal.record [.elapsed .zero] } := by
  intro s t
  have few : t.journal.executions < s.journal.executions + ({} : Settings).pace.maxSteps := by decide +kernel
  have ignores : t.Ignores ({} : Settings).pace "Wipe" := ⟨by decide +kernel, by decide +kernel⟩
  have outside (x : Float) (set : Operation.rebase x ∈ [.rebase 2.5]) : x ≠ -0.0 := by
    cases List.mem_singleton.mp set
    decide +kernel
  obtain ⟨again, deaf, idle⟩ := step_again ({} : Settings).pace soon .zero [.rebase 2.5] few
  have gave : s.journal.notices.length = 0 ∧ t.journal.notices.length = 1 := by decide +kernel
  exact ⟨gave.1, gave.2, again, deaf "Wipe" .zero ignores, idle outside .zero (by decide +kernel)⟩

end Session

end EncounterTimeline

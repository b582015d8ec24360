import EncounterTimeline.Proofs.Playback.Moves
import EncounterTimeline.Proofs.Playback.Settling
import EncounterTimeline.Proofs.Timeline.Face
import EncounterTimeline.Settings.Basic
import Mathlib.Data.List.Forall2

/-! # Starting over

What a session does is read off its face, where an activity that is not active shows neither remaining time nor progress.
A start leaves of a definition its script, so sessions of one script that start at one moment go on to show the same,
whatever was played before.
-/
namespace EncounterTimeline

namespace Session

def face (s : Session) : Session := { s with definition := s.definition.face }

variable {p : Pace} {s t : Session} {f : Frame} {a : Activity} {line : String} {host : Duration}

@[simp] theorem face_face (s : Session) : s.face.face = s.face := by
  simp [face]

theorem activity?_face : f.activity? s.face.definition = (f.activity? s.definition).map Activity.face :=
  Definition.statement?_face

theorem isDue_face (clock base : Float) (a : Activity) : a.face.isDue clock base = a.isDue clock base := by
  simp [Activity.isDue, Activity.grace]

theorem pending_face (s : Session) (a : Activity) : s.face.pending a.face = s.pending a := by
  simp [pending, Activity.pendingNotice, activityNotice, face, Definition.face]

theorem pendingNow_face (s : Session) (base : Float) (a : Activity) :
    s.face.pendingNow base a.face = s.pendingNow base a := by
  simp [pendingNow, pending_face]
  rfl

theorem face_overWindow {g : Activity → Activity} (h : ∀ a, (g a.face).face = (g a).face) (f : Frame) :
    (s.face.overWindow p f g).face = (s.overWindow p f g).face := by
  have places : (s.face.definition.window f p.visible).map Prod.fst = (s.definition.window f p.visible).map Prod.fst := by
    show (s.definition.face.window f p.visible).map Prod.fst = _
    rw [Definition.window_face, List.map_map]
    rfl
  simp only [overWindow, places]
  apply Definition.face_mapScope
  intro i a _
  split
  · exact h a
  · exact a.face_face

theorem face_showWindow (p : Pace) (s : Session) : (s.face.showWindow p).face = (s.showWindow p).face := by
  cases hf : s.cursor.frame with
  | none =>
    have hf' : s.face.cursor.frame = none := hf
    simp only [showWindow, hf, hf', face_face]
  | some f =>
    have hf' : s.face.cursor.frame = some f := hf
    have shown := face_overWindow (p := p) (s := s) (g := fun a => a.display s.clock f.base p.lookAhead)
      (Activity.face_display _ _ _) f
    simp only [showWindow, hf, hf']
    exact congrArg (fun d => ({ s with definition := d } : Session)) shown

theorem dueIn_face (p : Pace) (s : Session) (f : Frame) : s.face.dueIn p f = s.dueIn p f := by
  show (s.definition.face.window f p.visible).flatMap _ = _
  simp only [Definition.window_face, List.flatMap_map, pendingNow_face]
  rfl

theorem face_refreshWindow (p : Pace) (s : Session) :
    (s.face.refreshWindow p).face = (s.refreshWindow p).face := by
  cases hf : s.cursor.frame with
  | none =>
    have hf' : s.face.cursor.frame = none := hf
    simp only [refreshWindow, hf, hf', face_face]
  | some f =>
    have shown := face_overWindow (p := p) (s := s) (g := fun a => a.attend s.clock f.base p.lookAhead)
      (Activity.face_attend _ _ _) f
    rw [refreshWindow_of_frame hf, refreshWindow_of_frame (s := s.face) hf, dueIn_face]
    exact congrArg (fun d => Session.record { s with definition := d } _) shown

theorem face_follow (s : Session) (owner : ElementId) (jump : Option Jump) (resume : Nat) :
    (s.face.follow owner jump resume).face = (s.follow owner jump resume).face := by
  have script : s.face.definition.script = s.definition.script := Definition.script_face _
  have passBy : s.face.cursor.passBy s.face.definition resume = s.cursor.passBy s.definition resume :=
    Cursor.passBy_congr script _ resume
  cases jump with
  | none =>
    rw [follow_none, follow_none, passBy]
    exact congrArg (fun d => ({ s with cursor := _, definition := d } : Session)) (Definition.face_face _)
  | some j =>
    have resolve : s.face.definition.resolve s.face.cursor.scope j = s.definition.resolve s.cursor.scope j :=
      Definition.resolve_face j
    cases h : s.definition.resolve s.cursor.scope j with
    | none =>
      rw [follow_unresolved h, follow_unresolved (resolve.trans h), passBy]
      exact congrArg (fun d => Session.record { s with cursor := _, definition := d } _) (Definition.face_face _)
    | some dest =>
      rw [follow_resolved h, follow_resolved (resolve.trans h)]
      dsimp only
      rw [show Cursor.entry s.face.definition s.face.clock dest = Cursor.entry s.definition s.clock dest from
        Cursor.entry_congr script s.clock dest]
      generalize Cursor.entry s.definition s.clock dest = entered
      have enter : s.face.cursor.enter s.face.definition j entered resume =
          s.cursor.enter s.definition j entered resume :=
        Cursor.enter_congr script s.cursor j entered resume
      have ids : s.face.definition.idsFrom entered.scope entered.index =
          s.definition.idsFrom entered.scope entered.index := Definition.idsFrom_face
      rw [enter, ids]
      exact congrArg (fun d => Session.record { s with cursor := _, definition := d } _) Definition.face_rearmFrom

theorem face_strike (p : Pace) (s : Session) (f : Frame) (a : Activity) :
    (s.face.strike p f a.face).face = (s.strike p f a).face := by
  have struck := Definition.face_modifyStatement (d := s.definition) (s := f.scope) (i := f.index)
    (g := fun a => a.execute s.clock f.base p.lookAhead) (Activity.face_execute _ _ _)
  simp only [strike, pending_face, Activity.id_face]
  exact congrArg (fun d => Session.record { s with definition := d } _) struck

theorem face_await (p : Pace) (s : Session) (f : Frame) (a : Activity) :
    (s.face.await p f a.face).face = (s.await p f a).face := by
  have attended := Definition.face_modifyStatement (d := s.definition) (s := f.scope) (i := f.index)
    (g := fun a => a.attend s.clock f.base p.lookAhead) (Activity.face_attend _ _ _)
  simp only [await, pendingNow_face]
  exact congrArg (fun d => Session.record { s with definition := d } _) attended

theorem face_play (p : Pace) (n : Nat) (s : Session) : (play p n s.face).face = (play p n s).face := by
  induction n generalizing s with
  | zero => exact s.face_face
  | succ n ih =>
    cases hf : s.cursor.frame with
    | none =>
      rw [play_finished hf, play_finished (s := s.face) hf]
      exact s.face_face
    | some f =>
      cases ha : f.activity? s.definition with
      | none =>
        have ha' : f.activity? s.face.definition = none := by rw [activity?_face, ha]; rfl
        have advance : s.face.cursor.advance s.face.definition = s.cursor.advance s.definition :=
          Cursor.advance_congr (Definition.script_face _) s.cursor
        rw [play_passOver hf ha, play_passOver (s := s.face) hf ha', advance]
        exact ih { s with cursor := s.cursor.advance s.definition }
      | some a =>
        have ha' : f.activity? s.face.definition = some a.face := by rw [activity?_face, ha]; rfl
        have due' : a.face.isDue s.face.clock f.base = a.isDue s.clock f.base := isDue_face s.clock f.base a
        cases due : a.isDue s.clock f.base with
        | true =>
          rw [play_execute hf ha due, play_execute (s := s.face) hf ha' (due'.trans due), Activity.id_face,
            Activity.cue_face, ← ih]
          have left : ((s.face.strike p f a.face).follow a.id a.cue.jump 1).face =
              ((s.strike p f a).follow a.id a.cue.jump 1).face := by
            rw [← face_follow, face_strike, face_follow]
          rw [left, ih]
        | false =>
          rw [play_await hf ha due, play_await (s := s.face) hf ha' (due'.trans due)]
          exact face_await p s f a

theorem face_step (p : Pace) (s : Session) : (s.face.step p).face = (s.step p).face := by
  rw [step, ← face_refreshWindow, face_play, face_refreshWindow, step]

theorem face_tick (p : Pace) (s : Session) (host : Duration) : (s.face.tick p host).face = (s.tick p host).face :=
  face_step p (s.pass p host)

theorem face_countFired (s : Session) (line : String) :
    (s.face.countFired line).face = (s.countFired line).face := by
  have fired : s.face.definition.firedBy line = s.definition.firedBy line := Definition.firedBy_face line
  simp only [countFired, fired]
  exact congrArg (fun d => Session.record { s with definition := d } _) (Definition.face_countFired line)

theorem face_followAll (s : Session) (fired : List Trigger) :
    (s.face.followAll fired).face = (s.followAll fired).face := by
  induction fired generalizing s with
  | nil => exact s.face_face
  | cons t fired ih =>
    show ((s.face.follow t.id t.rule.jump 0).followAll fired).face = ((s.follow t.id t.rule.jump 0).followAll fired).face
    rw [← ih, face_follow, ih]

theorem face_fire (s : Session) (line : String) :
    (s.face.fire line).1 = (s.fire line).1 ∧ (s.face.fire line).2.face = (s.fire line).2.face := by
  have fired : s.face.definition.firedBy line = s.definition.firedBy line := Definition.firedBy_face line
  constructor
  · simp only [fire, fired]
  · simp only [fire, fired]
    rw [← face_followAll, face_countFired, face_followAll]

def Shown (p : Pace) (s : Session) : Prop :=
  ∀ f, s.cursor.frame = some f → ∀ x ∈ s.definition.window f p.visible, x.2.latches.active = true

theorem syncTo_face (f : Frame) (m : SyncMatch) (host : Duration) : s.syncTo f m.face host = s.syncTo f m host := by
  simp only [syncTo, SyncMatch.face, Activity.cue_face, Activity.id_face]
  rfl

/-- An activity that a line synchronises shows already, so its remaining time is up to date. -/
theorem Shown.face_synchronize (h : s.Shown p) (line : String) (host : Duration) :
    (s.face.synchronize p line host).1 = (s.synchronize p line host).1 ∧
      (s.face.synchronize p line host).2.face = (s.synchronize p line host).2.face := by
  cases hf : s.cursor.frame with
  | none =>
    have hf' : s.face.cursor.frame = none := hf
    simp [synchronize, hf, hf']
  | some f =>
    have hf' : s.face.cursor.frame = some f := hf
    have found : s.face.definition.findSync f p.visible line =
        (s.definition.findSync f p.visible line).map SyncMatch.face := Definition.findSync_face line
    cases hm : s.definition.findSync f p.visible line with
    | none => simp [synchronize, hf, hf', found, hm]
    | some m =>
      obtain ⟨mem, -, -, -⟩ := Definition.findSync_eq_some hm
      obtain ⟨at_m, -, -⟩ := Definition.mem_window mem
      have active : m.activity.latches.active = true := h f hf _ mem
      have moved := Definition.face_mapScope (d := s.definition) (s := f.scope) (g := fun i a =>
        if i = m.index then a.latchSync else if f.index ≤ i && i < m.index then a.skip else a) (by
          intro i a ha
          split
          · rename_i here
            subst here
            cases at_m.symm.trans ha
            exact Activity.face_latchSync active
          · split
            · exact a.face_skip
            · exact a.face_face)
      simp only [synchronize, hf, hf', found, hm, Option.map_some]
      refine ⟨congrArg some m.activity.id_face, ?_⟩
      rw [syncTo_face]
      exact congrArg (fun d => ({ s.syncTo f m host with definition := d } : Session)) moved

theorem Shown.face_hear (h : s.Shown p) (line : String) (host : Duration) :
    (s.face.hear p line host).1 = (s.hear p line host).1 ∧
      (s.face.hear p line host).2.face = (s.hear p line host).2.face := by
  obtain ⟨synced, moved⟩ := h.face_synchronize line host
  have fired := (face_fire (s.face.synchronize p line host).2 line).1
  have jumped := (face_fire (s.face.synchronize p line host).2 line).2
  rw [moved] at fired jumped
  obtain ⟨fired', jumped'⟩ := face_fire (s.synchronize p line host).2 line
  refine ⟨congrArg₂ LineOutcome.mk synced (fired.symm.trans fired'), ?_⟩
  have heard (s : Session) : (s.hear p line host).2 = ((s.synchronize p line host).2.fire line).2.step p := rfl
  rw [heard, heard, ← face_step, ← jumped, jumped', face_step]

/-- Changes that make active what they change show the window. -/
theorem window_overWindow {g : Activity → Activity} (f : Frame) (done : ∀ a, (g a).latches.done = a.latches.done)
    (active : ∀ a, (g a).latches.active = true) :
    ∀ x ∈ (s.overWindow p f g).window f p.visible, x.2.latches.active = true := by
  intro x hx
  obtain ⟨a, shown⟩ := exists_of_window_overWindow done hx
  rw [shown]
  exact active a

theorem shown_showWindow (p : Pace) (s : Session) : (s.showWindow p).Shown p := by
  unfold showWindow
  split
  · rename_i finished
    intro f hf
    cases finished.symm.trans hf
  · rename_i f here
    intro g hg
    cases here.symm.trans hg
    exact window_overWindow f (fun _ => rfl) fun _ => rfl

theorem shown_refreshWindow (p : Pace) (s : Session) : (s.refreshWindow p).Shown p := by
  unfold refreshWindow
  split
  · rename_i finished
    intro f hf
    cases finished.symm.trans hf
  · rename_i f here
    intro g hg
    cases here.symm.trans hg
    exact window_overWindow f (fun a => a.done_attend ..) fun a => a.active_attend ..

def answer (p : Pace) (s : Session) : Operation → Option LineOutcome
  | .line text host => some (s.hear p text host).1
  | _ => none

theorem Shown.perform (h : s.Shown p) (o : Operation) : (s.perform p o).Shown p := by
  cases o with
  | tick host => exact shown_refreshWindow p _
  | step => exact shown_refreshWindow p _
  | line text host => exact shown_refreshWindow p _
  | rebase clock => exact h

theorem Shown.face_perform (h : s.Shown p) (o : Operation) :
    s.face.answer p o = s.answer p o ∧ (s.face.perform p o).face = (s.perform p o).face := by
  cases o with
  | tick host => exact ⟨rfl, face_tick p s host⟩
  | step => exact ⟨rfl, face_step p s⟩
  | line text host =>
    obtain ⟨outcome, shows⟩ := h.face_hear text host
    exact ⟨congrArg some outcome, shows⟩
  | rebase clock => exact ⟨rfl, congrArg (fun s => s.rebase clock) s.face_face⟩

theorem face_run (hs : s.Shown p) (ht : t.Shown p) (same : s.face = t.face) (ops : List Operation) :
    (s.run p ops).Shown p ∧ (t.run p ops).Shown p ∧ (s.run p ops).face = (t.run p ops).face := by
  induction ops generalizing s t with
  | nil => exact ⟨hs, ht, same⟩
  | cons o ops ih =>
    apply ih (hs.perform o) (ht.perform o)
    rw [← (hs.face_perform o).2, same, (ht.face_perform o).2]

/-- A start leaves of a definition what is written in it. -/
theorem face_start (script : s.definition.script = t.definition.script) (p : Pace) (host : Duration) :
    (s.start p host).face = (t.start p host).face := by
  have prepared : s.definition.prepare.face = t.definition.prepare.face := by
    rw [Definition.face_prepare, Definition.face_prepare, script]
  have reset : Cursor.reset s.definition.prepare = Cursor.reset t.definition.prepare := by
    apply Cursor.ofFrames_congr
    rw [Definition.script_prepare, Definition.script_prepare, script]
  unfold start
  rw [← face_showWindow, ← face_showWindow p (Session.mk t.definition.prepare _ _ _ _), reset]
  exact congrArg (fun d => (Session.showWindow { definition := d, clock := 0.0, cursor := _, lastHost := host } p).face)
    prepared

/-- Whatever two sessions of one script have played, once they are started at one moment every operation answers alike,
and after it clock, cursor, notices, counters and activities are alike. -/
theorem restart_forgets (script : s.definition.script = t.definition.script) (p : Pace) (host : Duration)
    (ops : List Operation) :
    let s' := (s.start p host).run p ops
    let t' := (t.start p host).run p ops
    s'.clock = t'.clock ∧ s'.cursor = t'.cursor ∧ s'.lastHost = t'.lastHost ∧
      s'.journal.notices = t'.journal.notices ∧
      s'.definition.triggers = t'.definition.triggers ∧
      List.Forall₂ Activity.Alike s'.definition.activities t'.definition.activities ∧
      ∀ o, s'.answer p o = t'.answer p o := by
  intro s' t'
  have started (s : Session) : (s.start p host).Shown p := shown_showWindow p _
  obtain ⟨hs, ht, same⟩ := face_run (started s) (started t) (face_start script p host) ops
  have definition : s'.definition.face = t'.definition.face := congrArg Session.definition same
  have clock : s'.face.clock = t'.face.clock := congrArg Session.clock same
  have cursor : s'.face.cursor = t'.face.cursor := congrArg Session.cursor same
  have lastHost : s'.face.lastHost = t'.face.lastHost := congrArg Session.lastHost same
  have journal : s'.face.journal = t'.face.journal := congrArg Session.journal same
  refine ⟨clock, cursor, lastHost, congrArg Journal.notices journal, ?_, ?_, ?_⟩
  · rw [← Definition.triggers_face, definition, Definition.triggers_face]
  · have faces := congrArg Definition.activities definition
    rw [Definition.activities_face, Definition.activities_face] at faces
    have pairs : List.Forall₂ (fun a b => a.face = b.face) s'.definition.activities t'.definition.activities := by
      rw [← List.forall₂_map_right_iff, ← List.forall₂_map_left_iff, List.forall₂_eq_eq_eq]
      exact faces
    exact pairs.imp fun _ _ => Activity.alike_of_face
  · intro o
    calc s'.answer p o = s'.face.answer p o := (hs.face_perform o).1.symm
      _ = t'.face.answer p o := congrArg (fun s => s.answer p o) same
      _ = t'.answer p o := (ht.face_perform o).1

def spent : Session :=
  { definition :=
      { elements :=
          [.activity
            { id := 0, cue := { notice := some "Pull" }, seq := 1, progress := 1.0
              latches := { done := true, notified := true } }] }
    clock := 60.0
    cursor := ⟨none, []⟩
    lastHost := ⟨60000000000⟩ }

theorem restart_forgets_spent :
    let fresh : Session := { definition := spent.definition.script }
    let notices (s : Session) := ((s.start ({} : Settings).pace .zero).run ({} : Settings).pace [.step]).journal.notices
    spent.definition.script = fresh.definition.script ∧ notices spent = notices fresh ∧ notices spent ≠ [] := by
  intro fresh notices
  have script : spent.definition.script = fresh.definition.script := rfl
  obtain ⟨-, -, -, same, -⟩ := restart_forgets script ({} : Settings).pace .zero [.step]
  have told : (notices spent).isEmpty = false := by decide +kernel
  exact ⟨script, same, fun silent => by simp [silent] at told⟩

end Session

end EncounterTimeline

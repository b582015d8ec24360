import EncounterTimeline.Proofs.Playback.Run
import EncounterTimeline.Proofs.Playback.Window

/-! # What the moves of a run do

Each operation of a session in the form that later proofs use, and what all of them leave alone: the script of
the definition.
-/
namespace EncounterTimeline

namespace Activity

variable (a : Activity) (clock base window : Float)

theorem done_attend : (a.attend clock base window).latches.done = a.latches.done := by
  unfold attend
  split <;> rfl

theorem active_attend : (a.attend clock base window).latches.active = true := by
  unfold attend
  split <;> rfl

end Activity

namespace Definition

variable {d : Definition} {s : Scope} {i k : Nat} {id : ElementId}

theorem statement?_countFired (line : String) : (d.countFired line).statement? s i = d.statement? s i := by
  have places : (d.countFired line).places s = d.places s := by
    cases s with
    | root =>
      simp only [places, countFired, List.map_map]
      apply List.map_congr_left
      intro e _
      cases e <;> rfl
    | subroutine k =>
      have at_k : (d.countFired line).subroutineAt? k = d.subroutineAt? k := by
        simp only [subroutineAt?, countFired, List.getElem?_map]
        cases d.elements[k]? with
        | none => rfl
        | some e => cases e <;> rfl
      simp only [places, at_k]
  simp only [statement?, places]

/-- The identities of a scope from a place on are those of its activities there. -/
theorem mem_idsFrom : id ∈ d.idsFrom s k ↔ ∃ i a, k ≤ i ∧ d.statement? s i = some a ∧ a.id = id := by
  rw [idsFrom, List.mem_filterMap]
  constructor
  · rintro ⟨q, hq, hid⟩
    obtain ⟨a, rfl, rfl⟩ := Option.map_eq_some_iff.mp hid
    obtain ⟨n, hn⟩ := List.mem_iff_getElem?.mp hq
    rw [List.getElem?_drop] at hn
    exact ⟨k + n, a, Nat.le_add_right .., statement?_eq_some_iff.mpr hn, rfl⟩
  · rintro ⟨i, a, le, ha, rfl⟩
    obtain ⟨n, rfl⟩ := Nat.exists_eq_add_of_le le
    refine ⟨some a, List.mem_iff_getElem?.mpr ⟨n, ?_⟩, rfl⟩
    rw [List.getElem?_drop]
    exact statement?_eq_some_iff.mp ha

/-- A landing clears the latches of the activities whose identities it names, and of no others. -/
theorem statement?_rearmFrom_cases (unique : d.ids.Nodup) {t : Scope} {b : Activity}
    (hb : (d.rearmFrom s k).statement? t i = some b) :
    (∃ a, d.statement? t i = some a ∧ b = a.rearm ∧ b.id ∈ d.idsFrom s k) ∨
      (d.statement? t i = some b ∧ b.id ∉ d.idsFrom s k) := by
  rw [statement?_rearmFrom] at hb
  by_cases ahead : t = s ∧ k ≤ i
  · rw [if_pos ahead] at hb
    obtain ⟨a, ha, rfl⟩ := Option.map_eq_some_iff.mp hb
    obtain ⟨rfl, le⟩ := ahead
    exact .inl ⟨a, ha, rfl, mem_idsFrom.mpr ⟨i, a, le, ha, rfl⟩⟩
  · rw [if_neg ahead] at hb
    refine .inr ⟨hb, ?_⟩
    intro named
    obtain ⟨n, a, le, ha, id⟩ := mem_idsFrom.mp named
    obtain ⟨rfl, rfl⟩ := address_eq_of_id_eq unique hb ha id.symm
    exact ahead ⟨rfl, le⟩

end Definition

namespace Session

variable {p : Pace} {s : Session} {f : Frame} {a : Activity} {line : String} {host : Duration}
variable {owner : ElementId} {j : Jump} {resume : Nat} (es : List Happening)

@[simp] theorem record_definition : (s.record es).definition = s.definition := rfl
@[simp] theorem record_clock : (s.record es).clock = s.clock := rfl
@[simp] theorem record_cursor : (s.record es).cursor = s.cursor := rfl
@[simp] theorem record_lastHost : (s.record es).lastHost = s.lastHost := rfl
@[simp] theorem record_journal : (s.record es).journal = s.journal.record es := rfl

/-- A line synchronises nothing, or an activity of the window. -/
theorem synchronize_cases (p : Pace) (s : Session) (line : String) (host : Duration) :
    s.synchronize p line host = (none, s) ∨
    ∃ f m, s.cursor.frame = some f ∧ s.definition.findSync f p.visible line = some m ∧
      s.synchronize p line host = (some m.activity.id, s.syncTo f m host) := by
  cases hf : s.cursor.frame with
  | none => exact .inl (by simp only [synchronize, hf])
  | some f =>
    cases hm : s.definition.findSync f p.visible line with
    | none => exact .inl (by simp only [synchronize, hf, hm])
    | some m => exact .inr ⟨f, m, rfl, hm, by simp only [synchronize, hf, hm]⟩

theorem frame_syncTo (hf : s.cursor.frame = some f) (m : SyncMatch) (host : Duration) :
    (s.syncTo f m host).cursor.frame = some { f with index := m.index } := by
  simp only [syncTo, record_cursor, Cursor.moveTo, hf, Option.map_some]

/-- Without a jump the session goes on behind the place it is at. -/
theorem follow_none : s.follow owner none resume =
    { s with cursor := s.cursor.passBy s.definition resume } := rfl

theorem follow_unresolved (h : s.definition.resolve s.cursor.scope j = none) :
    s.follow owner (some j) resume =
      Session.record { s with cursor := s.cursor.passBy s.definition resume } [.unresolved ⟨owner, j⟩] := by
  simp only [follow, Cursor.follow, h, transferEntry]

/-- A jump that resolves enters a frame and clears the latches from there on. -/
theorem follow_resolved {dest : Destination} (h : s.definition.resolve s.cursor.scope j = some dest) :
    s.follow owner (some j) resume =
      let entered := Cursor.entry s.definition s.clock dest
      Session.record
        { s with
          cursor := s.cursor.enter s.definition j entered resume
          definition := s.definition.rearmFrom entered.scope entered.index }
        [.rearmed (s.definition.idsFrom entered.scope entered.index)] := by
  simp only [follow, Cursor.follow, h]
  cases j.isCall <;> rfl

theorem cursor_showWindow (p : Pace) (s : Session) : (s.showWindow p).cursor = s.cursor := by
  rw [showWindow]
  split <;> rfl

theorem clock_showWindow (p : Pace) (s : Session) : (s.showWindow p).clock = s.clock := by
  rw [showWindow]
  split <;> rfl

theorem cursor_start (p : Pace) (s : Session) (host : Duration) :
    (s.start p host).cursor = Cursor.reset s.definition.prepare :=
  cursor_showWindow p _

theorem clock_start (p : Pace) (s : Session) (host : Duration) : (s.start p host).clock = 0.0 :=
  clock_showWindow p _

theorem cursor_refreshWindow (p : Pace) (s : Session) : (s.refreshWindow p).cursor = s.cursor := by
  rw [refreshWindow]
  split <;> rfl

def dueIn (p : Pace) (s : Session) (f : Frame) : List Happening :=
  (s.definition.window f p.visible).flatMap fun x => s.pendingNow f.base x.2

theorem refreshWindow_of_frame (hf : s.cursor.frame = some f) : s.refreshWindow p =
    Session.record { s with definition := s.overWindow p f fun a => a.attend s.clock f.base p.lookAhead }
      (s.dueIn p f) := by
  simp only [refreshWindow, hf]
  rfl

/-- What the window holds after its activities have been changed is the outcome of such a change. -/
theorem exists_of_window_overWindow {g : Activity → Activity} (done : ∀ a, (g a).latches.done = a.latches.done)
    {x : Nat × Activity} (h : x ∈ (s.overWindow p f g).window f p.visible) : ∃ a, x.2 = g a := by
  have keeps (i : Nat) (a : Activity) :
      (if ((s.definition.window f p.visible).map Prod.fst).contains i then g a else a).latches.done =
        a.latches.done := by
    split
    · exact done a
    · rfl
  rw [overWindow, Definition.window_mapScope keeps] at h
  obtain ⟨⟨i, a⟩, mem, rfl⟩ := List.mem_map.mp h
  have listed : ((s.definition.window f p.visible).map Prod.fst).contains i = true :=
    List.contains_iff_mem.mpr (List.mem_map_of_mem mem)
  simp only [listed, if_true]
  exact ⟨a, rfl⟩

theorem script_syncTo (f : Frame) (m : SyncMatch) (host : Duration) :
    (s.syncTo f m host).definition.script = s.definition.script := by
  apply Definition.script_mapScope
  intro i a
  split
  · rfl
  · split <;> rfl

theorem script_synchronize (p : Pace) (s : Session) (line : String) (host : Duration) :
    (s.synchronize p line host).2.definition.script = s.definition.script := by
  rcases synchronize_cases p s line host with h | ⟨f, m, -, -, h⟩
  · rw [h]
  · rw [h]
    exact script_syncTo f m host

theorem script_follow (s : Session) (owner : ElementId) (jump : Option Jump) (resume : Nat) :
    (s.follow owner jump resume).definition.script = s.definition.script := by
  cases jump with
  | none => rfl
  | some j =>
    cases h : s.definition.resolve s.cursor.scope j with
    | none => rw [follow_unresolved h, record_definition]
    | some dest =>
      rw [follow_resolved h]
      exact Definition.script_rearmFrom

theorem script_strike (p : Pace) (s : Session) (f : Frame) (a : Activity) :
    (s.strike p f a).definition.script = s.definition.script :=
  Definition.script_modifyStatement fun a => a.script_execute ..

theorem script_await (p : Pace) (s : Session) (f : Frame) (a : Activity) :
    (s.await p f a).definition.script = s.definition.script :=
  Definition.script_modifyStatement fun a => a.script_attend ..

theorem script_overWindow (f : Frame) {g : Activity → Activity} (h : ∀ a, (g a).script = a.script) :
    (s.overWindow p f g).script = s.definition.script := by
  apply Definition.script_mapScope
  intro i a
  split
  · exact h a
  · rfl

theorem script_showWindow (p : Pace) (s : Session) :
    (s.showWindow p).definition.script = s.definition.script := by
  cases hf : s.cursor.frame with
  | none => simp only [showWindow, hf]
  | some f =>
    simp only [showWindow, hf]
    exact script_overWindow f fun a => a.script_display ..

theorem script_refreshWindow (p : Pace) (s : Session) :
    (s.refreshWindow p).definition.script = s.definition.script := by
  cases hf : s.cursor.frame with
  | none => simp only [refreshWindow, hf]
  | some f =>
    simp only [refreshWindow, hf, record_definition]
    exact script_overWindow f fun a => a.script_attend ..

theorem script_start (p : Pace) (s : Session) (host : Duration) :
    (s.start p host).definition.script = s.definition.script :=
  (script_showWindow p _).trans Definition.script_prepare

theorem script_followAll (s : Session) (fired : List Trigger) :
    (s.followAll fired).definition.script = s.definition.script := by
  induction fired generalizing s with
  | nil => rfl
  | cons t fired ih => exact (ih _).trans (script_follow s t.id t.rule.jump 0)

theorem script_play (p : Pace) (n : Nat) (s : Session) :
    (play p n s).definition.script = s.definition.script := by
  refine play_keeps (motive := fun t => t.definition.script = s.definition.script) ?_ ?_ ?_ n rfl
  · exact fun _ same => same
  · intro t f a same
    exact (script_follow (t.strike p f a) a.id a.cue.jump 1).trans ((script_strike p t f a).trans same)
  · intro t f a same
    exact (script_await p t f a).trans same

theorem script_step (p : Pace) (s : Session) : (s.step p).definition.script = s.definition.script :=
  (script_refreshWindow p _).trans (script_play p p.maxSteps s)

theorem script_tick (p : Pace) (s : Session) (host : Duration) :
    (s.tick p host).definition.script = s.definition.script :=
  script_step p _

theorem script_hear (p : Pace) (s : Session) (line : String) (host : Duration) :
    (s.hear p line host).2.definition.script = s.definition.script := by
  have synchronised := script_synchronize p s line host
  have counted : ((s.synchronize p line host).2.countFired line).definition.script = _ :=
    Definition.script_countFired line
  have fired := script_followAll ((s.synchronize p line host).2.countFired line)
    ((s.synchronize p line host).2.definition.firedBy line)
  exact (script_step p _).trans (fired.trans (counted.trans synchronised))

end Session

namespace Scene

open Session

variable {p : Pace} {d : Definition} {x y : Scene}

theorem Next.script (move : Next p x y) : y.session.definition.script = x.session.definition.script := by
  cases move with
  | tick | step | rebase | begin | finish | passOver | exhaust => rfl
  | hear s line host => exact script_synchronize p s line host
  | fire s line => exact Definition.script_countFired line
  | jump s t => exact script_follow s t.id t.rule.jump 0
  | execute s n f a => exact script_strike p s f a
  | leave s n a => exact script_follow s a.id a.cue.jump 1
  | await s n f a => exact script_await p s f a
  | «show» s => exact script_refreshWindow p s

theorem Reached.script (h : Reached p d x) : x.session.definition.script = d.script := by
  induction h with
  | start s host h => rw [script_start, h]
  | next _ move ih => exact move.script.trans ih

/-- Identities stay distinct throughout a run. -/
theorem Reached.ids_nodup (h : Reached p d x) (unique : d.ids.Nodup) : x.session.definition.ids.Nodup := by
  rw [← Definition.ids_script, h.script, Definition.ids_script]
  exact unique

end Scene

end EncounterTimeline

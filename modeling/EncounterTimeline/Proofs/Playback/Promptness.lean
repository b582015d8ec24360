import EncounterTimeline.Proofs.Playback.Positions
import EncounterTimeline.Proofs.Playback.Rebasing

/-! # What a line synchronises is due at once

A line moves the clock to where the activity is due, so without offsets the step after it executes the activity first. The
sums that set the clock and those that tell what is due are the same, and adding nothing to them loses nothing.
-/
namespace EncounterTimeline

open Decimal

theorem Decimal.valueOf_add_zero {x : Float} (h : x.isFinite = true) :
    (x + 0.0).isFinite = true ∧ valueOf (x + 0.0) = valueOf x := by
  have sum := add_closest h isFinite_zero
  rw [valueOf_zero, add_zero] at sum
  exact ⟨sum.isFinite (abs_valueOf_lt_limit h), sum.valueOf_eq h rfl⟩

/-- With the clock at its effective time a cue is not ahead. -/
theorem Cue.not_before_gt {c : Cue} {base : Float} (finite : (c.effectiveTime base).isFinite = true) :
    ¬ c.before (Clock.settle (c.effectiveTime base + 0.0)) base > -0.0 := by
  obtain ⟨finite', same⟩ := valueOf_add_zero finite
  have level : valueOf (c.effectiveTime base) - valueOf (c.effectiveTime base + 0.0) = 0 := by rw [same, sub_self]
  rw [Clock.settle, if_pos finite', Cue.before, sub_gt_negative_zero_iff finite finite', same]
  · exact lt_irrefl _
  · rw [level]
    exact abs_lt_limit (by norm_num)

namespace Activity

theorem grace_eq_zero {a : Activity} (h : ∀ offset, a.cue.syncEnd = some offset → ¬ offset > 0.0) : a.grace = 0.0 := by
  rw [grace]
  cases hs : a.cue.syncEnd with
  | none => simp
  | some offset => simp [h offset hs]

theorem isDue_latchSync {a : Activity} {base : Float} (finite : (a.cue.effectiveTime base).isFinite = true)
    (immediate : ∀ offset, a.cue.syncEnd = some offset → ¬ offset > 0.0) :
    a.latchSync.isDue (Clock.settle (a.cue.effectiveTime base + 0.0)) base = true := by
  have grace : a.latchSync.grace = 0.0 := grace_eq_zero immediate
  have ahead : ¬ a.latchSync.cue.before (Clock.settle (a.cue.effectiveTime base + 0.0)) base > -0.0 :=
    Cue.not_before_gt finite
  rw [isDue, grace, decide_eq_false ahead, Bool.not_false]

end Activity

namespace Session

variable {p : Pace} {s u : Session} {f : Frame} {a : Activity} {m : SyncMatch} {line : String}

theorem followAll_of_none {fired : List Trigger} (h : ∀ t ∈ fired, t.rule.jump = none) : s.followAll fired = s := by
  induction fired generalizing s with
  | nil => rfl
  | cons t fired ih =>
    obtain ⟨first, later⟩ := List.forall_mem_cons.mp h
    show (s.follow t.id t.rule.jump 0).followAll fired = s
    rw [first, follow_none]
    exact ih later

/-- The session with the activity at a frame executed and its jump not yet followed. -/
structure Struck (u : Session) (f : Frame) (a : Activity) (v : Session) : Prop where
  executed : v.journal.head? = some (.executed a.id)
  notices : v.journal.notices = u.journal.notices ++
    (if a.latches.notified then [] else (a.cue.notice.filter (!·.isEmpty)).toList).map fun text =>
      ⟨a.id, u.definition.name, .activity, text, a.cue.noticeDevice.getD .both, u.clock⟩
  latched : ∃ b, v.definition.statement? f.scope f.index = some b ∧ b.script = a.script ∧
    b.latches = { a.latches with done := true, active := false, notified := true }
  unchanged : ∀ c i, c ≠ f.scope ∨ i ≠ f.index → v.definition.statement? c i = u.definition.statement? c i
  clock : v.clock = u.clock
  cursor : v.cursor = u.cursor

theorem notices_pending (u : Session) (a : Activity) : (Journal.record [] (u.pending a)).notices =
    (if a.latches.notified then [] else (a.cue.notice.filter (!·.isEmpty)).toList).map fun text =>
      ⟨a.id, u.definition.name, .activity, text, a.cue.noticeDevice.getD .both, u.clock⟩ := by
  rw [pending, Activity.pendingNotice, Cue.noticeText]
  cases a.latches.notified with
  | true => rfl
  | false => cases a.cue.notice.filter (!·.isEmpty) <;> rfl

theorem struck_strike (ha : f.activity? u.definition = some a) (p : Pace) : u.Struck f a (u.strike p f a) := by
  have there : u.definition.statement? f.scope f.index = some a := ha
  refine
    { executed := ?_
      notices := ?_
      latched := ?_
      unchanged := fun c i apart => ?_
      clock := rfl
      cursor := rfl }
  · rw [strike, record_journal, Journal.record_append]
    rfl
  · rw [strike, record_journal, Journal.record_append, Journal.notices_record, Journal.notices_record, notices_pending]
    exact List.append_nil _
  · refine ⟨a.execute u.clock f.base p.lookAhead, ?_, rfl, rfl⟩
    exact (Definition.statement?_modifyStatement _).trans (by rw [if_pos ⟨rfl, rfl⟩, there, Option.map_some])
  · exact (Definition.statement?_modifyStatement _).trans (if_neg (by tauto))

/-- Triggers without jumps leave the session where the line has moved it. -/
theorem approach_line (hf : s.cursor.frame = some f) (hm : s.definition.findSync f p.visible line = some m)
    (still : ∀ t ∈ s.definition.firedBy line, t.rule.jump = none) (host : Duration) :
    s.approach p (.line line host) = (s.syncTo f m host).countFired line := by
  have synchronised : (s.synchronize p line host).2 = s.syncTo f m host :=
    congrArg Prod.snd (synchronize_of_findSync hf hm host)
  have triggers := triggers_synchronize p s line host
  rw [synchronised] at triggers
  have hits : (s.syncTo f m host).definition.firedBy line = s.definition.firedBy line := by
    rw [Definition.firedBy, triggers]
    rfl
  rw [← hits] at still
  show (((s.synchronize p line host).2).fire line).2 = _
  rw [synchronised]
  exact followAll_of_none still

/-- Whatever clock position and frame a line finds: without offsets, and unless a trigger jumps, what it synchronises is the
first that the step after it executes. Its notice is given unless it was, it is done, and its jump is followed. -/
theorem synced_prompt (p : Pace) (d : Definition) (timed : d.Timed) (s : Session) (h : Scene.Reached p d ⟨.rest, s⟩)
    (line : String) (host : Duration) (id : ElementId) (reported : (s.hear p line host).1.synced = some id) :
    ∃ f m, s.cursor.frame = some f ∧ s.definition.findSync f p.visible line = some m ∧ m.activity.id = id ∧
      (m.activity.cue.syncStart = none → (∀ offset, m.activity.cue.syncEnd = some offset → ¬ offset > 0.0) →
        (∀ t ∈ s.definition.firedBy line, t.rule.jump = none) →
        ∃ n v, p.maxSteps = n + 1 ∧
          Scene.Next p ⟨.playing (n + 1), s.approach p (.line line host)⟩ ⟨.leaving m.activity.latchSync n, v⟩ ∧
          (s.approach p (.line line host)).Struck { f with index := m.index } m.activity.latchSync v ∧
          (s.hear p line host).2 = (play p n (v.follow id m.activity.cue.jump 1)).refreshWindow p) := by
  replace reported : (s.synchronize p line host).1 = some id := reported
  rcases synchronize_cases p s line host with he | ⟨f, m, hf, hm, he⟩
  · rw [he] at reported
    cases reported
  rw [he] at reported
  cases reported
  refine ⟨f, m, hf, hm, rfl, fun start immediate still => ?_⟩
  have rebased := rebased_of_findSync hf hm host
  have there := (Definition.mem_window (Definition.findSync_eq_some hm).1).1
  have counted : f.base.isFinite = true := (h.finite timed).cursor f (by rw [hf]; exact List.mem_cons_self)
  have fits := (timed.congr h.script.symm) _ (Definition.mem_activities.mpr ⟨_, _, there⟩)
  have finite : (m.activity.cue.effectiveTime f.base).isFinite = true := Duration.isFinite_add_seconds counted fits
  -- The triggers have counted the line and left the clock and the cursor alone.
  have approached := approach_line hf hm still host
  have frame : (s.approach p (.line line host)).cursor.frame = some { f with index := m.index } := by
    rw [approached]
    exact congrArg Cursor.frame rebased.cursor
  have stands : Frame.activity? (s.approach p (.line line host)).definition { f with index := m.index } =
      some m.activity.latchSync := by
    rw [approached]
    exact (Definition.statement?_countFired line).trans rebased.matched
  have clock : (s.approach p (.line line host)).clock = Clock.settle (m.activity.cue.effectiveTime f.base + 0.0) := by
    rw [approached]
    exact rebased.clock.trans (by rw [start, Option.getD_none])
  have due : m.activity.latchSync.isDue (s.approach p (.line line host)).clock f.base = true := by
    rw [clock]
    exact Activity.isDue_latchSync finite immediate
  obtain ⟨n, steps⟩ := Nat.exists_eq_add_of_lt p.maxSteps_pos
  rw [Nat.zero_add] at steps
  refine ⟨n, _, steps, .execute _ n _ _ frame stands due, struck_strike stands p, ?_⟩
  show (play p p.maxSteps (s.approach p (.line line host))).refreshWindow p = _
  rw [steps, play_execute frame stands due]
  rfl

def overdue : Session :=
  { definition :=
      { elements :=
          [.trigger { id := 0, rule := { sync := some (.ofSource "(?-i)Phase"), notice := some "Phase" } },
            .activity
              { id := 1
                cue :=
                  { time := ⟨10000000000⟩, sync := some (.ofSource "(?-i)Phase"), notice := some "Split" } }] } }

def belated : Session := (overdue.start ({} : Settings).pace .zero).rebase 30.0

theorem synced_prompt_belated :
    ∃ f m n v, belated.cursor.frame = some f ∧
      belated.definition.findSync f ({} : Settings).pace.visible "Phase 2" = some m ∧ m.activity.id = 1 ∧
      ({} : Settings).pace.maxSteps = n + 1 ∧
      (belated.approach ({} : Settings).pace (.line "Phase 2" .zero)).Struck { f with index := m.index }
        m.activity.latchSync v ∧
      (belated.hear ({} : Settings).pace "Phase 2" .zero).2 =
        (play ({} : Settings).pace n (v.follow 1 m.activity.cue.jump 1)).refreshWindow ({} : Settings).pace := by
  have reached : Scene.Reached ({} : Settings).pace overdue.definition ⟨.rest, belated⟩ :=
    (Scene.Reached.start overdue .zero rfl).next (.rebase _ 30.0)
  have timed : overdue.definition.Timed := by
    simp [Definition.Timed, overdue, Definition.activities, Element.activities, Duration.Fits, UInt64.size]
  have reported : (belated.hear ({} : Settings).pace "Phase 2" .zero).1.synced = some 1 := by decide +kernel
  have still : ((belated.definition.firedBy "Phase 2").all fun t => t.rule.jump.isNone) = true := by decide +kernel
  have plain : ((belated.definition.findSync ⟨.root, 1, 0.0⟩ ({} : Settings).pace.visible "Phase 2").all fun m =>
      m.activity.cue.syncStart.isNone && m.activity.cue.syncEnd.isNone) = true := by decide +kernel
  obtain ⟨f, m, hf, hm, id, prompt⟩ :=
    synced_prompt ({} : Settings).pace _ timed belated reached "Phase 2" .zero 1 reported
  have frame : belated.cursor.frame = some ⟨.root, 1, 0.0⟩ := rfl
  cases hf.symm.trans frame
  rw [hm, Option.all_some, Bool.and_eq_true, Option.isNone_iff_eq_none, Option.isNone_iff_eq_none] at plain
  have immediate (offset : Float) (written : m.activity.cue.syncEnd = some offset) : ¬ offset > 0.0 := by
    cases plain.2.symm.trans written
  have jumpless (t : Trigger) (fired : t ∈ belated.definition.firedBy "Phase 2") : t.rule.jump = none :=
    Option.isNone_iff_eq_none.mp (List.all_eq_true.mp still t fired)
  obtain ⟨n, v, steps, -, struck, heard⟩ := prompt plain.1 immediate jumpless
  exact ⟨_, m, n, v, hf, hm, id, steps, struck, heard⟩

end Session

end EncounterTimeline

import EncounterTimeline.Proofs.Playback.Account
import EncounterTimeline.Settings.Basic

/-! # Notices are given once

An activity gives its notice when it is time for it or when it is executed, whichever comes first, and then no
more until a jump clears its latches.
-/
namespace EncounterTimeline

namespace Scene

open Session

variable {p : Pace} {d : Definition} {x : Scene} {es : List Happening} {n : Notice}

/-- A notice of an activity is given in the scope of the current frame, when it is time for it or with the
execution of the activity. -/
theorem Writes.inTime (h : x.Writes p es) (given : .notice n ∈ es) (ofActivity : n.source = .activity) :
    ∃ f a text, x.session.cursor.frame = some f ∧ a ∈ x.session.definition.activities ∧
      a.latches.notified = false ∧ a.cue.noticeText = some text ∧ n = x.session.activityNotice a text ∧
      (¬ a.cue.before x.session.clock f.base > a.cue.noticeOffset.getD 0.0 ∨ .executed a.id ∈ es) := by
  cases h with
  | aside h =>
    have about := h _ given
    simp [Happening.subject, ofActivity] at about
  | synced => simp at given
  | executed f a hf ha =>
    rcases List.mem_append.mp given with given | given
    · obtain ⟨text, fresh, ht, hn⟩ := mem_pending.mp given
      cases hn
      exact ⟨f, a, text, hf, Definition.mem_activities.mpr ⟨_, _, ha⟩, fresh, ht, rfl, .inr (by simp)⟩
    · simp at given
  | noticed f shown hf own =>
    obtain ⟨a, ha, given⟩ := List.mem_flatMap.mp given
    obtain ⟨due, given⟩ := mem_pendingNow.mp given
    obtain ⟨text, fresh, ht, hn⟩ := mem_pending.mp given
    obtain ⟨i, hi⟩ := own a ha
    cases hn
    refine ⟨f, a, text, hf, Definition.mem_activities.mpr ⟨_, i, hi⟩, fresh, ht, rfl, .inl ?_⟩
    simpa [Cue.noticeDue, Cue.noticeThreshold] using due

/-- What is executed is in the journal with its notice latched, until its jump is followed. -/
theorem Reached.leaving {s : Session} {a : Activity} {left : Nat} (h : Reached p d ⟨.leaving a left, s⟩) :
    .executed a.id ∈ s.journal.since a.id ∧
      ∃ b ∈ s.definition.activities, b.id = a.id ∧ b.latches.notified = true := by
  cases h with
  | next h move =>
    cases move with
    | execute s n f a hf ha due =>
      constructor
      · rw [strike, record_journal, Journal.since_record]
        · simp [Journal.record]
        · intro e he
          rcases List.mem_append.mp he with he | he
          · exact Happening.quiet_of_subject (subject_of_mem_pending he) a.id
          · rw [List.mem_singleton.mp he]
            rfl
      · refine ⟨a.execute s.clock f.base p.lookAhead, ?_, rfl, rfl⟩
        apply Definition.mem_activities.mpr ⟨f.scope, f.index, ?_⟩
        have there : s.definition.statement? f.scope f.index = some a := ha
        rw [strike, record_definition, Definition.statement?_modifyStatement]
        simp [there]

/-- Since its latches were last cleared an activity has given its notice exactly if the notice is latched and has
a text. Every notice was given in time or with the execution of the activity, and what has been executed has its
notice latched. -/
theorem notices_once (p : Pace) (d : Definition) (unique : d.ids.Nodup) (x : Scene) (h : Reached p d x) :
    (∀ a ∈ x.session.definition.activities,
      (x.session.journal.since a.id).countP (Happening.gives a.id) =
          (if a.latches.notified ∧ a.cue.noticeText.isSome then 1 else 0) ∧
        (.executed a.id ∈ x.session.journal.since a.id → a.latches.notified = true)) ∧
    (∀ a left, x.stage = .leaving a left →
      .executed a.id ∈ x.session.journal.since a.id ∧
        ∃ b ∈ x.session.definition.activities, b.id = a.id ∧ b.latches.notified = true) ∧
    ∀ y, Next p x y → ∃ es, y.session.journal = x.session.journal.record es ∧
      ∀ n, .notice n ∈ es → n.source = .activity →
        ∃ f a text, x.session.cursor.frame = some f ∧ a ∈ x.session.definition.activities ∧
          a.cue.noticeText = some text ∧ n = x.session.activityNotice a text ∧
          (¬ a.cue.before x.session.clock f.base > a.cue.noticeOffset.getD 0.0 ∨ .executed a.id ∈ es) := by
  refine ⟨?_, ?_, ?_⟩
  · intro a ha
    obtain ⟨c, i, hi⟩ := Definition.mem_activities.mp ha
    have acc := h.accounted unique c i a hi
    exact ⟨acc.notices, acc.executed⟩
  · rintro a left stage
    obtain ⟨_, s⟩ := x
    subst stage
    exact h.leaving
  · intro y move
    obtain ⟨es, writes, hj⟩ := move.writes
    refine ⟨es, hj, ?_⟩
    intro n given ofActivity
    obtain ⟨f, a, text, hf, ha, -, ht, hn, why⟩ := writes.inTime given ofActivity
    exact ⟨f, a, text, hf, ha, ht, hn, why⟩

def pull : Session :=
  { definition :=
      { elements :=
          [.activity { id := 0, cue := { notice := some "Pull" } },
            .activity
              { id := 1, cue := { time := ⟨10000000000⟩, notice := some "Spread", noticeOffset := some 15.0 } }] } }

theorem notices_once_pull :
    let s := (pull.start ({} : Settings).pace .zero).run ({} : Settings).pace [.step, .step]
    pull.definition.ids.Nodup ∧ s.definition.activities.map Activity.id = [0, 1] ∧
      ∀ a ∈ s.definition.activities, (s.journal.since a.id).countP (Happening.gives a.id) = 1 := by
  intro s
  have unique : pull.definition.ids.Nodup := by decide
  have reached : Reached ({} : Settings).pace pull.definition ⟨.rest, s⟩ :=
    (Reached.start pull .zero rfl).run [.step, .step]
  have told : ∀ a ∈ s.definition.activities, a.latches.notified = true ∧ a.cue.noticeText.isSome := by
    decide +kernel
  refine ⟨unique, by decide +kernel, ?_⟩
  intro a ha
  rw [((notices_once _ _ unique _ reached).1 a ha).1, if_pos (told a ha)]

end Scene

end EncounterTimeline

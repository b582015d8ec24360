import EncounterTimeline.Proofs.Playback.Account
import EncounterTimeline.Settings.Basic

/-! # Lines synchronise once

A line synchronises an activity that is neither latched nor done, so no two lines synchronise the same activity
unless its latches were cleared between them. Apart from host time only such a line moves the clock: whatever else
a line does, and whatever is executed, happens at one clock position.
-/
namespace EncounterTimeline

namespace Happening

def synced? : Happening → Option ElementId
  | .synced id => some id
  | _ => none

def tellsTime : Happening → Bool
  | .elapsed _ | .synced _ => true
  | _ => false

variable {e : Happening}

theorem synced?_of_tellsTime (h : e.tellsTime = false) : e.synced? = none := by
  cases e with
  | synced => cases h
  | _ => rfl

end Happening

namespace Journal

variable {j k : Journal} {es : List Happening} {id : ElementId}

def syncs (j : Journal) : List ElementId := j.filterMap Happening.synced?

theorem syncs_record (h : ∀ e ∈ es, e.synced? = none) : (j.record es).syncs = j.syncs := by
  have silent : es.reverse.filterMap Happening.synced? = [] := by
    rw [List.filterMap_eq_nil_iff]
    intro e he
    exact h e (List.mem_reverse.mp he)
  rw [syncs, record, List.filterMap_append, silent]
  rfl

def times (j : Journal) : Journal := j.filter Happening.tellsTime

theorem times_record (h : ∀ e ∈ es, e.tellsTime = false) : (j.record es).times = j.times := by
  have silent : es.reverse.filter Happening.tellsTime = [] := by simpa [List.filter_eq_nil_iff] using h
  rw [times, record, List.filter_append, silent]
  rfl

theorem syncs_times (j : Journal) : j.times.syncs = j.syncs := by
  rw [syncs, times, List.filterMap_filter, syncs]
  congr 1
  funext e
  cases tells : e.tellsTime with
  | true => rfl
  | false => exact (Happening.synced?_of_tellsTime tells).symm

/-- Whenever a line synchronised the activity, none had since its latches were last cleared. -/
def SyncsApart (id : ElementId) : Journal → Prop
  | [] => True
  | e :: j => (e.syncs id = true → (since j id).countP (Happening.syncs id) = 0) ∧ SyncsApart id j

namespace SyncsApart

theorem append (h : j.SyncsApart id) (other : ∀ e ∈ es, e.syncs id = false) : SyncsApart id (es ++ j) := by
  induction es with
  | nil => exact h
  | cons e rest ih =>
    obtain ⟨first, later⟩ := List.forall_mem_cons.mp other
    refine ⟨?_, ih later⟩
    intro syncs
    cases first.symm.trans syncs

theorem record (h : j.SyncsApart id) (other : ∀ e ∈ es, e.syncs id = false) : (j.record es).SyncsApart id :=
  h.append fun e he => other e (List.mem_reverse.mp he)

theorem of_append (h : SyncsApart id (es ++ j)) : j.SyncsApart id := by
  induction es with
  | nil => exact h
  | cons e rest ih => exact ih h.2

theorem countP_since_le (h : j.SyncsApart id) : (j.since id).countP (Happening.syncs id) ≤ 1 := by
  induction j with
  | nil => exact Nat.zero_le _
  | cons e j ih =>
    rw [since, List.takeWhile_cons]
    split
    · rw [List.countP_cons]
      split
      · rename_i syncs
        exact Nat.le_of_eq (congrArg (· + 1) (h.1 syncs))
      · exact ih h.2
    · exact Nat.zero_le _

/-- In a stretch that does not clear its latches the activity is synchronised once at most. -/
theorem countP_le {between : Journal} (h : j.SyncsApart id) (within : between <:+: j)
    (quiet : ∀ e ∈ between, e.rearms id = false) : between.countP (Happening.syncs id) ≤ 1 := by
  obtain ⟨later, earlier, rfl⟩ := within
  rw [List.append_assoc] at h
  have apart : SyncsApart id (between ++ earlier) := h.of_append
  calc
    between.countP (Happening.syncs id) ≤ (since (between ++ earlier) id).countP (Happening.syncs id) := by
      rw [since, List.takeWhile_append_of_pos (by simpa using quiet), List.countP_append]
      exact Nat.le_add_right ..
    _ ≤ 1 := apart.countP_since_le

end SyncsApart

end Journal

namespace Scene

open Session

variable {p : Pace} {d : Definition} {x y : Scene}

/-- Only a line that synchronises an activity writes so. -/
theorem Writes.syncs_cases {es : List Happening} (h : x.Writes p es) (id : ElementId) :
    (∀ e ∈ es, e.syncs id = false) ∨ ∃ f m line, x.session.cursor.frame = some f ∧
      x.session.definition.findSync f p.visible line = some m ∧ m.activity.id = id ∧ es = [.synced id] := by
  cases h with
  | aside h =>
    left
    intro e he
    apply Happening.syncs_eq_false_of_subject
    simp [h e he]
  | synced f m hf hm =>
    by_cases own : m.activity.id = id
    · exact .inr ⟨f, m, _, hf, hm, own, by rw [own]⟩
    · exact .inl (by simp [Happening.syncs, own])
  | executed f a hf ha =>
    left
    intro e he
    rcases List.mem_append.mp he with he | he
    · obtain ⟨text, -, -, rfl⟩ := mem_pending.mp he
      rfl
    · rw [List.mem_singleton.mp he]
      rfl
  | noticed f shown hf own =>
    left
    intro e he
    obtain ⟨a, -, he⟩ := List.mem_flatMap.mp he
    obtain ⟨text, -, -, rfl⟩ := mem_pending.mp (mem_pendingNow.mp he).2
    rfl

theorem Reached.syncsApart (h : Reached p d x) (unique : d.ids.Nodup) (id : ElementId) :
    x.session.journal.SyncsApart id := by
  induction h with
  | start s host h =>
    rw [journal_start]
    trivial
  | @next x y reached move ih =>
    obtain ⟨es, writes, hj⟩ := move.writes
    rw [hj]
    rcases writes.syncs_cases id with silent | ⟨f, m, line, hf, hm, rfl, rfl⟩
    · exact ih.record silent
    · obtain ⟨window, armed, -, -⟩ := Definition.findSync_eq_some hm
      have acc := reached.accounted unique _ _ _ (Definition.mem_window window).1
      -- The latch is clear, and it accounts for every line since it was cleared.
      have before : (x.session.journal.since m.activity.id).countP (Happening.syncs m.activity.id) = 0 := by
        rw [acc.syncs, (Activity.canSync_iff.mp armed).1]
        rfl
      exact ⟨fun _ => before, ih⟩

end Scene

namespace Session

variable {p : Pace} {s t u : Session} {f : Frame} {a : Activity}

structure SameTime (s t : Session) : Prop where
  clock : t.clock = s.clock
  lastHost : t.lastHost = s.lastHost
  times : t.journal.times = s.journal.times

namespace SameTime

theorem refl (s : Session) : s.SameTime s := ⟨rfl, rfl, rfl⟩

theorem trans (h : s.SameTime t) (k : t.SameTime u) : s.SameTime u :=
  ⟨k.clock.trans h.clock, k.lastHost.trans h.lastHost, k.times.trans h.times⟩

theorem syncs (h : s.SameTime t) : t.journal.syncs = s.journal.syncs := by
  rw [← Journal.syncs_times, h.times, Journal.syncs_times]

theorem follow (s : Session) (owner : ElementId) (jump : Option Jump) (resume : Nat) :
    s.SameTime (s.follow owner jump resume) := by
  refine ⟨rfl, rfl, ?_⟩
  rw [journal_follow]
  apply Journal.times_record
  intro e he
  cases transfer : (s.cursor.follow s.definition jump s.clock resume).1 with
  | fellThrough =>
    rw [transfer] at he
    cases he
  | jumped | called | unresolved =>
    rw [transfer] at he
    rw [List.mem_singleton.mp he]
    rfl

theorem followAll (s : Session) (fired : List Trigger) : s.SameTime (s.followAll fired) := by
  induction fired generalizing s with
  | nil => exact .refl s
  | cons t fired ih => exact (follow s t.id t.rule.jump 0).trans (ih _)

theorem countFired (s : Session) (line : String) : s.SameTime (s.countFired line) := by
  refine ⟨rfl, rfl, Journal.times_record ?_⟩
  intro e he
  obtain ⟨t, -, he⟩ := List.mem_flatMap.mp he
  rcases List.mem_cons.mp he with rfl | he
  · rfl
  · obtain ⟨text, -, rfl⟩ := Option.map_eq_some_iff.mp (Option.mem_toList.mp he)
    rfl

theorem fire (s : Session) (line : String) : s.SameTime (s.fire line).2 :=
  (countFired s line).trans (followAll _ _)

theorem tellsTime_of_mem_pending {e : Happening} (h : e ∈ s.pending a) : e.tellsTime = false := by
  obtain ⟨text, -, -, rfl⟩ := mem_pending.mp h
  rfl

theorem strike (p : Pace) (s : Session) (f : Frame) (a : Activity) : s.SameTime (s.strike p f a) := by
  refine ⟨rfl, rfl, Journal.times_record ?_⟩
  intro e he
  rcases List.mem_append.mp he with he | he
  · exact tellsTime_of_mem_pending he
  · rw [List.mem_singleton.mp he]
    rfl

theorem await (p : Pace) (s : Session) (f : Frame) (a : Activity) : s.SameTime (s.await p f a) :=
  ⟨rfl, rfl, Journal.times_record fun _ he => tellsTime_of_mem_pending (mem_pendingNow.mp he).2⟩

theorem refreshWindow (p : Pace) (s : Session) : s.SameTime (s.refreshWindow p) := by
  cases hf : s.cursor.frame with
  | none =>
    simp only [Session.refreshWindow, hf]
    exact .refl s
  | some f =>
    simp only [Session.refreshWindow, hf]
    refine ⟨rfl, rfl, Journal.times_record ?_⟩
    intro e he
    obtain ⟨⟨i, a⟩, -, he⟩ := List.mem_flatMap.mp he
    exact tellsTime_of_mem_pending (mem_pendingNow.mp he).2

theorem play (p : Pace) (n : Nat) (s : Session) : s.SameTime (play p n s) := by
  refine play_keeps ?_ ?_ ?_ n (refl s)
  · intro t same
    exact same.trans ⟨rfl, rfl, rfl⟩
  · intro t f a same
    exact same.trans ((strike p t f a).trans (follow _ a.id a.cue.jump 1))
  · intro t f a same
    exact same.trans (await p t f a)

/-- A step takes place at one clock position. -/
theorem step (p : Pace) (s : Session) : s.SameTime (s.step p) := (play p p.maxSteps s).trans (refreshWindow p _)

end SameTime

theorem synchronize_eq_of_none {line : String} {host : Duration}
    (h : (s.hear p line host).1.synced = none) : (s.synchronize p line host).2 = s := by
  replace h : (s.synchronize p line host).1 = none := h
  rcases synchronize_cases p s line host with he | ⟨f, m, -, -, he⟩
  · rw [he]
  · rw [he] at h
    cases h

theorem syncs_tick (p : Pace) (s : Session) (host : Duration) :
    (s.tick p host).journal.syncs = s.journal.syncs := by
  rw [tick, (SameTime.step p _).syncs]
  exact Journal.syncs_record (by simp [Happening.synced?])

/-- After what it synchronises a line leaves the time alone. -/
theorem sameTime_hear (p : Pace) (s : Session) (line : String) (host : Duration) :
    (s.synchronize p line host).2.SameTime (s.hear p line host).2 :=
  (SameTime.fire _ line).trans (SameTime.step p _)

/-- What a line is reported to synchronise is what the journal tells. -/
theorem syncs_hear (p : Pace) (s : Session) (line : String) (host : Duration) :
    (s.hear p line host).2.journal.syncs = (s.hear p line host).1.synced.toList ++ s.journal.syncs := by
  rw [(sameTime_hear p s line host).syncs]
  show _ = (s.synchronize p line host).1.toList ++ _
  rcases synchronize_cases p s line host with he | ⟨f, m, -, -, he⟩
  · rw [he]
    rfl
  · rw [he]
    rfl

/-- A line synchronises an activity that is neither latched nor done. -/
theorem armed_of_hear {line : String} {host : Duration} {id : ElementId} (unique : s.definition.ids.Nodup)
    (h : (s.hear p line host).1.synced = some id) :
    (∃ a ∈ s.definition.activities, a.id = id) ∧
      ∀ a ∈ s.definition.activities, a.id = id → a.latches.synced = false ∧ a.latches.done = false := by
  replace h : (s.synchronize p line host).1 = some id := h
  rcases synchronize_cases p s line host with he | ⟨f, m, hf, hm, he⟩
  · rw [he] at h
    cases h
  · rw [he] at h
    cases h
    obtain ⟨window, armed, -, -⟩ := Definition.findSync_eq_some hm
    have there := (Definition.mem_window window).1
    refine ⟨⟨_, Definition.mem_activities.mpr ⟨_, _, there⟩, rfl⟩, ?_⟩
    intro a ha same
    obtain ⟨c, i, hi⟩ := Definition.mem_activities.mp ha
    obtain ⟨rfl, rfl⟩ := Definition.address_eq_of_id_eq unique hi there same
    cases hi.symm.trans there
    obtain ⟨synced, done, -⟩ := Activity.canSync_iff.mp armed
    exact ⟨synced, done⟩

/-- A line synchronises only an activity that is neither latched nor done, and between two clearings of its latches
an activity is synchronised once at most. A line that synchronises nothing leaves the clock and the host time that
it is accounted for as they are, and so does a step. -/
theorem synchronised_once (p : Pace) (d : Definition) (unique : d.ids.Nodup) (s : Session)
    (h : Scene.Reached p d ⟨.rest, s⟩) :
    (∀ line host id, (s.hear p line host).1.synced = some id →
      (∃ a ∈ s.definition.activities, a.id = id) ∧
        ∀ a ∈ s.definition.activities, a.id = id → a.latches.synced = false ∧ a.latches.done = false) ∧
    (∀ line host, (s.hear p line host).1.synced = none →
      (s.hear p line host).2.clock = s.clock ∧ (s.hear p line host).2.lastHost = s.lastHost) ∧
    ((s.step p).clock = s.clock ∧ (s.step p).lastHost = s.lastHost) ∧
    (∀ id (between : Journal), between <:+: s.journal → (∀ e ∈ between, e.rearms id = false) →
      between.countP (Happening.syncs id) ≤ 1) ∧
    (∀ line host,
      (s.hear p line host).2.journal.syncs = (s.hear p line host).1.synced.toList ++ s.journal.syncs) ∧
    (∀ host, (s.tick p host).journal.syncs = s.journal.syncs) ∧
    (s.step p).journal.syncs = s.journal.syncs ∧
    ∀ (s₀ : Session) host, (s₀.start p host).journal = [] := by
  have stepped : s.SameTime (s.step p) := .step p s
  refine ⟨?_, ?_, ⟨stepped.clock, stepped.lastHost⟩, ?_, syncs_hear p s, syncs_tick p s, stepped.syncs,
    journal_start p⟩
  · intro line host id reported
    exact armed_of_hear (h.ids_nodup unique) reported
  · intro line host unreported
    have same := sameTime_hear p s line host
    rw [synchronize_eq_of_none unreported] at same
    exact ⟨same.clock, same.lastHost⟩
  · intro id between within quiet
    exact (h.syncsApart unique id).countP_le within quiet

def waiting : Session :=
  { definition :=
      { elements :=
          [.activity { id := 0, cue := { time := ⟨10000000000⟩, sync := some (.ofSource "(?-i)Phase") } }] } }

def opening : Session := waiting.start ({} : Settings).pace .zero

theorem synchronised_once_opening :
    waiting.definition.ids.Nodup ∧
      Scene.Reached ({} : Settings).pace waiting.definition ⟨.rest, opening⟩ ∧
      (opening.hear ({} : Settings).pace "Phase 2" .zero).1.synced = some 0 ∧
      (opening.hear ({} : Settings).pace "Wipe" .zero).1.synced = none ∧
      (opening.hear ({} : Settings).pace "Wipe" .zero).2.clock = opening.clock := by
  have unique : waiting.definition.ids.Nodup := by decide
  have reached : Scene.Reached ({} : Settings).pace waiting.definition ⟨.rest, opening⟩ :=
    .start waiting .zero rfl
  have heard : (opening.hear ({} : Settings).pace "Phase 2" .zero).1.synced = some 0 := by decide +kernel
  have unheard : (opening.hear ({} : Settings).pace "Wipe" .zero).1.synced = none := by decide +kernel
  have kept := synchronised_once _ _ unique _ reached
  exact ⟨unique, reached, heard, unheard, (kept.2.1 "Wipe" .zero unheard).1⟩

end Session

end EncounterTimeline

import EncounterTimeline.Proofs.Playback.Moves

/-! # What is written in the journal

Every entry is about one activity, or about none, and a move writes little: entries about none, the line that
synchronised an activity, the execution of one with the notice it still had to give, or notices that are due.
-/
namespace EncounterTimeline

namespace Happening

def subject : Happening → Option ElementId
  | .notice n => if n.source = .activity then some n.element else none
  | .synced id => some id
  | .executed id => some id
  | _ => none

def gives (id : ElementId) : Happening → Bool
  | .notice n => n.source == .activity && n.element == id
  | _ => false

def syncs (id : ElementId) : Happening → Bool
  | .synced i => i == id
  | _ => false

def rearms (id : ElementId) : Happening → Bool
  | .rearmed ids => ids.contains id
  | _ => false

def Quiet (e : Happening) : Prop := ∀ id, e.rearms id = false

variable {e : Happening} {id : ElementId}

theorem gives_eq_false_of_subject (h : e.subject ≠ some id) : e.gives id = false := by
  cases e with
  | notice n =>
    by_cases hs : n.source = .activity
    · simp_all [subject, gives]
    · simp [gives, hs]
  | _ => rfl

theorem syncs_eq_false_of_subject (h : e.subject ≠ some id) : e.syncs id = false := by
  cases e with
  | synced i => simpa [subject, syncs] using h
  | _ => rfl

theorem quiet_of_subject (h : e.subject = some id) : e.Quiet := by
  intro i
  cases e with
  | rearmed => cases h
  | _ => rfl

end Happening

namespace Journal

/-- The entries since the latches of an activity were last cleared. -/
def since (j : Journal) (id : ElementId) : Journal := j.takeWhile fun e => !e.rearms id

variable {j : Journal} {es fs : List Happening} {id : ElementId}

theorem record_append : j.record (es ++ fs) = (j.record es).record fs := by
  simp [record]

theorem since_record (quiet : ∀ e ∈ es, e.rearms id = false) :
    (j.record es).since id = Journal.record (j.since id) es :=
  List.takeWhile_append_of_pos (by simpa using quiet)

theorem since_record_rearmed {ids : List ElementId} (h : id ∈ ids) : (j.record [.rearmed ids]).since id = [] := by
  simp [since, record, Happening.rearms, h]

end Journal

namespace Session

variable {s : Session} {a : Activity} {e : Happening} {base : Float}

/-- An activity gives the notice that it has not given. -/
theorem mem_pending : e ∈ s.pending a ↔
    ∃ text, a.latches.notified = false ∧ a.cue.noticeText = some text ∧
      e = .notice (s.activityNotice a text) := by
  rw [pending, Option.mem_toList, Option.map_eq_some_iff]
  cases latched : a.latches.notified with
  | true => simp [Activity.pendingNotice, latched]
  | false => simp [Activity.pendingNotice, latched, eq_comm]

theorem mem_pendingNow :
    e ∈ s.pendingNow base a ↔ a.cue.noticeDue (a.cue.before s.clock base) = true ∧ e ∈ s.pending a := by
  rw [pendingNow]
  split
  · rename_i due
    simp [due]
  · rename_i early
    simp [early]

theorem subject_of_mem_pending (h : e ∈ s.pending a) : e.subject = some a.id := by
  obtain ⟨text, -, -, rfl⟩ := mem_pending.mp h
  rfl

theorem subject_of_mem_pendingNow (h : e ∈ s.pendingNow base a) : e.subject = some a.id :=
  subject_of_mem_pending (mem_pendingNow.mp h).2

/-- What a trigger writes is about no activity and clears no latches. -/
theorem aside_of_mem_firing {t : Trigger} (h : e ∈ s.firing t) : e.subject = none ∧ e.Quiet := by
  rcases List.mem_cons.mp h with rfl | h
  · exact ⟨rfl, fun _ => rfl⟩
  · obtain ⟨text, -, rfl⟩ := Option.map_eq_some_iff.mp (Option.mem_toList.mp h)
    exact ⟨rfl, fun _ => rfl⟩

theorem subject_of_mem_transferEntry {owner : ElementId} {t : Transfer} (h : e ∈ s.transferEntry owner t) :
    e.subject = none := by
  cases t with
  | fellThrough => cases h
  | jumped | called | unresolved =>
    rw [List.mem_singleton.mp h]
    rfl

theorem journal_start (p : Pace) (s : Session) (host : Duration) : (s.start p host).journal = [] := by
  rw [start, showWindow]
  split <;> rfl

theorem journal_follow (s : Session) (owner : ElementId) (jump : Option Jump) (resume : Nat) :
    (s.follow owner jump resume).journal =
      s.journal.record (s.transferEntry owner (s.cursor.follow s.definition jump s.clock resume).1) := rfl

end Session

namespace Scene

open Session

variable {p : Pace} {x y : Scene}

inductive Writes (p : Pace) (x : Scene) : List Happening → Prop
  | aside {es : List Happening} (h : ∀ e ∈ es, e.subject = none) : Writes p x es
  | synced (f : Frame) (m : SyncMatch) (hf : x.session.cursor.frame = some f)
      {line : String}
      (hm : x.session.definition.findSync f p.visible line = some m) : Writes p x [.synced m.activity.id]
  | executed (f : Frame) (a : Activity) (hf : x.session.cursor.frame = some f)
      (ha : f.activity? x.session.definition = some a) :
      Writes p x (x.session.pending a ++ [.executed a.id])
  | noticed (f : Frame) (shown : List Activity) (hf : x.session.cursor.frame = some f)
      (own : ∀ a ∈ shown, ∃ i, x.session.definition.statement? f.scope i = some a) :
      Writes p x (shown.flatMap (x.session.pendingNow f.base))

theorem Next.writes (move : Next p x y) :
    ∃ es, x.Writes p es ∧ y.session.journal = x.session.journal.record es := by
  have silent : x.Writes p [] := .aside (by simp)
  cases move with
  | step | rebase | begin | finish | passOver | exhaust => exact ⟨[], silent, rfl⟩
  | tick s host =>
    refine ⟨_, .aside ?_, rfl⟩
    intro e he
    rw [List.mem_singleton.mp he]
    rfl
  | hear s line host =>
    rcases synchronize_cases p s line host with he | ⟨f, m, hf, hm, he⟩
    · exact ⟨[], silent, by rw [he]; rfl⟩
    · exact ⟨_, .synced f m hf hm, by rw [he]; rfl⟩
  | fire s line =>
    refine ⟨_, .aside ?_, rfl⟩
    intro e he
    obtain ⟨t, -, he⟩ := List.mem_flatMap.mp he
    exact (aside_of_mem_firing he).1
  | jump s t fired => exact ⟨_, .aside fun _ => subject_of_mem_transferEntry, journal_follow s ..⟩
  | leave s n a => exact ⟨_, .aside fun _ => subject_of_mem_transferEntry, journal_follow s ..⟩
  | execute s n f a hf ha due => exact ⟨_, .executed f a hf ha, rfl⟩
  | await s n f a hf ha early =>
    refine ⟨_, .noticed f [a] hf ?_, ?_⟩
    · intro b hb
      rw [List.mem_singleton.mp hb]
      exact ⟨f.index, ha⟩
    · simp only [Session.await, record_journal, List.flatMap_singleton]
  | «show» s =>
    cases hf : s.cursor.frame with
    | none => exact ⟨[], silent, by simp only [refreshWindow, hf]; rfl⟩
    | some f =>
      refine ⟨_, .noticed f ((s.definition.window f p.visible).map Prod.snd) hf ?_, ?_⟩
      · intro a ha
        obtain ⟨⟨i, b⟩, hw, rfl⟩ := List.mem_map.mp ha
        exact ⟨i, (Definition.mem_window hw).1⟩
      · simp only [refreshWindow, hf, record_journal, List.flatMap_map]

end Scene

end EncounterTimeline

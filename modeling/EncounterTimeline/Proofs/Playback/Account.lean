import EncounterTimeline.Proofs.Playback.Entries

/-! # Latches and the journal

The latches of an activity agree with what the journal tells of it since its latches were last cleared: a notice
was given exactly when the latch is set and there is a text to give, a line synchronised it exactly when that
latch is set, and what was executed has its notice latched.
-/
namespace EncounterTimeline

structure Activity.Accounted (a : Activity) (j : Journal) : Prop where
  notices : j.countP (Happening.gives a.id) = if a.latches.notified ∧ a.cue.noticeText.isSome then 1 else 0
  syncs : j.countP (Happening.syncs a.id) = if a.latches.synced then 1 else 0
  executed : .executed a.id ∈ j → a.latches.notified = true

namespace Activity.Accounted

variable {a b : Activity} {j : Journal} {es : List Happening} {clock base window : Float}

theorem cleared (h : a.latches = {}) : a.Accounted [] := by
  constructor <;> simp [h]

/-- The other two latches, and where the activity is in playing order, do not matter. -/
theorem congr (h : a.Accounted j) (script : b.script = a.script)
    (notified : b.latches.notified = a.latches.notified) (synced : b.latches.synced = a.latches.synced) :
    b.Accounted j := by
  have id : b.id = a.id := Activity.id_eq_of_script script
  have cue : b.cue = a.cue := Activity.cue_eq_of_script script
  constructor
  · rw [id, notified, cue]
    exact h.notices
  · rw [id, synced]
    exact h.syncs
  · rw [id, notified]
    exact h.executed

/-- Entries about other activities change nothing. -/
theorem record_other (h : a.Accounted j) (other : ∀ e ∈ es, e.subject ≠ some a.id) :
    a.Accounted (j.record es) := by
  have notices : es.reverse.countP (Happening.gives a.id) = 0 := by
    rw [List.countP_eq_zero]
    intro e he
    simp [Happening.gives_eq_false_of_subject (other e (List.mem_reverse.mp he))]
  have syncs : es.reverse.countP (Happening.syncs a.id) = 0 := by
    rw [List.countP_eq_zero]
    intro e he
    simp [Happening.syncs_eq_false_of_subject (other e (List.mem_reverse.mp he))]
  constructor
  · rw [Journal.record, List.countP_append, notices, Nat.zero_add]
    exact h.notices
  · rw [Journal.record, List.countP_append, syncs, Nat.zero_add]
    exact h.syncs
  · intro he
    rcases List.mem_append.mp he with he | he
    · exact (other _ (List.mem_reverse.mp he) rfl).elim
    · exact h.executed he

theorem latchSync (h : a.Accounted j) (armed : a.latches.synced = false) :
    a.latchSync.Accounted (j.record [.synced a.id]) := by
  constructor
  · exact h.notices
  · have before : j.countP (Happening.syncs a.id) = 0 := by
      rw [h.syncs]
      simp [armed]
    simp [Journal.record, Activity.latchSync, Happening.syncs, before]
  · intro he
    rw [Journal.record, List.reverse_singleton, List.singleton_append, List.mem_cons] at he
    rcases he with he | he
    · cases he
    · exact h.executed he

/-- Giving the notice that is still to be given and latching it go together. -/
theorem latchNotice (h : a.Accounted j) (s : Session) : a.latchNotice.Accounted (j.record (s.pending a)) := by
  cases latched : a.latches.notified with
  | true =>
    have silent : s.pending a = [] := by simp [Session.pending, Activity.pendingNotice, latched]
    rw [silent]
    exact h.congr rfl (by simp [Activity.latchNotice, latched]) rfl
  | false =>
    have before : j.countP (Happening.gives a.id) = 0 := by
      rw [h.notices]
      simp [latched]
    cases text : a.cue.noticeText with
    | none =>
      have silent : s.pending a = [] := by simp [Session.pending, Activity.pendingNotice, latched, text]
      rw [silent]
      constructor
      · simp [Journal.record, Activity.latchNotice, before, text]
      · exact h.syncs
      · intro _
        rfl
    | some t =>
      have one : s.pending a = [.notice (s.activityNotice a t)] := by
        simp [Session.pending, Activity.pendingNotice, latched, text]
      rw [one]
      constructor
      · simp [Journal.record, Activity.latchNotice, before, text, Happening.gives, Session.activityNotice]
      · exact h.syncs
      · intro _
        rfl

theorem execute (h : a.Accounted j) (s : Session) :
    (a.execute clock base window).Accounted (j.record (s.pending a ++ [.executed a.id])) := by
  have latched := h.latchNotice s
  rw [Journal.record_append]
  have struck : (a.execute clock base window).Accounted (j.record (s.pending a)) := latched.congr rfl rfl rfl
  constructor
  · exact struck.notices
  · exact struck.syncs
  · intro _
    rfl

theorem attend (h : a.Accounted j) (s : Session) (base window : Float) :
    (a.attend s.clock base window).Accounted (j.record (s.pendingNow base a)) := by
  cases due : a.cue.noticeDue (a.cue.before s.clock base) with
  | true =>
    simp only [Session.pendingNow, Activity.attend, due, if_true]
    exact (h.latchNotice s).congr rfl rfl rfl
  | false =>
    simp only [Session.pendingNow, Activity.attend, due, Bool.false_eq_true, if_false]
    exact h.congr rfl rfl rfl

end Activity.Accounted

namespace Definition

variable {d : Definition} {a : Activity}

theorem latches_prepareActivities {n : Nat} {l : List Activity} (h : a ∈ prepareActivities n l) :
    a.latches = {} := by
  induction l generalizing n with
  | nil => cases h
  | cons b rest ih =>
    rcases List.mem_cons.mp h with rfl | h
    · rfl
    · exact ih h

theorem latches_prepareElements {n : Nat} {l : List Element}
    (h : a ∈ (prepareElements n l).flatMap Element.activities) : a.latches = {} := by
  induction l generalizing n with
  | nil => cases h
  | cons e rest ih =>
    obtain ⟨f, m, he, hf⟩ : ∃ f m, prepareElements n (e :: rest) = f :: prepareElements m rest ∧
        ∀ a ∈ f.activities, a.latches = {} := by
      cases e with
      | preset | trigger => exact ⟨_, _, rfl, by simp [Element.activities]⟩
      | activity b => exact ⟨_, _, rfl, by simp [Element.activities, Activity.prepare, Activity.rearm]⟩
      | subroutine r => exact ⟨_, _, rfl, fun _ ha => latches_prepareActivities ha⟩
    rw [he, List.flatMap_cons] at h
    rcases List.mem_append.mp h with h | h
    · exact hf a h
    · exact ih h

/-- Nothing is latched as a run starts. -/
theorem latches_prepare (h : a ∈ d.prepare.activities) : a.latches = {} := latches_prepareElements h

end Definition

/-- The latches of every activity agree with the journal since they were last cleared. -/
def Session.Accounted (s : Session) : Prop :=
  ∀ c i a, s.definition.statement? c i = some a → a.Accounted (s.journal.since a.id)

namespace Session

variable {p : Pace} {s t : Session} {c : Scope} {i k : Nat} {a : Activity} {f : Frame} {es : List Happening}
variable {e : Happening}

theorem subject_ne {b : Activity} {l : Scope} (unique : s.definition.ids.Nodup)
    (ha : s.definition.statement? c k = some a) (he : e.subject = some a.id)
    (hb : s.definition.statement? l i = some b) (apart : l = c → i ≠ k) : e.subject ≠ some b.id := by
  intro about
  have id : b.id = a.id := Option.some.inj (about.symm.trans he)
  obtain ⟨scope, place⟩ := Definition.address_eq_of_id_eq unique hb ha id
  exact apart scope place

theorem subject_ne_of_window {w : List (Nat × Activity)} (unique : s.definition.ids.Nodup)
    (within : w ⊆ s.definition.window f p.visible) (ha : s.definition.statement? f.scope i = some a)
    (others : ∀ x ∈ w, i ≠ x.1) :
    ∀ e ∈ w.flatMap fun (_, b) => s.pendingNow f.base b, e.subject ≠ some a.id := by
  intro e he
  obtain ⟨⟨k, b⟩, hk, he⟩ := List.mem_flatMap.mp he
  have hb := (Definition.mem_window (within hk)).1
  exact subject_ne unique hb (subject_of_mem_pendingNow he) ha fun _ => others _ hk

/-- An activity of the window gives its notice among those of the others. -/
theorem attend_window (unique : s.definition.ids.Nodup) {j : Journal} (acc : a.Accounted j)
    (shown : (i, a) ∈ s.definition.window f p.visible) :
    (a.attend s.clock f.base p.lookAhead).Accounted
      (j.record ((s.definition.window f p.visible).flatMap fun (_, b) => s.pendingNow f.base b)) := by
  -- The places of the window rise, so no other activity of it has this identity.
  obtain ⟨before, after, parts⟩ := List.append_of_mem shown
  have here := (Definition.mem_window shown).1
  have rising := s.definition.window_pairwise f p.visible
  rw [parts, List.pairwise_append, List.pairwise_cons] at rising
  have earlier : before ⊆ s.definition.window f p.visible := by simp [parts]
  have later : after ⊆ s.definition.window f p.visible := by simp [parts]
  rw [parts, List.flatMap_append, List.flatMap_cons, Journal.record_append, Journal.record_append]
  have first : a.Accounted (j.record (before.flatMap fun (_, b) => s.pendingNow f.base b)) := by
    apply acc.record_other
    apply subject_ne_of_window unique earlier here
    intro x hx
    exact Nat.ne_of_gt (rising.2.2 x hx _ List.mem_cons_self)
  have own := first.attend s f.base p.lookAhead
  apply own.record_other
  rw [Activity.id_eq_of_script (a.script_attend ..)]
  apply subject_ne_of_window unique later here
  intro x hx
  exact Nat.ne_of_lt (rising.2.1.1 x hx)

namespace Accounted

/-- What happens to no activity changes no account. -/
theorem unchanged (h : s.Accounted) (same : ∀ c i, t.definition.statement? c i = s.definition.statement? c i)
    (hj : t.journal = s.journal.record es) (aside : ∀ e ∈ es, e.subject = none ∧ e.Quiet) : t.Accounted := by
  intro c i a ha
  rw [same] at ha
  rw [hj, Journal.since_record fun e he => (aside e he).2 a.id]
  apply (h c i a ha).record_other
  intro e he
  simp [(aside e he).1]

/-- The activities of one scope change, with entries about them. -/
theorem mapScope (h : s.Accounted) (unique : s.definition.ids.Nodup) {g : Nat → Activity → Activity}
    (hd : t.definition = s.definition.mapScope c g) (hj : t.journal = s.journal.record es)
    (scripts : ∀ i a, (g i a).script = a.script)
    (subjects : ∀ e ∈ es, ∃ i a, s.definition.statement? c i = some a ∧ e.subject = some a.id)
    (own : ∀ i a, s.definition.statement? c i = some a →
      ∀ j, a.Accounted j → (g i a).Accounted (j.record es)) : t.Accounted := by
  have quiet : ∀ e ∈ es, e.Quiet := by
    intro e he
    obtain ⟨i, a, -, hs⟩ := subjects e he
    exact Happening.quiet_of_subject hs
  intro b i x hx
  rw [hd, Definition.statement?_mapScope] at hx
  rw [hj, Journal.since_record fun e he => quiet e he x.id]
  by_cases same : b = c
  · subst same
    rw [if_pos rfl] at hx
    obtain ⟨a, ha, rfl⟩ := Option.map_eq_some_iff.mp hx
    rw [Activity.id_eq_of_script (scripts i a)]
    exact own i a ha _ (h b i a ha)
  · rw [if_neg same] at hx
    apply (h b i x hx).record_other
    intro e he
    obtain ⟨n, a, ha, hs⟩ := subjects e he
    exact subject_ne unique ha hs hx fun eq => (same eq).elim

/-- One activity changes, with entries about it. -/
theorem modifyStatement (h : s.Accounted) (unique : s.definition.ids.Nodup) {g : Activity → Activity}
    (ha : s.definition.statement? c k = some a) (hd : t.definition = s.definition.modifyStatement c k g)
    (hj : t.journal = s.journal.record es) (scripts : ∀ a, (g a).script = a.script)
    (subjects : ∀ e ∈ es, e.subject = some a.id)
    (own : ∀ j, a.Accounted j → (g a).Accounted (j.record es)) : t.Accounted := by
  refine h.mapScope unique hd hj ?_ (fun e he => ⟨k, a, ha, subjects e he⟩) ?_
  · intro i b
    split
    · exact scripts b
    · rfl
  · intro i b hb j acc
    by_cases here : i = k
    · subst here
      cases ha.symm.trans hb
      simpa using own j acc
    · rw [if_neg here]
      apply acc.record_other
      intro e he
      exact subject_ne unique ha (subjects e he) hb fun _ => here

theorem strike (h : s.Accounted) (unique : s.definition.ids.Nodup) (ha : f.activity? s.definition = some a) :
    (s.strike p f a).Accounted := by
  refine h.modifyStatement unique ha rfl rfl (fun _ => rfl) ?_ (fun j acc => acc.execute s)
  intro e he
  rcases List.mem_append.mp he with he | he
  · exact subject_of_mem_pending he
  · rw [List.mem_singleton.mp he]
    rfl

theorem await (h : s.Accounted) (unique : s.definition.ids.Nodup) (ha : f.activity? s.definition = some a) :
    (s.await p f a).Accounted :=
  h.modifyStatement unique ha rfl rfl (fun a => a.script_attend ..)
    (fun _ he => subject_of_mem_pendingNow he) (fun _ acc => acc.attend s f.base p.lookAhead)

theorem syncTo {m : SyncMatch} (h : s.Accounted) (unique : s.definition.ids.Nodup) (host : Duration)
    (hm : s.definition.statement? f.scope m.index = some m.activity)
    (armed : m.activity.latches.synced = false) : (s.syncTo f m host).Accounted := by
  refine h.mapScope unique rfl rfl ?_ ?_ ?_
  · intro i a
    split
    · rfl
    · split <;> rfl
  · intro e he
    rw [List.mem_singleton.mp he]
    exact ⟨m.index, m.activity, hm, rfl⟩
  · intro i a ha j acc
    by_cases here : i = m.index
    · subst here
      cases hm.symm.trans ha
      simpa using acc.latchSync armed
    · have other : a.Accounted (j.record [.synced m.activity.id]) := by
        apply acc.record_other
        intro e he
        rw [List.mem_singleton.mp he]
        exact subject_ne unique hm rfl ha fun _ => here
      rw [if_neg here]
      split
      · exact other.congr rfl rfl rfl
      · exact other

theorem synchronize (h : s.Accounted) (unique : s.definition.ids.Nodup) (line : String) (host : Duration) :
    (s.synchronize p line host).2.Accounted := by
  rcases synchronize_cases p s line host with he | ⟨f, m, hf, hm, he⟩
  · rw [he]
    exact h
  · rw [he]
    obtain ⟨window, armed, -, -⟩ := Definition.findSync_eq_some hm
    exact h.syncTo unique host (Definition.mem_window window).1 (Activity.canSync_iff.mp armed).1

theorem countFired (h : s.Accounted) (line : String) : (s.countFired line).Accounted := by
  refine h.unchanged (fun _ _ => Definition.statement?_countFired line) rfl ?_
  intro e he
  obtain ⟨t, -, ht⟩ := List.mem_flatMap.mp he
  exact aside_of_mem_firing ht

theorem follow (h : s.Accounted) (unique : s.definition.ids.Nodup) (owner : ElementId) (jump : Option Jump)
    (resume : Nat) : (s.follow owner jump resume).Accounted := by
  cases jump with
  | none =>
    have silent : (s.follow owner none resume).journal = s.journal.record [] := rfl
    exact h.unchanged (fun _ _ => rfl) silent (by simp)
  | some j =>
    cases hr : s.definition.resolve s.cursor.scope j with
    | none =>
      rw [follow_unresolved hr]
      refine h.unchanged (fun _ _ => rfl) rfl ?_
      intro e he
      rw [List.mem_singleton.mp he]
      exact ⟨rfl, fun _ => rfl⟩
    | some dest =>
      rw [follow_resolved hr]
      intro c i b hb
      dsimp only [record_definition, record_journal] at hb ⊢
      rcases Definition.statement?_rearmFrom_cases unique hb with ⟨a, -, rfl, named⟩ | ⟨hb, unnamed⟩
      · rw [Journal.since_record_rearmed named]
        exact .cleared rfl
      · rw [Journal.since_record (by simpa [Happening.rearms] using unnamed)]
        exact (h c i b hb).record_other (by simp [Happening.subject])

/-- The window gives the notices of its activities, each of them once. -/
theorem refreshWindow (h : s.Accounted) (unique : s.definition.ids.Nodup) (p : Pace) :
    (s.refreshWindow p).Accounted := by
  cases hf : s.cursor.frame with
  | none =>
    simp only [Session.refreshWindow, hf]
    exact h
  | some f =>
    simp only [Session.refreshWindow, hf]
    refine h.mapScope unique rfl rfl ?_ ?_ ?_
    · intro i a
      split
      · exact a.script_attend ..
      · rfl
    · intro e he
      obtain ⟨⟨i, a⟩, hw, he⟩ := List.mem_flatMap.mp he
      exact ⟨i, a, (Definition.mem_window hw).1, subject_of_mem_pendingNow he⟩
    · intro i a ha j acc
      split
      · rename_i shown
        obtain ⟨⟨k, b⟩, hw, rfl⟩ := List.mem_map.mp (List.contains_iff_mem.mp shown)
        cases ha.symm.trans (Definition.mem_window hw).1
        exact attend_window unique acc hw
      · rename_i hidden
        apply acc.record_other
        apply subject_ne_of_window unique (List.Subset.refl _) ha
        rintro x hx rfl
        exact hidden (List.contains_iff_mem.mpr (List.mem_map_of_mem hx))

/-- Showing the window gives no notices and latches none. -/
theorem showWindow (h : s.Accounted) (p : Pace) : (s.showWindow p).Accounted := by
  cases hf : s.cursor.frame with
  | none =>
    simp only [Session.showWindow, hf]
    exact h
  | some f =>
    simp only [Session.showWindow, hf]
    intro c i b hb
    dsimp only at hb ⊢
    rw [overWindow, Definition.statement?_mapScope] at hb
    by_cases same : c = f.scope
    · rw [if_pos same] at hb
      obtain ⟨a, ha, rfl⟩ := Option.map_eq_some_iff.mp hb
      split
      · exact (h c i a ha).congr rfl rfl rfl
      · exact h c i a ha
    · rw [if_neg same] at hb
      exact h c i b hb

theorem start (s : Session) (p : Pace) (host : Duration) : (s.start p host).Accounted := by
  apply showWindow
  intro c i a ha
  exact .cleared (Definition.latches_prepare (Definition.mem_activities.mpr ⟨c, i, ha⟩))

end Accounted

end Session

namespace Scene

open Session

variable {p : Pace} {d : Definition} {x y : Scene}

theorem Next.accounted (move : Next p x y) (unique : x.session.definition.ids.Nodup)
    (h : x.session.Accounted) : y.session.Accounted := by
  cases move with
  | tick s host =>
    refine h.unchanged (fun _ _ => rfl) rfl ?_
    intro e he
    rw [List.mem_singleton.mp he]
    exact ⟨rfl, fun _ => rfl⟩
  | hear s line host => exact h.synchronize unique line host
  | fire s line => exact h.countFired line
  | jump s t fired => exact h.follow unique _ _ _
  | execute s n f a hf ha due => exact h.strike unique ha
  | leave s n a => exact h.follow unique _ _ _
  | await s n f a hf ha early => exact h.await unique ha
  | «show» s => exact h.refreshWindow unique p
  | step | rebase | begin | finish | passOver | exhaust => exact h

theorem Reached.accounted (h : Reached p d x) (unique : d.ids.Nodup) : x.session.Accounted := by
  induction h with
  | start s host h => exact .start s p host
  | next reached move ih => exact move.accounted (reached.ids_nodup unique) ih

end Scene

end EncounterTimeline

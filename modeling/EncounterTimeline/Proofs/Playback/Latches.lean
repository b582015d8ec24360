import EncounterTimeline.Proofs.Playback.Account
import EncounterTimeline.Proofs.Playback.Nesting

/-! # Latches along a run

A jump clears the latches of the activities it lands in front of. As long as none does, an activity that is done
stays done and one whose notice is latched keeps that, and the latch of a notice is set by the move that gives it.
-/
namespace EncounterTimeline

def Frame.covers (f : Frame) (c : Scope) (i : Nat) : Bool := c = f.scope && f.index ≤ i

theorem Frame.covers_iff {f : Frame} {c : Scope} {i : Nat} : f.covers c i = true ↔ c = f.scope ∧ f.index ≤ i := by
  simp [covers]

structure Activity.Rises (a b : Activity) : Prop where
  script : b.script = a.script
  done : a.latches.done = true → b.latches.done = true
  notified : a.latches.notified = true → b.latches.notified = true

namespace Activity

variable (a : Activity) (clock base window : Float)

theorem Rises.refl : a.Rises a := ⟨rfl, fun h => h, fun h => h⟩

theorem rises_skip : a.Rises a.skip := ⟨rfl, fun _ => rfl, fun h => h⟩

theorem rises_latchSync : a.Rises a.latchSync := ⟨rfl, fun h => h, fun h => h⟩

theorem rises_execute : a.Rises (a.execute clock base window) := ⟨rfl, fun _ => rfl, fun _ => rfl⟩

theorem rises_attend : a.Rises (a.attend clock base window) := by
  unfold attend
  split
  · exact ⟨rfl, fun h => h, fun _ => rfl⟩
  · exact ⟨rfl, fun h => h, fun h => h⟩

end Activity

namespace Definition

variable {d : Definition} {c s : Scope} {i j : Nat} {a : Activity}

theorem exists_rises_mapScope {g : Nat → Activity → Activity} (hg : ∀ i (a : Activity), a.Rises (g i a))
    (ha : d.statement? c i = some a) : ∃ b, (d.mapScope s g).statement? c i = some b ∧ a.Rises b := by
  rw [statement?_mapScope, ha]
  split
  · exact ⟨_, rfl, hg i a⟩
  · exact ⟨a, rfl, .refl a⟩

theorem exists_rises_modifyStatement {g : Activity → Activity} (hg : ∀ a : Activity, a.Rises (g a))
    (ha : d.statement? c i = some a) : ∃ b, (d.modifyStatement s j g).statement? c i = some b ∧ a.Rises b := by
  refine exists_rises_mapScope ?_ ha
  intro i a
  split
  · exact hg a
  · exact .refl a

theorem exists_of_mapScope {α : Type} {g : Nat → Activity → Activity} {b : Activity}
    (hb : (d.mapScope s g).statement? c i = some b) (trait : Activity → α) (hg : ∀ i a, trait (g i a) = trait a) :
    ∃ a, d.statement? c i = some a ∧ trait b = trait a := by
  rw [statement?_mapScope] at hb
  split at hb
  · obtain ⟨a, ha, rfl⟩ := Option.map_eq_some_iff.mp hb
    exact ⟨a, ha, hg i a⟩
  · exact ⟨b, hb, rfl⟩

theorem exists_of_modifyStatement {α : Type} {g : Activity → Activity} {b : Activity}
    (hb : (d.modifyStatement s j g).statement? c i = some b) (trait : Activity → α)
    (hg : ∀ a, trait (g a) = trait a) : ∃ a, d.statement? c i = some a ∧ trait b = trait a := by
  refine exists_of_mapScope hb trait ?_
  intro i a
  split
  · exact hg a
  · rfl

end Definition

namespace Session

variable {α : Type} {p : Pace} {s : Session} {c : Scope} {i : Nat} {b : Activity} (trait : Activity → α)

theorem exists_of_overWindow {f : Frame} {g : Activity → Activity} (hb : (s.overWindow p f g).statement? c i = some b)
    (hg : ∀ a, trait (g a) = trait a) : ∃ a, s.definition.statement? c i = some a ∧ trait b = trait a := by
  refine Definition.exists_of_mapScope hb trait ?_
  intro i a
  split
  · exact hg a
  · rfl

theorem exists_of_showWindow (hb : (s.showWindow p).definition.statement? c i = some b)
    (hg : ∀ (a : Activity) clock base window, trait (a.display clock base window) = trait a) :
    ∃ a, s.definition.statement? c i = some a ∧ trait b = trait a := by
  cases hf : s.cursor.frame with
  | none =>
    simp only [showWindow, hf] at hb
    exact ⟨b, hb, rfl⟩
  | some f =>
    simp only [showWindow, hf] at hb
    exact exists_of_overWindow trait hb fun a => hg a ..

theorem exists_of_refreshWindow (hb : (s.refreshWindow p).definition.statement? c i = some b)
    (hg : ∀ (a : Activity) clock base window, trait (a.attend clock base window) = trait a) :
    ∃ a, s.definition.statement? c i = some a ∧ trait b = trait a := by
  cases hf : s.cursor.frame with
  | none =>
    simp only [refreshWindow, hf] at hb
    exact ⟨b, hb, rfl⟩
  | some f =>
    rw [refreshWindow_of_frame hf] at hb
    exact exists_of_overWindow trait hb fun a => hg a ..

/-- What showing the window leaves alone is as in latches that are clear when a run starts. -/
theorem trait_start {host : Duration} (hb : (s.start p host).definition.statement? c i = some b) {v : α}
    (hg : ∀ (a : Activity) clock base window, trait (a.display clock base window) = trait a)
    (clear : ∀ a : Activity, a.latches = {} → trait a = v) : trait b = v := by
  obtain ⟨a, ha, same⟩ := exists_of_showWindow trait hb hg
  exact same.trans (clear a (Definition.latches_prepare (Definition.mem_activities.mpr ⟨c, i, ha⟩)))

end Session

theorem Session.mem_pendingNow_of_attend {s : Session} {a : Activity} {base window : Float} {text : String}
    (fresh : a.latches.notified = false) (latched : (a.attend s.clock base window).latches.notified = true)
    (ht : a.cue.noticeText = some text) : .notice (s.activityNotice a text) ∈ s.pendingNow base a := by
  rw [mem_pendingNow, mem_pending]
  unfold Activity.attend at latched
  split at latched
  · rename_i due
    exact ⟨due, text, fresh, ht, rfl⟩
  · cases fresh.symm.trans latched

namespace Session

variable {p : Pace} {s : Session} {c : Scope} {i : Nat} {a : Activity}

def landing? (s : Session) (jump : Option Jump) : Option Frame :=
  jump.bind fun j => (s.definition.resolve s.cursor.scope j).map (Cursor.entry s.definition s.clock)

/-- A jump clears the latches of what lies ahead of where it lands. -/
theorem statement?_follow (s : Session) (owner : ElementId) (jump : Option Jump) (resume : Nat) :
    (s.follow owner jump resume).definition.statement? c i =
      if (s.landing? jump).any fun f => f.covers c i then (s.definition.statement? c i).map Activity.rearm
      else s.definition.statement? c i := by
  cases jump with
  | none => rfl
  | some j =>
    cases hr : s.definition.resolve s.cursor.scope j with
    | none =>
      rw [follow_unresolved hr]
      simp [landing?, hr]
    | some dest =>
      rw [follow_resolved hr]
      simp only [record_definition, Definition.statement?_rearmFrom, landing?, Option.bind_some, hr, Option.map_some,
        Option.any_some, Frame.covers_iff]

/-- An activity whose notice is latched on the way from one session to the next is given that notice. -/
def Announces (s t : Session) (c : Scope) (i : Nat) : Prop :=
  ∀ a b text, s.definition.statement? c i = some a → a.latches.notified = false →
    t.definition.statement? c i = some b → b.latches.notified = true → a.cue.noticeText = some text →
    ∃ es, t.journal = s.journal.record es ∧ .notice (s.activityNotice a text) ∈ es

theorem Announces.of_kept {t : Session} (kept : ∀ b, t.definition.statement? c i = some b → b.latches.notified = true →
    ∃ a, s.definition.statement? c i = some a ∧ a.latches.notified = true) : s.Announces t c i := by
  intro a b text ha fresh hb latched
  obtain ⟨a', ha', latched⟩ := kept b hb latched
  cases ha.symm.trans ha'
  cases fresh.symm.trans latched

theorem announces_syncTo (s : Session) (f : Frame) (m : SyncMatch) (host : Duration) :
    s.Announces (s.syncTo f m host) c i := by
  apply Announces.of_kept
  intro b hb latched
  obtain ⟨a, ha, same⟩ := Definition.exists_of_mapScope hb (fun a => a.latches.notified) <| by
    intro i a
    split
    · rfl
    · split <;> rfl
  exact ⟨a, ha, same ▸ latched⟩

theorem announces_follow (s : Session) (owner : ElementId) (jump : Option Jump) (resume : Nat) :
    s.Announces (s.follow owner jump resume) c i := by
  apply Announces.of_kept
  intro b hb latched
  rw [statement?_follow] at hb
  split at hb
  · obtain ⟨a, -, rfl⟩ := Option.map_eq_some_iff.mp hb
    cases latched
  · exact ⟨b, hb, latched⟩

theorem announces_strike {f : Frame} (hf : f.activity? s.definition = some a) : s.Announces (s.strike p f a) c i := by
  intro a' b text ha fresh hb latched ht
  dsimp only [strike, record_definition] at hb
  rw [Definition.statement?_modifyStatement, ha] at hb
  split at hb
  · rename_i here
    obtain ⟨rfl, rfl⟩ := here
    cases ha.symm.trans hf
    exact ⟨_, rfl, List.mem_append_left _ (mem_pending.mpr ⟨text, fresh, ht, rfl⟩)⟩
  · cases hb
    cases fresh.symm.trans latched

theorem announces_await {f : Frame} (hf : f.activity? s.definition = some a) : s.Announces (s.await p f a) c i := by
  intro a' b text ha fresh hb latched ht
  dsimp only [Session.await, record_definition] at hb
  rw [Definition.statement?_modifyStatement, ha] at hb
  split at hb
  · rename_i here
    obtain ⟨rfl, rfl⟩ := here
    cases ha.symm.trans hf
    cases hb
    exact ⟨_, rfl, mem_pendingNow_of_attend fresh latched ht⟩
  · cases hb
    cases fresh.symm.trans latched

theorem announces_refreshWindow (p : Pace) (s : Session) : s.Announces (s.refreshWindow p) c i := by
  intro a b text ha fresh hb latched ht
  cases hf : s.cursor.frame with
  | none =>
    simp only [refreshWindow, hf] at hb
    cases ha.symm.trans hb
    cases fresh.symm.trans latched
  | some f =>
    rw [refreshWindow_of_frame hf] at hb ⊢
    dsimp only [record_definition, overWindow] at hb
    rw [Definition.statement?_mapScope, ha] at hb
    split at hb
    · rename_i scope
      subst scope
      rw [Option.map_some, Option.some.injEq] at hb
      split at hb
      · rename_i shown
        obtain ⟨⟨k, a'⟩, hw, rfl⟩ := List.mem_map.mp (List.contains_iff_mem.mp shown)
        cases ha.symm.trans (Definition.mem_window hw).1
        subst hb
        exact ⟨_, rfl, List.mem_flatMap.mpr ⟨_, hw, mem_pendingNow_of_attend fresh latched ht⟩⟩
      · subst hb
        cases fresh.symm.trans latched
    · cases hb
      cases fresh.symm.trans latched

end Session

namespace Scene

open Session

variable {p : Pace} {x y : Scene} {c : Scope} {i : Nat} {a b : Activity}

def landing? (x : Scene) : Option Frame := x.session.landing? x.jumpAhead

def clears (x : Scene) (c : Scope) (i : Nat) : Bool := x.landing?.any fun f => f.covers c i

def executes (x : Scene) (c : Scope) (i : Nat) : Bool :=
  match x.stage, x.session.cursor.frame with
  | .playing (_ + 1), some f =>
    c = f.scope && i = f.index && (f.activity? x.session.definition).any fun a => a.isDue x.session.clock f.base
  | _, _ => false

theorem executes_iff : x.executes c i = true ↔ ∃ n f a, x.stage = .playing (n + 1) ∧
    x.session.cursor.frame = some f ∧ c = f.scope ∧ i = f.index ∧ f.activity? x.session.definition = some a ∧
      a.isDue x.session.clock f.base = true := by
  obtain ⟨stage, s⟩ := x
  constructor
  · intro h
    unfold executes at h
    split at h
    · rename_i n f hs hf
      simp only [Bool.and_eq_true, decide_eq_true_eq, Option.any_eq_true] at h
      obtain ⟨⟨scope, index⟩, a, ha, due⟩ := h
      exact ⟨n, f, a, hs, hf, scope, index, ha, due⟩
    · cases h
  · rintro ⟨n, f, a, rfl, hf, scope, index, ha, due⟩
    dsimp only at hf ha due
    simp [executes, hf, scope, index, ha, due]

theorem Next.rearm (move : Next p x y) (h : x.clears c i = true) :
    y.session.definition.statement? c i = (x.session.definition.statement? c i).map Activity.rearm := by
  cases move with
  | jump s t fired => exact (statement?_follow ..).trans (if_pos h)
  | leave s n a => exact (statement?_follow ..).trans (if_pos h)
  | _ => cases h

theorem Next.rises (move : Next p x y) (h : x.clears c i = false)
    (ha : x.session.definition.statement? c i = some a) :
    ∃ b, y.session.definition.statement? c i = some b ∧ a.Rises b := by
  cases move with
  | tick | step | rebase | begin | finish | passOver | exhaust => exact ⟨a, ha, .refl a⟩
  | hear s line host =>
    rcases synchronize_cases p s line host with he | ⟨f, m, -, -, he⟩
    · exact ⟨a, by rw [he]; exact ha, .refl a⟩
    · simp only [he]
      refine Definition.exists_rises_mapScope ?_ ha
      intro i a
      split
      · exact a.rises_latchSync
      · split
        · exact a.rises_skip
        · exact .refl a
  | fire s line => exact ⟨a, (Definition.statement?_countFired line).trans ha, .refl a⟩
  | jump s t fired =>
    have kept := (statement?_follow s t.id t.rule.jump 0).trans (if_neg (Bool.eq_false_iff.mp h))
    exact ⟨a, kept.trans ha, .refl a⟩
  | leave s n b =>
    have kept := (statement?_follow s b.id b.cue.jump 1).trans (if_neg (Bool.eq_false_iff.mp h))
    exact ⟨a, kept.trans ha, .refl a⟩
  | execute s n f b => exact Definition.exists_rises_modifyStatement (fun a => a.rises_execute ..) ha
  | await s n f b => exact Definition.exists_rises_modifyStatement (fun a => a.rises_attend ..) ha
  | «show» s =>
    cases hf : s.cursor.frame with
    | none => exact ⟨a, by simp only [refreshWindow, hf]; exact ha, .refl a⟩
    | some f =>
      rw [refreshWindow_of_frame hf]
      refine Definition.exists_rises_mapScope ?_ ha
      intro i a
      split
      · exact a.rises_attend ..
      · exact .refl a

/-- The move that latches the notice of an activity gives it. -/
theorem Next.announces (move : Next p x y) (c : Scope) (i : Nat) : x.session.Announces y.session c i := by
  cases move with
  | tick | step | rebase | begin | finish | passOver | exhaust => exact .of_kept fun b hb latched => ⟨b, hb, latched⟩
  | hear s line host =>
    rcases synchronize_cases p s line host with he | ⟨f, m, -, -, he⟩
    · rw [he]
      exact .of_kept fun b hb latched => ⟨b, hb, latched⟩
    · rw [he]
      exact announces_syncTo s f m host
  | fire s line => exact .of_kept fun b hb latched => ⟨b, (Definition.statement?_countFired line).symm.trans hb, latched⟩
  | jump s t fired => exact announces_follow s _ _ _
  | leave s n b => exact announces_follow s _ _ _
  | execute s n f b hf hb => exact announces_strike hb
  | await s n f b hf hb => exact announces_await hb
  | «show» s => exact announces_refreshWindow p s

end Scene

end EncounterTimeline

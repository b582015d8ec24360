import EncounterTimeline.Proofs.Playback.Executions
import EncounterTimeline.Proofs.Playback.Restart
import EncounterTimeline.Proofs.Playback.Unresolved

/-! # Playback without jumps

Where no activity of the root and no trigger jumps, a run passes through the root once. Its cursor divides the root:
what lies before it is done, what lies from it on is not, and the first of these show.
-/
namespace EncounterTimeline

namespace Definition

variable {d e : Definition} {visible i m n : Nat} {a : Activity}

structure Linear (d : Definition) : Prop where
  activities : ∀ i a, d.statement? .root i = some a → a.cue.jump = none
  triggers : ∀ t ∈ d.triggers, t.rule.jump = none

def rootFrom (d : Definition) (n : Nat) : List Nat :=
  (List.range' n (d.elements.length - n)).filter fun i => (d.statement? .root i).isSome

theorem scopeLength_root (d : Definition) : d.scopeLength .root = d.elements.length := by
  simp [scopeLength, places]

theorem lt_length_of_root (ha : d.statement? .root i = some a) : i < d.elements.length := by
  rw [← scopeLength_root]
  exact lt_scopeLength_of_statement? ha

theorem mem_rootFrom : i ∈ d.rootFrom n ↔ n ≤ i ∧ ∃ a, d.statement? .root i = some a := by
  rw [rootFrom, List.mem_filter, List.mem_range'_1, Option.isSome_iff_exists]
  constructor
  · rintro ⟨⟨le, -⟩, ha⟩
    exact ⟨le, ha⟩
  · rintro ⟨le, a, ha⟩
    have lt := lt_length_of_root ha
    exact ⟨⟨le, by omega⟩, a, ha⟩

theorem length_congr (h : d.script = e.script) : d.elements.length = e.elements.length := by
  rw [← scopeLength_root, scopeLength_congr h, scopeLength_root]

theorem rootFrom_congr (h : d.script = e.script) (n : Nat) : d.rootFrom n = e.rootFrom n := by
  have same (i : Nat) : (d.statement? .root i).isSome = (e.statement? .root i).isSome := by
    have statements := congrArg (fun q => (q.statement? .root i).isSome) h
    simpa [statement?_script] using statements
  simp only [rootFrom, length_congr h, same]

theorem rootFrom_eq_append (le : m ≤ n) : ∃ between, d.rootFrom m = between ++ d.rootFrom n ∧ ∀ i ∈ between, i < n := by
  refine ⟨(List.range' m (min n d.elements.length - m)).filter fun i => (d.statement? .root i).isSome, ?_, ?_⟩
  · rcases Nat.le_total d.elements.length n with past | within
    · have none : d.elements.length - n = 0 := by omega
      simp [rootFrom, Nat.min_eq_right past, none]
    · rw [rootFrom, rootFrom, ← List.filter_append, Nat.min_eq_left within]
      have parts := List.range'_append_1 (s := m) (m := n - m) (n := d.elements.length - n)
      have start : m + (n - m) = n := by omega
      have total : n - m + (d.elements.length - n) = d.elements.length - m := by omega
      rw [start, total] at parts
      rw [parts]
  · intro i hi
    have range := List.mem_range'_1.mp (List.mem_of_mem_filter hi)
    omega

theorem mem_take_rootFrom (le : m ≤ n) (here : n ≤ i) (h : i ∈ (d.rootFrom m).take visible) :
    i ∈ (d.rootFrom n).take visible := by
  obtain ⟨between, parts, before⟩ := d.rootFrom_eq_append le
  rw [parts, List.take_append, List.mem_append] at h
  rcases h with h | h
  · exact absurd (before i (List.mem_of_mem_take h)) (Nat.not_lt.mpr here)
  · exact List.take_subset_take_left _ (Nat.sub_le ..) h

theorem mem_take_rootFrom_self (ha : d.statement? .root n = some a) (pos : 0 < visible) :
    n ∈ (d.rootFrom n).take visible := by
  have lt := lt_length_of_root ha
  obtain ⟨k, hk⟩ : ∃ k, d.elements.length - n = k + 1 := ⟨d.elements.length - n - 1, by omega⟩
  obtain ⟨v, rfl⟩ : ∃ v, visible = v + 1 := ⟨visible - 1, by omega⟩
  simp [rootFrom, hk, List.range'_succ, ha]

theorem rootFrom_of_empty (le : m ≤ n) (empty : ∀ i, m ≤ i → i < n → d.statement? .root i = none) :
    d.rootFrom m = d.rootFrom n := by
  obtain ⟨between, parts, before⟩ := d.rootFrom_eq_append le
  have nothing : between = [] := by
    rw [List.eq_nil_iff_forall_not_mem]
    intro i hi
    have listed : i ∈ d.rootFrom m := by rw [parts]; exact List.mem_append_left _ hi
    obtain ⟨from_m, a, ha⟩ := mem_rootFrom.mp listed
    cases (empty i from_m (before i hi)).symm.trans ha
  rw [parts, nothing, List.nil_append]

end Definition

namespace Session

variable {p : Pace} {s t : Session} {m n : Nat} {f : Frame} {a : Activity}

/-- The root is done up to a place, what shows is among the first from there on, and nothing is latched elsewhere. -/
structure PlayedTo (p : Pace) (s : Session) (n : Nat) : Prop where
  done : ∀ i a, s.definition.statement? .root i = some a → (a.latches.done = true ↔ i < n)
  active : ∀ i a, s.definition.statement? .root i = some a → a.latches.active = true →
    i ∈ (s.definition.rootFrom n).take p.visible
  inner : ∀ k i a, s.definition.statement? (.subroutine k) i = some a → a.latches = {}

namespace PlayedTo

theorem congr (h : s.PlayedTo p n) (script : t.definition.script = s.definition.script)
    (same : ∀ c i, t.definition.statement? c i = s.definition.statement? c i) : t.PlayedTo p n := by
  refine ⟨?_, ?_, ?_⟩
  · intro i a ha
    rw [same] at ha
    exact h.done i a ha
  · intro i a ha active
    rw [same] at ha
    rw [Definition.rootFrom_congr script]
    exact h.active i a ha active
  · intro k i a ha
    rw [same] at ha
    exact h.inner k i a ha

theorem past (h : s.PlayedTo p m) (le : m ≤ n)
    (empty : ∀ i, m ≤ i → i < n → s.definition.statement? .root i = none) : s.PlayedTo p n := by
  refine ⟨?_, ?_, h.inner⟩
  · intro i a ha
    rw [h.done i a ha]
    constructor
    · omega
    · intro lt
      by_contra ge
      cases (empty i (Nat.not_lt.mp ge) lt).symm.trans ha
  · rw [← Definition.rootFrom_of_empty le empty]
    exact h.active

theorem mapRoot (h : s.PlayedTo p m) {g : Nat → Activity → Activity}
    (hd : t.definition = s.definition.mapScope .root g) (scripts : ∀ i a, (g i a).script = a.script)
    (done : ∀ i a, s.definition.statement? .root i = some a → ((g i a).latches.done = true ↔ i < n))
    (active : ∀ i a, s.definition.statement? .root i = some a → (g i a).latches.active = true →
      i ∈ (s.definition.rootFrom n).take p.visible) : t.PlayedTo p n := by
  refine ⟨?_, ?_, ?_⟩
  · intro i b hb
    rw [hd, Definition.statement?_mapScope, if_pos rfl] at hb
    obtain ⟨a, ha, rfl⟩ := Option.map_eq_some_iff.mp hb
    exact done i a ha
  · intro i b hb shows
    rw [hd, Definition.statement?_mapScope, if_pos rfl] at hb
    obtain ⟨a, ha, rfl⟩ := Option.map_eq_some_iff.mp hb
    rw [hd, Definition.rootFrom_congr (Definition.script_mapScope scripts)]
    exact active i a ha shows
  · intro k i b hb
    rw [hd, Definition.statement?_mapScope, if_neg (by simp)] at hb
    exact h.inner k i b hb

theorem active_from (h : s.PlayedTo p m) (le : m ≤ n) {i : Nat} (ha : s.definition.statement? .root i = some a)
    (shows : a.latches.active = true) (here : n ≤ i) : i ∈ (s.definition.rootFrom n).take p.visible :=
  Definition.mem_take_rootFrom le here (h.active i a ha shows)

theorem le_of_active (h : s.PlayedTo p n) {i : Nat} (ha : s.definition.statement? .root i = some a)
    (shows : a.latches.active = true) : n ≤ i :=
  (Definition.mem_rootFrom.mp (List.mem_of_mem_take (h.active i a ha shows))).1

theorem strike (h : s.PlayedTo p f.index) (root : f.scope = .root) (b : Activity) :
    (s.strike p f b).PlayedTo p (f.index + 1) := by
  refine h.mapRoot (by rw [← root]; rfl) ?_ ?_ ?_
  · intro i a
    split <;> rfl
  · intro i a ha
    split
    · rename_i here
      exact iff_of_true rfl (by omega)
    · rw [h.done i a ha]
      omega
  · intro i a ha shows
    split at shows
    · cases shows
    · have le := h.le_of_active ha shows
      exact h.active_from (Nat.le_succ _) ha shows (by omega)

theorem await (h : s.PlayedTo p f.index) (root : f.scope = .root) (ha : f.activity? s.definition = some a) :
    (s.await p f a).PlayedTo p f.index := by
  rw [Frame.activity?, root] at ha
  refine h.mapRoot (by rw [← root]; rfl) ?_ ?_ ?_
  · intro i a
    split
    · exact a.script_attend ..
    · rfl
  · intro i b hb
    split
    · rw [Activity.done_attend]
      exact h.done i b hb
    · exact h.done i b hb
  · intro i b hb shows
    split at shows
    · rename_i here
      subst here
      exact Definition.mem_take_rootFrom_self ha p.visible_pos
    · exact h.active i b hb shows

theorem syncTo {k : SyncMatch} (h : s.PlayedTo p f.index) (root : f.scope = .root) (le : f.index ≤ k.index)
    (hk : s.definition.statement? .root k.index = some a) (host : Duration) :
    (s.syncTo f k host).PlayedTo p k.index := by
  refine h.mapRoot (by rw [← root]; rfl) ?_ ?_ ?_
  · intro i a
    split
    · rfl
    · split <;> rfl
  · intro i b hb
    have played := h.done i b hb
    split
    · rename_i here
      subst here
      rw [show b.latchSync.latches.done = b.latches.done from rfl, played]
      omega
    · split
      · rename_i between
        simp only [Bool.and_eq_true, decide_eq_true_eq] at between
        exact iff_of_true rfl between.2
      · rename_i outside
        simp only [Bool.and_eq_true, decide_eq_true_eq] at outside
        rw [played]
        omega
  · intro i b hb shows
    split at shows
    · rename_i here
      subst here
      exact Definition.mem_take_rootFrom_self hk p.visible_pos
    · split at shows
      · cases shows
      · rename_i outside
        simp only [Bool.and_eq_true, decide_eq_true_eq] at outside
        have from_f := h.le_of_active hb shows
        exact h.active_from le hb shows (by omega)

/-- The window is the first activities from its frame on. -/
theorem map_fst_window (h : s.PlayedTo p f.index) (root : f.scope = .root) :
    (s.definition.window f p.visible).map Prod.fst = (s.definition.rootFrom f.index).take p.visible := by
  rw [Definition.map_fst_window, root, Definition.scopeLength_root, Definition.rootFrom]
  congr 1
  apply List.filter_congr
  intro i range
  cases ha : s.definition.statement? .root i with
  | none => rfl
  | some a =>
    have later : a.latches.done = false := by
      rw [← Bool.not_eq_true, h.done i a ha]
      exact Nat.not_lt.mpr (List.mem_range'_1.mp range).1
    simp [later]

theorem overWindow (h : s.PlayedTo p f.index) (root : f.scope = .root) {g : Activity → Activity}
    (hd : t.definition = s.overWindow p f g) (scripts : ∀ a, (g a).script = a.script)
    (done : ∀ a, (g a).latches.done = a.latches.done) : t.PlayedTo p f.index := by
  rw [Session.overWindow, h.map_fst_window root, root] at hd
  refine h.mapRoot hd ?_ ?_ ?_
  · intro i a
    split
    · exact scripts a
    · rfl
  · intro i a ha
    split
    · rw [done]
      exact h.done i a ha
    · exact h.done i a ha
  · intro i a ha shows
    split at shows
    · rename_i shown
      exact List.contains_iff_mem.mp shown
    · exact h.active i a ha shows

end PlayedTo

end Session

namespace Cursor

variable {d : Definition} {f : Frame}

def position (c : Cursor) (d : Definition) : Nat := (c.frame.map Frame.index).getD d.elements.length

theorem ofFrames_root (root : f.scope = .root) (le : f.index ≤ d.elements.length) :
    (ofFrames d [f]).returns = [] ∧
      (∀ g, (ofFrames d [f]).frame = some g → g.scope = .root ∧ g.base = f.base) ∧
      f.index ≤ (ofFrames d [f]).position d ∧
      ∀ i, f.index ≤ i → i < (ofFrames d [f]).position d → d.statement? .root i = none := by
  cases hf : f.settle? d with
  | none =>
    rw [ofFrames_cons_of_none hf]
    have empty := Frame.settle?_eq_none_iff.mp hf
    rw [root] at empty
    exact ⟨rfl, fun g hg => (by cases hg), le, fun i here _ => empty i here⟩
  | some g =>
    rw [ofFrames_cons_of_some hf]
    obtain ⟨scope, base, forward, -, empty⟩ := Frame.settle?_eq_some hf
    rw [root] at scope empty
    refine ⟨rfl, ?_, forward, empty⟩
    intro g' hg
    cases hg
    exact ⟨scope, base⟩

end Cursor

namespace Scene

open Session

variable {p : Pace} {d : Definition} {x y : Scene}

def place (x : Scene) : Nat :=
  (x.session.cursor.frame.map fun f => f.index + x.resume).getD x.session.definition.elements.length

structure Straight (p : Pace) (x : Scene) : Prop where
  returns : x.session.cursor.returns = []
  frame : ∀ f, x.session.cursor.frame = some f → f.scope = .root ∧ f.base = 0.0
  played : x.session.PlayedTo p x.place

theorem place_of_frame {f : Frame} (hf : x.session.cursor.frame = some f) : x.place = f.index + x.resume := by
  simp [place, hf]

theorem place_congr (frame : y.session.cursor.frame = x.session.cursor.frame) (resume : y.resume = x.resume)
    (script : y.session.definition.script = x.session.definition.script) : y.place = x.place := by
  rw [place, place, frame, resume, Definition.length_congr script]

theorem Straight.settle {s : Session} {f : Frame} (root : f.scope = .root) (base : f.base = 0.0)
    (le : f.index ≤ s.definition.elements.length) (played : s.PlayedTo p f.index) :
    let y : Scene := ⟨.rest, { s with cursor := Cursor.ofFrames s.definition [f] }⟩
    y.Straight p ∧ f.index ≤ y.place := by
  intro y
  obtain ⟨returns, frame, forward, empty⟩ := Cursor.ofFrames_root root le
  refine ⟨⟨returns, ?_, ?_⟩, forward⟩
  · intro g hg
    obtain ⟨scope, same⟩ := frame g hg
    exact ⟨scope, same.trans base⟩
  · exact (played.past forward empty).congr rfl fun _ _ => rfl

theorem Straight.of_frame {f : Frame} (hf : x.session.cursor.frame = some f) (returns : x.session.cursor.returns = [])
    (root : f.scope = .root) (base : f.base = 0.0) (played : x.session.PlayedTo p (f.index + x.resume)) :
    x.Straight p := by
  refine ⟨returns, ?_, ?_⟩
  · intro g hg
    cases hf.symm.trans hg
    exact ⟨root, base⟩
  · rw [place_of_frame hf]
    exact played

theorem Straight.overWindow {s t : Session} (h : Straight p ⟨.rest, s⟩) {f : Frame} (hf : s.cursor.frame = some f)
    {g : Activity → Activity} (cursor : t.cursor = s.cursor) (hd : t.definition = s.overWindow p f g)
    (scripts : ∀ a, (g a).script = a.script) (done : ∀ a, (g a).latches.done = a.latches.done) :
    Straight p ⟨.rest, t⟩ := by
  obtain ⟨root, base⟩ := h.frame f hf
  have played := h.played
  rw [place_of_frame hf] at played
  rw [← cursor] at hf
  exact .of_frame hf (cursor ▸ h.returns) root base (played.overWindow root hd scripts done)

theorem Straight.showWindow {s : Session} (h : Straight p ⟨.rest, s⟩) : Straight p ⟨.rest, s.showWindow p⟩ := by
  cases hf : s.cursor.frame with
  | none =>
    simp only [Session.showWindow, hf]
    exact h
  | some f =>
    simp only [Session.showWindow, hf]
    exact h.overWindow hf rfl rfl (fun a => a.script_display ..) fun _ => rfl

theorem Straight.refreshWindow {s : Session} (h : Straight p ⟨.rest, s⟩) : Straight p ⟨.rest, s.refreshWindow p⟩ := by
  cases hf : s.cursor.frame with
  | none =>
    simp only [Session.refreshWindow, hf]
    exact h
  | some f =>
    rw [refreshWindow_of_frame hf]
    exact h.overWindow hf rfl rfl (fun a => a.script_attend ..) fun a => a.done_attend ..

theorem Straight.leave {s : Session} {n : Nat} {b : Activity} (h : Straight p ⟨.leaving b n, s⟩) (placed : s.Placed)
    (still : b.cue.jump = none) :
    Straight p ⟨.playing n, s.follow b.id b.cue.jump 1⟩ ∧
      Scene.place ⟨.leaving b n, s⟩ ≤ Scene.place ⟨.playing n, s.follow b.id b.cue.jump 1⟩ := by
  have returns : s.cursor.returns = [] := h.returns
  rw [still, follow_none]
  cases hf : s.cursor.frame with
  | none =>
    have stays : s.cursor.passBy s.definition 1 = s.cursor := by
      simp only [Cursor.passBy, Nat.zero_lt_one, if_true, Cursor.advance, Cursor.settle, hf, Option.map_none]
      rw [← hf]
    have place : Scene.place ⟨.playing n, s⟩ = Scene.place ⟨.leaving b n, s⟩ := by simp [Scene.place, hf]
    rw [stays]
    exact ⟨⟨returns, h.frame, place ▸ h.played⟩, Nat.le_of_eq place.symm⟩
  | some f =>
    obtain ⟨root, base⟩ := h.frame f hf
    obtain ⟨a, ha⟩ := placed.current f hf
    rw [Frame.activity?, root] at ha
    have played := h.played
    rw [place_of_frame hf] at played ⊢
    have advanced : s.cursor.passBy s.definition 1 = Cursor.ofFrames s.definition [{ f with index := f.index + 1 }] := by
      simp only [Cursor.passBy, Nat.zero_lt_one, if_true, Cursor.advance, Cursor.settle, hf, Option.map_some, returns]
    have le : f.index + 1 ≤ s.definition.elements.length := Definition.lt_length_of_root ha
    obtain ⟨settled, forward⟩ := Straight.settle (f := { f with index := f.index + 1 }) root base le played
    rw [advanced]
    exact ⟨⟨settled.returns, settled.frame, settled.played⟩, forward⟩

theorem Next.straight (move : Next p x y) (placed : x.session.Placed) (h : x.Straight p) (still : x.jumpAhead = none) :
    y.Straight p ∧ x.place ≤ y.place := by
  have played {f : Frame} (hf : x.session.cursor.frame = some f) : x.session.PlayedTo p (f.index + x.resume) := by
    rw [← place_of_frame hf]
    exact h.played
  cases move with
  | tick s host | rebase s clock => exact ⟨⟨h.returns, h.frame, h.played.congr rfl fun _ _ => rfl⟩, Nat.le_refl _⟩
  | step | begin | finish | exhaust => exact ⟨⟨h.returns, h.frame, h.played⟩, Nat.le_refl _⟩
  | hear s line host =>
    rcases synchronize_cases p s line host with he | ⟨f, k, hf, hm, he⟩
    · rw [he]
      exact ⟨⟨h.returns, h.frame, h.played⟩, Nat.le_refl _⟩
    · rw [he]
      obtain ⟨root, base⟩ := h.frame f hf
      obtain ⟨hk, le, -⟩ := Definition.mem_window (Definition.findSync_eq_some hm).1
      rw [root] at hk
      have moved := frame_syncTo hf k host
      refine ⟨.of_frame moved h.returns root base ((played hf).syncTo root le hk host), ?_⟩
      rw [place_of_frame hf, place_of_frame moved]
      exact le
  | fire s line =>
    have script := Definition.script_countFired (d := s.definition) line
    have place : Scene.place ⟨.jumping (s.definition.firedBy line), s.countFired line⟩ =
        Scene.place ⟨.hearing line, s⟩ := place_congr rfl rfl script
    refine ⟨⟨h.returns, h.frame, ?_⟩, Nat.le_of_eq place.symm⟩
    rw [place]
    exact h.played.congr script fun _ _ => Definition.statement?_countFired line
  | jump s t fired =>
    have stays : s.follow t.id t.rule.jump 0 = s := by
      rw [show t.rule.jump = none from still]
      rfl
    rw [stays]
    exact ⟨⟨h.returns, h.frame, h.played⟩, Nat.le_refl _⟩
  | leave s n b => exact h.leave placed still
  | passOver s n f hf ha =>
    -- The cursor never stands where no activity is.
    obtain ⟨a, stands⟩ := placed.current f hf
    cases ha.symm.trans stands
  | execute s n f b hf hb =>
    obtain ⟨root, base⟩ := h.frame f hf
    have left : (s.strike p f b).cursor.frame = some f := hf
    refine ⟨.of_frame left h.returns root base ((played hf).strike root b), ?_⟩
    rw [place_of_frame hf, place_of_frame left]
    exact Nat.add_le_add_left (Nat.zero_le _) _
  | await s n f b hf hb =>
    obtain ⟨root, base⟩ := h.frame f hf
    have waits : (s.await p f b).cursor.frame = some f := hf
    refine ⟨.of_frame waits h.returns root base ((played hf).await root hb), ?_⟩
    rw [place_of_frame hf, place_of_frame waits]
    exact Nat.le_refl _
  | «show» s =>
    have frame := congrArg Cursor.frame (cursor_refreshWindow p s)
    have place : Scene.place ⟨.rest, s.refreshWindow p⟩ = Scene.place ⟨.showing, s⟩ :=
      place_congr frame rfl (script_refreshWindow p s)
    exact ⟨Straight.refreshWindow ⟨h.returns, h.frame, h.played⟩, Nat.le_of_eq place.symm⟩

variable {s : Session}

theorem straight_start (s : Session) (host : Duration) : Straight p ⟨.rest, s.start p host⟩ := by
  have fresh : PlayedTo p { s with definition := s.definition.prepare, clock := 0.0, lastHost := host, journal := [] } 0 := by
    have clear {c : Scope} {i : Nat} {a : Activity} (ha : s.definition.prepare.statement? c i = some a) :
        a.latches = {} :=
      Definition.latches_prepare (Definition.mem_activities.mpr ⟨c, i, ha⟩)
    refine ⟨?_, ?_, fun k i a ha => clear ha⟩
    · intro i a ha
      rw [clear ha]
      exact iff_of_false Bool.false_ne_true (Nat.not_lt_zero i)
    · intro i a ha active
      rw [clear ha] at active
      cases active
  obtain ⟨settled, -⟩ := Straight.settle (f := .start) rfl rfl (Nat.zero_le _) fresh
  rw [start]
  exact settled.showWindow

/-- Nothing jumps in a run of such a definition. -/
theorem Reached.jumpAhead_eq_none (h : Reached p d x) (linear : d.Linear) (straight : x.Straight p) :
    x.jumpAhead = none := by
  obtain ⟨stage, s⟩ := x
  cases stage with
  | leaving a n =>
    obtain ⟨f, b, hf, hb, -, cue⟩ := h.stands
    obtain ⟨root, -⟩ := straight.frame f hf
    rw [Frame.activity?, root] at hb
    rw [show jumpAhead ⟨.leaving a n, s⟩ = a.cue.jump from rfl, ← cue]
    exact linear.activities f.index b hb
  | jumping fired =>
    cases fired with
    | nil => rfl
    | cons t fired =>
      obtain ⟨u, hu, -, rule⟩ := h.mem_triggers t List.mem_cons_self
      rw [show jumpAhead ⟨.jumping (t :: fired), s⟩ = t.rule.jump from rfl, ← rule]
      exact linear.triggers u hu
  | _ => rfl

theorem Reached.straight (h : Reached p d x) (linear : d.Linear) : x.Straight p := by
  induction h with
  | start s host => exact straight_start s host
  | next reached move ih => exact (move.straight reached.placed ih (reached.jumpAhead_eq_none linear ih)).1

theorem Path.place_le (path : Path p x y) (h : Reached p d x) (linear : d.Linear) : x.place ≤ y.place := by
  induction path with
  | refl => exact Nat.le_refl _
  | tail path move ih =>
    have reached := h.along path
    have straight := reached.straight linear
    exact Nat.le_trans ih (move.straight reached.placed straight (reached.jumpAhead_eq_none linear straight)).2

theorem Reached.shown (h : Reached p d ⟨.rest, s⟩) : s.Shown p := by
  generalize hx : (⟨.rest, s⟩ : Scene) = x at h
  induction h generalizing s with
  | start s₀ host =>
    cases hx
    exact shown_showWindow p _
  | next reached move ih =>
    cases move with
    | rebase s₀ clock =>
      cases hx
      have before : s₀.Shown p := ih rfl
      exact before
    | «show» s =>
      cases hx
      exact shown_refreshWindow p s
    | _ => cases hx

end Scene

def Session.position (s : Session) : Nat := s.cursor.position s.definition

/-- Without jumps at the root or of triggers, after every operation nothing is pending, the root is done up to the
cursor and not from there on, just the first activities from there on show, what subroutines hold is untouched, and
no operation moves back. -/
theorem Session.linear_playback (p : Pace) (s : Session) (host : Duration) (ops : List Operation)
    (linear : s.definition.Linear) :
    let t := (s.start p host).run p ops
    t.cursor.returns = [] ∧
    (∀ f, t.cursor.frame = some f → f.scope = .root ∧ f.base = 0.0) ∧
    (∀ i a, t.definition.statement? .root i = some a → i < t.position →
      a.latches.done = true ∧ a.latches.active = false) ∧
    (∀ i a, t.definition.statement? .root i = some a → t.position ≤ i →
      a.latches.done = false ∧
        (a.latches.active = true ↔ i ∈ (t.definition.rootFrom t.position).take p.visible)) ∧
    (t.cursor.frame = none → ∀ i a, t.definition.statement? .root i = some a → a.latches.done = true) ∧
    (∀ k i a, t.definition.statement? (.subroutine k) i = some a → a.latches = {}) ∧
    ∀ o, t.position ≤ (t.perform p o).position := by
  intro t
  have reached : Scene.Reached p s.definition ⟨.rest, t⟩ := (Scene.Reached.start s host rfl).run ops
  have straight := reached.straight linear
  have played : t.PlayedTo p t.position := straight.played
  have finished (hf : t.cursor.frame = none) : t.position = t.definition.elements.length := by
    simp [position, Cursor.position, hf]
  refine ⟨straight.returns, straight.frame, ?_, ?_, ?_, played.inner, ?_⟩
  · intro i a ha before
    refine ⟨(played.done i a ha).mpr before, ?_⟩
    by_contra shows
    exact Nat.not_lt.mpr (played.le_of_active ha (Bool.not_eq_false _ ▸ shows)) before
  · intro i a ha from_here
    refine ⟨?_, played.active i a ha, ?_⟩
    · rw [← Bool.not_eq_true, played.done i a ha]
      exact Nat.not_lt.mpr from_here
    · intro first
      cases hf : t.cursor.frame with
      | none =>
        rw [finished hf] at from_here
        exact absurd (Definition.lt_length_of_root ha) (Nat.not_lt.mpr from_here)
      | some f =>
        obtain ⟨root, -⟩ := straight.frame f hf
        have position : t.position = f.index := by simp [position, Cursor.position, hf]
        rw [position] at played first
        rw [← played.map_fst_window root] at first
        obtain ⟨⟨i, b⟩, mem, rfl⟩ := List.mem_map.mp first
        have hb := (Definition.mem_window mem).1
        rw [root] at hb
        cases ha.symm.trans hb
        exact reached.shown f hf _ mem
  · intro hf i a ha
    rw [played.done i a ha, finished hf]
    exact Definition.lt_length_of_root ha
  · intro o
    exact (Scene.Path.perform t o).place_le reached linear

def phases : Session :=
  { definition :=
      { elements :=
          [.activity { id := 0, cue := {} },
            .trigger { id := 1, rule := { sync := some (.ofSource "(?-i)Wipe") } },
            .activity { id := 2, cue := { time := ⟨10000000000⟩, sync := some (.ofSource "(?-i)Phase") } },
            .activity { id := 3, cue := { time := ⟨20000000000⟩ } }] } }

/-- The line leads past the first two, and the last one shows. -/
theorem Session.linear_playback_phases :
    let t := (phases.start ({} : Settings).pace .zero).run ({} : Settings).pace [.line "Phase" .zero]
    phases.definition.Linear ∧ t.position = 3 ∧
      (∀ a, t.definition.statement? .root 0 = some a → a.latches.done = true) ∧
      ∀ a, t.definition.statement? .root 3 = some a → a.latches.done = false ∧ a.latches.active = true := by
  intro t
  have linear : phases.definition.Linear := by
    constructor
    · intro i a ha
      have mem := List.mem_of_getElem? (Definition.statement?_root.mp ha)
      simp only [phases, List.mem_cons, Element.activity.injEq, reduceCtorEq, List.not_mem_nil, or_false, false_or] at mem
      rcases mem with rfl | rfl | rfl <;> rfl
    · intro t ht
      simp only [phases, Definition.triggers, List.filterMap_cons, Element.asTrigger, List.filterMap_nil,
        List.mem_singleton] at ht
      rw [ht]
      rfl
  have position : t.position = 3 := by decide +kernel
  obtain ⟨-, -, before, behind, -⟩ := linear_playback ({} : Settings).pace phases .zero [.line "Phase" .zero] linear
  have first : 3 ∈ (t.definition.rootFrom t.position).take ({} : Settings).pace.visible := by decide +kernel
  refine ⟨linear, position, ?_, ?_⟩
  · intro a ha
    exact (before 0 a ha (by rw [position]; decide)).1
  · intro a ha
    obtain ⟨ahead, shows⟩ := behind 3 a ha (Nat.le_of_eq position)
    exact ⟨ahead, shows.mpr first⟩

end EncounterTimeline

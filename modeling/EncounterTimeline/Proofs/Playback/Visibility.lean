import EncounterTimeline.Proofs.Playback.Linear
import EncounterTimeline.Proofs.Playback.Rebasing
import EncounterTimeline.Settings.Basic

/-! # What stays active

An activity becomes active when the window of the cursor comes to show it or when the cursor waits at it, and stays so
until it is executed, passed over by a line or cleared by a landing: leaving the window does not take it off. So what is
active is what has been exposed since, near or not; until a jump lands it is what is near.
-/
namespace EncounterTimeline

namespace Definition

variable {d : Definition} {f : Frame} {c : Scope} {i k m visible : Nat}

def undoneBetween (d : Definition) (c : Scope) (k i : Nat) : Nat :=
  (List.range' k (i - k)).countP fun j => (d.statement? c j).any fun a => !a.latches.done

private theorem mem_take_filter_range' {P : Nat → Bool} (here : P i = true) (le : k ≤ i) (lt : i < k + m) :
    i ∈ ((List.range' k m).filter P).take visible ↔ (List.range' k (i - k)).countP P < visible := by
  have parts : List.range' k m = List.range' k (i - k) ++ i :: List.range' (i + 1) (m - (i - k) - 1) := by
    have split := List.range'_append_1 (s := k) (m := i - k) (n := m - (i - k))
    have first : m - (i - k) = m - (i - k) - 1 + 1 := by omega
    have total : i - k + (m - (i - k)) = m := by omega
    have start : k + (i - k) = i := by omega
    rw [total, start, first, List.range'_succ] at split
    exact split.symm
  have before : i ∉ (List.range' k (i - k)).filter P := by
    intro mem
    have range := List.mem_range'_1.mp (List.mem_of_mem_filter mem)
    omega
  rw [parts, List.filter_append, List.filter_cons_of_pos here, List.take_append, List.mem_append,
    ← List.countP_eq_length_filter]
  rw [or_iff_right fun mem => before (List.mem_of_mem_take mem)]
  cases room : visible - (List.range' k (i - k)).countP P with
  | zero => simp only [List.take_zero, List.not_mem_nil, false_iff]; omega
  | succ n => simp only [List.take_succ_cons, List.mem_cons, true_or, true_iff]; omega

/-- The window shows a place ahead that is not done and has fewer than that many before it. -/
theorem mem_map_fst_window : i ∈ (d.window f visible).map Prod.fst ↔
    (∃ a, d.statement? f.scope i = some a ∧ a.latches.done = false) ∧ f.index ≤ i ∧
      d.undoneBetween f.scope f.index i < visible := by
  have undone : (d.statement? f.scope i).any (fun a => !a.latches.done) = true ↔
      ∃ a, d.statement? f.scope i = some a ∧ a.latches.done = false := by
    simp [Option.any_eq_true]
  rw [map_fst_window, ← undone]
  constructor
  · intro shown
    obtain ⟨range, here⟩ := List.mem_filter.mp (List.mem_of_mem_take shown)
    obtain ⟨le, lt⟩ := List.mem_range'_1.mp range
    exact ⟨here, le, (mem_take_filter_range' here le lt).mp shown⟩
  · rintro ⟨here, le, few⟩
    obtain ⟨a, ha, -⟩ := undone.mp here
    have lt := lt_scopeLength_of_statement? ha
    exact (mem_take_filter_range' here le (by omega)).mpr few

end Definition

namespace Session

variable {p : Pace} {s : Session} {c : Scope} {i : Nat}

def Near (p : Pace) (s : Session) (c : Scope) (i : Nat) : Prop :=
  ∃ f, s.cursor.frame = some f ∧ c = f.scope ∧ i ∈ (s.definition.window f p.visible).map Prod.fst

def OnlyNear (p : Pace) (s : Session) : Prop :=
  ∀ c i a, s.definition.statement? c i = some a → a.latches.active = true → s.Near p c i

theorem not_near_of_finished (finished : s.cursor.frame = none) : ¬ s.Near p c i := by
  rintro ⟨f, hf, -⟩
  cases finished.symm.trans hf

theorem Near.done_eq_false (h : s.Near p c i) {a : Activity} (ha : s.definition.statement? c i = some a) :
    a.latches.done = false := by
  obtain ⟨f, -, rfl, shown⟩ := h
  obtain ⟨⟨b, hb, undone⟩, -⟩ := Definition.mem_map_fst_window.mp shown
  cases ha.symm.trans hb
  exact undone

theorem Near.active (h : s.Near p c i) (shown : s.Shown p) {a : Activity}
    (ha : s.definition.statement? c i = some a) : a.latches.active = true := by
  obtain ⟨f, hf, rfl, listed⟩ := h
  obtain ⟨⟨k, b⟩, mem, rfl⟩ := List.mem_map.mp listed
  cases ha.symm.trans (Definition.mem_window mem).1
  exact shown f hf _ mem

/-- Showing a window leaves it where it is. -/
theorem near_overWindow {t : Session} {f : Frame} {g : Activity → Activity} (hf : s.cursor.frame = some f)
    (done : ∀ a, (g a).latches.done = a.latches.done) (cursor : t.cursor = s.cursor)
    (hd : t.definition = s.overWindow p f g) : t.Near p c i ↔ s.Near p c i := by
  have places : (t.definition.window f p.visible).map Prod.fst = (s.definition.window f p.visible).map Prod.fst := by
    rw [hd, overWindow, Definition.window_mapScope, List.map_map]
    · rfl
    · intro i a
      split
      · exact done a
      · rfl
  simp only [Near, cursor, hf, Option.some.injEq, exists_eq_left', places]

end Session

namespace Scene

open Session

variable {p : Pace} {d : Definition} {x y : Scene} {c : Scope} {i : Nat} {a b : Activity}

def Awaits (x : Scene) (c : Scope) (i : Nat) : Prop :=
  ∃ n f a, x.stage = .playing (n + 1) ∧ x.session.cursor.frame = some f ∧ c = f.scope ∧ i = f.index ∧
    f.activity? x.session.definition = some a ∧ a.isDue x.session.clock f.base = false

def Standing (x : Scene) (c : Scope) (i : Nat) : Prop :=
  ∃ f a, x.session.cursor.frame = some f ∧ c = f.scope ∧ i = f.index ∧ f.activity? x.session.definition = some a

theorem Awaits.standing (h : x.Awaits c i) : x.Standing c i := by
  obtain ⟨n, f, l, -, hf, scope, index, hl, -⟩ := h
  exact ⟨f, l, hf, scope, index, hl⟩

theorem standing_of_executes (h : x.executes c i = true) : x.Standing c i := by
  obtain ⟨n, f, l, -, hf, scope, index, hl, -⟩ := executes_iff.mp h
  exact ⟨f, l, hf, scope, index, hl⟩

def Skips (p : Pace) (x y : Scene) (c : Scope) (i : Nat) : Prop :=
  ∃ line f m, x.stage = .rest ∧ y.stage = .hearing line ∧ x.session.cursor.frame = some f ∧
    x.session.definition.findSync f p.visible line = some m ∧ c = f.scope ∧ f.index ≤ i ∧ i < m.index

def TakesOff (p : Pace) (x y : Scene) (c : Scope) (i : Nat) : Prop :=
  x.executes c i = true ∨ x.clears c i = true ∨ Skips p x y c i

theorem not_takesOff (idle : x.executes c i = false) (quiet : x.clears c i = false)
    (unheard : ∀ line, x.stage = .rest → y.stage ≠ .hearing line) : ¬ TakesOff p x y c i := by
  rintro (executes | clears | ⟨line, f, m, resting, heard, -⟩)
  · cases idle.symm.trans executes
  · cases quiet.symm.trans clears
  · exact unheard line resting heard

theorem executes_eq_false (h : ∀ n, x.stage ≠ .playing (n + 1)) : x.executes c i = false := by
  rw [← Bool.not_eq_true, executes_iff]
  rintro ⟨n, f, a, stage, -⟩
  exact h n stage

theorem not_awaits (h : ∀ n, x.stage ≠ .playing (n + 1)) : ¬ x.Awaits c i := by
  rintro ⟨n, f, a, stage, -⟩
  exact h n stage

/-- What a move may do to an activity: it takes it off the stage, or leaves its latches of showing and of being done as
they are but for showing it. -/
inductive Lit (p : Pace) (x y : Scene) (c : Scope) (i : Nat) (a b : Activity) : Prop
  | off (takes : TakesOff p x y c i) (busy : y.stage ≠ .rest) (moves : ¬ x.Awaits c i)
      (inactive : b.latches.active = false)
  | on (stays : ¬ TakesOff p x y c i) (done : b.latches.done = a.latches.done)
      (active : b.latches.active = true ↔
        y.stage = .rest ∧ y.session.Near p c i ∨ x.Awaits c i ∨ a.latches.active = true)

theorem lit_of_unchanged (busy : y.stage ≠ .rest) (moves : ¬ x.Awaits c i) (stays : ¬ TakesOff p x y c i) :
    Lit p x y c i a a :=
  .on stays rfl (by simp [busy, moves])

/-- Only where a jump lands it takes activities off the stage. -/
theorem lit_of_follow {owner : ElementId} {jump : Option Jump} {resume : Nat}
    (followed : y.session = x.session.follow owner jump resume) (ahead : x.jumpAhead = jump)
    (leaves : ∀ n, x.stage ≠ .playing (n + 1)) (under : x.stage ≠ .rest) (busy : y.stage ≠ .rest)
    (ha : x.session.definition.statement? c i = some a) (hb : y.session.definition.statement? c i = some b) :
    Lit p x y c i a b := by
  have moves : ¬ x.Awaits c i := not_awaits leaves
  rw [followed, statement?_follow, ha, ← ahead] at hb
  cases clears : x.clears c i with
  | true =>
    rw [if_pos (by exact clears)] at hb
    cases hb
    exact .off (.inr (.inl clears)) busy moves rfl
  | false =>
    rw [if_neg (by exact Bool.eq_false_iff.mp clears)] at hb
    cases hb
    exact lit_of_unchanged busy moves
      (not_takesOff (executes_eq_false leaves) clears fun _ resting => absurd resting under)

/-- A line finds what shows already and takes off what it passes over. -/
theorem lit_hear {s : Session} {line : String} {host : Duration} (shown : s.Shown p)
    (ha : s.definition.statement? c i = some a)
    (hb : (s.synchronize p line host).2.definition.statement? c i = some b) :
    Lit p ⟨.rest, s⟩ ⟨.hearing line, (s.synchronize p line host).2⟩ c i a b := by
  have waits : ¬ Awaits ⟨.rest, s⟩ c i := not_awaits (by simp)
  have takes : TakesOff p ⟨.rest, s⟩ ⟨.hearing line, (s.synchronize p line host).2⟩ c i ↔
      ∃ f m, s.cursor.frame = some f ∧ s.definition.findSync f p.visible line = some m ∧
        c = f.scope ∧ f.index ≤ i ∧ i < m.index := by
    constructor
    · rintro (executes | clears | ⟨_, f, m, -, ⟨⟩, skips⟩)
      · cases executes
      · cases clears
      · exact ⟨f, m, skips⟩
    · rintro ⟨f, m, skips⟩
      exact .inr (.inr ⟨line, f, m, rfl, rfl, skips⟩)
  rcases synchronize_cases p s line host with he | ⟨f, m, hf, hm, he⟩
  · have stays : ¬ TakesOff p ⟨.rest, s⟩ ⟨.hearing line, (s.synchronize p line host).2⟩ c i := by
      rw [takes]
      rintro ⟨f, m, hf, hm, -⟩
      rw [synchronize_of_findSync hf hm host] at he
      cases he
    rw [he] at hb
    cases ha.symm.trans hb
    exact lit_of_unchanged (by simp) waits stays
  · simp only [hf, hm, Option.some.injEq, exists_and_left, exists_eq_left'] at takes
    rw [he] at hb
    dsimp only [Session.syncTo, record_definition] at hb
    rw [Definition.statement?_mapScope, ha] at hb
    by_cases scope : c = f.scope
    · rw [if_pos scope, Option.map_some, Option.some.injEq] at hb
      subst scope hb
      by_cases here : i = m.index
      · subst here
        have window := (Definition.findSync_eq_some hm).1
        cases ha.symm.trans (Definition.mem_window window).1
        have active : m.activity.latches.active = true := shown f hf _ window
        exact .on (by rw [takes]; omega) (by simp [Activity.latchSync]) (by simp [Activity.latchSync, active])
      · by_cases between : f.index ≤ i ∧ i < m.index
        · exact .off (takes.mpr ⟨rfl, between⟩) (by simp) waits (by simp [here, between, Activity.skip])
        · refine .on (by rw [takes]; exact fun skips => between skips.2) ?_ ?_
          · simp [here, between]
          · simp [here, between, waits]
    · rw [if_neg scope] at hb
      cases hb
      exact lit_of_unchanged (by simp) waits (by rw [takes]; exact fun skips => scope skips.1)

theorem lit_execute {s : Session} {n : Nat} {f : Frame} {l : Activity} (hf : s.cursor.frame = some f)
    (hl : f.activity? s.definition = some l) (due : l.isDue s.clock f.base = true)
    (ha : s.definition.statement? c i = some a) (hb : (s.strike p f l).definition.statement? c i = some b) :
    Lit p ⟨.playing (n + 1), s⟩ ⟨.leaving l n, s.strike p f l⟩ c i a b := by
  have moves : ¬ Awaits ⟨.playing (n + 1), s⟩ c i := by
    rintro ⟨_, g, k, _, hg, _, _, hk, early⟩
    cases hf.symm.trans hg
    cases hl.symm.trans hk
    cases due.symm.trans early
  dsimp only [strike, record_definition] at hb
  rw [Definition.statement?_modifyStatement, ha] at hb
  by_cases here : c = f.scope ∧ i = f.index
  · rw [if_pos here] at hb
    cases hb
    exact .off (.inl (executes_iff.mpr ⟨n, f, l, rfl, hf, here.1, here.2, hl, due⟩)) (by simp) moves rfl
  · rw [if_neg here] at hb
    cases hb
    refine lit_of_unchanged (by simp) moves (not_takesOff (Bool.eq_false_iff.mpr fun executes => ?_) rfl (by simp))
    obtain ⟨_, g, _, _, hg, scope, index, _⟩ := executes_iff.mp executes
    cases hf.symm.trans hg
    exact here ⟨scope, index⟩

theorem lit_await {s : Session} {n : Nat} {f : Frame} {l : Activity} (hf : s.cursor.frame = some f)
    (hl : f.activity? s.definition = some l) (early : l.isDue s.clock f.base = false)
    (ha : s.definition.statement? c i = some a) (hb : (s.await p f l).definition.statement? c i = some b) :
    Lit p ⟨.playing (n + 1), s⟩ ⟨.showing, s.await p f l⟩ c i a b := by
  have idle : Scene.executes ⟨.playing (n + 1), s⟩ c i = false := by
    rw [← Bool.not_eq_true, executes_iff]
    rintro ⟨_, g, k, _, hg, _, _, hk, due⟩
    cases hf.symm.trans hg
    cases hl.symm.trans hk
    cases early.symm.trans due
  have stays := not_takesOff (p := p) (y := ⟨.showing, s.await p f l⟩) idle rfl (by simp)
  dsimp only [Session.await, record_definition] at hb
  rw [Definition.statement?_modifyStatement, ha] at hb
  by_cases here : c = f.scope ∧ i = f.index
  · rw [if_pos here] at hb
    cases hb
    have waits : Awaits ⟨.playing (n + 1), s⟩ c i := ⟨n, f, l, rfl, hf, here.1, here.2, hl, early⟩
    exact .on stays (a.done_attend ..) ⟨fun _ => .inr (.inl waits), fun _ => a.active_attend ..⟩
  · rw [if_neg here] at hb
    cases hb
    refine lit_of_unchanged (by simp) ?_ stays
    rintro ⟨_, g, _, _, hg, scope, index, _⟩
    cases hf.symm.trans hg
    exact here ⟨scope, index⟩

theorem lit_show {s : Session} (ha : s.definition.statement? c i = some a)
    (hb : (s.refreshWindow p).definition.statement? c i = some b) :
    Lit p ⟨.showing, s⟩ ⟨.rest, s.refreshWindow p⟩ c i a b := by
  have moves : ¬ Awaits ⟨.showing, s⟩ c i := not_awaits (by simp)
  have stays : ¬ TakesOff p ⟨.showing, s⟩ ⟨.rest, s.refreshWindow p⟩ c i := not_takesOff rfl rfl (by simp)
  cases hf : s.cursor.frame with
  | none =>
    have unseen : ¬ (s.refreshWindow p).Near p c i := not_near_of_finished (by rw [cursor_refreshWindow, hf])
    simp only [refreshWindow, hf] at hb
    cases ha.symm.trans hb
    exact .on stays rfl (by simp [unseen, moves])
  | some f =>
    have near : (s.refreshWindow p).Near p c i ↔ c = f.scope ∧ i ∈ (s.definition.window f p.visible).map Prod.fst := by
      rw [near_overWindow hf (fun a => a.done_attend ..) (cursor_refreshWindow p s)
        (by rw [refreshWindow_of_frame hf]; rfl)]
      simp only [Near, hf, Option.some.injEq, exists_eq_left']
    rw [refreshWindow_of_frame hf] at hb
    dsimp only [record_definition, overWindow] at hb
    rw [Definition.statement?_mapScope, ha] at hb
    by_cases scope : c = f.scope
    · rw [if_pos scope, Option.map_some, Option.some.injEq] at hb
      subst hb
      by_cases listed : i ∈ (s.definition.window f p.visible).map Prod.fst
      · rw [if_pos (List.contains_iff_mem.mpr listed)]
        have there := near.mpr ⟨scope, listed⟩
        exact .on stays (a.done_attend ..) ⟨fun _ => .inl ⟨rfl, there⟩, fun _ => a.active_attend ..⟩
      · rw [if_neg (by rwa [List.contains_iff_mem])]
        exact .on stays rfl (by simp [near, listed, moves])
    · rw [if_neg scope] at hb
      cases hb
      exact .on stays rfl (by simp [near, scope, moves])

theorem Next.lit (move : Next p x y) (shown : x.stage = .rest → x.session.Shown p)
    (ha : x.session.definition.statement? c i = some a) (hb : y.session.definition.statement? c i = some b) :
    Lit p x y c i a b := by
  have still (same : y.session.definition.statement? c i = x.session.definition.statement? c i)
      (busy : y.stage ≠ .rest) (moves : ¬ x.Awaits c i) (stays : ¬ TakesOff p x y c i) : Lit p x y c i a b := by
    cases (ha.symm.trans same.symm).trans hb
    exact lit_of_unchanged busy moves stays
  cases move with
  | tick s host | step s =>
    exact still rfl (by simp) (not_awaits (by simp)) (not_takesOff rfl rfl (by simp))
  | begin s | exhaust s =>
    exact still rfl (by simp) (not_awaits (by simp)) (not_takesOff (executes_eq_false (by simp)) rfl (by simp))
  | rebase s clock =>
    cases ha.symm.trans hb
    have near (h : (s.rebase clock).Near p c i) : a.latches.active = true := Near.active h (shown rfl) ha
    refine .on (not_takesOff rfl rfl (by simp)) rfl ⟨fun active => .inr (.inr active), ?_⟩
    rintro (⟨-, h⟩ | waits | active)
    · exact near h
    · exact absurd waits (not_awaits (by simp))
    · exact active
  | hear s line host => exact lit_hear (shown rfl) ha hb
  | fire s line =>
    exact still (Definition.statement?_countFired line) (by simp) (not_awaits (by simp)) (not_takesOff rfl rfl (by simp))
  | jump s t fired => exact lit_of_follow rfl rfl (by simp) (by simp) (by simp) ha hb
  | leave s n l => exact lit_of_follow rfl rfl (by simp) (by simp) (by simp) ha hb
  | finish s n hf =>
    have nothing : ¬ Standing ⟨.playing (n + 1), s⟩ c i := by
      rintro ⟨f, _, stands, _⟩
      cases hf.symm.trans stands
    exact still rfl (by simp) (fun waits => nothing waits.standing)
      (not_takesOff (Bool.eq_false_iff.mpr fun executes => nothing (standing_of_executes executes)) rfl (by simp))
  | passOver s n f hf empty =>
    have nothing : ¬ Standing ⟨.playing (n + 1), s⟩ c i := by
      rintro ⟨g, _, hg, _, _, stands⟩
      cases hf.symm.trans hg
      cases empty.symm.trans stands
    exact still rfl (by simp) (fun waits => nothing waits.standing)
      (not_takesOff (Bool.eq_false_iff.mpr fun executes => nothing (standing_of_executes executes)) rfl (by simp))
  | execute s n f l hf hl due => exact lit_execute hf hl due ha hb
  | await s n f l hf hl early => exact lit_await hf hl early ha hb
  | «show» s => exact lit_show ha hb

/-- The activity at an address has come near or has been waited for, and no move since has taken it off the stage. The
scenes are given from the last one back. -/
inductive Exposed (p : Pace) (c : Scope) (i : Nat) : List Scene → Prop
  | near {y : Scene} {earlier : List Scene} (rest : y.stage = .rest) (near : y.session.Near p c i) :
      Exposed p c i (y :: earlier)
  | waits {x y : Scene} {earlier : List Scene} (waits : x.Awaits c i) : Exposed p c i (y :: x :: earlier)
  | stays {x y : Scene} {earlier : List Scene} (before : Exposed p c i (x :: earlier))
      (stays : ¬ TakesOff p x y c i) : Exposed p c i (y :: x :: earlier)

theorem exposed_singleton : Exposed p c i [x] ↔ x.stage = .rest ∧ x.session.Near p c i := by
  constructor
  · intro h
    cases h with
    | near rest near => exact ⟨rest, near⟩
  · exact fun h => .near h.1 h.2

theorem exposed_cons_cons {earlier : List Scene} : Exposed p c i (y :: x :: earlier) ↔
    y.stage = .rest ∧ y.session.Near p c i ∨ x.Awaits c i ∨
      Exposed p c i (x :: earlier) ∧ ¬ TakesOff p x y c i := by
  constructor
  · intro h
    cases h with
    | near rest near => exact .inl ⟨rest, near⟩
    | waits waits => exact .inr (.inl waits)
    | stays before stays => exact .inr (.inr ⟨before, stays⟩)
  · rintro (⟨rest, near⟩ | waits | ⟨before, stays⟩)
    · exact .near rest near
    · exact .waits waits
    · exact .stays before stays

theorem Next.exists_statement? (move : Next p x y) (hb : y.session.definition.statement? c i = some b) :
    ∃ a, x.session.definition.statement? c i = some a :=
  Frame.exists_activity?_congr (f := ⟨c, i, 0.0⟩) move.script ⟨b, hb⟩

/-- What is active after a move is what has been exposed. -/
theorem Next.active_iff {earlier : List Scene} (move : Next p x y)
    (shown : x.stage = .rest → x.session.Shown p)
    (before : ∀ a, x.session.definition.statement? c i = some a →
      (a.latches.active = true ↔ Exposed p c i (x :: earlier)))
    (hb : y.session.definition.statement? c i = some b) :
    b.latches.active = true ↔ Exposed p c i (y :: x :: earlier) := by
  obtain ⟨a, ha⟩ := move.exists_statement? hb
  rw [exposed_cons_cons]
  cases move.lit shown ha hb with
  | off takes busy moves inactive => simp [takes, busy, moves, inactive]
  | on stays done active => simp [stays, active, before a ha]

end Scene

namespace Session

variable {p : Pace} {s : Session} {host : Duration} {c : Scope} {i : Nat} {b : Activity}

theorem near_of_active_showWindow (clear : ∀ a, s.definition.statement? c i = some a → a.latches.active = false)
    (hb : (s.showWindow p).definition.statement? c i = some b) (active : b.latches.active = true) :
    (s.showWindow p).Near p c i := by
  cases hf : s.cursor.frame with
  | none =>
    simp only [showWindow, hf] at hb
    cases (clear b hb).symm.trans active
  | some f =>
    have shows : s.showWindow p =
        { s with definition := s.overWindow p f fun a => a.display s.clock f.base p.lookAhead } := by
      simp only [showWindow, hf]
    have done (a : Activity) : (a.display s.clock f.base p.lookAhead).latches.done = a.latches.done := rfl
    rw [near_overWindow hf done (cursor_showWindow p s) (by rw [shows])]
    rw [shows] at hb
    dsimp only [overWindow] at hb
    rw [Definition.statement?_mapScope] at hb
    split at hb
    · rename_i scope
      obtain ⟨a, ha, rfl⟩ := Option.map_eq_some_iff.mp hb
      by_cases listed : i ∈ (s.definition.window f p.visible).map Prod.fst
      · exact ⟨f, hf, scope, listed⟩
      · rw [if_neg (by rwa [List.contains_iff_mem])] at active
        cases (clear a ha).symm.trans active
    · cases (clear b hb).symm.trans active

/-- A start makes active what its window shows. -/
theorem active_start_iff (hb : (s.start p host).definition.statement? c i = some b) :
    b.latches.active = true ↔ (s.start p host).Near p c i := by
  refine ⟨fun active => near_of_active_showWindow ?_ hb active, fun near => near.active (shown_showWindow p _) hb⟩
  intro a ha
  rw [Definition.latches_prepare (Definition.mem_activities.mpr ⟨c, i, ha⟩)]

end Session

namespace Definition

variable {d e : Definition} {c : Scope} {i k m : Nat}

/-- Further on, and with more done, fewer are left. -/
theorem undoneBetween_le (le : k ≤ m)
    (fewer : ∀ j b, e.statement? c j = some b → b.latches.done = false →
      ∃ a, d.statement? c j = some a ∧ a.latches.done = false) :
    e.undoneBetween c m i ≤ d.undoneBetween c k i := by
  have suffix : (List.range' m (i - m)).Sublist (List.range' k (i - k)) := by
    rcases Nat.le_total i m with past | ahead
    · rw [Nat.sub_eq_zero_of_le past]
      exact List.nil_sublist _
    · have split := List.range'_append_1 (s := k) (m := m - k) (n := i - m)
      have start : k + (m - k) = m := by omega
      have total : m - k + (i - m) = i - k := by omega
      rw [start, total] at split
      rw [← split]
      exact List.sublist_append_right ..
  refine Nat.le_trans (List.countP_mono_left fun j _ undone => ?_) suffix.countP_le
  rw [Option.any_eq_true] at undone ⊢
  obtain ⟨b, hb, undone⟩ := undone
  obtain ⟨a, ha, undone⟩ := fewer j b hb (by simpa using undone)
  exact ⟨a, ha, by simp [undone]⟩

end Definition

namespace Cursor

variable {d : Definition} {cur : Cursor} {f : Frame} {i : Nat} {a : Activity}

/-- With an activity ahead in its scope a cursor stays there and does not pass over it. -/
theorem frame_advance (hf : cur.frame = some f) (ha : d.statement? f.scope i = some a) (ahead : f.index + 1 ≤ i) :
    ∃ g, (cur.advance d).frame = some g ∧ g.scope = f.scope ∧ f.index + 1 ≤ g.index ∧ g.index ≤ i := by
  have advanced : cur.advance d = ofFrames d ({ f with index := f.index + 1 } :: cur.returns) := by
    simp only [advance, settle, hf, Option.map_some]
  cases settled : Frame.settle? d { f with index := f.index + 1 } with
  | none => cases (Frame.settle?_eq_none_iff.mp settled i ahead).symm.trans ha
  | some g =>
    obtain ⟨scope, -, le, -, before⟩ := Frame.settle?_eq_some settled
    refine ⟨g, by rw [advanced, ofFrames_cons_of_some settled], scope, le, ?_⟩
    by_contra past
    cases (before i ahead (Nat.not_le.mp past)).symm.trans ha

end Cursor

namespace Session

variable {s : Session} {owner : ElementId} {jump : Option Jump} {resume : Nat}

theorem cursor_follow_of_landing?_eq_none (h : s.landing? jump = none) :
    (s.follow owner jump resume).cursor = s.cursor.passBy s.definition resume := by
  cases jump with
  | none => rfl
  | some j =>
    have lost : s.definition.resolve s.cursor.scope j = none := by simpa [landing?] using h
    rw [follow_unresolved lost, record_cursor]

end Session

namespace Scene

open Session

variable {p : Pace} {d : Definition} {x y : Scene} {c : Scope} {i : Nat} {a b : Activity}

/-- The address is ahead of the cursor in its scope, with few enough before it for the window to show it. -/
def InSight (p : Pace) (x : Scene) (c : Scope) (i : Nat) : Prop :=
  ∃ f, x.session.cursor.frame = some f ∧ c = f.scope ∧ f.index + x.resume ≤ i ∧
    x.session.definition.undoneBetween c (f.index + x.resume) i < p.visible

def Tidy (p : Pace) (x : Scene) : Prop :=
  ∀ c i a, x.session.definition.statement? c i = some a → a.latches.active = true →
    x.InSight p c i ∧ a.latches.done = false

/-- Without a landing what is in sight stays so until it is taken off the stage. -/
theorem Next.inSight (move : Next p x y) (placed : x.session.Placed) (quiet : x.landing? = none)
    (stays : ¬ TakesOff p x y c i) (ha : x.session.definition.statement? c i = some a) (h : x.InSight p c i) :
    y.InSight p c i := by
  obtain ⟨f, hf, rfl, le, few⟩ := h
  have fewer (j : Nat) (b : Activity) (hb : y.session.definition.statement? f.scope j = some b)
      (undone : b.latches.done = false) :
      ∃ a, x.session.definition.statement? f.scope j = some a ∧ a.latches.done = false := by
    obtain ⟨a, ha⟩ := move.exists_statement? hb
    obtain ⟨b', hb', rises⟩ := move.rises (c := f.scope) (i := j) (by rw [clears, quiet]; rfl) ha
    cases hb.symm.trans hb'
    exact ⟨a, ha, Bool.eq_false_iff.mpr fun done => Bool.eq_false_iff.mp undone (rises.done done)⟩
  have onward {g : Frame} (hg : y.session.cursor.frame = some g) (scope : g.scope = f.scope)
      (forward : f.index + x.resume ≤ g.index + y.resume) (reach : g.index + y.resume ≤ i) :
      y.InSight p f.scope i :=
    ⟨g, hg, scope.symm, reach, Nat.lt_of_le_of_lt (Definition.undoneBetween_le forward fewer) few⟩
  cases move with
  | tick | step | rebase | fire | begin | finish | exhaust | await => exact onward hf rfl (Nat.le_refl _) le
  | hear s line host =>
    rcases synchronize_cases p s line host with he | ⟨g, m, hg, hm, he⟩
    · exact onward (by rw [he]; exact hf) rfl (Nat.le_refl _) le
    · cases hf.symm.trans hg
      have forward := (Definition.mem_window (Definition.findSync_eq_some hm).1).2.1
      have reach : m.index ≤ i := by
        by_contra past
        exact stays (.inr (.inr ⟨line, f, m, rfl, rfl, hf, hm, rfl, le, Nat.not_le.mp past⟩))
      exact onward (g := { f with index := m.index }) (by rw [he]; exact frame_syncTo hf m host) rfl forward reach
  | jump s t fired =>
    have cursor : (s.follow t.id t.rule.jump 0).cursor = s.cursor := cursor_follow_of_landing?_eq_none quiet
    exact onward (by rw [cursor]; exact hf) rfl (Nat.le_refl _) le
  | leave s n l =>
    have cursor : (s.follow l.id l.cue.jump 1).cursor = s.cursor.advance s.definition :=
      cursor_follow_of_landing?_eq_none quiet
    obtain ⟨g, hg, scope, forward, reach⟩ := Cursor.frame_advance hf ha le
    exact onward (by rw [cursor]; exact hg) scope forward reach
  | passOver s n g hg empty =>
    -- The cursor never stands where no activity is.
    obtain ⟨l, stands⟩ := placed.current g hg
    cases empty.symm.trans stands
  | execute s n g l hg hl due =>
    cases hf.symm.trans hg
    have elsewhere : f.index ≠ i := fun here =>
      stays (.inl (executes_iff.mpr ⟨n, f, l, rfl, hf, rfl, here.symm, hl, due⟩))
    exact onward hf rfl (Nat.le_succ _) (Nat.lt_of_le_of_ne le elsewhere)
  | «show» s => exact onward (by rw [cursor_refreshWindow]; exact hf) rfl (Nat.le_refl _) le

theorem Near.inSight (rest : x.stage = .rest) (h : x.session.Near p c i) : x.InSight p c i := by
  obtain ⟨f, hf, rfl, shown⟩ := h
  have resume : x.resume = 0 := by simp [Scene.resume, rest]
  obtain ⟨-, le, few⟩ := Definition.mem_map_fst_window.mp shown
  exact ⟨f, hf, rfl, by rw [resume]; exact le, by rw [resume]; exact few⟩

theorem Awaits.inSight (h : x.Awaits c i) : x.InSight p c i := by
  obtain ⟨n, f, l, stage, hf, rfl, rfl, -, -⟩ := h
  have resume : x.resume = 0 := by simp [Scene.resume, stage]
  refine ⟨f, hf, rfl, by rw [resume]; exact Nat.le_refl _, ?_⟩
  simpa [resume, Definition.undoneBetween] using p.visible_pos

/-- Without a landing, and if the cursor waits at nothing that is done, a tidy stage stays so. -/
theorem Next.tidy (move : Next p x y) (placed : x.session.Placed) (shown : x.stage = .rest → x.session.Shown p)
    (quiet : x.landing? = none)
    (fresh : ∀ c i a, x.Awaits c i → x.session.definition.statement? c i = some a → a.latches.done = false)
    (h : x.Tidy p) : y.Tidy p := by
  intro c i b hb active
  obtain ⟨a, ha⟩ := move.exists_statement? hb
  cases move.lit shown ha hb with
  | off takes busy moves inactive => cases inactive.symm.trans active
  | on stays done lights =>
    rcases lights.mp active with ⟨rest, near⟩ | waits | active
    · exact ⟨Near.inSight rest near, near.done_eq_false hb⟩
    · exact ⟨move.inSight placed quiet stays ha waits.inSight, done.trans (fresh c i a waits ha)⟩
    · obtain ⟨sight, undone⟩ := h c i a ha active
      exact ⟨move.inSight placed quiet stays ha sight, done.trans undone⟩

theorem Tidy.onlyNear (h : x.Tidy p) (rest : x.stage = .rest) : x.session.OnlyNear p := by
  intro c i a ha active
  obtain ⟨⟨f, hf, rfl, le, few⟩, undone⟩ := h c i a ha active
  have resume : x.resume = 0 := by simp [Scene.resume, rest]
  rw [resume] at le few
  exact ⟨f, hf, rfl, Definition.mem_map_fst_window.mpr ⟨⟨a, ha, undone⟩, le, few⟩⟩

/-- A cursor that has never been sent elsewhere waits at nothing that is done. -/
theorem Unspent.waits (h : x.Unspent c i) (waits : x.Awaits c i) (ha : x.session.definition.statement? c i = some a) :
    a.latches.done = false := by
  obtain ⟨n, f, l, stage, hf, rfl, rfl, -, -⟩ := waits
  refine Bool.eq_false_iff.mpr fun done => ?_
  have spent := Session.Unspent.spent h a ha done
  rw [Cursor.ahead_of_frame hf, Cursor.passes, List.countP_eq_zero] at spent
  have here := spent _ List.mem_cons_self
  simp [Frame.covers_iff, resume, stage] at here

end Scene

namespace Trail

open Scene

variable {p : Pace} {before : List Scene} {x y : Scene} {c : Scope} {i : Nat} {b : Activity}

theorem next_of_upTo (t : Trail p) (upTo : before ++ [x] ++ [y] <+: t.scenes) : Next p x y := by
  have linked : (before ++ [x] ++ [y]).IsChain (Next p) := List.IsChain.prefix t.linked upTo
  rw [List.append_assoc] at linked
  exact (List.isChain_cons_cons.mp (List.isChain_append.mp linked).2.1).1

theorem reached_of_upTo (t : Trail p) (upTo : before ++ [x] <+: t.scenes) : Reached p t.session.definition x :=
  exists_mem_scenes_iff.mp ⟨t, rfl, upTo.subset (List.mem_append_right _ (List.mem_singleton_self x))⟩

theorem shown_of_upTo (t : Trail p) (upTo : before ++ [x] <+: t.scenes) (rest : x.stage = .rest) :
    x.session.Shown p := by
  obtain ⟨stage, s⟩ := x
  cases rest
  exact (t.reached_of_upTo upTo).shown

theorem active_iff (t : Trail p) (upTo : before ++ [y] <+: t.scenes)
    (hb : y.session.definition.statement? c i = some b) :
    b.latches.active = true ↔ Exposed p c i (y :: before.reverse) := by
  induction before using List.reverseRecOn generalizing y b with
  | nil =>
    obtain ⟨later, scenes⟩ := upTo
    obtain ⟨rfl, -⟩ := List.cons.inj scenes
    rw [List.reverse_nil, exposed_singleton, Session.active_start_iff hb]
    exact (and_iff_right rfl).symm
  | append_singleton before x ih =>
    have earlier : before ++ [x] <+: t.scenes := (List.prefix_append _ [y]).trans upTo
    rw [List.reverse_append, List.reverse_singleton, List.singleton_append]
    exact (t.next_of_upTo upTo).active_iff (t.shown_of_upTo earlier) (fun a ha => ih earlier ha) hb

/-- Until a jump lands the stage is tidy. -/
theorem tidy_of_quiet (t : Trail p) (upTo : before ++ [y] <+: t.scenes) (quiet : ∀ x ∈ before, x.landing? = none) :
    y.Tidy p ∧ ∀ c i, y.Unspent c i := by
  induction before using List.reverseRecOn generalizing y with
  | nil =>
    obtain ⟨later, scenes⟩ := upTo
    obtain ⟨rfl, -⟩ := List.cons.inj scenes
    refine ⟨fun c i b hb active => ?_, fun c i => Session.unspent_start p t.session t.host⟩
    have near := (Session.active_start_iff hb).mp active
    exact ⟨Near.inSight rfl near, near.done_eq_false hb⟩
  | append_singleton before x ih =>
    have earlier : before ++ [x] <+: t.scenes := (List.prefix_append _ [y]).trans upTo
    have move := t.next_of_upTo upTo
    obtain ⟨tidy, unspent⟩ := ih earlier fun z hz => quiet z (List.mem_append_left _ hz)
    have still : x.landing? = none := quiet x (List.mem_append_right _ (List.mem_singleton_self x))
    refine ⟨?_, fun c i => move.unspent (unspent c i) ?_⟩
    · exact move.tidy (t.reached_of_upTo earlier).placed (t.shown_of_upTo earlier) still
        (fun c i a waits ha => (unspent c i).waits waits ha) tidy
    · have lands : x.session.landing? x.jumpAhead = none := still
      simp [Scene.reenters, Session.reenters, lands]

/-- What is active is what has come near or has been waited for and was neither executed nor passed over nor cleared
since. So nothing but what is near is active exactly if all that has been exposed is near, as it is until a jump
lands. -/
theorem active_iff_exposed (t : Trail p) (upTo : before ++ [y] <+: t.scenes) :
    (∀ c i b, y.session.definition.statement? c i = some b →
      (b.latches.active = true ↔ Exposed p c i (y :: before.reverse))) ∧
    (y.session.OnlyNear p ↔ ∀ c i, y.session.definition.statement? c i ≠ none →
      Exposed p c i (y :: before.reverse) → y.session.Near p c i) ∧
    (y.stage = .rest → (∀ x ∈ before, x.landing? = none) → y.session.OnlyNear p) ∧
    (y.session.OnlyNear p → ∀ c i b, y.session.definition.statement? c i = some b →
      b.latches.active = true → b.latches.done = false) := by
  have active (c : Scope) (i : Nat) (b : Activity) (hb : y.session.definition.statement? c i = some b) :=
    t.active_iff upTo hb
  refine ⟨active, ⟨?_, ?_⟩, fun rest quiet => (t.tidy_of_quiet upTo quiet).1.onlyNear rest, ?_⟩
  · intro only c i stands exposed
    obtain ⟨b, hb⟩ := Option.ne_none_iff_exists'.mp stands
    exact only c i b hb ((active c i b hb).mpr exposed)
  · intro near c i b hb shows
    exact near c i (by rw [hb]; exact Option.some_ne_none b) ((active c i b hb).mp shows)
  · intro only c i b hb shows
    exact (only c i b hb shows).done_eq_false hb

def leap : Session :=
  { definition :=
      { elements :=
          [.activity { id := 0, cue := { goto := some "Enrage" } },
            .activity { id := 1, cue := { time := ⟨10000000000⟩ } },
            .activity { id := 2, cue := { name := some "Enrage", time := ⟨20000000000⟩ } }] } }

/-- The run has ended, and the activity that was left out still counts as shown. -/
theorem exists_not_onlyNear : ∃ s, Reached ({} : Settings).pace leap.definition ⟨.rest, s⟩ ∧
    s.cursor.frame = none ∧ ¬ s.OnlyNear ({} : Settings).pace := by
  let s := (leap.start ({} : Settings).pace .zero).run ({} : Settings).pace [.tick .zero]
  have ended : s.cursor.frame.isNone = true := by decide +kernel
  have shows : (s.definition.statement? .root 1).any (fun a => a.latches.active) = true := by decide +kernel
  obtain ⟨b, hb, active⟩ := (Option.any_eq_true _ _).mp shows
  refine ⟨s, (Reached.start leap .zero rfl).run [.tick .zero], Option.isNone_iff_eq_none.mp ended, fun only => ?_⟩
  exact Session.not_near_of_finished (Option.isNone_iff_eq_none.mp ended) (only .root 1 b hb active)

/-- What was left out is exposed and no longer near. -/
theorem active_iff_exposed_leap : ∃ (t : Trail ({} : Settings).pace) (before : List Scene) (y : Scene),
    before ++ [y] <+: t.scenes ∧ y.stage = .rest ∧ Exposed ({} : Settings).pace .root 1 (y :: before.reverse) ∧
      ¬ y.session.Near ({} : Settings).pace .root 1 := by
  let s := (leap.start ({} : Settings).pace .zero).run ({} : Settings).pace [.tick .zero]
  have reached : Reached ({} : Settings).pace leap.definition ⟨.rest, s⟩ :=
    (Reached.start leap .zero rfl).run [.tick .zero]
  have ended : s.cursor.frame.isNone = true := by decide +kernel
  have shows : (s.definition.statement? .root 1).any (fun a => a.latches.active) = true := by decide +kernel
  clear_value s
  obtain ⟨t, -, within⟩ := exists_mem_scenes_iff.mpr reached
  obtain ⟨before, later, scenes⟩ := List.append_of_mem within
  have upTo : before ++ [⟨.rest, s⟩] <+: t.scenes := ⟨later, by rw [scenes]; simp⟩
  obtain ⟨b, hb, active⟩ := (Option.any_eq_true _ _).mp shows
  refine ⟨t, before, _, upTo, rfl, ((t.active_iff_exposed upTo).1 .root 1 b hb).mp active, ?_⟩
  exact Session.not_near_of_finished (Option.isNone_iff_eq_none.mp ended)

end Trail

end EncounterTimeline

import EncounterTimeline.Proofs.Timeline.Script
import Mathlib.Data.List.Chain
import Mathlib.Logic.Relation

/-! # Runs

A run is a start and any operations after it; whoever shares the clock may also set it in between. An operation
is carried out in small moves: host time passes or a line is heard, triggers fire and jump in turn, activities at
the cursor are executed one by one, and the window is shown. Every operation is a sequence of moves, and whenever
the moves come to rest an operation has been carried out, so what holds of every scene holds throughout every run.
-/
namespace EncounterTimeline

inductive Operation where
  | tick (host : Duration)
  | step
  | line (text : String) (host : Duration)
  | rebase (clock : Float)

namespace Session

def rebase (s : Session) (clock : Float) : Session := { s with clock := Clock.settle clock }

def perform (p : Pace) (s : Session) : Operation → Session
  | .tick host => s.tick p host
  | .step => s.step p
  | .line text host => (s.hear p text host).2
  | .rebase clock => s.rebase clock

def run (p : Pace) (s : Session) (ops : List Operation) : Session := ops.foldl (perform p) s

/-- The session as an operation begins to execute what is due, or would begin to after it. -/
def approach (p : Pace) (s : Session) : Operation → Session
  | .tick host => s.pass p host
  | .step => s
  | .line text host => ((s.synchronize p text host).2.fire text).2
  | .rebase clock => s.rebase clock

section Play

variable {p : Pace} {s : Session} {f : Frame} {a : Activity} {n : Nat}

@[simp] theorem play_zero : play p 0 s = s := rfl

theorem play_finished (h : s.cursor.frame = none) : play p (n + 1) s = s := by
  simp only [play, h]

theorem play_passOver (hf : s.cursor.frame = some f) (ha : f.activity? s.definition = none) :
    play p (n + 1) s = play p n { s with cursor := s.cursor.advance s.definition } := by
  simp only [play, hf, ha]

theorem play_execute (hf : s.cursor.frame = some f) (ha : f.activity? s.definition = some a)
    (due : a.isDue s.clock f.base = true) :
    play p (n + 1) s = play p n ((s.strike p f a).follow a.id a.cue.jump 1) := by
  simp only [play, hf, ha, due, if_true, execute]

theorem play_await (hf : s.cursor.frame = some f) (ha : f.activity? s.definition = some a)
    (early : a.isDue s.clock f.base = false) : play p (n + 1) s = s.await p f a := by
  simp [play, hf, ha, early]

/-- What each round keeps, the loop keeps. -/
theorem play_keeps {motive : Session → Prop}
    (advance : ∀ s, motive s → motive { s with cursor := s.cursor.advance s.definition })
    (execute : ∀ s f a, motive s → motive ((s.strike p f a).follow a.id a.cue.jump 1))
    (await : ∀ s f a, motive s → motive (s.await p f a)) (n : Nat) (h : motive s) : motive (play p n s) := by
  induction n generalizing s with
  | zero => exact h
  | succ n ih =>
    cases hf : s.cursor.frame with
    | none =>
      rw [play_finished hf]
      exact h
    | some f =>
      cases ha : f.activity? s.definition with
      | none =>
        rw [play_passOver hf ha]
        exact ih (advance s h)
      | some a =>
        cases due : a.isDue s.clock f.base with
        | true =>
          rw [play_execute hf ha due]
          exact ih (execute s f a h)
        | false =>
          rw [play_await hf ha due]
          exact await s f a h

end Play

end Session

inductive Stage where
  | rest
  | hearing (line : String)
  | jumping (fired : List Trigger)
  /-- That many activities may still be executed. -/
  | playing (left : Nat)
  /-- The activity has been executed, its jump not yet followed. -/
  | leaving (a : Activity) (left : Nat)
  | showing

structure Scene where
  stage : Stage
  session : Session

namespace Scene

open Session

inductive Next (p : Pace) : Scene → Scene → Prop
  | tick (s : Session) (host : Duration) : Next p ⟨.rest, s⟩ ⟨.playing p.maxSteps, s.pass p host⟩
  | step (s : Session) : Next p ⟨.rest, s⟩ ⟨.playing p.maxSteps, s⟩
  | rebase (s : Session) (clock : Float) : Next p ⟨.rest, s⟩ ⟨.rest, s.rebase clock⟩
  | hear (s : Session) (line : String) (host : Duration) :
      Next p ⟨.rest, s⟩ ⟨.hearing line, (s.synchronize p line host).2⟩
  | fire (s : Session) (line : String) :
      Next p ⟨.hearing line, s⟩ ⟨.jumping (s.definition.firedBy line), s.countFired line⟩
  | jump (s : Session) (t : Trigger) (fired : List Trigger) :
      Next p ⟨.jumping (t :: fired), s⟩ ⟨.jumping fired, s.follow t.id t.rule.jump 0⟩
  | begin (s : Session) : Next p ⟨.jumping [], s⟩ ⟨.playing p.maxSteps, s⟩
  | finish (s : Session) (n : Nat) (hf : s.cursor.frame = none) :
      Next p ⟨.playing (n + 1), s⟩ ⟨.showing, s⟩
  | passOver (s : Session) (n : Nat) (f : Frame) (hf : s.cursor.frame = some f)
      (ha : f.activity? s.definition = none) :
      Next p ⟨.playing (n + 1), s⟩ ⟨.playing n, { s with cursor := s.cursor.advance s.definition }⟩
  | execute (s : Session) (n : Nat) (f : Frame) (a : Activity) (hf : s.cursor.frame = some f)
      (ha : f.activity? s.definition = some a) (due : a.isDue s.clock f.base = true) :
      Next p ⟨.playing (n + 1), s⟩ ⟨.leaving a n, s.strike p f a⟩
  | leave (s : Session) (n : Nat) (a : Activity) :
      Next p ⟨.leaving a n, s⟩ ⟨.playing n, s.follow a.id a.cue.jump 1⟩
  | await (s : Session) (n : Nat) (f : Frame) (a : Activity) (hf : s.cursor.frame = some f)
      (ha : f.activity? s.definition = some a) (early : a.isDue s.clock f.base = false) :
      Next p ⟨.playing (n + 1), s⟩ ⟨.showing, s.await p f a⟩
  | exhaust (s : Session) : Next p ⟨.playing 0, s⟩ ⟨.showing, s⟩
  | show (s : Session) : Next p ⟨.showing, s⟩ ⟨.rest, s.refreshWindow p⟩

/-- The scenes of the runs of a definition. -/
inductive Reached (p : Pace) (d : Definition) : Scene → Prop
  | start (s : Session) (host : Duration) (h : s.definition = d) : Reached p d ⟨.rest, s.start p host⟩
  | next {x y : Scene} (h : Reached p d x) (move : Next p x y) : Reached p d y

def proceed (p : Pace) : Scene → Scene
  | ⟨.rest, s⟩ => ⟨.rest, s⟩
  | ⟨.hearing line, s⟩ => ⟨.jumping (s.definition.firedBy line), s.countFired line⟩
  | ⟨.jumping [], s⟩ => ⟨.playing p.maxSteps, s⟩
  | ⟨.jumping (t :: fired), s⟩ => ⟨.jumping fired, s.follow t.id t.rule.jump 0⟩
  | ⟨.playing 0, s⟩ => ⟨.showing, s⟩
  | ⟨.playing (n + 1), s⟩ =>
    match s.cursor.frame with
    | none => ⟨.showing, s⟩
    | some f =>
      match f.activity? s.definition with
      | none => ⟨.playing n, { s with cursor := s.cursor.advance s.definition }⟩
      | some a => if a.isDue s.clock f.base then ⟨.leaving a n, s.strike p f a⟩ else ⟨.showing, s.await p f a⟩
  | ⟨.leaving a n, s⟩ => ⟨.playing n, s.follow a.id a.cue.jump 1⟩
  | ⟨.showing, s⟩ => ⟨.rest, s.refreshWindow p⟩

def isUnderWay (x : Scene) : Bool :=
  match x.stage with
  | .rest => false
  | _ => true

def outcome (p : Pace) : Scene → Session
  | ⟨.rest, s⟩ => s
  | ⟨.hearing line, s⟩ => (s.fire line).2.step p
  | ⟨.jumping fired, s⟩ => (s.followAll fired).step p
  | ⟨.playing n, s⟩ => (play p n s).refreshWindow p
  | ⟨.leaving a n, s⟩ => (play p n (s.follow a.id a.cue.jump 1)).refreshWindow p
  | ⟨.showing, s⟩ => s.refreshWindow p

variable {p : Pace} {d : Definition} {s : Session} {x y : Scene}

/-- Only at rest is the next move open. -/
theorem next_iff (h : x.isUnderWay = true) : Next p x y ↔ y = x.proceed p := by
  constructor
  · intro move
    cases move with
    | tick | step | rebase | hear => cases h
    | fire | jump | begin | leave | exhaust | «show» => rfl
    | finish s n hf => simp only [proceed, hf]
    | passOver s n f hf ha => simp only [proceed, hf, ha]
    | execute s n f a hf ha due => simp only [proceed, hf, ha, due, if_true]
    | await s n f a hf ha early => simp [proceed, hf, ha, early]
  · rintro rfl
    obtain ⟨stage, s⟩ := x
    cases stage with
    | rest => cases h
    | hearing line => exact .fire s line
    | jumping fired =>
      cases fired with
      | nil => exact .begin s
      | cons t fired => exact .jump s t fired
    | leaving a n => exact .leave s n a
    | «showing» => exact .show s
    | playing n =>
      cases n with
      | zero => exact .exhaust s
      | succ n =>
        cases hf : s.cursor.frame with
        | none =>
          simp only [proceed, hf]
          exact .finish s n hf
        | some f =>
          cases ha : f.activity? s.definition with
          | none =>
            simp only [proceed, hf, ha]
            exact .passOver s n f hf ha
          | some a =>
            cases due : a.isDue s.clock f.base with
            | true =>
              simp only [proceed, hf, ha, due, if_true]
              exact .execute s n f a hf ha due
            | false =>
              simp only [proceed, hf, ha, due, Bool.false_eq_true, if_false]
              exact .await s n f a hf ha due

theorem Next.proceed (h : x.isUnderWay = true) : Next p x (x.proceed p) := (next_iff h).mpr rfl

/-- A move out of rest begins an operation; any other one carries on with the operation under way. -/
theorem Next.outcome (move : Next p x y) :
    y.outcome p = x.outcome p ∨ ∃ o, y.outcome p = (x.outcome p).perform p o := by
  cases move with
  | tick s host => exact .inr ⟨.tick host, rfl⟩
  | step s => exact .inr ⟨.step, rfl⟩
  | rebase s clock => exact .inr ⟨.rebase clock, rfl⟩
  | hear s line host => exact .inr ⟨.line line host, rfl⟩
  | fire | jump | begin | leave | exhaust | «show» => exact .inl rfl
  | finish s n hf => exact .inl (by simp only [Scene.outcome, play_finished hf])
  | passOver s n f hf ha => exact .inl (by simp only [Scene.outcome, play_passOver hf ha])
  | execute s n f a hf ha due => exact .inl (by simp only [Scene.outcome, play_execute hf ha due])
  | await s n f a hf ha early => exact .inl (by simp only [Scene.outcome, play_await hf ha early])

abbrev Path (p : Pace) : Scene → Scene → Prop := Relation.ReflTransGen (Next p)

namespace Path

theorem followAll (s : Session) (fired : List Trigger) :
    Path p ⟨.jumping fired, s⟩ ⟨.playing p.maxSteps, s.followAll fired⟩ := by
  induction fired generalizing s with
  | nil => exact .single (.begin s)
  | cons t fired ih => exact .head (.jump s t fired) (ih _)

theorem approach (s : Session) (o : Operation) : Path p ⟨.rest, s⟩ ⟨.playing p.maxSteps, s.approach p o⟩ := by
  cases o with
  | tick host => exact .single (.tick s host)
  | step => exact .single (.step s)
  | line text host => exact .head (.hear s text host) (.head (.fire _ text) (followAll _ _))
  | rebase clock => exact .head (.rebase s clock) (.single (.step _))

/-- The loop passes through scenes: after `k` rounds it goes on or has stopped. -/
theorem play (s : Session) {n : Nat} (k : Nat) (le : k ≤ n) :
    Path p ⟨.playing n, s⟩ ⟨.playing (n - k), Session.play p k s⟩ ∨
      Path p ⟨.playing n, s⟩ ⟨.showing, Session.play p k s⟩ := by
  induction k generalizing n s with
  | zero => exact .inl .refl
  | succ k ih =>
    obtain ⟨m, rfl⟩ : ∃ m, n = m + 1 := ⟨n - 1, by omega⟩
    rw [Nat.add_sub_add_right]
    cases hf : s.cursor.frame with
    | none =>
      rw [play_finished hf]
      exact .inr (.single (.finish s m hf))
    | some f =>
      cases ha : f.activity? s.definition with
      | none =>
        rw [play_passOver hf ha]
        have pass := Next.passOver (p := p) s m f hf ha
        exact (ih _ (by omega)).imp (.head pass) (.head pass)
      | some a =>
        cases due : a.isDue s.clock f.base with
        | true =>
          rw [play_execute hf ha due]
          have execute := Next.execute (p := p) s m f a hf ha due
          have leave := Next.leave (p := p) (s.strike p f a) m a
          exact (ih _ (by omega)).imp (fun h => .head execute (.head leave h)) fun h => .head execute (.head leave h)
        | false =>
          rw [play_await hf ha due]
          exact .inr (.single (.await s m f a hf ha due))

theorem playedOut (s : Session) (n : Nat) :
    Path p ⟨.playing n, s⟩ ⟨.rest, (Session.play p n s).refreshWindow p⟩ := by
  rcases play s n (Nat.le_refl n) with going | stopped
  · rw [Nat.sub_self] at going
    exact (going.tail (.exhaust _)).tail (.show _)
  · exact stopped.tail (.show _)

theorem perform (s : Session) (o : Operation) : Path p ⟨.rest, s⟩ ⟨.rest, s.perform p o⟩ := by
  cases o with
  | tick host => exact (approach s (.tick host)).trans (playedOut _ _)
  | step => exact (approach s .step).trans (playedOut _ _)
  | line text host => exact (approach s (.line text host)).trans (playedOut _ _)
  | rebase clock => exact .single (.rebase s clock)

theorem run (s : Session) (ops : List Operation) : Path p ⟨.rest, s⟩ ⟨.rest, s.run p ops⟩ := by
  induction ops generalizing s with
  | nil => exact .refl
  | cons o ops ih => exact (perform s o).trans (ih _)

end Path

namespace Reached

theorem along (h : Reached p d x) (path : Path p x y) : Reached p d y := by
  induction path with
  | refl => exact h
  | tail _ move ih => exact ih.next move

/-- Every scene is part of an operation of a run. -/
theorem outcome_eq_run (h : Reached p d x) : ∃ (s : Session) (host : Duration) (ops : List Operation),
    s.definition = d ∧ x.outcome p = (s.start p host).run p ops := by
  induction h with
  | start s host h => exact ⟨s, host, [], h, rfl⟩
  | next _ move ih =>
    obtain ⟨s, host, ops, hd, hx⟩ := ih
    rcases move.outcome with same | ⟨o, ho⟩
    · exact ⟨s, host, ops, hd, same.trans hx⟩
    · refine ⟨s, host, ops ++ [o], hd, ?_⟩
      rw [ho, hx]
      simp [run]

theorem approach (h : Reached p d ⟨.rest, s⟩) (o : Operation) :
    Reached p d ⟨.playing p.maxSteps, s.approach p o⟩ :=
  h.along (.approach s o)

theorem play {n : Nat} (h : Reached p d ⟨.playing n, s⟩) (k : Nat) (le : k ≤ n) :
    Reached p d ⟨.playing (n - k), play p k s⟩ ∨ Reached p d ⟨.showing, play p k s⟩ :=
  (Path.play s k le).imp h.along h.along

theorem run (h : Reached p d ⟨.rest, s⟩) (ops : List Operation) : Reached p d ⟨.rest, s.run p ops⟩ :=
  h.along (.run s ops)

end Reached

/-- The scenes at rest are the states between the operations of runs. -/
theorem reached_rest_iff : Reached p d ⟨.rest, s⟩ ↔
    ∃ (s₀ : Session) (host : Duration) (ops : List Operation),
      s₀.definition = d ∧ s = (s₀.start p host).run p ops := by
  constructor
  · exact fun h => h.outcome_eq_run
  · rintro ⟨s₀, host, ops, hd, rfl⟩
    exact (Reached.start s₀ host hd).run ops

end Scene

structure Trail (p : Pace) where
  session : Session
  host : Duration
  later : List Scene
  linked : (⟨.rest, session.start p host⟩ :: later).IsChain (Scene.Next p)

namespace Trail

variable {p : Pace} {d : Definition}

def scenes (t : Trail p) : List Scene := ⟨.rest, t.session.start p t.host⟩ :: t.later

/-- What holds of the first scene and is kept by the moves holds along a trail. -/
theorem forall_of_linked {holds fine : Scene → Prop} {x : Scene} {xs : List Scene}
    (linked : (x :: xs).IsChain (Scene.Next p)) (first : holds x)
    (kept : ∀ {y z}, Scene.Next p y z → fine y → holds y → holds z) (each : ∀ y ∈ (x :: xs).dropLast, fine y) :
    ∀ y ∈ x :: xs, holds y := by
  induction xs generalizing x with
  | nil => simpa using first
  | cons y xs ih =>
    obtain ⟨move, linked⟩ := List.isChain_cons_cons.mp linked
    rw [List.dropLast_cons_cons, List.forall_mem_cons] at each
    rw [List.forall_mem_cons]
    exact ⟨first, ih linked (kept move each.1 first) each.2⟩

/-- The scenes of runs are those along their trails. -/
theorem exists_mem_scenes_iff {x : Scene} :
    (∃ t : Trail p, t.session.definition = d ∧ x ∈ t.scenes) ↔ Scene.Reached p d x := by
  constructor
  · rintro ⟨t, hd, hx⟩
    exact forall_of_linked t.linked (Scene.Reached.start t.session t.host hd)
      (fun move (_ : True) h => h.next move) (fun _ _ => trivial) x hx
  · intro h
    suffices ends : ∃ t : Trail p, t.session.definition = d ∧ t.scenes.getLast? = some x by
      obtain ⟨t, hd, last⟩ := ends
      exact ⟨t, hd, List.mem_of_getLast? last⟩
    induction h with
    | start s host h => exact ⟨⟨s, host, [], .singleton _⟩, h, rfl⟩
    | @next x y _ move ih =>
      obtain ⟨t, hd, last⟩ := ih
      have linked : (t.scenes ++ [y]).IsChain (Scene.Next p) := by
        refine List.isChain_append.mpr ⟨t.linked, .singleton y, ?_⟩
        rintro z hz w hw
        cases last.symm.trans hz
        cases hw
        exact move
      refine ⟨⟨t.session, t.host, t.later ++ [y], linked⟩, hd, ?_⟩
      rw [scenes, ← List.cons_append]
      exact List.getLast?_concat

end Trail

end EncounterTimeline

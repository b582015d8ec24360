import EncounterTimeline.Proofs.Playback.Latches

/-! # Activities are executed once

What is done lies behind every frame that is still to be walked, so that no activity is executed twice unless its
latches were cleared in between. Only a jump that lands in front of an activity while a return to a place in front of
it is pending in the same scope leads past the activity twice.
-/
namespace EncounterTimeline

namespace Cursor

variable {d : Definition} {c : Cursor} {f : Frame} {scope : Scope} {i resume : Nat}

def ahead (c : Cursor) (resume : Nat) : List Frame := (c.returnPoint resume).toList ++ c.returns

def kept (c : Cursor) (j : Jump) (resume : Nat) : List Frame := if j.isCall then c.ahead resume else c.returns

def passes (fs : List Frame) (scope : Scope) (i : Nat) : Nat := fs.countP fun f => f.covers scope i

theorem passes_cons (f : Frame) (fs : List Frame) :
    passes (f :: fs) scope i = passes fs scope i + if f.covers scope i then 1 else 0 :=
  List.countP_cons ..

theorem passes_cons_le (f g : Frame) (hs : g.scope = f.scope) (le : f.index ≤ g.index) (fs : List Frame) :
    passes (g :: fs) scope i ≤ passes (f :: fs) scope i := by
  have further : g.covers scope i = true → f.covers scope i = true := by
    simp only [Frame.covers_iff, hs]
    exact fun h => ⟨h.1, Nat.le_trans le h.2⟩
  rw [passes_cons, passes_cons]
  split
  · rename_i h
    rw [if_pos (further h)]
  · omega

theorem passes_moved {g : Frame} {fs : List Frame} (once : passes (f :: fs) scope i ≤ 1)
    (covers : f.covers scope i = true) (past : i < g.index) : passes (g :: fs) scope i = 0 := by
  have behind : ¬ g.covers scope i = true := by
    rw [Frame.covers_iff]
    exact fun covers => Nat.not_lt.mpr covers.2 past
  rw [passes_cons, if_pos covers] at once
  rw [passes_cons, if_neg behind]
  omega

theorem ahead_of_frame (hf : c.frame = some f) (resume : Nat) :
    c.ahead resume = { f with index := f.index + resume } :: c.returns := by
  simp only [ahead, returnPoint, hf, Option.map_some, Option.toList_some, List.singleton_append]

theorem passes_ofFrames_le (d : Definition) (fs : List Frame) :
    passes ((ofFrames d fs).ahead 0) scope i ≤ passes fs scope i := by
  rcases ofFrames_cases d fs with ⟨h, -⟩ | ⟨above, f, below, g, rfl, -, hf, h⟩
  · rw [h]
    exact Nat.zero_le _
  · obtain ⟨hs, -, le, -, -⟩ := Frame.settle?_eq_some hf
    rw [h]
    calc passes (g :: below) scope i ≤ passes (f :: below) scope i := passes_cons_le f g hs le below
      _ ≤ passes (above ++ f :: below) scope i := (List.sublist_append_right ..).countP_le

theorem passes_ahead_le (c : Cursor) (resume : Nat) :
    passes (c.ahead resume) scope i ≤ passes (c.ahead 0) scope i := by
  obtain ⟨frame, returns⟩ := c
  cases frame with
  | none => exact Nat.le_refl _
  | some f =>
    have further : f.index + 0 ≤ f.index + resume := by omega
    exact passes_cons_le { f with index := f.index + 0 } { f with index := f.index + resume } rfl further returns

theorem passes_advance_le (c : Cursor) (d : Definition) :
    passes ((c.advance d).ahead 0) scope i ≤ passes (c.ahead 1) scope i := by
  obtain ⟨frame, returns⟩ := c
  cases frame with
  | none => exact Nat.le_refl _
  | some f => exact passes_ofFrames_le d _

theorem passes_passBy_le (le : resume ≤ 1) (c : Cursor) (d : Definition) :
    passes ((c.passBy d resume).ahead 0) scope i ≤ passes (c.ahead resume) scope i := by
  unfold passBy
  split
  · rename_i pos
    obtain rfl : resume = 1 := by omega
    exact passes_advance_le c d
  · rename_i zero
    obtain rfl : resume = 0 := by omega
    exact Nat.le_refl _

theorem passes_enter_le (c : Cursor) (d : Definition) (j : Jump) (entered : Frame) (resume : Nat) :
    passes ((c.enter d j entered resume).ahead 0) scope i ≤ passes (entered :: c.kept j resume) scope i :=
  passes_ofFrames_le d _

theorem kept_sublist (c : Cursor) (j : Jump) (resume : Nat) : (c.kept j resume).Sublist (c.ahead resume) := by
  unfold kept
  split
  · exact List.Sublist.refl _
  · exact List.sublist_append_right ..

end Cursor

namespace Session

variable {s : Session} {c : Scope} {i resume : Nat} {a : Activity} {owner : ElementId} {jump : Option Jump}

/-- At most one frame still leads past an address, and none once the activity there is done. -/
structure Unspent (s : Session) (resume : Nat) (c : Scope) (i : Nat) : Prop where
  once : Cursor.passes (s.cursor.ahead resume) c i ≤ 1
  spent : ∀ a, s.definition.statement? c i = some a → a.latches.done = true →
    Cursor.passes (s.cursor.ahead resume) c i = 0

/-- The jump lands in front of an address while a return to a place in front of it stays pending. -/
def reenters (s : Session) (jump : Option Jump) (resume : Nat) (c : Scope) (i : Nat) : Bool :=
  (s.landing? jump).any (fun f => f.covers c i) &&
    jump.any fun j => (s.cursor.kept j resume).any fun f => f.covers c i

theorem Unspent.forward {t : Session} {resume' : Nat} (h : s.Unspent resume c i)
    (le : Cursor.passes (t.cursor.ahead resume') c i ≤ Cursor.passes (s.cursor.ahead resume) c i)
    (same : ∀ b, t.definition.statement? c i = some b → b.latches.done = true →
      ∃ a, s.definition.statement? c i = some a ∧ a.latches.done = true) : t.Unspent resume' c i := by
  refine ⟨Nat.le_trans le h.once, ?_⟩
  intro b hb done
  obtain ⟨a, ha, done⟩ := same b hb done
  exact Nat.le_zero.mp (Nat.le_trans le (Nat.le_of_eq (h.spent a ha done)))

/-- A landing that leads past the place again is alone in that, and what is done there is no longer. -/
theorem Unspent.land {j : Jump} {dest : Destination} (h : s.Unspent resume c i)
    (hr : s.definition.resolve s.cursor.scope j = some dest) (apart : s.reenters (some j) resume c i = false) :
    (s.follow owner (some j) resume).Unspent 0 c i := by
  have lands : s.landing? (some j) = some (Cursor.entry s.definition s.clock dest) := by simp [landing?, hr]
  have entered : Cursor.passes ((s.follow owner (some j) resume).cursor.ahead 0) c i ≤
      Cursor.passes (Cursor.entry s.definition s.clock dest :: s.cursor.kept j resume) c i := by
    rw [follow_resolved hr]
    exact Cursor.passes_enter_le s.cursor s.definition j _ resume
  rw [Cursor.passes_cons] at entered
  simp only [reenters, lands, Option.any_some, Bool.and_eq_false_iff] at apart
  cases covers : (Cursor.entry s.definition s.clock dest).covers c i with
  | false =>
    have kept : Cursor.passes (s.cursor.kept j resume) c i ≤ Cursor.passes (s.cursor.ahead resume) c i :=
      (Cursor.kept_sublist s.cursor j resume).countP_le
    rw [covers, if_neg Bool.false_ne_true, Nat.add_zero] at entered
    refine h.forward (Nat.le_trans entered kept) ?_
    intro b hb done
    rw [statement?_follow, lands, Option.any_some, covers, if_neg Bool.false_ne_true] at hb
    exact ⟨b, hb, done⟩
  | true =>
    have nothing_kept : Cursor.passes (s.cursor.kept j resume) c i = 0 := by
      rcases apart with elsewhere | apart
      · rw [covers] at elsewhere
        cases elsewhere
      · rw [Cursor.passes, List.countP_eq_zero]
        simpa using apart
    rw [nothing_kept, covers, if_pos rfl] at entered
    refine ⟨entered, ?_⟩
    intro b hb done
    rw [statement?_follow, lands, Option.any_some, covers, if_pos rfl] at hb
    obtain ⟨a, -, rfl⟩ := Option.map_eq_some_iff.mp hb
    cases done

theorem Unspent.passBy (h : s.Unspent resume c i) (le : resume ≤ 1) :
    Session.Unspent { s with cursor := s.cursor.passBy s.definition resume } 0 c i :=
  h.forward (Cursor.passes_passBy_le le s.cursor s.definition) fun b hb done => ⟨b, hb, done⟩

theorem Unspent.follow (h : s.Unspent resume c i) (le : resume ≤ 1) (apart : s.reenters jump resume c i = false) :
    (s.follow owner jump resume).Unspent 0 c i := by
  cases jump with
  | none => exact h.passBy le
  | some j =>
    cases hr : s.definition.resolve s.cursor.scope j with
    | none =>
      rw [follow_unresolved hr]
      exact (h.passBy le).forward (Nat.le_refl _) fun b hb done => ⟨b, hb, done⟩
    | some dest => exact h.land hr apart

theorem Unspent.syncTo {f : Frame} {m : SyncMatch} (h : s.Unspent 0 c i) (hf : s.cursor.frame = some f)
    (le : f.index ≤ m.index) (host : Duration) : (s.syncTo f m host).Unspent 0 c i := by
  have before : s.cursor.ahead 0 = f :: s.cursor.returns := Cursor.ahead_of_frame hf 0
  have after : (s.syncTo f m host).cursor.ahead 0 = { f with index := m.index } :: s.cursor.returns :=
    Cursor.ahead_of_frame (frame_syncTo hf m host) 0
  have fewer : Cursor.passes ((s.syncTo f m host).cursor.ahead 0) c i ≤ Cursor.passes (s.cursor.ahead 0) c i := by
    rw [before, after]
    exact Cursor.passes_cons_le f { f with index := m.index } rfl le s.cursor.returns
  refine ⟨Nat.le_trans fewer h.once, ?_⟩
  intro b hb done
  have still (a : Activity) (ha : s.definition.statement? c i = some a) (done : a.latches.done = true) :
      Cursor.passes ((s.syncTo f m host).cursor.ahead 0) c i = 0 :=
    Nat.le_zero.mp (Nat.le_trans fewer (Nat.le_of_eq (h.spent a ha done)))
  dsimp only [Session.syncTo, record_definition] at hb
  rw [Definition.statement?_mapScope] at hb
  split at hb
  · rename_i scope
    obtain ⟨a, ha, rfl⟩ := Option.map_eq_some_iff.mp hb
    split at done
    · exact still a ha done
    · split at done
      · -- Skipped: the frame that led past the place is the one that has moved.
        rename_i between
        simp only [Bool.and_eq_true, decide_eq_true_eq] at between
        have once := h.once
        rw [before] at once
        rw [after]
        exact Cursor.passes_moved once (Frame.covers_iff.mpr ⟨scope, between.1⟩) between.2
      · exact still a ha done
  · exact still b hb done

theorem Unspent.strike {p : Pace} {f : Frame} (h : s.Unspent 0 c i) (hf : s.cursor.frame = some f) :
    (s.strike p f a).Unspent 1 c i := by
  have fewer : Cursor.passes ((s.strike p f a).cursor.ahead 1) c i ≤ Cursor.passes (s.cursor.ahead 0) c i :=
    Cursor.passes_ahead_le s.cursor 1
  refine ⟨Nat.le_trans fewer h.once, ?_⟩
  intro b hb done
  dsimp only [Session.strike, record_definition] at hb
  rw [Definition.statement?_modifyStatement] at hb
  split at hb
  · rename_i here
    obtain ⟨rfl, rfl⟩ := here
    have once := h.once
    rw [Cursor.ahead_of_frame hf] at once
    have after := Cursor.ahead_of_frame (c := (s.strike p f a).cursor) hf 1
    rw [after]
    exact Cursor.passes_moved once (Frame.covers_iff.mpr ⟨rfl, Nat.le_refl _⟩) (Nat.lt_succ_self _)
  · exact Nat.le_zero.mp (Nat.le_trans fewer (Nat.le_of_eq (h.spent b hb done)))

theorem Unspent.refreshWindow (h : s.Unspent 0 c i) (p : Pace) : (s.refreshWindow p).Unspent 0 c i := by
  refine h.forward (Nat.le_of_eq (by rw [cursor_refreshWindow])) ?_
  intro b hb done
  obtain ⟨a, ha, same⟩ := exists_of_refreshWindow (fun a => a.latches.done) hb Activity.done_attend
  exact ⟨a, ha, same ▸ done⟩

theorem unspent_start (p : Pace) (s : Session) (host : Duration) : (s.start p host).Unspent 0 c i := by
  refine ⟨?_, ?_⟩
  · rw [cursor_start]
    calc Cursor.passes ((Cursor.reset s.definition.prepare).ahead 0) c i
        ≤ Cursor.passes [.start] c i := Cursor.passes_ofFrames_le ..
      _ ≤ 1 := List.countP_le_length
  · intro b hb done
    have fresh : b.latches.done = false :=
      trait_start (fun a => a.latches.done) hb (fun _ _ _ _ => rfl) fun a clear => by rw [clear]
    cases fresh.symm.trans done

end Session

namespace Scene

open Session

variable {p : Pace} {x y : Scene} {c : Scope} {i : Nat} {a : Activity}

def resume (x : Scene) : Nat :=
  match x.stage with
  | .leaving .. => 1
  | _ => 0

def Unspent (x : Scene) (c : Scope) (i : Nat) : Prop := x.session.Unspent x.resume c i

/-- The next move lands in front of an address while a return to a place in front of it stays pending. -/
def reenters (x : Scene) (c : Scope) (i : Nat) : Bool := x.session.reenters x.jumpAhead x.resume c i

theorem Next.unspent (move : Next p x y) (h : x.Unspent c i) (apart : x.reenters c i = false) : y.Unspent c i := by
  cases move with
  | tick s host | rebase s clock => exact Session.Unspent.forward h (Nat.le_refl _) fun b hb done => ⟨b, hb, done⟩
  | step | begin | finish | exhaust => exact h
  | hear s line host =>
    rcases synchronize_cases p s line host with he | ⟨f, m, hf, hm, he⟩
    · simp only [he]
      exact h
    · simp only [he]
      have le := (Definition.mem_window (Definition.findSync_eq_some hm).1).2.1
      exact Session.Unspent.syncTo h hf le host
  | fire s line =>
    refine Session.Unspent.forward h (Nat.le_refl _) ?_
    intro b hb done
    exact ⟨b, (Definition.statement?_countFired line).symm.trans hb, done⟩
  | jump s t fired => exact Session.Unspent.follow h (Nat.zero_le _) apart
  | leave s n b => exact Session.Unspent.follow h (Nat.le_refl _) apart
  | passOver s n f hf ha =>
    refine Session.Unspent.forward h ?_ fun b hb done => ⟨b, hb, done⟩
    exact Nat.le_trans (Cursor.passes_advance_le s.cursor s.definition) (Cursor.passes_ahead_le s.cursor 1)
  | execute s n f b hf => exact Session.Unspent.strike h hf
  | await s n f b hf =>
    refine Session.Unspent.forward h (Nat.le_refl _) ?_
    intro b hb done
    obtain ⟨a, ha, same⟩ :=
      Definition.exists_of_modifyStatement hb (fun a => a.latches.done) fun a => a.done_attend ..
    exact ⟨a, ha, same ▸ done⟩
  | «show» s => exact Session.Unspent.refreshWindow h p

theorem Unspent.fresh (h : x.Unspent c i) (executes : x.executes c i = true) :
    ∃ a, x.session.definition.statement? c i = some a ∧ a.latches.done = false := by
  obtain ⟨n, f, a, stage, hf, rfl, rfl, ha, -⟩ := executes_iff.mp executes
  refine ⟨a, ha, ?_⟩
  cases done : a.latches.done with
  | false => rfl
  | true =>
    have spent := Session.Unspent.spent h a ha done
    rw [Cursor.ahead_of_frame hf, Cursor.passes, List.countP_eq_zero] at spent
    have here := spent _ List.mem_cons_self
    simp [Frame.covers_iff, resume, stage] at here

/-- An execution latches that it is done and that the notice has been given. -/
theorem Next.executed (move : Next p x y) (executes : x.executes c i = true) :
    ∃ a b, x.session.definition.statement? c i = some a ∧ y.session.definition.statement? c i = some b ∧
      b.script = a.script ∧ b.latches.done = true ∧ b.latches.notified = true := by
  obtain ⟨n, f, a, stage, hf, rfl, rfl, ha, due⟩ := executes_iff.mp executes
  cases move with
  | execute s m g b hg hb =>
    cases hf.symm.trans hg
    cases ha.symm.trans hb
    refine ⟨a, a.execute s.clock f.base p.lookAhead, ha, ?_, rfl, rfl, rfl⟩
    dsimp only [strike, record_definition]
    rw [Definition.statement?_modifyStatement, if_pos ⟨rfl, rfl⟩]
    exact Option.map_eq_some_iff.mpr ⟨a, ha, rfl⟩
  | finish s m finished => cases hf.symm.trans finished
  | passOver s m g hg none =>
    cases hf.symm.trans hg
    cases ha.symm.trans none
  | await s m g b hg hb early =>
    cases hf.symm.trans hg
    cases ha.symm.trans hb
    cases due.symm.trans early
  | _ => cases stage

/-- The last of the scenes before leave the latches at an address alone, and the entry is written in their course. -/
def Tells (before : List Scene) (y : Scene) (c : Scope) (i : Nat) (e : Happening) : Prop :=
  ∃ x between es, x :: between <:+ before ∧ (∀ z ∈ x :: between, z.clears c i = false) ∧
    y.session.journal = x.session.journal.record es ∧ e ∈ es

theorem Tells.next {before : List Scene} {e : Happening} (h : Tells before x c i e) (move : Next p x y)
    (still : x.clears c i = false) : Tells (before ++ [x]) y c i e := by
  obtain ⟨z, between, es, ⟨earlier, rfl⟩, quiet, journal, mem⟩ := h
  obtain ⟨fs, -, writes⟩ := move.writes
  refine ⟨z, between ++ [x], es ++ fs, ⟨earlier, by simp⟩, ?_, ?_, List.mem_append_left fs mem⟩
  · rw [← List.cons_append, List.forall_mem_append]
    exact ⟨quiet, by simpa using still⟩
  · rw [writes, journal, Journal.record_append]

end Scene

namespace Trail

open Scene

variable {p : Pace} {c : Scope} {i : Nat}

private theorem done_of_linked {x : Scene} {xs : List Scene} (linked : (x :: xs).IsChain (Next p))
    (done : ∃ a, x.session.definition.statement? c i = some a ∧ a.latches.done = true)
    (still : ∀ y ∈ (x :: xs).dropLast, y.clears c i = false) :
    ∀ y ∈ x :: xs, ∃ a, y.session.definition.statement? c i = some a ∧ a.latches.done = true := by
  refine forall_of_linked linked done ?_ still
  rintro y z move still ⟨a, ha, done⟩
  obtain ⟨b, hb, rises⟩ := move.rises still ha
  exact ⟨b, hb, rises.done done⟩

private theorem clears_of_linked {x y : Scene} {between : List Scene}
    (linked : (x :: (between ++ [y])).IsChain (Next p)) (executes : x.executes c i = true)
    (fresh : ∃ a, y.session.definition.statement? c i = some a ∧ a.latches.done = false) :
    ∃ z ∈ between, z.clears c i = true := by
  by_contra none
  simp only [not_exists, not_and, Bool.not_eq_true] at none
  obtain ⟨z, rest, parts⟩ : ∃ z rest, between ++ [y] = z :: rest := List.exists_cons_of_ne_nil (by simp)
  have quiet : ∀ w ∈ (z :: rest).dropLast, w.clears c i = false := by
    rw [← parts, List.dropLast_concat]
    exact none
  have last : y ∈ z :: rest := by
    rw [← parts]
    simp
  rw [parts] at linked
  obtain ⟨move, linked⟩ := List.isChain_cons_cons.mp linked
  obtain ⟨-, b, -, hb, -, done, -⟩ := move.executed executes
  obtain ⟨a, ha, done⟩ := done_of_linked linked ⟨b, hb, done⟩ quiet y last
  obtain ⟨a', ha', fresh⟩ := fresh
  cases ha.symm.trans ha'
  cases done.symm.trans fresh

private theorem tells_of_linked {x y : Scene} {before : List Scene} (linked : (before ++ [y]).IsChain (Next p))
    (head : (before ++ [y]).head? = some x)
    (fresh : ∀ a, x.session.definition.statement? c i = some a → a.latches.notified = false) {b : Activity}
    (hb : y.session.definition.statement? c i = some b) (notified : b.latches.notified = true) {text : String}
    (ht : b.cue.noticeText = some text) :
    ∃ n, Tells before y c i (.notice n) ∧ n.element = b.id ∧ n.source = .activity ∧ n.text = text := by
  -- By induction from the end: a clearing starts over, and the move that latches the notice gives it.
  induction before using List.reverseRecOn generalizing y b with
  | nil =>
    cases head
    cases (fresh b hb).symm.trans notified
  | append_singleton before w ih =>
    obtain ⟨earlier, -, join⟩ := List.isChain_append.mp linked
    have move : Next p w y := join w (by simp) y (by simp)
    obtain ⟨a, ha, id, cue⟩ := Frame.activity?_congr (f := ⟨c, i, 0.0⟩) move.script hb
    rw [← id]
    rw [← cue] at ht
    cases clears : w.clears c i with
    | true =>
      rw [move.rearm clears] at hb
      obtain ⟨a, -, rfl⟩ := Option.map_eq_some_iff.mp hb
      cases notified
    | false =>
      cases told : a.latches.notified with
      | true =>
        obtain ⟨n, tells, about⟩ := ih earlier (by simpa [List.head?_append] using head) ha told ht
        exact ⟨n, tells.next move clears, about⟩
      | false =>
        obtain ⟨es, journal, mem⟩ := move.announces c i a b text ha told hb notified ht
        exact ⟨_, ⟨w, [], es, List.suffix_append before [w], by simpa using clears, journal, mem⟩, rfl, rfl, rfl⟩

theorem tells (t : Trail p) {before : List Scene} {y : Scene} (upTo : before ++ [y] <+: t.scenes) {b : Activity}
    (hb : y.session.definition.statement? c i = some b) (notified : b.latches.notified = true) {text : String}
    (ht : b.cue.noticeText = some text) :
    ∃ n, Tells before y c i (.notice n) ∧ n.element = b.id ∧ n.source = .activity ∧ n.text = text := by
  have head : (before ++ [y]).head? = some ⟨.rest, t.session.start p t.host⟩ := by
    obtain ⟨z, rest, parts⟩ : ∃ z rest, before ++ [y] = z :: rest := List.exists_cons_of_ne_nil (by simp)
    rw [parts] at upTo ⊢
    obtain ⟨later, scenes⟩ := upTo
    exact congrArg List.head? scenes
  have linked : (before ++ [y]).IsChain (Next p) := List.IsChain.prefix t.linked upTo
  refine tells_of_linked linked head ?_ hb notified ht
  intro a ha
  exact Session.trait_start (fun a => a.latches.notified) ha (fun _ _ _ _ => rfl) fun a clear => by rw [clear]

/-- As long as no jump lands in front of an activity while a return to a place in front of it stays pending, only
what is not done is executed, a landing clears the latches between any two executions, and each execution has had
its notice given since the latches were last cleared. -/
theorem executed_once (t : Trail p) (c : Scope) (i : Nat)
    (apart : ∀ x ∈ t.scenes.dropLast, x.reenters c i = false) :
    (∀ x ∈ t.scenes, x.executes c i = true →
      ∃ a, x.session.definition.statement? c i = some a ∧ a.latches.done = false) ∧
    (∀ x between y, x :: (between ++ [y]) <:+: t.scenes → x.executes c i = true → y.executes c i = true →
      ∃ z ∈ between, z.clears c i = true) ∧
    ∀ before x y a text, before ++ [x, y] <+: t.scenes → x.executes c i = true →
      x.session.definition.statement? c i = some a → a.cue.noticeText = some text →
      ∃ n, Tells (before ++ [x]) y c i (.notice n) ∧ n.element = a.id ∧ n.source = .activity ∧ n.text = text := by
  have unspent : ∀ x ∈ t.scenes, x.Unspent c i :=
    forall_of_linked t.linked (Session.unspent_start p t.session t.host) (fun move apart h => move.unspent h apart) apart
  refine ⟨fun x hx executes => (unspent x hx).fresh executes, ?_, ?_⟩
  · intro x between y within first again
    have member : y ∈ t.scenes := within.subset (by simp)
    have linked : (x :: (between ++ [y])).IsChain (Next p) := List.IsChain.infix t.linked within
    exact clears_of_linked linked first ((unspent y member).fresh again)
  · intro before x y a text upTo executes ha ht
    have linked : (before ++ [x, y]).IsChain (Next p) := List.IsChain.prefix t.linked upTo
    have move : Next p x y := by
      obtain ⟨-, pair, -⟩ := List.isChain_append.mp linked
      exact (List.isChain_cons_cons.mp pair).1
    obtain ⟨a', b, ha', hb, script, -, notified⟩ := move.executed executes
    cases ha.symm.trans ha'
    have id := Activity.id_eq_of_script script
    have cue := Activity.cue_eq_of_script script
    rw [← id]
    rw [← cue] at ht
    have split : before ++ [x, y] = (before ++ [x]) ++ [y] := by simp
    exact t.tells (split ▸ upTo) hb notified ht

def echo : Session :=
  { definition :=
      { elements := [.activity { id := 0, cue := { name := some "Echo", goto := some "Echo", notice := some "Again" } }] } }

/-- It is executed a second time once its latches have been cleared. -/
theorem executed_once_echo : ∃ (t : Trail ({ maxStepsPerTick := 2 } : Settings).pace) (x y z : Scene),
    [x, y, z] <:+: t.scenes ∧ x.executes .root 0 = true ∧ z.executes .root 0 = true ∧ y.clears .root 0 = true := by
  let p := ({ maxStepsPerTick := 2 } : Settings).pace
  let s := echo.start p .zero
  let x : Scene := ⟨.playing 2, s⟩
  let y := x.proceed p
  let z := y.proceed p
  have execute : Next p x y := .proceed rfl
  have leave : Next p y z := .proceed (by decide +kernel)
  have apart : ∀ w ∈ [⟨.rest, s⟩, x, y], w.reenters .root 0 = false := by decide +kernel
  have first : x.executes .root 0 = true := by decide +kernel
  have again : z.executes .root 0 = true := by decide +kernel
  let t : Trail p :=
    { session := echo
      host := .zero
      later := [x, y, z]
      linked := .cons_cons (.step s) (.cons_cons execute (.cons_cons leave (.singleton z))) }
  have within : [x, y, z] <:+: t.scenes := ⟨[⟨.rest, s⟩], [], rfl⟩
  obtain ⟨w, hw, clears⟩ := (executed_once t .root 0 apart).2.1 x [y] z within first again
  cases List.mem_singleton.mp hw
  exact ⟨t, x, y, z, within, first, again, clears⟩

def waves : Session :=
  { definition :=
      { elements :=
          [.trigger { id := 0, rule := { sync := some (.ofSource "(?-i)Adds"), call := some "Adds" } },
            .trigger { id := 1, rule := { sync := some (.ofSource "(?-i)Adds"), call := some "Adds" } },
            .subroutine
              { id := 2
                name := some "Adds"
                statements := [{ id := 3, cue := { notice := some "Kill", call := some "Loot" } }] },
            .subroutine { id := 4, name := some "Loot", statements := [{ id := 5, cue := { notice := some "Loot" } }] }] } }

/-- The second call returns into the first one, to adds that have just been executed: they are executed again as
they are, with no notice of their own. -/
theorem exists_executed_again : ∃ (x : Scene) (between : List Scene) (y z : Scene),
    Reached ({} : Settings).pace waves.definition x ∧
    (x :: (between ++ [y, z])).IsChain (Next ({} : Settings).pace) ∧
    x.executes (.subroutine 2) 0 = true ∧ y.executes (.subroutine 2) 0 = true ∧
    (∀ w ∈ between, w.clears (.subroutine 2) 0 = false) ∧
    (y.session.definition.statement? (.subroutine 2) 0).any (fun a => a.latches.done) = true ∧
    z.session.journal.notices.map Notice.text = ["Kill", "Loot"] := by
  let p := ({} : Settings).pace
  let kill : Scene := ⟨.playing 256, (waves.start p .zero).approach p (.line "Adds" .zero)⟩
  let killed := kill.proceed p
  let loot := killed.proceed p
  let looted := loot.proceed p
  let again := looted.proceed p
  let rekilled := again.proceed p
  have reached : Reached p waves.definition kill := (Reached.start waves .zero rfl).approach (.line "Adds" .zero)
  refine ⟨kill, [killed, loot, looted], again, rekilled, reached, ?_, ?_⟩
  · exact .cons_cons (.proceed rfl) (.cons_cons (.proceed (by decide +kernel)) (.cons_cons (.proceed (by decide +kernel))
      (.cons_cons (.proceed (by decide +kernel)) (.cons_cons (.proceed (by decide +kernel)) (.singleton rekilled)))))
  · decide +kernel

end Trail

end EncounterTimeline

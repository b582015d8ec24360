import EncounterTimeline.Feed.Bus
import Mathlib.Data.List.DropRight
import Mathlib.Data.UInt

/-! # Buses lose no line and repeat none

What becomes of a subscriber hangs on its own history alone: the lines that are published and what is done to its
subscription. The subscribers of a bus after a history are therefore read off the subscriptions that the history has.
-/
namespace EncounterTimeline

namespace Bus

inductive Operation where
  | subscribe
  | publish (line : String)
  | unsubscribe (n : Nat)
  | leave (n : Nat)
  | drain (n : Nat)
  deriving DecidableEq

namespace Operation

def line? : Operation → Option String
  | publish line => some line
  | _ => none

def concerns (n : Nat) : Operation → Bool
  | subscribe => false
  | publish _ => true
  | unsubscribe m | leave m | drain m => m == n

end Operation

def perform (b : Bus) : Operation → Bus
  | .subscribe => b.subscribe.2
  | .publish line => b.publish line
  | .unsubscribe n => b.unsubscribe n
  | .leave n => b.leave n
  | .drain n => (b.drain n).2

def run (b : Bus) (ops : List Operation) : Bus := ops.foldl perform b

def taken (n : Nat) (b : Bus) : List Operation → List String
  | [] => []
  | o :: ops => (if o = .drain n then (b.drain n).1 else []) ++ taken n (b.perform o) ops

def waitingAt (b : Bus) (n : Nat) : List String := (b.subscribers[n]?.map Subscriber.waiting).getD []

/-- The number that a subscription was given, and what happens after it. -/
structure Subscription where
  number : Nat
  later : List Operation
  deriving DecidableEq

def subscriptions (b : Bus) : List Operation → List Subscription
  | [] => []
  | .subscribe :: ops => ⟨b.subscribe.1, ops⟩ :: subscriptions b.subscribe.2 ops
  | o :: ops => subscriptions (b.perform o) ops

namespace Subscription

def due (x : Subscription) : List String :=
  (x.later.takeWhile fun o => o ≠ .unsubscribe x.number).filterMap Operation.line?

/-- The subscription has not ended, and when a line was last published somebody was still there to take it. -/
def isCounted (x : Subscription) : Bool :=
  !x.later.contains (.unsubscribe x.number) &&
    !(x.later.rdropWhile fun o => o.line?.isNone).contains (.leave x.number)

end Subscription

end Bus

namespace Subscriber

open Bus (Operation)

variable {s : Subscriber} {n : Nat} {ops : List Operation}

def undergo (n : Nat) (s : Subscriber) : Operation → Subscriber
  | .subscribe => s
  | .publish line => s.offer line
  | .unsubscribe m => if m = n then s.detach else s
  | .leave m => if m = n then s.leave else s
  | .drain m => if m = n then { s with waiting := [] } else s

def after (n : Nat) (s : Subscriber) (ops : List Operation) : Subscriber := ops.foldl (undergo n) s

def takes (n : Nat) (s : Subscriber) : List Operation → List String
  | [] => []
  | o :: ops => (if o = .drain n then s.waiting else []) ++ takes n (s.undergo n o) ops

theorem undergo_of_not_concerns {o : Operation} (h : o.concerns n = false) : s.undergo n o = s ∧ o ≠ .drain n := by
  cases o with
  | subscribe => exact ⟨rfl, nofun⟩
  | publish => cases h
  | unsubscribe m | leave m | drain m =>
    have other : m ≠ n := by simpa [Operation.concerns] using h
    simp [undergo, other]

/-- Only what concerns a subscriber matters to it. -/
theorem takes_filter (n : Nat) (s : Subscriber) (ops : List Operation) :
    s.takes n (ops.filter (Operation.concerns n)) = s.takes n ops ∧
      s.after n (ops.filter (Operation.concerns n)) = s.after n ops := by
  induction ops generalizing s with
  | nil => exact ⟨rfl, rfl⟩
  | cons o ops ih =>
    cases own : o.concerns n with
    | true =>
      rw [List.filter_cons_of_pos own]
      obtain ⟨taken, after⟩ := ih (s.undergo n o)
      exact ⟨congrArg (_ ++ ·) taken, after⟩
    | false =>
      rw [List.filter_cons_of_neg (by simp [own])]
      obtain ⟨same, other⟩ := undergo_of_not_concerns (s := s) own
      simpa [takes, after, same, other] using ih s

/-- While somebody is there, a subscriber takes or keeps waiting the lines that it had and those that it is offered
until the subscription ends. -/
theorem takes_append_waiting (here : s.listening = true) (stays : .leave n ∉ ops) :
    s.takes n ops ++ (s.after n ops).waiting = s.waiting ++
      if s.attached then (ops.takeWhile fun o => o ≠ .unsubscribe n).filterMap Operation.line? else [] := by
  induction ops generalizing s with
  | nil => simp [takes, after]
  | cons o ops ih =>
    rw [List.mem_cons, not_or] at stays
    obtain ⟨other, stays⟩ := stays
    rw [takes, List.append_assoc]
    show _ ++ ((s.undergo n o).takes n ops ++ ((s.undergo n o).after n ops).waiting) = _
    cases o with
    | subscribe =>
      rw [undergo, ih here stays]
      simp [Operation.line?, List.filterMap_cons]
    | publish line =>
      rw [undergo]
      cases on : s.attached with
      | true =>
        have offered : s.offer line = { s with waiting := s.waiting ++ [line] } := by simp [offer, on, here]
        rw [offered, ih (s := { s with waiting := s.waiting ++ [line] }) here stays]
        simp [on, Operation.line?]
      | false =>
        have offered : s.offer line = s := by simp [offer, on]
        rw [offered, ih here stays]
        simp [on]
    | unsubscribe m =>
      by_cases own : m = n
      · subst own
        have ended : s.undergo m (.unsubscribe m) = s.detach := if_pos rfl
        rw [ended, ih (s := s.detach) here stays]
        simp [detach]
      · rw [undergo, if_neg own, ih here stays]
        simp [own, Operation.line?, List.filterMap_cons]
    | leave m =>
      have apart : m ≠ n := fun own => other (own ▸ rfl)
      rw [undergo, if_neg apart, ih here stays]
      simp [Operation.line?, List.filterMap_cons]
    | drain m =>
      by_cases own : m = n
      · subst own
        have emptied : s.undergo m (.drain m) = { s with waiting := [] } := if_pos rfl
        rw [emptied, ih (s := { s with waiting := [] }) here stays]
        simp [Operation.line?, List.filterMap_cons]
      · rw [undergo, if_neg own, ih here stays]
        simp [own, Operation.line?, List.filterMap_cons]

theorem after_concat (n : Nat) (s : Subscriber) (ops : List Operation) (o : Operation) :
    s.after n (ops ++ [o]) = (s.after n ops).undergo n o := by
  rw [after, List.foldl_append]
  rfl

theorem listening_after (n : Nat) (ops : List Operation) :
    (Subscriber.after n {} ops).listening = true ↔ .leave n ∉ ops := by
  induction ops using List.reverseRecOn with
  | nil => simp [after]
  | append_singleton ops o ih =>
    rw [after_concat, List.mem_append, not_or, ← ih]
    cases o with
    | subscribe => simp [undergo]
    | publish line =>
      simp only [undergo, offer]
      split
      · simp
      · split <;> simp
    | unsubscribe m | drain m =>
      rw [undergo]
      split <;> simp [detach]
    | leave m =>
      rw [undergo]
      by_cases own : m = n
      · simp [own, Subscriber.leave]
      · simp [own, Ne.symm own]

/-- A subscription is counted until it ends or a line finds nobody there any more. -/
theorem attached_after (n : Nat) (ops : List Operation) :
    (Subscriber.after n {} ops).attached = true ↔
      .unsubscribe n ∉ ops ∧ .leave n ∉ ops.rdropWhile fun o => o.line?.isNone := by
  induction ops using List.reverseRecOn with
  | nil => simp [after]
  | append_singleton ops o ih =>
    rw [after_concat, List.mem_append, not_or, List.rdropWhile_concat]
    cases o with
    | subscribe => simp [undergo, Operation.line?, ih]
    | publish line =>
      -- A line that is published finds out who has left before.
      have noticed : ((Subscriber.after n {} ops).offer line).attached = true ↔
          (Subscriber.after n {} ops).attached = true ∧ (Subscriber.after n {} ops).listening = true := by
        rw [offer]
        split
        · simp_all
        · split <;> simp_all
      have before : .leave n ∉ ops → .leave n ∉ ops.rdropWhile fun o => o.line?.isNone :=
        fun here gone => here ((List.rdropWhile_prefix _ _).mem gone)
      have fresh (o : Operation) (other : o ≠ .publish line) : o ∉ [.publish line] :=
        fun same => other (List.mem_singleton.mp same)
      rw [undergo, noticed, ih, listening_after, if_neg (by simp [Operation.line?]), List.mem_append, not_or]
      constructor
      · rintro ⟨⟨stays, -⟩, here⟩
        exact ⟨⟨stays, fresh _ nofun⟩, here, fresh _ nofun⟩
      · rintro ⟨⟨stays, -⟩, here, -⟩
        exact ⟨⟨stays, before here⟩, here⟩
    | unsubscribe m =>
      rw [undergo]
      by_cases own : m = n
      · simp [own, detach]
      · simp [own, Ne.symm own, Operation.line?, ih]
    | leave m | drain m =>
      rw [undergo]
      split <;> simp [Subscriber.leave, Operation.line?, ih]

end Subscriber

namespace Bus

variable {b : Bus} {n : Nat} {o : Operation} {ops : List Operation} {x : Subscription}

theorem subscribers_perform (b : Bus) (o : Operation) : (b.perform o).subscribers =
    b.subscribers.mapIdx (fun n s => s.undergo n o) ++ if o = .subscribe then [({} : Subscriber)] else [] := by
  apply List.ext_getElem?
  intro i
  cases o with
  | subscribe =>
    have same : b.subscribers.mapIdx (fun n s => s.undergo n .subscribe) = b.subscribers := by
      apply List.ext_getElem?
      simp [Subscriber.undergo]
    rw [same]
    rfl
  | publish line => simp [perform, publish, Subscriber.undergo]
  | unsubscribe m | leave m | drain m =>
    simp only [perform, unsubscribe, leave, drain, List.getElem?_modify, reduceCtorEq, if_false, List.append_nil,
      List.getElem?_mapIdx, Subscriber.undergo]
    by_cases own : m = i <;> simp [own]

theorem getElem?_perform {s : Subscriber} (hs : b.subscribers[n]? = some s) :
    (b.perform o).subscribers[n]? = some (s.undergo n o) := by
  have lt : n < b.subscribers.length := (List.getElem?_eq_some_iff.mp hs).1
  rw [subscribers_perform, List.getElem?_append_left (by simpa using lt), List.getElem?_mapIdx, hs]
  rfl

/-- A subscriber that the bus knows goes its own way. -/
theorem taken_of_getElem? {s : Subscriber} (hs : b.subscribers[n]? = some s) (ops : List Operation) :
    taken n b ops = s.takes n ops := by
  induction ops generalizing b s with
  | nil => rfl
  | cons o ops ih =>
    have answered : (b.drain n).1 = s.waiting := by simp [drain, hs]
    rw [taken, Subscriber.takes, answered, ih (getElem?_perform hs)]

theorem subscriptions_cons (h : o ≠ .subscribe) : subscriptions b (o :: ops) = subscriptions (b.perform o) ops := by
  cases o with
  | subscribe => exact absurd rfl h
  | _ => rfl

/-- Subscriptions are numbered in their order, after those that the bus has. -/
theorem map_number_subscriptions (b : Bus) (ops : List Operation) : (subscriptions b ops).map Subscription.number =
    List.range' b.subscribers.length (subscriptions b ops).length := by
  induction ops generalizing b with
  | nil => rfl
  | cons o ops ih =>
    by_cases new : o = .subscribe
    · subst new
      have grown : b.subscribe.2.subscribers.length = b.subscribers.length + 1 := List.length_append
      rw [subscriptions, List.map_cons, ih, grown, List.length_cons, List.range'_succ]
      rfl
    · have kept : (b.perform o).subscribers.length = b.subscribers.length := by simp [subscribers_perform, new]
      rw [subscriptions_cons new, ih, kept]

theorem length_le_number (h : x ∈ subscriptions b ops) : b.subscribers.length ≤ x.number := by
  have numbered : x.number ∈ (subscriptions b ops).map Subscription.number := List.mem_map_of_mem h
  rw [map_number_subscriptions, List.mem_range'_1] at numbered
  exact numbered.1

/-- After a history the bus has the subscribers it had, and one for each subscription. -/
theorem subscribers_run (b : Bus) (ops : List Operation) : (b.run ops).subscribers =
    b.subscribers.mapIdx (fun n s => s.after n ops) ++
      (subscriptions b ops).map fun x => Subscriber.after x.number {} x.later := by
  induction ops generalizing b with
  | nil =>
    apply List.ext_getElem?
    simp [run, subscriptions, Subscriber.after]
  | cons o ops ih =>
    have after (n : Nat) (s : Subscriber) : s.after n (o :: ops) = (s.undergo n o).after n ops := rfl
    have run : b.run (o :: ops) = (b.perform o).run ops := rfl
    rw [run, ih, subscribers_perform, List.mapIdx_append, List.mapIdx_mapIdx]
    simp only [after, List.length_mapIdx]
    by_cases new : o = .subscribe
    · subst new
      rw [if_pos rfl, List.mapIdx_singleton, List.append_assoc, Nat.zero_add, subscriptions, List.map_cons]
      rfl
    · rw [subscriptions_cons new, if_neg new, List.mapIdx_nil, List.append_nil]
      rfl

theorem getElem?_run_of_mem (h : x ∈ subscriptions {} ops) :
    (run {} ops).subscribers[x.number]? = some (Subscriber.after x.number {} x.later) := by
  obtain ⟨i, lt, rfl⟩ := List.mem_iff_getElem.mp h
  have place : (subscriptions {} ops)[i].number = i := by
    have number := congrArg (·[i]?) (map_number_subscriptions {} ops)
    simpa [lt] using number
  rw [subscribers_run, List.mapIdx_nil, List.nil_append, List.getElem?_map]
  nth_rewrite 1 [place]
  rw [List.getElem?_eq_getElem lt]
  rfl

theorem taken_of_mem (h : x ∈ subscriptions b ops) : taken x.number b ops = Subscriber.takes x.number {} x.later := by
  induction ops generalizing b with
  | nil => cases h
  | cons o ops ih =>
    have nothing : (b.drain x.number).1 = [] := by
      have none : b.subscribers[x.number]? = none := List.getElem?_eq_none (length_le_number h)
      simp [drain, none]
    rw [taken, nothing, ite_self, List.nil_append]
    by_cases new : o = .subscribe
    · subst new
      rcases List.mem_cons.mp h with rfl | h
      · exact taken_of_getElem? (by simp [perform, subscribe]) ops
      · exact ih h
    · rw [subscriptions_cons new] at h
      exact ih h

theorem taken_append (n : Nat) (b : Bus) (ops later : List Operation) :
    taken n b (ops ++ later) = taken n b ops ++ taken n (b.run ops) later := by
  induction ops generalizing b with
  | nil => rfl
  | cons o ops ih =>
    rw [List.cons_append, taken, taken, ih, List.append_assoc]
    rfl

theorem Subscription.isCounted_iff (x : Subscription) :
    x.isCounted = (Subscriber.after x.number {} x.later).attached := by
  rw [Bool.eq_iff_iff, Subscriber.attached_after]
  simp [isCounted]

/-- A subscription whose receiver is still there has taken, or still has waiting, exactly the lines that are published
before it ends, in their order and each once; draining it takes them all, ended or not. What it has taken and has
waiting hangs on the lines and on what is done to it alone. Its number tells a subscription apart, even if only 64 bits
of it are kept, while there are no more subscriptions than that. The bus counts the subscriptions that have not ended
and had somebody there when a line was last published. -/
theorem delivers_once (ops : List Operation) :
    ((subscriptions {} ops).length ≤ UInt64.size →
      ((subscriptions {} ops).map fun x => UInt64.ofNat x.number).Nodup) ∧
    (∀ x ∈ subscriptions {} ops, .leave x.number ∉ x.later →
      taken x.number {} ops ++ (run {} ops).waitingAt x.number = x.due ∧
        taken x.number {} (ops ++ [.drain x.number]) = x.due) ∧
    (∀ x ∈ subscriptions {} ops, ∀ ops', ∀ y ∈ subscriptions {} ops', y.number = x.number →
      y.later.filter (Operation.concerns x.number) = x.later.filter (Operation.concerns x.number) →
      taken x.number {} ops' = taken x.number {} ops ∧
        (run {} ops').waitingAt x.number = (run {} ops).waitingAt x.number) ∧
    (run {} ops).count = (subscriptions {} ops).countP Subscription.isCounted := by
  have waiting {ops : List Operation} {x : Subscription} (hx : x ∈ subscriptions {} ops) :
      (run {} ops).waitingAt x.number = (Subscriber.after x.number {} x.later).waiting := by
    rw [waitingAt, getElem?_run_of_mem hx]
    rfl
  refine ⟨?_, ?_, ?_, ?_⟩
  · intro few
    have numbers := map_number_subscriptions {} ops
    have wrapped : ((subscriptions {} ops).map fun x => UInt64.ofNat x.number) =
        (List.range' 0 (subscriptions {} ops).length).map UInt64.ofNat := by
      rw [← List.length_nil, ← numbers, List.map_map]
      rfl
    rw [wrapped]
    apply List.Nodup.map_on _ List.nodup_range'
    intro i hi j hj same
    simp only [List.mem_range'_1] at hi hj
    have same := congrArg UInt64.toNat same
    rwa [UInt64.toNat_ofNat_of_lt' (by omega), UInt64.toNat_ofNat_of_lt' (by omega)] at same
  · intro x hx here
    have all : taken x.number {} ops ++ (run {} ops).waitingAt x.number = x.due := by
      rw [taken_of_mem hx, waiting hx]
      exact Subscriber.takes_append_waiting (s := {}) rfl here
    have drained : taken x.number (run {} ops) [.drain x.number] = (run {} ops).waitingAt x.number := by
      simp [taken, drain, waitingAt]
    refine ⟨all, ?_⟩
    rw [taken_append, drained]
    exact all
  · intro x hx ops' y hy number own
    have mine := Subscriber.takes_filter x.number {} x.later
    have other := Subscriber.takes_filter x.number {} y.later
    rw [own] at other
    rw [taken_of_mem hx, waiting hx, ← number, taken_of_mem hy, waiting hy, number]
    exact ⟨other.1.symm.trans mine.1, congrArg Subscriber.waiting (other.2.symm.trans mine.2)⟩
  · rw [count, subscribers_run, List.mapIdx_nil, List.nil_append, List.countP_map]
    congr 1
    funext x
    exact (x.isCounted_iff).symm

/-- The first subscription ends with two lines waiting; nobody is there any more to take those of the second. -/
theorem delivers_once_ended :
    let ops : List Operation :=
      [.subscribe, .publish "a", .subscribe, .publish "b", .unsubscribe 0, .publish "c", .leave 1]
    ∃ x ∈ subscriptions {} ops, x.number = 0 ∧ .leave x.number ∉ x.later ∧
      taken x.number {} (ops ++ [.drain x.number]) = ["a", "b"] ∧ (run {} ops).count = 1 := by
  intro ops
  have there : (⟨0, ops.tail⟩ : Subscription) ∈ subscriptions {} ops := by decide
  obtain ⟨-, delivered, -, counted⟩ := delivers_once ops
  have here : .leave 0 ∉ ops.tail := by decide
  refine ⟨_, there, rfl, here, (delivered _ there here).2, counted⟩

end Bus

end EncounterTimeline

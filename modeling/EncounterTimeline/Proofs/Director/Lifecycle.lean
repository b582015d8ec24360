import EncounterTimeline.Proofs.Director.Outline
import Mathlib.Data.List.Perm.Basic

/-! # One run at a time

However requests, tasks and everything beside them interleave, one handle is active and one definition flagged at
most, and a handle is on its way in or out exactly as long as one task has its state still to set. Whenever the lock
is free there is one run, with the one subscription, flag and handle that belong to it, or there is nothing of the kind.
-/
namespace EncounterTimeline

def Action.settles? : Action → Option HandleKey
  | .setState k _ => some k
  | _ => none

/-- The handle whose state the task has still to set, with the last of its actions. -/
def Task.owner (t : Task) : Option HandleKey := t.actions.getLast?.bind Action.settles?

def Action.Orderly : List Action → Prop
  | [] => True
  | [a] => ∀ k s, a = .setState k s → s.isTransitioning = false
  | a :: later => a.settles? = none ∧ Orderly later

namespace Director

variable {d e : Director} {k : HandleKey} {s : Lifecycle} {a : Action} {t : Task}

def inFlight (d : Director) : List HandleKey := (d.current.toList ++ d.waiting).filterMap Task.owner

def Busy (d : Director) (k : HandleKey) : Prop := ∃ s, d.stateAt k = some s ∧ s.isTransitioning = true

theorem busy_congr (h : ∀ s, s.isTransitioning = true → (e.stateAt k = some s ↔ d.stateAt k = some s)) :
    e.Busy k ↔ d.Busy k :=
  exists_congr fun s => by
    constructor
    · exact fun ⟨here, way⟩ => ⟨(h s way).mp here, way⟩
    · exact fun ⟨here, way⟩ => ⟨(h s way).mpr here, way⟩

namespace Plan

variable {c : Option (HandleKey × Lifecycle)} {actions : List Action}

theorem orderly (h : Plan c actions) : Action.Orderly actions := by
  cases h <;> simp [Action.activate, Action.deactivate, Action.reload, Action.shutdown, Action.stopping,
    Action.starting, Action.Orderly, Action.settles?, Lifecycle.isTransitioning]

theorem settles (h : Plan c actions) : actions.getLast?.bind Action.settles? = c.map Prod.fst := by
  cases h <;> rfl

theorem isTransitioning (h : Plan (some (k, s)) actions) : s.isTransitioning = true := by
  cases h <;> rfl

end Plan

/-- An action touches runs, handles and the bus, and neither tasks nor files. -/
theorem exists_perform_eq (d : Director) (a : Action) : ∃ clock bus nextId registry live leaving,
    (d.perform a).2 = { d with
      clock := clock, bus := bus, nextId := nextId, registry := registry, live := live, leaving := leaving } := by
  cases a with
  | takeLive | takeOwn =>
    simp only [perform, takeRun]
    split
    · exact ⟨_, _, _, _, _, _, rfl⟩
    · split <;> exact ⟨_, _, _, _, _, _, rfl⟩
  | detach =>
    simp only [perform, detach]
    split <;> exact ⟨_, _, _, _, _, _, rfl⟩
  | lowerLeaving =>
    simp only [perform, lowerLeaving]
    split <;> exact ⟨_, _, _, _, _, _, rfl⟩
  | restLeaving =>
    simp only [perform, restLeaving]
    split <;> exact ⟨_, _, _, _, _, _, rfl⟩
  | refresh =>
    simp only [perform, refresh]
    split <;> exact ⟨_, _, _, _, _, _, rfl⟩
  | begin =>
    simp only [perform, beginRun]
    split <;> exact ⟨_, _, _, _, _, _, rfl⟩
  | connect =>
    simp only [perform, connect]
    split <;> exact ⟨_, _, _, _, _, _, rfl⟩
  | lowerFlag | setState => exact ⟨_, _, _, _, _, _, rfl⟩

theorem tasks_perform (d : Director) (a : Action) :
    (d.perform a).2.current = d.current ∧ (d.perform a).2.waiting = d.waiting := by
  obtain ⟨_, _, _, _, _, _, touched⟩ := d.exists_perform_eq a
  rw [touched]
  exact ⟨rfl, rfl⟩

/-- Unless it sets a state, an action takes a handle from active to idle at most. -/
theorem stateAt_perform (h : a.settles? = none) (k : HandleKey) : (d.perform a).2.stateAt k = d.stateAt k ∨
    (d.stateAt k = some .active ∧ (d.perform a).2.stateAt k = some .idle) := by
  cases a with
  | takeLive | takeOwn =>
    simp only [perform, takeRun]
    split
    · exact .inl rfl
    · split <;> exact .inl rfl
  | detach =>
    simp only [perform, detach]
    split <;> exact .inl rfl
  | lowerLeaving =>
    simp only [perform, lowerLeaving]
    split
    · exact .inl rfl
    · exact .inl (stateAt_of_keeps fun _ => rfl)
  | restLeaving =>
    simp only [perform, restLeaving]
    split
    · exact .inl rfl
    · rename_i r _
      show (d.modifyHandle r.key _).stateAt k = _ ∨ _ ∧ (d.modifyHandle r.key _).stateAt k = _
      rw [stateAt_modifyHandle]
      by_cases own : r.key = k
      · rw [if_pos own, stateAt]
        cases d.handle? k with
        | none => exact .inl rfl
        | some x =>
          by_cases active : x.state = .active
          · exact .inr (by simp [Handle.settleFrom, active, Handle.setState])
          · exact .inl (by simp [Handle.settleFrom, active])
      · exact .inl (if_neg own)
  | lowerFlag => exact .inl (stateAt_of_keeps fun _ => rfl)
  | refresh key path =>
    rw [perform, refresh]
    split
    · exact .inl rfl
    · exact .inl rfl
    · rename_i document _
      exact .inl (stateAt_of_keeps (d := d)
        (f := fun h => h.replace { (document.workbench d.nextId).definition with file := some path }) fun _ => rfl)
  | begin key =>
    simp only [perform, beginRun]
    split
    · exact .inl rfl
    · exact .inl (stateAt_of_keeps (d := d) fun _ => rfl)
  | connect =>
    simp only [perform, connect]
    split <;> exact .inl rfl
  | setState => cases h

theorem stateAt_perform_iff (h : a.settles? = none) (way : s.isTransitioning = true) :
    (d.perform a).2.stateAt k = some s ↔ d.stateAt k = some s := by
  rcases stateAt_perform (d := d) h k with same | ⟨before, after⟩
  · rw [same]
  · rw [before, after]
    cases s with
    | idle | active => cases way
    | loading | unloading => simp

theorem isSome_stateAt_perform (d : Director) (a : Action) (k : HandleKey)
    (h : (d.stateAt k).isSome = true) : ((d.perform a).2.stateAt k).isSome = true := by
  cases settles : a.settles? with
  | none =>
    rcases stateAt_perform (d := d) settles k with same | ⟨-, after⟩
    · rw [same]
      exact h
    · rw [after]
      rfl
  | some =>
    cases a with
    | setState j s =>
      rw [perform, stateAt_setState]
      split
      · simpa using h
      · exact h
    | _ => cases settles

/-- Every task that waits has a plan, and a handle is on its way exactly if a task is in flight for it. -/
structure Booked (d : Director) : Prop where
  planned : ∀ t ∈ d.waiting, ∃ c, Plan c t.actions ∧ ∀ k s, c = some (k, s) → d.stateAt k = some s
  distinct : d.inFlight.Nodup
  busy : ∀ k, k ∈ d.inFlight ↔ d.Busy k

structure Led (d : Director) : Prop where
  rests : d.current = none → Rested (fun _ => False) d
  outlined : ∀ t, d.current = some t → Action.Orderly t.actions ∧ ∃ (known : HandleKey → Prop) (P : Assertion),
    (∀ k, known k → (d.stateAt k).isSome = true) ∧ P.holds d ∧ Outline known P t.actions

structure Governed (d : Director) : Prop where
  booked : d.Booked
  led : d.Led

theorem Led.tidy (h : d.Led) : d.Tidy := by
  cases current : d.current with
  | none => exact (h.rests current).tidy
  | some t =>
    obtain ⟨-, known, P, -, holds, -⟩ := h.outlined t current
    exact P.tidy holds

theorem governed_opened (settings : Settings) (host : HostClock) (storage : Storage) :
    Governed { settings := settings, host := host, storage := storage } where
  booked :=
    { planned := nofun
      distinct := List.nodup_nil
      busy := fun k => by simp [inFlight, Busy, stateAt, handle?] }
  led :=
    { rests := fun _ =>
        { tidy :=
            { heard := nofun
              alone := .inl rfl
              active := nofun
              flagged := nofun
              attached := nofun }
          leaving := rfl
          stays := nofun }
      outlined := nofun }

theorem Drift.isSome (h : Drift d e) (here : (d.stateAt k).isSome = true) : (e.stateAt k).isSome = true := by
  rcases h.state k with same | ⟨new, -⟩ | ⟨_, _, -, -, after⟩
  · rw [same]
    exact here
  · rw [new] at here
    cases here
  · rw [after]
    rfl

/-- What happens beside the tasks leaves rest and outline in force. -/
theorem Led.drift (h : d.Led) (drift : Drift d e) (current : e.current = d.current) : e.Led := by
  refine { rests := ?_, outlined := ?_ }
  · intro free
    exact (Assertion.rested _).drift drift (h.rests (current.symm.trans free))
  · intro t taken
    obtain ⟨orderly, known, P, here, holds, outline⟩ := h.outlined t (current.symm.trans taken)
    exact ⟨orderly, known, P, fun k hk => drift.isSome (here k hk), P.drift drift holds, outline⟩

theorem Booked.calm (h : d.Booked) (calm : Calm d e) : e.Booked := by
  have flight : e.inFlight = d.inFlight := by rw [inFlight, inFlight, calm.current, calm.waiting]
  have busy (k : HandleKey) : e.Busy k ↔ d.Busy k := by
    apply busy_congr
    intro s way
    rcases calm.state k with same | ⟨before, after⟩
    · rw [same]
    · rw [before, after]
      cases s with
      | idle | active => cases way
      | loading | unloading => simp
  refine { planned := ?_, distinct := ?_, busy := ?_ }
  · intro t ht
    rw [calm.waiting] at ht
    obtain ⟨c, plan, claimed⟩ := h.planned t ht
    refine ⟨c, plan, ?_⟩
    intro k s hc
    have before := claimed k s hc
    rcases calm.state k with same | ⟨new, -⟩
    · exact same.trans before
    · cases new.symm.trans before
  · rw [flight]
    exact h.distinct
  · intro k
    rw [flight, busy]
    exact h.busy k

theorem inFlight_launch (d : Director) (actions : List Action) :
    (d.launch actions).2.inFlight = d.inFlight ++ (actions.getLast?.bind Action.settles?).toList := by
  simp only [inFlight, launch, ← List.append_assoc, List.filterMap_append]
  congr 1

theorem Claims.isTransitioning {s t : Lifecycle} (h : Claims s t) : s.isTransitioning = false := by
  cases h <;> rfl

/-- A task that is about no handle. -/
theorem Booked.launch {actions : List Action} (h : d.Booked) (plan : Plan none actions) :
    (d.launch actions).2.Booked := by
  have flight : (d.launch actions).2.inFlight = d.inFlight := by
    rw [inFlight_launch, plan.settles]
    exact List.append_nil _
  refine { planned := ?_, distinct := flight ▸ h.distinct, busy := flight ▸ h.busy }
  intro t ht
  rcases List.mem_append.mp ht with old | new
  · exact h.planned t old
  · rw [List.mem_singleton.mp new]
    exact ⟨none, plan, nofun⟩

/-- A task for a handle that was in nobody's hands. -/
theorem Booked.claim {s t : Lifecycle} {actions : List Action} (h : d.Booked) (claims : Claims s t)
    (state : d.stateAt k = some s) (plan : Plan (some (k, t)) actions) :
    ((d.modifyHandle k fun h => h.setState t).launch actions).2.Booked := by
  have flight : ((d.modifyHandle k fun h => h.setState t).launch actions).2.inFlight = d.inFlight ++ [k] := by
    rw [inFlight_launch, plan.settles]
    rfl
  have states (j : HandleKey) : ((d.modifyHandle k fun h => h.setState t).launch actions).2.stateAt j =
      if k = j then some t else d.stateAt j := by
    show (d.modifyHandle k fun h => h.setState t).stateAt j = _
    rw [stateAt_setState]
    by_cases own : k = j
    · subst own
      simp [state]
    · simp [own]
  have free : k ∉ d.inFlight := by
    rw [h.busy]
    rintro ⟨s', here, way⟩
    cases state.symm.trans here
    cases way.symm.trans claims.isTransitioning
  refine { planned := ?_, distinct := ?_, busy := ?_ }
  · intro t' ht
    rcases List.mem_append.mp ht with old | new
    · obtain ⟨c, plan', claimed⟩ := h.planned t' old
      refine ⟨c, plan', ?_⟩
      rintro j s' rfl
      have before := claimed j s' rfl
      have other : k ≠ j := by
        rintro rfl
        cases state.symm.trans before
        cases plan'.isTransitioning.symm.trans claims.isTransitioning
      rw [states, if_neg other]
      exact before
    · rw [List.mem_singleton.mp new]
      refine ⟨some (k, t), plan, ?_⟩
      rintro _ _ ⟨⟩
      rw [states, if_pos rfl]
  · rw [flight]
    refine List.nodup_append.mpr ⟨h.distinct, List.nodup_singleton k, ?_⟩
    intro j hj i hi same
    rw [List.mem_singleton.mp hi] at same
    exact free (same ▸ hj)
  · intro j
    rw [flight, List.mem_append, List.mem_singleton, Busy, states]
    by_cases own : k = j
    · subst own
      simp [plan.isTransitioning]
    · simp only [if_neg own, Ne.symm own, or_false]
      exact h.busy j

theorem Booked.request (h : d.Booked) (step : Request d e) : e.Booked := by
  rcases step.cases with ⟨actions, plan, rfl⟩ | ⟨k, s, t, actions, claims, state, plan, rfl⟩
  · exact h.launch plan
  · exact h.claim claims state plan

theorem Request.current (step : Request d e) : e.current = d.current := by
  rcases step.cases with ⟨actions, -, rfl⟩ | ⟨k, s, t, actions, -, -, -, rfl⟩ <;> rfl

theorem takeUp_cases {n : Nat} (step : d.takeUp n = some e) : ∃ t, d.current = none ∧ d.waiting[n]? = some t ∧
    e = { d with current := some t, waiting := d.waiting.eraseIdx n } := by
  unfold Director.takeUp at step
  split at step
  · rename_i t current waiting
    cases step
    exact ⟨t, current, waiting, rfl⟩
  · cases step

theorem Governed.takeUp {n : Nat} (h : d.Governed) (step : d.takeUp n = some e) : e.Governed := by
  obtain ⟨t, current, waiting, rfl⟩ := takeUp_cases step
  obtain ⟨lt, rfl⟩ := List.getElem?_eq_some_iff.mp waiting
  have flight : (inFlight { d with current := some d.waiting[n], waiting := d.waiting.eraseIdx n }).Perm
      d.inFlight := by
    simp only [inFlight, current, Option.toList_some, Option.toList_none, List.nil_append]
    exact (List.getElem_cons_eraseIdx_perm lt).filterMap _
  obtain ⟨c, plan, claimed⟩ := h.booked.planned _ (List.getElem_mem lt)
  obtain ⟨P, holds, outline⟩ := plan.outline (h.led.rests current) claimed
  have known (k : HandleKey) (hk : k ∈ c.map Prod.fst) : (d.stateAt k).isSome = true := by
    obtain ⟨⟨j, s⟩, hc, rfl⟩ := Option.map_eq_some_iff.mp hk
    rw [claimed j s hc]
    rfl
  refine
    { booked :=
        { planned := fun t ht => h.booked.planned t (List.mem_of_mem_eraseIdx ht)
          distinct := flight.nodup_iff.mpr h.booked.distinct
          busy := fun k => flight.mem_iff.trans (h.booked.busy k) }
      led := { rests := nofun, outlined := ?_ } }
  rintro _ ⟨⟩
  have drift : Drift d { d with current := some d.waiting[n], waiting := d.waiting.eraseIdx n } :=
    { (Calm.refl d).drift with }
  exact ⟨plan.orderly, _, P, known, P.drift drift holds, outline⟩

def afterAction (d : Director) (t : Task) (a : Action) (later : List Action) : Director :=
  { (d.perform a).2 with current := some { t with actions := later, fault := t.fault.or (d.perform a).1 } }

theorem inFlight_of_current (h : d.current = some t) :
    d.inFlight = t.owner.toList ++ d.waiting.filterMap Task.owner := by
  rw [inFlight, h, List.filterMap_append]
  congr 1

theorem inFlight_afterAction (later : List Action) : (d.afterAction t a later).inFlight =
    (later.getLast?.bind Action.settles?).toList ++ d.waiting.filterMap Task.owner := by
  have waiting : (d.afterAction t a later).waiting = d.waiting := (tasks_perform d a).2
  rw [inFlight_of_current (d := d.afterAction t a later) rfl, waiting]
  rfl

/-- An action that sets no state leaves the books as they are. -/
theorem Booked.act {later : List Action} (h : d.Booked) (current : d.current = some t)
    (actions : t.actions = a :: later) (plain : a.settles? = none) : (d.afterAction t a later).Booked := by
  have owner : t.owner = later.getLast?.bind Action.settles? := by
    rw [Task.owner, actions]
    cases later with
    | nil => exact plain
    | cons b later => rw [List.getLast?_cons_cons]
  have flight : (d.afterAction t a later).inFlight = d.inFlight := by
    rw [inFlight_afterAction, inFlight_of_current current, owner]
  refine { planned := ?_, distinct := flight ▸ h.distinct, busy := ?_ }
  · intro t' ht
    replace ht : t' ∈ (d.perform a).2.waiting := ht
    rw [(tasks_perform d a).2] at ht
    obtain ⟨c, plan, claimed⟩ := h.planned t' ht
    refine ⟨c, plan, ?_⟩
    rintro k s rfl
    exact (stateAt_perform_iff plain plan.isTransitioning).mpr (claimed k s rfl)
  · intro k
    rw [flight, h.busy k]
    exact (busy_congr fun s way => stateAt_perform_iff plain way).symm

/-- The last action of a task strikes its handle off. -/
theorem Booked.settle (h : d.Booked) (current : d.current = some t) (actions : t.actions = [.setState k s])
    (rests : s.isTransitioning = false) : (d.afterAction t (.setState k s) []).Booked := by
  have states (j : HandleKey) : (d.afterAction t (.setState k s) []).stateAt j =
      if k = j then (d.stateAt j).map fun _ => s else d.stateAt j := stateAt_setState
  have before : d.inFlight = k :: d.waiting.filterMap Task.owner := by
    have owner : t.owner = some k := by rw [Task.owner, actions]; rfl
    rw [inFlight_of_current current, owner]
    rfl
  have after : (d.afterAction t (.setState k s) []).inFlight = d.waiting.filterMap Task.owner :=
    inFlight_afterAction []
  have distinct := h.distinct
  rw [before, List.nodup_cons] at distinct
  refine { planned := ?_, distinct := after ▸ distinct.2, busy := ?_ }
  · intro t' ht
    obtain ⟨c, plan, claimed⟩ := h.planned t' ht
    refine ⟨c, plan, ?_⟩
    rintro j u rfl
    have other : k ≠ j := by
      rintro rfl
      exact distinct.1 (List.mem_filterMap.mpr ⟨t', ht, plan.settles⟩)
    rw [states, if_neg other]
    exact claimed j u rfl
  · intro j
    rw [after, Busy, states]
    have busy := h.busy j
    rw [before, List.mem_cons] at busy
    by_cases own : k = j
    · subst own
      simp only [distinct.1, if_true, Option.map_eq_some_iff, false_iff]
      rintro ⟨_, ⟨_, -, rfl⟩, way⟩
      cases way.symm.trans rests
    · rw [if_neg own]
      exact (or_iff_right (Ne.symm own)).symm.trans busy

theorem orderly_cons {later : List Action} (h : Action.Orderly (a :: later)) :
    (a.settles? = none ∧ Action.Orderly later) ∨
      ∃ k s, a = .setState k s ∧ s.isTransitioning = false ∧ later = [] := by
  cases later with
  | cons b later => exact .inl h
  | nil =>
    cases a with
    | setState k s => exact .inr ⟨k, s, rfl, h k s rfl, rfl⟩
    | _ => exact .inl ⟨rfl, trivial⟩

theorem Governed.finish (h : d.Governed) (current : d.current = some t) (spent : t.actions = []) :
    Governed { d with current := none, finished := d.finished ++ [(t.id, t.fault)] } := by
  obtain ⟨-, known, P, -, holds, outline⟩ := h.led.outlined t current
  rw [spent] at outline
  cases outline with
  | done rest =>
    have rested : Rested (fun _ => False) { d with current := none, finished := d.finished ++ [(t.id, t.fault)] } :=
      (Assertion.rested _).drift { (Calm.refl d).drift with } (rest holds)
    have flight : inFlight { d with current := none, finished := d.finished ++ [(t.id, t.fault)] } = d.inFlight := by
      have owner : t.owner = none := by rw [Task.owner, spent]; rfl
      rw [inFlight_of_current current, owner]
      rfl
    exact
      { booked :=
          { planned := h.booked.planned
            distinct := flight ▸ h.booked.distinct
            busy := flight ▸ h.booked.busy }
        led := { rests := fun _ => rested, outlined := nofun } }

theorem Governed.act {later : List Action} (h : d.Governed) (current : d.current = some t)
    (actions : t.actions = a :: later) : (d.afterAction t a later).Governed := by
  obtain ⟨orderly, known, P, here, holds, outline⟩ := h.led.outlined t current
  rw [actions] at orderly outline
  cases outline with
  | @act _ Q _ _ act outline =>
    have drift : Drift (d.perform a).2 (d.afterAction t a later) := { (Calm.refl _).drift with }
    have left : Action.Orderly later := by
      rcases orderly_cons orderly with ⟨-, left⟩ | ⟨-, -, -, -, rfl⟩
      · exact left
      · trivial
    have led : (d.afterAction t a later).Led := by
      refine { rests := nofun, outlined := ?_ }
      rintro _ ⟨⟩
      exact ⟨left, known, Q, fun k hk => isSome_stateAt_perform d a k (here k hk),
        Q.drift drift (act here holds), outline⟩
    rcases orderly_cons orderly with ⟨plain, -⟩ | ⟨k, s, rfl, rests, rfl⟩
    · exact { booked := h.booked.act current actions plain, led }
    · exact { booked := h.booked.settle current actions rests, led }

/-- The task that holds the lock gives it back, or takes an action that need not wait. -/
theorem proceed_cases (step : d.proceed = some e) :
    (∃ t, d.current = some t ∧ t.actions = [] ∧
        e = { d with current := none, finished := d.finished ++ [(t.id, t.fault)] }) ∨
      ∃ t a later, d.current = some t ∧ t.actions = a :: later ∧ d.blocked a = false ∧ e = d.afterAction t a later := by
  unfold Director.proceed at step
  split at step
  · cases step
  · rename_i t current
    split at step
    · rename_i spent
      cases step
      exact .inl ⟨t, current, spent, rfl⟩
    · rename_i a later actions
      split at step
      · cases step
      · rename_i free
        replace step : d.afterAction t a later = e := Option.some.inj step
        exact .inr ⟨t, a, later, current, actions, Bool.not_eq_true _ ▸ free, step.symm⟩

theorem Governed.proceed (h : d.Governed) (step : d.proceed = some e) : e.Governed := by
  rcases proceed_cases step with ⟨t, current, spent, rfl⟩ | ⟨t, a, later, current, actions, -, rfl⟩
  · exact h.finish current spent
  · exact h.act current actions

theorem Reached.governed (h : Reached d) : d.Governed := by
  induction h with
  | opened settings host storage => exact governed_opened settings host storage
  | next _ step ih =>
    cases step with
    | ambient h =>
      have calm := h.calm
      exact { booked := ih.booked.calm calm, led := ih.led.drift calm.drift calm.current }
    | request h => exact { booked := ih.booked.request h, led := ih.led.drift h.drift h.current }
    | takeUp n h => exact ih.takeUp h
    | proceed h => exact ih.proceed h

theorem advance_cases (step : d.advance = some e) : d.proceed = some e ∨ d.takeUp 0 = some e :=
  (Option.or_eq_some_iff.mp step).imp_right And.right

theorem Reached.advance (h : Reached d) (step : d.advance = some e) : Reached e := by
  rcases advance_cases step with took | took
  · exact h.next (.proceed took)
  · exact h.next (.takeUp 0 took)

/-- What each step of the tasks keeps is kept until they have run. -/
theorem runTasks_keeps {motive : Director → Prop} (advance : ∀ e f, motive e → e.advance = some f → motive f)
    (h : motive d) : motive d.runTasks := by
  unfold runTasks
  induction d.workload generalizing d with
  | zero => exact h
  | succ n ih =>
    unfold advanceBy
    split
    case h_1 => exact h
    case h_2 e step => exact ih (advance d e h step)

theorem Reached.runTasks (h : Reached d) : Reached d.runTasks := runTasks_keeps (fun _ _ => .advance) h

structure Quiet (d : Director) : Prop where
  live : d.live = none
  leaving : d.leaving = none
  unsubscribed : d.bus.count = 0
  unflagged : ∀ k, d.flagAt k = false
  inactive : ∀ k, d.stateAt k ≠ some .active

/-- A run is live; the one subscription that is counted and the one flag that is set belong to it, and so does the
handle that is active, if there is one. -/
structure Plays (d : Director) (r : Run) : Prop where
  live : d.live = some r
  leaving : d.leaving = none
  subscribed : ∃ n, r.subscription = some n ∧ d.bus.attachedAt n = true
  count : d.bus.count = 1
  flagged : ∀ k, d.flagAt k = true ↔ k = r.key
  active : ∀ k, d.stateAt k = some .active → k = r.key
  state : d.stateAt r.key = some .active ∨ d.stateAt r.key = some .unloading

theorem Rested.quiet_or_plays (h : Rested (fun _ => False) d) : d.Quiet ∨ ∃ r, d.Plays r := by
  have leaving : d.leaving = none := Option.map_eq_none_iff.mp h.leaving
  cases live : d.live with
  | none =>
    have link : d.liveLink = none := by rw [liveLink, live]; rfl
    have apart {k : HandleKey} {n : Option Nat} : ¬ d.Holds k n := by
      rintro (some | some)
      · cases link.symm.trans some
      · cases h.leaving.symm.trans some
    left
    refine { live, leaving, unsubscribed := Bus.count_eq_zero ?_, unflagged := ?_, inactive := ?_ }
    · intro n
      rw [← Bool.not_eq_true]
      intro on
      obtain ⟨k, holds⟩ := h.tidy.attached n on
      exact apart holds
    · intro k
      rw [← Bool.not_eq_true]
      intro on
      obtain ⟨n, holds⟩ := h.tidy.flagged k on
      exact apart holds
    · intro k active
      obtain ⟨n, holds⟩ := h.tidy.active k active
      exact apart holds
  | some r =>
    have link : d.liveLink = some (r.key, r.subscription) := by rw [liveLink, live]; rfl
    have own {k : HandleKey} {n : Option Nat} (holds : d.Holds k n) : k = r.key ∧ n = r.subscription :=
      h.tidy.unique holds (.inl link)
    obtain ⟨connected, -⟩ := h.stays _ _ link
    obtain ⟨n, hn, on⟩ := connected.attached
    right
    have counted (m : Nat) : d.bus.attachedAt m = true ↔ m = n := by
      constructor
      · intro other
        obtain ⟨k, holds⟩ := h.tidy.attached m other
        exact Option.some.inj ((own holds).2.trans hn)
      · rintro rfl
        exact on
    have flagged (k : HandleKey) : d.flagAt k = true ↔ k = r.key := by
      constructor
      · intro flag
        obtain ⟨n, holds⟩ := h.tidy.flagged k flag
        exact (own holds).1
      · rintro rfl
        exact connected.flag
    have active (k : HandleKey) (running : d.stateAt k = some .active) : k = r.key := by
      obtain ⟨n, holds⟩ := h.tidy.active k running
      exact (own holds).1
    exact ⟨r, ⟨live, leaving, ⟨n, hn, on⟩, Bus.count_eq_one counted, flagged, active, connected.state⟩⟩

/-- However events interleave, at most one handle is active and at most one definition flagged, and a handle is on its
way exactly as long as one task is in flight for it. While the lock is free nothing is live or one run is, with all
that belongs to it; once all tasks have ended every handle is idle or active. -/
theorem one_run_at_a_time {d : Director} (h : Reached d) :
    (∀ j k, d.stateAt j = some .active → d.stateAt k = some .active → j = k) ∧
      (∀ j k, d.flagAt j = true → d.flagAt k = true → j = k) ∧
      d.inFlight.Nodup ∧
      (∀ k, k ∈ d.inFlight ↔ ∃ s, d.stateAt k = some s ∧ s.isTransitioning = true) ∧
      (d.current = none → d.Quiet ∨ ∃ r, d.Plays r) ∧
      (d.current = none → d.waiting = [] → ∀ k s, d.stateAt k = some s → s = .idle ∨ s = .active) := by
  obtain ⟨booked, led⟩ := h.governed
  have tidy := led.tidy
  refine ⟨?_, ?_, booked.distinct, booked.busy, fun free => (led.rests free).quiet_or_plays, ?_⟩
  · intro j k active active'
    obtain ⟨m, holds⟩ := tidy.active j active
    obtain ⟨n, holds'⟩ := tidy.active k active'
    exact (tidy.unique holds holds').1
  · intro j k flag flag'
    obtain ⟨m, holds⟩ := tidy.flagged j flag
    obtain ⟨n, holds'⟩ := tidy.flagged k flag'
    exact (tidy.unique holds holds').1
  · intro free spent k s state
    have none : d.inFlight = [] := by rw [inFlight, free, spent]; rfl
    have still : ¬ d.Busy k := by
      rw [← booked.busy k, none]
      exact List.not_mem_nil
    cases s with
    | idle => exact .inl rfl
    | active => exact .inr rfl
    | loading => exact (still ⟨_, state, rfl⟩).elim
    | unloading => exact (still ⟨_, state, rfl⟩).elim

theorem one_run_at_a_time_activated :
    ∃ d, Reached d ∧ d.current = none ∧ d.stateAt 0 = some .active ∧ ∃ r, d.Plays r := by
  have opened : Reached {} := .opened {} ⟨0⟩ {}
  have registered := opened.next (.ambient (.register {} {}))
  have asked := registered.next (.request (.setActive 0 true 0 rfl))
  have activated := asked.runTasks
  obtain ⟨-, -, -, -, free, -⟩ := one_run_at_a_time activated
  exact ⟨_, activated, rfl, rfl, (free rfl).resolve_left fun quiet => quiet.inactive 0 rfl⟩

end Director

end EncounterTimeline

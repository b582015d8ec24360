import EncounterTimeline.Proofs.Director.Lifecycle

/-! # Whose run it is

The actions of a task tell whose run is live and whose is being stopped after each of them. Followed from rest, a
task rereads no handle and sets none idle that has a run, so a handle is never idle from the moment its run begins
until it has been stopped.
-/
namespace EncounterTimeline

def Definition.content (d : Definition) : Definition := { d.script with isActive := false }

structure Seats where
  live : Option HandleKey
  leaving : Option HandleKey

namespace Seats

variable {s : Seats} {k : HandleKey} {a : Action}

def Taken (s : Seats) (k : HandleKey) : Prop := s.live = some k ∨ s.leaving = some k

def vacate (s : Seats) (meant : HandleKey → Bool) : Seats :=
  match s.live with
  | none => s
  | some k => if meant k then ⟨none, some k⟩ else s

def after (s : Seats) : Action → Seats
  | .takeLive => s.vacate fun _ => true
  | .takeOwn k => s.vacate (· == k)
  | .restLeaving => { s with leaving := none }
  | .begin k => { s with live := some k }
  | .detach | .lowerLeaving | .lowerFlag _ | .refresh _ _ | .connect | .setState _ _ => s

def Admits (s : Seats) : Action → Prop
  | .refresh k _ => ¬ s.Taken k
  | .setState k t => t = .idle → ¬ s.Taken k
  | _ => True

def Allows (s : Seats) : List Action → Prop
  | [] => True
  | a :: later => s.Admits a ∧ (s.after a).Allows later

theorem taken_of_vacate {meant : HandleKey → Bool} (h : (s.vacate meant).Taken k) : s.Taken k := by
  obtain ⟨live, leaving⟩ := s
  cases live with
  | none => exact h
  | some j =>
    simp only [vacate] at h
    split at h
    · rcases h with none | left
      · cases none
      · exact .inl left
    · exact h

/-- A handle has a run only from its beginning on. -/
theorem taken_of_after (h : (s.after a).Taken k) : s.Taken k ∨ a = .begin k := by
  cases a with
  | takeLive | takeOwn => exact .inl (taken_of_vacate h)
  | restLeaving =>
    rcases h with live | none
    · exact .inl (.inl live)
    · cases none
  | begin j =>
    rcases h with began | leaving
    · exact .inr (congrArg Action.begin (Option.some.inj began))
    · exact .inl (.inr leaving)
  | detach | lowerLeaving | lowerFlag | refresh | connect | setState => exact .inl h

theorem live_vacate_ne {meant : HandleKey → Bool} (h : meant k = true) : (s.vacate meant).live ≠ some k := by
  obtain ⟨live, leaving⟩ := s
  cases live with
  | none => exact nofun
  | some j =>
    intro stays
    simp only [vacate] at stays
    split at stays
    · cases stays
    · rename_i other
      cases stays
      exact other h

theorem allows_stopping {later : List Action} : s.Allows (Action.stopping ++ later) ↔
    Seats.Allows { s with leaving := none } later := by
  simp [Action.stopping, Allows, Admits, after]

theorem allows_starting (s : Seats) (k : HandleKey) : s.Allows (Action.starting k) := by
  simp [Action.starting, Allows, Admits]

/-- From rest a task goes its way, provided a handle to be loaded is not live. -/
theorem allows_plan {c : Option (HandleKey × Lifecycle)} {actions : List Action} (plan : Director.Plan c actions)
    (leaving : s.leaving = none) (loaded : ∀ k, c = some (k, .loading) → s.live ≠ some k) :
    s.Allows actions := by
  have apart (s : Seats) (k : HandleKey) : ¬ Seats.Taken { s.vacate (· == k) with leaving := none } k := by
    rintro (live | none)
    · exact live_vacate_ne (by simp) live
    · cases none
  cases plan with
  | activate k => exact ⟨trivial, allows_stopping.mpr (allows_starting _ k)⟩
  | deactivate k => exact ⟨trivial, allows_stopping.mpr ⟨trivial, fun _ => apart s k, trivial⟩⟩
  | restart k path =>
    have again : Seats.Allows { s.vacate (· == k) with leaving := none }
        (.takeLive :: Action.stopping ++ Action.starting k) :=
      ⟨trivial, allows_stopping.mpr (allows_starting _ k)⟩
    exact ⟨trivial, allows_stopping.mpr ⟨apart s k, again⟩⟩
  | refresh k path =>
    have apart : ¬ s.Taken k := by
      rintro (live | left)
      · exact loaded k rfl live
      · cases leaving.symm.trans left
    exact ⟨apart, fun _ => apart, trivial⟩
  | shutdown => exact ⟨trivial, allows_stopping.mpr trivial⟩
  | nothing => trivial

end Seats

/-- A run that the task is still to begin is one for the handle whose state it sets in the end. -/
def Task.Owns (t : Task) : Prop := ∀ k, .begin k ∈ t.actions → t.owner = some k

namespace Director

variable {d e : Director} {j k : HandleKey} {a : Action} {t : Task} {x : Handle}

def Underway (d : Director) (r : Run) : Prop := d.live = some r ∨ d.leaving = some r

def Runs (d : Director) (k : HandleKey) : Prop := ∃ r, d.Underway r ∧ r.key = k

def seats (d : Director) : Seats := ⟨d.live.map Run.key, d.leaving.map Run.key⟩

theorem runs_iff : d.Runs k ↔ d.seats.Taken k := by
  simp only [Runs, Underway, Seats.Taken, seats, Option.map_eq_some_iff]
  constructor
  · rintro ⟨r, live | leaving, own⟩
    · exact .inl ⟨r, live, own⟩
    · exact .inr ⟨r, leaving, own⟩
  · rintro (⟨r, live, own⟩ | ⟨r, leaving, own⟩)
    · exact ⟨r, .inl live, own⟩
    · exact ⟨r, .inr leaving, own⟩

theorem seats_eq_links (d : Director) : d.seats = ⟨d.liveLink.map Prod.fst, d.leavingLink.map Prod.fst⟩ := by
  simp only [seats, liveLink, leavingLink, Option.map_map]
  rfl

theorem Drift.seats (h : Drift d e) : e.seats = d.seats := by rw [seats_eq_links, seats_eq_links, h.live, h.leaving]

/-- What an action leaves of a handle: whether it is edited, what is written in it unless it is reread, and its state
unless that is set or the run of the handle has left. -/
structure Carried (d : Director) (a : Action) (k : HandleKey) (x y : Handle) : Prop where
  guarded : y.guarded = x.guarded
  content : (∀ path, a ≠ .refresh k path) → y.definition.content = x.definition.content
  state : y.state = x.state ∨ a = .setState k y.state ∨ (a = .restLeaving ∧ d.seats.leaving = some k)

theorem Carried.refl (d : Director) (a : Action) (k : HandleKey) (x : Handle) : Carried d a k x x where
  guarded := rfl
  content _ := rfl
  state := .inl rfl

theorem Carried.elements {y : Handle} (h : Carried d a k x y) (other : ∀ path, a ≠ .refresh k path) :
    y.definition.script.elements = x.definition.script.elements := by
  have same := congrArg Definition.elements (h.content other)
  exact same

theorem exists_handle?_modifyHandle {R : Handle → Handle → Prop} {f : Handle → Handle} (hx : d.handle? k = some x)
    (refl : R x x) (own : j = k → R x (f x)) : ∃ y, (d.modifyHandle j f).handle? k = some y ∧ R x y := by
  rw [handle?_modifyHandle]
  by_cases h : j = k
  · rw [if_pos h, hx]
    exact ⟨f x, rfl, own h⟩
  · rw [if_neg h]
    exact ⟨x, hx, refl⟩

theorem exists_handle?_perform (a : Action) (hx : d.handle? k = some x) :
    ∃ y, (d.perform a).2.handle? k = some y ∧ Carried d a k x y := by
  have same := Carried.refl d a k x
  cases a with
  | takeLive | takeOwn =>
    simp only [perform, takeRun]
    split
    · exact ⟨x, hx, same⟩
    · split <;> exact ⟨x, hx, same⟩
  | detach =>
    simp only [perform, detach]
    split <;> exact ⟨x, hx, same⟩
  | connect =>
    simp only [perform, connect]
    split <;> exact ⟨x, hx, same⟩
  | lowerLeaving =>
    simp only [perform, lowerLeaving]
    split
    · exact ⟨x, hx, same⟩
    · exact exists_handle?_modifyHandle hx same fun _ => ⟨rfl, fun _ => rfl, .inl rfl⟩
  | restLeaving =>
    simp only [perform, restLeaving]
    split
    · exact ⟨x, hx, same⟩
    · rename_i r leaving
      refine exists_handle?_modifyHandle (d := d) hx same ?_
      rintro rfl
      have left : d.seats.leaving = some r.key := by rw [seats, leaving]; rfl
      unfold Handle.settleFrom
      split
      · exact ⟨rfl, fun _ => rfl, .inr (.inr ⟨rfl, left⟩)⟩
      · exact same
  | lowerFlag => exact exists_handle?_modifyHandle hx same fun _ => ⟨rfl, fun _ => rfl, .inl rfl⟩
  | refresh key path =>
    simp only [perform, refresh]
    split
    · exact ⟨x, hx, same⟩
    · exact ⟨x, hx, same⟩
    · refine exists_handle?_modifyHandle (d := d) hx same ?_
      rintro rfl
      exact ⟨rfl, fun other => (other path rfl).elim, .inl rfl⟩
  | begin key =>
    simp only [perform, beginRun]
    split
    · exact ⟨x, hx, same⟩
    · rename_i z hz
      refine exists_handle?_modifyHandle (d := d) hx same ?_
      rintro rfl
      cases hx.symm.trans hz
      have content := congrArg (fun d : Definition => { d with isActive := false })
        (Session.script_start d.settings.pace { definition := x.definition } d.host.elapsed)
      exact ⟨rfl, fun _ => content, .inl rfl⟩
  | setState => exact exists_handle?_modifyHandle hx same fun own => ⟨rfl, fun _ => rfl, .inr (.inl (by rw [own]; rfl))⟩

theorem seats_takeRun (d : Director) (meant : HandleKey → Bool) :
    (d.takeRun fun r => meant r.key).seats = d.seats.vacate meant := by
  cases live : d.live with
  | none => simp [takeRun, seats, Seats.vacate, live]
  | some r => cases go : meant r.key <;> simp [takeRun, seats, Seats.vacate, live, go]

/-- The runs after an action are those that the action tells, if a run begins for handles there are. -/
theorem seats_perform (known : ∀ k, a = .begin k → (d.stateAt k).isSome = true) :
    (d.perform a).2.seats = d.seats.after a := by
  cases a with
  | takeLive => exact d.seats_takeRun fun _ => true
  | takeOwn k => exact d.seats_takeRun (· == k)
  | detach =>
    simp only [perform, detach]
    split <;> rfl
  | lowerLeaving =>
    simp only [perform, lowerLeaving]
    split <;> rfl
  | restLeaving =>
    simp only [perform, restLeaving]
    split
    · rename_i none
      simp [seats, Seats.after, none]
    · rfl
  | lowerFlag | setState => rfl
  | refresh k path => exact (calm_refresh d k path).drift.seats
  | begin k =>
    obtain ⟨x, hx⟩ := exists_handle?_of_isSome (known k rfl)
    simp only [perform, beginRun, hx]
    rfl
  | connect =>
    simp only [perform, connect]
    split
    · rfl
    · rename_i r live
      simp [seats, Seats.after, live]

/-- What the task that holds the lock has still to do befits the runs under way, and no handle that has a run is
idle. -/
structure Attended (d : Director) : Prop where
  owns : ∀ t, d.current = some t → t.Owns
  allowed : ∀ t, d.current = some t → d.seats.Allows t.actions
  loaded : ∀ k, d.Runs k → ∃ s, d.stateAt k = some s ∧ s ≠ .idle

theorem Drift.loaded (h : Drift d e) (loaded : ∃ s, d.stateAt k = some s ∧ s ≠ .idle) :
    ∃ s, e.stateAt k = some s ∧ s ≠ .idle := by
  obtain ⟨s, before, busy⟩ := loaded
  rcases h.state k with same | ⟨none, -⟩ | ⟨_, t, claims, -, after⟩
  · exact ⟨s, same.trans before, busy⟩
  · cases none.symm.trans before
  · refine ⟨t, after, ?_⟩
    cases claims <;> exact nofun

theorem Attended.drift (h : d.Attended) (drift : Drift d e) (current : e.current = d.current) : e.Attended where
  owns t taken := h.owns t (current.symm.trans taken)
  allowed t taken := by
    rw [drift.seats]
    exact h.allowed t (current.symm.trans taken)
  loaded k runs := by
    rw [runs_iff, drift.seats, ← runs_iff] at runs
    exact drift.loaded (h.loaded k runs)

theorem Plan.owns {c : Option (HandleKey × Lifecycle)} (plan : Plan c t.actions) : t.Owns := by
  intro k begins
  rw [Task.owner, plan.settles]
  generalize t.actions = actions at plan begins
  cases plan <;> simp_all [Action.activate, Action.deactivate, Action.reload, Action.shutdown, Action.stopping,
    Action.starting]

theorem Attended.takeUp {n : Nat} (h : d.Attended) (governed : d.Governed) (step : d.takeUp n = some e) :
    e.Attended := by
  obtain ⟨t, current, waiting, rfl⟩ := takeUp_cases step
  obtain ⟨c, plan, claimed⟩ := governed.booked.planned t (List.mem_of_getElem? waiting)
  have rested := governed.led.rests current
  have leaving : d.seats.leaving = none := by rw [seats_eq_links, rested.leaving]; rfl
  have free (k : HandleKey) (hc : c = some (k, .loading)) : d.seats.live ≠ some k := by
    intro live
    rw [seats_eq_links] at live
    obtain ⟨⟨j, n⟩, link, rfl⟩ := Option.map_eq_some_iff.mp live
    rcases (rested.stays _ _ link).1.state with s | s <;> cases (claimed _ _ hc).symm.trans s
  refine { owns := ?_, allowed := ?_, loaded := h.loaded }
  · rintro _ ⟨⟩
    exact plan.owns
  · rintro _ ⟨⟩
    exact Seats.allows_plan plan leaving free

theorem Attended.finish (h : d.Attended) (finished : List (TaskId × Option Fault)) :
    Attended { d with current := none, finished := finished } where
  owns := nofun
  allowed := nofun
  loaded := h.loaded

theorem Attended.busy_of_begin {later : List Action} (h : d.Attended) (governed : d.Governed)
    (current : d.current = some t) (actions : t.actions = .begin k :: later) : d.Busy k := by
  have owner : t.owner = some k := h.owns t current k (by simp [actions])
  rw [← governed.booked.busy k, inFlight_of_current current, owner]
  exact List.mem_cons_self

theorem Attended.seats_perform {later : List Action} (h : d.Attended) (governed : d.Governed)
    (current : d.current = some t) (actions : t.actions = a :: later) : (d.perform a).2.seats = d.seats.after a := by
  apply Director.seats_perform
  rintro k rfl
  obtain ⟨s, here, -⟩ := h.busy_of_begin governed current actions
  rw [here]
  rfl

theorem Attended.act {later : List Action} (h : d.Attended) (governed : d.Governed) (current : d.current = some t)
    (actions : t.actions = a :: later) : (d.afterAction t a later).Attended := by
  have seats := h.seats_perform governed current actions
  have allowed := h.allowed t current
  rw [actions] at allowed
  refine { owns := ?_, allowed := ?_, loaded := ?_ }
  · rintro _ ⟨⟩ k begins
    have owner := h.owns t current k (by rw [actions]; exact List.mem_cons_of_mem _ begins)
    rw [Task.owner, actions] at owner
    cases later with
    | nil => cases begins
    | cons b later => rwa [List.getLast?_cons_cons] at owner
  · rintro _ ⟨⟩
    show (d.perform a).2.seats.Allows later
    rw [seats]
    exact allowed.2
  · intro k runs
    replace runs : (d.perform a).2.Runs k := runs
    show ∃ s, (d.perform a).2.stateAt k = some s ∧ s ≠ .idle
    rw [runs_iff, seats] at runs
    rcases Seats.taken_of_after runs with ran | rfl
    · obtain ⟨s, before, busy⟩ := h.loaded k (runs_iff.mpr ran)
      obtain ⟨x, hx, rfl⟩ := Option.map_eq_some_iff.mp before
      obtain ⟨y, hy, carried⟩ := exists_handle?_perform a hx
      have after : (d.perform a).2.stateAt k = some y.state := by rw [stateAt, hy]; rfl
      refine ⟨y.state, after, ?_⟩
      rcases carried.state with same | rfl | ⟨rfl, left⟩
      · rwa [same]
      · exact fun idle => allowed.1 idle ran
      · -- The run that has left was the only one.
        obtain ⟨r, leaving, rfl⟩ := Option.map_eq_some_iff.mp left
        have alone : d.seats.live = none := by
          rw [seats_eq_links, governed.led.tidy.liveLink_of_leaving leaving]
          rfl
        rcases runs with live | none
        · cases alone.symm.trans live
        · cases none
    · obtain ⟨s, here, way⟩ := h.busy_of_begin governed current actions
      refine ⟨s, (stateAt_perform_iff rfl way).mpr here, ?_⟩
      rintro rfl
      cases way

theorem Attended.proceed (h : d.Attended) (governed : d.Governed) (step : d.proceed = some e) : e.Attended := by
  rcases proceed_cases step with ⟨t, -, -, rfl⟩ | ⟨t, a, later, current, actions, -, rfl⟩
  · exact h.finish _
  · exact h.act governed current actions

theorem Reached.attended (h : Reached d) : d.Attended := by
  induction h with
  | opened settings host storage =>
    refine { owns := nofun, allowed := nofun, loaded := ?_ }
    rintro k ⟨r, live | leaving, -⟩
    · cases live
    · cases leaving
  | next h step ih =>
    cases step with
    | ambient h => exact ih.drift h.calm.drift h.calm.current
    | request h => exact ih.drift h.drift h.current
    | takeUp n step => exact ih.takeUp h.governed step
    | proceed step => exact ih.proceed h.governed step

end Director

end EncounterTimeline

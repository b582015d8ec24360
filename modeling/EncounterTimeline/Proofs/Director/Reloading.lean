import EncounterTimeline.Proofs.Director.Seats

/-! # What a reload leaves running

Where a task leaves the runs is settled when it takes the lock, whatever happens beside it. A reload that was asked for
while its handle was not active leaves every run alone. One that was asked for while the handle was active restarts
the handle, also if its run has been stopped meanwhile and another run is live.
-/
namespace EncounterTimeline

namespace Seats

variable {s : Seats} {k : HandleKey} {path : String}

def afterAll (s : Seats) (actions : List Action) : Seats := actions.foldl after s

/-- Nobody has a run who had none and for whom none was to begin. -/
theorem taken_of_afterAll {actions : List Action} (h : (s.afterAll actions).Taken k) : s.Taken k ∨ .begin k ∈ actions := by
  induction actions generalizing s with
  | nil => exact .inl h
  | cons a later ih =>
    rcases ih h with taken | begins
    · rcases taken_of_after taken with before | rfl
      · exact .inl before
      · exact .inr List.mem_cons_self
    · exact .inr (List.mem_cons_of_mem _ begins)

/-- Whatever is live leaves. -/
theorem live_vacate_all (s : Seats) : Seats.live (s.vacate fun _ => true) = none := by
  cases live : s.live <;> simp [vacate, live]

theorem afterAll_restart (s : Seats) (k : HandleKey) (path : String) :
    s.afterAll (Action.reload k path true) = ⟨some k, none⟩ := by
  simp [afterAll, Action.reload, Action.stopping, Action.starting, after, live_vacate_all]

end Seats

namespace Director

variable {d e f d₀ : Director} {k : HandleKey} {t : Task} {path : String}

def AsksReload (d : Director) (k : HandleKey) (t : Task) : Prop :=
  ∃ e, d.reload k = .ok (t.id, e) ∧ e.waiting = d.waiting ++ [t]

/-- How far things have come since a task took the lock, until it gives it back. -/
inductive Course (d : Director) (t : Task) : Director → Prop
  | takes {e : Director} (n : Nat) (waits : d.waiting[n]? = some t) (step : d.takeUp n = some e) : Course d t e
  | goes {e f : Director} (course : Course d t e) (held : e.current ≠ none) (step : Next e f) : Course d t f

theorem AsksReload.actions (asked : AsksReload d k t) :
    ∃ path, t.actions = Action.reload k path (decide (d.stateAt k = some .active)) := by
  obtain ⟨e, h, left⟩ := asked
  obtain ⟨x, hx, h⟩ := except_bind_eq_ok h
  have state : d.stateAt k = some x.state := by rw [stateAt, handle?_of_require hx]; rfl
  cases hf : x.definition.file with
  | none => simp [hf] at h
  | some path =>
    simp only [hf] at h
    obtain ⟨claimed, -, h⟩ := except_bind_eq_ok h
    obtain ⟨-, rfl⟩ := Prod.mk.inj (Except.ok.inj h)
    have launched := List.append_cancel_left left
    refine ⟨path, ?_⟩
    rw [← List.head_eq_of_cons_eq launched, state]
    cases x.state <;> rfl

/-- While a task holds the lock, it ends, or its next action is performed, or nothing happens to it and to the runs. -/
theorem Next.held_cases {u : Task} (step : Next e f) (current : e.current = some u) :
    (f.current = some u ∧ f.liveLink = e.liveLink ∧ f.seats = e.seats) ∨
      (u.actions = [] ∧ f.current = none ∧ f.liveLink = e.liveLink ∧ f.seats = e.seats) ∨
      ∃ a later, u.actions = a :: later ∧ f = e.afterAction u a later := by
  cases step with
  | ambient step =>
    have calm := step.calm
    exact .inl ⟨calm.current.trans current, calm.live, calm.drift.seats⟩
  | request step => exact .inl ⟨step.current.trans current, step.drift.live, step.drift.seats⟩
  | takeUp n step =>
    obtain ⟨-, free, -, -⟩ := takeUp_cases step
    cases free.symm.trans current
  | proceed step =>
    rcases proceed_cases step with ⟨v, own, spent, rfl⟩ | ⟨v, a, later, own, actions, -, rfl⟩
    · cases current.symm.trans own
      exact .inr (.inl ⟨spent, rfl, rfl, rfl⟩)
    · cases current.symm.trans own
      exact .inr (.inr ⟨a, later, actions, rfl⟩)

theorem Reached.asks (_ : Reached d) (_ : Reached e) (k : HandleKey) (t : Task) (step : d.reload k = .ok (t.id, e))
    (left : e.waiting = d.waiting ++ [t]) : AsksReload d k t := ⟨e, step, left⟩

theorem Reached.takes (_ : Reached d) (n : Nat) (waits : d.waiting[n]? = some t) (step : d.takeUp n = some e) :
    Course d t e := .takes n waits step

namespace Course

theorem reached (course : Course d t e) (h : Reached d) : Reached e := by
  induction course with
  | takes n _ step => exact h.next (.takeUp n step)
  | goes _ _ step ih => exact ih.next step

theorem held (n : Nat) (waits : d.waiting[n]? = some t) (step : d.takeUp n = some e) :
    e.current = some t ∧ e.seats = d.seats ∧ e.liveLink = d.liveLink := by
  obtain ⟨u, -, here, rfl⟩ := takeUp_cases step
  cases waits.symm.trans here
  exact ⟨rfl, rfl, rfl⟩

/-- What is still to be done leads to where the task leads as a whole. -/
theorem seats (course : Course d t e) (h : Reached d) :
    (∃ u, e.current = some u ∧ e.seats.afterAll u.actions = d.seats.afterAll t.actions) ∨
      e.current = none ∧ e.seats = d.seats.afterAll t.actions := by
  induction course with
  | takes n waits step =>
    obtain ⟨current, same, -⟩ := held n waits step
    exact .inl ⟨t, current, by rw [same]⟩
  | @goes e f course held step ih =>
    have reached := course.reached h
    rcases ih with ⟨u, current, leads⟩ | ⟨free, -⟩
    · rcases step.held_cases current with ⟨still, -, same⟩ | ⟨spent, free, -, same⟩ | ⟨a, later, actions, rfl⟩
      · exact .inl ⟨u, still, by rw [same, leads]⟩
      · rw [spent] at leads
        exact .inr ⟨free, same.trans leads⟩
      · have after := reached.attended.seats_perform reached.governed current actions
        rw [actions] at leads
        refine .inl ⟨_, rfl, ?_⟩
        show (e.perform a).2.seats.afterAll later = _
        rw [after]
        exact leads
    · exact absurd free held

/-- Rereading a handle and setting its state touch no run. -/
theorem liveLink (course : Course d t e) (plain : t.actions = Action.reload k path false) :
    e.liveLink = d.liveLink := by
  suffices spared : e.liveLink = d.liveLink ∧ ∀ u, e.current = some u → u.actions <:+ t.actions from spared.1
  induction course with
  | takes n waits step =>
    obtain ⟨current, -, same⟩ := held n waits step
    refine ⟨same, ?_⟩
    intro u own
    cases current.symm.trans own
    exact List.suffix_refl _
  | @goes e f course held step ih =>
    obtain ⟨same, left⟩ := ih
    obtain ⟨u, current⟩ := Option.ne_none_iff_exists'.mp held
    rcases step.held_cases current with ⟨still, live, -⟩ | ⟨-, free, live, -⟩ | ⟨a, later, actions, rfl⟩
    · rw [still, live]
      exact ⟨same, fun v own => left v (current.trans own)⟩
    · rw [free, live]
      exact ⟨same, nofun⟩
    · have rest := left u current
      rw [actions] at rest
      refine ⟨?_, ?_⟩
      · have among : a ∈ t.actions := rest.subset List.mem_cons_self
        rw [plain] at among
        rw [← same]
        rcases List.mem_pair.mp among with rfl | rfl
        · exact (calm_refresh e k path).live
        · rfl
      · rintro _ ⟨⟩
        exact (List.suffix_cons a later).trans rest

theorem proceed (course : Course d t e) (step : e.proceed = some f) : Course d t f := by
  refine course.goes ?_ (.proceed step)
  intro free
  simp [Director.proceed, free] at step

end Course

/-- A reload that was asked for while its handle was not active leaves every run alone at every moment. One that was
asked for while it was active comes to its end with the run of the handle live and no other. So a reload keeps what it
finds live exactly if the handle was not active when it was asked for, or its own run is still the live one when the
reload takes the lock. -/
theorem reload_keeps_live_iff (h : Reached d) (asked : AsksReload d₀ k t) (course : Course d t f) :
    (d₀.stateAt k ≠ some .active → f.liveLink = d.liveLink) ∧
      (f.current = none →
        (d₀.stateAt k = some .active → ∃ r, f.Plays r ∧ r.key = k) ∧
          (f.live.map Run.key = d.live.map Run.key ↔
            (d₀.stateAt k = some .active → d.live.map Run.key = some k))) := by
  obtain ⟨path, actions⟩ := asked.actions
  have untouched (idle : d₀.stateAt k ≠ some .active) : f.liveLink = d.liveLink := by
    rw [decide_eq_false idle] at actions
    exact course.liveLink actions
  refine ⟨untouched, fun ended => ?_⟩
  have restarted (active : d₀.stateAt k = some .active) : f.live.map Run.key = some k := by
    rw [decide_eq_true active] at actions
    rcases course.seats h with ⟨u, current, -⟩ | ⟨-, seats⟩
    · cases ended.symm.trans current
    · rw [actions, Seats.afterAll_restart] at seats
      exact congrArg Seats.live seats
  refine ⟨?_, ?_⟩
  · intro active
    obtain ⟨r, live, own⟩ := Option.map_eq_some_iff.mp (restarted active)
    rcases ((course.reached h).governed.led.rests ended).quiet_or_plays with quiet | ⟨r', plays⟩
    · cases live.symm.trans quiet.live
    · cases live.symm.trans plays.live
      exact ⟨r, plays, own⟩
  · by_cases active : d₀.stateAt k = some .active
    · rw [restarted active]
      simp [active, eq_comm]
    · have same := congrArg (Option.map Prod.fst) (untouched active)
      simp only [Director.liveLink, Option.map_map] at same
      simp only [active, false_implies, iff_true]
      exact same

/-- A handle is reloaded while its run is live. -/
theorem reload_keeps_live_iff_own : ∃ (d₀ d f : Director) (t : Task), Reached d₀ ∧ d₀.AsksReload 0 t ∧ Reached d ∧
    Course d t f ∧ f.current = none ∧ d₀.stateAt 0 = some .active ∧ d.live.map Run.key = some 0 ∧
      ∃ r, f.Plays r ∧ r.key = 0 := by
  have opened : Reached {} := .opened {} ⟨0⟩ {}
  have registered := opened.next (.ambient (.register {} { file := some "raid.xml" }))
  have activated := (registered.next (.request (.setActive 0 true 0 rfl))).runTasks
  have pending := activated.next (.request (.reload 0 1 rfl))
  have asked := activated.asks pending 0 { id := 1, actions := Action.reload 0 "raid.xml" true } rfl rfl
  have taken := pending.takes 0 rfl rfl
  have stopped := (((taken.proceed rfl).proceed rfl).proceed rfl).proceed rfl
  have reread := ((((stopped.proceed rfl).proceed rfl).proceed rfl).proceed rfl).proceed rfl
  have ended := (((reread.proceed rfl).proceed rfl).proceed rfl).proceed rfl
  refine ⟨_, _, _, _, activated, asked, pending, ended, rfl, rfl, rfl, ?_⟩
  exact ((reload_keeps_live_iff pending asked ended).2 rfl).1 rfl

/-- The second handle has been activated when the reload takes the lock, and the reload stops it. -/
theorem exists_reload_takes_over : ∃ (d₀ d f : Director) (t : Task), Reached d₀ ∧ d₀.AsksReload 0 t ∧ Reached d ∧
    Course d t f ∧ f.current = none ∧ d.live.map Run.key = some 1 ∧ d.stateAt 1 = some .active ∧
      f.live.map Run.key = some 0 ∧ f.stateAt 1 = some .idle := by
  have opened : Reached {} := .opened {} ⟨0⟩ {}
  have first := opened.next (.ambient (.register {} { file := some "raid.xml" }))
  have second := first.next (.ambient (.register _ {}))
  have activated := (second.next (.request (.setActive 0 true 0 rfl))).runTasks
  have claimed := activated.next (.request (.setActive 1 true 1 rfl))
  have pending := claimed.next (.request (.reload 0 2 rfl))
  have left := ((((pending.next (.takeUp 0 rfl)).next (.proceed rfl)).next (.proceed rfl)).next (.proceed rfl)).next
    (.proceed rfl)
  have switched := (((left.next (.proceed rfl)).next (.proceed rfl)).next (.proceed rfl)).next (.proceed rfl)
  have taken := switched.takes 0 rfl rfl
  have stopped := (((taken.proceed rfl).proceed rfl).proceed rfl).proceed rfl
  have reread := ((((stopped.proceed rfl).proceed rfl).proceed rfl).proceed rfl).proceed rfl
  have ended := (((reread.proceed rfl).proceed rfl).proceed rfl).proceed rfl
  exact ⟨_, _, _, _, claimed, ⟨_, rfl, rfl⟩, switched, ended, rfl, rfl, rfl, rfl, rfl⟩

end Director

end EncounterTimeline

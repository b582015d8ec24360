import EncounterTimeline.Proofs.Director.Editors

/-! # What becomes of tasks

Every task has a number of its own, under which its outcome is kept. Tasks run until there are none left, or until the
one that holds the lock has to wait for an editor, and they take no definition from an editor. Once there are none, a
handle is active and flagged if it has the live run, and idle otherwise.
-/
namespace EncounterTimeline.Director

variable {d e : Director} {k : HandleKey} {a : Action} {t : Task} {x : Handle}

def tasks (d : Director) : List Task := d.current.toList ++ d.waiting

theorem current_of_tasks (h : d.tasks = []) : d.current = none := by
  rw [tasks, List.append_eq_nil_iff] at h
  exact Option.toList_eq_nil_iff.mp h.1

theorem tasks_of_current {u : Task} (current : e.current = some t) (tasks : e.tasks = [u]) :
    t = u ∧ e.waiting = [] := by
  rw [Director.tasks, current] at tasks
  exact List.cons_eq_cons.mp tasks

structure Numbered (d : Director) : Prop where
  under : ∀ t ∈ d.tasks, t.id < d.taskCount
  ended : ∀ p ∈ d.finished, p.1 < d.taskCount

theorem records_playLive (f : Session → Session) :
    (d.playLive f).finished = d.finished ∧ (d.playLive f).taskCount = d.taskCount := by
  unfold playLive
  split
  · exact ⟨rfl, rfl⟩
  · split <;> exact ⟨rfl, rfl⟩

/-- What happens beside the tasks keeps the record of them. -/
theorem Ambient.records (h : Ambient d e) : e.finished = d.finished ∧ e.taskCount = d.taskCount := by
  cases h with
  | register | endEdit | publish | clock | files => exact ⟨rfl, rfl⟩
  | loadFile path key h =>
    unfold Director.loadFile at h
    split at h <;> cases h <;> exact ⟨rfl, rfl⟩
  | save key =>
    unfold Director.save
    split
    · exact ⟨rfl, rfl⟩
    · rename_i x _
      split
      · exact ⟨rfl, rfl⟩
      · rename_i path _
        obtain ⟨result, storage, saved⟩ := d.saveTo_cases x.definition path
        rw [saved]
        exact ⟨rfl, rfl⟩
  | saveAs key path =>
    unfold Director.saveAs
    split
    · exact ⟨rfl, rfl⟩
    · rename_i x _
      obtain ⟨result, storage, saved⟩ := d.saveTo_cases x.definition path
      rw [saved]
      cases result <;> exact ⟨rfl, rfl⟩
  | beginEdit key h =>
    obtain ⟨-, rfl⟩ := beginEdit_eq_ok_iff.mp h
    exact ⟨rfl, rfl⟩
  | amend key f h =>
    unfold Director.amend
    split <;> exact ⟨rfl, rfl⟩
  | hearLine line => exact records_playLive _
  | tickLive => exact records_playLive _
  | takeLines =>
    unfold Director.takeLines
    split <;> exact ⟨rfl, rfl⟩

theorem records_perform (d : Director) (a : Action) : (d.perform a).2.finished = d.finished ∧
    (d.perform a).2.taskCount = d.taskCount ∧ (d.perform a).2.storage = d.storage := by
  obtain ⟨_, _, _, _, _, _, touched⟩ := d.exists_perform_eq a
  rw [touched]
  exact ⟨rfl, rfl, rfl⟩

theorem Numbered.ambient (h : d.Numbered) (step : Ambient d e) : e.Numbered := by
  obtain ⟨finished, count⟩ := step.records
  have calm := step.calm
  refine { under := ?_, ended := ?_ }
  · rw [tasks, calm.current, calm.waiting, count]
    exact h.under
  · rw [finished, count]
    exact h.ended

theorem Numbered.launch (h : d.Numbered) (actions : List Action) : (d.launch actions).2.Numbered := by
  refine { under := ?_, ended := fun p hp => Nat.lt_succ_of_lt (h.ended p hp) }
  intro t ht
  rw [tasks, Director.launch, ← List.append_assoc] at ht
  rcases List.mem_append.mp ht with old | new
  · exact Nat.lt_succ_of_lt (h.under t old)
  · rw [List.mem_singleton.mp new]
    exact Nat.lt_succ_self _

theorem Numbered.request (h : d.Numbered) (step : Request d e) : e.Numbered := by
  rcases step.cases with ⟨actions, -, rfl⟩ | ⟨k, s, t, actions, -, -, -, rfl⟩
  · exact h.launch actions
  · have claimed : (d.modifyHandle k fun h => h.setState t).Numbered := ⟨h.under, h.ended⟩
    exact claimed.launch actions

theorem Numbered.takeUp {n : ℕ} (h : d.Numbered) (step : d.takeUp n = some e) : e.Numbered := by
  obtain ⟨t, current, waiting, rfl⟩ := takeUp_cases step
  refine { under := ?_, ended := h.ended }
  intro u hu
  apply h.under
  rw [tasks, current]
  rcases List.mem_cons.mp hu with rfl | later
  · exact List.mem_of_getElem? waiting
  · exact List.mem_of_mem_eraseIdx later

theorem Numbered.proceed (h : d.Numbered) (step : d.proceed = some e) : e.Numbered := by
  rcases proceed_cases step with ⟨t, current, -, rfl⟩ | ⟨t, a, later, current, -, -, rfl⟩
  · have own : t ∈ d.tasks := by simp [tasks, current]
    refine { under := fun u hu => h.under u (List.mem_append_right _ hu), ended := ?_ }
    intro p hp
    rcases List.mem_append.mp hp with old | new
    · exact h.ended p old
    · rw [List.mem_singleton.mp new]
      exact h.under t own
  · obtain ⟨finished, count, -⟩ := records_perform d a
    have own : t ∈ d.tasks := by simp [tasks, current]
    refine { under := ?_, ended := ?_ }
    · intro u hu
      show u.id < (d.perform a).2.taskCount
      rw [count]
      rcases List.mem_cons.mp hu with rfl | later
      · exact h.under t own
      · have waits : u ∈ (d.perform a).2.waiting := later
        rw [(tasks_perform d a).2] at waits
        exact h.under u (List.mem_append_right _ waits)
    · intro p hp
      have old : p ∈ (d.perform a).2.finished := hp
      show p.1 < (d.perform a).2.taskCount
      rw [finished] at old
      rw [count]
      exact h.ended p old

theorem Reached.numbered (h : Reached d) : d.Numbered := by
  induction h with
  | opened => exact { under := nofun, ended := nofun }
  | next _ step ih =>
    cases step with
    | ambient step => exact ih.ambient step
    | request step => exact ih.request step
    | takeUp n step => exact ih.takeUp step
    | proceed step => exact ih.proceed step

/-- How many steps the tasks still take: the one that holds the lock has taken the first of its own. -/
def stepsLeft (d : Director) : ℕ := d.workload - d.current.toList.length

theorem stepsLeft_of_advance (step : d.advance = some e) : e.stepsLeft + 1 = d.stepsLeft := by
  have total (d : Director) : d.workload = (d.current.toList.map fun t => t.actions.length + 2).sum +
      (d.waiting.map fun t => t.actions.length + 2).sum := by
    rw [workload, ← List.sum_append, ← List.map_append, List.sum_eq_foldl, List.foldl_map]
  rw [stepsLeft, stepsLeft, total, total]
  rcases advance_cases step with took | took
  · rcases proceed_cases took with ⟨t, current, spent, rfl⟩ | ⟨t, a, later, current, actions, -, rfl⟩
    · simp [current, spent]
      omega
    · have waiting : (d.afterAction t a later).waiting = d.waiting := (tasks_perform d a).2
      rw [waiting, current]
      simp [afterAction, actions]
      omega
  · obtain ⟨t, current, waiting, rfl⟩ := takeUp_cases took
    obtain ⟨rest, spelt⟩ : ∃ rest, d.waiting = t :: rest := by
      cases spelt : d.waiting <;> simp_all
    simp [current, spelt]
    omega

theorem advance_advanceBy {n : ℕ} (h : d.stepsLeft ≤ n) : (advanceBy n d).advance = none := by
  induction n generalizing d with
  | zero =>
    refine Option.eq_none_iff_forall_ne_some.mpr fun e step => ?_
    have := stepsLeft_of_advance (d := d) step
    omega
  | succ n ih =>
    unfold advanceBy
    split
    case h_1 stuck => exact stuck
    case h_2 e step =>
      have := stepsLeft_of_advance step
      exact ih (by omega)

/-- Tasks run until there are none, or until one has to wait for an editor. -/
theorem advance_runTasks (d : Director) : d.runTasks.advance = none := advance_advanceBy (Nat.sub_le ..)

/-- Tasks hand no definition to an editor. -/
theorem exists_handle?_advance (hx : d.handle? k = some x) (step : d.advance = some e) :
    ∃ y, e.handle? k = some y ∧ y.guarded = x.guarded := by
  rcases advance_cases step with took | took
  · rcases proceed_cases took with ⟨t, -, -, rfl⟩ | ⟨t, a, later, -, -, -, rfl⟩
    · exact ⟨x, hx, rfl⟩
    · obtain ⟨y, hy, carried⟩ := exists_handle?_perform a hx
      exact ⟨y, hy, carried.guarded⟩
  · obtain ⟨t, -, -, rfl⟩ := takeUp_cases took
    exact ⟨x, hx, rfl⟩

theorem exists_handle?_runTasks (hx : d.handle? k = some x) :
    ∃ y, d.runTasks.handle? k = some y ∧ y.guarded = x.guarded := by
  refine runTasks_keeps (motive := fun e => ∃ y, e.handle? k = some y ∧ y.guarded = x.guarded) ?_ ⟨x, hx, rfl⟩
  rintro e f ⟨y, hy, same⟩ step
  obtain ⟨z, hz, same'⟩ := exists_handle?_advance hy step
  exact ⟨z, hz, same'.trans same⟩

/-- Without tasks no handle is on its way. -/
theorem Booked.still (h : d.Booked) (none : d.tasks = []) : ¬ d.Busy k := by
  rw [← h.busy k, inFlight]
  change k ∉ d.tasks.filterMap Task.owner
  rw [none]
  exact List.not_mem_nil

theorem Booked.idle_or_active (h : d.Booked) (none : d.tasks = []) (hx : d.handle? k = some x) :
    x.state = .idle ∨ x.state = .active := by
  have here : d.stateAt k = some x.state := by rw [stateAt, hx]; rfl
  cases state : x.state with
  | idle => exact .inl rfl
  | active => exact .inr rfl
  | loading | unloading =>
    rw [state] at here
    exact (h.still none ⟨_, here, rfl⟩).elim

/-- Where nothing is under way, an active handle has the live run and no other has one. -/
theorem Reached.seats_of_active (h : Reached d) (free : d.current = none) (active : d.stateAt k = some .active) :
    d.seats = ⟨some k, none⟩ := by
  rcases (h.governed.led.rests free).quiet_or_plays with quiet | ⟨r, plays⟩
  · exact (quiet.inactive k active).elim
  · rw [seats, plays.live, plays.leaving, plays.active k active]
    rfl

/-- Where nothing is under way, the handle of the live run is active and flagged. -/
theorem Reached.active_of_live (h : Reached d) (none : d.tasks = []) (live : d.seats.live = some k) :
    d.stateAt k = some .active ∧ d.flagAt k = true ∧ ∃ r, d.Plays r ∧ r.key = k := by
  obtain ⟨r, here, rfl⟩ := Option.map_eq_some_iff.mp live
  rcases (h.governed.led.rests (current_of_tasks none)).quiet_or_plays with quiet | ⟨r', plays⟩
  · cases here.symm.trans quiet.live
  · cases here.symm.trans plays.live
    refine ⟨?_, (plays.flagged _).mpr rfl, r, plays, rfl⟩
    rcases plays.state with active | unloading
    · exact active
    · exact (h.governed.booked.still none ⟨_, unloading, rfl⟩).elim

/-- Where nothing is under way, any other handle is idle and not flagged. -/
theorem Reached.idle_of_apart (h : Reached d) (none : d.tasks = []) (hx : d.handle? k = some x)
    (apart : d.seats.live ≠ some k) : d.stateAt k = some .idle ∧ d.flagAt k = false := by
  have here : d.stateAt k = some x.state := by rw [stateAt, hx]; rfl
  obtain ⟨inactive, unflagged⟩ : d.stateAt k ≠ some .active ∧ d.flagAt k = false := by
    rcases (h.governed.led.rests (current_of_tasks none)).quiet_or_plays with quiet | ⟨r, plays⟩
    · exact ⟨quiet.inactive k, quiet.unflagged k⟩
    · have other : k ≠ r.key := by
        rintro rfl
        exact apart (congrArg (Option.map Run.key) plays.live)
      exact ⟨mt (plays.active k) other, Bool.eq_false_iff.mpr (mt (plays.flagged k).mp other)⟩
  rw [here] at inactive ⊢
  rcases h.governed.booked.idle_or_active none hx with idle | active
  · exact ⟨congrArg some idle, unflagged⟩
  · exact (inactive (congrArg some active)).elim

end EncounterTimeline.Director

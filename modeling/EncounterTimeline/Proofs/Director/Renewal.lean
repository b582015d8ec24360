import EncounterTimeline.Proofs.Director.Reloading
import EncounterTimeline.Proofs.Director.Tasks
import EncounterTimeline.Proofs.Playback.Latches

/-! # What a reload makes of a definition

A reload reads the file once, while no run of the handle is under way, and takes all of what it finds there or nothing.
It goes on after a fault as it would have without one, so the run that it has stopped comes back whatever the file
holds. A task that reloads stands, at every moment, after some of its actions and before the others: what the handle
holds and what the task will report depend on which side the reading is, and the run has begun again once its beginning
lies behind.
-/
namespace EncounterTimeline

def faultOf {α : Type} : Except Fault α → Option Fault
  | .ok _ => none
  | .error fault => some fault

namespace Director

variable {d e f : Director} {k : HandleKey} {a : Action} {t : Task} {x : Handle} {path : String} {was : Bool}
  {done left : List Action} {fault : Option Fault} {id : TaskId}

/-- What is written in a definition once the file at the path has been read: all that the document there describes, or
what was written before if there is none or it cannot be read. -/
structure Rewritten (path : String) (loaded : Except Fault (Option Document)) (before after : Option Definition) :
    Prop where
  taken : ∀ document, loaded = .ok (some document) →
    ∃ first, after = some { (document.workbench first).definition with file := some path }.content
  kept : (∀ document, loaded ≠ .ok (some document)) → after = before

theorem load_eq_none_iff {s : Storage} :
    Document.load s path = .ok none ↔ s.read path = .error .notFound ∨ s.read path = .ok [] := by
  unfold Document.load
  split
  case h_1 missing => simp [missing]
  case h_2 cause other failed => simpa [failed] using other
  case h_3 empty => simp [empty]
  case h_4 bytes nonempty found =>
    have some : bytes ≠ [] := nonempty
    cases Document.ofBytes path bytes <;> simp [found, some, Except.map]

def contentAt (d : Director) (k : HandleKey) : Option Definition := (d.handle? k).map fun h => h.definition.content

theorem fault_perform (h : ∀ k path, a ≠ .refresh k path) : (d.perform a).1 = none := by
  cases a with
  | refresh k path => exact (h k path rfl).elim
  | _ => rfl

theorem contentAt_of_handle? (hx : d.handle? k = some x) : d.contentAt k = some x.definition.content := by
  rw [contentAt, hx]
  rfl

theorem exists_handle?_of_contentAt (h : (d.contentAt k).isSome = true) : ∃ x, d.handle? k = some x := by
  simpa [contentAt, Option.isSome_iff_exists] using h

/-- Nothing but a reading changes what is written. -/
theorem contentAt_perform (known : (d.contentAt k).isSome = true) (other : ∀ path, a ≠ .refresh k path) :
    (d.perform a).2.contentAt k = d.contentAt k := by
  obtain ⟨x, hx⟩ := exists_handle?_of_contentAt known
  obtain ⟨y, hy, carried⟩ := exists_handle?_perform a hx
  rw [contentAt_of_handle? hx, contentAt_of_handle? hy, carried.content other]

theorem Rewritten.isSome {loaded : Except Fault (Option Document)} {before after : Option Definition}
    (h : Rewritten path loaded before after) (known : before.isSome = true) : after.isSome = true := by
  by_cases some : ∃ document, loaded = .ok (some document)
  · obtain ⟨document, found⟩ := some
    obtain ⟨first, rfl⟩ := h.taken document found
    rfl
  · rw [h.kept fun document found => some ⟨document, found⟩]
    exact known

/-- A reading reports a fault exactly if the file cannot be read, and takes over all that it holds or nothing. -/
theorem refresh_rewrites (hx : d.handle? k = some x) (path : String) :
    (d.refresh k path).1 = faultOf (Document.load d.storage path) ∧
      Rewritten path (Document.load d.storage path) (d.contentAt k) ((d.refresh k path).2.contentAt k) := by
  unfold refresh
  split
  case h_1 fault failed =>
    rw [failed]
    exact ⟨rfl, nofun, fun _ => rfl⟩
  case h_2 nothing =>
    rw [nothing]
    exact ⟨rfl, nofun, fun _ => rfl⟩
  case h_3 document found =>
    rw [found]
    refine ⟨rfl, ?_, fun none => (none document rfl).elim⟩
    rintro _ ⟨⟩
    exact ⟨d.nextId, contentAt_of_handle? (handle?_modifyHandle_self (d := d) hx _)⟩

structure Fresh (d : Director) (k : HandleKey) : Prop where
  live : ∃ r, d.live = some r ∧ r.key = k
  clock : d.clock = 0.0
  unlatched : ∀ x, d.handle? k = some x → ∀ a ∈ x.definition.activities,
    a.latches.done = false ∧ a.latches.notified = false ∧ a.latches.synced = false

theorem fresh_begin (hx : d.handle? k = some x) : (d.perform (.begin k)).2.Fresh k := by
  simp only [perform, beginRun, hx]
  generalize hs : Session.start { definition := x.definition } d.settings.pace d.host.elapsed = s
  refine { live := ⟨_, rfl, rfl⟩, clock := ?_, unlatched := ?_ }
  · rw [← hs]
    exact Session.clock_start ..
  · intro y hy b hb
    cases (handle?_modifyHandle_self (d := d) hx _).symm.trans hy
    have mem : b ∈ s.definition.activities := hb
    obtain ⟨c, i, here⟩ := Definition.mem_activities.mp mem
    rw [← hs] at here
    have clear := Session.trait_start (fun a => (a.latches.done, a.latches.notified, a.latches.synced)) here
      (v := (false, false, false)) (fun _ _ _ _ => rfl) (by rintro a latches; rw [latches])
    simpa using clear

theorem reload_restart (k : HandleKey) (path : String) : Action.reload k path true =
    (.takeOwn k :: Action.stopping) ++ .refresh k path :: (.takeLive :: Action.stopping ++ Action.starting k) := rfl

/-- A reload reads no other file and for no other handle. -/
theorem eq_of_refresh_mem {j : HandleKey} {p : String} (h : .refresh j p ∈ Action.reload k path was) :
    j = k ∧ p = path := by
  cases was <;> simpa [Action.reload, Action.stopping, Action.starting] using h

theorem eq_of_begin_mem {j : HandleKey} (h : .begin j ∈ Action.reload k path was) : j = k := by
  cases was with
  | false => simp [Action.reload] at h
  | true => simpa [Action.reload, Action.stopping, Action.starting] using h

/-- A reload reads its file once. -/
theorem not_mem_of_reread {later : List Action} (h : done ++ .refresh k path :: later = Action.reload k path was) :
    .refresh k path ∉ later := by
  cases was with
  | false =>
    have spelt : Action.reload k path false = [] ++ .refresh k path :: [.setState k .idle] := rfl
    obtain ⟨-, -, rfl⟩ := (List.append_cons_inj_of_notMem (by simp) (by simp)).mp (spelt.symm.trans h.symm)
    simp
  | true =>
    obtain ⟨-, -, rfl⟩ := (List.append_cons_inj_of_notMem (by simp [Action.stopping])
      (by simp [Action.stopping, Action.starting])).mp ((reload_restart k path).symm.trans h.symm)
    simp [Action.stopping, Action.starting]

/-- Before a reload begins a run it has stopped all others. -/
theorem live_of_begin {later : List Action} (h : done ++ .begin k :: later = Action.reload k path was) (s : Seats) :
    (s.afterAll done).live = none := by
  cases was with
  | false =>
    have none : Action.begin k ∈ Action.reload k path false := by
      rw [← h]
      simp
    simp [Action.reload] at none
  | true =>
    have spelt : Action.reload k path true = (.takeOwn k :: Action.stopping ++ .refresh k path :: .takeLive ::
      Action.stopping) ++ .begin k :: [.connect, .setState k .active] := rfl
    obtain ⟨rfl, -⟩ := (List.append_cons_inj_of_notMem (by simp [Action.stopping]) (by simp)).mp
      (spelt.symm.trans h.symm)
    simp [Seats.afterAll, Action.stopping, Seats.after, Seats.live_vacate_all]

/-- What comes about while the tasks take their turns and nothing beside them changes what is written in the definition
of the handle or what the file at the path holds. -/
inductive Undisturbed (k : HandleKey) (path : String) (d : Director) : Director → Prop
  | start : Undisturbed k path d d
  | works {e f : Director} (course : Undisturbed k path d e) (step : e.advance = some f) : Undisturbed k path d f
  | beside {e f : Director} (course : Undisturbed k path d e) (step : Ambient e f)
      (content : f.contentAt k = e.contentAt k)
      (file : Document.load f.storage path = Document.load e.storage path) : Undisturbed k path d f

def Restarts (k : HandleKey) (path : String) (d f : Director) : Prop :=
  ∃ b g, Undisturbed k path d b ∧ b.live = none ∧ b.advance = some g ∧ g.Fresh k ∧ Undisturbed k path g f

theorem Undisturbed.reached (course : Undisturbed k path d e) (h : Reached d) : Reached e := by
  induction course with
  | start => exact h
  | works _ step ih => exact ih.advance step
  | beside _ step _ _ ih => exact ih.next (.ambient step)

/-- How things stand once a reload that was asked for in a director has taken some of its actions and has the others
left: before the file is read nothing is changed and nothing went wrong, and after that what was read is all that
counts. -/
structure Stage (k : HandleKey) (path : String) (was : Bool) (d : Director) (done left : List Action)
    (fault : Option Fault) (e : Director) : Prop where
  split : done ++ left = Action.reload k path was
  seats : e.seats = d.seats.afterAll done
  file : Document.load e.storage path = Document.load d.storage path
  unread : .refresh k path ∈ left → fault = none ∧ e.contentAt k = d.contentAt k
  read : .refresh k path ∉ left → fault = faultOf (Document.load d.storage path) ∧
    Rewritten path (Document.load d.storage path) (d.contentAt k) (e.contentAt k)
  begun : .begin k ∈ done → Restarts k path d e

namespace Stage

/-- A reload that is only asked for has everything to do. -/
theorem start (d : Director) : Stage k path was d [] (Action.reload k path was) none d where
  split := List.nil_append _
  seats := rfl
  file := rfl
  unread _ := ⟨rfl, rfl⟩
  read gone := by
    cases was <;> simp [Action.reload] at gone
  begun := nofun

theorem known (stage : Stage k path was d done left fault e) (here : (d.contentAt k).isSome = true) :
    (e.contentAt k).isSome = true := by
  by_cases unread : .refresh k path ∈ left
  · rw [(stage.unread unread).2]
    exact here
  · exact (stage.read unread).2.isSome here

/-- What changes neither runs nor what is written leaves the stage as it is. -/
theorem goesOn (stage : Stage k path was d done left fault e) (seats : f.seats = e.seats)
    (content : f.contentAt k = e.contentAt k) (file : Document.load f.storage path = Document.load e.storage path)
    (again : ∀ {g}, Undisturbed k path g e → Undisturbed k path g f) : Stage k path was d done left fault f where
  split := stage.split
  seats := seats.trans stage.seats
  file := file.trans stage.file
  unread here := by
    rw [content]
    exact stage.unread here
  read gone := by
    rw [content]
    exact stage.read gone
  begun here := by
    obtain ⟨b, g, before, none, step, fresh, after⟩ := stage.begun here
    exact ⟨b, g, before, none, step, fresh, again after⟩

/-- An action takes the stage on by one. -/
theorem act {later : List Action} (stage : Stage k path was d done (a :: later) fault e) (h : Reached e)
    (here : (d.contentAt k).isSome = true) (course : Undisturbed k path d e) (own : e.current = some t)
    (actions : t.actions = a :: later) (step : e.advance = some (e.afterAction t a later)) :
    Stage k path was d (done ++ [a]) later (fault.or (e.perform a).1) (e.afterAction t a later) := by
  obtain ⟨-, -, storage⟩ := records_perform e a
  have known := stage.known here
  have seats : (e.perform a).2.seats = e.seats.after a := h.attended.seats_perform h.governed own actions
  have split : (done ++ [a]) ++ later = Action.reload k path was := by rw [List.append_assoc]; exact stage.split
  have goesOn {g : Director} (before : Undisturbed k path g e) : Undisturbed k path g (e.afterAction t a later) :=
    before.works step
  have begun (began : .begin k ∈ done ++ [a]) : Restarts k path d (e.afterAction t a later) := by
    rcases List.mem_append.mp began with before | now
    · obtain ⟨b, g, before, none, begins, fresh, after⟩ := stage.begun before
      exact ⟨b, g, before, none, begins, fresh, goesOn after⟩
    · cases List.mem_singleton.mp now
      obtain ⟨x, hx⟩ := exists_handle?_of_contentAt known
      have nobody : e.live = none := by
        have live := congrArg Seats.live stage.seats
        rw [live_of_begin stage.split] at live
        exact Option.map_eq_none_iff.mp live
      exact ⟨e, _, course, nobody, step, { fresh_begin hx with }, .start⟩
  have whole : e.seats.after a = d.seats.afterAll (done ++ [a]) := by
    rw [stage.seats, Seats.afterAll, Seats.afterAll, List.foldl_append]
    rfl
  have among : a ∈ Action.reload k path was := by
    rw [← stage.split]
    exact List.mem_append_right _ List.mem_cons_self
  refine { split, seats := seats.trans whole, file := storage ▸ stage.file, unread := ?_, read := ?_, begun }
  · intro ahead
    obtain ⟨spotless, same⟩ := stage.unread (List.mem_cons_of_mem _ ahead)
    have other (j : HandleKey) (p : String) : a ≠ .refresh j p := by
      rintro rfl
      obtain ⟨rfl, rfl⟩ := eq_of_refresh_mem among
      exact not_mem_of_reread stage.split ahead
    exact ⟨by rw [spotless, fault_perform other]; rfl, (contentAt_perform known (other k)).trans same⟩
  · intro behind
    by_cases now : a = .refresh k path
    · subst now
      obtain ⟨spotless, same⟩ := stage.unread List.mem_cons_self
      obtain ⟨x, hx⟩ := exists_handle?_of_contentAt known
      have rewrites := refresh_rewrites hx path
      rw [stage.file, same] at rewrites
      rw [spotless]
      exact rewrites
    · have other (j : HandleKey) (p : String) : a ≠ .refresh j p := by
        rintro rfl
        obtain ⟨rfl, rfl⟩ := eq_of_refresh_mem among
        exact now rfl
      obtain ⟨reported, rewritten⟩ := stage.read (List.not_mem_cons_of_ne_of_not_mem (Ne.symm now) behind)
      rw [fault_perform other, Option.or_none]
      have same : (e.perform a).2.contentAt k = e.contentAt k := contentAt_perform known (other k)
      exact ⟨reported, same ▸ rewritten⟩

end Stage

inductive Standing (k : HandleKey) (path : String) (was : Bool) (id : TaskId) (d e : Director) : Prop
  | pending {done left : List Action} {fault : Option Fault} (tasks : e.tasks = [⟨id, left, fault⟩])
      (unreported : ∀ p ∈ e.finished, p.1 ≠ id) (stage : Stage k path was d done left fault e)
  | ended {fault : Option Fault} (tasks : e.tasks = []) (outcome : e.outcomeOf id = some fault)
      (stage : Stage k path was d (Action.reload k path was) [] fault e)

theorem Standing.known (standing : Standing k path was id d e) (here : (d.contentAt k).isSome = true) :
    (e.contentAt k).isSome = true := by
  cases standing with
  | pending _ _ stage | ended _ _ stage => exact stage.known here

theorem Standing.beside (standing : Standing k path was id d e) (step : Ambient e f)
    (content : f.contentAt k = e.contentAt k)
    (file : Document.load f.storage path = Document.load e.storage path) : Standing k path was id d f := by
  have calm := step.calm
  have tasks : f.tasks = e.tasks := by rw [Director.tasks, Director.tasks, calm.current, calm.waiting]
  have again {g : Director} (before : Undisturbed k path g e) : Undisturbed k path g f :=
    before.beside step content file
  obtain ⟨finished, -⟩ := step.records
  cases standing with
  | pending here unreported stage =>
    exact .pending (tasks.trans here) (finished ▸ unreported) (stage.goesOn calm.drift.seats content file again)
  | ended none outcome stage =>
    rw [outcomeOf, ← finished] at outcome
    exact .ended (tasks.trans none) outcome (stage.goesOn calm.drift.seats content file again)

theorem Standing.works (standing : Standing k path was id d e) (h : Reached e) (here : (d.contentAt k).isSome = true)
    (course : Undisturbed k path d e) (step : e.advance = some f) : Standing k path was id d f := by
  have again {g : Director} (before : Undisturbed k path g e) : Undisturbed k path g f := before.works step
  rcases advance_cases step with took | took
  · rcases proceed_cases took with ⟨t, current, spent, rfl⟩ | ⟨t, a, later, current, actions, -, rfl⟩
    · cases standing with
      | @pending done left fault tasks unreported stage =>
        obtain ⟨rfl, waiting⟩ := tasks_of_current current tasks
        cases spent
        have whole : done = Action.reload k path was := by rw [← stage.split, List.append_nil]
        have outcome : (e.finished ++ [(id, fault)]).lookup id = some fault := by
          have none : e.finished.lookup id = none := by
            rw [List.lookup_eq_none_iff]
            intro p hp
            simpa using (unreported p hp).symm
          rw [List.lookup_append, none]
          simp
        exact .ended waiting outcome (whole ▸ stage.goesOn rfl rfl rfl again)
      | ended tasks => simp [Director.tasks, current] at tasks
    · cases standing with
      | pending tasks unreported stage =>
        obtain ⟨rfl, waiting⟩ := tasks_of_current current tasks
        cases actions
        obtain ⟨finished, -, -⟩ := records_perform e a
        have alone : (e.perform a).2.waiting = [] := (tasks_perform e a).2.trans waiting
        refine .pending ?_ ?_ (stage.act h here course current rfl step)
        · rw [Director.tasks, afterAction, alone]
          rfl
        · show ∀ p ∈ (e.perform a).2.finished, p.1 ≠ id
          rw [finished]
          exact unreported
      | ended tasks => simp [Director.tasks, current] at tasks
  · obtain ⟨t, current, waiting, rfl⟩ := takeUp_cases took
    cases standing with
    | pending tasks unreported stage =>
      rw [Director.tasks, current, Option.toList_none, List.nil_append] at tasks
      rw [tasks] at waiting
      cases waiting
      refine .pending ?_ unreported (stage.goesOn rfl rfl rfl again)
      rw [Director.tasks, tasks]
      rfl
    | ended tasks =>
      rw [Director.tasks, current, Option.toList_none, List.nil_append] at tasks
      rw [tasks] at waiting
      cases waiting

theorem Standing.of_undisturbed (standing : Standing k path was id d d) (h : Reached d)
    (here : (d.contentAt k).isSome = true) (course : Undisturbed k path d e) : Standing k path was id d e := by
  induction course with
  | start => exact standing
  | works course step ih => exact ih.works (course.reached h) here course step
  | beside _ step content file ih => exact ih.beside step content file

theorem Undisturbed.runTasks (course : Undisturbed k path d e) : Undisturbed k path d e.runTasks :=
  runTasks_keeps (fun _ _ => .works) course

theorem writtenBy_of_mem (among : a ∈ Action.reload k path was) {j : HandleKey} (writes : d.writtenBy a = some j) :
    j = k ∨ was = true ∧ d.seats.leaving = some j := by
  cases was with
  | false =>
    left
    rcases List.mem_pair.mp among with rfl | rfl
    · exact (Option.some.inj writes).symm
    · cases writes
  | true =>
    simp only [Action.reload, Action.stopping, Action.starting, if_true, List.cons_append, List.nil_append,
      List.mem_cons, List.not_mem_nil, or_false] at among
    rcases among with rfl | rfl | rfl | rfl | rfl | rfl | rfl | rfl | rfl | rfl | rfl | rfl <;>
      first | exact .inr ⟨rfl, writes⟩ | exact .inl (Option.some.inj writes).symm | cases writes

/-- A reload waits for no editor but one who holds the definition that it is about. -/
theorem Stage.unblocked {later : List Action} (stage : Stage k path was d done (a :: later) fault e)
    (own : was = true → ∀ j, d.seats.Taken j → j = k) (unguarded : e.guardedAt k = false) :
    e.blocked a = false := by
  have among : a ∈ Action.reload k path was := by
    rw [← stage.split]
    exact List.mem_append_right _ List.mem_cons_self
  rw [blocked]
  cases writes : e.writtenBy a with
  | none => rfl
  | some j =>
    have same : j = k := by
      rcases writtenBy_of_mem among writes with same | ⟨active, leaving⟩
      · exact same
      · rw [stage.seats] at leaving
        rcases Seats.taken_of_afterAll (.inr leaving) with before | begins
        · exact own active j before
        · have begun : .begin j ∈ Action.reload k path was := by
            rw [← stage.split]
            exact List.mem_append_left _ begins
          exact eq_of_begin_mem begun
    rw [same]
    exact unguarded

theorem Standing.tasks_of_stuck (standing : Standing k path was id d e)
    (own : was = true → ∀ j, d.seats.Taken j → j = k) (unguarded : e.guardedAt k = false)
    (stuck : e.advance = none) : e.tasks = [] := by
  obtain ⟨held, waits⟩ := Option.or_eq_none_iff.mp stuck
  cases standing with
  | ended tasks => exact tasks
  | @pending done left fault tasks unreported stage =>
    exfalso
    cases current : e.current with
    | none =>
      rw [Director.tasks, current, Option.toList_none, List.nil_append] at tasks
      simp [Director.takeUp, current, tasks] at waits
    | some t =>
      obtain ⟨rfl, -⟩ := tasks_of_current current tasks
      cases left with
      | nil => simp [Director.proceed, current] at held
      | cons a later => simp [Director.proceed, current, stage.unblocked own unguarded] at held

/-- A reload is granted while nothing is under way, and nothing has changed yet once it is. -/
theorem exists_reload (h : Reached d) (none : d.tasks = []) (hx : d.handle? k = some x)
    (file : x.definition.file = some path) :
    ∃ e, d.reload k = .ok (d.taskCount, e) ∧ Reached e ∧ e.storage = d.storage ∧ e.seats = d.seats ∧
      e.contentAt k = d.contentAt k ∧ Standing k path (x.state == .active) d.taskCount e e := by
  obtain ⟨claimed, claims⟩ : ∃ claimed, x.claimReload = .ok claimed := by
    rcases h.governed.booked.idle_or_active none hx with state | state <;>
      exact ⟨_, by rw [Handle.claimReload, state]⟩
  have granted : d.reload k = .ok ((d.modifyHandle k fun h => h.setState claimed).launch
      (Action.reload k path (x.state == .active))) := by
    simp only [reload, require, hx, file, claims, bind, Except.bind, pure, Except.pure]
  have content : (d.modifyHandle k fun h => h.setState claimed).contentAt k = d.contentAt k := by
    rw [contentAt_of_handle? (handle?_modifyHandle_self hx _), contentAt_of_handle? hx]
    rfl
  have waits : tasks ((d.modifyHandle k fun h => h.setState claimed).launch
      (Action.reload k path (x.state == .active))).2 =
      [⟨d.taskCount, Action.reload k path (x.state == .active), .none⟩] := by
    obtain ⟨free, alone⟩ := List.append_eq_nil_iff.mp none
    rw [Director.tasks, launch, modifyHandle, free, alone]
    rfl
  have unreported : ∀ p ∈ d.finished, p.1 ≠ d.taskCount := fun p hp => Nat.ne_of_lt (h.numbered.ended p hp)
  have reached : Reached ((d.modifyHandle k fun h => h.setState claimed).launch
      (Action.reload k path (x.state == .active))).2 := h.next (.request (.reload k _ granted))
  exact ⟨_, granted, reached, rfl, rfl, content, .pending waits unreported (.start _)⟩

/-- What a reload has come to. A file that is missing or empty is no fault. -/
structure Renewed (k : HandleKey) (path : String) (id : TaskId) (d e f : Director) : Prop where
  outcome : f.outcomeOf id = some (faultOf (Document.load d.storage path))
  content : Rewritten path (Document.load d.storage path) (d.contentAt k) (f.contentAt k)
  spared : d.storage.read path = .error .notFound ∨ d.storage.read path = .ok [] →
    f.outcomeOf id = some none ∧ f.contentAt k = d.contentAt k
  file : ∃ x, f.handle? k = some x ∧ x.definition.file = some path
  restarted : d.stateAt k = some .active → f.stateAt k = some .active ∧ f.flagAt k = true ∧
    (∃ r, f.Plays r ∧ r.key = k) ∧ Restarts k path e f
  rested : d.stateAt k ≠ some .active → f.stateAt k = some .idle ∧ f.flagAt k = false

theorem Rewritten.file {loaded : Except Fault (Option Document)} {before after : Option Definition}
    (h : Rewritten path loaded before after) (known : before.map Definition.file = some (some path)) :
    after.map Definition.file = some (some path) := by
  by_cases some : ∃ document, loaded = .ok (some document)
  · obtain ⟨document, found⟩ := some
    obtain ⟨first, rfl⟩ := h.taken document found
    rfl
  · rw [h.kept fun document found => some ⟨document, found⟩]
    exact known

/-- What a reload has come to once it has all its actions behind it. -/
theorem Stage.renewed
    (stage : Stage k path (x.state == .active) e (Action.reload k path (x.state == .active)) [] fault f)
    (h : Reached d) (none : d.tasks = []) (hx : d.handle? k = some x) (file : x.definition.file = some path)
    (storage : e.storage = d.storage) (seats : e.seats = d.seats) (content : e.contentAt k = d.contentAt k)
    (reached : Reached f) (spent : f.tasks = []) (outcome : f.outcomeOf id = some fault) :
    Renewed k path id d e f := by
  obtain ⟨reported, rewritten⟩ := stage.read List.not_mem_nil
  rw [storage] at reported rewritten
  rw [content] at rewritten
  have before : d.contentAt k = some x.definition.content := contentAt_of_handle? hx
  have state : d.stateAt k = some x.state := by rw [stateAt, hx]; rfl
  obtain ⟨y, hy⟩ := exists_handle?_of_contentAt (rewritten.isSome (by rw [before]; rfl))
  refine
    { outcome := outcome.trans (congrArg some reported)
      content := rewritten
      spared := ?_
      file := ⟨y, hy, ?_⟩
      restarted := ?_
      rested := ?_ }
  · intro nothing
    have empty := load_eq_none_iff.mpr nothing
    rw [empty] at reported rewritten
    exact ⟨outcome.trans (congrArg some reported), rewritten.kept (by rintro _ ⟨⟩)⟩
  · have kept := rewritten.file (by rw [before]; exact congrArg some file)
    rw [contentAt_of_handle? hy] at kept
    exact Option.some.inj kept
  · intro active
    have was : (x.state == .active) = true := by
      rw [Option.some.inj (state.symm.trans active)]
      rfl
    rw [was] at stage
    have alone : f.seats = ⟨some k, .none⟩ := stage.seats.trans (Seats.afterAll_restart _ k path)
    obtain ⟨running, flagged, plays⟩ := reached.active_of_live spent (congrArg Seats.live alone)
    refine ⟨running, flagged, plays, stage.begun ?_⟩
    simp [Action.reload, Action.starting]
  · intro inactive
    have was : (x.state == .active) = false := by
      rw [beq_eq_false_iff_ne]
      exact fun active => inactive (state.trans (congrArg some active))
    rw [was] at stage
    have same : f.seats = d.seats := stage.seats.trans seats
    refine reached.idle_of_apart spent hy ?_
    rw [same]
    exact fun live => inactive (h.active_of_live none live).1

/-- Whatever the file of a handle holds, a reload that is asked for while nothing else is under way comes to its end, at
once or after any amount of work, unless an editor holds the definition. It reports a fault exactly if the file cannot
be read. What is written in the definition is then all that the file holds, or, if there is no file or it cannot be
read, what was written before. If the handle was active, it is so again, with the one run, and the run has begun anew on
the way; otherwise it is idle. -/
theorem reload_all_or_nothing (h : Reached d) (free : d.current = none) (alone : d.waiting = [])
    (hx : d.handle? k = some x) (file : x.definition.file = some path) :
    ∃ id e, d.reload k = .ok (id, e) ∧ ∀ f, Undisturbed k path e f →
      (f.guardedAt k = false → f.runTasks.tasks = [] ∧ Undisturbed k path e f.runTasks) ∧
        (f.tasks = [] → Renewed k path id d e f) := by
  have none : d.tasks = [] := by
    rw [tasks, free, alone]
    rfl
  obtain ⟨e, granted, reached, storage, seats, content, standing⟩ := exists_reload h none hx file
  have here : (e.contentAt k).isSome = true := by
    rw [content, contentAt_of_handle? hx]
    rfl
  refine ⟨_, e, granted, fun f course => ⟨?_, ?_⟩⟩
  · intro unguarded
    have ended : Undisturbed k path e f.runTasks := course.runTasks
    have own (active : (x.state == .active) = true) (j : HandleKey) (taken : e.seats.Taken j) : j = k := by
      have state : d.stateAt k = some .active := by
        rw [stateAt, hx]
        exact congrArg some (eq_of_beq active)
      rw [seats, h.seats_of_active free state] at taken
      simpa [Seats.Taken, eq_comm] using taken
    refine ⟨(standing.of_undisturbed reached here ended).tasks_of_stuck own ?_ (advance_runTasks f), ended⟩
    obtain ⟨y, hy⟩ := exists_handle?_of_contentAt ((standing.of_undisturbed reached here course).known here)
    obtain ⟨z, hz, same⟩ := exists_handle?_runTasks hy
    rw [guardedAt, hy] at unguarded
    rw [guardedAt, hz]
    exact same.trans unguarded
  · intro spent
    cases standing.of_undisturbed reached here course with
    | pending tasks => cases spent.symm.trans tasks
    | ended _ outcome stage =>
      exact stage.renewed h none hx file storage seats content (course.reached reached) spent outcome

/-- An active handle whose definition holds an alarm, with `entry` at the path of its file. -/
def alarmed (entry : StorageEntry) : Director :=
  let registered := Director.register { storage := ⟨[(["raid.xml"], entry)]⟩ }
    { file := some "raid.xml", elements := [.trigger { id := 0, rule := { name := some "Alarm" } }] }
  ((registered.2.modifyHandle 0 fun h => h.setState .loading).launch (Action.activate 0)).2.runTasks

theorem reached_alarmed (entry : StorageEntry) : Reached (alarmed entry) :=
  (((Reached.opened {} ⟨0⟩ _).next (.ambient (.register _ _))).next (.request (.setActive 0 true 0 rfl))).runTasks

def enraged : StorageEntry := .file (Text.encode "<timeline><a name='Adds'/><t name='Enrage'/></timeline>".toList)

def namesAt (d : Director) (k : HandleKey) : Option (List (Option String)) :=
  (d.contentAt k).map fun content => content.elements.map Element.displayName

/-- A directory stands where the active handle has its file, and the alarm stays; or a document does, and takes its
place. The handle is active again after either. -/
theorem reload_all_or_nothing_alarmed :
    (∃ (d e f : Director) (x : Handle) (id : TaskId), d = alarmed .directory ∧ Reached d ∧ d.current = none ∧
      d.waiting = [] ∧ d.handle? 0 = some x ∧ x.definition.file = some "raid.xml" ∧ x.state = .active ∧
        d.reload 0 = .ok (id, e) ∧ Undisturbed 0 "raid.xml" e f ∧ f.tasks = [] ∧
          (∃ fault, f.outcomeOf id = some (some fault)) ∧ f.namesAt 0 = some [some "Alarm"] ∧
            f.stateAt 0 = some .active ∧ Renewed 0 "raid.xml" id d e f) ∧
    ∃ (d e f : Director) (x : Handle) (id : TaskId), d = alarmed enraged ∧ Reached d ∧ d.current = none ∧
      d.waiting = [] ∧ d.handle? 0 = some x ∧ x.definition.file = some "raid.xml" ∧ x.state = .active ∧
        d.reload 0 = .ok (id, e) ∧ Undisturbed 0 "raid.xml" e f ∧ f.tasks = [] ∧ f.outcomeOf id = some none ∧
          f.namesAt 0 = some [some "Adds", some "Enrage"] ∧ f.stateAt 0 = some .active ∧
            Renewed 0 "raid.xml" id d e f := by
  refine ⟨?_, ?_⟩
  · have reached := reached_alarmed .directory
    obtain ⟨id, e, granted, comes⟩ := reload_all_or_nothing (k := 0) reached rfl rfl rfl rfl
    obtain ⟨rfl, rfl⟩ := Prod.mk.inj (Except.ok.inj granted)
    obtain ⟨spent, course⟩ := (comes _ .start).1 rfl
    have renewed := (comes _ course).2 spent
    have plays := (renewed.restarted rfl).1
    exact ⟨_, _, _, _, _, rfl, reached, rfl, rfl, rfl, rfl, rfl, granted, course, spent, ⟨_, rfl⟩, rfl, plays, renewed⟩
  · have reached := reached_alarmed enraged
    obtain ⟨id, e, granted, comes⟩ := reload_all_or_nothing (k := 0) reached rfl rfl rfl rfl
    obtain ⟨rfl, rfl⟩ := Prod.mk.inj (Except.ok.inj granted)
    obtain ⟨spent, course⟩ := (comes _ .start).1 (by decide +kernel)
    have renewed := (comes _ course).2 spent
    have plays := (renewed.restarted rfl).1
    refine ⟨_, _, _, _, _, rfl, reached, rfl, rfl, rfl, rfl, rfl, granted, course, spent, ?_, ?_, plays, renewed⟩
    · decide +kernel
    · decide +kernel

end Director

end EncounterTimeline

import EncounterTimeline.Proofs.Director.Seats
import EncounterTimeline.Proofs.Playback.Placement

/-! # Editors

An editor finds a handle idle first and waits for its definition then; it may change what it was given, and gives it
back in the end. Requests, tasks and the live run go on beside that. Nobody sets the state of a handle while an
editor waits for its definition, and no action writes a definition that an editor holds; that is all it takes for a
definition never to be edited while it runs.
-/
namespace EncounterTimeline

def Handle.hold (h : Handle) : Handle := { h with guarded := true }

namespace Director

variable {d e : Director} {j k : HandleKey} {a : Action} {t : Task} {x : Handle} {r : Run}

def guardedAt (d : Director) (k : HandleKey) : Bool := (d.handle? k).any Handle.guarded

def idsAt (d : Director) (k : HandleKey) : Option (List (List ElementId)) :=
  (d.handle? k).map fun h => h.definition.elements.map Element.ids

def InPlace (d : Director) (r : Run) : Prop := ∃ x, d.handle? r.key = some x ∧ r.cursor.Placed x.definition

theorem handle?_modifyHandle_self (hx : d.handle? k = some x) (f : Handle → Handle) :
    (d.modifyHandle k f).handle? k = some (f x) := by
  rw [handle?_modifyHandle, if_pos rfl, hx]
  rfl

theorem modifyHandle_congr {f g : Handle → Handle} (h : ∀ x, d.handle? k = some x → f x = g x) :
    d.modifyHandle k f = d.modifyHandle k g := by
  have registry : d.registry.modify k f = d.registry.modify k g := by
    apply List.ext_getElem?
    intro i
    rw [List.getElem?_modify, List.getElem?_modify]
    cases hx : d.registry[i]? with
    | none => rfl
    | some x =>
      by_cases own : k = i
      · subst own
        simp [h x hx]
      · simp [own]
  rw [modifyHandle, modifyHandle, registry]

/-- A definition is handed to an editor in idle, and only then. -/
theorem beginEdit_eq_ok_iff : d.beginEdit k = .ok e ↔ d.stateAt k = some .idle ∧ e = d.modifyHandle k Handle.hold := by
  constructor
  · intro h
    obtain ⟨x, found, h⟩ := except_bind_eq_ok h
    obtain ⟨held, hg, h⟩ := except_bind_eq_ok h
    have hx := handle?_of_require found
    unfold Handle.guard at hg
    split at hg
    · rename_i idle
      cases hg
      cases h
      refine ⟨by rw [stateAt, hx, Option.map_some, idle], modifyHandle_congr ?_⟩
      intro y hy
      cases hx.symm.trans hy
      rfl
    · cases hg
  · rintro ⟨idle, rfl⟩
    obtain ⟨x, hx, state⟩ := Option.map_eq_some_iff.mp idle
    have found : d.require k = .ok x := by rw [require, hx]
    have guard : x.guard = .ok x.hold := if_pos state
    have held : d.modifyHandle k (fun _ => x.hold) = d.modifyHandle k Handle.hold := by
      apply modifyHandle_congr
      intro y hy
      cases hx.symm.trans hy
      rfl
    simp only [beginEdit, found, guard, bind, Except.bind, pure, Except.pure, held]

def Untouched (d e : Director) (k : HandleKey) : Prop :=
  ∀ x, d.handle? k = some x → ∃ y, e.handle? k = some y ∧ y.guarded = x.guarded ∧
    y.definition.script.elements = x.definition.script.elements

theorem untouched_of_registry (h : e.registry = d.registry) : Untouched d e k := by
  intro x hx
  exact ⟨x, by rw [handle?, h]; exact hx, rfl, rfl⟩

theorem untouched_modifyHandle {f : Handle → Handle} (own : j = k → ∀ x, d.handle? k = some x →
    (f x).guarded = x.guarded ∧ (f x).definition.script.elements = x.definition.script.elements) :
    Untouched d (d.modifyHandle j f) k := by
  intro x hx
  apply exists_handle?_modifyHandle (R := fun x y =>
    y.guarded = x.guarded ∧ y.definition.script.elements = x.definition.script.elements) hx ⟨rfl, rfl⟩
  exact fun here => own here x hx

theorem untouched_perform (h : ∀ path, a ≠ .refresh k path) : Untouched d (d.perform a).2 k := by
  intro x hx
  obtain ⟨y, hy, carried⟩ := exists_handle?_perform a hx
  exact ⟨y, hy, carried.guarded, carried.elements h⟩

theorem Untouched.guardedAt (h : Untouched d e k) (known : (d.stateAt k).isSome = true) :
    e.guardedAt k = d.guardedAt k := by
  obtain ⟨x, hx⟩ := exists_handle?_of_isSome known
  obtain ⟨y, hy, guarded, -⟩ := h x hx
  rw [Director.guardedAt, Director.guardedAt, hx, hy, Option.any_some, Option.any_some, guarded]

theorem Untouched.idsAt (h : Untouched d e k) (known : (d.stateAt k).isSome = true) : e.idsAt k = d.idsAt k := by
  obtain ⟨x, hx⟩ := exists_handle?_of_isSome known
  obtain ⟨y, hy, -, elements⟩ := h x hx
  have ids := congrArg (List.map Element.ids) elements
  rw [Definition.map_ids_script, Definition.map_ids_script] at ids
  rw [Director.idsAt, Director.idsAt, hx, hy, Option.map_some, Option.map_some, ids]

theorem InPlace.congr {r₀ : Run} (h : d.InPlace r₀) (untouched : Untouched d e r₀.key) (key : r.key = r₀.key)
    (cursor : r.cursor = r₀.cursor) : e.InPlace r := by
  obtain ⟨x, hx, placed⟩ := h
  obtain ⟨y, hy, -, elements⟩ := untouched x hx
  refine ⟨y, key ▸ hy, ?_⟩
  rw [cursor]
  exact placed.congr_elements elements.symm

/-- What the tasks do to the runs: they are the same at the same places, or one begins and is in place. -/
theorem underway_perform (h : (d.perform a).2.Underway r) :
    (∃ r₀, d.Underway r₀ ∧ r.key = r₀.key ∧ r.cursor = r₀.cursor) ∨
      (a = .begin r.key ∧ (d.perform a).2.InPlace r) := by
  have same (h : d.Underway r) : ∃ r₀, d.Underway r₀ ∧ r.key = r₀.key ∧ r.cursor = r₀.cursor := ⟨r, h, rfl, rfl⟩
  cases a with
  | takeLive | takeOwn =>
    left
    simp only [perform, takeRun] at h
    split at h
    · exact same h
    · rename_i r₀ live
      split at h
      · rcases h with none | left
        · cases none
        · cases left
          exact same (.inl live)
      · exact same h
  | detach =>
    left
    simp only [perform, detach] at h
    split at h <;> exact same h
  | lowerLeaving =>
    left
    simp only [perform, lowerLeaving] at h
    split at h <;> exact same h
  | restLeaving =>
    left
    simp only [perform, restLeaving] at h
    split at h
    · exact same h
    · rcases h with live | none
      · exact same (.inl live)
      · cases none
  | lowerFlag | setState => exact .inl (same h)
  | refresh k path =>
    left
    simp only [perform, refresh] at h
    split at h <;> exact same h
  | connect =>
    left
    simp only [perform, connect] at h
    split at h
    · exact same h
    · rename_i r₀ live
      rcases h with joined | leaving
      · cases joined
        exact ⟨r₀, .inl live, rfl, rfl⟩
      · exact same (.inr leaving)
  | begin k =>
    simp only [perform, beginRun] at h ⊢
    split at h
    · exact .inl (same h)
    · rename_i x hx
      rcases h with began | leaving
      · cases began
        right
        refine ⟨rfl, ?_⟩
        generalize hs : Session.start { definition := x.definition } d.settings.pace d.host.elapsed = s
        have placed : s.cursor.Placed s.definition := hs ▸ Session.placed_start _ _
        exact ⟨_, handle?_modifyHandle_self (d := d) hx _, .congr_elements (d := s.definition) rfl placed⟩
      · exact .inl (same (.inr leaving))

inductive Beside : Director → Director → Prop
  | register (d : Director) (definition : Definition) : Beside d (d.register definition).2
  | loadFile {d e : Director} (path : String) (key : Option HandleKey) (h : d.loadFile path = .ok (key, e)) :
      Beside d e
  | save (d : Director) (key : HandleKey) : Beside d (d.save key).2
  | saveAs (d : Director) (key : HandleKey) (path : String) : Beside d (d.saveAs key path).2
  | hearLine (d : Director) (line : String) : Beside d (d.hearLine line)
  | tickLive (d : Director) : Beside d d.tickLive
  | takeLines (d : Director) : Beside d d.takeLines.2
  | publish (d : Director) (line : String) : Beside d { d with bus := d.bus.publish line }
  | clock (d : Director) (host : HostClock) : Beside d { d with host := host }
  | files (d : Director) (storage : Storage) : Beside d { d with storage := storage }

theorem Beside.ambient (h : Beside d e) : Ambient d e := by
  cases h with
  | register definition => exact .register d definition
  | loadFile path key h => exact .loadFile path key h
  | save key => exact .save d key
  | saveAs key path => exact .saveAs d key path
  | hearLine line => exact .hearLine d line
  | tickLive => exact .tickLive d
  | takeLines => exact .takeLines d
  | publish line => exact .publish d line
  | clock host => exact .clock d host
  | files storage => exact .files d storage

theorem untouched_register (definition : Definition) : Untouched d (d.register definition).2 k := by
  intro x hx
  have lt : k < d.registry.length := (List.getElem?_eq_some_iff.mp hx).1
  exact ⟨x, (List.getElem?_append_left lt).trans hx, rfl, rfl⟩

theorem untouched_playLive {f : Session → Session}
    (script : ∀ s, (f s).definition.script = s.definition.script) : Untouched d (d.playLive f) k := by
  unfold playLive
  split
  · exact untouched_of_registry rfl
  · rename_i r live
    split
    · exact untouched_of_registry rfl
    · rename_i s session
      obtain ⟨x, hx, rfl⟩ := Option.map_eq_some_iff.mp session
      refine untouched_modifyHandle (d := d) ?_
      rintro rfl y hy
      cases hx.symm.trans hy
      exact ⟨rfl, congrArg Definition.elements (script _)⟩

/-- A session of the live run plays, or the runs stay as they are and no handle is touched. -/
theorem Beside.cases (h : Beside d e) :
    (e.live = d.live ∧ e.leaving = d.leaving ∧ ∀ k, Untouched d e k) ∨
      ∃ f : Session → Session, e = d.playLive f ∧ (∀ s, (f s).definition.script = s.definition.script) ∧
        ∀ s, s.Placed → (f s).Placed := by
  have same (registry : e.registry = d.registry) (live : e.live = d.live) (leaving : e.leaving = d.leaving) :
      e.live = d.live ∧ e.leaving = d.leaving ∧ ∀ k, Untouched d e k :=
    ⟨live, leaving, fun _ => untouched_of_registry registry⟩
  cases h with
  | register definition => exact .inl ⟨rfl, rfl, fun _ => untouched_register definition⟩
  | loadFile path key h =>
    left
    unfold Director.loadFile at h
    split at h
    · cases h
    · cases h
      exact same rfl rfl rfl
    · cases h
      rename_i document _
      exact ⟨rfl, rfl, fun _ => untouched_register (d := { d with nextId := (document.workbench d.nextId).nextId }) _⟩
  | save key =>
    left
    revert same
    unfold Director.save
    split
    · exact fun same => same rfl rfl rfl
    · rename_i x _
      split
      · exact fun same => same rfl rfl rfl
      · rename_i path _
        obtain ⟨result, storage, saved⟩ := d.saveTo_cases x.definition path
        rw [saved]
        exact fun same => same rfl rfl rfl
  | saveAs key path =>
    left
    revert same
    unfold Director.saveAs
    split
    · exact fun same => same rfl rfl rfl
    · rename_i x _
      obtain ⟨result, storage, saved⟩ := d.saveTo_cases x.definition path
      rw [saved]
      cases result with
      | error fault => exact fun same => same rfl rfl rfl
      | ok _ =>
        intro _
        exact ⟨rfl, rfl, fun _ => untouched_modifyHandle (d := { d with storage := storage }) fun _ _ _ => ⟨rfl, rfl⟩⟩
  | hearLine line =>
    right
    refine ⟨fun s => (s.hear d.settings.pace line d.host.elapsed).2, rfl, ?_, ?_⟩
    · exact fun s => Session.script_hear _ s line _
    · exact fun s placed => placed.perform (p := d.settings.pace) (.line line d.host.elapsed)
  | tickLive =>
    right
    refine ⟨fun s => s.tick d.settings.pace d.host.elapsed, rfl, ?_, ?_⟩
    · exact fun s => Session.script_tick _ s _
    · exact fun s placed => placed.perform (p := d.settings.pace) (.tick d.host.elapsed)
  | takeLines =>
    left
    revert same
    unfold Director.takeLines
    split <;> exact fun same => same rfl rfl rfl
  | publish | clock | files => exact .inl (same rfl rfl rfl)

theorem Beside.untouched (h : Beside d e) : Untouched d e k := by
  rcases h.cases with ⟨-, -, untouched⟩ | ⟨f, rfl, script, -⟩
  · exact untouched k
  · exact untouched_playLive script

theorem Beside.inPlace (step : Beside d e) (h : ∀ r, d.Underway r → d.InPlace r) (runs : e.Underway r) :
    e.InPlace r := by
  have keeps (k : HandleKey) : Untouched d e k := step.untouched
  rcases step.cases with ⟨live, leaving, -⟩ | ⟨f, rfl, -, placed⟩
  · rw [Underway, live, leaving] at runs
    exact (h r runs).congr (keeps _) rfl rfl
  · revert runs keeps
    unfold playLive
    split
    · exact fun runs _ => h r runs
    · rename_i r₀ live
      split
      · exact fun runs _ => h r runs
      · rename_i s session
        rintro (played | leaving) keeps
        · obtain ⟨x, hx, rfl⟩ := Option.map_eq_some_iff.mp session
          cases played
          obtain ⟨y, hy, before⟩ := h r₀ (.inl live)
          cases hx.symm.trans hy
          exact ⟨_, handle?_modifyHandle_self (d := d) hx _, placed _ before⟩
        · exact (h r (.inr leaving)).congr (keeps _) rfl rfl

end Director

/-- A director and the editors that found a handle idle and wait for its definition. -/
structure Floor where
  director : Director
  asking : List HandleKey := []

namespace Floor

open Director

variable {f g : Floor} {k : HandleKey} {r : Run}

/-- One step of everything. An editor that asks keeps the state of the handle as it is until the definition is given
to it; a definition is held by one editor at a time, and only he changes it. -/
inductive Next : Floor → Floor → Prop
  | ask {f : Floor} {e : Director} (k : HandleKey) (h : f.director.beginEdit k = .ok e) (free : k ∉ f.asking) :
      Next f { f with asking := k :: f.asking }
  | grant {f : Floor} (k : HandleKey) (asked : k ∈ f.asking) (free : f.director.guardedAt k = false) :
      Next f ⟨f.director.modifyHandle k Handle.hold, f.asking.erase k⟩
  | amend {f : Floor} (k : HandleKey) (change : Workbench → Workbench) (held : f.director.guardedAt k = true)
      (flag : ∀ w, (change w).definition.isActive = w.definition.isActive) :
      Next f { f with director := f.director.amend k change }
  | release {f : Floor} (k : HandleKey) (held : f.director.guardedAt k = true) :
      Next f { f with director := f.director.endEdit k }
  | beside {f : Floor} {e : Director} (h : Beside f.director e) : Next f { f with director := e }
  | request {f : Floor} {e : Director} (h : Request f.director e)
      (kept : ∀ k ∈ f.asking, e.stateAt k = f.director.stateAt k) : Next f { f with director := e }
  | takeUp {f : Floor} {e : Director} (n : Nat) (h : f.director.takeUp n = some e) : Next f { f with director := e }
  | proceed {f : Floor} {e : Director} (h : f.director.proceed = some e)
      (kept : ∀ k ∈ f.asking, e.stateAt k = f.director.stateAt k) : Next f { f with director := e }

inductive Reached : Floor → Prop
  | opened (settings : Settings) (host : HostClock) (storage : Storage) :
      Reached { director := { settings := settings, host := host, storage := storage } }
  | next {f g : Floor} (h : Reached f) (step : Next f g) : Reached g

/-- From a floor on, a run of a handle: the step with which it begins, and then any number of them, up to the one with
which it has been stopped. -/
inductive Performance (k : HandleKey) : Floor → Floor → Prop
  | begins {f g : Floor} (before : ¬ f.director.Runs k) (step : Next f g) (after : g.director.Runs k) :
      Performance k f g
  | goesOn {f g e : Floor} (h : Performance k f g) (runs : g.director.Runs k) (step : Next g e) : Performance k f e

/-- Editors wait at idle handles, no definition that runs is held, and every run is in place. -/
structure Settled (f : Floor) : Prop where
  reached : Director.Reached f.director
  asked : ∀ k ∈ f.asking, f.director.stateAt k = some .idle
  unguarded : ∀ k, f.director.Runs k → f.director.guardedAt k = false
  placed : ∀ r, f.director.Underway r → f.director.InPlace r

theorem Settled.isSome (h : f.Settled) (runs : f.director.Runs k) : (f.director.stateAt k).isSome = true := by
  obtain ⟨s, here, -⟩ := h.reached.attended.loaded k runs
  rw [here]
  rfl

theorem Settled.not_idle (h : f.Settled) (runs : f.director.Runs k) : f.director.stateAt k ≠ some .idle := by
  obtain ⟨s, here, busy⟩ := h.reached.attended.loaded k runs
  intro idle
  cases here.symm.trans idle
  exact busy rfl

theorem Settled.not_asked (h : f.Settled) (runs : f.director.Runs k) : k ∉ f.asking :=
  fun asked => h.not_idle runs (h.asked k asked)

theorem Next.director (step : Next f g) (h : f.Settled) : Director.Reached g.director := by
  cases step with
  | ask => exact h.reached
  | grant k asked free =>
    exact h.reached.next (.ambient (.beginEdit k (beginEdit_eq_ok_iff.mpr ⟨h.asked k asked, rfl⟩)))
  | amend k change held flag => exact h.reached.next (.ambient (.amend _ k change flag))
  | release k held => exact h.reached.next (.ambient (.endEdit _ k))
  | beside step => exact h.reached.next (.ambient step.ambient)
  | request step kept => exact h.reached.next (.request step)
  | takeUp n step => exact h.reached.next (.takeUp n step)
  | proceed step kept => exact h.reached.next (.proceed step)

theorem Next.asked (step : Next f g) (h : f.Settled) : ∀ k ∈ g.asking, g.director.stateAt k = some .idle := by
  have calm {e : Director} (calm : Calm f.director e) : ∀ k ∈ f.asking, e.stateAt k = some .idle := by
    intro k asked
    rcases calm.state k with same | ⟨-, idle⟩
    · exact same.trans (h.asked k asked)
    · exact idle
  cases step with
  | ask k ok free =>
    intro j asked
    rcases List.mem_cons.mp asked with rfl | asked
    · exact (beginEdit_eq_ok_iff.mp ok).1
    · exact h.asked j asked
  | grant k asked free =>
    intro j asked
    have held : Calm f.director (f.director.modifyHandle k Handle.hold) := calm_modifyHandle (fun _ => rfl) fun _ => rfl
    exact calm held j (List.mem_of_mem_erase asked)
  | amend k change held flag => exact calm (calm_amend _ k flag)
  | release k held => exact calm (calm_modifyHandle (fun _ => rfl) fun _ => rfl)
  | beside step => exact calm step.ambient.calm
  | request step kept => exact fun j asked => (kept j asked).trans (h.asked j asked)
  | takeUp n step =>
    obtain ⟨t, -, -, rfl⟩ := takeUp_cases step
    exact h.asked
  | proceed step kept => exact fun j asked => (kept j asked).trans (h.asked j asked)

/-- A run begins only on a definition that nobody holds. -/
theorem Next.runs (step : Next f g) (h : f.Settled) (runs : g.director.Runs k) :
    f.director.Runs k ∨ (f.director.guardedAt k = false ∧ (f.director.stateAt k).isSome = true) := by
  have same (seats : g.director.seats = f.director.seats) : f.director.Runs k := by
    rwa [runs_iff, seats, ← runs_iff] at runs
  cases step with
  | ask => exact .inl runs
  | grant => exact .inl runs
  | amend k change held flag => exact .inl (same (calm_amend _ k flag).drift.seats)
  | release => exact .inl runs
  | beside step => exact .inl (same step.ambient.calm.drift.seats)
  | request step kept => exact .inl (same step.drift.seats)
  | takeUp n step =>
    obtain ⟨t, -, -, rfl⟩ := takeUp_cases step
    exact .inl runs
  | proceed step kept =>
    rcases proceed_cases step with ⟨t, -, -, rfl⟩ | ⟨t, a, later, current, actions, free, rfl⟩
    · exact .inl runs
    · have attended := h.reached.attended
      replace runs : (f.director.perform a).2.Runs k := runs
      rw [runs_iff, attended.seats_perform h.reached.governed current actions] at runs
      rcases Seats.taken_of_after runs with ran | rfl
      · exact .inl (runs_iff.mpr ran)
      · obtain ⟨s, here, -⟩ := attended.busy_of_begin h.reached.governed current actions
        exact .inr ⟨free, by rw [here]; rfl⟩

/-- No step touches a definition while it runs, nor does the one with which its run begins or the one with which it
ends. -/
theorem Next.untouched (step : Next f g) (h : f.Settled) (runs : f.director.Runs k ∨ g.director.Runs k) :
    Untouched f.director g.director k := by
  cases step with
  | ask => exact untouched_of_registry rfl
  | grant j asked free =>
    -- Who waits does so at an idle handle, which has no run.
    refine untouched_modifyHandle ?_
    rintro rfl
    exact (h.not_asked (runs.elim id id) asked).elim
  | amend j change held flag =>
    have ran : f.director.Runs k := by
      rwa [runs_iff, runs_iff, (calm_amend _ j flag).drift.seats, ← runs_iff, or_self] at runs
    unfold Director.amend
    split
    · exact untouched_of_registry rfl
    · refine untouched_modifyHandle (d := f.director) ?_
      rintro rfl
      cases held.symm.trans (h.unguarded j ran)
  | release j held =>
    refine untouched_modifyHandle ?_
    rintro rfl
    cases held.symm.trans (h.unguarded j (runs.elim id id))
  | beside step => exact step.untouched
  | request step kept =>
    rcases step.cases with ⟨actions, -, rfl⟩ | ⟨j, s, t, actions, -, -, -, rfl⟩
    · exact untouched_of_registry rfl
    · exact untouched_modifyHandle (d := f.director) fun _ _ _ => ⟨rfl, rfl⟩
  | takeUp n step =>
    obtain ⟨t, -, -, rfl⟩ := takeUp_cases step
    exact untouched_of_registry rfl
  | proceed step kept =>
    rcases proceed_cases step with ⟨t, -, -, rfl⟩ | ⟨t, a, later, current, actions, free, rfl⟩
    · exact untouched_of_registry rfl
    · have attended := h.reached.attended
      have allowed := attended.allowed t current
      rw [actions] at allowed
      -- A definition that runs is not the one that a task rereads.
      refine untouched_perform ?_
      rintro path rfl
      have ran : f.director.seats.Taken k := by
        rcases runs with before | after
        · exact runs_iff.mp before
        · replace after : (f.director.perform (.refresh k path)).2.Runs k := after
          rwa [runs_iff, attended.seats_perform h.reached.governed current actions] at after
      exact allowed.1 ran

theorem Next.unguarded (step : Next f g) (h : f.Settled) (runs : g.director.Runs k) :
    g.director.guardedAt k = false := by
  have untouched := step.untouched h (.inr runs)
  rcases step.runs h runs with ran | ⟨free, known⟩
  · rw [untouched.guardedAt (h.isSome ran)]
    exact h.unguarded k ran
  · rw [untouched.guardedAt known]
    exact free

theorem Next.placed (step : Next f g) (h : f.Settled) (runs : g.director.Underway r) : g.director.InPlace r := by
  have same (r₀ : Run) (ran : f.director.Underway r₀) (key : r.key = r₀.key) (cursor : r.cursor = r₀.cursor) :
      g.director.InPlace r :=
    (h.placed r₀ ran).congr (step.untouched h (.inl ⟨r₀, ran, rfl⟩)) key cursor
  cases step with
  | ask => exact h.placed r runs
  | grant => exact same r runs rfl rfl
  | amend k change held flag =>
    revert same
    unfold Director.amend at runs ⊢
    split at runs
    · exact fun _ => h.placed r runs
    · exact fun same => same r runs rfl rfl
  | release => exact same r runs rfl rfl
  | beside step => exact step.inPlace h.placed runs
  | request step kept =>
    rcases step.cases with ⟨actions, -, rfl⟩ | ⟨k, s, t, actions, -, -, -, rfl⟩ <;> exact same r runs rfl rfl
  | takeUp n step =>
    obtain ⟨t, -, -, rfl⟩ := takeUp_cases step
    exact same r runs rfl rfl
  | proceed step kept =>
    rcases proceed_cases step with ⟨t, -, -, rfl⟩ | ⟨t, a, later, current, actions, -, rfl⟩
    · exact same r runs rfl rfl
    · rcases underway_perform runs with ⟨r₀, ran, key, cursor⟩ | ⟨-, placed⟩
      · exact same r₀ ran key cursor
      · exact placed

theorem Next.settled (step : Next f g) (h : f.Settled) : g.Settled where
  reached := step.director h
  asked := step.asked h
  unguarded _ runs := step.unguarded h runs
  placed _ runs := step.placed h runs

theorem Reached.settled (h : Reached f) : f.Settled := by
  induction h with
  | opened settings host storage =>
    have nobody (r : Run) : ¬ Director.Underway { settings := settings, host := host, storage := storage } r := by
      rintro (live | leaving)
      · cases live
      · cases leaving
    exact
      { reached := .opened settings host storage
        asked := nofun
        unguarded := fun _ ⟨r, runs, _⟩ => (nobody r runs).elim
        placed := fun r runs => (nobody r runs).elim }
  | next _ step ih => exact step.settled ih

theorem Performance.settled (h : Performance k f g) (settled : f.Settled) : g.Settled := by
  induction h with
  | begins _ step _ => exact step.settled settled
  | goesOn _ _ step ih => exact step.settled ih

/-- From the step with which a run begins to the one with which it has been stopped, the definition is what it was. -/
theorem Performance.idsAt (h : Performance k f g) (settled : f.Settled) :
    (f.director.stateAt k).isSome = true ∧ g.director.idsAt k = f.director.idsAt k := by
  induction h with
  | begins before step after =>
    rcases step.runs settled after with ran | ⟨-, known⟩
    · exact (before ran).elim
    · exact ⟨known, (step.untouched settled (.inr after)).idsAt known⟩
  | goesOn h runs step ih =>
    obtain ⟨known, same⟩ := ih
    have now := h.settled settled
    exact ⟨known, ((step.untouched now (.inl runs)).idsAt (now.isSome runs)).trans same⟩

/-- However editors, requests, tasks and the live run interleave, a definition is handed out only in idle, and nobody
holds it or waits for it from the beginning of a run of it until that has been stopped. Its identities are the same
and in the same order throughout, so the cursor of the run and the frames it returns to keep their places. -/
theorem never_edited_while_running {f : Floor} (h : f.Reached) :
    (∀ k, (∃ e, f.director.beginEdit k = .ok e) ∨ k ∈ f.asking → f.director.stateAt k = some .idle) ∧
      (∀ k, f.director.Runs k →
        f.director.stateAt k ≠ some .idle ∧ f.director.guardedAt k = false ∧ k ∉ f.asking) ∧
      (∀ k g, f.Performance k g → g.director.idsAt k = f.director.idsAt k) ∧
      (∀ r, f.director.Underway r → f.director.InPlace r) := by
  have settled := h.settled
  refine ⟨?_, ?_, fun k g performance => (performance.idsAt settled).2, settled.placed⟩
  · rintro k (⟨e, ok⟩ | asked)
    · exact (beginEdit_eq_ok_iff.mp ok).1
    · exact settled.asked k asked
  · exact fun k runs => ⟨settled.not_idle runs, settled.unguarded k runs, settled.not_asked runs⟩

/-- A handle is asked to be activated while an editor holds its definition. The task waits until it is given back;
then the run begins. -/
theorem never_edited_while_running_activated :
    ∃ held f g : Floor, held.Reached ∧ held.director.guardedAt 0 = true ∧ held.director.proceed = none ∧
      f.Reached ∧ f.Performance 0 g ∧ g.director.Runs 0 ∧ g.director.stateAt 0 = some .active ∧
      g.director.guardedAt 0 = false ∧ g.director.idsAt 0 = f.director.idsAt 0 := by
  have opened : Reached { director := {} } := .opened {} ⟨0⟩ {}
  have registered := opened.next (.beside (.register {} { elements := [.activity { id := 0, cue := {} }] }))
  have asked := registered.next (.ask 0 (beginEdit_eq_ok_iff.mpr ⟨rfl, rfl⟩) List.not_mem_nil)
  have granted := asked.next (.grant 0 List.mem_cons_self rfl)
  have claimed := granted.next (.request (.setActive 0 true 0 rfl) nofun)
  have taken := claimed.next (.takeUp 0 rfl)
  have proceed {f : Floor} {e : Director} (h : Reached f) (nobody : f.asking = [])
      (took : f.director.proceed = some e) : Next f { f with director := e } ∧ Reached { f with director := e } := by
    have step : Next f { f with director := e } := .proceed took (by rw [nobody]; exact nofun)
    exact ⟨step, h.next step⟩
  obtain ⟨-, left⟩ := proceed taken rfl rfl
  obtain ⟨-, detached⟩ := proceed left rfl rfl
  obtain ⟨-, lowered⟩ := proceed detached rfl rfl
  obtain ⟨-, stopped⟩ := proceed lowered rfl rfl
  have released := stopped.next (.release 0 rfl)
  obtain ⟨begins, began⟩ := proceed released rfl rfl
  obtain ⟨connects, connected⟩ := proceed began rfl rfl
  obtain ⟨settles, active⟩ := proceed connected rfl rfl
  have performance := ((Performance.begins (k := 0) (by rw [runs_iff]; rintro (h | h) <;> cases h) begins
    (runs_iff.mpr (.inl rfl))).goesOn (runs_iff.mpr (.inl rfl)) connects).goesOn (runs_iff.mpr (.inl rfl)) settles
  obtain ⟨-, -, same, -⟩ := never_edited_while_running released
  obtain ⟨-, held, -, -⟩ := never_edited_while_running active
  have unguarded := (held 0 (runs_iff.mpr (.inl rfl))).2.1
  exact ⟨_, _, _, stopped, rfl, rfl, released, performance, runs_iff.mpr (.inl rfl), rfl, unguarded,
    same 0 _ performance⟩

end Floor

end EncounterTimeline

import EncounterTimeline.Proofs.Director.Renewal
import EncounterTimeline.Proofs.Document.Restored

/-! # The file of a definition

A definition is read anew from its file, and saving it to a path makes that its file. A reload takes down the path when
it is asked for; its task reads the path later, and makes it the file once more if it finds a document there. Nothing
keeps the definition from being saved elsewhere in between. A few kinds of dealings tell what becomes of the file: it is
the path of the latest saving, unless a reload asked for before that has read a document at another path since.
-/
namespace EncounterTimeline.Director

inductive Dealing where
  | savedAs (path : String)
  | asked (path : String)
  | read (path : String) (found : Bool)

namespace Dealing

variable {first : Option String} {h later earlier : List Dealing} {p q : String}

def file (first : Option String) : List Dealing → Option String
  | [] => first
  | savedAs path :: _ | read path true :: _ => some path
  | asked _ :: earlier | read _ false :: earlier => file first earlier

def saved (first : Option String) : List Dealing → Option String
  | [] => first
  | savedAs path :: _ => some path
  | asked _ :: earlier | read _ _ :: earlier => saved first earlier

def awaited : List Dealing → Option String
  | [] | read _ _ :: _ => none
  | asked path :: _ => some path
  | savedAs _ :: earlier => awaited earlier

/-- A reload is asked for with the file that the definition has then, and reads the path it was asked for with. -/
inductive Sound (first : Option String) : List Dealing → Prop
  | nil : Sound first []
  | savedAs (path : String) {earlier : List Dealing} (h : Sound first earlier) : Sound first (savedAs path :: earlier)
  | asked (path : String) {earlier : List Dealing} (h : Sound first earlier) (own : file first earlier = some path) :
      Sound first (asked path :: earlier)
  | read (path : String) (found : Bool) {earlier : List Dealing} (h : Sound first earlier)
      (own : awaited earlier = some path) : Sound first (read path found :: earlier)

/-- When the definition was last saved to a path, a reload of another path was under way, and it has read a document
there since. -/
def Overtaken (h : List Dealing) : Prop :=
  ∃ later path earlier other, h = later ++ savedAs path :: earlier ∧ (∀ p, savedAs p ∉ later) ∧
    awaited earlier = some other ∧ other ≠ path ∧ read other true ∈ later

theorem saved_append (unsaved : ∀ p, savedAs p ∉ later) : saved first (later ++ earlier) = saved first earlier := by
  induction later with
  | nil => rfl
  | cons dealing later ih =>
    have rest := ih fun p hp => unsaved p (List.mem_cons_of_mem _ hp)
    cases dealing with
    | savedAs p => exact absurd List.mem_cons_self (unsaved p)
    | asked | read => exact rest

/-- Dealings go back to the latest saving, or to the beginning. -/
theorem exists_latest (h : List Dealing) : (∀ p, savedAs p ∉ h) ∨
    ∃ later p earlier, h = later ++ savedAs p :: earlier ∧ ∀ r, savedAs r ∉ later := by
  induction h with
  | nil => exact .inl fun _ => List.not_mem_nil
  | cons dealing h ih =>
    cases dealing with
    | savedAs p => exact .inr ⟨[], p, h, rfl, fun _ => List.not_mem_nil⟩
    | asked | read =>
      rcases ih with never | ⟨later, p, earlier, rfl, unsaved⟩
      · exact .inl fun p => List.not_mem_cons_of_ne_of_not_mem nofun (never p)
      · exact .inr ⟨_ :: later, p, earlier, rfl, fun r => List.not_mem_cons_of_ne_of_not_mem nofun (unsaved r)⟩

/-- What later dealings without a saving come to: they leave the file, or the reload that was under way before them has
read a document at another path, which is the file from then on. -/
inductive Fate (first : Option String) (later earlier : List Dealing) : Prop
  | kept (same : file first (later ++ earlier) = file first earlier)
      (reads : ∀ q, read q true ∈ later → file first earlier = some q)
      (awaits : ∀ q, awaited (later ++ earlier) = some q → file first earlier = some q ∨ awaited earlier = some q)
  | displaced (q : String) (under : awaited earlier = some q) (other : file first earlier ≠ some q)
      (found : read q true ∈ later) (now : file first (later ++ earlier) = some q)
      (awaits : ∀ r, awaited (later ++ earlier) = some r → r = q)

theorem Fate.asked (fate : Fate first later earlier) (own : file first (later ++ earlier) = some p) :
    Fate first (asked p :: later) earlier := by
  cases fate with
  | kept same reads =>
    refine .kept same (fun q hq => reads q (List.mem_of_ne_of_mem (by simp) hq)) ?_
    rintro q ⟨⟩
    exact .inl (same.symm.trans own)
  | displaced q under other found now =>
    refine .displaced q under other (List.mem_cons_of_mem _ found) now ?_
    rintro r ⟨⟩
    exact Option.some.inj (own.symm.trans now)

theorem Fate.read (fate : Fate first later earlier) (own : awaited (later ++ earlier) = some p) (found : Bool) :
    Fate first (read p found :: later) earlier := by
  cases fate with
  | kept same reads awaits =>
    cases found with
    | false => exact .kept same (fun q hq => reads q (List.mem_of_ne_of_mem (by simp) hq)) nofun
    | true =>
      by_cases kept : file first earlier = some p
      · refine .kept kept.symm ?_ nofun
        intro q hq
        rcases List.mem_cons.mp hq with now | before
        · cases now
          exact kept
        · exact reads q before
      · exact .displaced p ((awaits p own).resolve_left kept) kept List.mem_cons_self rfl nofun
  | displaced q under other before now awaits =>
    cases awaits p own
    refine .displaced p under other (List.mem_cons_of_mem _ before) ?_ nofun
    cases found with
    | false => exact now
    | true => rfl

theorem fate_of_sound (sound : Sound first (later ++ earlier)) (unsaved : ∀ p, savedAs p ∉ later) :
    Fate first later earlier := by
  induction later with
  | nil => exact .kept rfl nofun fun _ => .inr
  | cons dealing later ih =>
    have rest (p : String) : savedAs p ∉ later := fun hp => unsaved p (List.mem_cons_of_mem _ hp)
    cases sound with
    | savedAs p => exact absurd List.mem_cons_self (unsaved p)
    | asked p sound own => exact (ih sound rest).asked own
    | read p found sound own => exact (ih sound rest).read own found

/-- The file is where the definition was last saved, unless a reload has overtaken the saving. -/
theorem file_eq_saved_iff (sound : Sound first h) : file first h = saved first h ↔ ¬ Overtaken h := by
  constructor
  · rintro same ⟨later, p, earlier, q, rfl, unsaved, under, other, found⟩
    rw [saved_append unsaved] at same
    cases fate_of_sound sound unsaved with
    | kept _ reads => exact other (Option.some.inj (reads q found)).symm
    | displaced r _ apart _ now => exact apart (same.symm.trans now)
  · intro clear
    rcases exists_latest h with never | ⟨later, p, earlier, rfl, unsaved⟩
    · -- Before the first dealing no reload was under way.
      rw [← List.append_nil h] at sound ⊢
      rw [saved_append never]
      cases fate_of_sound sound never with
      | kept same => exact same
      | displaced q under => cases under
    · rw [saved_append unsaved]
      cases fate_of_sound sound unsaved with
      | kept same => exact same
      | displaced q under other found =>
        have apart : q ≠ p := fun eq => other (congrArg some eq.symm)
        exact absurd ⟨later, p, earlier, q, rfl, unsaved, under, apart, found⟩ clear

end Dealing

variable {d e : Director} {k : HandleKey} {t u : Task} {x : Handle} {path : String} {first : Option String}
  {h : List Dealing}

def fileAt (d : Director) (k : HandleKey) : Option String := (d.handle? k).bind fun x => x.definition.file

def finds (d : Director) (path : String) : Bool :=
  match Document.load d.storage path with
  | .ok (some _) => true
  | _ => false

theorem fileAt_of_handle? (hx : d.handle? k = some x) : d.fileAt k = x.definition.file := by
  rw [fileAt, hx]
  rfl

theorem fileAt_eq_bind (d : Director) (k : HandleKey) : d.fileAt k = (d.contentAt k).bind Definition.file := by
  rw [fileAt, contentAt]
  cases d.handle? k <;> rfl

theorem finds_iff : d.finds path = true ↔ ∃ document, Document.load d.storage path = .ok (some document) := by
  unfold finds
  split
  case h_1 document found => simp [found]
  case h_2 other =>
    simp only [Bool.false_eq_true, false_iff, not_exists]
    exact other

/-- A reading makes the path the file if it finds a document there. -/
theorem fileAt_refresh (hx : d.handle? k = some x) (path : String) :
    (d.perform (.refresh k path)).2.fileAt k = if d.finds path then some path else d.fileAt k := by
  have rewrites := (refresh_rewrites hx path).2
  rw [fileAt_eq_bind, fileAt_eq_bind, perform]
  split
  · rename_i found
    obtain ⟨document, loaded⟩ := finds_iff.mp found
    obtain ⟨n, content⟩ := rewrites.taken document loaded
    rw [content]
    rfl
  · rename_i nothing
    rw [rewrites.kept fun document loaded => nothing (finds_iff.mpr ⟨document, loaded⟩)]

/-- Saving under a new name changes the file and what is stored, and nothing else. -/
theorem saveAs_eq_ok (step : d.saveAs k path = (.ok (), e)) : ∃ x storage, d.handle? k = some x ∧
    e = { d.modifyHandle k fun h => { h with definition := { h.definition with file := some path } } with
      storage := storage } := by
  unfold saveAs at step
  split at step
  · cases step
  · rename_i x required
    obtain ⟨result, storage, saved⟩ := d.saveTo_cases x.definition path
    rw [saved] at step
    cases result with
    | error fault => cases step
    | ok _ =>
      cases step
      exact ⟨x, storage, handle?_of_require required, rfl⟩

/-- A reload that is granted leaves a task behind that is to read the file of the definition. -/
theorem reload_eq_ok {id : TaskId} (step : d.reload k = .ok (id, e)) : ∃ x path claimed was,
    d.handle? k = some x ∧ x.definition.file = some path ∧ x.claimReload = .ok claimed ∧
      e = ((d.modifyHandle k fun h => h.setState claimed).launch (Action.reload k path was)).2 := by
  obtain ⟨x, hx, step⟩ := except_bind_eq_ok step
  cases file : x.definition.file with
  | none => simp [file] at step
  | some path =>
    simp only [file] at step
    obtain ⟨claimed, claims, step⟩ := except_bind_eq_ok step
    cases step
    exact ⟨x, path, claimed, _, handle?_of_require hx, file, claims, rfl⟩

theorem mem_tasks_of_current (current : d.current = some t) : t ∈ d.tasks := by
  rw [tasks, current]
  exact List.mem_cons_self

theorem mem_tasks_of_waiting (waits : t ∈ d.waiting) : t ∈ d.tasks := List.mem_append_right _ waits

theorem mem_tasks_launch {actions : List Action} (ht : t ∈ (d.launch actions).2.tasks) :
    t ∈ d.tasks ∨ t.actions = actions := by
  have old : t ∈ d.tasks ++ [{ id := d.taskCount, actions := actions }] := by
    rw [tasks, List.append_assoc]
    exact ht
  rcases List.mem_append.mp old with old | new
  · exact .inl old
  · rw [List.mem_singleton.mp new]
    exact .inr rfl

theorem mem_tasks_takeUp {n : Nat} (step : d.takeUp n = some e) (ht : t ∈ e.tasks) : t ∈ d.tasks := by
  obtain ⟨u, -, waits, rfl⟩ := takeUp_cases step
  apply mem_tasks_of_waiting
  rcases List.mem_cons.mp ht with rfl | later
  · exact List.mem_of_getElem? waits
  · exact List.mem_of_mem_eraseIdx later

theorem mem_tasks_afterAction {a : Action} {later : List Action} (ht : t ∈ (d.afterAction u a later).tasks) :
    t.actions = later ∨ t ∈ d.waiting := by
  have waiting : (d.afterAction u a later).waiting = d.waiting := (tasks_perform d a).2
  rcases List.mem_cons.mp ht with rfl | waits
  · exact .inl rfl
  · exact .inr (waiting ▸ waits)

/-- A plan that reads a path is that of a reload. -/
theorem Plan.eq_reload {c : Option (HandleKey × Lifecycle)} {actions : List Action} (plan : Plan c actions)
    (reads : .refresh k path ∈ actions) : ∃ s was, c = some (k, s) ∧ actions = Action.reload k path was := by
  cases plan with
  | restart j p | refresh j p =>
    obtain ⟨rfl, rfl⟩ := eq_of_refresh_mem reads
    exact ⟨_, _, rfl, rfl⟩
  | activate | deactivate | shutdown | nothing =>
    simp [Action.activate, Action.deactivate, Action.shutdown, Action.stopping, Action.starting] at reads

def FollowsPlan (t : Task) : Prop := ∃ c done, Plan c (done ++ t.actions)

theorem followsPlan_launch {c : Option (HandleKey × Lifecycle)} {actions : List Action} (plan : Plan c actions)
    (h : ∀ t ∈ d.tasks, FollowsPlan t) : ∀ t ∈ (d.launch actions).2.tasks, FollowsPlan t := by
  intro t ht
  rcases mem_tasks_launch ht with old | rfl
  · exact h t old
  · exact ⟨c, [], plan⟩

theorem Reached.followsPlan (r : Reached d) : ∀ t ∈ d.tasks, FollowsPlan t := by
  induction r with
  | opened => nofun
  | @next d e r step ih =>
    cases step with
    | ambient step =>
      rw [tasks, step.calm.current, step.calm.waiting]
      exact ih
    | request step =>
      rcases step.cases with ⟨actions, plan, rfl⟩ | ⟨k, s, s', actions, -, -, plan, rfl⟩
      · exact followsPlan_launch plan ih
      · have claimed : ∀ t ∈ (d.modifyHandle k fun h => h.setState s').tasks, FollowsPlan t := ih
        exact followsPlan_launch plan claimed
    | takeUp n step => exact fun t ht => ih t (mem_tasks_takeUp step ht)
    | proceed step =>
      intro t ht
      rcases proceed_cases step with ⟨u, -, -, rfl⟩ | ⟨u, a, later, current, actions, -, rfl⟩
      · exact ih t (mem_tasks_of_waiting ht)
      · rcases mem_tasks_afterAction ht with own | waits
        · obtain ⟨c, done, plan⟩ := ih u (mem_tasks_of_current current)
          rw [actions] at plan
          exact ⟨c, done ++ [a], by simpa [own] using plan⟩
        · exact ih t (mem_tasks_of_waiting waits)

/-- A task that has still to read for a handle has its state to set in the end. -/
theorem Reached.owner_of_reads (r : Reached d) (ht : t ∈ d.tasks) (reads : .refresh k path ∈ t.actions) :
    t.owner = some k := by
  obtain ⟨c, done, plan⟩ := r.followsPlan t ht
  obtain ⟨s, was, rfl, -⟩ := plan.eq_reload (List.mem_append_right done reads)
  have last := plan.settles
  rw [List.getLast?_append_of_ne_nil done (List.ne_nil_of_mem reads)] at last
  exact last

/-- While a task reads for a handle, no other has to. -/
theorem Reached.alone_of_reads (r : Reached d) (current : d.current = some t) (reads : .refresh k path ∈ t.actions)
    (hu : u ∈ d.waiting) (q : String) : .refresh k q ∉ u.actions := by
  intro other
  -- Both would have the state of the handle to set.
  have own := r.owner_of_reads (mem_tasks_of_current current) reads
  have shared := r.owner_of_reads (mem_tasks_of_waiting hu) other
  have distinct := r.governed.booked.distinct
  rw [inFlight_of_current current, own] at distinct
  exact (List.nodup_cons.mp distinct).1 (List.mem_filterMap.mpr ⟨u, hu, shared⟩)

/-- A task reads for a handle once. -/
theorem Reached.reads_once {later : List Action} (r : Reached d) (ht : t ∈ d.tasks)
    (actions : t.actions = .refresh k path :: later) (q : String) : .refresh k q ∉ later := by
  intro again
  obtain ⟨c, done, plan⟩ := r.followsPlan t ht
  rw [actions] at plan
  obtain ⟨s, was, rfl, whole⟩ := plan.eq_reload (List.mem_append_right done List.mem_cons_self)
  have among : .refresh k q ∈ Action.reload k path was := by
    rw [← whole]
    exact List.mem_append_right done (List.mem_cons_of_mem _ again)
  obtain ⟨-, rfl⟩ := eq_of_refresh_mem among
  exact not_mem_of_reread whole again

theorem Reached.busy_of_reads (r : Reached d) (ht : t ∈ d.tasks) (reads : .refresh k path ∈ t.actions) : d.Busy k :=
  (r.governed.booked.busy k).mp (List.mem_filterMap.mpr ⟨t, ht, r.owner_of_reads ht reads⟩)

/-- Nothing has still to read for a handle that a reload may be granted for. -/
theorem Reached.unread_of_claimReload {claimed : Lifecycle} (r : Reached d) (hx : d.handle? k = some x)
    (claims : x.claimReload = .ok claimed) (ht : t ∈ d.tasks) (q : String) : .refresh k q ∉ t.actions := by
  intro reads
  obtain ⟨s, state, way⟩ := r.busy_of_reads ht reads
  rw [stateAt, hx] at state
  cases state
  rw [Handle.claimReload] at claims
  cases here : x.state with
  | idle | active =>
    rw [here] at way
    cases way
  | loading | unloading =>
    rw [here] at claims
    cases claims

/-- Nothing has to read for a handle that does not exist yet. -/
theorem Reached.unread_of_unknown (r : Reached d) (unknown : d.handle? k = none) (ht : t ∈ d.tasks) (q : String) :
    .refresh k q ∉ t.actions := by
  intro reads
  obtain ⟨s, state, -⟩ := r.busy_of_reads ht reads
  rw [stateAt, unknown] at state
  cases state

/-- One step of everything, with the dealing that it is for a handle. Beside the tasks nothing but a saving changes a file:
an editor has no access to it. -/
inductive Deals (k : HandleKey) : Director → Option Dealing → Director → Prop
  | savedAs {d e : Director} (path : String) (step : d.saveAs k path = (.ok (), e)) :
      Deals k d (some (.savedAs path)) e
  | asked {d e : Director} (path : String) (id : TaskId) (file : d.fileAt k = some path)
      (step : d.reload k = .ok (id, e)) : Deals k d (some (.asked path)) e
  | read {d e : Director} {t : Task} {later : List Action} (path : String) (current : d.current = some t)
      (actions : t.actions = .refresh k path :: later) (step : d.proceed = some e) :
      Deals k d (some (.read path (d.finds path))) e
  | proceed {d e : Director} (step : d.proceed = some e)
      (other : ∀ t path later, d.current = some t → t.actions ≠ .refresh k path :: later) : Deals k d none e
  | takeUp {d e : Director} (n : Nat) (step : d.takeUp n = some e) : Deals k d none e
  | request {d e : Director} (step : Request d e) (other : ∀ id, d.reload k ≠ .ok (id, e)) : Deals k d none e
  | beside {d e : Director} (step : Ambient d e) (same : e.fileAt k = d.fileAt k) : Deals k d none e

/-- A director that comes about, with the dealings with a handle since it was registered, the latest first. -/
inductive Filed (k : HandleKey) (first : Option String) : Director → List Dealing → Prop
  | registered {d : Director} (r : Reached d) (definition : Definition) (own : d.registry.length = k)
      (file : definition.file = first) : Filed k first (d.register definition).2 []
  | loaded {d e : Director} (r : Reached d) (path : String) (step : d.loadFile path = .ok (some k, e))
      (file : some path = first) : Filed k first e []
  | goes {d e : Director} {h : List Dealing} {dealing : Option Dealing} (filed : Filed k first d h)
      (deals : Deals k d dealing e) : Filed k first e (dealing.toList ++ h)

theorem Deals.next {dealing : Option Dealing} (deals : Deals k d dealing e) : Next d e := by
  cases deals with
  | savedAs path step =>
    have saved : e = (d.saveAs k path).2 := by rw [step]
    exact saved ▸ .ambient (.saveAs d k path)
  | asked path id file step => exact .request (.reload k id step)
  | read path current actions step => exact .proceed step
  | proceed step => exact .proceed step
  | takeUp n step => exact .takeUp n step
  | request step => exact .request step
  | beside step => exact .ambient step

/-- Every step is a dealing or none, as long as nothing but a saving changes the file beside the tasks. -/
theorem Next.exists_deals (step : Next d e)
    (beside : Ambient d e → e.fileAt k = d.fileAt k ∨ ∃ path, d.saveAs k path = (.ok (), e)) :
    ∃ dealing, Deals k d dealing e := by
  cases step with
  | ambient step =>
    rcases beside step with same | ⟨path, saved⟩
    · exact ⟨_, .beside step same⟩
    · exact ⟨_, .savedAs path saved⟩
  | request step =>
    by_cases granted : ∃ id, d.reload k = .ok (id, e)
    · obtain ⟨id, granted⟩ := granted
      obtain ⟨x, path, -, -, hx, file, -⟩ := reload_eq_ok granted
      exact ⟨_, .asked path id ((fileAt_of_handle? hx).trans file) granted⟩
    · exact ⟨_, .request step fun id h => granted ⟨id, h⟩⟩
  | takeUp n step => exact ⟨_, .takeUp n step⟩
  | proceed step =>
    by_cases reads : ∃ t path later, d.current = some t ∧ t.actions = .refresh k path :: later
    · obtain ⟨t, path, later, current, actions⟩ := reads
      exact ⟨_, .read path current actions step⟩
    · exact ⟨_, .proceed step fun t path later current actions => reads ⟨t, path, later, current, actions⟩⟩

theorem Filed.reached (filed : Filed k first d h) : Reached d := by
  induction filed with
  | registered r definition => exact r.next (.ambient (.register _ definition))
  | loaded r path step => exact r.next (.ambient (.loadFile path _ step))
  | goes _ deals ih => exact ih.next deals.next

structure Kept (k : HandleKey) (first : Option String) (d : Director) (h : List Dealing) : Prop where
  known : ∃ x, d.handle? k = some x
  file : d.fileAt k = Dealing.file first h
  sound : Dealing.Sound first h
  awaited : ∀ t ∈ d.tasks, ∀ path, .refresh k path ∈ t.actions → Dealing.awaited h = some path

/-- A request claims a state at most and leaves a task behind, which reads for a handle only if the request was to
reload it. -/
theorem Request.launches (step : Request d e) : ∃ g actions, e = (launch g actions).2 ∧ g.tasks = d.tasks ∧
    (∀ k, g.contentAt k = d.contentAt k) ∧ ∀ k path, .refresh k path ∈ actions → ∃ id, d.reload k = .ok (id, e) := by
  have claimed (j : HandleKey) (s : Lifecycle) (k : HandleKey) :
      (d.modifyHandle j fun h => h.setState s).contentAt k = d.contentAt k := by
    rw [contentAt, contentAt, handle?_modifyHandle]
    split
    · rw [Option.map_map]
      rfl
    · rfl
  cases step with
  | shutdown =>
    exact ⟨d, _, rfl, rfl, fun _ => rfl, by simp [Action.shutdown, Action.stopping]⟩
  | reload j id step =>
    obtain ⟨x, path, s, was, -, -, -, rfl⟩ := reload_eq_ok step
    refine ⟨_, _, rfl, rfl, claimed j s, ?_⟩
    intro k q reads
    obtain ⟨rfl, -⟩ := eq_of_refresh_mem reads
    exact ⟨id, step⟩
  | setActive j active id step =>
    obtain ⟨x, -, step⟩ := except_bind_eq_ok step
    obtain ⟨claim, -, step⟩ := except_bind_eq_ok step
    cases claim with
    | none =>
      cases step
      exact ⟨d, [], rfl, rfl, fun _ => rfl, by simp⟩
    | some s =>
      cases step
      refine ⟨_, _, rfl, rfl, claimed j s, ?_⟩
      cases active <;> simp [Action.activate, Action.deactivate, Action.stopping, Action.starting]

namespace Kept

/-- What leaves the definition of a handle alone and has nothing new read for it needs no account. -/
theorem unchanged (kept : Kept k first d h) (known : ∃ x, e.handle? k = some x) (file : e.fileAt k = d.fileAt k)
    (tasks : ∀ t ∈ e.tasks, ∀ path, .refresh k path ∈ t.actions → ∃ u ∈ d.tasks, .refresh k path ∈ u.actions) :
    Kept k first e h where
  known := known
  file := file.trans kept.file
  sound := kept.sound
  awaited t ht path reads := by
    obtain ⟨u, hu, before⟩ := tasks t ht path reads
    exact kept.awaited u hu path before

theorem savedAs (kept : Kept k first d h) (step : d.saveAs k path = (.ok (), e)) :
    Kept k first e (.savedAs path :: h) := by
  obtain ⟨x, storage, hx, rfl⟩ := saveAs_eq_ok step
  have renamed := handle?_modifyHandle_self hx fun h => { h with definition := { h.definition with file := some path } }
  exact
    { known := ⟨_, renamed⟩
      file := fileAt_of_handle? renamed
      sound := .savedAs path kept.sound
      awaited := kept.awaited }

theorem asked {id : TaskId} (kept : Kept k first d h) (r : Reached d) (file : d.fileAt k = some path)
    (step : d.reload k = .ok (id, e)) : Kept k first e (.asked path :: h) := by
  obtain ⟨x, p, claimed, was, hx, own, claims, rfl⟩ := reload_eq_ok step
  have here : d.fileAt k = x.definition.file := fileAt_of_handle? hx
  obtain rfl : p = path := Option.some.inj ((own.symm.trans here.symm).trans file)
  have held := handle?_modifyHandle_self hx fun h => h.setState claimed
  refine
    { known := ⟨_, held⟩
      file := (fileAt_of_handle? held).trans (here.symm.trans kept.file)
      sound := .asked p kept.sound (kept.file.symm.trans file)
      awaited := ?_ }
  intro t ht q reads
  rcases mem_tasks_launch ht with old | new
  · exact absurd reads (r.unread_of_claimReload hx claims old q)
  · rw [new] at reads
    obtain ⟨-, rfl⟩ := eq_of_refresh_mem reads
    rfl

theorem read {later : List Action} (kept : Kept k first d h) (r : Reached d) (current : d.current = some t)
    (actions : t.actions = .refresh k path :: later) :
    Kept k first (d.afterAction t (.refresh k path) later) (.read path (d.finds path) :: h) := by
  obtain ⟨x, hx⟩ := kept.known
  obtain ⟨y, hy, -⟩ := exists_handle?_perform (.refresh k path) hx
  have own : t ∈ d.tasks := mem_tasks_of_current current
  have reads : .refresh k path ∈ t.actions := by
    rw [actions]
    exact List.mem_cons_self
  have file : (d.afterAction t (.refresh k path) later).fileAt k = Dealing.file first (.read path (d.finds path) :: h) := by
    refine (fileAt_refresh hx path).trans ?_
    rw [kept.file]
    cases d.finds path <;> rfl
  refine { known := ⟨y, hy⟩, file, sound := .read path _ kept.sound (kept.awaited t own path reads), awaited := ?_ }
  -- With this reading nothing is to be read for the handle any more.
  intro u hu q again
  rcases mem_tasks_afterAction hu with rest | waits
  · rw [rest] at again
    exact absurd again (r.reads_once own actions q)
  · exact absurd again (r.alone_of_reads current reads waits q)

theorem proceed (kept : Kept k first d h) (step : d.proceed = some e)
    (other : ∀ t path later, d.current = some t → t.actions ≠ .refresh k path :: later) : Kept k first e h := by
  rcases proceed_cases step with ⟨t, -, -, rfl⟩ | ⟨t, a, later, current, actions, -, rfl⟩
  · exact kept.unchanged kept.known rfl fun u hu path reads => ⟨u, mem_tasks_of_waiting hu, reads⟩
  · obtain ⟨x, hx⟩ := kept.known
    obtain ⟨y, hy, -⟩ := exists_handle?_perform a hx
    have same : (d.perform a).2.contentAt k = d.contentAt k := by
      apply contentAt_perform (by rw [contentAt_of_handle? hx]; rfl)
      rintro path rfl
      exact other t path later current actions
    have file : (d.perform a).2.fileAt k = d.fileAt k := by rw [fileAt_eq_bind, same, ← fileAt_eq_bind]
    refine kept.unchanged ⟨y, hy⟩ file ?_
    intro u hu path reads
    rcases mem_tasks_afterAction hu with rest | waits
    · refine ⟨t, mem_tasks_of_current current, ?_⟩
      rw [actions, ← rest]
      exact List.mem_cons_of_mem _ reads
    · exact ⟨u, mem_tasks_of_waiting waits, reads⟩

theorem request (kept : Kept k first d h) (step : Request d e) (other : ∀ id, d.reload k ≠ .ok (id, e)) :
    Kept k first e h := by
  obtain ⟨g, actions, rfl, tasks, content, reload⟩ := step.launches
  obtain ⟨x, hx⟩ := kept.known
  have known : (g.contentAt k).isSome = true := by
    rw [content, contentAt_of_handle? hx]
    rfl
  have file : g.fileAt k = d.fileAt k := by rw [fileAt_eq_bind, content, ← fileAt_eq_bind]
  refine kept.unchanged (exists_handle?_of_contentAt known) file ?_
  intro t ht path reads
  rcases mem_tasks_launch ht with old | new
  · exact ⟨t, tasks ▸ old, reads⟩
  · rw [new] at reads
    obtain ⟨id, granted⟩ := reload k path reads
    exact absurd granted (other id)

theorem deals {dealing : Option Dealing} (kept : Kept k first d h) (r : Reached d) (deals : Deals k d dealing e) :
    Kept k first e (dealing.toList ++ h) := by
  cases deals with
  | savedAs path step => exact kept.savedAs step
  | asked path id file step => exact kept.asked r file step
  | read path current actions step =>
    rcases proceed_cases step with ⟨u, own, spent, -⟩ | ⟨u, a, rest, own, here, -, rfl⟩
    · cases current.symm.trans own
      cases actions.symm.trans spent
    · cases current.symm.trans own
      cases actions.symm.trans here
      exact kept.read r current actions
  | proceed step other => exact kept.proceed step other
  | takeUp n step =>
    obtain ⟨t, -, -, rfl⟩ := takeUp_cases step
    exact kept.unchanged kept.known rfl fun u hu path reads => ⟨u, mem_tasks_takeUp step hu, reads⟩
  | request step other => exact kept.request step other
  | beside step same =>
    have calm := step.calm
    obtain ⟨x, hx⟩ := kept.known
    have state : (d.stateAt k).isSome = true := by
      rw [stateAt, hx]
      rfl
    refine kept.unchanged (exists_handle?_of_isSome (calm.drift.isSome state)) same ?_
    rw [tasks, calm.current, calm.waiting]
    exact fun t ht path reads => ⟨t, ht, reads⟩

end Kept

/-- A new handle has the file it is registered with, and nothing is to be read for it. -/
theorem kept_register (r : Reached d) (n : ElementId) (definition : Definition) (own : d.registry.length = k) :
    Kept k definition.file (register { d with nextId := n } definition).2 [] := by
  have unknown : d.handle? k = none := List.getElem?_eq_none (Nat.le_of_eq own)
  have here : (register { d with nextId := n } definition).2.handle? k = some (Handle.ofDefinition definition) := by
    rw [handle?, register, ← own]
    exact List.getElem?_concat_length
  exact
    { known := ⟨_, here⟩
      file := fileAt_of_handle? here
      sound := .nil
      awaited := fun t ht path reads => absurd reads (r.unread_of_unknown unknown ht path) }

theorem Filed.kept (filed : Filed k first d h) : Kept k first d h := by
  induction filed with
  | @registered d r definition own file =>
    rw [← file]
    exact kept_register r d.nextId definition own
  | @loaded d e r path step file =>
    unfold loadFile at step
    split at step
    · cases step
    · cases step
    · rename_i document _
      cases step
      rw [← file]
      exact kept_register r (document.workbench d.nextId).nextId
        { (document.workbench d.nextId).definition with file := some path } rfl
  | goes filed deals ih => exact ih.deals filed.reached deals

/-- What saving a definition does once its file is known. -/
theorem save_eq_saveTo (hx : d.handle? k = some x) (file : x.definition.file = some path) :
    d.save k = d.saveTo x.definition path := by
  simp only [save, require, hx, file]

/-- A file that was saved holds the definition. -/
theorem read_of_saveTo {definition : Definition} (saved : d.saveTo definition path = (.ok (), e)) :
    e.storage.read path = .ok definition.document.fileBytes := by
  unfold saveTo at saved
  rcases Document.save_cases d.storage path definition.document with ⟨fault, failed⟩ | ⟨s, t, -, written, ok⟩
  · generalize definition.document.save d.storage path = result at saved failed
    obtain ⟨answer, storage⟩ := result
    cases failed
    cases saved
  · rw [ok] at saved
    cases saved
    exact Storage.read_of_write written

/-- However reloads, their tasks, savings and everything else interleave, the dealings with a handle tell what its file
is. It is the path that the definition was last saved to, or its first file if it never was, exactly if no reload has
overtaken that saving. Saving the definition writes it to its file. -/
theorem reload_keeps_file_iff (filed : Filed k first d h) :
    d.fileAt k = Dealing.file first h ∧
    (d.fileAt k = Dealing.saved first h ↔ ¬ Dealing.Overtaken h) ∧
    ∃ x, d.handle? k = some x ∧ ∀ path, Dealing.file first h = some path →
      d.save k = d.saveTo x.definition path ∧
      ∀ e, d.save k = (.ok (), e) → e.storage.read path = .ok x.definition.document.fileBytes := by
  have kept := filed.kept
  obtain ⟨x, hx⟩ := kept.known
  refine ⟨kept.file, ?_, x, hx, ?_⟩
  · rw [kept.file]
    exact Dealing.file_eq_saved_iff kept.sound
  · intro path file
    have own : x.definition.file = some path := ((fileAt_of_handle? hx).symm.trans kept.file).trans file
    exact ⟨save_eq_saveTo hx own, fun e saved => read_of_saveTo ((save_eq_saveTo hx own).symm.trans saved)⟩

theorem proceed_eq_some {a : Action} {later : List Action} (current : d.current = some t)
    (actions : t.actions = a :: later) (free : d.blocked a = false) : d.proceed = some (d.afterAction t a later) := by
  simp only [proceed, current, actions, free]
  rfl

/-- A definition is saved under a new name while a reload is under way, and the reload finds the old file gone. -/
theorem reload_keeps_file_iff_gone : ∃ (d : Director) (h : List Dealing), Filed 0 (some "raid.xml") d h ∧
    h = [.read "raid.xml" false, .savedAs "copy.xml", .asked "raid.xml"] ∧ d.fileAt 0 = some "copy.xml" ∧
    ¬ Dealing.Overtaken h ∧ ∃ x, d.handle? 0 = some x ∧ d.save 0 = d.saveTo x.definition "copy.xml" := by
  have opened : Reached {} := .opened {} ⟨0⟩ {}
  have registered : Filed 0 (some "raid.xml") _ [] := .registered opened { file := some "raid.xml" } rfl rfl
  have asked := registered.goes (.asked "raid.xml" 0 rfl rfl)
  have saved := asked.goes (.savedAs "copy.xml" rfl)
  have taken := saved.goes (.takeUp 0 rfl)
  have read := taken.goes (.read "raid.xml" rfl rfl rfl)
  obtain ⟨file, kept, x, hx, saves⟩ := reload_keeps_file_iff read
  exact ⟨_, _, read, rfl, file, kept.mp file, x, hx, (saves "copy.xml" rfl).1⟩

/-- The reload finds the old file, which the definition has for its file again when everything has ended. -/
theorem exists_file_displaced : ∃ (d : Director) (h : List Dealing), Filed 0 (some "raid.xml") d h ∧ d.tasks = [] ∧
    Dealing.saved (some "raid.xml") h = some "copy.xml" ∧ d.fileAt 0 = some "raid.xml" := by
  have opened : Reached { storage := ⟨[(["raid.xml"], .file (Text.encode "<timeline/>".toList))]⟩ } := .opened {} ⟨0⟩ _
  have registered : Filed 0 (some "raid.xml") _ [] := .registered opened { file := some "raid.xml" } rfl rfl
  have asked := registered.goes (.asked "raid.xml" 0 rfl rfl)
  have saved := asked.goes (.savedAs "copy.xml" rfl)
  have taken := saved.goes (.takeUp 0 rfl)
  have read := taken.goes (.read "raid.xml" rfl rfl (proceed_eq_some rfl rfl rfl))
  have settled := read.goes (.proceed (proceed_eq_some rfl rfl rfl) (by rintro _ _ _ ⟨⟩ ⟨⟩))
  have ended := settled.goes (.proceed rfl (by rintro _ _ _ ⟨⟩ ⟨⟩))
  refine ⟨_, _, ended, (tasks_perform _ (.refresh 0 "raid.xml")).2, rfl, ?_⟩
  rw [ended.kept.file]
  decide +kernel

end EncounterTimeline.Director

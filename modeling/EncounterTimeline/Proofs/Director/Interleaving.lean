import EncounterTimeline.Director.Basic
import EncounterTimeline.Proofs.Playback.Moves

/-! # Interleavings

A director is asked for things at any time, its tasks take their actions one at a time while they hold the lock, and
beside all that the live run plays, definitions are edited and saved, and the log and the files change. What happens
beside the tasks claims states at most; it never touches a run, a flag or a subscription.
-/
namespace EncounterTimeline

namespace Bus

variable {b : Bus} {m n : Nat}

def attachedAt (b : Bus) (n : Nat) : Bool := b.subscribers[n]?.any Subscriber.attached

def Heard (b : Bus) : Prop := ∀ s ∈ b.subscribers, s.attached = true → s.listening = true

theorem attachedAt_subscribe :
    b.subscribe.2.attachedAt n = true ↔ n = b.subscribe.1 ∨ b.attachedAt n = true := by
  simp only [attachedAt, subscribe]
  rcases Nat.lt_trichotomy n b.subscribers.length with lt | eq | gt
  · rw [List.getElem?_append_left lt]
    simp [Nat.ne_of_lt lt]
  · simp [eq]
  · have beyond : b.subscribers.length + 1 ≤ n := gt
    rw [List.getElem?_eq_none (by simpa using beyond), List.getElem?_eq_none (Nat.le_of_lt gt)]
    simp [Nat.ne_of_gt gt]

theorem attachedAt_closed :
    ((b.unsubscribe m).leave m).attachedAt n = true ↔ n ≠ m ∧ b.attachedAt n = true := by
  simp only [attachedAt, leave, unsubscribe, List.getElem?_modify]
  by_cases h : m = n
  · subst h
    cases b.subscribers[m]? <;> simp [Subscriber.leave, Subscriber.detach]
  · have h' : n ≠ m := Ne.symm h
    simp [h, h']

theorem attachedAt_drain : (b.drain m).2.attachedAt n = b.attachedAt n := by
  simp only [attachedAt, drain, List.getElem?_modify]
  by_cases h : m = n
  · subst h
    cases b.subscribers[m]? <;> simp
  · simp [h]

theorem attached_offer {s : Subscriber} (line : String) (h : s.attached = true → s.listening = true) :
    (s.offer line).attached = s.attached ∧ (s.offer line).listening = s.listening := by
  rw [Subscriber.offer]
  cases ha : s.attached with
  | false => simp [ha]
  | true => simp [h ha]

theorem attachedAt_publish (h : b.Heard) (line : String) : (b.publish line).attachedAt n = b.attachedAt n := by
  simp only [attachedAt, publish, List.getElem?_map]
  cases hs : b.subscribers[n]? with
  | none => rfl
  | some s => simp [(attached_offer line (h s (List.mem_of_getElem? hs))).1]

theorem Heard.publish (h : b.Heard) (line : String) : (b.publish line).Heard := by
  intro s hs
  obtain ⟨t, ht, rfl⟩ := List.mem_map.mp hs
  obtain ⟨attached, listening⟩ := attached_offer line (h t ht)
  rw [attached, listening]
  exact h t ht

theorem Heard.modify (h : b.Heard) (f : Subscriber → Subscriber)
    (keeps : ∀ s, (s.attached = true → s.listening = true) → (f s).attached = true → (f s).listening = true) :
    Heard ⟨b.subscribers.modify n f⟩ := by
  intro s hs
  obtain ⟨i, hi⟩ := List.mem_iff_getElem?.mp hs
  rw [List.getElem?_modify] at hi
  obtain ⟨t, ht, rfl⟩ := Option.map_eq_some_iff.mp hi
  have own := h t (List.mem_of_getElem? ht)
  split
  · exact keeps t own
  · exact own

theorem Heard.drain (h : b.Heard) : (b.drain n).2.Heard := h.modify _ fun _ own => own

theorem Heard.subscribe (h : b.Heard) : b.subscribe.2.Heard := by
  intro s hs
  rcases List.mem_append.mp hs with hs | hs
  · exact h s hs
  · rw [List.mem_singleton.mp hs]
    exact fun _ => rfl

theorem Heard.closed (h : b.Heard) : ((b.unsubscribe n).leave n).Heard := by
  intro s hs
  obtain ⟨i, hi⟩ := List.mem_iff_getElem?.mp hs
  simp only [leave, unsubscribe, List.getElem?_modify] at hi
  obtain ⟨t, ht, rfl⟩ := Option.map_eq_some_iff.mp hi
  obtain ⟨u, hu, rfl⟩ := Option.map_eq_some_iff.mp ht
  by_cases own : n = i
  · simp [own, Subscriber.leave, Subscriber.detach]
  · simpa [own] using h u (List.mem_of_getElem? hu)

theorem count_eq_zero (h : ∀ n, b.attachedAt n = false) : b.count = 0 := by
  rw [count, List.countP_eq_zero]
  intro s hs
  obtain ⟨n, hn⟩ := List.mem_iff_getElem?.mp hs
  have off := h n
  rw [attachedAt, hn] at off
  simpa using off

theorem count_eq_one (h : ∀ m, b.attachedAt m = true ↔ m = n) : b.count = 1 := by
  have on : b.attachedAt n = true := (h n).mpr rfl
  rw [attachedAt, Option.any_eq_true] at on
  obtain ⟨s, hs, attached⟩ := on
  obtain ⟨lt, rfl⟩ := List.getElem?_eq_some_iff.mp hs
  have split : b.subscribers = b.subscribers.take n ++ b.subscribers[n] :: b.subscribers.drop (n + 1) := by simp
  have off {t : Subscriber} {m : Nat} (ht : b.subscribers[m]? = some t) (other : m ≠ n) : ¬ t.attached = true := by
    intro on
    have here : b.attachedAt m = true := by simp [attachedAt, ht, on]
    exact other ((h m).mp here)
  have before : (b.subscribers.take n).countP Subscriber.attached = 0 := by
    rw [List.countP_eq_zero]
    intro t ht
    obtain ⟨m, hm, rfl⟩ := List.mem_take_iff_getElem.mp ht
    exact off (List.getElem?_eq_getElem (by omega)) (by omega)
  have after : (b.subscribers.drop (n + 1)).countP Subscriber.attached = 0 := by
    rw [List.countP_eq_zero]
    intro t ht
    obtain ⟨m, hm, rfl⟩ := List.mem_drop_iff_getElem.mp ht
    exact off (List.getElem?_eq_getElem (by omega)) (by omega)
  rw [count, split, List.countP_append, List.countP_cons, before, after]
  simp [attached]

end Bus

theorem Definition.isActive_eq_of_script {d e : Definition} (h : d.script = e.script) :
    d.isActive = e.isActive :=
  show d.script.isActive = e.script.isActive by rw [h]

def Run.link (r : Run) : HandleKey × Option Nat := (r.key, r.subscription)

namespace Director

variable {d e : Director} {j k : HandleKey} {s : Lifecycle}

def stateAt (d : Director) (k : HandleKey) : Option Lifecycle := (d.handle? k).map Handle.state

def flagAt (d : Director) (k : HandleKey) : Bool := (d.handle? k).any fun h => h.definition.isActive

def liveLink (d : Director) : Option (HandleKey × Option Nat) := d.live.map Run.link

def leavingLink (d : Director) : Option (HandleKey × Option Nat) := d.leaving.map Run.link

theorem handle?_of_require {h : Handle} (found : d.require k = .ok h) : d.handle? k = some h := by
  unfold require at found
  split at found
  · rename_i h' hh
    cases found
    exact hh
  · cases found

theorem exists_handle?_of_isSome (h : (d.stateAt k).isSome = true) : ∃ x, d.handle? k = some x := by
  simpa [stateAt, Option.isSome_iff_exists] using h

theorem handle?_modifyHandle (f : Handle → Handle) :
    (d.modifyHandle j f).handle? k = if j = k then (d.handle? k).map f else d.handle? k := by
  simp only [handle?, modifyHandle, List.getElem?_modify]
  by_cases h : j = k
  · simp [h]
  · simp [h]

theorem stateAt_modifyHandle (f : Handle → Handle) :
    (d.modifyHandle j f).stateAt k = if j = k then (d.handle? k).map (fun h => (f h).state) else d.stateAt k := by
  rw [stateAt, handle?_modifyHandle]
  by_cases h : j = k
  · simp [h]
    rfl
  · simp [h, stateAt]

theorem flagAt_modifyHandle (f : Handle → Handle) :
    (d.modifyHandle j f).flagAt k =
      if j = k then (d.handle? k).any (fun h => (f h).definition.isActive) else d.flagAt k := by
  rw [flagAt, handle?_modifyHandle]
  by_cases h : j = k
  · simp only [h, if_true, Option.any_map]
  · simp [h, flagAt]

theorem stateAt_setState : (d.modifyHandle j fun h => h.setState s).stateAt k =
    if j = k then (d.stateAt k).map fun _ => s else d.stateAt k := by
  rw [stateAt_modifyHandle]
  by_cases h : j = k
  · simp only [h, if_true, stateAt, Option.map_map]
    rfl
  · simp [h]

theorem stateAt_of_keeps {f : Handle → Handle} (h : ∀ x, (f x).state = x.state) :
    (d.modifyHandle j f).stateAt k = d.stateAt k := by
  rw [stateAt_modifyHandle]
  simp only [h, ite_eq_right_iff]
  exact fun _ => rfl

theorem flagAt_of_keeps {f : Handle → Handle} (h : ∀ x, (f x).definition.isActive = x.definition.isActive) :
    (d.modifyHandle j f).flagAt k = d.flagAt k := by
  rw [flagAt_modifyHandle]
  simp only [h, ite_eq_right_iff]
  exact fun _ => rfl

/-- What happens beside the requests and the tasks. -/
inductive Ambient : Director → Director → Prop
  | register (d : Director) (definition : Definition) : Ambient d (d.register definition).2
  | loadFile {d e : Director} (path : String) (key : Option HandleKey) (h : d.loadFile path = .ok (key, e)) :
      Ambient d e
  | save (d : Director) (key : HandleKey) : Ambient d (d.save key).2
  | saveAs (d : Director) (key : HandleKey) (path : String) : Ambient d (d.saveAs key path).2
  | beginEdit {d e : Director} (key : HandleKey) (h : d.beginEdit key = .ok e) : Ambient d e
  | amend (d : Director) (key : HandleKey) (f : Workbench → Workbench)
      (h : ∀ w, (f w).definition.isActive = w.definition.isActive) : Ambient d (d.amend key f)
  | endEdit (d : Director) (key : HandleKey) : Ambient d (d.endEdit key)
  | hearLine (d : Director) (line : String) : Ambient d (d.hearLine line)
  | tickLive (d : Director) : Ambient d d.tickLive
  | takeLines (d : Director) : Ambient d d.takeLines.2
  | publish (d : Director) (line : String) : Ambient d { d with bus := d.bus.publish line }
  | clock (d : Director) (host : HostClock) : Ambient d { d with host := host }
  | files (d : Director) (storage : Storage) : Ambient d { d with storage := storage }

inductive Request : Director → Director → Prop
  | setActive {d e : Director} (key : HandleKey) (active : Bool) (id : TaskId)
      (h : d.setActive key active = .ok (id, e)) : Request d e
  | reload {d e : Director} (key : HandleKey) (id : TaskId) (h : d.reload key = .ok (id, e)) : Request d e
  | shutdown (d : Director) : Request d d.shutdown.2

inductive Next : Director → Director → Prop
  | ambient {d e : Director} (h : Ambient d e) : Next d e
  | request {d e : Director} (h : Request d e) : Next d e
  | takeUp {d e : Director} (n : Nat) (h : d.takeUp n = some e) : Next d e
  | proceed {d e : Director} (h : d.proceed = some e) : Next d e

/-- The directors that come about, in any order of events. -/
inductive Reached : Director → Prop
  | opened (settings : Settings) (host : HostClock) (storage : Storage) :
      Reached { settings := settings, host := host, storage := storage }
  | next {d e : Director} (h : Reached d) (step : Next d e) : Reached e

inductive Claims : Lifecycle → Lifecycle → Prop
  | load : Claims .idle .loading
  | unload : Claims .active .unloading

/-- Runs, flags and subscriptions stay, and states are at most claimed. -/
structure Drift (d e : Director) : Prop where
  live : e.liveLink = d.liveLink
  leaving : e.leavingLink = d.leavingLink
  flag : ∀ k, e.flagAt k = d.flagAt k
  heard : d.bus.Heard → e.bus.Heard
  attached : d.bus.Heard → ∀ n, e.bus.attachedAt n = d.bus.attachedAt n
  state : ∀ k, e.stateAt k = d.stateAt k ∨ (d.stateAt k = none ∧ e.stateAt k = some .idle) ∨
    ∃ s t, Claims s t ∧ d.stateAt k = some s ∧ e.stateAt k = some t

structure Calm (d e : Director) : Prop where
  live : e.liveLink = d.liveLink
  leaving : e.leavingLink = d.leavingLink
  flag : ∀ k, e.flagAt k = d.flagAt k
  heard : d.bus.Heard → e.bus.Heard
  attached : d.bus.Heard → ∀ n, e.bus.attachedAt n = d.bus.attachedAt n
  state : ∀ k, e.stateAt k = d.stateAt k ∨ (d.stateAt k = none ∧ e.stateAt k = some .idle)
  current : e.current = d.current
  waiting : e.waiting = d.waiting

theorem Calm.drift (h : Calm d e) : Drift d e where
  live := h.live
  leaving := h.leaving
  flag := h.flag
  heard := h.heard
  attached := h.attached
  state k := (h.state k).elim .inl fun new => .inr (.inl new)

theorem Calm.refl (d : Director) : Calm d d where
  live := rfl
  leaving := rfl
  flag _ := rfl
  heard := id
  attached _ _ := rfl
  state _ := .inl rfl
  current := rfl
  waiting := rfl

/-- Handles may change as long as their states and flags stay. -/
theorem calm_modifyHandle {f : Handle → Handle} (state : ∀ x, (f x).state = x.state)
    (flag : ∀ x, (f x).definition.isActive = x.definition.isActive) : Calm d (d.modifyHandle j f) :=
  { Calm.refl d with
    flag := fun _ => flagAt_of_keeps flag
    state := fun _ => .inl (stateAt_of_keeps state) }

theorem calm_register (d : Director) (definition : Definition) : Calm d (d.register definition).2 := by
  have handle (k : HandleKey) : (d.register definition).2.handle? k = d.handle? k ∨
      (d.handle? k = none ∧ (d.register definition).2.handle? k = some (Handle.ofDefinition definition)) := by
    simp only [handle?, register]
    rcases Nat.lt_trichotomy k d.registry.length with lt | eq | gt
    · exact .inl (List.getElem?_append_left lt)
    · exact .inr (by simp [eq])
    · left
      have beyond : (d.registry ++ [Handle.ofDefinition definition]).length ≤ k := by
        rw [List.length_append]
        exact gt
      rw [List.getElem?_eq_none (Nat.le_of_lt gt), List.getElem?_eq_none beyond]
  have flag (k : HandleKey) : (d.register definition).2.flagAt k = d.flagAt k := by
    rcases handle k with same | ⟨old, new⟩
    · simp only [flagAt, same]
    · simp only [flagAt, old, new]
      rfl
  have state (k : HandleKey) : (d.register definition).2.stateAt k = d.stateAt k ∨
      (d.stateAt k = none ∧ (d.register definition).2.stateAt k = some .idle) := by
    rcases handle k with same | ⟨old, new⟩
    · exact .inl (by simp only [stateAt, same])
    · simp only [stateAt, old, new]
      exact .inr ⟨rfl, rfl⟩
  exact { Calm.refl d with flag, state }

theorem calm_loadFile {path : String} {key : Option HandleKey} (h : d.loadFile path = .ok (key, e)) :
    Calm d e := by
  unfold loadFile at h
  split at h
  · cases h
  · cases h
    exact Calm.refl d
  · cases h
    rename_i document _
    have registered := calm_register { d with nextId := (document.workbench d.nextId).nextId }
      { (document.workbench d.nextId).definition with file := some path }
    exact { registered with }

/-- What a session of the live run comes to may be kept if the flag stays. -/
theorem calm_playLive {f : Session → Session}
    (h : ∀ s, (f s).definition.isActive = s.definition.isActive) : Calm d (d.playLive f) := by
  unfold playLive
  split
  · exact Calm.refl d
  · rename_i r live
    split
    · exact Calm.refl d
    · rename_i s session
      obtain ⟨x, hx, rfl⟩ := Option.map_eq_some_iff.mp session
      generalize hs : f _ = s
      have active : s.definition.isActive = x.definition.isActive := by rw [← hs, h]
      have flag (k : HandleKey) : (d.keep r s).flagAt k = d.flagAt k := by
        show (d.modifyHandle r.key _).flagAt k = _
        rw [flagAt_modifyHandle]
        by_cases own : r.key = k
        · subst own
          simp only [flagAt, hx, if_true, Option.any_some, active]
        · simp [own]
      exact
        { live := by simp only [liveLink, live]; rfl
          leaving := rfl
          flag
          heard := id
          attached := fun _ _ => rfl
          state := fun k => .inl (stateAt_of_keeps (d := d) fun _ => rfl)
          current := rfl
          waiting := rfl }

theorem calm_takeLines (d : Director) : Calm d d.takeLines.2 := by
  unfold takeLines
  split
  · exact Calm.refl d
  · exact { Calm.refl d with heard := Bus.Heard.drain, attached := fun _ _ => Bus.attachedAt_drain }

theorem calm_files (d : Director) (storage : Storage) : Calm d { d with storage := storage } :=
  { Calm.refl d with }

/-- Saving touches nothing but the files. -/
theorem saveTo_cases (d : Director) (definition : Definition) (path : String) :
    ∃ result storage, d.saveTo definition path = (result, { d with storage := storage }) := ⟨_, _, rfl⟩

theorem calm_save (d : Director) (key : HandleKey) : Calm d (d.save key).2 := by
  unfold save
  split
  · exact Calm.refl d
  · rename_i x _
    split
    · exact Calm.refl d
    · rename_i path _
      obtain ⟨result, storage, saved⟩ := d.saveTo_cases x.definition path
      rw [saved]
      exact calm_files d storage

theorem calm_saveAs (d : Director) (key : HandleKey) (path : String) : Calm d (d.saveAs key path).2 := by
  unfold saveAs
  split
  · exact Calm.refl d
  · rename_i x _
    obtain ⟨result, storage, saved⟩ := d.saveTo_cases x.definition path
    rw [saved]
    cases result with
    | error fault => exact calm_files d storage
    | ok _ =>
      have renamed := calm_modifyHandle (d := d) (j := key)
        (f := fun h => { h with definition := { h.definition with file := some path } }) (fun _ => rfl) fun _ => rfl
      exact { renamed with }

theorem calm_beginEdit {key : HandleKey} (h : d.beginEdit key = .ok e) : Calm d e := by
  obtain ⟨x, hx, h⟩ := except_bind_eq_ok h
  obtain ⟨held, hg, h⟩ := except_bind_eq_ok h
  cases h
  have found := handle?_of_require hx
  have guarded : held = { x with guarded := true } := by
    unfold Handle.guard at hg
    split at hg
    · exact (Except.ok.inj hg).symm
    · cases hg
  have flag (k : HandleKey) : (d.modifyHandle key fun _ => held).flagAt k = d.flagAt k := by
    rw [flagAt_modifyHandle]
    by_cases own : key = k
    · subst own
      simp [flagAt, found, guarded]
    · simp [own]
  have state (k : HandleKey) : (d.modifyHandle key fun _ => held).stateAt k = d.stateAt k := by
    rw [stateAt_modifyHandle]
    by_cases own : key = k
    · subst own
      simp [stateAt, found, guarded]
    · simp [own]
  exact { Calm.refl d with flag, state := fun k => .inl (state k) }

theorem calm_amend (d : Director) (key : HandleKey) {f : Workbench → Workbench}
    (h : ∀ w, (f w).definition.isActive = w.definition.isActive) : Calm d (d.amend key f) := by
  unfold amend
  split
  · exact Calm.refl d
  · rename_i x hx
    generalize hw : f { definition := x.definition, nextId := d.nextId } = w
    have active : w.definition.isActive = x.definition.isActive := by rw [← hw, h]
    have flag (k : HandleKey) :
        (d.modifyHandle key fun h => { h with definition := w.definition }).flagAt k = d.flagAt k := by
      rw [flagAt_modifyHandle]
      by_cases own : key = k
      · subst own
        simp only [flagAt, hx, if_true, Option.any_some, active]
      · simp [own]
    have state (k : HandleKey) :
        (d.modifyHandle key fun h => { h with definition := w.definition }).stateAt k = d.stateAt k :=
      stateAt_of_keeps fun _ => rfl
    exact { Calm.refl d with flag, state := fun k => .inl (state k) }

theorem Ambient.calm (h : Ambient d e) : Calm d e := by
  cases h with
  | register definition => exact calm_register d definition
  | loadFile path key h => exact calm_loadFile h
  | save key => exact calm_save d key
  | saveAs key path => exact calm_saveAs d key path
  | beginEdit key h => exact calm_beginEdit h
  | amend key f h => exact calm_amend d key h
  | endEdit key => exact calm_modifyHandle (fun _ => rfl) fun _ => rfl
  | hearLine line =>
    exact calm_playLive fun s => Definition.isActive_eq_of_script (Session.script_hear _ s line _)
  | tickLive => exact calm_playLive fun s => Definition.isActive_eq_of_script (Session.script_tick _ s _)
  | takeLines => exact calm_takeLines d
  | publish line =>
    exact { Calm.refl d with
      heard := fun h => h.publish line
      attached := fun h _ => Bus.attachedAt_publish h line }
  | clock host => exact { Calm.refl d with }
  | files storage => exact calm_files d storage

/-- What a task is to do, with the handle whose state is claimed for it and the claim. -/
inductive Plan : Option (HandleKey × Lifecycle) → List Action → Prop
  | activate (k : HandleKey) : Plan (some (k, .loading)) (Action.activate k)
  | deactivate (k : HandleKey) : Plan (some (k, .unloading)) (Action.deactivate k)
  | restart (k : HandleKey) (path : String) : Plan (some (k, .unloading)) (Action.reload k path true)
  | refresh (k : HandleKey) (path : String) : Plan (some (k, .loading)) (Action.reload k path false)
  | shutdown : Plan none Action.shutdown
  | nothing : Plan none []

/-- A request leaves a task behind, and claims a state for it unless no handle is concerned. -/
theorem Request.cases (h : Request d e) :
    (∃ actions, Plan none actions ∧ e = (d.launch actions).2) ∨
      ∃ k s t actions, Claims s t ∧ d.stateAt k = some s ∧ Plan (some (k, t)) actions ∧
        e = ((d.modifyHandle k fun h => h.setState t).launch actions).2 := by
  cases h with
  | shutdown => exact .inl ⟨_, .shutdown, rfl⟩
  | setActive key active id h =>
    obtain ⟨x, hx, h⟩ := except_bind_eq_ok h
    obtain ⟨claimed, hc, h⟩ := except_bind_eq_ok h
    have state : d.stateAt key = some x.state := by rw [stateAt, handle?_of_require hx]; rfl
    cases hs : x.state with
    | loading | unloading => simp [Handle.claim, hs] at hc
    | idle =>
      rw [hs] at state
      cases active with
      | true =>
        simp only [Handle.claim, hs, Except.ok.injEq] at hc
        subst hc
        cases h
        exact .inr ⟨key, _, _, _, .load, state, .activate key, rfl⟩
      | false =>
        simp only [Handle.claim, hs, Except.ok.injEq] at hc
        subst hc
        cases h
        exact .inl ⟨_, .nothing, rfl⟩
    | active =>
      rw [hs] at state
      cases active with
      | true =>
        simp only [Handle.claim, hs, Except.ok.injEq] at hc
        subst hc
        cases h
        exact .inl ⟨_, .nothing, rfl⟩
      | false =>
        simp only [Handle.claim, hs, Except.ok.injEq] at hc
        subst hc
        cases h
        exact .inr ⟨key, _, _, _, .unload, state, .deactivate key, rfl⟩
  | reload key id h =>
    obtain ⟨x, hx, h⟩ := except_bind_eq_ok h
    have state : d.stateAt key = some x.state := by rw [stateAt, handle?_of_require hx]; rfl
    cases hf : x.definition.file with
    | none => simp [hf] at h
    | some path =>
      simp only [hf] at h
      obtain ⟨claimed, hc, h⟩ := except_bind_eq_ok h
      cases hs : x.state with
      | loading | unloading => simp [Handle.claimReload, hs] at hc
      | idle =>
        simp only [Handle.claimReload, hs, Except.ok.injEq] at hc
        subst hc
        rw [hs] at state
        cases h
        exact .inr ⟨key, _, _, _, .load, state, .refresh key path, by rw [hs]; rfl⟩
      | active =>
        simp only [Handle.claimReload, hs, Except.ok.injEq] at hc
        subst hc
        rw [hs] at state
        cases h
        exact .inr ⟨key, _, _, _, .unload, state, .restart key path, by rw [hs]; rfl⟩

theorem drift_launch (d : Director) (actions : List Action) : Drift d (d.launch actions).2 :=
  { (Calm.refl d).drift with }

theorem drift_claim {s t : Lifecycle} (claims : Claims s t) (h : d.stateAt k = some s) :
    Drift d (d.modifyHandle k fun h => h.setState t) :=
  { (Calm.refl d).drift with
    flag := fun _ => flagAt_of_keeps fun _ => rfl
    state := by
      intro j
      rw [stateAt_setState]
      by_cases own : k = j
      · subst own
        simp [h, claims]
      · simp [own] }

theorem Drift.trans {c : Director} (h : Drift c d) (later : ∀ k, e.stateAt k = d.stateAt k) (same : Drift d e) :
    Drift c e where
  live := same.live.trans h.live
  leaving := same.leaving.trans h.leaving
  flag k := (same.flag k).trans (h.flag k)
  heard heard := same.heard (h.heard heard)
  attached heard n := (same.attached (h.heard heard) n).trans (h.attached heard n)
  state k := by
    rw [later k]
    exact h.state k

theorem Request.drift (h : Request d e) : Drift d e := by
  rcases h.cases with ⟨actions, -, rfl⟩ | ⟨k, s, t, actions, claims, state, -, rfl⟩
  · exact drift_launch d actions
  · exact (drift_claim claims state).trans (fun _ => rfl) (drift_launch _ actions)

end Director

end EncounterTimeline

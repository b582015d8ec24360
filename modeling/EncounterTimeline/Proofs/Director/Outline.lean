import EncounterTimeline.Proofs.Director.Interleaving

/-! # Outlines of tasks

An assertion on a director outlives whatever happens beside the tasks. An outline puts an assertion before each action
of a task that establishes the next one, from rest back to rest: a run is stopped in three actions and started in
three, and at no point are two handles active, two definitions flagged or two subscriptions counted.
-/
namespace EncounterTimeline.Director

variable {d e : Director} {j k : HandleKey} {m n : Option Nat} {avoid : HandleKey → Prop} {a b : Bool}

def Holds (d : Director) (k : HandleKey) (n : Option Nat) : Prop :=
  d.liveLink = some (k, n) ∨ d.leavingLink = some (k, n)

structure Tidy (d : Director) : Prop where
  heard : d.bus.Heard
  alone : d.liveLink = none ∨ d.leavingLink = none
  active : ∀ k, d.stateAt k = some .active → ∃ n, d.Holds k n
  flagged : ∀ k, d.flagAt k = true → ∃ n, d.Holds k n
  attached : ∀ n, d.bus.attachedAt n = true → ∃ k, d.Holds k (some n)

theorem Tidy.unique (h : d.Tidy) (hj : d.Holds j m) (hk : d.Holds k n) : j = k ∧ m = n := by
  have same : (j, m) = (k, n) := by
    rcases hj with hj | hj <;> rcases hk with hk | hk
    · exact Option.some.inj (hj.symm.trans hk)
    · rcases h.alone with none | none
      · cases none.symm.trans hj
      · cases none.symm.trans hk
    · rcases h.alone with none | none
      · cases none.symm.trans hk
      · cases none.symm.trans hj
    · exact Option.some.inj (hj.symm.trans hk)
  exact Prod.mk.inj same

theorem Drift.active (h : Drift d e) (active : e.stateAt k = some .active) : d.stateAt k = some .active := by
  rcases h.state k with same | ⟨-, new⟩ | ⟨s, t, claims, -, claimed⟩
  · exact same.symm.trans active
  · cases new.symm.trans active
  · cases claims <;> cases claimed.symm.trans active

/-- With the same runs, fewer may be active, flagged and counted. -/
theorem Tidy.sub (t : d.Tidy) (live : e.liveLink = d.liveLink) (leaving : e.leavingLink = d.leavingLink)
    (heard : e.bus.Heard) (active : ∀ k, e.stateAt k = some .active → d.stateAt k = some .active)
    (flagged : ∀ k, e.flagAt k = true → d.flagAt k = true)
    (attached : ∀ n, e.bus.attachedAt n = true → d.bus.attachedAt n = true) : e.Tidy := by
  have holds (k : HandleKey) (n : Option Nat) : e.Holds k n ↔ d.Holds k n := by rw [Holds, Holds, live, leaving]
  refine { heard, alone := ?_, active := ?_, flagged := ?_, attached := ?_ }
  · rw [live, leaving]
    exact t.alone
  · intro k h
    simp only [holds]
    exact t.active k (active k h)
  · intro k h
    simp only [holds]
    exact t.flagged k (flagged k h)
  · intro n h
    simp only [holds]
    exact t.attached n (attached n h)

theorem Drift.tidy (h : Drift d e) (t : d.Tidy) : e.Tidy :=
  t.sub h.live h.leaving (h.heard t.heard) (fun _ => h.active) (fun k => (h.flag k).symm.trans)
    fun n => (h.attached t.heard n).symm.trans

structure Connected (d : Director) (k : HandleKey) (n : Option Nat) : Prop where
  state : d.stateAt k = some .active ∨ d.stateAt k = some .unloading
  flag : d.flagAt k = true
  attached : ∃ i, n = some i ∧ d.bus.attachedAt i = true

/-- A run may be on its way out, having given up its subscription or its flag; one that stays is under way, and it is
none of those to be avoided. -/
structure Parting (avoid : HandleKey → Prop) (detached lowered : Bool) (d : Director) : Prop where
  tidy : d.Tidy
  stays : ∀ k n, d.liveLink = some (k, n) → d.Connected k n ∧ ¬ avoid k
  detached : detached = true → ∀ k i, d.leavingLink = some (k, some i) → d.bus.attachedAt i = false
  lowered : lowered = true → ∀ k n, d.leavingLink = some (k, n) → d.flagAt k = false

structure Rested (avoid : HandleKey → Prop) (d : Director) : Prop where
  tidy : d.Tidy
  leaving : d.leavingLink = none
  stays : ∀ k n, d.liveLink = some (k, n) → d.Connected k n ∧ ¬ avoid k

structure Begun (k : HandleKey) (d : Director) : Prop where
  tidy : d.Tidy
  leaving : d.leavingLink = none
  live : d.liveLink = some (k, none)
  flag : d.flagAt k = true

structure Joined (k : HandleKey) (d : Director) : Prop where
  tidy : d.Tidy
  leaving : d.leavingLink = none
  live : ∃ i, d.liveLink = some (k, some i) ∧ d.bus.attachedAt i = true
  flag : d.flagAt k = true

structure Assertion where
  holds : Director → Prop
  tidy : ∀ {d}, holds d → d.Tidy
  drift : ∀ {d e}, Drift d e → holds d → holds e

theorem Drift.connected (h : Drift d e) (t : d.Tidy) (c : d.Connected k n) : e.Connected k n where
  state := by
    rcases h.state k with same | ⟨new, -⟩ | ⟨s, t, claims, before, after⟩
    · rw [same]
      exact c.state
    · rcases c.state with s | s <;> cases new.symm.trans s
    · cases claims with
      | load => rcases c.state with s | s <;> cases before.symm.trans s
      | unload => exact .inr after
  flag := (h.flag k).trans c.flag
  attached := by
    obtain ⟨i, hn, on⟩ := c.attached
    exact ⟨i, hn, (h.attached t.heard i).trans on⟩

namespace Assertion

def parting (avoid : HandleKey → Prop) (detached lowered : Bool) : Assertion where
  holds := Parting avoid detached lowered
  tidy := Parting.tidy
  drift h p :=
    { tidy := h.tidy p.tidy
      stays := fun k n live =>
        have before := p.stays k n (h.live.symm.trans live)
        ⟨h.connected p.tidy before.1, before.2⟩
      detached := fun done k i leaving =>
        (h.attached p.tidy.heard i).trans (p.detached done k i (h.leaving.symm.trans leaving))
      lowered := fun done k n leaving => (h.flag k).trans (p.lowered done k n (h.leaving.symm.trans leaving)) }

def rested (avoid : HandleKey → Prop) : Assertion where
  holds := Rested avoid
  tidy := Rested.tidy
  drift h p :=
    { tidy := h.tidy p.tidy
      leaving := h.leaving.trans p.leaving
      stays := fun k n live =>
        have before := p.stays k n (h.live.symm.trans live)
        ⟨h.connected p.tidy before.1, before.2⟩ }

def begun (k : HandleKey) : Assertion where
  holds := Begun k
  tidy := Begun.tidy
  drift h p :=
    { tidy := h.tidy p.tidy
      leaving := h.leaving.trans p.leaving
      live := h.live.trans p.live
      flag := (h.flag k).trans p.flag }

def joined (k : HandleKey) : Assertion where
  holds := Joined k
  tidy := Joined.tidy
  drift h p :=
    { tidy := h.tidy p.tidy
      leaving := h.leaving.trans p.leaving
      live := p.live.imp fun i on => ⟨h.live.trans on.1, (h.attached p.tidy.heard i).trans on.2⟩
      flag := (h.flag k).trans p.flag }

end Assertion

theorem Rested.mono {other : HandleKey → Prop} (h : Rested avoid d) (le : ∀ k, other k → avoid k) :
    Rested other d :=
  { h with stays := fun k n live => ⟨(h.stays k n live).1, fun o => (h.stays k n live).2 (le k o)⟩ }

theorem Rested.takeRun (h : Rested (fun _ => False) d) (meant : Run → Bool)
    (le : ∀ r, meant r = false → ¬ avoid r.key) : Parting avoid false false (d.takeRun meant) := by
  unfold Director.takeRun
  cases live : d.live with
  | none =>
    have none : d.liveLink = none := by rw [liveLink, live]; rfl
    exact
      { tidy := h.tidy
        stays := fun k n some => by cases none.symm.trans some
        detached := by simp
        lowered := by simp }
  | some r =>
    have link : d.liveLink = some r.link := by rw [liveLink, live]; rfl
    dsimp only
    cases taken : meant r with
    | false =>
      rw [if_neg (by simp)]
      exact
        { tidy := h.tidy
          stays := fun k n some => by
            cases link.symm.trans some
            exact ⟨(h.stays _ _ link).1, le r taken⟩
          detached := by simp
          lowered := by simp }
    | true =>
      rw [if_pos rfl]
      have holds {k : HandleKey} {n : Option Nat} (before : d.Holds k n) :
          Holds { d with live := none, leaving := some r } k n := by
        rcases before with live | leaving
        · exact .inr (link.symm.trans live)
        · cases h.leaving.symm.trans leaving
      exact
        { tidy :=
            { heard := h.tidy.heard
              alone := .inl rfl
              active := fun k active => (h.tidy.active k active).imp fun n => holds
              flagged := fun k flag => (h.tidy.flagged k flag).imp fun n => holds
              attached := fun n on => (h.tidy.attached n on).imp fun k => holds }
          stays := fun k n some => by cases some
          detached := by simp
          lowered := by simp }

theorem leavingLink_eq_some (h : d.leavingLink = some (k, n)) :
    ∃ r, d.leaving = some r ∧ r.key = k ∧ r.subscription = n := by
  obtain ⟨r, hr, link⟩ := Option.map_eq_some_iff.mp h
  obtain ⟨key, subscription⟩ := Prod.mk.inj link
  exact ⟨r, hr, key, subscription⟩

theorem leavingLink_of_leaving {r : Run} (h : d.leaving = some r) : d.leavingLink = some (r.key, r.subscription) := by
  rw [leavingLink, h]
  rfl

theorem Tidy.liveLink_of_leaving {r : Run} (t : d.Tidy) (h : d.leaving = some r) : d.liveLink = none := by
  rcases t.alone with none | none
  · exact none
  · cases none.symm.trans (leavingLink_of_leaving h)

theorem Parting.detach (h : Parting avoid a b d) : Parting avoid true b d.detach := by
  unfold Director.detach
  cases subscribed : d.leaving.bind Run.subscription with
  | none =>
    refine { h with detached := ?_ }
    intro _ k i link
    obtain ⟨r, hr, -, hn⟩ := leavingLink_eq_some link
    rw [hr, Option.bind_some, hn] at subscribed
    cases subscribed
  | some i =>
    obtain ⟨r, hr, hi⟩ := Option.bind_eq_some_iff.mp subscribed
    have gone : d.liveLink = none := h.tidy.liveLink_of_leaving hr
    exact
      { tidy := h.tidy.sub rfl rfl h.tidy.heard.closed (fun _ => id) (fun _ => id) fun n on =>
          (Bus.attachedAt_closed.mp on).2
        stays := fun k n live => by cases gone.symm.trans live
        detached := by
          intro _ k j link
          obtain ⟨r', hr', -, hj⟩ := leavingLink_eq_some (d := d) link
          cases hr.symm.trans hr'
          cases hi.symm.trans hj
          rw [← Bool.not_eq_true, Bus.attachedAt_closed]
          exact fun on => on.1 rfl
        lowered := h.lowered }

theorem Parting.lowerLeaving (h : Parting avoid a b d) : Parting avoid a true d.lowerLeaving := by
  unfold Director.lowerLeaving
  cases leaving : d.leaving with
  | none =>
    refine { h with lowered := ?_ }
    intro _ k n link
    obtain ⟨r, hr, -⟩ := leavingLink_eq_some link
    cases leaving.symm.trans hr
  | some r =>
    have gone : d.liveLink = none := h.tidy.liveLink_of_leaving leaving
    have state (k : HandleKey) : (d.modifyHandle r.key fun h => h.setFlag false).stateAt k = d.stateAt k :=
      stateAt_of_keeps fun _ => rfl
    have lowered (k : HandleKey) (flag : (d.modifyHandle r.key fun h => h.setFlag false).flagAt k = true) :
        k ≠ r.key ∧ d.flagAt k = true := by
      rw [flagAt_modifyHandle] at flag
      by_cases own : r.key = k
      · simp [own, Handle.setFlag] at flag
      · rw [if_neg own] at flag
        exact ⟨Ne.symm own, flag⟩
    exact
      { tidy := h.tidy.sub rfl rfl h.tidy.heard (fun k => (state k).symm.trans) (fun k flag => (lowered k flag).2)
          fun _ => id
        stays := fun k n live => by cases gone.symm.trans live
        detached := h.detached
        lowered := by
          intro _ k n link
          obtain ⟨r', hr', key, -⟩ := leavingLink_eq_some (d := d) link
          cases leaving.symm.trans hr'
          rw [← Bool.not_eq_true]
          exact fun flag => (lowered k flag).1 key.symm }

theorem Parting.restLeaving (h : Parting avoid true true d) : Rested avoid d.restLeaving := by
  unfold Director.restLeaving
  cases leaving : d.leaving with
  | none =>
    have none : d.leavingLink = none := by rw [leavingLink, leaving]; rfl
    exact { tidy := h.tidy, leaving := none, stays := h.stays }
  | some r =>
    have gone : d.liveLink = none := h.tidy.liveLink_of_leaving leaving
    have link := leavingLink_of_leaving leaving
    -- Whatever was active, flagged or counted was so on account of the run that leaves.
    have own {k : HandleKey} {n : Option Nat} (holds : d.Holds k n) : k = r.key ∧ n = r.subscription :=
      h.tidy.unique holds (.inr link)
    have idle (k : HandleKey) :
        (d.modifyHandle r.key fun h => h.settleFrom .active .idle).stateAt k ≠ some .active := by
      rw [stateAt_modifyHandle]
      by_cases here : r.key = k
      · rw [if_pos here]
        cases hk : d.handle? k with
        | none => simp
        | some x =>
          simp only [Option.map_some, Handle.settleFrom]
          split
          · simp [Handle.setState]
          · rename_i other
            simpa using other
      · rw [if_neg here]
        intro active
        obtain ⟨n, holds⟩ := h.tidy.active k active
        exact here (own holds).1.symm
    have lowered (k : HandleKey) :
        (d.modifyHandle r.key fun h => h.settleFrom .active .idle).flagAt k = d.flagAt k := by
      apply flagAt_of_keeps
      intro x
      unfold Handle.settleFrom
      split <;> rfl
    exact
      { tidy :=
          { heard := h.tidy.heard
            alone := .inl gone
            active := fun k active => (idle k active).elim
            flagged := by
              intro k flag
              have flag : d.flagAt k = true := (lowered k).symm.trans flag
              obtain ⟨n, holds⟩ := h.tidy.flagged k flag
              obtain ⟨rfl, rfl⟩ := own holds
              cases flag.symm.trans (h.lowered rfl _ _ link)
            attached := by
              intro i on
              obtain ⟨k, holds⟩ := h.tidy.attached i on
              obtain ⟨rfl, hi⟩ := own holds
              rw [← hi] at link
              cases Eq.symm on |>.trans (h.detached rfl _ i link) }
        leaving := rfl
        stays := fun k n live => by cases gone.symm.trans live }

theorem Rested.lowerFlag (h : Rested (· = k) d) : Rested (· = k) (d.modifyHandle k fun h => h.setFlag false) := by
  have state (j : HandleKey) : (d.modifyHandle k fun h => h.setFlag false).stateAt j = d.stateAt j :=
    stateAt_of_keeps fun _ => rfl
  have flag (j : HandleKey) (other : j ≠ k) : (d.modifyHandle k fun h => h.setFlag false).flagAt j = d.flagAt j := by
    rw [flagAt_modifyHandle, if_neg (Ne.symm other)]
  have lowered (j : HandleKey) (on : (d.modifyHandle k fun h => h.setFlag false).flagAt j = true) :
      d.flagAt j = true := by
    by_cases own : k = j
    · simp [flagAt_modifyHandle, own, Handle.setFlag] at on
    · exact (flag j (Ne.symm own)).symm.trans on
  refine
    { tidy := h.tidy.sub rfl rfl h.tidy.heard (fun j => (state j).symm.trans) lowered fun _ => id
      leaving := h.leaving
      stays := ?_ }
  intro j n live
  obtain ⟨connected, other⟩ := h.stays j n live
  have here : d.stateAt j = some .active ∨ d.stateAt j = some .unloading := connected.state
  rw [← state j] at here
  exact ⟨{ connected with state := here, flag := (flag j other).trans connected.flag }, other⟩

theorem Rested.setIdle (h : Rested (· = k) d) :
    Rested (fun _ => False) (d.modifyHandle k fun h => h.setState .idle) := by
  have state (j : HandleKey) (other : j ≠ k) : (d.modifyHandle k fun h => h.setState .idle).stateAt j = d.stateAt j := by
    rw [stateAt_setState, if_neg (Ne.symm other)]
  have flag (j : HandleKey) : (d.modifyHandle k fun h => h.setState .idle).flagAt j = d.flagAt j :=
    flagAt_of_keeps fun _ => rfl
  have active (j : HandleKey) (h : (d.modifyHandle k fun h => h.setState .idle).stateAt j = some .active) :
      d.stateAt j = some .active := by
    by_cases own : k = j
    · rw [stateAt_setState, if_pos own, Option.map_eq_some_iff] at h
      obtain ⟨_, -, idle⟩ := h
      cases idle
    · exact (state j (Ne.symm own)).symm.trans h
  refine
    { tidy := h.tidy.sub rfl rfl h.tidy.heard active (fun j => (flag j).symm.trans) fun _ => id
      leaving := h.leaving
      stays := ?_ }
  intro j n live
  obtain ⟨connected, other⟩ := h.stays j n live
  have here : d.stateAt j = some .active ∨ d.stateAt j = some .unloading := connected.state
  rw [← state j other] at here
  exact ⟨{ connected with state := here, flag := (flag j).trans connected.flag }, nofun⟩

theorem calm_refresh (d : Director) (k : HandleKey) (path : String) : Calm d (d.refresh k path).2 := by
  unfold refresh
  split
  · exact Calm.refl d
  · exact Calm.refl d
  · rename_i document _
    have replaced := calm_modifyHandle (d := d) (j := k)
      (f := fun h => h.replace { (document.workbench d.nextId).definition with file := some path })
      (fun _ => rfl) fun _ => rfl
    exact { replaced with }

theorem Rested.beginRun (h : Rested (fun _ => True) d) (known : (d.stateAt k).isSome = true) :
    Begun k (d.beginRun k) := by
  have gone : d.liveLink = none := by
    cases live : d.liveLink with
    | none => rfl
    | some link => exact ((h.stays link.1 link.2 live).2 trivial).elim
  have apart {j : HandleKey} {n : Option Nat} : ¬ d.Holds j n := by
    rintro (live | leaving)
    · cases gone.symm.trans live
    · cases h.leaving.symm.trans leaving
  obtain ⟨x, hx⟩ := exists_handle?_of_isSome known
  simp only [Director.beginRun, hx]
  generalize Session.start { definition := x.definition } d.settings.pace d.host.elapsed = s
  have flag (j : HandleKey) :
      (d.modifyHandle k fun h => { h with definition := { s.definition with isActive := true } }).flagAt j = true ↔
        j = k := by
    rw [flagAt_modifyHandle]
    by_cases own : k = j
    · subst own
      simp [hx]
    · rw [if_neg own]
      constructor
      · intro on
        obtain ⟨n, holds⟩ := h.tidy.flagged j on
        exact (apart holds).elim
      · exact fun same => (own same.symm).elim
  have state (j : HandleKey) :
      (d.modifyHandle k fun h => { h with definition := { s.definition with isActive := true } }).stateAt j =
        d.stateAt j := stateAt_of_keeps fun _ => rfl
  exact
    { tidy :=
        { heard := h.tidy.heard
          alone := .inr h.leaving
          active := by
            intro j active
            obtain ⟨n, holds⟩ := h.tidy.active j ((state j).symm.trans active)
            exact (apart holds).elim
          flagged := fun j on => ⟨none, .inl (by rw [(flag j).mp on]; rfl)⟩
          attached := by
            intro i on
            obtain ⟨j, holds⟩ := h.tidy.attached i on
            exact (apart holds).elim }
      leaving := h.leaving
      live := rfl
      flag := (flag k).mpr rfl }

theorem Begun.connect (h : Begun k d) : Joined k d.connect := by
  obtain ⟨r, live, link⟩ := Option.map_eq_some_iff.mp h.live
  obtain ⟨rfl, -⟩ := Prod.mk.inj link
  simp only [Director.connect, live]
  have own {j : HandleKey} {n : Option Nat} (holds : d.Holds j n) : j = r.key ∧ n = none := by
    have here : d.Holds r.key none := .inl h.live
    exact h.tidy.unique holds here
  exact
    { tidy :=
        { heard := h.tidy.heard.subscribe
          alone := .inr h.leaving
          active := by
            intro j active
            obtain ⟨n, holds⟩ := h.tidy.active j active
            exact ⟨some d.bus.subscribe.1, .inl (by rw [(own holds).1]; rfl)⟩
          flagged := by
            intro j on
            obtain ⟨n, holds⟩ := h.tidy.flagged j on
            exact ⟨some d.bus.subscribe.1, .inl (by rw [(own holds).1]; rfl)⟩
          attached := by
            intro i on
            rcases Bus.attachedAt_subscribe.mp on with new | old
            · exact ⟨r.key, .inl (by rw [new]; rfl)⟩
            · obtain ⟨j, holds⟩ := h.tidy.attached i old
              cases (own holds).2 }
      leaving := h.leaving
      live := ⟨_, rfl, Bus.attachedAt_subscribe.mpr (.inl rfl)⟩
      flag := h.flag }

theorem Joined.setActive (h : Joined k d) :
    Rested (fun _ => False) (d.modifyHandle k fun h => h.setState .active) := by
  obtain ⟨i, live, on⟩ := h.live
  have flag (j : HandleKey) : (d.modifyHandle k fun h => h.setState .active).flagAt j = d.flagAt j :=
    flagAt_of_keeps fun _ => rfl
  have active : (d.modifyHandle k fun h => h.setState .active).stateAt k = some .active := by
    rw [stateAt_setState, if_pos rfl]
    obtain ⟨x, hx, -⟩ := (Option.any_eq_true ..).mp h.flag
    simp [stateAt, hx]
  refine { tidy := { heard := h.tidy.heard, alone := h.tidy.alone, active := ?_, flagged := ?_, attached := ?_ },
           leaving := h.leaving, stays := ?_ }
  · intro j here
    by_cases own : k = j
    · exact ⟨some i, .inl (own ▸ live)⟩
    · rw [stateAt_setState, if_neg own] at here
      exact h.tidy.active j here
  · exact fun j here => h.tidy.flagged j ((flag j).symm.trans here)
  · exact h.tidy.attached
  · intro j n here
    cases live.symm.trans here
    exact ⟨{ state := .inl active, flag := (flag k).trans h.flag, attached := ⟨i, rfl, on⟩ }, not_false⟩

/-- An assertion before every action of a task, which establishes the next one; at the end there is rest. The handles
that the task is about are registered. -/
inductive Outline (known : HandleKey → Prop) : Assertion → List Action → Prop
  | done {P : Assertion} (rest : ∀ {d}, P.holds d → Rested (fun _ => False) d) : Outline known P []
  | act {P Q : Assertion} {a : Action} {later : List Action}
      (step : ∀ {d}, (∀ k, known k → (d.stateAt k).isSome = true) → P.holds d → Q.holds (d.perform a).2)
      (outline : Outline known Q later) : Outline known P (a :: later)

open Assertion

variable {known : HandleKey → Prop} {later : List Action}

theorem Outline.weaken {P Q : Assertion} (le : ∀ {d}, P.holds d → Q.holds d) (h : Outline known Q later) :
    Outline known P later := by
  cases h with
  | done rest => exact .done fun p => rest (le p)
  | act step outline => exact .act (fun here p => step here (le p)) outline

/-- A run that has left is stopped by three actions. -/
theorem outline_stopping (outline : Outline known (rested avoid) later) :
    Outline known (parting avoid false false) (Action.stopping ++ later) :=
  .act (Q := parting avoid true false) (fun _ => Parting.detach) <|
    .act (Q := parting avoid true true) (fun _ => Parting.lowerLeaving) <|
      .act (Q := rested avoid) (fun _ => Parting.restLeaving) outline

theorem outline_takeLive (outline : Outline known (rested fun _ => True) later) :
    Outline known (rested fun _ => False) (.takeLive :: Action.stopping ++ later) :=
  .act (fun _ h => Rested.takeRun h _ nofun) (outline_stopping outline)

theorem outline_takeOwn (k : HandleKey) (outline : Outline known (rested (· = k)) later) :
    Outline known (rested fun _ => False) (.takeOwn k :: Action.stopping ++ later) := by
  refine .act (fun _ h => Rested.takeRun h _ ?_) (outline_stopping outline)
  intro r other
  simpa using other

/-- Where nothing is live, a run is started by three actions. -/
theorem outline_starting (here : known k) : Outline known (rested fun _ => True) (Action.starting k) :=
  .act (Q := begun k) (fun known h => Rested.beginRun h (known k here)) <|
    .act (Q := joined k) (fun _ => Begun.connect) <|
      .act (Q := rested fun _ => False) (fun _ => Joined.setActive) <| .done id

theorem outline_setIdle (k : HandleKey) : Outline known (rested (· = k)) [.setState k .idle] :=
  .act (Q := rested fun _ => False) (fun _ => Rested.setIdle) <| .done id

theorem outline_refresh (k : HandleKey) (path : String) (outline : Outline known (rested avoid) later) :
    Outline known (rested avoid) (.refresh k path :: later) :=
  .act (fun _ h => (rested avoid).drift (calm_refresh _ k path).drift h) outline

/-- A task can be carried out from rest as long as its claim stands. -/
theorem Plan.outline {c : Option (HandleKey × Lifecycle)} {actions : List Action} (plan : Plan c actions)
    (rest : Rested (fun _ => False) d) (claimed : ∀ k s, c = some (k, s) → d.stateAt k = some s) :
    ∃ P : Assertion, P.holds d ∧ Outline (fun k => k ∈ c.map Prod.fst) P actions := by
  cases plan with
  | activate k => exact ⟨_, rest, outline_takeLive (outline_starting rfl)⟩
  | deactivate k =>
    have lower : Outline (fun j => j ∈ some k) (rested (· = k)) [.lowerFlag k, .setState k .idle] :=
      .act (Q := rested (· = k)) (fun _ => Rested.lowerFlag) (outline_setIdle k)
    exact ⟨_, rest, outline_takeOwn k lower⟩
  | restart k path =>
    have again : Outline (fun j => j ∈ some k) (rested fun _ => False)
        (.takeLive :: Action.stopping ++ Action.starting k) := outline_takeLive (outline_starting rfl)
    have reread : Outline (fun j => j ∈ some k) (rested (· = k))
        (.refresh k path :: .takeLive :: Action.stopping ++ Action.starting k) :=
      outline_refresh k path (again.weaken fun h => h.mono nofun)
    exact ⟨_, rest, outline_takeOwn k reread⟩
  | refresh k path =>
    have avoided : Rested (· = k) d := by
      refine { rest with stays := ?_ }
      intro j n live
      have connected := (rest.stays j n live).1
      refine ⟨connected, ?_⟩
      rintro rfl
      have loading := claimed j _ rfl
      rcases connected.state with s | s <;> cases loading.symm.trans s
    exact ⟨rested (· = k), avoided, outline_refresh k path (outline_setIdle k)⟩
  | shutdown => exact ⟨_, rest, outline_takeLive (.done fun h => h.mono nofun)⟩
  | nothing => exact ⟨rested fun _ => False, rest, .done id⟩

end EncounterTimeline.Director

import EncounterTimeline.Proofs.Playback.Synchronisation

/-! # Host time is handed over once

The operations of a run tell when its clock was last set, by the start or by a line that synchronised, and when it has ticked
since. Each tick hands the clock the host time since the moment before it, up to the limit of the pace, and nothing else
does. So no host time is handed over twice, and none is lost unless a gap is longer than the limit.
-/
namespace EncounterTimeline

namespace Duration

def total : List Duration → Nat
  | [] => 0
  | d :: ds => d.nanos + total ds

theorem total_map_atMost_le (limit : Duration) (ds : List Duration) : total (ds.map (·.atMost limit)) ≤ total ds := by
  induction ds with
  | nil => exact Nat.le_refl 0
  | cons d ds ih => exact Nat.add_le_add (Nat.min_le_left ..) ih

theorem map_atMost_eq_self {limit : Duration} {ds : List Duration} (short : ∀ d ∈ ds, d.nanos ≤ limit.nanos) :
    ds.map (·.atMost limit) = ds := by
  have whole (d : Duration) (hd : d ∈ ds) : d.atMost limit = d := by rw [atMost, Nat.min_eq_left (short d hd)]
  rw [List.map_congr_left whole, List.map_id']

end Duration

namespace Journal

def handed : Journal → List Duration
  | [] => []
  | .elapsed d :: j => d :: handed j
  | .synced _ :: _ => []
  | _ :: j => handed j

/-- Only the entries about the clock matter. -/
theorem handed_times (j : Journal) : j.times.handed = j.handed := by
  induction j with
  | nil => rfl
  | cons e j ih =>
    cases e with
    | elapsed d => exact congrArg (d :: ·) ih
    | synced => rfl
    | notice | fired | executed | rearmed | unresolved => exact ih

end Journal

structure Timesheet where
  set : Duration
  ticks : List Duration := []
  deriving DecidableEq

namespace Timesheet

variable {t : Timesheet} {latest : Duration}

def last (t : Timesheet) : Duration := t.ticks.headD t.set

def gapsFrom (set : Duration) : List Duration → List Duration
  | [] => []
  | tick :: earlier => tick.since (earlier.headD set) :: gapsFrom set earlier

def gaps (t : Timesheet) : List Duration := gapsFrom t.set t.ticks

/-- The moments follow each other, and none of them is later than the latest host time. -/
def Ordered (t : Timesheet) (latest : Duration) : Prop :=
  (latest :: (t.ticks ++ [t.set])).IsChain fun later earlier => earlier.nanos ≤ later.nanos

theorem Ordered.mono {later : Duration} (h : t.Ordered latest) (le : latest.nanos ≤ later.nanos) : t.Ordered later := by
  obtain ⟨set, ticks⟩ := t
  cases ticks with
  | nil => exact List.isChain_cons_cons.mpr ((List.isChain_cons_cons.mp h).imp (·.trans le) id)
  | cons => exact List.isChain_cons_cons.mpr ((List.isChain_cons_cons.mp h).imp (·.trans le) id)

/-- Together the gaps reach from when the clock was set to the last tick. -/
theorem Ordered.total_gaps (h : t.Ordered latest) : t.set.nanos + Duration.total t.gaps = t.last.nanos := by
  obtain ⟨set, ticks⟩ := t
  induction ticks generalizing latest with
  | nil => rfl
  | cons tick earlier ih =>
    obtain ⟨-, rest⟩ := List.isChain_cons_cons.mp h
    have before := ih rest
    have le : (earlier.headD set).nanos ≤ tick.nanos := by
      cases earlier with
      | nil => exact (List.isChain_cons_cons.mp rest).1
      | cons => exact (List.isChain_cons_cons.mp rest).1
    simp only [gaps, gapsFrom, last, List.headD_cons, Duration.total, Duration.since] at before ⊢
    omega

def note (t : Timesheet) (p : Pace) (s : Session) : Operation → Timesheet
  | .tick host => { t with ticks := host :: t.ticks }
  | .line text host => if (s.hear p text host).1.synced.isSome then ⟨host, []⟩ else t
  | .step | .rebase _ => t

end Timesheet

def Operation.host? : Operation → Option Duration
  | .tick host | .line _ host => some host
  | .step | .rebase _ => none

namespace Session

variable {p : Pace} {s : Session} {t : Timesheet} {host latest : Duration} {o : Operation}

def timesheet (p : Pace) (s : Session) (t : Timesheet) : List Operation → Timesheet
  | [] => t
  | o :: ops => timesheet p (s.perform p o) (t.note p s o) ops

theorem ordered_timesheet {ops : List Operation} (ordered : t.Ordered latest)
    (hosts : (latest :: ops.filterMap Operation.host?).IsChain fun now later => now.nanos ≤ later.nanos) :
    ∃ latest, (s.timesheet p t ops).Ordered latest := by
  induction ops generalizing s t latest with
  | nil => exact ⟨latest, ordered⟩
  | cons o ops ih =>
    cases o with
    | step | rebase => exact ih ordered hosts
    | tick host =>
      obtain ⟨le, hosts⟩ := List.isChain_cons_cons.mp hosts
      exact ih (List.isChain_cons_cons.mpr ⟨Nat.le_refl _, ordered.mono le⟩) hosts
    | line text host =>
      obtain ⟨le, hosts⟩ := List.isChain_cons_cons.mp hosts
      refine ih ?_ hosts
      rw [Timesheet.note]
      split
      · exact List.isChain_cons_cons.mpr ⟨Nat.le_refl _, .singleton host⟩
      · exact ordered.mono le

theorem SameTime.handed {s' : Session} (h : s.SameTime s') : s'.journal.handed = s.journal.handed := by
  rw [← Journal.handed_times, h.times, Journal.handed_times]

/-- The session is accounted for up to the last moment of the timesheet, and was handed what lies between its moments, up
to the limit. -/
structure Accounts (p : Pace) (s : Session) (t : Timesheet) : Prop where
  lastHost : s.lastHost = t.last
  handed : s.journal.handed = t.gaps.map (·.atMost p.maxTickStep)

theorem SameTime.accounts {s' : Session} (h : s.SameTime s') (k : s.Accounts p t) : s'.Accounts p t :=
  ⟨h.lastHost.trans k.lastHost, h.handed.trans k.handed⟩

namespace Accounts

theorem pass (h : s.Accounts p t) (host : Duration) : (s.pass p host).Accounts p { t with ticks := host :: t.ticks } where
  lastHost := rfl
  handed := by
    show (host.since s.lastHost).atMost p.maxTickStep :: s.journal.handed = _
    rw [h.lastHost, h.handed]
    rfl

/-- A line that synchronises nothing leaves the account as it is; any other one opens a new one. -/
theorem hear (h : s.Accounts p t) (text : String) (host : Duration) :
    (s.hear p text host).2.Accounts p (t.note p s (.line text host)) := by
  refine (sameTime_hear p s text host).accounts ?_
  cases reported : (s.hear p text host).1.synced with
  | none =>
    rw [synchronize_eq_of_none reported, Timesheet.note, reported]
    exact h
  | some id =>
    rw [Timesheet.note, reported]
    replace reported : (s.synchronize p text host).1 = some id := reported
    rcases synchronize_cases p s text host with he | ⟨f, m, -, -, he⟩
    · rw [he] at reported
      cases reported
    · rw [he]
      exact ⟨rfl, rfl⟩

theorem perform (h : s.Accounts p t) (o : Operation) : (s.perform p o).Accounts p (t.note p s o) := by
  cases o with
  | tick host => exact (SameTime.step p _).accounts (h.pass host)
  | step => exact (SameTime.step p s).accounts h
  | line text host => exact h.hear text host
  | rebase clock => exact ⟨h.lastHost, h.handed⟩

theorem run (h : s.Accounts p t) (ops : List Operation) : (s.run p ops).Accounts p (s.timesheet p t ops) := by
  induction ops generalizing s t with
  | nil => exact h
  | cons o ops ih => exact ih (h.perform o)

theorem start (p : Pace) (s : Session) (host : Duration) : (s.start p host).Accounts p ⟨host, []⟩ := by
  refine ⟨?_, by rw [journal_start]; rfl⟩
  rw [Session.start, showWindow]
  split <;> rfl

end Accounts

structure KeepsTime (p : Pace) (s : Session) (t : Timesheet) : Prop where
  handed : s.journal.handed = t.gaps.map (·.atMost p.maxTickStep)
  limited : ∀ d ∈ s.journal.handed, d.nanos ≤ p.maxTickStep.nanos
  once : t.set.nanos + Duration.total s.journal.handed ≤ t.last.nanos
  /-- None was lost unless there was too much of it between two moments. -/
  whole : (∀ gap ∈ t.gaps, gap.nanos ≤ p.maxTickStep.nanos) →
    t.set.nanos + Duration.total s.journal.handed = t.last.nanos
  deaf : ∀ text host, (s.hear p text host).1.synced = none →
    (s.hear p text host).2.journal.handed = s.journal.handed ∧ (s.hear p text host).2.lastHost = s.lastHost ∧
      (s.hear p text host).2.clock = s.clock
  goesOn : ∀ host, (s.tick p host).clock = Clock.advance s.clock ((host.since t.last).atMost p.maxTickStep) ∧
    (s.tick p host).journal.handed = (host.since t.last).atMost p.maxTickStep :: s.journal.handed

/-- In every run whose host times do not decrease, the durations that ticks handed to the clock since it was last set are the
gaps between these moments, cut at the limit: no more than the time from then to the last tick, and all of it if no gap is
longer than the limit. -/
theorem host_time_once (p : Pace) (s₀ : Session) (host : Duration) (ops : List Operation)
    (hosts : (host :: ops.filterMap Operation.host?).IsChain fun now later => now.nanos ≤ later.nanos) :
    ((s₀.start p host).run p ops).KeepsTime p ((s₀.start p host).timesheet p ⟨host, []⟩ ops) := by
  have accounts := (Accounts.start p s₀ host).run ops
  have first : Timesheet.Ordered ⟨host, []⟩ host := List.isChain_cons_cons.mpr ⟨Nat.le_refl _, .singleton host⟩
  obtain ⟨latest, ordered⟩ := ordered_timesheet (p := p) (s := s₀.start p host) first hosts
  generalize (s₀.start p host).run p ops = s at accounts
  generalize (s₀.start p host).timesheet p ⟨host, []⟩ ops = t at accounts ordered
  have reach := ordered.total_gaps
  refine ⟨accounts.handed, ?_, ?_, ?_, ?_, ?_⟩
  · rw [accounts.handed]
    intro d hd
    obtain ⟨gap, -, rfl⟩ := List.mem_map.mp hd
    exact Nat.min_le_right ..
  · rw [accounts.handed, ← reach]
    exact Nat.add_le_add_left (Duration.total_map_atMost_le ..) _
  · intro short
    rw [accounts.handed, Duration.map_atMost_eq_self short, reach]
  · intro text host unreported
    have same := sameTime_hear p s text host
    rw [synchronize_eq_of_none unreported] at same
    exact ⟨same.handed, same.lastHost, same.clock⟩
  · intro host
    have same := SameTime.step p (s.pass p host)
    refine ⟨same.clock.trans ?_, same.handed.trans ?_⟩
    · rw [← accounts.lastHost]
      rfl
    · rw [← accounts.lastHost]
      rfl

def stalling : List Operation :=
  [.tick ⟨400000000⟩, .line "Phase 2" ⟨500000000⟩, .tick ⟨800000000⟩, .line "Wipe" ⟨900000000⟩, .tick ⟨7000000000⟩]

theorem host_time_once_stalling :
    let s := opening.run ({} : Settings).pace stalling
    s.journal.handed.map Duration.nanos = [1000000000, 300000000] ∧
      500000000 + Duration.total s.journal.handed ≤ 7000000000 := by
  intro s
  have hosts : (.zero :: stalling.filterMap Operation.host?).IsChain fun now later : Duration => now.nanos ≤ later.nanos := by
    decide
  have keeps := host_time_once ({} : Settings).pace waiting .zero stalling hosts
  have sheet : opening.timesheet ({} : Settings).pace ⟨.zero, []⟩ stalling =
      ⟨⟨500000000⟩, [⟨7000000000⟩, ⟨800000000⟩]⟩ := by decide +kernel
  rw [show (waiting.start ({} : Settings).pace .zero) = opening from rfl, sheet] at keeps
  exact ⟨congrArg (List.map Duration.nanos) keeps.handed, keeps.once⟩

end Session

end EncounterTimeline

import EncounterTimeline.Proofs.Decimal.FewDigits
import EncounterTimeline.Proofs.Settings.Objects
import EncounterTimeline.Proofs.Storage
import EncounterTimeline.Proofs.Text.Utf8

/-! # Settings that are saved

Settings are read from their own text: every count and the mode come back, and the time of the progress bar as what is read
of its digits. So saving and loading changes a time at most, and none of few digits; but it does change some, and a time
that is not finite cannot be loaded at all.
-/
namespace EncounterTimeline

namespace Settings

open SettingsFile

variable {s t : Settings} {x : Float} {v : Value} {k : Key}

/-- The text of a double is a value, and what is read of it is computed from the double. -/
theorem exists_prints_time (x : Float) :
    ∃ v, Prints (Decimal.Layout.settings.text x).toList v ∧ readFloat v = Decimal.reread x := by
  rw [Decimal.Layout.text, Decimal.reread]
  cases exact : Decimal.Binary64.ofFloat x with
  | notANumber => exact ⟨.null, prints_null, rfl⟩
  | infinite negative => exact ⟨.null, prints_null, rfl⟩
  | finite negative m e =>
    obtain ⟨canonical, le, -⟩ := Decimal.eq_packed exact
    obtain ⟨n, tells, value⟩ := tells_magnitude canonical le
    simp only [← value]
    cases negative with
    | false => exact ⟨_, by simpa using prints_number tells, rfl⟩
    | true => exact ⟨_, by simpa using prints_minus tells, rfl⟩

def fileValue (time : Value) (s : Settings) : Key → Value
  | .progressBarTime => time
  | .designMode => .truth s.designMode
  | .visibleActivities => .ofCount s.visibleActivities
  | .tickInterval => .ofCount s.tickIntervalMillis
  | .maxTickStep => .ofCount s.maxTickStepMillis
  | .workerStopTimeout => .ofCount s.workerStopTimeoutMillis
  | .maxStepsPerTick => .ofCount s.maxStepsPerTick

theorem prints_fileValue (prints : Prints (Decimal.Layout.settings.text s.progressBarTime).toList v) (k : Key) :
    Prints (s.valueText k).toList (fileValue v s k) := by
  cases k with
  | progressBarTime => exact prints
  | designMode => exact prints_truth s.designMode
  | _ => exact prints_count _

theorem unescaped_text (k : Key) : Unescaped k.text.toList := by
  cases k <;> simp [Unescaped, Key.text, Awaiting.next]

theorem toList_print (s : Settings) : s.print.toList =
    '{' :: '\n' :: lines (fun k => k.text.toList) (fun k => (s.valueText k).toList) Key.all := by
  simp [print, Key.all, memberText, lines]

theorem parse_print (prints : Prints (Decimal.Layout.settings.text s.progressBarTime).toList v) :
    parse s.print.toList = some (.object (Key.all.map fun k => (k.text.toList, fileValue v s k))) := by
  rw [toList_print]
  exact parse_lines (fun k _ => unescaped_text k) (fun k _ => prints_fileValue prints k) (by decide)

theorem unquote_text (k : Key) : (unquote k.text.toList).bind Key.ofText? = some k := by
  cases k <;> rfl

variable {seen ks : List Key} {value : Key → Value}

/-- Members with different keys are assigned one after the other. -/
theorem assignMembers_keys (fresh : ∀ k ∈ ks, k ∉ seen) (apart : ks.Nodup) :
    s.assignMembers seen (ks.map fun k => (k.text.toList, value k)) = ks.foldlM (fun s k => s.assign k (value k)) s := by
  induction ks generalizing s seen with
  | nil => rfl
  | cons k ks ih =>
    obtain ⟨name, written, named⟩ := Option.bind_eq_some_iff.mp (unquote_text k)
    obtain ⟨other, apart⟩ := List.nodup_cons.mp apart
    have here : seen.contains k = false := by simpa using fresh k List.mem_cons_self
    rw [List.map_cons, assignMembers, written, Option.bind_some, named, List.foldlM_cons]
    simp only [here, Bool.false_eq_true, if_false]
    refine congrArg _ (funext fun s => ih (fun x mem => ?_) apart)
    rw [List.mem_cons, not_or]
    exact ⟨fun same => other (same ▸ mem), fresh x (List.mem_cons_of_mem _ mem)⟩

structure Counted (s : Settings) : Prop where
  visibleActivities : s.visibleActivities ≤ Decimal.maxCount
  tickInterval : s.tickIntervalMillis ≤ Decimal.maxCount
  maxTickStep : s.maxTickStepMillis ≤ Decimal.maxCount
  workerStopTimeout : s.workerStopTimeoutMillis ≤ Decimal.maxCount
  maxStepsPerTick : s.maxStepsPerTick ≤ Decimal.maxCount

theorem readCount_ofCount {n : ℕ} (le : n ≤ Decimal.maxCount) : readCount (.ofCount n) = some n := by
  rw [Value.ofCount, readCount]
  simp only [Decimal.digitsValue_toString, if_pos le]

theorem ofValue_print (counted : s.Counted) (v : Value) :
    ofValue (.object (Key.all.map fun k => (k.text.toList, fileValue v s k))) =
      (readFloat v).map fun x => { s with progressBarTime := x } := by
  rw [ofValue, assignMembers_keys (by simp) (by decide)]
  cases time : readFloat v with
  | none => simp [Key.all, fileValue, assign, time]
  | some x =>
    simp [Key.all, fileValue, assign, time, readTruth, readCount_ofCount counted.visibleActivities,
      readCount_ofCount counted.tickInterval, readCount_ofCount counted.maxTickStep,
      readCount_ofCount counted.workerStopTimeout, readCount_ofCount counted.maxStepsPerTick]

/-- What is read of written settings: the time of the progress bar as it is read again, and all else as it was. -/
theorem read_print (counted : s.Counted) :
    read s.print = (Decimal.reread s.progressBarTime).map fun x => { s with progressBarTime := x } := by
  obtain ⟨v, prints, time⟩ := exists_prints_time s.progressBarTime
  have filled : Text.blank s.print = false := by
    rw [Text.blank, toList_print]
    rfl
  rw [read, filled, if_neg Bool.false_ne_true, parse_print prints, Option.bind_some, ofValue_print counted, time]

variable {storage after : Storage} {path : String}

theorem readText_of_save (saved : s.save storage path = (.ok (), after)) : after.readText path = .ok s.print := by
  unfold save at saved
  simp only at saved
  split at saved
  · cases saved
  · split at saved
    · cases saved
    · rename_i written
      cases saved
      rw [Storage.readText, Storage.read_of_write written]
      simp only [Except.bind, Text.decode_encode, String.ofList_toList]

theorem load_of_save (counted : s.Counted) (saved : s.save storage path = (.ok (), after)) : load after path =
    (Decimal.reread s.progressBarTime).elim (.error .settings) fun x => .ok { s with progressBarTime := x } := by
  rw [load, readText_of_save saved]
  simp only [read_print counted]
  cases Decimal.reread s.progressBarTime <;> rfl

/-- What a file can give: counters, and a finite time. -/
structure Loadable (s : Settings) : Prop where
  counted : s.Counted
  finite : s.progressBarTime.isFinite = true

theorem loadable_default : ({} : Settings).Loadable :=
  ⟨⟨by decide, by decide, by decide, by decide, by decide⟩, by decide +kernel⟩

theorem isFinite_of_readFloat (h : readFloat v = some x) : x.isFinite = true := by
  cases v with
  | number negative integral n =>
    obtain ⟨y, value, rfl⟩ := Option.map_eq_some_iff.mp h
    have finite := Decimal.isFinite_of_scaledValue value
    cases negative with
    | false => exact finite
    | true => exact Decimal.isFinite_neg finite
  | _ => cases h

theorem readCount_le {n : ℕ} (h : readCount v = some n) : n ≤ Decimal.maxCount := by
  unfold readCount at h
  split at h
  · simp only at h
    split at h
    · cases h
      assumption
    · cases h
  · cases h

theorem Loadable.assign (h : s.Loadable) (set : s.assign k v = some t) : t.Loadable := by
  cases k <;> obtain ⟨y, value, rfl⟩ := Option.map_eq_some_iff.mp set
  case progressBarTime => exact ⟨{ h.counted with }, isFinite_of_readFloat value⟩
  case designMode => exact ⟨{ h.counted with }, h.finite⟩
  case visibleActivities => exact ⟨{ h.counted with visibleActivities := readCount_le value }, h.finite⟩
  case tickInterval => exact ⟨{ h.counted with tickInterval := readCount_le value }, h.finite⟩
  case maxTickStep => exact ⟨{ h.counted with maxTickStep := readCount_le value }, h.finite⟩
  case workerStopTimeout => exact ⟨{ h.counted with workerStopTimeout := readCount_le value }, h.finite⟩
  case maxStepsPerTick => exact ⟨{ h.counted with maxStepsPerTick := readCount_le value }, h.finite⟩

theorem Loadable.assignMembers (h : s.Loadable) {members : List (List Char × Value)}
    (set : s.assignMembers seen members = some t) : t.Loadable := by
  induction members generalizing s seen with
  | nil =>
    cases set
    exact h
  | cons member rest ih =>
    obtain ⟨name, -, set⟩ := Option.bind_eq_some_iff.mp set
    split at set
    · exact ih h set
    · split at set
      · cases set
      · obtain ⟨u, first, set⟩ := Option.bind_eq_some_iff.mp set
        exact ih (h.assign first) set

theorem Loadable.assignItems (h : s.Loadable) {items : List Value} (set : s.assignItems ks items = some t) :
    t.Loadable := by
  induction items generalizing s ks with
  | nil =>
    cases ks <;> cases set <;> exact h
  | cons item rest ih =>
    cases ks with
    | nil => cases set
    | cons k ks =>
      obtain ⟨u, first, set⟩ := Option.bind_eq_some_iff.mp set
      exact ih (h.assign first) set

theorem loadable_of_read {text : String} (h : read text = some s) : s.Loadable := by
  rw [read] at h
  split at h
  · cases h
    exact loadable_default
  · obtain ⟨v, -, value⟩ := Option.bind_eq_some_iff.mp h
    unfold ofValue at value
    split at value
    · exact loadable_default.assignMembers value
    · exact loadable_default.assignItems value
    · cases value

/-- Whatever file is loaded, the settings are counters and a finite time. -/
theorem loadable_of_load (h : load storage path = .ok s) : s.Loadable := by
  unfold load at h
  split at h
  · cases h
    exact loadable_default
  · cases h
  · split at h
    · rename_i text _ read
      cases h
      exact loadable_of_read read
    · cases h

/-- Settings that were saved can be loaded exactly if their time is finite, and then all else comes back as it was. The time
comes back exactly if what is read of its digits is the same double, as it is for decimals of few digits. -/
theorem saved_comes_back (counted : s.Counted) (saved : s.save storage path = (.ok (), after)) :
    (s.progressBarTime.isFinite = true → ∃ x, load after path = .ok { s with progressBarTime := x }) ∧
      (s.progressBarTime.isFinite = false → load after path = .error .settings) ∧
      (load after path = .ok s ↔ Decimal.reread s.progressBarTime = some s.progressBarTime) ∧
      (Decimal.Short s.progressBarTime → load after path = .ok s) := by
  have loaded := load_of_save counted saved
  have same : load after path = .ok s ↔ Decimal.reread s.progressBarTime = some s.progressBarTime := by
    rw [loaded]
    cases Decimal.reread s.progressBarTime with
    | none => simp
    | some x =>
      simp only [Option.elim_some, Except.ok.injEq, Option.some.injEq]
      exact ⟨fun all => congrArg progressBarTime all, fun time => by rw [time]⟩
  refine ⟨fun finite => ?_, fun infinite => ?_, same, fun short => ?_⟩
  · obtain ⟨x, read⟩ := Decimal.exists_reread finite
    exact ⟨x, by rw [loaded, read, Option.elim_some]⟩
  · rw [loaded, Decimal.reread_of_not_finite infinite, Option.elim_none]
  · exact same.mpr (Decimal.reread_of_handy (Decimal.handy_of_short short))

def ample : Settings where
  progressBarTime := 12.5
  visibleActivities := Decimal.maxCount
  tickIntervalMillis := Decimal.maxCount
  maxTickStepMillis := Decimal.maxCount
  workerStopTimeoutMillis := Decimal.maxCount
  maxStepsPerTick := Decimal.maxCount

theorem short_ample : Decimal.Short ample.progressBarTime := by
  have exact : Decimal.Binary64.ofFloat 12.5 = .finite false (25 * 2 ^ 48) (-49) := by decide +kernel
  obtain ⟨canonical, le, equal⟩ := Decimal.eq_packed exact
  have closest := Decimal.closest_packed false canonical
  refine ⟨false, 125, -1, by decide, by decide, by norm_num, ?_⟩
  have value : ((125 : ℕ) : ℚ) * 10 ^ (-1 : ℤ) = (25 * 2 ^ 48 : ℕ) * 2 ^ (-49 : ℤ) := by norm_num
  rw [value, ample, equal]
  exact closest

theorem exists_saved (s : Settings) : ∃ after, s.save {} "config/timeline.json" = (.ok (), after) := ⟨_, rfl⟩

/-- Such settings come back through a file in a directory that has to be created. -/
theorem saved_comes_back_ample : ∃ after, ample.save {} "config/timeline.json" = (.ok (), after) ∧
    load after "config/timeline.json" = .ok ample := by
  obtain ⟨after, saved⟩ := exists_saved ample
  obtain ⟨-, -, -, short⟩ := saved_comes_back ⟨le_rfl, le_rfl, le_rfl, le_rfl, le_rfl⟩ saved
  exact ⟨after, saved, short short_ample⟩

def wholeTime : String := "\x7b\"showProgressBarTime\": 9007199254740991\x7d"

/-- Settings that are loaded, saved, and loaded again with another time. -/
theorem exists_saved_changed : ¬ ∀ (storage elsewhere after : Storage) (path target : String) (s : Settings),
    load storage path = .ok s → s.save elsewhere target = (.ok (), after) → load after target = .ok s := by
  intro all
  let storage : Storage := ⟨[(["settings.json"], .file (Text.encode wholeTime.toList))]⟩
  have text : storage.readText "settings.json" = .ok wholeTime := by decide +kernel
  have first : (read wholeTime).map progressBarTime = some 9007199254740991.0 := by decide +kernel
  obtain ⟨s, found, time⟩ := Option.map_eq_some_iff.mp first
  have loaded : load storage "settings.json" = .ok s := by
    rw [load, text]
    simp only [found]
  obtain ⟨after, saved⟩ := exists_saved s
  have again := all _ _ _ _ _ _ loaded saved
  have changed : Decimal.reread 9007199254740991.0 = some 9007199254740990.0 := by decide +kernel
  rw [load_of_save (loadable_of_load loaded).counted saved, time, changed, Option.elim_some] at again
  have same := congrArg progressBarTime (Except.ok.inj again)
  simp only [time] at same
  exact absurd same (by decide +kernel)

end Settings

end EncounterTimeline

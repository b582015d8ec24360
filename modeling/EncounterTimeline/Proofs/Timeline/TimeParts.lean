import EncounterTimeline.Fault
import EncounterTimeline.Proofs.Timeline.TimeText

/-! # How times are spelled

A time text has parts: the digits of the minutes before a colon, if there are any, those of the seconds and, behind a
point, those of a fraction. The parts can be told from the text. What is read is white space, or parts with white space
around them, and what is written are parts in a tidy form that say how many milliseconds they stand for.
-/
namespace EncounterTimeline.TimeText

open Decimal Text

structure Parts where
  minutes : Option (List Char) := none
  seconds : List Char
  fraction : Option (List Char) := none
  deriving DecidableEq, Repr

namespace Parts

def fractionText (p : Parts) : List Char :=
  match p.fraction with
  | some fs => '.' :: fs
  | none => []

def secondsText (p : Parts) : List Char := p.seconds ++ p.fractionText

def text (p : Parts) : List Char :=
  match p.minutes with
  | some ms => ms ++ ':' :: p.secondsText
  | none => p.secondsText

structure WellFormed (p : Parts) : Prop where
  minutes : ∀ ms ∈ p.minutes, DigitRun ms
  seconds : DigitRun p.seconds
  fraction : ∀ fs ∈ p.fraction, DigitRun fs

def minuteCount (p : Parts) : ℕ := digitsValue (p.minutes.getD [])

def places (p : Parts) : List Char := p.fraction.getD []

def millis (p : Parts) : ℕ :=
  p.minuteCount * 60000 + digitsValue p.seconds * 1000 + digitsValue p.places * 10 ^ (3 - p.places.length)

structure Readable (p : Parts) : Prop extends p.WellFormed where
  countable : p.minuteCount ≤ maxCount

/-- At least two digits for the minutes, two for the seconds, which are fewer than sixty, and up to three for the fraction,
which does not end in a zero. -/
structure Tidy (p : Parts) : Prop where
  minutes : ∃ ms ∈ p.minutes, 2 ≤ ms.length
  seconds : p.seconds.length = 2 ∧ digitsValue p.seconds < 60
  fraction : ∀ fs ∈ p.fraction, 1 ≤ fs.length ∧ fs.length ≤ 3 ∧ fs.getLast? ≠ some '0'

variable {p q : Parts} {c : Char}

theorem head_fractionText (h : c ∈ p.fractionText.head?) : c = '.' := by
  rw [fractionText] at h
  split at h <;> cases h
  rfl

/-- The seconds end where their digits end. -/
theorem cut_secondsText (h : p.WellFormed) : p.secondsText.takeWhile Char.isDigit = p.seconds ∧
    p.secondsText.dropWhile Char.isDigit = p.fractionText := by
  have digits := h.seconds.all
  rw [secondsText]
  cases shape : p.fractionText with
  | nil =>
    rw [List.append_nil]
    exact ⟨List.takeWhile_eq_self_iff.mpr digits, List.dropWhile_eq_nil_iff.mpr digits⟩
  | cons c rest =>
    obtain rfl := head_fractionText (p := p) (c := c) (by rw [shape]; rfl)
    exact ⟨takeWhile_stop '.' rest digits rfl, dropWhile_stop '.' rest digits rfl⟩

/-- The minutes end where their digits end, before a colon. -/
theorem cut_text (h : p.WellFormed) {ms : List Char} (minutes : p.minutes = some ms) :
    p.text.takeWhile Char.isDigit = ms ∧ p.text.dropWhile Char.isDigit = ':' :: p.secondsText := by
  have digits := (h.minutes ms minutes).all
  have shape : p.text = ms ++ ':' :: p.secondsText := by rw [text, minutes]
  rw [shape]
  exact ⟨takeWhile_stop ':' _ digits rfl, dropWhile_stop ':' _ digits rfl⟩

theorem not_colon (rest : List Char) : p.fractionText ≠ ':' :: rest := by
  intro same
  exact absurd (head_fractionText (p := p) (c := ':') (by rw [same]; rfl)) (by decide)

theorem eq_of_secondsText (hp : p.WellFormed) (hq : q.WellFormed) (same : p.secondsText = q.secondsText) :
    p.seconds = q.seconds ∧ p.fraction = q.fraction := by
  have own := cut_secondsText hp
  have other := cut_secondsText hq
  rw [same] at own
  refine ⟨own.1.symm.trans other.1, ?_⟩
  have fractions : p.fractionText = q.fractionText := own.2.symm.trans other.2
  rw [fractionText, fractionText] at fractions
  split at fractions <;> split at fractions <;> simp_all

/-- A text has the parts of one spelling only. -/
theorem eq_of_text (hp : p.WellFormed) (hq : q.WellFormed) (same : p.text = q.text) : p = q := by
  have plain {p : Parts} (minutes : p.minutes = none) : p.text = p.secondsText := by rw [text, minutes]
  suffices p.minutes = q.minutes ∧ p.secondsText = q.secondsText by
    obtain ⟨seconds, fraction⟩ := eq_of_secondsText hp hq this.2
    cases p
    cases q
    simp_all
  cases own : p.minutes with
  | none =>
    cases other : q.minutes with
    | none => exact ⟨rfl, by rw [← plain own, ← plain other, same]⟩
    | some ms =>
      have colon := (cut_text hq other).2
      rw [← same, plain own, (cut_secondsText hp).2] at colon
      exact absurd colon (not_colon _)
  | some ms =>
    obtain ⟨taken, dropped⟩ := cut_text hp own
    rw [same] at taken dropped
    cases other : q.minutes with
    | none =>
      rw [plain other, (cut_secondsText hq).2] at dropped
      exact absurd dropped (not_colon _)
    | some ms' =>
      obtain ⟨taken', dropped'⟩ := cut_text hq other
      rw [taken] at taken'
      rw [dropped] at dropped'
      exact ⟨by rw [taken'], (List.cons.inj dropped').2⟩

theorem not_isBlank_of_mem (h : p.WellFormed) (mem : c ∈ p.text) : isBlank c = false := by
  have digit {cs : List Char} (run : DigitRun cs) (mem : c ∈ cs) : isBlank c = false := not_isBlank_of_isDigit (run.all c mem)
  have seconds (mem : c ∈ p.secondsText) : isBlank c = false := by
    rcases List.mem_append.mp mem with mem | mem
    · exact digit h.seconds mem
    · rw [fractionText] at mem
      split at mem
      · rename_i fs here
        rcases List.mem_cons.mp mem with rfl | mem
        · rfl
        · exact digit (h.fraction fs here) mem
      · cases mem
  rw [text] at mem
  split at mem
  · rename_i ms here
    rcases List.mem_append.mp mem with mem | mem
    · exact digit (h.minutes ms here) mem
    · rcases List.mem_cons.mp mem with rfl | mem
      · rfl
      · exact seconds mem
  · exact seconds mem

theorem text_ne_nil (h : p.WellFormed) : p.text ≠ [] := by
  have seconds : p.secondsText ≠ [] := List.append_ne_nil_of_left_ne_nil h.seconds.filled _
  rw [text]
  split
  · exact List.append_ne_nil_of_right_ne_nil _ (by simp)
  · exact seconds

theorem isSeconds_secondsText (h : p.WellFormed) : isSeconds p.secondsText = true := by
  obtain ⟨taken, dropped⟩ := cut_secondsText h
  rw [isSeconds, taken, dropped, fractionText]
  cases fraction : p.fraction with
  | none => simp [h.seconds.filled]
  | some fs => simpa [h.seconds.filled, (h.fraction fs fraction).filled] using (h.fraction fs fraction).all

theorem readUnsigned_secondsText (h : p.WellFormed) : readUnsigned p.secondsText = some ⟨p.seconds, p.places, 0⟩ := by
  rw [secondsText, fractionText, places]
  cases fraction : p.fraction with
  | none =>
    rw [List.append_nil]
    exact readUnsigned_whole h.seconds.all h.seconds.filled
  | some fs => exact readUnsigned_point h.seconds.all h.seconds.filled (h.fraction fs fraction).all

theorem secondsMillis_secondsText (h : p.WellFormed) : secondsMillis p.secondsText =
    some (nearestCount (Numeral.value ⟨p.seconds, p.places, 0⟩ * 1000.0)) := by
  rw [secondsMillis, if_pos (isSeconds_secondsText h), readUnsigned_secondsText h, Option.map_some]

/-- Minutes that a counter does not hold are refused, and all others are taken. -/
theorem readTrimmed_text (h : p.WellFormed) : readTrimmed p.text =
    if p.minuteCount ≤ maxCount then (secondsMillis p.secondsText).map (total p.minuteCount) else none := by
  rw [readTrimmed]
  cases minutes : p.minutes with
  | none =>
    have plain : p.text = p.secondsText := by rw [text, minutes]
    have count : p.minuteCount = 0 := by rw [minuteCount, minutes]; rfl
    rw [count, if_pos (Nat.zero_le _), plain, (cut_secondsText h).2]
    split
    · rename_i rest colon
      exact absurd colon (not_colon rest)
    · rfl
  | some ms =>
    obtain ⟨taken, dropped⟩ := cut_text h minutes
    have count : digitsValue ms = p.minuteCount := by rw [minuteCount, minutes]; rfl
    have filled : ms.isEmpty = false := by simpa using (h.minutes ms minutes).filled
    rw [taken, dropped]
    simp only [count, filled, Bool.false_or, decide_eq_true_eq]
    by_cases fits : p.minuteCount ≤ maxCount
    · rw [if_pos fits, if_neg (Nat.not_lt_of_le fits)]
    · rw [if_neg fits, if_pos (Nat.lt_of_not_le fits)]

end Parts

theorem exists_parts_of_isSeconds {cs : List Char} (h : isSeconds cs = true) (minutes : Option (List Char))
    (run : ∀ ms ∈ minutes, DigitRun ms) : ∃ p : Parts, p.WellFormed ∧ p.minutes = minutes ∧ p.secondsText = cs := by
  obtain ⟨seconds, rest⟩ := Bool.and_eq_true_iff.mp h
  have digits : DigitRun (cs.takeWhile Char.isDigit) := ⟨by simpa using seconds, fun c mem => List.mem_takeWhile_imp mem⟩
  have whole := List.takeWhile_append_dropWhile (p := Char.isDigit) (l := cs)
  split at rest
  · rename_i ends
    rw [ends, List.append_nil] at whole
    refine ⟨⟨minutes, cs.takeWhile Char.isDigit, none⟩, ⟨run, digits, by rintro _ ⟨⟩⟩, rfl, ?_⟩
    rw [Parts.secondsText, Parts.fractionText, List.append_nil, whole]
  · rename_i fs point
    rw [point] at whole
    obtain ⟨filled, all⟩ := Bool.and_eq_true_iff.mp rest
    have places : DigitRun fs := ⟨by simpa using filled, List.all_eq_true.mp all⟩
    refine ⟨⟨minutes, cs.takeWhile Char.isDigit, some fs⟩, ⟨run, digits, by rintro _ ⟨⟩; exact places⟩, rfl, ?_⟩
    rw [Parts.secondsText, Parts.fractionText, whole]
  · cases rest

/-- What is read between white space are parts. -/
theorem exists_parts_of_readTrimmed {cs : List Char} {n : ℕ} (h : readTrimmed cs = some n) :
    ∃ p : Parts, p.Readable ∧ p.text = cs := by
  have seconds {r : List Char} {f : ℕ → ℕ} (h : (secondsMillis r).map f = some n) : isSeconds r = true := by
    obtain ⟨k, found, -⟩ := Option.map_eq_some_iff.mp h
    rw [secondsMillis] at found
    exact (Option.ite_none_right_eq_some.mp found).1
  simp only [readTrimmed] at h
  split at h
  · rename_i r colon
    split at h
    · cases h
    · rename_i counted
      simp only [Bool.or_eq_true, decide_eq_true_eq, not_or, not_lt] at counted
      obtain ⟨filled, fits⟩ := counted
      have digits : DigitRun (cs.takeWhile Char.isDigit) := ⟨by simpa using filled, fun c mem => List.mem_takeWhile_imp mem⟩
      obtain ⟨p, wellFormed, minutes, text⟩ :=
        exists_parts_of_isSeconds (seconds h) (some (cs.takeWhile Char.isDigit)) (by rintro _ ⟨⟩; exact digits)
      refine ⟨p, { wellFormed with countable := by rw [Parts.minuteCount, minutes]; exact fits }, ?_⟩
      rw [Parts.text, minutes]
      show cs.takeWhile Char.isDigit ++ ':' :: p.secondsText = cs
      rw [text, ← colon, List.takeWhile_append_dropWhile]
  · obtain ⟨p, wellFormed, minutes, text⟩ := exists_parts_of_isSeconds (seconds h) none (by rintro _ ⟨⟩)
    refine ⟨p, { wellFormed with countable := by rw [Parts.minuteCount, minutes]; exact Nat.zero_le _ }, ?_⟩
    rw [Parts.text, minutes]
    exact text

def Spells (s : String) (p : Parts) : Prop :=
  ∃ front back, (∀ c ∈ front, isBlank c = true) ∧ (∀ c ∈ back, isBlank c = true) ∧ s.toList = front ++ p.text ++ back

variable {s : String} {p : Parts} {d : Duration}

theorem blank_iff : Text.blank s = true ↔ trimBoth isBlank s.toList = [] := by
  rw [Text.blank, List.all_eq_true]
  constructor
  · exact trimBoth_of_all
  · intro empty
    obtain ⟨front, back, before, after, whole⟩ := exists_trimBoth isBlank s.toList
    rw [empty, List.append_nil] at whole
    intro c mem
    rw [whole] at mem
    exact (List.mem_append.mp mem).elim (before c) (after c)

theorem parse_blank (h : Text.blank s = true) : parse s = some .zero := by rw [parse, read, blank_iff.mp h]

theorem parse_spelled (h : p.WellFormed) (spelled : Spells s p) : parse s =
    if p.minuteCount ≤ maxCount then
      some (.ofMillis (total p.minuteCount (nearestCount (Numeral.value ⟨p.seconds, p.places, 0⟩ * 1000.0))))
    else none := by
  obtain ⟨front, back, before, after, whole⟩ := spelled
  have trimmed : trimBoth isBlank s.toList = p.text := by
    rw [whole, trimBoth_between before (fun c => Parts.not_isBlank_of_mem h) after]
  rw [parse, read, trimmed]
  split
  · rename_i empty
    exact absurd empty (Parts.text_ne_nil h)
  · rw [Parts.readTrimmed_text h, Parts.secondsMillis_secondsText h, Option.map_some]
    split <;> rfl

/-- A text is read exactly if nothing is in it but white space, or if it spells parts. -/
theorem parse_isSome_iff : (∃ d, parse s = some d) ↔ Text.blank s = true ∨ ∃ p : Parts, p.Readable ∧ Spells s p := by
  constructor
  · rintro ⟨d, h⟩
    rw [parse, read] at h
    split at h
    · rename_i empty
      exact .inl (blank_iff.mpr empty)
    · rename_i trimmed _
      obtain ⟨n, found, -⟩ := Option.map_eq_some_iff.mp h
      obtain ⟨p, readable, text⟩ := exists_parts_of_readTrimmed found
      obtain ⟨front, back, before, after, whole⟩ := exists_trimBoth isBlank s.toList
      exact .inr ⟨p, readable, front, back, before, after, text ▸ whole⟩
  · rintro (blank | ⟨p, readable, spelled⟩)
    · exact ⟨_, parse_blank blank⟩
    · exact ⟨_, (parse_spelled readable.toWellFormed spelled).trans (if_pos readable.countable)⟩

theorem Parts.digits_places (h : p.WellFormed) : ∀ c ∈ p.places, c.isDigit := by
  intro c mem
  rw [Parts.places] at mem
  cases fraction : p.fraction with
  | none =>
    rw [fraction] at mem
    cases mem
  | some fs =>
    rw [fraction] at mem
    exact (h.fraction fs fraction).all c mem

/-- Up to three places are less than a second. -/
theorem Parts.places_lt (h : p.WellFormed) (short : p.places.length ≤ 3) :
    digitsValue p.places * 10 ^ (3 - p.places.length) < 1000 :=
  calc digitsValue p.places * 10 ^ (3 - p.places.length)
      < 10 ^ p.places.length * 10 ^ (3 - p.places.length) :=
        Nat.mul_lt_mul_of_pos_right (digitsValue_lt (Parts.digits_places h)) (Nat.pow_pos (by decide))
    _ = 1000 := by rw [← pow_add, Nat.add_sub_cancel' short]; rfl

theorem parse_exact (h : p.Readable) (spelled : Spells s p) (short : p.places.length ≤ 3)
    (small : digitsValue p.seconds < 1000000000) : parse s = some (.ofMillis (min p.millis maxCount)) := by
  have value := nearestCount_value short (Parts.places_lt h.toWellFormed short) small
  have sum : total p.minuteCount (digitsValue p.seconds * 1000 + digitsValue p.places * 10 ^ (3 - p.places.length)) =
      min p.millis maxCount := by
    rw [total, Parts.millis]
    omega
  rw [parse_spelled h.toWellFormed spelled, if_pos h.countable, value, sum]

theorem require_of_parse (h : parse s = some d) : require s = .ok d := by rw [require, h]

theorem require_of_none (h : parse s = none) : require s = .error (.invalidTime s) := by rw [require, h]

theorem require_eq_ok : require s = .ok d ↔ parse s = some d := by
  rw [require]
  split <;> simp_all

/-- The grammar of time texts. A text that is not in it is a fault that carries the text as it came. White space alone is
time zero, and up to three places behind fewer than a thousand million seconds are counted to the millisecond. -/
theorem require_iff_spelled (s : String) :
    ((∃ d, require s = .ok d) ↔ Text.blank s = true ∨ ∃ p : Parts, p.Readable ∧ Spells s p) ∧
    (¬ (Text.blank s = true ∨ ∃ p : Parts, p.Readable ∧ Spells s p) → require s = .error (.invalidTime s)) ∧
    (Text.blank s = true → require s = .ok .zero) ∧
    ∀ p : Parts, p.Readable → Spells s p → p.places.length ≤ 3 → digitsValue p.seconds < 10 ^ 9 →
      require s = .ok (.ofMillis (min p.millis maxCount)) := by
  have accepted : (∃ d, require s = .ok d) ↔ Text.blank s = true ∨ ∃ p : Parts, p.Readable ∧ Spells s p := by
    simp only [require_eq_ok]
    exact parse_isSome_iff
  refine ⟨accepted, fun other => ?_, fun blank => require_of_parse (parse_blank blank),
    fun p readable spelled short small => require_of_parse (parse_exact readable spelled short small)⟩
  cases read : parse s with
  | none => exact require_of_none read
  | some d => exact absurd (accepted.mp ⟨d, require_of_parse read⟩) other

theorem length_padded_ge (width n : ℕ) : width ≤ (padded width n).length := by
  rw [padded, List.length_append, List.length_replicate]
  omega

theorem digits_padded (width n : ℕ) : DigitRun (padded width n) := ⟨padded_ne_nil width n, fun _ => isDigit_of_mem_padded⟩

/-- The fraction that is written for milliseconds. -/
theorem exists_fraction {n : ℕ} (small : n < 1000) : ∃ f : Option (List Char), fraction n = (f.map ('.' :: ·)).getD [] ∧
    (∀ fs ∈ f, DigitRun fs ∧ 1 ≤ fs.length ∧ fs.length ≤ 3 ∧ fs.getLast? ≠ some '0') ∧
      digitsValue (f.getD []) * 10 ^ (3 - (f.getD []).length) = n := by
  by_cases zero : n = 0
  · subst zero
    exact ⟨none, rfl, by rintro _ ⟨⟩, rfl⟩
  · obtain ⟨fs, k, form, digits, filled, length, value, last⟩ := fraction_digits zero small
    have counted : 1 ≤ fs.length := List.length_pos_of_ne_nil filled
    have places : 3 - fs.length = k := by omega
    refine ⟨some fs, form, ?_, by rwa [Option.getD_some, places]⟩
    rintro _ ⟨⟩
    exact ⟨⟨filled, digits⟩, counted, by omega, last⟩

/-- A time is written with tidy parts, which stand for its whole milliseconds. -/
theorem exists_tidy (d : Duration) : ∃ p : Parts, p.WellFormed ∧ p.Tidy ∧ (format d).toList = p.text ∧
    p.minuteCount = d.millis / 60000 ∧ p.millis = d.millis := by
  obtain ⟨f, form, run, value⟩ := exists_fraction (n := d.millis % 1000) (by omega)
  let p : Parts := ⟨some (padded 2 (d.millis / 60000)), padded 2 (d.millis / 1000 % 60), f⟩
  have minutes : ∀ ds ∈ p.minutes, DigitRun ds := by
    rintro _ ⟨⟩
    exact digits_padded 2 (d.millis / 60000)
  have seconds : digitsValue p.seconds = d.millis / 1000 % 60 := digitsValue_padded ..
  have count : p.minuteCount = d.millis / 60000 := digitsValue_padded ..
  have wellFormed : p.WellFormed := ⟨minutes, digits_padded 2 (d.millis / 1000 % 60), fun fs mem => (run fs mem).1⟩
  have tidy : p.Tidy :=
    ⟨⟨_, rfl, length_padded_ge ..⟩, ⟨length_padded (by omega) (by decide), by omega⟩, fun fs mem => (run fs mem).2⟩
  refine ⟨p, wellFormed, tidy, ?_, count, ?_⟩
  · rw [format, String.toList_ofList, render, form, Parts.text, Parts.secondsText, Parts.fractionText, List.append_assoc,
      List.cons_append]
    cases f <;> rfl
  · rw [Parts.millis, count, seconds, Parts.places, value]
    omega

/-- A time comes back in whole milliseconds. One that a counter of milliseconds does not hold comes back as the most that it
holds, or not at all if even its minutes are too many. Times that are written alike have the same whole milliseconds. -/
theorem format_comes_back (d : Duration) :
    (d.millis ≤ maxCount → require (format d) = .ok (.ofMillis d.millis)) ∧
    (maxCount ≤ d.millis → require (format d) =
      if d.millis / 60000 ≤ maxCount then .ok (.ofMillis maxCount) else .error (.invalidTime (format d))) ∧
    (∃ p : Parts, p.WellFormed ∧ p.Tidy ∧ (format d).toList = p.text ∧ p.millis = d.millis) ∧
    ∀ e, format e = format d → e.millis = d.millis := by
  obtain ⟨p, wellFormed, tidy, written, minutes, millis⟩ := exists_tidy d
  refine ⟨fun fits => ?_, fun long => ?_, ⟨p, wellFormed, tidy, written, millis⟩, fun e same => ?_⟩
  · have read := require_of_parse (parse_format (d := d) (by omega))
    rwa [counted, Nat.min_eq_left fits] at read
  · split
    · rename_i fits
      have read := require_of_parse (parse_format fits)
      rwa [counted, Nat.min_eq_right long] at read
    · rename_i many
      have spelled : Spells (format d) p := ⟨[], [], by simp, by simp, by rw [written]; simp⟩
      exact require_of_none ((parse_spelled wellFormed spelled).trans (if_neg (minutes ▸ many)))
  · obtain ⟨q, wellFormed', -, written', -, millis'⟩ := exists_tidy e
    have alike : q = p := Parts.eq_of_text wellFormed' wellFormed (by rw [← written', ← written, same])
    rw [← millis', ← millis, alike]

end EncounterTimeline.TimeText

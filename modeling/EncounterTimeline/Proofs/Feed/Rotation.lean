import EncounterTimeline.Proofs.Feed.Tailing

/-! # Files that come back

A read that finds no file leaves a tail where it was in the last one. So of the file that comes back a tail starts over
only if it is shorter than what was read before, or if nothing was. Of any other it passes over the beginning, and what it
held back of the last file goes before the rest.
-/
namespace EncounterTimeline

theorem unended_of_not_mem {c : Text.Bytes} (whole : lineFeed ∉ c) : unended c = c := by
  have cut : cutLines c = ([], c) := by
    induction c with
    | nil => rfl
    | cons byte c ih =>
      obtain ⟨other, rest⟩ := List.ne_and_not_mem_of_not_mem_cons whole
      rw [cutLines, ih rest]
      exact if_neg other.symm
  rw [cutLines_eq] at cut
  exact congrArg Prod.snd cut

theorem not_mem_unended (c : Text.Bytes) : lineFeed ∉ unended c := by
  suffices cut : lineFeed ∉ (cutLines c).2 by rwa [cutLines_eq] at cut
  induction c with
  | nil => exact List.not_mem_nil
  | cons byte c ih =>
    by_cases ends : byte = lineFeed
    · simpa only [cutLines, if_pos ends] using ih
    · cases lines : (cutLines c).1 with
      | nil => simpa only [cutLines, if_neg ends, lines] using List.not_mem_cons_of_ne_of_not_mem (Ne.symm ends) ih
      | cons line others => simpa only [cutLines, if_neg ends, lines] using ih

namespace Tail

variable {path : String} {s : Storage} {t : Tail} {c : Text.Bytes} {n : Nat}

def InUse (path : String) (t : Tail) : Prop := ∃ offset storages, ((startingAt offset).readEach path storages).2 = t

theorem rewind_rewind (t : Tail) (n : Nat) : (t.rewind n).rewind n = t.rewind n := by
  by_cases short : n < t.offset
  · simp [rewind, short]
  · simp [rewind, short]

/-- Only a directory is taken for a file that may be shorter. -/
theorem read_of_error {cause : StorageError} (none : s.read path = .error cause) : (t.read s path).2 = t ∨
    s.read path = .error .isDirectory ∧ (t.read s path).2 = t.rewind Storage.directoryLength := by
  rw [read, none]
  cases cause with
  | isDirectory => exact .inr ⟨rfl, rfl⟩
  | notFound | notDirectory | alreadyExists | notText => exact .inl rfl

theorem readEach_append (t : Tail) (path : String) (storages later : List Storage) :
    t.readEach path (storages ++ later) =
      ((t.readEach path storages).1 ++ ((t.readEach path storages).2.readEach path later).1,
        ((t.readEach path storages).2.readEach path later).2) := by
  induction storages generalizing t with
  | nil => rfl
  | cons s storages ih => simp only [List.cons_append, readEach, ih]

theorem not_mem_pending_take (t : Tail) (c : Text.Bytes) : lineFeed ∉ (t.take c).2.pending := by
  rw [take, cutLines_eq]
  exact not_mem_unended _

theorem not_mem_pending_read (held : lineFeed ∉ t.pending) : lineFeed ∉ (t.read s path).2.pending := by
  cases found : s.read path with
  | ok c =>
    rw [read_of_ok found]
    exact not_mem_pending_take t c
  | error cause =>
    rcases read_of_error (t := t) found with same | ⟨-, rewound⟩
    · rwa [same]
    · rw [rewound, rewind]
      split
      · exact List.not_mem_nil
      · exact held

/-- What is held back is no whole line. -/
theorem InUse.not_mem_pending (used : InUse path t) : lineFeed ∉ t.pending := by
  obtain ⟨offset, storages, rfl⟩ := used
  suffices kept : ∀ t : Tail, lineFeed ∉ t.pending → lineFeed ∉ (t.readEach path storages).2.pending from
    kept _ List.not_mem_nil
  induction storages with
  | nil => exact fun _ held => held
  | cons s storages ih => exact fun t held => ih _ (not_mem_pending_read held)

theorem InUse.readEach (used : InUse path t) (storages : List Storage) :
    InUse path (t.readEach path storages).2 := by
  obtain ⟨offset, before, rfl⟩ := used
  exact ⟨offset, before ++ storages, by rw [readEach_append]⟩

/-- Whatever a file of that length holds, it is read from its first byte, and nothing goes before it. -/
def StartsOver (t : Tail) (n : Nat) : Prop :=
  ∀ c : Text.Bytes, c.length = n → t.take c = (Generation.heard ⟨0, c⟩, Generation.tail ⟨0, c⟩)

/-- A file of one letter only shows what was passed over and what goes before. -/
theorem eq_replicate_of_startsOver (held : lineFeed ∉ t.pending) (within : t.offset ≤ n) (afresh : t.StartsOver n)
    {letter : UInt8} (other : letter ≠ lineFeed) :
    t.pending = List.replicate t.offset letter := by
  have plain (k : Nat) : lineFeed ∉ List.replicate k letter := fun mem => other (List.eq_of_mem_replicate mem).symm
  have length : (List.replicate n letter).length = n := List.length_replicate
  have rest := congrArg (fun taken => taken.2.pending) (afresh _ length)
  simp only [take_of_le (length.symm ▸ within), List.drop_replicate, Generation.tail, Generation.text,
    Nat.sub_zero] at rest
  have apart : lineFeed ∉ t.pending ++ List.replicate (n - t.offset) letter := by simp [held, other.symm]
  rw [unended_of_not_mem (plain n), unended_of_not_mem apart] at rest
  refine List.append_cancel_right (?_ : _ ++ List.replicate (n - t.offset) letter = _)
  rw [rest, List.replicate_append_replicate, Nat.add_sub_cancel' within]

theorem startsOver_iff (held : lineFeed ∉ t.pending) : t.StartsOver n ↔ n < t.offset ∨ t = {} := by
  constructor
  · intro afresh
    refine or_iff_not_imp_left.mpr fun long => ?_
    have letters (letter : UInt8) (other : letter ≠ lineFeed) : t.pending = List.replicate t.offset letter :=
      eq_replicate_of_startsOver held (Nat.le_of_not_lt long) afresh other
    have a := letters 97 (by decide)
    have b := letters 98 (by decide)
    obtain ⟨offset, pending⟩ := t
    -- The same bytes cannot be those of two letters, so there are none.
    cases offset with
    | zero => rw [show pending = [] from a]
    | succ k => simp [show pending = List.replicate (k + 1) 97 from a, List.replicate_succ] at b
  · rintro (short | rfl) c rfl
    · exact take_of_shorter short
    · rw [take_of_le (Nat.zero_le _)]
      rfl

/-- Reads that find no file change nothing, unless they find a directory that counts as shorter. -/
theorem readEach_away {storages : List Storage} (away : ∀ s ∈ storages, ∃ cause, s.read path = .error cause) :
    (t.readEach path storages).2 = t ∨ (∃ s ∈ storages, s.read path = .error .isDirectory) ∧
      (t.readEach path storages).2 = t.rewind Storage.directoryLength := by
  induction storages generalizing t with
  | nil => exact .inl rfl
  | cons s storages ih =>
    obtain ⟨⟨cause, none⟩, away⟩ := List.forall_mem_cons.mp away
    have later := ih (t := (t.read s path).2) away
    have step : (t.readEach path (s :: storages)).2 = ((t.read s path).2.readEach path storages).2 := rfl
    rw [step]
    rcases read_of_error (t := t) none with same | ⟨directory, rewound⟩
    · rw [same] at later ⊢
      exact later.imp id fun ⟨⟨s', mem, found⟩, rest⟩ => ⟨⟨s', List.mem_cons_of_mem s mem, found⟩, rest⟩
    · rw [rewound] at later ⊢
      refine .inr ⟨⟨s, List.mem_cons_self, directory⟩, ?_⟩
      rcases later with rest | ⟨-, rest⟩
      · exact rest
      · exact rest.trans (rewind_rewind t _)

/-- Of a file that comes back after reads that found none, a tail reads everything from the first byte on, and all that is
added to it later, if it is shorter than what was read before or nothing was; no other file is safe from being read in
part, behind what was held back. -/
theorem comes_back (used : InUse path t) {away : List Storage}
    (gone : ∀ s ∈ away, ∃ cause, s.read path = .error cause) : ∃ u, (t.readEach path away).2 = u ∧
      (u = t ∨ (∃ s ∈ away, s.read path = .error .isDirectory) ∧ u = t.rewind Storage.directoryLength) ∧
      (∀ n, u.StartsOver n ↔ n < u.offset ∨ u = {}) ∧
      (∀ s c later contents, s.read path = .ok c → (c.length < u.offset ∨ u = {}) → Sees path later contents →
        Generation.Grows (c :: contents) → ∃ heard : List (List String),
          (t.readEach path (away ++ s :: later)).1 = (t.readEach path away).1 ++ heard.map .ok ∧
          heard.flatten = (Generation.follow ⟨0, c⟩ contents).flatMap Generation.heard) ∧
      ∀ s c, s.read path = .ok c → u.offset ≤ c.length →
        (t.readEach path (away ++ [s])).1 =
          (t.readEach path away).1 ++ [.ok (heardLines (endedLines (u.pending ++ c.drop u.offset)))] := by
  have held : lineFeed ∉ (t.readEach path away).2.pending := (used.readEach away).not_mem_pending
  refine ⟨_, rfl, readEach_away gone, fun n => startsOver_iff held, ?_, ?_⟩
  · intro s c later contents found afresh sees grows
    have taken := (startsOver_iff held).mpr afresh c rfl
    obtain ⟨heard, answers, all, -⟩ := readEach_follow (g := ⟨0, c⟩) sees (Nat.zero_le _) grows
    refine ⟨Generation.heard ⟨0, c⟩ :: heard, ?_, ?_⟩
    · simp only [readEach_append, readEach, read_of_ok found, taken, answers, List.map_cons]
    · rw [List.flatten_cons, all]
  · intro s c found long
    simp only [readEach_append, readEach, read_of_ok found, take_of_le long]

def brokenOff : Storage := ⟨[(["combat.log"], .file [111, 108, 100, 10, 104, 97])]⟩

def fresh : Text.Bytes := [102, 114, 101, 115, 104, 10, 108, 105, 110, 101, 10]

theorem inUse_brokenOff : InUse "combat.log" ⟨6, [104, 97]⟩ := ⟨0, [brokenOff], by decide +kernel⟩

theorem comes_back_amid : ∃ (t : Tail) (s : Storage), InUse "combat.log" t ∧ s.read "combat.log" = .ok fresh ∧
    ¬ t.StartsOver fresh.length ∧ t.StartsOver 5 ∧
      (t.readEach "combat.log" [{}, s]).1 = [.ok []] ++ [.ok ["haline"]] := by
  have found : (⟨[(["combat.log"], .file fresh)]⟩ : Storage).read "combat.log" = .ok fresh := rfl
  have gone : ∀ s ∈ [({} : Storage)], ∃ cause, s.read "combat.log" = .error cause :=
    List.forall_mem_singleton.mpr ⟨.notFound, rfl⟩
  obtain ⟨u, rfl, -, afresh, -, amid⟩ := comes_back inUse_brokenOff gone
  have lines : heardLines (endedLines ([104, 97] ++ fresh.drop 6)) = ["haline"] := by decide +kernel
  refine ⟨_, _, inUse_brokenOff, found, fun all => ?_, (afresh 5).mpr (.inl (by decide)), ?_⟩
  · have shorter := (afresh fresh.length).mp all
    revert shorter
    decide
  · rw [← lines]
    exact amid _ fresh found (by decide)

/-- A longer log that takes the place of a missing one is not read from its first line. -/
theorem exists_not_from_start : ¬ ∀ (path : String) (t : Tail) (gone found : Storage) (c : Text.Bytes), InUse path t →
    gone.read path = .error .notFound → found.read path = .ok c →
      (t.readEach path [gone, found]).1 = [.ok [], .ok (Generation.heard ⟨0, c⟩)] := by
  intro all
  have gone : ({} : Storage).read "combat.log" = .error .notFound := rfl
  have found : (⟨[(["combat.log"], .file fresh)]⟩ : Storage).read "combat.log" = .ok fresh := rfl
  have answers := all _ _ _ _ _ inUse_brokenOff gone found
  have heard : Generation.heard ⟨0, fresh⟩ = ["fresh", "line"] := by decide +kernel
  have amid : (Tail.take ⟨6, [104, 97]⟩ fresh).1 = ["haline"] := by decide +kernel
  simp only [readEach, read_of_notFound gone, read_of_ok found, heard, amid] at answers
  simp at answers

end Tail

end EncounterTimeline

import EncounterTimeline.Feed.Tail
import Mathlib.Data.List.Chain

/-! # Tails hear every line once

Between two reads a file grows, or it becomes shorter than what was read of it, and then it is a new generation. However
the growth is cut up, the lines that a tail passes on are those that have ended in the last that was seen of each
generation; what has not ended is held back for as long as the generation lasts.
-/
namespace EncounterTimeline

def endedLines (bytes : Text.Bytes) : List Text.Bytes := (bytes.splitOn lineFeed).dropLast

def unended (bytes : Text.Bytes) : Text.Bytes := (bytes.splitOn lineFeed).getLastD []

theorem cutLines_eq (bytes : Text.Bytes) : cutLines bytes = (endedLines bytes, unended bytes) := by
  unfold endedLines unended
  induction bytes with
  | nil => rfl
  | cons byte r ih =>
    have filled : r.splitOn lineFeed ≠ [] := List.splitOn_ne_nil lineFeed r
    rw [cutLines, ih, List.splitOn_cons_eq_if_modifyHead]
    generalize r.splitOn lineFeed = pieces at filled
    cases pieces with
    | nil => exact absurd rfl filled
    | cons piece others =>
      by_cases ends : byte = lineFeed
      · simp [ends]
      · cases others <;> simp [ends]

/-- Cutting may stop anywhere: what has not ended goes before what comes next. -/
theorem cutLines_append (a b : Text.Bytes) : cutLines (a ++ b) =
    ((cutLines a).1 ++ (cutLines ((cutLines a).2 ++ b)).1, (cutLines ((cutLines a).2 ++ b)).2) := by
  induction a with
  | nil => rfl
  | cons byte a ih =>
    simp only [List.cons_append, cutLines, ih]
    by_cases ends : byte = lineFeed
    · simp [ends]
    · cases lines : (cutLines a).1 with
      | nil => simp [ends, cutLines]
      | cons line others => simp [ends]

theorem endedLines_append (a b : Text.Bytes) : endedLines (a ++ b) = endedLines a ++ endedLines (unended a ++ b) := by
  have cut := congrArg Prod.fst (cutLines_append a b)
  simpa only [cutLines_eq] using cut

theorem unended_append (a b : Text.Bytes) : unended (a ++ b) = unended (unended a ++ b) := by
  have cut := congrArg Prod.snd (cutLines_append a b)
  simpa only [cutLines_eq] using cut

theorem heardLines_append (l m : List Text.Bytes) : heardLines (l ++ m) = heardLines l ++ heardLines m := by
  simp [heardLines]

/-- A file from its creation until it is cut short: where the reading of it starts, and the last that was seen of it. -/
structure Generation where
  start : Nat
  seen : Text.Bytes
  deriving DecidableEq

namespace Generation

variable {g : Generation} {c : Text.Bytes} {contents : List Text.Bytes}

def text (g : Generation) : Text.Bytes := g.seen.drop g.start

def heard (g : Generation) : List String := heardLines (endedLines g.text)

def tail (g : Generation) : Tail := ⟨g.seen.length, unended g.text⟩

def follow (g : Generation) : List Text.Bytes → List Generation
  | [] => [g]
  | c :: later => if g.seen <+: c then follow { g with seen := c } later else g :: follow ⟨0, c⟩ later

def ofContents (offset : Nat) : List Text.Bytes → List Generation
  | [] => []
  | c :: later => follow ⟨if c.length < offset then 0 else offset, c⟩ later

def Grows (contents : List Text.Bytes) : Prop :=
  contents.IsChain fun before now => before <+: now ∨ now.length < before.length

theorem follow_of_prefix {later : List Text.Bytes} (goes : g.seen <+: c) :
    g.follow (c :: later) = follow { g with seen := c } later := if_pos goes

theorem follow_of_shorter {later : List Text.Bytes} (short : c.length < g.seen.length) :
    g.follow (c :: later) = g :: follow ⟨0, c⟩ later := if_neg fun goes => Nat.not_lt_of_le goes.length_le short

end Generation

namespace Tail

variable {g : Generation} {c : Text.Bytes} {path : String} {offset : Nat}

open Generation (ofContents Grows)

theorem take_of_le {t : Tail} (within : t.offset ≤ c.length) : t.take c =
    (heardLines (endedLines (t.pending ++ c.drop t.offset)), ⟨c.length, unended (t.pending ++ c.drop t.offset)⟩) := by
  rw [take, rewind, if_neg (Nat.not_lt_of_le within), cutLines_eq]

theorem take_of_shorter {t : Tail} (short : c.length < t.offset) :
    t.take c = (Generation.heard ⟨0, c⟩, Generation.tail ⟨0, c⟩) := by
  rw [take, rewind, if_pos short, cutLines_eq]
  rfl

theorem take_of_prefix (within : g.start ≤ g.seen.length) (goes : g.seen <+: c) :
    g.heard ++ (g.tail.take c).1 = Generation.heard { g with seen := c } ∧
      (g.tail.take c).2 = Generation.tail { g with seen := c } := by
  have longer : g.tail.offset ≤ c.length := goes.length_le
  rw [take_of_le longer]
  obtain ⟨more, rfl⟩ := goes
  have added : (g.seen ++ more).drop g.tail.offset = more := List.drop_left
  have grown : Generation.text { g with seen := g.seen ++ more } = g.text ++ more :=
    List.drop_append_of_le_length within
  have lines : endedLines (g.text ++ more) = endedLines g.text ++ endedLines (g.tail.pending ++ more) :=
    endedLines_append g.text more
  have rest : unended (g.text ++ more) = unended (g.tail.pending ++ more) := unended_append g.text more
  constructor
  · rw [added, Generation.heard, Generation.heard, grown, lines, heardLines_append]
  · rw [added, ← rest, ← grown]
    rfl

theorem take_startingAt (offset : Nat) (c : Text.Bytes) : ∃ start, start ≤ c.length ∧
    (∀ later, ofContents offset (c :: later) = Generation.follow ⟨start, c⟩ later) ∧
      (startingAt offset).take c = (Generation.heard ⟨start, c⟩, Generation.tail ⟨start, c⟩) := by
  by_cases short : c.length < offset
  · refine ⟨0, Nat.zero_le _, fun later => ?_, take_of_shorter short⟩
    rw [ofContents, if_pos short]
  · have within : (startingAt offset).offset ≤ c.length := Nat.le_of_not_lt short
    refine ⟨offset, within, fun later => ?_, take_of_le within⟩
    rw [ofContents, if_neg short]

/-- What the storages have at a path, one after the other; where there is no file nothing is seen. -/
inductive Sees (path : String) : List Storage → List Text.Bytes → Prop
  | none : Sees path [] []
  | file {s : Storage} {c : Text.Bytes} {storages : List Storage} {contents : List Text.Bytes}
      (here : s.read path = .ok c) (later : Sees path storages contents) : Sees path (s :: storages) (c :: contents)
  | missing {s : Storage} {storages : List Storage} {contents : List Text.Bytes}
      (gone : s.read path = .error .notFound) (later : Sees path storages contents) :
      Sees path (s :: storages) contents

def readEach (t : Tail) (path : String) : List Storage → List (Except Fault (List String)) × Tail
  | [] => ([], t)
  | s :: later =>
    let (answer, t) := t.read s path
    let (answers, t) := t.readEach path later
    (answer :: answers, t)

theorem read_of_ok {t : Tail} {s : Storage} (here : s.read path = .ok c) :
    t.read s path = (.ok (t.take c).1, (t.take c).2) := by
  rw [read, here]

theorem read_of_notFound {t : Tail} {s : Storage} (gone : s.read path = .error .notFound) :
    t.read s path = (.ok [], t) := by
  rw [read, gone]

theorem readEach_follow {storages : List Storage} {contents : List Text.Bytes} (sees : Sees path storages contents)
    (within : g.start ≤ g.seen.length) (grows : Grows (g.seen :: contents)) :
    ∃ heard : List (List String), (g.tail.readEach path storages).1 = heard.map .ok ∧
      g.heard ++ heard.flatten = (g.follow contents).flatMap Generation.heard ∧
      (g.follow contents).getLast?.map Generation.tail = some (g.tail.readEach path storages).2 := by
  -- The tail stands at the end of the generation, so what it hears next completes what was heard of it.
  induction sees generalizing g with
  | none => exact ⟨[], rfl, by simp [Generation.follow], rfl⟩
  | missing gone _ ih =>
    obtain ⟨heard, answers, all, last⟩ := ih within grows
    simp only [readEach, read_of_notFound gone]
    exact ⟨[] :: heard, by rw [answers]; rfl, by rw [List.flatten_cons, List.nil_append, all], last⟩
  | @file s c storages contents here _ ih =>
    obtain ⟨step, later⟩ := List.isChain_cons_cons.mp grows
    simp only [readEach, read_of_ok here]
    rcases step with goes | short
    · obtain ⟨own, rest⟩ := take_of_prefix within goes
      obtain ⟨heard, answers, all, last⟩ := @ih { g with seen := c } (Nat.le_trans within goes.length_le) later
      rw [rest, Generation.follow_of_prefix goes]
      refine ⟨(g.tail.take c).1 :: heard, by rw [answers]; rfl, ?_, last⟩
      rw [List.flatten_cons, ← List.append_assoc, own, all]
    · obtain ⟨heard, answers, all, last⟩ := @ih ⟨0, c⟩ (Nat.zero_le _) later
      rw [take_of_shorter short, Generation.follow_of_shorter short]
      refine ⟨Generation.heard ⟨0, c⟩ :: heard, by rw [answers]; rfl, ?_, ?_⟩
      · rw [List.flatten_cons, all, List.flatMap_cons]
      · rw [List.getLast?_cons, Option.map_some]
        cases follow : (Generation.follow ⟨0, c⟩ contents).getLast? with
        | none => simp [follow] at last
        | some h => simpa [follow] using last

theorem readEach_startingAt {storages : List Storage} {contents : List Text.Bytes}
    (sees : Sees path storages contents) (grows : Grows contents) (offset : Nat) :
    ∃ heard : List (List String), ((startingAt offset).readEach path storages).1 = heard.map .ok ∧
      heard.flatten = (ofContents offset contents).flatMap Generation.heard ∧
      ((startingAt offset).readEach path storages).2 =
        ((ofContents offset contents).getLast?.map Generation.tail).getD (startingAt offset) := by
  induction sees with
  | none => exact ⟨[], rfl, rfl, rfl⟩
  | missing gone _ ih =>
    obtain ⟨heard, answers, all, last⟩ := ih grows
    simp only [readEach, read_of_notFound gone]
    exact ⟨[] :: heard, by rw [answers]; rfl, by rw [List.flatten_cons, List.nil_append, all], last⟩
  | @file s c storages contents here later _ =>
    obtain ⟨start, within, follow, taken⟩ := take_startingAt offset c
    obtain ⟨heard, answers, all, last⟩ := readEach_follow (g := ⟨start, c⟩) later within grows
    simp only [readEach, read_of_ok here, taken, follow]
    refine ⟨Generation.heard ⟨start, c⟩ :: heard, by rw [answers]; rfl, ?_, ?_⟩
    · rw [List.flatten_cons, all]
    · rw [last, Option.getD_some]

/-- The reads of a file answer, generation after generation, the lines that have ended in the last that was seen of it,
each once, and hold back what has not ended while the generation lasts. Reads between which the same generations came
about hear the same, wherever the growth was cut up. -/
theorem hears_by_generation {storages : List Storage} {contents : List Text.Bytes}
    (sees : Sees path storages contents) (grows : Grows contents) (offset : Nat) :
    ∃ heard : List (List String), ((startingAt offset).readEach path storages).1 = heard.map .ok ∧
      heard.flatten = (ofContents offset contents).flatMap Generation.heard ∧
      ((startingAt offset).readEach path storages).2 =
        ((ofContents offset contents).getLast?.map Generation.tail).getD (startingAt offset) ∧
      ∀ storages' contents', Sees path storages' contents' → Grows contents' →
        ofContents offset contents' = ofContents offset contents →
        ∃ heard' : List (List String), ((startingAt offset).readEach path storages').1 = heard'.map .ok ∧
          heard'.flatten = heard.flatten ∧
          ((startingAt offset).readEach path storages').2 = ((startingAt offset).readEach path storages).2 := by
  obtain ⟨heard, answers, all, last⟩ := readEach_startingAt sees grows offset
  refine ⟨heard, answers, all, last, fun storages' contents' sees' grows' same => ?_⟩
  obtain ⟨heard', answers', all', last'⟩ := readEach_startingAt sees' grows' offset
  rw [same] at all' last'
  exact ⟨heard', answers', all'.trans all.symm, last'.trans last.symm⟩

/-- A line cut inside a character and before its line feed, then a shorter file. -/
theorem hears_by_generation_cut : ∃ storages contents heard, Sees "combat.log" storages contents ∧ Grows contents ∧
    ((startingAt 2).readEach "combat.log" storages).1 = List.map .ok heard ∧ heard.flatten = ["é", "b"] := by
  have holding (bytes : Text.Bytes) : Storage.read ⟨[(["combat.log"], .file bytes)]⟩ "combat.log" = .ok bytes := rfl
  have sees : Sees "combat.log" [⟨[(["combat.log"], .file [65, 10, 0xC3])]⟩,
      ⟨[(["combat.log"], .file [65, 10, 0xC3, 0xA9, 13])]⟩, {},
      ⟨[(["combat.log"], .file [65, 10, 0xC3, 0xA9, 13, 10, 10, 97])]⟩, ⟨[(["combat.log"], .file [98, 10])]⟩]
      [[65, 10, 0xC3], [65, 10, 0xC3, 0xA9, 13], [65, 10, 0xC3, 0xA9, 13, 10, 10, 97], [98, 10]] :=
    .file (holding _) <| .file (holding _) <| .missing rfl <| .file (holding _) <| .file (holding _) .none
  have grows : Grows [[65, 10, 0xC3], [65, 10, 0xC3, 0xA9, 13], [65, 10, 0xC3, 0xA9, 13, 10, 10, 97], [98, 10]] := by
    unfold Grows
    decide
  obtain ⟨heard, answers, all, -⟩ := hears_by_generation sees grows 2
  have lines : (ofContents 2 [[65, 10, 0xC3], [65, 10, 0xC3, 0xA9, 13], [65, 10, 0xC3, 0xA9, 13, 10, 10, 97],
      [98, 10]]).flatMap Generation.heard = ["é", "b"] := by
    decide +kernel
  exact ⟨_, _, heard, sees, grows, answers, all.trans lines⟩

end Tail

end EncounterTimeline

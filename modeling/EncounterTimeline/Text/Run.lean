/-! # Runs of characters

A run is the longest start of a text in a class of characters. Cutting it off never makes the rest longer, and
makes it shorter when the run is not empty.
-/
namespace EncounterTimeline.Text

theorem length_dropWhile_le (p : Char → Bool) (cs : List Char) :
    (cs.dropWhile p).length ≤ cs.length := by
  induction cs with
  | nil => simp
  | cons c r ih =>
    rw [List.dropWhile_cons]
    split
    · exact Nat.le_succ_of_le ih
    · exact Nat.le_refl _

theorem length_dropWhile_of_takeWhile {p : Char → Bool} {cs : List Char} (h : cs.takeWhile p ≠ []) :
    (cs.dropWhile p).length < cs.length := by
  cases cs with
  | nil => simp at h
  | cons c r =>
    rw [List.dropWhile_cons]
    split
    · exact Nat.lt_succ_of_le (length_dropWhile_le p r)
    · rename_i hc
      simp [hc] at h

end EncounterTimeline.Text

import EncounterTimeline.Text.Blank
import Mathlib.Data.List.TakeWhile

/-! # Cutting text

A run of characters of a class ends before the first character outside of it, and trimming takes a text of such characters
away or leaves a text without them as it is.
-/
namespace EncounterTimeline.Text

variable {p : Char → Bool} {cs : List Char} {c : Char}

theorem takeWhile_stop (c : Char) (rest : List Char) (h : ∀ x ∈ cs, p x = true) (stop : p c = false) :
    (cs ++ c :: rest).takeWhile p = cs := by
  rw [List.takeWhile_append_of_pos h, List.takeWhile_cons_of_neg (by simp [stop]), List.append_nil]

theorem dropWhile_stop (c : Char) (rest : List Char) (h : ∀ x ∈ cs, p x = true) (stop : p c = false) :
    (cs ++ c :: rest).dropWhile p = c :: rest := by
  rw [List.dropWhile_append_of_pos h, List.dropWhile_cons_of_neg (by simp [stop])]

theorem trimBoth_of_all (h : ∀ x ∈ cs, p x = true) : trimBoth p cs = [] := by
  rw [trimBoth, List.dropWhile_eq_nil_iff.mpr h]
  rfl

theorem trimBoth_of_none (h : ∀ x ∈ cs, p x = false) : trimBoth p cs = cs := by
  have front {cs : List Char} (h : ∀ x ∈ cs, p x = false) : cs.dropWhile p = cs := by
    cases cs with
    | nil => rfl
    | cons c cs => exact List.dropWhile_cons_of_neg (by simp [h c List.mem_cons_self])
  rw [trimBoth, front h, front (fun c mem => h c (List.mem_reverse.mp mem)), List.reverse_reverse]

theorem exists_trimBoth (p : Char → Bool) (cs : List Char) :
    ∃ front back, (∀ x ∈ front, p x = true) ∧ (∀ x ∈ back, p x = true) ∧ cs = front ++ trimBoth p cs ++ back := by
  refine ⟨cs.takeWhile p, ((cs.dropWhile p).reverse.takeWhile p).reverse, fun x mem => List.mem_takeWhile_imp mem,
    fun x mem => List.mem_takeWhile_imp (List.mem_reverse.mp mem), ?_⟩
  rw [trimBoth, List.append_assoc, ← List.reverse_append, List.takeWhile_append_dropWhile, List.reverse_reverse,
    List.takeWhile_append_dropWhile]

theorem trimBoth_between {front back : List Char} (before : ∀ x ∈ front, p x = true) (plain : ∀ x ∈ cs, p x = false)
    (after : ∀ x ∈ back, p x = true) : trimBoth p (front ++ cs ++ back) = cs := by
  cases cs with
  | nil =>
    refine trimBoth_of_all fun x mem => ?_
    rw [List.append_nil] at mem
    exact (List.mem_append.mp mem).elim (before x) (after x)
  | cons c cs =>
    have first : p c = false := plain c List.mem_cons_self
    have whole : trimBoth p (c :: cs) = c :: cs := trimBoth_of_none plain
    rw [trimBoth, List.dropWhile_cons_of_neg (by simp [first])] at whole
    rw [trimBoth, List.append_assoc, List.cons_append, dropWhile_stop c (cs ++ back) before first, ← List.cons_append,
      List.reverse_append, List.dropWhile_append_of_pos fun x mem => after x (List.mem_reverse.mp mem), whole]

theorem trim_of_none {s : String} (h : ∀ x ∈ s.toList, isBlank x = false) : trim s = s := by
  rw [trim, trimBoth_of_none h, String.ofList_toList]

theorem not_isBlank_of_isDigit (h : c.isDigit) : isBlank c = false := by
  obtain ⟨low, high⟩ := Char.isDigit_iff_toNat.mp h
  simp only [Char.reduceToNat] at low high
  simp [isBlank]
  omega

end EncounterTimeline.Text

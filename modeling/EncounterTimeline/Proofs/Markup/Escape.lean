import EncounterTimeline.Markup.Entity
import EncounterTimeline.Markup.Lexeme
import EncounterTimeline.Proofs.Text.Cutting

/-! # Escaped text

Reading undoes writing character by character. What is written has neither angle brackets nor quotes in it, and blanks
are written as they are, so trimming commutes with writing.
-/
namespace EncounterTimeline

namespace Markup

def isNamed (c : Char) : Bool := c == '&' || c == '<' || c == '>' || c == '\'' || c == '"'

theorem escapeChar_of_not_named {c : Char} (h : isNamed c = false) : escapeChar c = [c] := by
  simp only [isNamed, Bool.or_eq_false_iff, beq_eq_false_iff_ne] at h
  obtain ⟨⟨⟨⟨amp, lt⟩, gt⟩, apos⟩, quot⟩ := h
  simp only [escapeChar, entityNames, List.lookup_cons, List.lookup_nil, beq_false_of_ne amp, beq_false_of_ne lt,
    beq_false_of_ne gt, beq_false_of_ne apos, beq_false_of_ne quot]

theorem isNamed_cases {c : Char} (h : isNamed c = true) : c = '&' ∨ c = '<' ∨ c = '>' ∨ c = '\'' ∨ c = '"' := by
  simpa [isNamed, or_assoc] using h

theorem unescapeFrom_escapeChar (c : Char) (rest : List Char) :
    unescapeFrom none (escapeChar c ++ rest) = (unescapeFrom none rest).map (c :: ·) := by
  cases named : isNamed c with
  | false =>
    have plain : (c == '&') = false := by
      simp only [isNamed, Bool.or_eq_false_iff] at named
      exact named.1.1.1.1
    rw [escapeChar_of_not_named named]
    simp [unescapeFrom, plain]
  | true => rcases isNamed_cases named with rfl | rfl | rfl | rfl | rfl <;> rfl

theorem unescape_escape (cs : List Char) : unescape (escape cs) = some cs := by
  unfold unescape
  induction cs with
  | nil => rfl
  | cons c cs ih =>
    rw [escape, List.flatMap_cons, unescapeFrom_escapeChar]
    exact congrArg (Option.map (c :: ·)) ih

/-- What is written contains no character that delimits. -/
theorem not_delimiter_of_mem_escape {c : Char} {cs : List Char} (h : c ∈ escape cs) :
    c ≠ '<' ∧ c ≠ '>' ∧ c ≠ '\'' ∧ c ≠ '"' := by
  obtain ⟨x, -, hx⟩ := List.mem_flatMap.mp h
  cases named : isNamed x with
  | false =>
    rw [escapeChar_of_not_named named, List.mem_singleton] at hx
    subst hx
    simp only [isNamed, Bool.or_eq_false_iff, beq_eq_false_iff_ne] at named
    exact ⟨named.1.1.1.2, named.1.1.2, named.1.2, named.2⟩
  | true =>
    have plain : ((escapeChar x).all fun c => !(c == '<' || c == '>' || c == '\'' || c == '"')) = true := by
      rcases isNamed_cases named with rfl | rfl | rfl | rfl | rfl <;> rfl
    simpa [and_assoc] using List.all_eq_true.mp plain c hx

theorem escapeChar_of_isSpace {c : Char} (h : isSpace c = true) : escapeChar c = [c] := by
  apply escapeChar_of_not_named
  simp only [isSpace, Bool.or_eq_true, beq_iff_eq] at h
  rcases h with ((rfl | rfl) | rfl) | rfl <;> decide

/-- What is written for a character that is no blank begins and ends with none. -/
theorem escapeChar_ends {c : Char} (h : isSpace c = false) :
    (∃ x rest, isSpace x = false ∧ escapeChar c = x :: rest) ∧
      ∃ x rest, isSpace x = false ∧ (escapeChar c).reverse = x :: rest := by
  cases named : isNamed c with
  | false =>
    rw [escapeChar_of_not_named named]
    exact ⟨⟨c, [], h, rfl⟩, ⟨c, [], h, rfl⟩⟩
  | true =>
    rcases isNamed_cases named with rfl | rfl | rfl | rfl | rfl <;>
      exact ⟨⟨_, _, rfl, rfl⟩, ⟨_, _, rfl, rfl⟩⟩

theorem dropWhile_flatMap {p : Char → Bool} {f : Char → List Char} (keeps : ∀ c, p c = true → f c = [c])
    (stops : ∀ c, p c = false → ∃ x rest, p x = false ∧ f c = x :: rest) (cs : List Char) :
    (cs.flatMap f).dropWhile p = (cs.dropWhile p).flatMap f := by
  induction cs with
  | nil => rfl
  | cons c cs ih =>
    rw [List.flatMap_cons]
    cases h : p c with
    | true => rw [keeps c h, List.dropWhile_cons_of_pos h, List.singleton_append, List.dropWhile_cons_of_pos h, ih]
    | false =>
      obtain ⟨x, rest, hx, hc⟩ := stops c h
      have stop : (f c ++ cs.flatMap f).dropWhile p = f c ++ cs.flatMap f := by
        rw [hc, List.cons_append, List.dropWhile_cons_of_neg (by simp [hx])]
      rw [stop, List.dropWhile_cons_of_neg (by simp [h]), List.flatMap_cons]

theorem trimBoth_escape (cs : List Char) :
    Text.trimBoth isSpace (escape cs) = escape (Text.trimBoth isSpace cs) := by
  have front (cs : List Char) : (escape cs).dropWhile isSpace = escape (cs.dropWhile isSpace) :=
    dropWhile_flatMap (fun _ => escapeChar_of_isSpace) (fun _ h => (escapeChar_ends h).1) cs
  have back (cs : List Char) :
      (cs.flatMap fun c => (escapeChar c).reverse).dropWhile isSpace =
        (cs.dropWhile isSpace).flatMap fun c => (escapeChar c).reverse := by
    refine dropWhile_flatMap (fun c h => ?_) (fun c h => (escapeChar_ends h).2) cs
    rw [escapeChar_of_isSpace h]
    rfl
  have turned (cs : List Char) : (escape cs).reverse = cs.reverse.flatMap fun c => (escapeChar c).reverse :=
    List.reverse_flatMap ..
  rw [Text.trimBoth, Text.trimBoth, front, turned, back, List.reverse_flatMap]
  simp [Function.comp_def, escape]

end Markup

end EncounterTimeline

import EncounterTimeline.Markup.Event
import EncounterTimeline.Proofs.Markup.Tags

/-! # Where a text is cut

A piece of markup ends where it ends, whatever follows it. So the lexemes of a text in which every piece ends do not depend
on the markup behind it, and neither do its events; and every piece of a text stands behind such a text.
-/
namespace EncounterTimeline.Markup

variable {closes : List Char → Bool} {quote : Option Char} {before cs body rest run front : List Char} {x : Lexeme}

theorem upTo_append (h : upTo closes before cs = some (body, rest)) (more : List Char) :
    upTo closes before (cs ++ more) = some (body, rest ++ more) := by
  induction cs generalizing before with
  | nil => cases h
  | cons c cs ih =>
    rw [upTo] at h
    rw [List.cons_append, upTo]
    split at h
    · rename_i closed
      cases h
      rw [if_pos closed]
    · rename_i goesOn
      rw [if_neg goesOn, ih h]

theorem upToUnquoted_append (h : upToUnquoted quote cs = some (body, rest)) (more : List Char) :
    upToUnquoted quote (cs ++ more) = some (body, rest ++ more) := by
  induction cs generalizing quote body with
  | nil => cases h
  | cons c cs ih =>
    rw [upToUnquoted] at h
    rw [List.cons_append, upToUnquoted]
    split at h
    · rename_i closed
      cases h
      rw [if_pos closed]
    · rename_i goesOn
      obtain ⟨⟨inner, rest'⟩, found, same⟩ := Option.map_eq_some_iff.mp h
      cases same
      rw [if_neg goesOn, ih found, Option.map_some]

theorem piece_append {read : List Char → Option Lexeme} {split split' : Option (List Char × List Char)} {more : List Char}
    (ends : ∀ body rest, split = some (body, rest) → split' = some (body, rest ++ more))
    (h : piece read split = some (x, rest)) : piece read split' = some (x, rest ++ more) := by
  obtain ⟨⟨body, rest'⟩, found, h⟩ := Option.bind_eq_some_iff.mp h
  obtain ⟨y, shown, same⟩ := Option.map_eq_some_iff.mp h
  cases same
  rw [piece, ends _ _ found]
  exact congrArg (Option.map (·, rest ++ more)) shown

/-- A tag begins with no mark of another kind of markup. -/
theorem markup_eq_tag {c : Char} (first : c ≠ '!' ∧ c ≠ '?' ∧ c ≠ '/') :
    markup (c :: cs) = piece (some ∘ tag) (upToUnquoted none (c :: cs)) := by
  unfold markup
  split <;> simp_all

/-- A piece of markup ends where it ends, whatever follows. -/
theorem markup_append (h : markup cs = some (x, rest)) (more : List Char) :
    markup (cs ++ more) = some (x, rest ++ more) := by
  have marked {closes : List Char → Bool} (cs body rest : List Char) (found : upTo closes [] cs = some (body, rest)) :=
    upTo_append found more
  have unquoted (cs body rest : List Char) (found : upToUnquoted none cs = some (body, rest)) :=
    upToUnquoted_append found more
  unfold markup at h
  split at h
  · cases h
  · exact piece_append (marked _) h
  · exact piece_append (marked _) h
  · split at h
    · rename_i doctype
      rcases Bool.or_eq_true_iff.mp doctype with mark | mark <;> rw [beq_iff_eq.mp mark] at h ⊢ <;>
        exact piece_append (marked _) h
    · cases h
  · cases h
  · exact piece_append (marked _) h
  · exact piece_append (unquoted _) h
  · rename_i filled noVerbatim noComment noDoctype noMark noInstruction noClose
    cases cs with
    | nil => exact absurd rfl filled
    | cons c cs =>
      have first : c ≠ '!' ∧ c ≠ '?' ∧ c ≠ '/' := by
        refine ⟨?_, ?_, ?_⟩
        · rintro rfl
          cases cs with
          | nil => exact noMark rfl
          | cons c cs => exact noDoctype c cs rfl
        · rintro rfl
          exact noInstruction cs rfl
        · rintro rfl
          exact noClose cs rfl
      rw [List.cons_append, markup_eq_tag first]
      exact piece_append (unquoted _) h

/-- Every piece of markup in the text ends, so that the next one begins where the text ends. -/
def Cleared (cs : List Char) : Prop := .malformed ∉ lexemes (dropMark cs)

/-- The lexemes of a text in which every piece ends are those of a longer text too, and its other lexemes come after. -/
theorem lexemes_append {front : List Char} (ends : .malformed ∉ lexemes front) (more : List Char) :
    lexemes (front ++ '<' :: more) = lexemes front ++ lexemes ('<' :: more) := by
  have bare : lexemes ('<' :: more) = _ := lexemes_cut (show '<' ∉ [] from List.not_mem_nil) more
  by_cases plain : '<' ∈ front
  · obtain ⟨run, r, parts, before⟩ := List.eq_append_cons_of_mem plain
    rw [parts, lexemes_cut before] at ends ⊢
    cases piece : markup r with
    | none => simp [piece] at ends
    | some p =>
      obtain ⟨x, rest⟩ := p
      simp only [piece, List.mem_append, List.mem_cons, not_or] at ends
      have shorter : rest.length < front.length := by
        have inner := length_markup piece
        rw [parts, List.length_append, List.length_cons]
        omega
      have later := lexemes_append ends.2.2 more
      rw [List.append_assoc, List.cons_append, lexemes_markup before (markup_append piece _), later, List.append_assoc,
        List.cons_append]
  · rw [lexemes_cut plain, lexemes_plain plain, bare]
    rfl
termination_by front.length

theorem Cleared.lexemes (h : Cleared front) (more : List Char) :
    lexemes (dropMark (front ++ '<' :: more)) = lexemes (dropMark front) ++ lexemes ('<' :: more) := by
  have marked : dropMark (front ++ '<' :: more) = dropMark front ++ '<' :: more := by
    cases front with
    | nil => rfl
    | cons c front =>
      rw [List.cons_append, dropMark, dropMark]
      split <;> rfl
  rw [marked, lexemes_append h]

/-- After some lexemes there are tags left open for those behind them, unless something malformed has ended the events. -/
theorem eventsFrom_append (opened : List (List Char)) (xs : List Lexeme) :
    (∃ left, ∀ ys, eventsFrom opened (xs ++ ys) = eventsFrom opened xs ++ eventsFrom left ys) ∨
      ∃ es, ∀ ys, eventsFrom opened (xs ++ ys) = es ++ [.malformed] := by
  induction xs generalizing opened with
  | nil => exact .inl ⟨opened, fun ys => rfl⟩
  | cons x xs ih =>
    have shown (es : List Event) {opened' : List (List Char)}
        (h : ∀ ys, eventsFrom opened (x :: (xs ++ ys)) = es ++ eventsFrom opened' (xs ++ ys)) :
        (∃ left, ∀ ys, eventsFrom opened (x :: xs ++ ys) = eventsFrom opened (x :: xs) ++ eventsFrom left ys) ∨
          ∃ es, ∀ ys, eventsFrom opened (x :: xs ++ ys) = es ++ [.malformed] := by
      have own := h []
      rw [List.append_nil] at own
      rcases ih opened' with ⟨left, goesOn⟩ | ⟨es', ended⟩
      · exact .inl ⟨left, fun ys => by rw [List.cons_append, h, goesOn, own, List.append_assoc]⟩
      · exact .inr ⟨es ++ es', fun ys => by rw [List.cons_append, h, ended, List.append_assoc]⟩
    cases x with
    | text raw => exact shown [.text raw] fun _ => rfl
    | verbatim content => exact shown [.verbatim content] fun _ => rfl
    | remark => exact shown [] fun _ => rfl
    | openTag body => exact shown [.enter (Tag.ofBody body)] fun _ => rfl
    | emptyTag body => exact shown [.single (Tag.ofBody body)] fun _ => rfl
    | malformed => exact .inr ⟨[], fun _ => rfl⟩
    | closeTag content =>
      cases opened with
      | nil => exact .inr ⟨[], fun _ => rfl⟩
      | cons name others =>
        by_cases closes : closedName content = name
        · exact shown [.leave name] fun _ => by rw [eventsFrom, if_pos closes]; rfl
        · exact .inr ⟨[], fun _ => by rw [List.cons_append, eventsFrom, if_neg closes]; rfl⟩

structure Leaves (front : List Char) (es : List Event) (left : List (List Char)) : Prop where
  cleared : Cleared front
  goesOn : ∀ ys, eventsFrom [] (lexemes (dropMark front) ++ ys) = es ++ eventsFrom left ys

variable {es : List Event} {left : List (List Char)}

theorem Leaves.events_front (h : Leaves front es left) : events front = es := by
  have own := h.goesOn []
  rwa [List.append_nil, eventsFrom, List.append_nil] at own

theorem Leaves.events (h : Leaves front es left) (more : List Char) :
    events (front ++ '<' :: more) = es ++ eventsFrom left (lexemes ('<' :: more)) := by
  rw [Markup.events, h.cleared.lexemes, h.goesOn]

theorem Cleared.leaves (h : Cleared front) : (∃ left, Leaves front (events front) left) ∨
    ∃ es, events front = es ++ [.malformed] ∧ ∀ more, events (front ++ '<' :: more) = es ++ [.malformed] := by
  rcases eventsFrom_append [] (Markup.lexemes (dropMark front)) with ⟨left, goesOn⟩ | ⟨es, ended⟩
  · exact .inl ⟨left, h, goesOn⟩
  · have own := ended []
    rw [List.append_nil] at own
    exact .inr ⟨es, own, fun more => by rw [Markup.events, h.lexemes, ended]⟩

end EncounterTimeline.Markup

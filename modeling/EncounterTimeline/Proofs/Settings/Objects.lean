import EncounterTimeline.Proofs.Settings.Numbers

/-! # Objects of a settings file

The text of an object with one member a line and values of one token each: it is cut into the tokens of its members, and
these are read as the object.
-/
namespace EncounterTimeline

namespace SettingsFile

variable {cs r rest : List Char} {c : Char} {t : Token} {v : Value}

theorem tokens_eq (cs : List Char) : tokens cs = match cs.dropWhile isGap with
    | [] => some []
    | c :: r => (readToken c r).bind fun p => (tokens p.2).map (p.1 :: ·) := by
  rw [tokens]
  split
  · rename_i none
    rw [none]
  · rename_i c r some
    rw [some]
    split
    · rename_i none
      simp only [none, Option.bind_none]
    · rename_i t rest read
      simp only [read, Option.bind_some]

theorem tokens_gap (gap : isGap c = true) : tokens (c :: cs) = tokens cs := by
  rw [tokens_eq, tokens_eq cs, List.dropWhile_cons_of_pos gap]

theorem tokens_cons (apart : isGap c = false) (read : readToken c r = some (t, rest)) :
    tokens (c :: r) = (tokens rest).map (t :: ·) := by
  rw [tokens_eq, List.dropWhile_cons_of_neg (by simp [apart])]
  simp only [read, Option.bind_some]

def Value.token : Value → Token
  | .null => .null
  | .truth b => .truth b
  | .number negative integral n => .number negative integral n
  | .quoted raw => .quoted raw
  | .list _ => .openList
  | .object _ => .openObject

/-- The text is a value of one token, wherever it stands before a character that ends a number. -/
structure Prints (cs : List Char) (v : Value) : Prop where
  cut : ∀ c rest, Stops c → tokens (cs ++ c :: rest) = (tokens (c :: rest)).map (v.token :: ·)
  single : ∀ n ts, readValue (n + 1) (v.token :: ts) = some (v, ts)

theorem afterWord_append (word : String) (rest : List Char) : afterWord word (word.toList ++ rest) = some rest := by
  rw [afterWord, if_pos (by simp), ← String.length_toList, List.drop_left]

theorem prints_null : Prints "null".toList .null := by
  refine ⟨fun c rest _ => ?_, fun _ _ => rfl⟩
  exact tokens_cons rfl (congrArg (Option.map (Token.null, ·)) (afterWord_append "ull" (c :: rest)))

theorem prints_truth (b : Bool) : Prints (if b then "true" else "false").toList (.truth b) := by
  refine ⟨fun c rest _ => ?_, fun _ _ => rfl⟩
  cases b with
  | true => exact tokens_cons rfl (congrArg (Option.map (Token.truth true, ·)) (afterWord_append "rue" (c :: rest)))
  | false => exact tokens_cons rfl (congrArg (Option.map (Token.truth false, ·)) (afterWord_append "alse" (c :: rest)))

theorem readToken_digit (digit : c.isDigit) : readToken c r = readNumber false (c :: r) := by
  unfold readToken
  split <;> first | rfl | cases digit

theorem isGap_of_isDigit (digit : c.isDigit) : isGap c = false := by
  refine Bool.eq_false_iff.mpr fun gap => ?_
  simp only [isGap, Bool.or_eq_true, beq_iff_eq] at gap
  rcases gap with ((rfl | rfl) | rfl) | rfl <;> cases digit

variable {n : Decimal.Numeral} {integral : Bool}

theorem prints_number (tells : Tells cs integral n) : Prints cs (.number false integral n) := by
  obtain ⟨d, r, rfl, digit⟩ := tells.head
  refine ⟨fun c rest stop => ?_, fun _ _ => rfl⟩
  exact tokens_cons (isGap_of_isDigit digit) ((readToken_digit digit).trans (tells false c rest stop))

theorem prints_minus (tells : Tells cs integral n) : Prints ('-' :: cs) (.number true integral n) :=
  ⟨fun c rest stop => tokens_cons rfl (tells true c rest stop), fun _ _ => rfl⟩

def Value.ofCount (n : ℕ) : Value := .number false true ⟨(toString n).toList, [], 0⟩

theorem prints_count (n : ℕ) : Prints (toString n).toList (.ofCount n) :=
  prints_number (tells_count n)

def Unescaped (name : List Char) : Prop := ∀ c ∈ name, c ≠ '"' ∧ Awaiting.plain.next c = some .plain

theorem readQuoted_unescaped {name : List Char} (h : Unescaped name) (rest : List Char) :
    readQuoted .plain (name ++ '"' :: rest) = some (name, rest) := by
  induction name with
  | nil => rfl
  | cons c name ih =>
    obtain ⟨other, next⟩ := h c List.mem_cons_self
    have goesOn : (c == '"' && Awaiting.plain == Awaiting.plain) = false := by simp [other]
    rw [List.cons_append, readQuoted, if_neg (by simp [other]), next, Option.bind_some,
      ih fun x mem => h x (List.mem_cons_of_mem _ mem), Option.map_some]

section Lines

variable {α : Type} {name text : α → List Char} {value : α → Value} {k : α} {ks : List α}

def lines (name text : α → List Char) : List α → List Char
  | [] => ['\n', '}']
  | [k] => ' ' :: ' ' :: '"' :: (name k ++ '"' :: ':' :: ' ' :: (text k ++ ['\n', '}']))
  | k :: ks => ' ' :: ' ' :: '"' :: (name k ++ '"' :: ':' :: ' ' :: (text k ++ ',' :: '\n' :: lines name text ks))

def lineTokens (name : α → List Char) (value : α → Value) : List α → List Token
  | [] => [.closeObject]
  | [k] => [.quoted (name k), .colon, (value k).token, .closeObject]
  | k :: ks => .quoted (name k) :: .colon :: (value k).token :: .comma :: lineTokens name value ks

theorem tokens_member (plain : Unescaped (name k)) (rest : List Char) :
    tokens (' ' :: ' ' :: '"' :: (name k ++ '"' :: ':' :: ' ' :: rest)) =
      (tokens rest).map fun ts => .quoted (name k) :: .colon :: ts := by
  have quoted : readToken '"' (name k ++ '"' :: ':' :: ' ' :: rest) = some (.quoted (name k), ':' :: ' ' :: rest) := by
    have unfolded : readToken '"' (name k ++ '"' :: ':' :: ' ' :: rest) =
      (readQuoted .plain (name k ++ '"' :: ':' :: ' ' :: rest)).map fun p => (.quoted p.1, p.2) := rfl
    rw [unfolded, readQuoted_unescaped plain, Option.map_some]
  rw [tokens_gap rfl, tokens_gap rfl, tokens_cons rfl quoted, tokens_cons rfl (t := .colon) rfl, tokens_gap rfl,
    Option.map_map]
  rfl

theorem tokens_close : tokens ['\n', '}'] = some [.closeObject] := by
  rw [tokens_gap rfl, tokens_cons rfl (t := .closeObject) rfl, tokens_eq]
  rfl

theorem tokens_lines (plain : ∀ k ∈ ks, Unescaped (name k)) (prints : ∀ k ∈ ks, Prints (text k) (value k)) :
    tokens (lines name text ks) = some (lineTokens name value ks) := by
  induction ks with
  | nil => exact tokens_close
  | cons k ks ih =>
    have here := (prints k List.mem_cons_self).cut
    have member := tokens_member (plain k List.mem_cons_self)
    -- A comma ends every line but the last, as a line feed does there.
    cases ks with
    | nil =>
      rw [lines, member, here _ _ stops_newline, tokens_close]
      rfl
    | cons k' ks =>
      have rest := ih (fun x mem => plain x (List.mem_cons_of_mem _ mem)) fun x mem => prints x (List.mem_cons_of_mem _ mem)
      rw [lines, member, here _ _ stops_comma, tokens_cons rfl (t := .comma) rfl, tokens_gap rfl, rest]
      · rfl
      · simp

theorem readMembers_lineTokens (prints : ∀ k ∈ ks, Prints (text k) (value k)) (filled : ks ≠ []) {n : ℕ}
    (fuel : ks.length < n) :
    readMembers n (lineTokens name value ks) = some (ks.map fun k => (name k, value k), []) := by
  induction ks generalizing n with
  | nil => exact absurd rfl filled
  | cons k ks ih =>
    obtain ⟨n, rfl⟩ : ∃ m, n = m + 2 := ⟨n - 2, by simp only [List.length_cons] at fuel; omega⟩
    have here := (prints k List.mem_cons_self).single n
    cases ks with
    | nil =>
      rw [lineTokens, readMembers, here]
      rfl
    | cons k' ks =>
      have rest := ih (fun x mem => prints x (List.mem_cons_of_mem _ mem)) (by simp) (n := n + 1) (by simpa using fuel)
      rw [lineTokens, readMembers, here]
      · simp only [rest]
        rfl
      · simp

theorem length_lineTokens (name : α → List Char) (value : α → Value) (ks : List α) :
    ks.length < (lineTokens name value ks).length := by
  induction ks with
  | nil => simp [lineTokens]
  | cons k ks ih =>
    cases ks with
    | nil => simp [lineTokens]
    | cons k' ks =>
      rw [lineTokens]
      · simp only [List.length_cons] at ih ⊢
        omega
      · simp

/-- An object with a member a line is read as that object. -/
theorem parse_lines (plain : ∀ k ∈ ks, Unescaped (name k)) (prints : ∀ k ∈ ks, Prints (text k) (value k))
    (filled : ks ≠ []) :
    parse ('{' :: '\n' :: lines name text ks) = some (.object (ks.map fun k => (name k, value k))) := by
  have cut : tokens ('{' :: '\n' :: lines name text ks) = some (.openObject :: lineTokens name value ks) := by
    rw [tokens_cons rfl (t := .openObject) rfl, tokens_gap rfl, tokens_lines plain prints, Option.map_some]
  have fuel := Nat.lt_succ_of_lt (length_lineTokens name value ks)
  have members : readMembers _ (lineTokens name value ks) = _ := readMembers_lineTokens prints filled fuel
  obtain ⟨ts, shape⟩ : ∃ ts, lineTokens name value ks = .quoted (name (ks.head filled)) :: ts := by
    cases ks with
    | nil => exact absurd rfl filled
    | cons k ks => cases ks <;> exact ⟨_, rfl⟩
  rw [shape] at cut members
  rw [parse, cut, Option.bind_some, List.length_cons, readValue, members]
  · rfl
  · simp

end Lines

end SettingsFile

end EncounterTimeline

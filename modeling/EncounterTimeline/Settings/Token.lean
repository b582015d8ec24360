import EncounterTimeline.Decimal.Numeral
import EncounterTimeline.Markup.Entity
import EncounterTimeline.Text.Run

/-! # Tokens of a settings file

A settings file is JSON text. Here it is cut into tokens: punctuation, words, numbers and quoted strings. Strings
are kept as they are written, since most of them are never looked at.
-/
namespace EncounterTimeline.SettingsFile

inductive Token where
  | openObject | closeObject | openList | closeList | comma | colon
  | null
  | truth (b : Bool)
  | number (negative integral : Bool) (n : Decimal.Numeral)
  | quoted (raw : List Char)
  deriving DecidableEq, Repr

def isGap (c : Char) : Bool := c == ' ' || c == '\n' || c == '\t' || c == '\r'

inductive Awaiting where
  | plain
  | escape
  | hex (digits : Nat)
  deriving DecidableEq, Repr

def escapeLetters : List (Char × Char) :=
  [('"', '"'), ('\\', '\\'), ('/', '/'), ('b', '\x08'), ('f', '\x0c'), ('n', '\n'), ('r', '\r'), ('t', '\t')]

def Awaiting.next (a : Awaiting) (c : Char) : Option Awaiting :=
  match a with
  | .plain => if c == '\\' then some .escape else if c.toNat < 0x20 then none else some .plain
  | .escape =>
    if c == 'u' then some (.hex 4) else if (escapeLetters.lookup c).isSome then some .plain else none
  | .hex n =>
    if (Markup.hexValue? c).isSome then some (if n ≤ 1 then .plain else .hex (n - 1)) else none

def readQuoted (a : Awaiting) : List Char → Option (List Char × List Char)
  | [] => none
  | c :: r =>
    if c == '"' && a == .plain then some ([], r)
    else
      (a.next c).bind fun a => (readQuoted a r).map fun (body, rest) => (c :: body, rest)

theorem length_readQuoted {a : Awaiting} {cs body rest : List Char}
    (h : readQuoted a cs = some (body, rest)) : rest.length < cs.length := by
  induction cs generalizing a body with
  | nil => simp [readQuoted] at h
  | cons c r ih =>
    unfold readQuoted at h
    split at h
    · simp only [Option.some.injEq, Prod.mk.injEq] at h
      simp [← h.2]
    · simp only [Option.bind_eq_some_iff, Option.map_eq_some_iff, Prod.mk.injEq] at h
      obtain ⟨b, _, p, hp, _, hrest⟩ := h
      have : rest.length < r.length := ih (by rw [hp, ← hrest])
      exact Nat.lt_succ_of_lt this

/-- Digits of a whole part: at least one, and no zero before others. -/
def wholeDigits (ds : List Char) : Bool :=
  match ds with
  | [] => false
  | '0' :: r => r.isEmpty
  | _ => true

def exponentSign : List Char → Bool × List Char
  | '-' :: r => (true, r)
  | '+' :: r => (false, r)
  | r => (false, r)

def readExponentPart (cs : List Char) : Option (Option Int × List Char) :=
  match cs with
  | [] => some (none, [])
  | c :: r =>
    if c == 'e' || c == 'E' then
      let (negative, r) := exponentSign r
      let digits := r.takeWhile Char.isDigit
      if digits.isEmpty then none
      else
        let n : Int := Decimal.digitsValue digits
        some (some (if negative then -n else n), r.dropWhile Char.isDigit)
    else some (none, cs)

def readFractionPart (cs : List Char) : Option (List Char × List Char) :=
  match cs with
  | '.' :: r =>
    let digits := r.takeWhile Char.isDigit
    if digits.isEmpty then none else some (digits, r.dropWhile Char.isDigit)
  | _ => some ([], cs)

def readNumber (negative : Bool) (cs : List Char) : Option (Token × List Char) :=
  let whole := cs.takeWhile Char.isDigit
  if wholeDigits whole then
    (readFractionPart (cs.dropWhile Char.isDigit)).bind fun (fraction, afterFraction) =>
      (readExponentPart afterFraction).map fun (exponent, rest) =>
        (.number negative (fraction.isEmpty && exponent.isNone) ⟨whole, fraction, exponent.getD 0⟩, rest)
  else none

theorem length_readExponentPart {cs rest : List Char} {e : Option Int}
    (h : readExponentPart cs = some (e, rest)) : rest.length ≤ cs.length := by
  unfold readExponentPart at h
  split at h
  · simp only [Option.some.injEq, Prod.mk.injEq] at h
    simp [← h.2]
  · rename_i c r
    have hs : (exponentSign r).2.length ≤ r.length := by
      unfold exponentSign
      split <;> simp
    split at h
    · simp only at h
      split at h
      · cases h
      · simp only [Option.some.injEq, Prod.mk.injEq] at h
        have := Text.length_dropWhile_le Char.isDigit (exponentSign r).2
        rw [← h.2]
        simp only [List.length_cons]
        omega
    · simp only [Option.some.injEq, Prod.mk.injEq] at h
      simp [← h.2]

theorem length_readFractionPart {cs digits rest : List Char}
    (h : readFractionPart cs = some (digits, rest)) : rest.length ≤ cs.length := by
  unfold readFractionPart at h
  split at h
  · rename_i r
    simp only at h
    split at h
    · cases h
    · simp only [Option.some.injEq, Prod.mk.injEq] at h
      have := Text.length_dropWhile_le Char.isDigit r
      rw [← h.2]
      simp only [List.length_cons]
      omega
  · simp only [Option.some.injEq, Prod.mk.injEq] at h
    simp [← h.2]

theorem length_readNumber {negative : Bool} {cs rest : List Char} {t : Token}
    (h : readNumber negative cs = some (t, rest)) : rest.length < cs.length := by
  unfold readNumber at h
  simp only at h
  split at h
  · rename_i hw
    have hne : cs.takeWhile Char.isDigit ≠ [] := fun e => by simp [e, wholeDigits] at hw
    have h0 := Text.length_dropWhile_of_takeWhile hne
    simp only [Option.bind_eq_some_iff, Option.map_eq_some_iff, Prod.mk.injEq] at h
    obtain ⟨⟨fraction, afterFraction⟩, hf, ⟨exponent, last⟩, he, _, rfl⟩ := h
    have h1 := length_readFractionPart hf
    have h2 := length_readExponentPart he
    simp only at h1 h2 ⊢
    omega
  · cases h

def afterWord (word : String) (cs : List Char) : Option (List Char) :=
  if word.toList.isPrefixOf cs then some (cs.drop word.length) else none

def readToken (c : Char) (r : List Char) : Option (Token × List Char) :=
  match c with
  | '{' => some (.openObject, r)
  | '}' => some (.closeObject, r)
  | '[' => some (.openList, r)
  | ']' => some (.closeList, r)
  | ',' => some (.comma, r)
  | ':' => some (.colon, r)
  | 'n' => (afterWord "ull" r).map (.null, ·)
  | 't' => (afterWord "rue" r).map (.truth true, ·)
  | 'f' => (afterWord "alse" r).map (.truth false, ·)
  | '"' => (readQuoted .plain r).map fun (raw, rest) => (.quoted raw, rest)
  | '-' => readNumber true r
  | _ => readNumber false (c :: r)

theorem length_afterWord {word : String} {cs rest : List Char} (h : afterWord word cs = some rest) :
    rest.length ≤ cs.length := by
  unfold afterWord at h
  split at h
  · simp only [Option.some.injEq] at h
    simp [← h]
  · cases h

theorem length_readToken {c : Char} {r rest : List Char} {t : Token}
    (h : readToken c r = some (t, rest)) : rest.length ≤ r.length := by
  unfold readToken at h
  split at h
  case h_7 | h_8 | h_9 =>
    simp only [Option.map_eq_some_iff, Prod.mk.injEq] at h
    obtain ⟨_, hw, _, rfl⟩ := h
    exact length_afterWord hw
  case h_10 =>
    simp only [Option.map_eq_some_iff, Prod.mk.injEq] at h
    obtain ⟨_, hq, _, rfl⟩ := h
    exact Nat.le_of_lt (length_readQuoted hq)
  case h_11 => exact Nat.le_of_lt (length_readNumber h)
  case h_12 => exact Nat.le_of_lt_succ (length_readNumber h)
  all_goals
    simp only [Option.some.injEq, Prod.mk.injEq] at h
    exact Nat.le_of_eq (congrArg List.length h.2.symm)

def tokens (cs : List Char) : Option (List Token) :=
  match _hc : cs.dropWhile isGap with
  | [] => some []
  | c :: r =>
    match _ht : readToken c r with
    | none => none
    | some (t, rest) => (tokens rest).map (t :: ·)
termination_by cs.length
decreasing_by
  have h0 := Text.length_dropWhile_le isGap cs
  rw [_hc] at h0
  have h1 := length_readToken _ht
  simp only [List.length_cons] at h0
  omega

end EncounterTimeline.SettingsFile

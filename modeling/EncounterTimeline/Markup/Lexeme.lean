import EncounterTimeline.Text.Blank
import EncounterTimeline.Text.Run

/-! # Markup lexemes

A document is cut into runs of text and pieces of markup. Text is trimmed at both ends and dropped when
nothing is left; character data sections are kept as they stand. Declarations, comments, instructions and
document types say nothing to a reader and become remarks. After something malformed nothing follows.
-/
namespace EncounterTimeline.Markup

def isSpace (c : Char) : Bool := c == ' ' || c == '\t' || c == '\n' || c == '\r'

inductive Lexeme where
  | text (raw : List Char)
  | verbatim (content : List Char)
  | remark
  | openTag (content : List Char)
  | emptyTag (content : List Char)
  | closeTag (content : List Char)
  | malformed
  deriving DecidableEq, Repr

/-- Splits at the first `>` before which `closes` holds. What was read so far is `before`, its latest character
first. -/
def upTo (closes : List Char → Bool) (before : List Char) : List Char → Option (List Char × List Char)
  | [] => none
  | c :: r =>
    if c == '>' && closes before then some (before.reverse, r)
    else upTo closes (c :: before) r

/-- A quote opens and closes a quoted stretch; inside one the other quote is plain. -/
def nextQuote (quote : Option Char) (c : Char) : Option Char :=
  match quote with
  | none => if c == '"' || c == '\'' then some c else none
  | some q => if c == q then none else some q

def upToUnquoted (quote : Option Char) : List Char → Option (List Char × List Char)
  | [] => none
  | c :: r =>
    if c == '>' && quote.isNone then some ([], r)
    else (upToUnquoted (nextQuote quote c) r).map fun (body, rest) => (c :: body, rest)

def closesComment (before : List Char) : Bool :=
  match before with
  | '-' :: '-' :: r => 3 ≤ r.length
  | _ => false

def closesVerbatim (before : List Char) : Bool :=
  match before with
  | ']' :: ']' :: _ => true
  | _ => false

/-- A document type closes when every angle bracket opened inside it has been closed. -/
def closesDoctype (before : List Char) : Bool := before.count '<' == before.count '>'

def closesInstruction (before : List Char) : Bool :=
  match before with
  | '?' :: _ => true
  | _ => false

def verbatimMark : List Char := "![CDATA[".toList

def doctypeMark : List Char := "!DOCTYPE".toList

def verbatim (body : List Char) : Option Lexeme :=
  if verbatimMark.isPrefixOf body then
    some (.verbatim ((body.drop verbatimMark.length).take (body.length - verbatimMark.length - 2)))
  else none

def comment (body : List Char) : Option Lexeme :=
  if "!--".toList.isPrefixOf body then some .remark else none

def doctype (body : List Char) : Option Lexeme :=
  if (body.take doctypeMark.length).map Char.toUpper == doctypeMark &&
      !(body.drop doctypeMark.length).all isSpace then some .remark
  else none

def instruction (body : List Char) : Option Lexeme := if 2 ≤ body.length then some .remark else none

def tag (body : List Char) : Lexeme :=
  match body.reverse with
  | '/' :: r => .emptyTag r.reverse
  | _ => .openTag body

def piece (read : List Char → Option Lexeme) (split : Option (List Char × List Char)) :
    Option (Lexeme × List Char) :=
  split.bind fun (body, rest) => (read body).map (·, rest)

def markup (cs : List Char) : Option (Lexeme × List Char) :=
  match cs with
  | [] => none
  | '!' :: '[' :: _ => piece verbatim (upTo closesVerbatim [] cs)
  | '!' :: '-' :: _ => piece comment (upTo closesComment [] cs)
  | '!' :: c :: _ => if c == 'D' || c == 'd' then piece doctype (upTo closesDoctype [] cs) else none
  | '!' :: [] => none
  | '?' :: _ => piece instruction (upTo closesInstruction [] cs)
  | '/' :: r => piece (some ∘ .closeTag) (upToUnquoted none r)
  | _ => piece (some ∘ tag) (upToUnquoted none cs)

theorem length_upTo {closes : List Char → Bool} {before cs body rest : List Char}
    (h : upTo closes before cs = some (body, rest)) : rest.length < cs.length := by
  induction cs generalizing before with
  | nil => simp [upTo] at h
  | cons c r ih =>
    unfold upTo at h
    split at h
    · simp only [Option.some.injEq, Prod.mk.injEq] at h
      simp [← h.2]
    · exact Nat.lt_succ_of_lt (ih h)

theorem length_upToUnquoted {quote : Option Char} {cs body rest : List Char}
    (h : upToUnquoted quote cs = some (body, rest)) : rest.length < cs.length := by
  induction cs generalizing quote body with
  | nil => simp [upToUnquoted] at h
  | cons c r ih =>
    unfold upToUnquoted at h
    split at h
    · simp only [Option.some.injEq, Prod.mk.injEq] at h
      simp [← h.2]
    · cases hr : upToUnquoted (nextQuote quote c) r with
      | none => simp [hr] at h
      | some p =>
        simp only [hr, Option.map_some, Option.some.injEq, Prod.mk.injEq] at h
        have : rest.length < r.length := ih (by rw [hr, ← h.2])
        exact Nat.lt_succ_of_lt this

private theorem length_piece {read : List Char → Option Lexeme} {split : Option (List Char × List Char)}
    {x : Lexeme} {rest cs : List Char}
    (hs : ∀ body r, split = some (body, r) → r.length < cs.length)
    (h : piece read split = some (x, rest)) : rest.length < cs.length := by
  cases hsplit : split with
  | none => simp [piece, hsplit] at h
  | some p =>
    simp only [piece, hsplit, Option.bind_some, Option.map_eq_some_iff, Prod.mk.injEq] at h
    obtain ⟨_, _, _, rfl⟩ := h
    exact hs p.1 p.2 hsplit

theorem length_markup {cs rest : List Char} {x : Lexeme} (h : markup cs = some (x, rest)) :
    rest.length < cs.length := by
  unfold markup at h
  split at h
  · cases h
  · exact length_piece (fun _ _ => length_upTo) h
  · exact length_piece (fun _ _ => length_upTo) h
  · split at h
    · exact length_piece (fun _ _ => length_upTo) h
    · cases h
  · cases h
  · exact length_piece (fun _ _ => length_upTo) h
  · exact Nat.lt_succ_of_lt (length_piece (fun _ _ => length_upToUnquoted) h)
  · exact length_piece (fun _ _ => length_upToUnquoted) h

def textRun (run : List Char) : List Lexeme :=
  match Text.trimBoth isSpace run with
  | [] => []
  | raw => [.text raw]

def lexemes (cs : List Char) : List Lexeme :=
  textRun (cs.takeWhile (· != '<')) ++
    match _h : cs.dropWhile (· != '<') with
    | [] => []
    | _ :: r =>
      match _hm : markup r with
      | none => [.malformed]
      | some (x, rest) => x :: lexemes rest
termination_by cs.length
decreasing_by
  have h1 := length_markup _hm
  have h2 := Text.length_dropWhile_le (· != '<') cs
  rw [_h] at h2
  simp only [List.length_cons] at h2
  omega

def dropMark : List Char → List Char
  | c :: r => if c == '\uFEFF' then r else c :: r
  | [] => []

end EncounterTimeline.Markup

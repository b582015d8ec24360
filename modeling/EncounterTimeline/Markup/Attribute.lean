import EncounterTimeline.Markup.Entity
import EncounterTimeline.Markup.Lexeme

/-! # Tags and attributes

The body of a tag is its name up to the first blank, then attributes: a key, an equals sign with blanks
allowed around it, and a quoted value. A key may occur once. Attributes are read only where somebody asks for
them, so what is wrong with them matters only there.
-/
namespace EncounterTimeline.Markup

structure Tag where
  name : List Char
  attributeText : List Char
  deriving DecidableEq, Repr

def Tag.ofBody (body : List Char) : Tag := ⟨body.takeWhile (!isSpace ·), body.dropWhile (!isSpace ·)⟩

abbrev Attributes := List (List Char × List Char)

def readKey (cs : List Char) : Option (List Char × List Char) :=
  match cs with
  | [] => none
  | first :: r =>
    let more := r.takeWhile fun c => !(c == '=' || isSpace c)
    match (r.dropWhile fun c => !(c == '=' || isSpace c)).dropWhile isSpace with
    | '=' :: rest => some (first :: more, rest)
    | _ => none

def readValue (cs : List Char) : Option (List Char × List Char) :=
  match cs.dropWhile isSpace with
  | [] => none
  | quote :: r =>
    if quote == '"' || quote == '\'' then
      match r.dropWhile (· != quote) with
      | [] => none
      | _ :: rest => some (r.takeWhile (· != quote), rest)
    else none

theorem length_readKey {cs key rest : List Char} (h : readKey cs = some (key, rest)) :
    rest.length < cs.length := by
  unfold readKey at h
  split at h
  · cases h
  · rename_i first r
    simp only at h
    split at h
    · rename_i rest' heq
      simp only [Option.some.injEq, Prod.mk.injEq] at h
      have h1 := Text.length_dropWhile_le isSpace (r.dropWhile fun c => !(c == '=' || isSpace c))
      have h2 := Text.length_dropWhile_le (fun c => !(c == '=' || isSpace c)) r
      rw [heq, h.2] at h1
      simp only [List.length_cons] at h1 ⊢
      omega
    · cases h

theorem length_readValue {cs value rest : List Char} (h : readValue cs = some (value, rest)) :
    rest.length < cs.length := by
  unfold readValue at h
  have h1 := Text.length_dropWhile_le isSpace cs
  split at h
  · cases h
  · rename_i quote r heq
    rw [heq] at h1
    split at h
    · have h2 := Text.length_dropWhile_le (· != quote) r
      split at h
      · cases h
      · rename_i rest' hq
        rw [hq] at h2
        simp only [Option.some.injEq, Prod.mk.injEq] at h
        rw [h.2] at h2
        simp only [List.length_cons] at h1 h2
        omega
    · cases h

/-- Reads attributes after those already known. A repeated key is an error. -/
def readAttributes (known : Attributes) (cs : List Char) : Option Attributes :=
  match _hc : cs.dropWhile isSpace with
  | [] => some known
  | c :: r =>
    match _hk : readKey (c :: r) with
    | none => none
    | some (key, afterKey) =>
      if (known.lookup key).isSome then none
      else
        match _hv : readValue afterKey with
        | none => none
        | some (raw, rest) =>
          match unescape raw with
          | none => none
          | some value => readAttributes (known ++ [(key, value)]) rest
termination_by cs.length
decreasing_by
  have h0 := Text.length_dropWhile_le isSpace cs
  rw [_hc] at h0
  have h1 := length_readKey _hk
  have h2 := length_readValue _hv
  omega

def Tag.attributes? (t : Tag) : Option Attributes := readAttributes [] t.attributeText

end EncounterTimeline.Markup

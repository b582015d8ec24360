/-! # UTF-8

Bytes are cut into pieces: a character, a bad stretch as short as it can be told to be bad, or a character that
the end cuts off. Strict reading wants characters only and says where they end; lossy reading puts one
replacement character in the place of every other piece.
-/
namespace EncounterTimeline.Text

abbrev Bytes := List UInt8

structure Lead where
  bits : Nat
  more : Nat
  low : UInt8 := 0x80
  high : UInt8 := 0xBF
  deriving DecidableEq, Repr

def lead? (b : UInt8) : Option Lead :=
  let n := b.toNat
  if n ≤ 0x7F then some ⟨n, 0, 0x80, 0xBF⟩
  else if n < 0xC2 then none
  else if n ≤ 0xDF then some ⟨n - 0xC0, 1, 0x80, 0xBF⟩
  else if n == 0xE0 then some ⟨0, 2, 0xA0, 0xBF⟩
  else if n == 0xED then some ⟨0xD, 2, 0x80, 0x9F⟩
  else if n ≤ 0xEF then some ⟨n - 0xE0, 2, 0x80, 0xBF⟩
  else if n == 0xF0 then some ⟨0, 3, 0x90, 0xBF⟩
  else if n ≤ 0xF3 then some ⟨n - 0xF0, 3, 0x80, 0xBF⟩
  else if n == 0xF4 then some ⟨4, 3, 0x80, 0x8F⟩
  else none

inductive Piece where
  | char (c : Char) (length : Nat)
  | bad (length : Nat)
  | cut (length : Nat)
  deriving DecidableEq, Repr

/-- Reads the bytes that a character still needs; `count` of them are read and gave `value`. -/
def follow (needed : Nat) (low high : UInt8) (value count : Nat) (bytes : Bytes) : Piece × Bytes :=
  match needed, bytes with
  | 0, r => (.char (Char.ofNat value) count, r)
  | _ + 1, [] => (.cut count, [])
  | n + 1, b :: r =>
    if low ≤ b && b ≤ high then follow n 0x80 0xBF (64 * value + b.toNat % 64) (count + 1) r
    else (.bad count, b :: r)

def nextPiece (b : UInt8) (r : Bytes) : Piece × Bytes :=
  match lead? b with
  | none => (.bad 1, r)
  | some l => follow l.more l.low l.high l.bits 1 r

theorem length_follow (needed : Nat) (low high : UInt8) (value count : Nat) (bytes : Bytes) :
    (follow needed low high value count bytes).2.length ≤ bytes.length := by
  induction needed generalizing low high value count bytes with
  | zero => simp [follow]
  | succ n ih =>
    cases bytes with
    | nil => simp [follow]
    | cons b r =>
      unfold follow
      split
      · exact Nat.le_succ_of_le (ih ..)
      · exact Nat.le_refl _

theorem length_nextPiece (b : UInt8) (r : Bytes) : (nextPiece b r).2.length ≤ r.length := by
  unfold nextPiece
  split
  · exact Nat.le_refl _
  · exact length_follow ..

def pieces : Bytes → List Piece
  | [] => []
  | b :: r => (nextPiece b r).1 :: pieces (nextPiece b r).2
termination_by bytes => bytes.length
decreasing_by exact Nat.lt_succ_of_le (length_nextPiece b r)

/-- Where characters end, and how long the bad stretch there is; without a length the end cuts a character
off. -/
structure Utf8Error where
  validUpTo : Nat
  length : Option Nat
  deriving DecidableEq, Repr

def Utf8Error.message (e : Utf8Error) : String :=
  match e.length with
  | some n => "invalid utf-8 sequence of " ++ toString n ++ " bytes from index " ++ toString e.validUpTo
  | none => "incomplete utf-8 byte sequence from index " ++ toString e.validUpTo

def strictChars (index : Nat) : List Piece → Except Utf8Error (List Char)
  | [] => .ok []
  | .char c n :: rest => (strictChars (index + n) rest).map (c :: ·)
  | .bad n :: _ => .error ⟨index, some n⟩
  | .cut _ :: _ => .error ⟨index, none⟩

def decode (bytes : Bytes) : Except Utf8Error (List Char) := strictChars 0 (pieces bytes)

def Piece.shown : Piece → Char
  | .char c _ => c
  | _ => '\uFFFD'

def decodeLossy (bytes : Bytes) : List Char := (pieces bytes).map Piece.shown

def encode (cs : List Char) : Bytes := cs.flatMap String.utf8EncodeChar

def byteOrderMark : Bytes := [0xEF, 0xBB, 0xBF]

def stripMark (bytes : Bytes) : Bytes :=
  if byteOrderMark.isPrefixOf bytes then bytes.drop byteOrderMark.length else bytes

end EncounterTimeline.Text

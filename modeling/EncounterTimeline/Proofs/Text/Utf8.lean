import EncounterTimeline.Text.Utf8
import Mathlib.Data.List.Basic

/-! # Text comes back from its bytes

The bytes of a character are one piece, whatever comes after them; so the pieces of a text are its characters.
-/
namespace EncounterTimeline.Text

variable {v : Nat} {rest : Bytes}

def continuation (n : Nat) : UInt8 := UInt8.ofNat (n % 64 + 128)

theorem toNat_continuation (n : Nat) : (continuation n).toNat = n % 64 + 128 := by
  rw [continuation, UInt8.toNat_ofNat']
  omega

theorem follow_continuation {low high : UInt8} {needed value count n : Nat} (above : low.toNat ≤ n % 64 + 128)
    (below : n % 64 + 128 ≤ high.toNat) :
    follow (needed + 1) low high value count (continuation n :: rest) =
      follow needed 0x80 0xBF (64 * value + n % 64) (count + 1) rest := by
  have within : (low ≤ continuation n && continuation n ≤ high) = true := by
    simp only [Bool.and_eq_true, decide_eq_true_eq, UInt8.le_iff_toNat_le, toNat_continuation]
    exact ⟨above, below⟩
  have bits : (n % 64 + 128) % 64 = n % 64 := by omega
  rw [follow, if_pos within, toNat_continuation, bits]

/-- Every further byte but the second one may be any continuation. -/
theorem follow_next {needed value count n : Nat} :
    follow (needed + 1) 0x80 0xBF value count (continuation n :: rest) =
      follow needed 0x80 0xBF (64 * value + n % 64) (count + 1) rest :=
  follow_continuation (by simp) (by simp; omega)

theorem lead_one (le : v ≤ 0x7F) : lead? (UInt8.ofNat v) = some ⟨v, 0, 0x80, 0xBF⟩ := by
  have byte : (UInt8.ofNat v).toNat = v := by
    rw [UInt8.toNat_ofNat']
    omega
  simp only [lead?, byte, if_pos le]

theorem lead_two (low : 0x7F < v) (high : v ≤ 0x7FF) :
    lead? (UInt8.ofNat (v / 64 % 32 + 0xC0)) = some ⟨v / 64, 1, 0x80, 0xBF⟩ := by
  have byte : (UInt8.ofNat (v / 64 % 32 + 0xC0)).toNat = v / 64 + 0xC0 := by
    rw [UInt8.toNat_ofNat']
    omega
  simp only [lead?, byte]
  rw [if_neg (by omega), if_neg (by omega), if_pos (by omega), Nat.add_sub_cancel]

/-- The second of three bytes may not make the character too small or a half surrogate. -/
theorem lead_three (low : 0x7FF < v) (high : v ≤ 0xFFFF) (whole : v < 0xD800 ∨ 0xDFFF < v) :
    ∃ least greatest, lead? (UInt8.ofNat (v / 4096 % 16 + 0xE0)) = some ⟨v / 4096, 2, least, greatest⟩ ∧
      least.toNat ≤ v / 64 % 64 + 128 ∧ v / 64 % 64 + 128 ≤ greatest.toNat := by
  have byte : (UInt8.ofNat (v / 4096 % 16 + 0xE0)).toNat = v / 4096 + 0xE0 := by
    rw [UInt8.toNat_ofNat']
    omega
  simp only [lead?, byte]
  rw [if_neg (by omega), if_neg (by omega), if_neg (by omega)]
  by_cases small : v / 4096 = 0
  · refine ⟨0xA0, 0xBF, by simp [small], ?_, ?_⟩
    · simp
      omega
    · simp
      omega
  · by_cases surrogate : v / 4096 = 0xD
    · refine ⟨0x80, 0x9F, by simp [surrogate], by simp, ?_⟩
      simp
      omega
    · refine ⟨0x80, 0xBF, ?_, ?_, ?_⟩
      · rw [if_neg (by simp; omega), if_neg (by simp; omega), if_pos (by omega), Nat.add_sub_cancel]
      · simp
      · simp
        omega

/-- The second of four bytes may not make the character too small or too large. -/
theorem lead_four (low : 0xFFFF < v) (high : v < 0x110000) :
    ∃ least greatest, lead? (UInt8.ofNat (v / 262144 % 8 + 0xF0)) = some ⟨v / 262144, 3, least, greatest⟩ ∧
      least.toNat ≤ v / 4096 % 64 + 128 ∧ v / 4096 % 64 + 128 ≤ greatest.toNat := by
  have byte : (UInt8.ofNat (v / 262144 % 8 + 0xF0)).toNat = v / 262144 + 0xF0 := by
    rw [UInt8.toNat_ofNat']
    omega
  simp only [lead?, byte]
  rw [if_neg (by omega), if_neg (by omega), if_neg (by omega), if_neg (by simp), if_neg (by simp), if_neg (by omega)]
  by_cases small : v / 262144 = 0
  · refine ⟨0x90, 0xBF, by simp [small], ?_, ?_⟩
    · simp
      omega
    · simp
      omega
  · by_cases large : v / 262144 = 4
    · refine ⟨0x80, 0x8F, by simp [large], by simp, ?_⟩
      simp
      omega
    · refine ⟨0x80, 0xBF, ?_, ?_, ?_⟩
      · rw [if_neg (by simp; omega), if_pos (by omega), Nat.add_sub_cancel]
      · simp
      · simp
        omega

/-- The bytes of a character are one piece. -/
theorem nextPiece_encodeChar (c : Char) (rest : Bytes) : ∃ b r n, String.utf8EncodeChar c = b :: r ∧
    nextPiece b (r ++ rest) = (.char c n, rest) := by
  have whole : Char.ofNat c.val.toNat = c := Char.ofNat_toNat c
  have valid : c.val.toNat < 0xD800 ∨ 0xDFFF < c.val.toNat ∧ c.val.toNat < 0x110000 := c.valid
  simp only [String.utf8EncodeChar]
  generalize c.val.toNat = v at *
  split
  case isTrue le =>
    refine ⟨_, [], 1, rfl, ?_⟩
    rw [nextPiece, lead_one le]
    simp only [follow, whole, List.nil_append]
  case isFalse one =>
    split
    case isTrue le =>
      refine ⟨_, [continuation v], 2, rfl, ?_⟩
      have value : 64 * (v / 64) + v % 64 = v := by omega
      rw [nextPiece, lead_two (by omega) le]
      simp only [List.cons_append, List.nil_append, follow_next, value, follow, whole]
    case isFalse two =>
      split
      case isTrue le =>
        obtain ⟨least, greatest, lead, above, below⟩ := lead_three (show 0x7FF < v by omega) le (by omega)
        refine ⟨_, [continuation (v / 64), continuation v], 3, rfl, ?_⟩
        have value : 64 * (64 * (v / 4096) + v / 64 % 64) + v % 64 = v := by omega
        simp only [nextPiece, lead, List.cons_append, List.nil_append]
        rw [follow_continuation above below, follow_next, value, follow, whole]
      case isFalse three =>
        obtain ⟨least, greatest, lead, above, below⟩ := lead_four (show 0xFFFF < v by omega) (by omega)
        refine ⟨_, [continuation (v / 4096), continuation (v / 64), continuation v], 4, rfl, ?_⟩
        have value : 64 * (64 * (64 * (v / 262144) + v / 4096 % 64) + v / 64 % 64) + v % 64 = v := by omega
        simp only [nextPiece, lead, List.cons_append, List.nil_append]
        rw [follow_continuation above below, follow_next, follow_next, value, follow, whole]

theorem pieces_encode_cons (c : Char) (cs : List Char) :
    ∃ n, pieces (encode (c :: cs)) = .char c n :: pieces (encode cs) := by
  obtain ⟨b, r, n, bytes, piece⟩ := nextPiece_encodeChar c (encode cs)
  have shape : encode (c :: cs) = b :: (r ++ encode cs) := by
    rw [encode, List.flatMap_cons, bytes]
    rfl
  rw [shape, pieces, piece]
  exact ⟨n, rfl⟩

theorem strictChars_encode (index : Nat) (cs : List Char) : strictChars index (pieces (encode cs)) = .ok cs := by
  induction cs generalizing index with
  | nil =>
    have empty : pieces (encode []) = [] := by rw [encode, List.flatMap_nil, pieces]
    rw [empty]
    rfl
  | cons c cs ih =>
    obtain ⟨n, shape⟩ := pieces_encode_cons c cs
    rw [shape, strictChars, ih]
    rfl

theorem decode_encode (cs : List Char) : decode (encode cs) = .ok cs := strictChars_encode 0 cs

end EncounterTimeline.Text

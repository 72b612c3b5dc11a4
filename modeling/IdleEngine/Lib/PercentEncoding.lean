import Mathlib.Data.List.GetD

/-!
# Percent-encoded text

A text is encoded for a place where only some characters are safe: a character that is not
unreserved is written as the bytes of its UTF-8 code, each as a percent sign and two hexadecimal
digits. `decodeURIComponent` reads such a text and fails on a percent sign that does not start an
escape and on escaped bytes that are no UTF-8; it gives back every encoded text
(`decodeURIComponent_encodeURIComponent`).
-/

open List

namespace PercentEncoding

/-! ### Hexadecimal digits -/

def hexDigits : List Char := "0123456789ABCDEF".toList

/-- A digit below 16, in upper case. -/
def hexDigit (value : ℕ) : Char := hexDigits.getD value '0'

/-- The value of a digit, in either case. -/
def hexValue (digit : Char) : Option ℕ :=
  let value := hexDigits.idxOf digit.toUpper
  if value < 16 then some value else none

theorem hexValue_hexDigit : ∀ value < 16, hexValue (hexDigit value) = some value := by decide

/-! ### Encoding -/

/-- The characters that are left as they are. -/
def unreserved (c : Char) : Bool :=
  c.isAlphanum || "-_.!~*'()".toList.contains c

/-- A byte as an escape. -/
def escapeByte (byte : UInt8) : List Char :=
  ['%', hexDigit (byte.toNat / 16), hexDigit (byte.toNat % 16)]

def encodeChar (c : Char) : List Char :=
  if unreserved c then [c] else (String.utf8EncodeChar c).flatMap escapeByte

/-- `encodeURIComponent`, of a text without lone surrogates. -/
def encodeURIComponent (text : String) : String :=
  String.ofList (text.toList.flatMap encodeChar)

/-! ### Decoding -/

/-- The bytes of a text whose escapes are read; a character that is not escaped stands for its
UTF-8 code. -/
def percentBytes : List Char → Option (List UInt8)
  | '%' :: high :: low :: rest => do
      let high ← hexValue high
      let low ← hexValue low
      let bytes ← percentBytes rest
      return UInt8.ofNat (16 * high + low) :: bytes
  | '%' :: _ => none
  | c :: rest => (percentBytes rest).map (String.utf8EncodeChar c ++ ·)
  | [] => some []

/-- `decodeURIComponent`; where it throws there is no value. An escaped code cannot be completed by
a character that is not escaped, since the code of a character starts with a first byte. -/
def decodeURIComponent (text : String) : Option String := do
  let bytes ← percentBytes text.toList
  let chars ← bytes.toByteArray.utf8Decode?
  return String.ofList chars.toList

/-! ### Round trip -/

theorem percentBytes_escapeByte (byte : UInt8) (rest : List Char) :
    percentBytes (escapeByte byte ++ rest) = (percentBytes rest).map (byte :: ·) := by
  have hlt : byte.toNat < 256 := byte.toNat_lt
  rw [escapeByte, cons_append, cons_append, cons_append, nil_append,
    percentBytes, hexValue_hexDigit _ (by omega), hexValue_hexDigit _ (by omega)]
  have hbyte : UInt8.ofNat (16 * (byte.toNat / 16) + byte.toNat % 16) = byte := by
    rw [Nat.div_add_mod, UInt8.ofNat_toNat]
  change ((percentBytes rest).bind fun bytes =>
    some (UInt8.ofNat (16 * (byte.toNat / 16) + byte.toNat % 16) :: bytes)) = _
  rw [hbyte]
  exact (Option.map_eq_bind ..).symm

theorem percentBytes_escapeBytes (bytes : List UInt8) (rest : List Char) :
    percentBytes (bytes.flatMap escapeByte ++ rest) = (percentBytes rest).map (bytes ++ ·) := by
  induction bytes with
  | nil => simp
  | cons byte bytes ih =>
    rw [flatMap_cons, append_assoc, percentBytes_escapeByte, ih, Option.map_map]
    rfl

theorem unreserved_ne_percent {c : Char} (h : unreserved c = true) : c ≠ '%' := by
  rintro rfl
  exact absurd h (by decide)

/-- A character stands for its UTF-8 code, escaped or not. -/
theorem percentBytes_encodeChar (c : Char) (rest : List Char) :
    percentBytes (encodeChar c ++ rest) =
      (percentBytes rest).map (String.utf8EncodeChar c ++ ·) := by
  rw [encodeChar]
  split
  · next h =>
    rw [singleton_append, percentBytes]
    · exact fun _ _ _ hc _ => unreserved_ne_percent h hc
    · exact unreserved_ne_percent h
  · exact percentBytes_escapeBytes _ rest

theorem percentBytes_encode (chars : List Char) :
    percentBytes (chars.flatMap encodeChar) = some (chars.flatMap String.utf8EncodeChar) := by
  induction chars with
  | nil => rfl
  | cons c chars ih =>
    rw [flatMap_cons, percentBytes_encodeChar, ih]
    rfl

/-- **Round trip.** -/
theorem decodeURIComponent_encodeURIComponent (text : String) :
    decodeURIComponent (encodeURIComponent text) = some text := by
  rw [decodeURIComponent, encodeURIComponent, String.toList_ofList, percentBytes_encode]
  change (text.toList.utf8Encode.utf8Decode?.bind fun chars =>
    some (String.ofList chars.toList)) = some text
  rw [utf8Decode?_utf8Encode, Option.bind_some, toList_toArray, String.ofList_toList]

/-- A character that is not unreserved does not occur in an encoded text, percent signs apart. -/
theorem notMem_encodeURIComponent {c : Char} (hreserved : unreserved c = false)
    (hpercent : c ≠ '%') (hhex : c ∉ hexDigits) (text : String) :
    c ∉ (encodeURIComponent text).toList := by
  have hdigit : ∀ value : ℕ, value < 16 → c ≠ hexDigit value := by
    rintro value hvalue rfl
    refine hhex ?_
    rw [hexDigit, getD_eq_getElem hexDigits '0' hvalue]
    exact getElem_mem hvalue
  rw [encodeURIComponent, String.toList_ofList, mem_flatMap]
  rintro ⟨d, -, hd⟩
  rw [encodeChar] at hd
  split at hd
  · next hunreserved =>
    obtain rfl := mem_singleton.mp hd
    rw [hreserved] at hunreserved
    cases hunreserved
  · obtain ⟨byte, -, hbyte⟩ := mem_flatMap.mp hd
    have hlt : byte.toNat < 256 := byte.toNat_lt
    simp only [escapeByte, mem_cons, not_mem_nil, or_false] at hbyte
    rcases hbyte with hsign | hhigh | hlow
    · exact hpercent hsign
    · exact hdigit _ (by omega) hhigh
    · exact hdigit _ (by omega) hlow

end PercentEncoding

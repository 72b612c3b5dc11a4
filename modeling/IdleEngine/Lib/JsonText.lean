import Mathlib.Data.List.Basic

/-!
# Strings as JSON text

`escape` writes one character inside a string literal, `quote` a whole literal. Every escape tells
where it ends, so the text of a literal can be read back character by character (`readChar`), and
two different strings have different literals, whatever text follows (`quote_append_inj`). An array
of two strings is then written without ambiguity.
-/

open List

namespace JsonText

/-- The character that opens and closes a literal. -/
def quotationMark : Char := Char.ofNat 34

/-- The character that starts an escape. -/
def backslash : Char := Char.ofNat 92

/-- The characters with an escape of two characters, each with the letter of its escape. -/
def shortEscapes : List (Char × Char) :=
  [(quotationMark, quotationMark), (backslash, backslash), (Char.ofNat 8, 'b'),
    (Char.ofNat 9, 't'), (Char.ofNat 10, 'n'), (Char.ofNat 12, 'f'), (Char.ofNat 13, 'r')]

/-- The digits of a hexadecimal number. -/
def hexDigits : List Char :=
  ['0', '1', '2', '3', '4', '5', '6', '7', '8', '9', 'a', 'b', 'c', 'd', 'e', 'f']

def hexDigit (n : ℕ) : Char := hexDigits.getD n '0'

def hexValue (c : Char) : ℕ := hexDigits.idxOf c

/-- One character inside a literal: a short escape if it has one, a numeric escape if it is a
control character, otherwise itself. -/
def escape (c : Char) : List Char :=
  match shortEscapes.lookup c with
  | some letter => [backslash, letter]
  | none =>
      if c.toNat < 32 then
        [backslash, 'u', '0', '0', hexDigit (c.toNat / 16), hexDigit (c.toNat % 16)]
      else [c]

/-- The value of a hexadecimal digit. -/
def hexValue? (c : Char) : Option ℕ :=
  if c.toLower ∈ hexDigits then some (hexValue c.toLower) else none

/-- Four hexadecimal digits. -/
def readUnit : List Char → Option (ℕ × List Char)
  | a :: b :: c :: d :: rest => do
      let a ← hexValue? a
      let b ← hexValue? b
      let c ← hexValue? c
      let d ← hexValue? d
      some (4096 * a + 256 * b + 16 * c + d, rest)
  | _ => none

/-- A numeric escape behind its first two characters; a character outside the basic plane has two
of them. -/
def readUnicode (text : List Char) : Option (Char × List Char) := do
  let (unit, rest) ← readUnit text
  if 0xd800 ≤ unit ∧ unit < 0xdc00 then
    guard (rest.take 2 = [backslash, 'u'])
    let (low, rest) ← readUnit (rest.drop 2)
    guard (0xdc00 ≤ low ∧ low < 0xe000)
    some (Char.ofNat (0x10000 + 0x400 * (unit - 0xd800) + (low - 0xdc00)), rest)
  else
    guard (unit < 0xdc00 ∨ 0xe000 ≤ unit)
    some (Char.ofNat unit, rest)

/-- One character of a literal, with the text behind it. -/
def readChar : List Char → Option (Char × List Char)
  | [] => none
  | c :: rest =>
      if c = backslash then
        match rest with
        | [] => none
        | letter :: rest =>
            if letter = 'u' then readUnicode rest
            else if letter = '/' then some ('/', rest)
            else (shortEscapes.find? fun pair => pair.2 = letter).map fun pair => (pair.1, rest)
      else if c.toNat < 32 then none
      else some (c, rest)

theorem mem_shortEscapes {c letter : Char} (h : shortEscapes.lookup c = some letter) :
    (c, letter) ∈ shortEscapes := by
  obtain ⟨before, after, heq, -⟩ := lookup_eq_some_iff.mp h
  rw [heq]
  simp

/-- **Reading an escaped character gives the character back**, with the text behind it. -/
theorem readChar_escape (c : Char) (rest : List Char) :
    readChar (escape c ++ rest) = some (c, rest) := by
  rw [escape]
  rcases hshort : shortEscapes.lookup c with _ | letter
  · by_cases hcontrol : c.toNat < 32
    · -- a numeric escape, whose unit is the code of the character
      have hunit : ∀ n < 32, ∀ rest, readUnit ('0' :: '0' :: hexDigit (n / 16) ::
          hexDigit (n % 16) :: rest) = some (n, rest) := by
        have hdigits : ∀ n < 32, hexValue? (hexDigit (n / 16)) = some (n / 16) ∧
            hexValue? (hexDigit (n % 16)) = some (n % 16) := by
          decide
        have hzero : hexValue? '0' = some 0 := by
          decide
        intro n hn rest
        obtain ⟨hhigh, hlow⟩ := hdigits n hn
        simp only [readUnit, hzero, hhigh, hlow, Option.bind_eq_bind, Option.bind_some,
          Option.some.injEq, Prod.mk.injEq, and_true]
        omega
      have hread : readUnicode ('0' :: '0' :: hexDigit (c.toNat / 16) ::
          hexDigit (c.toNat % 16) :: rest) = some (c, rest) := by
        have hhigh : ¬ (0xd800 ≤ c.toNat ∧ c.toNat < 0xdc00) := by
          omega
        have hlow : c.toNat < 0xdc00 ∨ 0xe000 ≤ c.toNat := by
          omega
        simp only [readUnicode, hunit c.toNat hcontrol, Option.bind_eq_bind, Option.bind_some,
          if_neg hhigh, hlow, guard, if_true, Char.ofNat_toNat]
        rfl
      simp only [if_pos hcontrol, cons_append, nil_append, readChar, if_true, hread]
    · -- the character itself, which is not the backslash since that one has a short escape
      have hne : c ≠ backslash := by
        rintro rfl
        exact absurd hshort (by decide)
      simp [hcontrol, readChar, hne]
  · have hread : ∀ pair ∈ shortEscapes, ∀ rest,
        readChar (backslash :: pair.2 :: rest) = some (pair.1, rest) := by
      intro pair hpair rest
      simp only [shortEscapes, mem_cons, not_mem_nil, or_false] at hpair
      rcases hpair with rfl | rfl | rfl | rfl | rfl | rfl | rfl <;> rfl
    exact hread _ (mem_shortEscapes hshort) rest

theorem escape_append_inj {c d : Char} {rest rest' : List Char}
    (h : escape c ++ rest = escape d ++ rest') : c = d ∧ rest = rest' := by
  have hread : some (c, rest) = some (d, rest') := by
    rw [← readChar_escape, h, readChar_escape]
  simpa using hread

/-- No escape starts like the end of a literal. -/
theorem escape_ne_quotationMark (c : Char) (rest rest' : List Char) :
    escape c ++ rest ≠ quotationMark :: rest' := by
  intro h
  have hread : some (c, rest) = readChar (quotationMark :: rest') := by
    rw [← readChar_escape, h]
  have hc : c = quotationMark := by
    have hmark : readChar (quotationMark :: rest') = some (quotationMark, rest') := rfl
    rw [hmark] at hread
    exact (Prod.mk.inj (Option.some.inj hread)).1
  subst hc
  exact absurd (cons.inj h).1 (by decide)

/-- The literal of a string. -/
def quote (s : List Char) : List Char :=
  quotationMark :: (s.flatMap escape ++ [quotationMark])

theorem body_append_inj : ∀ {s t rest rest' : List Char},
    s.flatMap escape ++ quotationMark :: rest = t.flatMap escape ++ quotationMark :: rest' →
      s = t ∧ rest = rest'
  | [], [], rest, rest', h => ⟨rfl, (cons.inj h).2⟩
  | [], d :: t, rest, rest', h => by
    rw [flatMap_cons, append_assoc] at h
    exact absurd h.symm (escape_ne_quotationMark d _ _)
  | c :: s, [], rest, rest', h => by
    rw [flatMap_cons, append_assoc] at h
    exact absurd h (escape_ne_quotationMark c _ _)
  | c :: s, d :: t, rest, rest', h => by
    rw [flatMap_cons, flatMap_cons, append_assoc, append_assoc] at h
    obtain ⟨hhead, htail⟩ := escape_append_inj h
    obtain ⟨hs, hrest⟩ := body_append_inj htail
    exact ⟨by rw [hhead, hs], hrest⟩

/-- **A literal can be told from what follows it.** -/
theorem quote_append_inj {s t rest rest' : List Char}
    (h : quote s ++ rest = quote t ++ rest') : s = t ∧ rest = rest' := by
  have hbody : s.flatMap escape ++ quotationMark :: rest =
      t.flatMap escape ++ quotationMark :: rest' := by
    simpa [quote] using h
  exact body_append_inj hbody

/-- The text of an array of two strings. -/
def stringifyPair (first second : String) : String :=
  String.ofList ('[' :: (quote first.toList ++ ',' :: (quote second.toList ++ [']'])))

/-- **Different pairs have different texts.** -/
theorem stringifyPair_inj {first second first' second' : String} :
    stringifyPair first second = stringifyPair first' second' ↔
      first = first' ∧ second = second' := by
  constructor
  · intro h
    have hchars := (cons.inj (String.ofList_injective h)).2
    obtain ⟨hfirst, hrest⟩ := quote_append_inj hchars
    obtain ⟨hsecond, -⟩ := quote_append_inj (cons.inj hrest).2
    exact ⟨String.toList_injective hfirst, String.toList_injective hsecond⟩
  · rintro ⟨rfl, rfl⟩
    rfl

end JsonText

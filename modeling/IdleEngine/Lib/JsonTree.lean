import IdleEngine.Lib.JsonText
import Mathlib.Data.Rat.Defs

/-!
# Values as JSON text

`JsonTree` is a value as JSON writes it, over any type of numbers; `NumberText` is a way to write
the numbers. `write` gives the compact text: no blanks, the members of an object in the order in
which they stand. The first character tells what kind of value follows, and a number ends where a
comma or a closing bracket begins, so the text of a value can be told from what follows it
(`write_append_inj`) and two different values have different texts (`write_injective`).
-/

/-- A value as JSON writes it. -/
inductive JsonTree (Number : Type)
  | null
  | bool (value : Bool)
  | number (value : Number)
  | string (value : String)
  | array (elements : List (JsonTree Number))
  | object (members : List (String × JsonTree Number))

open List

namespace JsonText

/-- The characters at which a value other than a number begins. -/
def openers : List Char := ['n', 't', 'f', quotationMark, '[', '{']

/-- The characters that follow a value inside an array or an object. -/
def closers : List Char := [',', ']', '}']

/-- A way to write numbers. Different numbers have different texts, and a text of a number cannot
be taken for the beginning of another value nor run into what follows it. -/
structure NumberText (Number : Type) where
  text : Number → List Char
  injective : Function.Injective text
  nonempty : ∀ n, text n ≠ []
  notOpener : ∀ n, ∀ c ∈ text n, c ∉ openers
  notCloser : ∀ n, ∀ c ∈ text n, c ∉ closers

end JsonText

namespace JsonTree

open JsonText

variable {Number : Type} (numbers : NumberText Number)

mutual

/-- The text of a value. -/
def write : JsonTree Number → List Char
  | null => ['n', 'u', 'l', 'l']
  | bool true => ['t', 'r', 'u', 'e']
  | bool false => ['f', 'a', 'l', 's', 'e']
  | number value => numbers.text value
  | string value => quote value.toList
  | array elements => '[' :: writeElements [] elements
  | object members => '{' :: writeMembers [] members

/-- The elements of an array with the closing bracket; a separator goes before the first. -/
def writeElements (separator : List Char) : List (JsonTree Number) → List Char
  | [] => [']']
  | element :: rest => separator ++ (write element ++ writeElements [','] rest)

/-- The members of an object with the closing bracket; a separator goes before the first. -/
def writeMembers (separator : List Char) : List (String × JsonTree Number) → List Char
  | [] => ['}']
  | (key, value) :: rest =>
      separator ++ (quote key.toList ++ ':' :: (write value ++ writeMembers [','] rest))

end

/-- The text of an array joins those of its elements. -/
theorem writeElements_eq (elements : List (JsonTree Number)) :
    writeElements numbers [] elements =
      [','].intercalate (elements.map (write numbers)) ++ [']'] := by
  rcases elements with _ | ⟨element, rest⟩
  · rfl
  rw [writeElements, nil_append]
  induction rest generalizing element with
  | nil => simp [writeElements, intercalate]
  | cons next rest ih =>
    rw [writeElements, ih, map_cons, map_cons, map_cons,
      intercalate_cons_cons, append_assoc, append_assoc]

/-- The text of an object joins those of its members. -/
theorem writeMembers_eq (members : List (String × JsonTree Number)) :
    writeMembers numbers [] members =
      [','].intercalate (members.map fun member =>
        quote member.1.toList ++ ':' :: write numbers member.2) ++ ['}'] := by
  rcases members with _ | ⟨⟨key, value⟩, rest⟩
  · rfl
  rw [writeMembers, nil_append]
  induction rest generalizing key value with
  | nil => simp [writeMembers, intercalate]
  | cons next rest ih =>
    obtain ⟨key', value'⟩ := next
    rw [writeMembers, ih, map_cons, map_cons, map_cons, intercalate_cons_cons]
    simp

/-! ### Where a value begins and ends -/

/-- What may stand behind a value: nothing, a comma, or a closing bracket. -/
def Follows (rest : List Char) : Prop := ∀ c ∈ rest.head?, c ∈ closers

theorem follows_elements (elements : List (JsonTree Number)) (rest : List Char) :
    Follows (writeElements numbers [','] elements ++ rest) := by
  intro c hc
  rcases elements with _ | ⟨element, elements⟩
  · obtain rfl : ']' = c := by simpa [writeElements] using hc
    decide
  · obtain rfl : ',' = c := by simpa [writeElements] using hc
    decide

theorem follows_members (members : List (String × JsonTree Number)) (rest : List Char) :
    Follows (writeMembers numbers [','] members ++ rest) := by
  intro c hc
  rcases members with _ | ⟨⟨key, value⟩, members⟩
  · obtain rfl : '}' = c := by simpa [writeMembers] using hc
    decide
  · obtain rfl : ',' = c := by simpa [writeMembers] using hc
    decide

/-- The first character of a value that is not a number. -/
def opener : JsonTree Number → Option Char
  | null => some 'n'
  | bool true => some 't'
  | bool false => some 'f'
  | number _ => none
  | string _ => some quotationMark
  | array _ => some '['
  | object _ => some '{'

/-- **The first character tells the kind of a value.** -/
theorem write_eq_cons (tree : JsonTree Number) : ∃ c text, write numbers tree = c :: text ∧
    c ∉ closers ∧ (if c ∈ openers then some c else none) = tree.opener := by
  have hfixed : ∀ c ∈ openers, c ∉ closers := by
    simp only [openers, forall_mem_cons, not_mem_nil, false_imp_iff, implies_true,
      and_true]
    decide
  rcases tree with _ | value | value | value | elements | members
  · exact ⟨'n', _, by rw [write], hfixed _ (by decide), if_pos (by decide)⟩
  · rcases value with _ | _
    · exact ⟨'f', _, by rw [write], hfixed _ (by decide), if_pos (by decide)⟩
    · exact ⟨'t', _, by rw [write], hfixed _ (by decide), if_pos (by decide)⟩
  · obtain ⟨c, text, htext⟩ := exists_cons_of_ne_nil (numbers.nonempty value)
    have hmem : c ∈ numbers.text value := by
      rw [htext]
      exact mem_cons_self
    exact ⟨c, text, by rw [write, htext], numbers.notCloser value c hmem,
      if_neg (numbers.notOpener value c hmem)⟩
  · exact ⟨quotationMark, _, by rw [write, quote], hfixed _ (by decide), if_pos (by decide)⟩
  · exact ⟨'[', _, by rw [write], hfixed _ (by decide), if_pos (by decide)⟩
  · exact ⟨'{', _, by rw [write], hfixed _ (by decide), if_pos (by decide)⟩

/-- Two values of one kind; truth values are kinds of their own. -/
inductive SameKind : JsonTree Number → JsonTree Number → Prop
  | null : SameKind null null
  | bool (value : Bool) : SameKind (bool value) (bool value)
  | number (m n : Number) : SameKind (number m) (number n)
  | string (s t : String) : SameKind (string s) (string t)
  | array (l l' : List (JsonTree Number)) : SameKind (array l) (array l')
  | object (l l' : List (String × JsonTree Number)) : SameKind (object l) (object l')

theorem sameKind_of_opener {a b : JsonTree Number} (h : a.opener = b.opener) : SameKind a b := by
  rcases a with _ | (_ | _) | _ | _ | _ | _ <;> rcases b with _ | (_ | _) | _ | _ | _ | _ <;>
    first
    | constructor
    | simp [opener, quotationMark] at h

variable {rest rest' : List Char}

/-- Values whose texts begin alike are of one kind. -/
theorem sameKind_of_write {a b : JsonTree Number}
    (h : write numbers a ++ rest = write numbers b ++ rest') : SameKind a b := by
  obtain ⟨c, text, hc, -, ha⟩ := write_eq_cons numbers a
  obtain ⟨d, text', hd, -, hb⟩ := write_eq_cons numbers b
  rw [hc, hd] at h
  obtain ⟨rfl, -⟩ := cons.inj h
  exact sameKind_of_opener (ha.symm.trans hb)

/-- No value begins like the end of an array or an object. -/
theorem write_ne_closer {tree : JsonTree Number} {closer : Char} (hcloser : closer ∈ closers) :
    write numbers tree ++ rest ≠ closer :: rest' := by
  intro h
  obtain ⟨c, text, hc, hnot, -⟩ := write_eq_cons numbers tree
  rw [hc] at h
  obtain ⟨rfl, -⟩ := cons.inj h
  exact hnot hcloser

/-- A number ends where a closer begins. -/
theorem takeWhile_text (n : Number) (hrest : Follows rest) :
    (numbers.text n ++ rest).takeWhile (fun c => decide (c ∉ closers)) = numbers.text n := by
  rw [takeWhile_append_of_pos]
  · rcases rest with _ | ⟨c, rest⟩
    · simp
    · have hc : c ∈ closers := hrest c (by simp)
      rw [takeWhile_cons_of_neg (by simpa using hc), append_nil]
  · intro c hc
    simpa using numbers.notCloser n c hc

theorem text_append_inj {m n : Number} (hrest : Follows rest) (hrest' : Follows rest')
    (h : numbers.text m ++ rest = numbers.text n ++ rest') :
    m = n ∧ rest = rest' := by
  have htext : numbers.text m = numbers.text n := by
    rw [← takeWhile_text numbers m hrest, h, takeWhile_text numbers n hrest']
  rw [htext] at h
  exact ⟨numbers.injective htext, append_cancel_left h⟩

/-! ### Texts tell values apart -/

/-- An array that ends is not one that goes on. -/
theorem closer_ne_elements {separator : List Char} (hseparator : separator = [] ∨ separator = [','])
    {element : JsonTree Number} {more : List Char} :
    ']' :: rest ≠ separator ++ (write numbers element ++ more) ++ rest' := by
  rcases hseparator with rfl | rfl
  · rw [nil_append, append_assoc]
    exact (write_ne_closer numbers (by decide)).symm
  · intro h
    exact absurd (cons.inj h).1 (by decide)

/-- An object that ends is not one that goes on. -/
theorem closer_ne_members {separator : List Char} (hseparator : separator = [] ∨ separator = [','])
    {key more : List Char} :
    '}' :: rest ≠ separator ++ (quote key ++ more) ++ rest' := by
  rcases hseparator with rfl | rfl
  · intro h
    rw [quote] at h
    exact absurd (cons.inj h).1 (by decide)
  · intro h
    exact absurd (cons.inj h).1 (by decide)

mutual

/-- **A value can be told from what follows it.** -/
theorem write_append_inj : ∀ (a b : JsonTree Number) {rest rest' : List Char}, Follows rest →
    Follows rest' → write numbers a ++ rest = write numbers b ++ rest' → a = b ∧ rest = rest'
  | null, b, rest, rest', _, _, h => by
    obtain ⟨⟩ := sameKind_of_write numbers h
    exact ⟨rfl, append_cancel_left h⟩
  | bool value, b, rest, rest', _, _, h => by
    rcases sameKind_of_write numbers h with _ | _
    exact ⟨rfl, append_cancel_left h⟩
  | number value, b, rest, rest', hrest, hrest', h => by
    rcases sameKind_of_write numbers h with _ | _ | ⟨_, value'⟩
    rw [write, write] at h
    obtain ⟨rfl, htail⟩ := text_append_inj numbers hrest hrest' h
    exact ⟨rfl, htail⟩
  | string value, b, rest, rest', _, _, h => by
    rcases sameKind_of_write numbers h with _ | _ | _ | ⟨_, value'⟩
    rw [write, write] at h
    obtain ⟨hvalue, htail⟩ := quote_append_inj h
    exact ⟨congrArg string (String.toList_injective hvalue), htail⟩
  | array elements, b, rest, rest', _, _, h => by
    rcases sameKind_of_write numbers h with _ | _ | _ | _ | ⟨_, elements'⟩
    rw [write, write, cons_append, cons_append] at h
    obtain ⟨helements, htail⟩ := writeElements_append_inj [] (.inl rfl) elements elements'
      (cons.inj h).2
    exact ⟨congrArg array helements, htail⟩
  | object members, b, rest, rest', _, _, h => by
    rcases sameKind_of_write numbers h with _ | _ | _ | _ | _ | ⟨_, members'⟩
    rw [write, write, cons_append, cons_append] at h
    obtain ⟨hmembers, htail⟩ := writeMembers_append_inj [] (.inl rfl) members members'
      (cons.inj h).2
    exact ⟨congrArg object hmembers, htail⟩

theorem writeElements_append_inj (separator : List Char)
    (hseparator : separator = [] ∨ separator = [',']) : ∀ (l l' : List (JsonTree Number))
    {rest rest' : List Char},
      writeElements numbers separator l ++ rest = writeElements numbers separator l' ++ rest' →
      l = l' ∧ rest = rest'
  | [], [], rest, rest', h => by
    rw [writeElements] at h
    exact ⟨rfl, (cons.inj h).2⟩
  | [], element :: l', rest, rest', h => by
    rw [writeElements, writeElements] at h
    exact absurd h (closer_ne_elements numbers hseparator)
  | element :: l, [], rest, rest', h => by
    rw [writeElements, writeElements] at h
    exact absurd h.symm (closer_ne_elements numbers hseparator)
  | element :: l, element' :: l', rest, rest', h => by
    rw [writeElements, writeElements, append_assoc, append_assoc, append_assoc,
      append_assoc] at h
    obtain ⟨helement, htail⟩ := write_append_inj element element' (follows_elements numbers l rest)
      (follows_elements numbers l' rest') (append_cancel_left h)
    obtain ⟨hl, hrest⟩ := writeElements_append_inj [','] (.inr rfl) l l' htail
    exact ⟨by rw [helement, hl], hrest⟩

theorem writeMembers_append_inj (separator : List Char)
    (hseparator : separator = [] ∨ separator = [',']) : ∀ (l l' : List (String × JsonTree Number))
    {rest rest' : List Char},
      writeMembers numbers separator l ++ rest = writeMembers numbers separator l' ++ rest' →
      l = l' ∧ rest = rest'
  | [], [], rest, rest', h => by
    rw [writeMembers] at h
    exact ⟨rfl, (cons.inj h).2⟩
  | [], (key, value) :: l', rest, rest', h => by
    rw [writeMembers, writeMembers] at h
    exact absurd h (closer_ne_members hseparator)
  | (key, value) :: l, [], rest, rest', h => by
    rw [writeMembers, writeMembers] at h
    exact absurd h.symm (closer_ne_members hseparator)
  | (key, value) :: l, (key', value') :: l', rest, rest', h => by
    rw [writeMembers, writeMembers, append_assoc, append_assoc, append_assoc,
      append_assoc] at h
    obtain ⟨hkey, hmember⟩ := quote_append_inj (append_cancel_left h)
    rw [cons_append, cons_append, append_assoc, append_assoc] at hmember
    obtain ⟨hvalue, htail⟩ := write_append_inj value value' (follows_members numbers l rest)
      (follows_members numbers l' rest') (cons.inj hmember).2
    obtain ⟨hl, hrest⟩ := writeMembers_append_inj [','] (.inr rfl) l l' htail
    rw [String.toList_injective hkey, hvalue, hl]
    exact ⟨rfl, hrest⟩

end

/-- **Different values have different texts.** -/
theorem write_injective : Function.Injective (write numbers) := by
  intro a b h
  have hnil : Follows [] := by
    intro c hc
    cases hc
  refine (write_append_inj numbers a b hnil hnil ?_).1
  rw [h]

end JsonTree

/-! ### Rational numbers as text -/

namespace JsonText

/-- The denominator of a fraction; a whole number has none. -/
def denominatorText (den : ℕ) : List Char := if den = 1 then [] else '/' :: Nat.toDigits 10 den

/-- The sign and the digits of a whole number or of a fraction. -/
def fraction (q : ℚ) : List Char :=
  (if q.num < 0 then ['-'] else []) ++ (Nat.toDigits 10 q.num.natAbs ++ denominatorText q.den)

theorem digits_injective : Function.Injective (Nat.toDigits 10) := by
  intro m n h
  rw [← Nat.ofDigitChars_toDigits (b := 10) (n := m) (by decide) (by decide), h,
    Nat.ofDigitChars_toDigits (by decide) (by decide)]

variable {c : Char}

theorem isDigit_of_mem_digits {n : ℕ} (hc : c ∈ Nat.toDigits 10 n) :
    c.isDigit = true :=
  Nat.isDigit_of_mem_toDigits (by decide) (by decide) hc

/-- A character of a fraction. -/
theorem mem_fraction {q : ℚ} (hc : c ∈ fraction q) :
    c.isDigit = true ∨ c = '-' ∨ c = '/' := by
  rw [fraction, mem_append, mem_append] at hc
  rcases hc with hsign | hnum | hden
  · split at hsign
    · exact .inr (.inl (mem_singleton.mp hsign))
    · cases hsign
  · exact .inl (isDigit_of_mem_digits hnum)
  · rw [denominatorText] at hden
    split at hden
    · cases hden
    · rcases mem_cons.mp hden with hslash | hden
      · exact .inr (.inr hslash)
      · exact .inl (isDigit_of_mem_digits hden)

theorem denominatorText_injective : Function.Injective denominatorText := by
  intro m n h
  rw [denominatorText, denominatorText] at h
  split at h
  · next hm =>
    split at h
    · next hn => rw [hm, hn]
    · cases h
  · split at h
    · cases h
    · exact digits_injective (cons.inj h).2

/-- The digits of the numerator end where the denominator begins. -/
theorem takeWhile_digits (n den : ℕ) :
    (Nat.toDigits 10 n ++ denominatorText den).takeWhile Char.isDigit = Nat.toDigits 10 n := by
  rw [takeWhile_append_of_pos fun c hc => isDigit_of_mem_digits hc]
  have hstop : (denominatorText den).takeWhile Char.isDigit = [] := by
    rw [denominatorText]
    split
    · rfl
    · rfl
  rw [hstop, append_nil]

theorem unsigned_inj {m n den den' : ℕ}
    (h : Nat.toDigits 10 m ++ denominatorText den = Nat.toDigits 10 n ++ denominatorText den') :
    m = n ∧ den = den' := by
  have hdigits : Nat.toDigits 10 m = Nat.toDigits 10 n := by
    rw [← takeWhile_digits m den, h, takeWhile_digits]
  rw [hdigits] at h
  exact ⟨digits_injective hdigits, denominatorText_injective (append_cancel_left h)⟩

/-- A minus sign is no digit, so it is not the first character of a natural number. -/
theorem minus_ne_unsigned (m den : ℕ) (rest : List Char) :
    '-' :: rest ≠ Nat.toDigits 10 m ++ denominatorText den := by
  obtain ⟨c, digits, hdigits⟩ := exists_cons_of_ne_nil (Nat.toDigits_ne_nil (b := 10) (n := m))
  intro h
  rw [hdigits] at h
  have hdigit : '-'.isDigit = true := by
    rw [(cons.inj h).1]
    refine isDigit_of_mem_digits (n := m) ?_
    rw [hdigits]
    exact mem_cons_self
  exact absurd hdigit (by decide)

theorem fraction_injective : Function.Injective fraction := by
  intro p q h
  -- with the same sign the numerators follow from their absolute values
  have hparts : (p.num < 0 ↔ q.num < 0) ∧ p.num.natAbs = q.num.natAbs ∧ p.den = q.den := by
    rw [fraction, fraction] at h
    by_cases hp : p.num < 0 <;> by_cases hq : q.num < 0
    · rw [if_pos hp, if_pos hq] at h
      exact ⟨iff_of_true hp hq, unsigned_inj (append_cancel_left h)⟩
    · rw [if_pos hp, if_neg hq] at h
      exact absurd h (minus_ne_unsigned _ _ _)
    · rw [if_neg hp, if_pos hq] at h
      exact absurd h.symm (minus_ne_unsigned _ _ _)
    · rw [if_neg hp, if_neg hq] at h
      exact ⟨iff_of_false hp hq, unsigned_inj h⟩
  obtain ⟨hsign, hnum, hden⟩ := hparts
  have hnum' : p.num = q.num := by
    omega
  exact Rat.ext hnum' hden

theorem not_isDigit_of_mem_openers (hc : c ∈ openers) : c.isDigit = false := by
  revert c
  simp only [openers, forall_mem_cons, not_mem_nil, false_imp_iff, implies_true, and_true]
  decide

theorem not_isDigit_of_mem_closers (hc : c ∈ closers) : c.isDigit = false := by
  revert c
  simp only [closers, forall_mem_cons, not_mem_nil, false_imp_iff, implies_true, and_true]
  decide

/-- Rational numbers as whole numbers and fractions. -/
def fractionText : NumberText ℚ where
  text := fraction
  injective := fraction_injective
  nonempty q h := by
    rw [fraction, List.append_eq_nil_iff, List.append_eq_nil_iff] at h
    exact Nat.toDigits_ne_nil h.2.1
  notOpener q c hc := by
    rcases mem_fraction hc with hdigit | rfl | rfl
    · intro hopener
      rw [not_isDigit_of_mem_openers hopener] at hdigit
      cases hdigit
    · decide
    · decide
  notCloser q c hc := by
    rcases mem_fraction hc with hdigit | rfl | rfl
    · intro hcloser
      rw [not_isDigit_of_mem_closers hcloser] at hdigit
      cases hdigit
    · decide
    · decide

end JsonText

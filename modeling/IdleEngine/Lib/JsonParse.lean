import IdleEngine.Lib.JsonTree

/-!
# Reading JSON text

`parse` reads a text as JSON: blanks may stand between two tokens, an escape may be a short one or
four hexadecimal digits, and a number is what stands there up to a closer or a blank, read by a
`NumberReader`. The fuel of the readers is the length of the text, since every call reads on.

The text that `write` gives of a value is read back as that value, whatever follows it
(`readValue_write`), so `parse` undoes `write` (`parse_write`). A text of `write` has no control
characters (`printable_write`), hence no line breaks.
-/

open List

open Option

namespace JsonText

/-- The characters that may stand between two tokens. -/
def isBlank (c : Char) : Bool :=
  c.toNat == 32 || c.toNat == 9 || c.toNat == 10 || c.toNat == 13

def skipBlanks (text : List Char) : List Char := text.dropWhile isBlank

/-- A way to read numbers back. No number has a blank or a control character in its text. -/
structure NumberReader {Number : Type} (numbers : NumberText Number) where
  read : List Char → Option Number
  read_text : ∀ n, read (numbers.text n) = some n
  printable : ∀ n, ∀ c ∈ numbers.text n, 32 < c.toNat

/-! ### Literals -/

/-- A literal behind its opening mark. -/
def readBody : ℕ → List Char → Option (List Char × List Char)
  | 0, _ => none
  | fuel + 1, text =>
      if text.head? = some quotationMark then some ([], text.tail)
      else do
        let (c, rest) ← readChar text
        let (chars, rest) ← readBody fuel rest
        some (c :: chars, rest)

theorem escape_ne_nil (c : Char) : escape c ≠ [] := by
  intro h
  have hread := readChar_escape c []
  rw [h] at hread
  cases hread

theorem length_le_body (s : List Char) : s.length ≤ (s.flatMap escape).length := by
  induction s with
  | nil => simp
  | cons c s ih =>
    have hpos : 0 < (escape c).length := length_pos_iff.mpr (escape_ne_nil c)
    rw [flatMap_cons, length_append, length_cons]
    omega

theorem readBody_escape (s : List Char) (rest : List Char) :
    ∀ fuel, s.length < fuel →
      readBody fuel (s.flatMap escape ++ quotationMark :: rest) = some (s, rest) := by
  induction s with
  | nil =>
    intro fuel hfuel
    obtain ⟨fuel, rfl⟩ := Nat.exists_eq_add_one_of_ne_zero (by omega : fuel ≠ 0)
    simp [readBody]
  | cons c s ih =>
    intro fuel hfuel
    rw [length_cons] at hfuel
    obtain ⟨fuel, rfl⟩ := Nat.exists_eq_add_one_of_ne_zero (by omega : fuel ≠ 0)
    rw [flatMap_cons, append_assoc]
    set more := s.flatMap escape ++ quotationMark :: rest with hmore
    -- no escape begins like the end of the literal
    have hopen : (escape c ++ more).head? ≠ some quotationMark := by
      intro hhead
      obtain ⟨tail, htail⟩ : ∃ tail, escape c ++ more = quotationMark :: tail :=
        ⟨_, eq_cons_of_mem_head? hhead⟩
      exact escape_ne_quotationMark c more tail htail
    rw [readBody, if_neg hopen, readChar_escape]
    simp [ih fuel (by omega)]

end JsonText

namespace JsonTree

open JsonText

variable {Number : Type} {numbers : NumberText Number} (reader : NumberReader numbers)

/-- A fixed word, and the text behind it. -/
def readWord (word text : List Char) : Option (List Char) :=
  if text.take word.length = word then some (text.drop word.length) else none

@[simp]
theorem readWord_append (word rest : List Char) : readWord word (word ++ rest) = some rest := by
  rw [readWord, take_left, if_pos rfl, drop_left]

/-- The characters of a number: up to a closer or a blank. -/
def isNumberChar (c : Char) : Bool := decide (c ∉ closers) && !isBlank c

mutual

/-- A value, with the text behind it. -/
def readValue : ℕ → List Char → Option (JsonTree Number × List Char)
  | 0, _ => none
  | fuel + 1, text =>
      let text := skipBlanks text
      let rest := text.tail
      match text.head? with
      | none => none
      | some c =>
          if c = 'n' then (readWord ['u', 'l', 'l'] rest).map fun rest => (null, rest)
          else if c = 't' then (readWord ['r', 'u', 'e'] rest).map fun rest => (bool true, rest)
          else if c = 'f' then
            (readWord ['a', 'l', 's', 'e'] rest).map fun rest => (bool false, rest)
          else if c = quotationMark then
            (readBody rest.length rest).map fun (chars, rest) => (string (String.ofList chars), rest)
          else if c = '[' then
            (readElements true fuel rest).map fun (elements, rest) => (array elements, rest)
          else if c = '{' then
            (readMembers true fuel rest).map fun (members, rest) => (object members, rest)
          else
            (reader.read (text.takeWhile isNumberChar)).map fun n =>
              (number n, text.dropWhile isNumberChar)

/-- The elements of an array up to its closing bracket; a comma stands before all but the first. -/
def readElements (first : Bool) : ℕ → List Char → Option (List (JsonTree Number) × List Char)
  | 0, _ => none
  | fuel + 1, text =>
      let text := skipBlanks text
      if text.head? = some ']' then some ([], text.tail)
      else do
        let text ← if first then some text else readWord [','] text
        let (element, rest) ← readValue fuel text
        let (elements, rest) ← readElements false fuel rest
        some (element :: elements, rest)

/-- The members of an object up to its closing bracket; a comma stands before all but the first. -/
def readMembers (first : Bool) :
    ℕ → List Char → Option (List (String × JsonTree Number) × List Char)
  | 0, _ => none
  | fuel + 1, text =>
      let text := skipBlanks text
      if text.head? = some '}' then some ([], text.tail)
      else do
        let text ← if first then some text else readWord [','] text
        let text ← readWord [quotationMark] (skipBlanks text)
        let (key, rest) ← readBody text.length text
        let rest ← readWord [':'] (skipBlanks rest)
        let (value, rest) ← readValue fuel rest
        let (members, rest) ← readMembers false fuel rest
        some ((String.ofList key, value) :: members, rest)

end

/-- `JSON.parse`, up to what the members of an object become. -/
def parse (text : List Char) : Option (JsonTree Number) := do
  let (tree, rest) ← readValue reader (text.length + 1) text
  if (skipBlanks rest).isEmpty then some tree else none

/-! ### What is written is read back -/

theorem skipBlanks_cons {c : Char} (hc : isBlank c = false) (rest : List Char) :
    skipBlanks (c :: rest) = c :: rest := by
  rw [skipBlanks, dropWhile_cons_of_neg]
  simp [hc]

theorem isBlank_of_printable {c : Char} (hc : 32 < c.toNat) : isBlank c = false := by
  have hne : c.toNat ≠ 32 ∧ c.toNat ≠ 9 ∧ c.toNat ≠ 10 ∧ c.toNat ≠ 13 := by
    omega
  simp [isBlank, hne]

/-- No value begins with a blank. -/
theorem write_eq_cons_nonblank (reader : NumberReader numbers) (tree : JsonTree Number) :
    ∃ c text, write numbers tree = c :: text ∧ c ∉ closers ∧ isBlank c = false := by
  obtain ⟨c, text, htext, hcloser, hopener⟩ := write_eq_cons numbers tree
  refine ⟨c, text, htext, hcloser, ?_⟩
  by_cases hc : c ∈ openers
  · have hfixed : ∀ c ∈ openers, isBlank c = false := by
      simp only [openers, forall_mem_cons, not_mem_nil, false_imp_iff, implies_true,
        and_true]
      decide
    exact hfixed c hc
  · -- only a number begins with another character
    rw [if_neg hc] at hopener
    rcases tree with _ | (_ | _) | n | _ | _ | _ <;> try cases hopener
    refine isBlank_of_printable (reader.printable n c ?_)
    rw [write] at htext
    rw [htext]
    exact mem_cons_self

theorem skipBlanks_write (reader : NumberReader numbers) (tree : JsonTree Number)
    (rest : List Char) :
    skipBlanks (write numbers tree ++ rest) = write numbers tree ++ rest := by
  obtain ⟨c, text, htext, -, hblank⟩ := write_eq_cons_nonblank reader tree
  rw [htext, cons_append, skipBlanks_cons hblank]

theorem length_write_pos (numbers : NumberText Number) (tree : JsonTree Number) :
    0 < (write numbers tree).length := by
  obtain ⟨c, text, htext, -⟩ := write_eq_cons numbers tree
  rw [htext]
  simp

theorem length_writeElements_pos (numbers : NumberText Number) (separator : List Char)
    (elements : List (JsonTree Number)) :
    0 < (writeElements numbers separator elements).length := by
  rcases elements with _ | ⟨element, elements⟩
  · simp [writeElements]
  · have hpos := length_write_pos numbers element
    simp only [writeElements, length_append]
    omega

theorem length_writeMembers_pos (numbers : NumberText Number) (separator : List Char)
    (members : List (String × JsonTree Number)) :
    0 < (writeMembers numbers separator members).length := by
  rcases members with _ | ⟨⟨key, value⟩, members⟩
  · simp [writeMembers]
  · simp only [writeMembers, quote, length_append, length_cons]
    omega

/-- What is read behind the first character of a value. -/
theorem readValue_cons (fuel : ℕ) {c : Char} (hc : isBlank c = false) (rest : List Char) :
    readValue reader (fuel + 1) (c :: rest) =
      if c = 'n' then (readWord ['u', 'l', 'l'] rest).map fun rest => (null, rest)
      else if c = 't' then (readWord ['r', 'u', 'e'] rest).map fun rest => (bool true, rest)
      else if c = 'f' then
        (readWord ['a', 'l', 's', 'e'] rest).map fun rest => (bool false, rest)
      else if c = quotationMark then
        (readBody rest.length rest).map fun (chars, rest) => (string (String.ofList chars), rest)
      else if c = '[' then
        (readElements reader true fuel rest).map fun (elements, rest) => (array elements, rest)
      else if c = '{' then
        (readMembers reader true fuel rest).map fun (members, rest) => (object members, rest)
      else
        (reader.read ((c :: rest).takeWhile isNumberChar)).map fun n =>
          (number n, (c :: rest).dropWhile isNumberChar) := by
  rw [readValue, skipBlanks_cons hc]
  rfl

/-- A number is read up to the closer behind it. -/
theorem readValue_number (n : Number) (fuel : ℕ) {rest : List Char} (hrest : Follows rest) :
    readValue reader (fuel + 1) (numbers.text n ++ rest) = some (number n, rest) := by
  have hchars : ∀ c ∈ numbers.text n, isNumberChar c = true := by
    intro c hc
    have hcloser := numbers.notCloser n c hc
    have hblank := isBlank_of_printable (reader.printable n c hc)
    simp [isNumberChar, hcloser, hblank]
  have hstop : rest.takeWhile isNumberChar = [] ∧ rest.dropWhile isNumberChar = rest := by
    rcases rest with _ | ⟨c, rest⟩
    · simp
    · have hc : isNumberChar c = false := by
        simp [isNumberChar, hrest c (by simp)]
      simp [hc]
  have htake : (numbers.text n ++ rest).takeWhile isNumberChar = numbers.text n := by
    rw [takeWhile_append_of_pos hchars, hstop.1, append_nil]
  have hdrop : (numbers.text n ++ rest).dropWhile isNumberChar = rest := by
    rw [dropWhile_append_of_pos hchars, hstop.2]
  obtain ⟨c, text, htext⟩ := exists_cons_of_ne_nil (numbers.nonempty n)
  have hmem : c ∈ numbers.text n := by
    rw [htext]
    exact mem_cons_self
  have hopener := numbers.notOpener n c hmem
  simp only [openers, mem_cons, not_mem_nil, or_false, not_or] at hopener
  obtain ⟨hnull, htrue, hfalse, hstring, harray, hobject⟩ := hopener
  rw [htext, cons_append,
    readValue_cons reader fuel (isBlank_of_printable (reader.printable n c hmem)), if_neg hnull,
    if_neg htrue, if_neg hfalse, if_neg hstring, if_neg harray, if_neg hobject, ← cons_append,
    ← htext, htake, hdrop, reader.read_text, map_some]

/-- A literal is read behind its opening mark. -/
theorem readBody_quote (s rest : List Char) (fuel : ℕ)
    (hfuel : (s.flatMap escape).length < fuel) :
    readBody fuel (s.flatMap escape ++ [quotationMark] ++ rest) = some (s, rest) := by
  have hlength := length_le_body s
  rw [append_assoc]
  exact readBody_escape s rest fuel (by omega)

mutual

/-- **The text of a value is read back as the value**, with the text behind it. -/
theorem readValue_write : ∀ (tree : JsonTree Number) (fuel : ℕ) (rest : List Char),
    (write numbers tree).length ≤ fuel → Follows rest →
      readValue reader fuel (write numbers tree ++ rest) = some (tree, rest)
  | tree, 0, rest, hfuel, _ => by
    have hpos := length_write_pos numbers tree
    omega
  | null, fuel + 1, rest, _, _ => by
    rw [write, cons_append, readValue_cons reader fuel (by decide), if_pos rfl,
      readWord_append, map_some]
  | bool true, fuel + 1, rest, _, _ => by
    rw [write, cons_append, readValue_cons reader fuel (by decide), if_neg (by decide),
      if_pos rfl, readWord_append, map_some]
  | bool false, fuel + 1, rest, _, _ => by
    rw [write, cons_append, readValue_cons reader fuel (by decide), if_neg (by decide),
      if_neg (by decide), if_pos rfl, readWord_append, map_some]
  | number n, fuel + 1, rest, _, hrest => by
    rw [write, readValue_number reader n fuel hrest]
  | string s, fuel + 1, rest, _, _ => by
    have hread := readBody_quote s.toList rest
      (s.toList.flatMap escape ++ [quotationMark] ++ rest).length (by simp)
    rw [write, quote, cons_append, readValue_cons reader fuel (by decide),
      if_neg (by decide), if_neg (by decide), if_neg (by decide), if_pos rfl, hread]
    simp
  | array elements, fuel + 1, rest, hfuel, _ => by
    rw [write, length_cons] at hfuel
    have hread := readElements_write elements true fuel rest (by simpa using hfuel)
    rw [if_pos rfl] at hread
    rw [write, cons_append, readValue_cons reader fuel (by decide), if_neg (by decide),
      if_neg (by decide), if_neg (by decide), if_neg (by decide), if_pos rfl, hread,
      map_some]
  | object members, fuel + 1, rest, hfuel, _ => by
    rw [write, length_cons] at hfuel
    have hread := readMembers_write members true fuel rest (by simpa using hfuel)
    rw [if_pos rfl] at hread
    rw [write, cons_append, readValue_cons reader fuel (by decide), if_neg (by decide),
      if_neg (by decide), if_neg (by decide), if_neg (by decide), if_neg (by decide), if_pos rfl,
      hread, map_some]

theorem readElements_write : ∀ (elements : List (JsonTree Number)) (first : Bool) (fuel : ℕ)
    (rest : List Char),
    (writeElements numbers (if first then [] else [',']) elements).length ≤ fuel →
      readElements reader first fuel
        (writeElements numbers (if first then [] else [',']) elements ++ rest) =
          some (elements, rest)
  | elements, first, 0, rest, hfuel => by
    have hpos := length_writeElements_pos numbers (if first then [] else [','])
      elements
    omega
  | [], first, fuel + 1, rest, _ => by
    rw [writeElements, readElements, cons_append, skipBlanks_cons (by decide)]
    rfl
  | element :: elements, first, fuel + 1, rest, hfuel => by
    have hpos := length_write_pos numbers element
    have hrest := length_writeElements_pos numbers [','] elements
    simp only [writeElements, length_append] at hfuel
    have hvalue := readValue_write element fuel (writeElements numbers [','] elements ++ rest)
      (by omega) (follows_elements numbers elements rest)
    have helements := readElements_write elements false fuel rest
      (by simp only [Bool.false_eq_true, if_false]; omega)
    rw [if_neg Bool.false_ne_true] at helements
    obtain ⟨c, text, htext, hcloser, hblank⟩ := write_eq_cons_nonblank reader element
    cases first with
    | true =>
      -- the first character of a value never closes the array
      have hend : c ≠ ']' := by
        rintro rfl
        exact hcloser (by decide)
      have hhead : (write numbers element ++
          (writeElements numbers [','] elements ++ rest)).head? ≠ some ']' := by
        simp [htext, hend]
      rw [writeElements, if_pos rfl, nil_append, append_assoc, readElements,
        skipBlanks_write reader, if_neg hhead]
      simp only [if_true, hvalue, helements, bind_eq_bind, bind_some]
    | false =>
      have hhead : (',' :: (write numbers element ++
          (writeElements numbers [','] elements ++ rest))).head? ≠ some ']' := by
        simp
      have hword : readWord [','] (',' :: (write numbers element ++
          (writeElements numbers [','] elements ++ rest))) =
            some (write numbers element ++ (writeElements numbers [','] elements ++ rest)) :=
        readWord_append [','] _
      rw [writeElements, if_neg Bool.false_ne_true, cons_append, nil_append,
        cons_append, append_assoc, readElements, skipBlanks_cons (by decide),
        if_neg hhead]
      simp only [Bool.false_eq_true, if_false, hword, hvalue, helements, bind_eq_bind,
        bind_some]

theorem readMembers_write : ∀ (members : List (String × JsonTree Number)) (first : Bool)
    (fuel : ℕ) (rest : List Char),
    (writeMembers numbers (if first then [] else [',']) members).length ≤ fuel →
      readMembers reader first fuel
        (writeMembers numbers (if first then [] else [',']) members ++ rest) =
          some (members, rest)
  | members, first, 0, rest, hfuel => by
    have hpos := length_writeMembers_pos numbers (if first then [] else [','])
      members
    omega
  | [], first, fuel + 1, rest, _ => by
    rw [writeMembers, readMembers, cons_append, skipBlanks_cons (by decide)]
    rfl
  | (key, value) :: members, first, fuel + 1, rest, hfuel => by
    have hrest := length_writeMembers_pos numbers [','] members
    simp only [writeMembers, quote, length_append, length_cons] at hfuel
    have hvalue := readValue_write value fuel (writeMembers numbers [','] members ++ rest)
      (by omega) (follows_members numbers members rest)
    have hmembers := readMembers_write members false fuel rest
      (by simp only [Bool.false_eq_true, if_false]; omega)
    rw [if_neg Bool.false_ne_true] at hmembers
    -- the member behind the separator
    set behind := ':' :: (write numbers value ++ (writeMembers numbers [','] members ++ rest))
      with hbehind
    have hskip : skipBlanks (quote key.toList ++ behind) = quote key.toList ++ behind := by
      rw [quote, cons_append, skipBlanks_cons (by decide)]
    have hopen : readWord [quotationMark] (quote key.toList ++ behind) =
        some (key.toList.flatMap escape ++ [quotationMark] ++ behind) := by
      rw [quote, cons_append]
      exact readWord_append [quotationMark] _
    have hbody := readBody_quote key.toList behind
      (key.toList.flatMap escape ++ [quotationMark] ++ behind).length (by simp)
    have hcolon : readWord [':'] (skipBlanks behind) =
        some (write numbers value ++ (writeMembers numbers [','] members ++ rest)) := by
      rw [hbehind, skipBlanks_cons (by decide)]
      exact readWord_append [':'] _
    cases first with
    | true =>
      have hend : quotationMark ≠ '}' := by
        decide
      rw [writeMembers, if_pos rfl, nil_append, append_assoc, cons_append,
        append_assoc, ← hbehind, readMembers]
      have hhead : (quote key.toList ++ behind).head? ≠ some '}' := by
        simp [quote, hend]
      rw [hskip, if_neg hhead]
      simp only [if_true, hskip, hopen, hbody, hcolon, hvalue, hmembers, bind_eq_bind,
        bind_some, String.ofList_toList]
    | false =>
      have hhead : (',' :: (quote key.toList ++ behind)).head? ≠ some '}' := by
        simp
      rw [writeMembers, if_neg Bool.false_ne_true, cons_append, nil_append,
        cons_append, append_assoc, cons_append, append_assoc, ← hbehind,
        readMembers, skipBlanks_cons (by decide), if_neg hhead]
      have hword : readWord [','] (',' :: (quote key.toList ++ behind)) =
          some (quote key.toList ++ behind) :=
        readWord_append [','] _
      simp only [Bool.false_eq_true, if_false, hword, hskip, hopen, hbody, hcolon, hvalue,
        hmembers, bind_eq_bind, bind_some, String.ofList_toList]

end

/-- **Reading undoes writing.** -/
theorem parse_write (tree : JsonTree Number) : parse reader (write numbers tree) = some tree := by
  have hread := readValue_write reader tree ((write numbers tree).length + 1) [] (by omega)
    (by intro c hc; cases hc)
  rw [append_nil] at hread
  rw [parse, hread]
  rfl

end JsonTree

/-! ### The characters of a text -/

namespace JsonText

theorem printable_escape {c d : Char} (hd : d ∈ escape c) : 32 ≤ d.toNat := by
  rw [escape] at hd
  split at hd
  · next letter hletter =>
    have hletters : ∀ pair ∈ shortEscapes, 32 ≤ pair.2.toNat := by
      simp only [shortEscapes, forall_mem_cons, not_mem_nil, false_imp_iff, implies_true,
        and_true]
      decide
    rcases mem_cons.mp hd with rfl | hd
    · decide
    · obtain rfl := mem_singleton.mp hd
      exact hletters _ (mem_shortEscapes hletter)
  · split at hd
    · next hcontrol =>
      have hdigits : ∀ n < 32, 32 ≤ (hexDigit (n / 16)).toNat ∧ 32 ≤ (hexDigit (n % 16)).toNat := by
        decide
      obtain ⟨hhigh, hlow⟩ := hdigits c.toNat hcontrol
      simp only [mem_cons, not_mem_nil, or_false] at hd
      rcases hd with rfl | rfl | rfl | rfl | rfl | rfl
      · decide
      · decide
      · decide
      · decide
      · exact hhigh
      · exact hlow
    · next hcontrol =>
      obtain rfl := mem_singleton.mp hd
      omega

theorem forall_printable {l : List Char} (h : (l.all fun c => decide (32 ≤ c.toNat)) = true) :
    ∀ c ∈ l, 32 ≤ c.toNat :=
  fun c hc => of_decide_eq_true (all_eq_true.mp h c hc)

theorem printable_quote {s : List Char} {c : Char} (hc : c ∈ quote s) : 32 ≤ c.toNat := by
  simp only [quote, mem_cons, mem_append, mem_flatMap, not_mem_nil,
    or_false] at hc
  rcases hc with rfl | ⟨d, -, hd⟩ | rfl
  · decide
  · exact printable_escape hd
  · decide

end JsonText

namespace JsonTree

open JsonText

variable {Number : Type} {numbers : NumberText Number}

mutual

/-- **No control character stands in the text of a value**; in particular it is one line. -/
theorem printable_write (reader : NumberReader numbers) :
    ∀ (tree : JsonTree Number), ∀ c ∈ write numbers tree, 32 ≤ c.toNat
  | null => by
    rw [write]
    exact forall_printable rfl
  | bool true => by
    rw [write]
    exact forall_printable rfl
  | bool false => by
    rw [write]
    exact forall_printable rfl
  | number n => by
    intro c hc
    rw [write] at hc
    exact (reader.printable n c hc).le
  | string s => by
    intro c hc
    rw [write] at hc
    exact printable_quote hc
  | array elements => by
    intro c hc
    rw [write] at hc
    rcases mem_cons.mp hc with rfl | hc
    · decide
    · exact printable_writeElements reader elements [] (by simp) c hc
  | object members => by
    intro c hc
    rw [write] at hc
    rcases mem_cons.mp hc with rfl | hc
    · decide
    · exact printable_writeMembers reader members [] (by simp) c hc

theorem printable_writeElements (reader : NumberReader numbers) :
    ∀ (elements : List (JsonTree Number)) (separator : List Char),
      (∀ c ∈ separator, 32 ≤ c.toNat) →
        ∀ c ∈ writeElements numbers separator elements, 32 ≤ c.toNat
  | [], _, _ => by
    rw [writeElements]
    exact forall_printable rfl
  | element :: elements, separator, hseparator => by
    intro c hc
    rw [writeElements, mem_append, mem_append] at hc
    rcases hc with hc | hc | hc
    · exact hseparator c hc
    · exact printable_write reader element c hc
    · exact printable_writeElements reader elements [','] (forall_printable rfl) c hc

theorem printable_writeMembers (reader : NumberReader numbers) :
    ∀ (members : List (String × JsonTree Number)) (separator : List Char),
      (∀ c ∈ separator, 32 ≤ c.toNat) →
        ∀ c ∈ writeMembers numbers separator members, 32 ≤ c.toNat
  | [], _, _ => by
    rw [writeMembers]
    exact forall_printable rfl
  | (key, value) :: members, separator, hseparator => by
    intro c hc
    rw [writeMembers, mem_append, mem_append, mem_cons, mem_append] at hc
    rcases hc with hc | hc | rfl | hc | hc
    · exact hseparator c hc
    · exact printable_quote hc
    · decide
    · exact printable_write reader value c hc
    · exact printable_writeMembers reader members [','] (forall_printable rfl) c hc

end

/-- An object is written between braces. -/
theorem write_object (numbers : NumberText Number) (members : List (String × JsonTree Number)) :
    ∃ body, write numbers (object members) = '{' :: body ∧ body.getLast? = some '}' := by
  have hlast : ∀ (members : List (String × JsonTree Number)) (separator : List Char),
      (writeMembers numbers separator members).getLast? = some '}' := by
    intro members
    induction members with
    | nil =>
      intro separator
      rw [writeMembers]
      rfl
    | cons member members ih =>
      intro separator
      obtain ⟨key, value⟩ := member
      rw [writeMembers, getLast?_append, getLast?_append, getLast?_cons,
        getLast?_append, ih [',']]
      rfl
  exact ⟨writeMembers numbers [] members, by rw [write], hlast members []⟩

end JsonTree

namespace JsonText

/-- Read a fraction as `fraction` writes it. -/
def readFraction (text : List Char) : ℚ :=
  let negative : Bool := text.head? = some '-'
  let unsigned := if negative then text.tail else text
  let num := Nat.ofDigitChars 10 (unsigned.takeWhile Char.isDigit) 0
  let behind := unsigned.dropWhile Char.isDigit
  let den := if behind = [] then 1 else Nat.ofDigitChars 10 behind.tail 0
  mkRat (if negative then -(num : ℤ) else num) den

theorem readFraction_fraction (q : ℚ) : readFraction (fraction q) = q := by
  have hparts : ∀ m den : ℕ,
      Nat.ofDigitChars 10 ((Nat.toDigits 10 m ++ denominatorText den).takeWhile Char.isDigit) 0 = m ∧
      (Nat.toDigits 10 m ++ denominatorText den).dropWhile Char.isDigit = denominatorText den := by
    intro m den
    have htake := takeWhile_digits m den
    have hall := takeWhile_append_dropWhile (p := Char.isDigit)
      (l := Nat.toDigits 10 m ++ denominatorText den)
    rw [htake] at hall
    exact ⟨by rw [htake, Nat.ofDigitChars_toDigits (by decide) (by decide)],
      append_cancel_left hall⟩
  have hden : ∀ den : ℕ, (if denominatorText den = [] then 1
      else Nat.ofDigitChars 10 (denominatorText den).tail 0) = den := by
    intro den
    rw [denominatorText]
    by_cases hone : den = 1
    · simp [hone]
    · simp [hone, Nat.ofDigitChars_toDigits]
  obtain ⟨hnum, hbehind⟩ := hparts q.num.natAbs q.den
  by_cases hneg : q.num < 0
  · have hvalue : -((q.num.natAbs : ℕ) : ℤ) = q.num := by
      omega
    have htext : fraction q = '-' :: (Nat.toDigits 10 q.num.natAbs ++ denominatorText q.den) := by
      rw [fraction, if_pos hneg]
      rfl
    simp only [readFraction, htext, head?_cons, decide_true, if_true, tail_cons, hnum,
      hbehind, hden, hvalue, Rat.mkRat_self]
  · have hvalue : ((q.num.natAbs : ℕ) : ℤ) = q.num := by
      omega
    have htext : fraction q = Nat.toDigits 10 q.num.natAbs ++ denominatorText q.den := by
      rw [fraction, if_neg hneg]
      rfl
    have hhead : (Nat.toDigits 10 q.num.natAbs ++ denominatorText q.den).head? ≠ some '-' := by
      intro hhead
      exact minus_ne_unsigned q.num.natAbs q.den _ (eq_cons_of_mem_head? hhead).symm
    simp only [readFraction, htext, decide_eq_false hhead, Bool.false_eq_true, if_false, hnum,
      hbehind, hden, hvalue, Rat.mkRat_self]

/-- Rational numbers are read back from their fractions. -/
def fractionReader : NumberReader fractionText where
  read text := some (readFraction text)
  read_text q := congrArg some (readFraction_fraction q)
  printable q c hc := by
    rcases mem_fraction hc with hdigit | rfl | rfl
    · have hcode : 48 ≤ c.toNat := by
        rw [Char.isDigit, Bool.and_eq_true] at hdigit
        exact of_decide_eq_true hdigit.1
      omega
    · decide
    · decide

end JsonText

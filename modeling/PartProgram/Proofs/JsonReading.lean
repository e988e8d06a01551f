/-
Reading JSON.

The reader takes any text of JSON, with white space between its parts, escapes of every kind and
numbers as they are spelled there, and nothing else.  It is here to say what a line of the
journal holds: what is written is read back as what it was.

Whatever is read is read from the front of the characters, and what is behind it is left.  So for
each kind of part there is one fact: the reader, let loose on the text of a part with anything
behind it, gives the part and leaves the rest.  Words and numbers have no mark at their ends, and
what is behind them must not go on with a letter or a digit.
-/
import PartProgram.Journal.Json
import PartProgram.Proofs.JobSettings
import PartProgram.Proofs.NumericModes

namespace PartProgram

namespace Decimal.Binary

variable {b : Binary}

/-- The sign, the exponent and the fraction are all the bits that there are. -/
theorem eq_of_ofBits? {m n : Nat} (hm : m < 2 ^ 64) (hn : n < 2 ^ 64) (h : ofBits? m = some b)
    (h' : ofBits? n = some b) : m = n := by
  have hparts {k : Nat} (hk : ofBits? k = some b) : decide (k / 2 ^ 63 % 2 = 1) = b.negative
      ∧ (k / 2 ^ 52 % 2048 = 0 ∧ b.significand = k % 2 ^ 52 ∧ b.exponent = -1074
        ∨ k / 2 ^ 52 % 2048 ≠ 0 ∧ b.significand = k % 2 ^ 52 + 2 ^ 52 ∧ b.exponent = (k / 2 ^ 52 % 2048 : Nat) - 1075) := by
    unfold ofBits? at hk
    dsimp only at hk
    split at hk
    · cases hk
    · split at hk
      · rename_i hzero
        obtain rfl := Option.some.inj hk
        exact ⟨rfl, Or.inl ⟨hzero, rfl, rfl⟩⟩
      · rename_i hnormal
        obtain rfl := Option.some.inj hk
        exact ⟨rfl, Or.inr ⟨hnormal, rfl, rfl⟩⟩
  obtain ⟨hsign, hrest⟩ := hparts h
  obtain ⟨hsign', hrest'⟩ := hparts h'
  have hsame := decide_eq_decide.mp (hsign.trans hsign'.symm)
  omega

/-- A number is one float only. -/
theorem eq_of_ofFloat? {x y : Float} (hx : ofFloat? x = some b) (hy : ofFloat? y = some b) : x = y := by
  have hbits := eq_of_ofBits? x.toBits.toNat_lt y.toBits.toNat_lt hx hy
  exact Float.toBits_inj.mp (UInt64.toNat_inj.mp hbits)

end Decimal.Binary

namespace Json

open Decimal

/-! ### The reader -/

/-- Whether `c` may stand between the parts of a text. -/
def isSpace (c : Char) : Bool := c == ' ' || c == '\t' || c == '\n' || c == '\r'

/-- The characters from the next part on. -/
def skip (cs : List Char) : List Char := cs.dropWhile isSpace

/-- The value of a hexadecimal digit. -/
def hexValue? (c : Char) : Option Nat :=
  if c.isDigit then some (c.toNat - '0'.toNat)
  else if 'a' ≤ c ∧ c ≤ 'f' then some (c.toNat - 'a'.toNat + 10)
  else if 'A' ≤ c ∧ c ≤ 'F' then some (c.toNat - 'A'.toNat + 10)
  else none

/-- Reads a unit of sixteen bits. -/
def readUnit? : List Char → Option (Nat × List Char)
  | a :: b :: c :: d :: rest => do
    return ((((← hexValue? a) * 16 + (← hexValue? b)) * 16 + (← hexValue? c)) * 16 + (← hexValue? d), rest)
  | _ => none

/-- Reads the second one of a pair of surrogates, which tells the code point of the pair. -/
def readPair? (high : Nat) : List Char → Option (Nat × List Char)
  | '\\' :: 'u' :: rest => do
    let (low, rest) ← readUnit? rest
    if high < 0xdc00 ∧ 0xdc00 ≤ low ∧ low < 0xe000 then
      return (0x10000 + (high - 0xd800) * 0x400 + (low - 0xdc00), rest)
    else none
  | _ => none

/-- Reads the code point of an escape: a unit, or a pair of surrogates.  A surrogate alone is no character. -/
def readPoint? (cs : List Char) : Option (Nat × List Char) := do
  let (unit, rest) ← readUnit? cs
  if unit < 0xd800 ∨ 0xe000 ≤ unit then return (unit, rest) else readPair? unit rest

/-- The characters that a backslash and a letter stand for. -/
def letters : List (Char × Char) :=
  [(Text.doubleQuote, Text.doubleQuote), ('\\', '\\'), ('/', '/'), ('b', Char.ofNat 0x08), ('f', Char.ofNat 0x0c),
    ('n', '\n'), ('r', '\r'), ('t', '\t')]

/-- Reads an escape behind its backslash. -/
def readEscape? : List Char → Option (Char × List Char)
  | [] => none
  | c :: cs =>
    if c = 'u' then (readPoint? cs).map fun (n, rest) => (Char.ofNat n, rest)
    else (letters.lookup c).map fun meant => (meant, cs)

/-- Reads the characters of a text up to its closing quote.  `fuel` is more than the number of characters left. -/
def readChars : Nat → List Char → Option (List Char × List Char)
  | 0, _ => none
  | _, [] => none
  | fuel + 1, c :: cs =>
    if c = Text.doubleQuote then some ([], cs)
    else if c = '\\' then do
      let (c, rest) ← readEscape? cs
      (readChars fuel rest).map fun (more, rest) => (c :: more, rest)
    else if c.toNat < 0x20 then none
    else (readChars fuel cs).map fun (more, rest) => (c :: more, rest)

/-- Whether digits may stand in front of a point: there are some, and a zero at their front is alone. -/
def isWhole (ds : List Char) : Bool := !ds.isEmpty && (ds.head? != some '0' || ds.length == 1)

/-- A number behind its sign: an integer where it has neither point nor power, the nearest float otherwise. -/
def readUnsigned? (negative : Bool) (cs : List Char) : Option Value :=
  let whole := cs.takeWhile Decimal.isDigit
  let float? := (Decimal.readMagnitude? cs).map fun s => Value.float (Decimal.Numeral.finite negative s).toFloat
  if isWhole whole then
    match cs.dropWhile Decimal.isDigit with
    | [] =>
      let n : Int := (Decimal.digitsValue 10 whole : Nat)
      some (.int (if negative then -n else n))
    | '.' :: rest => if rest.head?.any Decimal.isDigit then float? else none
    | _ => float?
  else none

/-- A number. -/
def readNumber? : List Char → Option Value
  | '-' :: rest => readUnsigned? true rest
  | cs => readUnsigned? false cs

/-- Whether `c` may stand in a word or a number. -/
def isTokenChar (c : Char) : Bool := c.isAlphanum || c == '+' || c == '-' || c == '.'

/-- A word or a number. -/
def readToken? (cs : List Char) : Option Value :=
  if cs = "null".toList then some .null
  else if cs = "true".toList then some (.bool true)
  else if cs = "false".toList then some (.bool false)
  else readNumber? cs

/-- The map that the members of an object make: of a name that comes again the last value counts. -/
def object (members : Fields) : Value := .map (Fields.putAll [] members).entries

mutual

/-- Reads a value.  `fuel` is more than twice the number of characters left. -/
def readValue : Nat → List Char → Option (Value × List Char)
  | 0, _ => none
  | fuel + 1, cs =>
    match skip cs with
    | [] => none
    | c :: rest =>
      if c = Text.doubleQuote then (readChars fuel rest).map fun (cs, rest) => (.text (String.ofList cs), rest)
      else if c = '[' then
        if (skip rest).head? = some ']' then some (.list [], (skip rest).tail)
        else (readItems fuel rest).map fun (items, rest) => (.list items, rest)
      else if c = '\x7b' then
        if (skip rest).head? = some '\x7d' then some (object [], (skip rest).tail)
        else (readMembers fuel rest).map fun (members, rest) => (object members, rest)
      else
        (readToken? ((c :: rest).takeWhile isTokenChar)).map fun v => (v, (c :: rest).dropWhile isTokenChar)

/-- Reads items of a list up to its closing bracket. -/
def readItems : Nat → List Char → Option (List Value × List Char)
  | 0, _ => none
  | fuel + 1, cs => do
    let (v, rest) ← readValue fuel cs
    match skip rest with
    | [] => none
    | c :: rest =>
      if c = ',' then (readItems fuel rest).map fun (vs, rest) => (v :: vs, rest)
      else if c = ']' then return ([v], rest)
      else none

/-- Reads members of an object up to its closing brace. -/
def readMembers : Nat → List Char → Option (Fields × List Char)
  | 0, _ => none
  | fuel + 1, cs => do
    match skip cs with
    | [] => none
    | c :: rest =>
      if c = Text.doubleQuote then
        let (name, rest) ← readChars fuel rest
        match skip rest with
        | [] => none
        | c :: rest =>
          if c = ':' then
            let (v, rest) ← readValue fuel rest
            match skip rest with
            | [] => none
            | c :: rest =>
              if c = ',' then (readMembers fuel rest).map fun (ms, rest) => ((String.ofList name, v) :: ms, rest)
              else if c = '\x7d' then return ([(String.ofList name, v)], rest)
              else none
          else none
      else none

end

/-- The value that a text of JSON holds; none where it is no such text. -/
def read (s : String) : Option Value :=
  match readValue (2 * s.toList.length + 1) s.toList with
  | some (v, rest) => if (skip rest).isEmpty then some v else none
  | none => none

/-! ### Texts in quotes

A character is written as itself, as a letter behind a backslash, or as one or two units of
sixteen bits.  For each of the ways there is one lemma about reading it, and these are put
together in `readChars_escapeChar`, which says that the reader does not care which way was
taken.
-/

theorem hexValue?_digitChar {d : Nat} (h : d < 16) : hexValue? (Nat.digitChar d) = some d := by
  have hall : ∀ d < 16, hexValue? (Nat.digitChar d) = some d := by decide
  exact hall d h

/-- Four hexadecimal digits, one after another. -/
theorem hexDigits_four {n : Nat} (h : n < 0x10000) : Text.hexDigits 4 n
    = [Nat.digitChar (n / 4096), Nat.digitChar (n / 256 % 16), Nat.digitChar (n / 16 % 16), Nat.digitChar (n % 16)] := by
  have hsingle {m : Nat} (hm : m < 16) : Nat.toDigits 16 m = [Nat.digitChar m] := Nat.toDigits_of_lt_base hm
  have hmore {m : Nat} (hm : 16 ≤ m) : Nat.toDigits 16 m = Nat.toDigits 16 (m / 16) ++ [Nat.digitChar (m % 16)] :=
    Nat.toDigits_of_base_le (by decide) hm
  unfold Text.hexDigits
  by_cases h1 : n < 16
  · have hzeros : n / 4096 = 0 ∧ n / 256 % 16 = 0 ∧ n / 16 % 16 = 0 ∧ n % 16 = n := by omega
    rw [hsingle h1, hzeros.1, hzeros.2.1, hzeros.2.2.1, hzeros.2.2.2]
    rfl
  · by_cases h2 : n / 16 < 16
    · have hzeros : n / 4096 = 0 ∧ n / 256 % 16 = 0 ∧ n / 16 % 16 = n / 16 := by omega
      rw [hmore (by omega), hsingle h2, hzeros.1, hzeros.2.1, hzeros.2.2]
      rfl
    · by_cases h3 : n / 16 / 16 < 16
      · have hzeros : n / 4096 = 0 ∧ n / 256 % 16 = n / 16 / 16 := by omega
        rw [hmore (by omega), hmore (by omega), hsingle h3, hzeros.1, hzeros.2]
        rfl
      · have hlast : n / 16 / 16 / 16 < 16 := by omega
        have hplaces : n / 4096 = n / 16 / 16 / 16 ∧ n / 256 = n / 16 / 16 := by omega
        rw [hmore (by omega), hmore (by omega), hmore (by omega), hsingle hlast, hplaces.1, hplaces.2]
        rfl

theorem readUnit?_hexDigits {n : Nat} (h : n < 0x10000) (rest : List Char) :
    readUnit? (Text.hexDigits 4 n ++ rest) = some (n, rest) := by
  have hvalue : ((n / 4096 * 16 + n / 256 % 16) * 16 + n / 16 % 16) * 16 + n % 16 = n := by omega
  rw [hexDigits_four h]
  simp only [readUnit?, List.cons_append, List.nil_append, hexValue?_digitChar (show n / 4096 < 16 by omega),
    hexValue?_digitChar (Nat.mod_lt _ (by decide : 0 < 16)), Option.bind_eq_bind, Option.bind_some, hvalue, pure]

theorem readPoint?_unit {n : Nat} (h : n < 0xd800 ∨ (0xe000 ≤ n ∧ n < 0x10000)) (rest : List Char) :
    readPoint? (Text.hexDigits 4 n ++ rest) = some (n, rest) := by
  unfold readPoint?
  rw [readUnit?_hexDigits (by omega), Option.bind_eq_bind, Option.bind_some]
  exact if_pos (by omega)

theorem readPair?_unit {high low : Nat} (hhigh : high < 0xdc00) (hlow : 0xdc00 ≤ low ∧ low < 0xe000)
    (rest : List Char) : readPair? high (unitEscape low ++ rest)
      = some (0x10000 + (high - 0xd800) * 0x400 + (low - 0xdc00), rest) := by
  show ((readUnit? (Text.hexDigits 4 low ++ rest)).bind _) = _
  rw [readUnit?_hexDigits (by omega), Option.bind_some]
  dsimp only
  rw [if_pos ⟨hhigh, hlow⟩]
  rfl

/-- The two units of a pair tell how far behind the characters of sixteen bits theirs is. -/
theorem readPoint?_pair {high low : Nat} (hhigh : 0xd800 ≤ high ∧ high < 0xdc00) (hlow : 0xdc00 ≤ low ∧ low < 0xe000)
    (rest : List Char) : readPoint? (Text.hexDigits 4 high ++ unitEscape low ++ rest)
      = some (0x10000 + (high - 0xd800) * 0x400 + (low - 0xdc00), rest) := by
  have hsurrogate : ¬ (high < 0xd800 ∨ 0xe000 ≤ high) := by omega
  simp only [readPoint?, List.append_assoc, readUnit?_hexDigits (show high < 0x10000 by omega), Option.bind_eq_bind,
    Option.bind_some, if_neg hsurrogate, readPair?_unit hhigh.2 hlow]

/-- An escaped code point is read as its character. -/
theorem readEscape?_pointEscape (c : Char) (rest : List Char) :
    ∃ cs, pointEscape c.toNat ++ rest = '\\' :: cs ∧ readEscape? cs = some (c, rest) := by
  have hvalid : c.toNat < 0xd800 ∨ (0xdfff < c.toNat ∧ c.toNat < 0x110000) := c.valid
  have hread {cs : List Char} (h : readPoint? cs = some (c.toNat, rest)) : readEscape? ('u' :: cs) = some (c, rest) := by
    rw [readEscape?, if_pos rfl, h]
    exact congrArg some (Prod.ext (Char.ofNat_toNat c) rfl)
  unfold pointEscape
  by_cases hsmall : c.toNat < 0x10000
  · rw [if_pos hsmall, unitEscape, List.cons_append, List.cons_append]
    exact ⟨_, rfl, hread (readPoint?_unit (by omega) rest)⟩
  · rw [if_neg hsmall]
    -- A character beyond sixteen bits is a pair of surrogates.
    obtain ⟨high, hhigh⟩ : ∃ high, high = 0xd800 + (c.toNat - 0x10000) / 0x400 := ⟨_, rfl⟩
    obtain ⟨low, hlow⟩ : ∃ low, low = 0xdc00 + (c.toNat - 0x10000) % 0x400 := ⟨_, rfl⟩
    have hpoint : 0x10000 + (high - 0xd800) * 0x400 + (low - 0xdc00) = c.toNat := by omega
    have hpair := @readPoint?_pair high low (by omega) (by omega) rest
    rw [hpoint] at hpair
    rw [← hhigh, ← hlow, unitEscape, List.cons_append, List.cons_append, List.cons_append, List.cons_append]
    exact ⟨_, rfl, hread hpair⟩

/-- A letter behind a backslash is read as the character that has it. -/
theorem readEscape?_short {c letter : Char} (h : shortEscapes.lookup c = some letter) (rest : List Char) :
    readEscape? (letter :: rest) = some (c, rest) := by
  have hall : ∀ p ∈ shortEscapes, p.2 ≠ 'u' ∧ letters.lookup p.2 = some p.1 := by decide
  obtain ⟨front, back, hlist, -⟩ := List.lookup_eq_some_iff.mp h
  obtain ⟨hletter, hmeant⟩ := hall (c, letter) (hlist ▸ List.mem_append_right front List.mem_cons_self)
  rw [readEscape?, if_neg hletter, hmeant, Option.map_some]

/-- A character of a text, however it is written, is read as that character. -/
theorem readChars_escapeChar (fuel : Nat) (c : Char) (rest : List Char) :
    readChars (fuel + 1) (escapeChar c ++ rest) = (readChars fuel rest).map fun (more, rest) => (c :: more, rest) := by
  have hescape {cs : List Char} (h : readEscape? cs = some (c, rest)) :
      readChars (fuel + 1) ('\\' :: cs) = (readChars fuel rest).map fun (more, rest) => (c :: more, rest) := by
    rw [readChars, if_neg (by decide), if_pos rfl, h]
    rfl
  unfold escapeChar
  split
  · rename_i letter hletter
    exact hescape (readEscape?_short hletter rest)
  · rename_i hnone
    split
    · rename_i hprint
      have hno : ∀ p ∈ shortEscapes, c ≠ p.1 := fun p hp hc => by
        have hsome := List.lookup_isSome_iff.mpr ⟨p, hp, beq_iff_eq.mpr hc⟩
        rw [hnone] at hsome
        cases hsome
      have hquote : c ≠ Text.doubleQuote := hno (Text.doubleQuote, Text.doubleQuote) (by decide)
      have hslash : c ≠ '\\' := hno ('\\', '\\') (by decide)
      rw [List.singleton_append, readChars, if_neg hquote, if_neg hslash, if_neg (Nat.not_lt.mpr hprint.1)]
    · obtain ⟨cs, hcs, hread⟩ := readEscape?_pointEscape c rest
      rw [hcs]
      exact hescape hread

/-- The characters of a text are read up to its closing quote. -/
theorem readChars_flatMap (cs : List Char) {fuel : Nat} (rest : List Char) (h : cs.length < fuel) :
    readChars fuel (cs.flatMap escapeChar ++ Text.doubleQuote :: rest) = some (cs, rest) := by
  induction cs generalizing fuel with
  | nil =>
      obtain ⟨fuel, rfl⟩ := Nat.exists_eq_succ_of_ne_zero (Nat.ne_of_gt h)
      rw [List.flatMap_nil, List.nil_append, readChars, if_pos rfl]
  | cons c more ih =>
      obtain ⟨fuel, rfl⟩ := Nat.exists_eq_succ_of_ne_zero (Nat.ne_of_gt (Nat.zero_lt_of_lt h))
      rw [List.flatMap_cons, List.append_assoc, readChars_escapeChar, ih (Nat.lt_of_succ_lt_succ h)]
      rfl

/-! ### Numbers

An integer and a float are told apart by their spelling, by a point or a power behind the
digits.  The layouts of a float put one of them there, and they never begin with a zero that
another digit follows, which the grammar would refuse.  So every float that is a number is read
as a float, and the number that it denotes says which one.
-/

/-- What follows the whole part of a number that is no integer: a point with a digit behind it, or a power. -/
inductive IsFraction : List Char → Prop where
  | point {c : Char} (hc : c.isDigit = true) (rest : List Char) : IsFraction ('.' :: c :: rest)
  | power (rest : List Char) : IsFraction ('e' :: rest)

/-- The spelling of a number that is no integer. -/
structure IsFractional (cs : List Char) : Prop where
  split : ∃ whole tail, cs = whole ++ tail ∧ IsDigits whole ∧ isWhole whole = true ∧ IsFraction tail

theorem IsFraction.endsDigits {tail : List Char} (h : IsFraction tail) : EndsDigits tail := by
  cases h with
  | point hc rest => exact endsDigits_cons rfl _
  | power rest => exact endsDigits_cons rfl _

/-- The digits of a number do not begin with a zero, unless it is zero. -/
theorem head?_digitChars {n : Nat} (h : n ≠ 0) : (digitChars n).head? ≠ some '0' := by
  induction n using Nat.strongRecOn with
  | ind n ih =>
      by_cases hsmall : n < 10
      · have hdigit : ∀ d < 10, d ≠ 0 → Nat.digitChar d ≠ '0' := by decide
        rw [digitChars, Nat.toDigits_of_lt_base hsmall]
        exact fun heq => hdigit n hsmall h (Option.some.inj heq)
      · have hless : n / 10 < n := by omega
        have hfront := ih (n / 10) hless (by omega)
        rw [digitChars, Nat.toDigits_of_base_le (by decide) (Nat.not_lt.mp hsmall),
          List.head?_append_of_ne_nil _ Nat.toDigits_ne_nil]
        exact hfront

theorem isWhole_of_head? {ds : List Char} (hne : ds ≠ []) (h : ds.head? ≠ some '0') : isWhole ds = true := by
  rw [isWhole, List.isEmpty_eq_false_iff.mpr hne, bne_iff_ne.mpr h]
  rfl

theorem isWhole_digitChars (n : Nat) : isWhole (digitChars n) = true := by
  by_cases h : n = 0
  · rw [h]
    rfl
  · exact isWhole_of_head? (isDigits_digitChars n).ne_nil (head?_digitChars h)

theorem exists_cons_of_isDigits {ds : List Char} (h : IsDigits ds) : ∃ c rest, ds = c :: rest ∧ c.isDigit = true := by
  obtain ⟨c, rest, hds, hc⟩ := h.head []
  exact ⟨c, rest, (List.append_nil ds).symm.trans hds, hc⟩

theorem isFractional_of_point {whole fraction : List Char} (h : IsDigits whole) (hwhole : isWhole whole = true)
    (hfraction : IsDigits fraction) (more : List Char) : IsFractional (whole ++ '.' :: (fraction ++ more)) := by
  obtain ⟨c, rest, rfl, hc⟩ := exists_cons_of_isDigits hfraction
  exact ⟨whole, _, rfl, h, hwhole, .point hc _⟩

/-- Wherever the positional layout puts the point, what is in front of it is a zero or begins with the first digit. -/
theorem isFractional_positionalText {digits : List Char} (h : IsDigits digits) (hhead : digits.head? ≠ some '0')
    (place : Int) : IsFractional (positionalText ".0" digits place).toList := by
  have hzeros (k : Nat) : ∀ c ∈ List.replicate k '0', c.isDigit = true := fun c hc => isDigit_of_mem_zeros hc
  unfold positionalText
  by_cases hfront : place ≤ 0
  · have hfraction : IsDigits (List.replicate (-place).toNat '0' ++ digits) := by
      refine ⟨fun hnil => h.ne_nil (List.append_eq_nil_iff.mp hnil).2, fun c hc => ?_⟩
      exact (List.mem_append.mp hc).elim (hzeros _ c) (h.all c)
    have hpoint := isFractional_of_point (isDigits_digitChars 0) rfl hfraction []
    rw [List.append_nil] at hpoint
    rw [if_pos hfront, String.toList_ofList]
    exact hpoint
  · rw [if_neg hfront]
    by_cases hback : digits.length ≤ place.toNat
    · have hwhole : isWhole (digits ++ List.replicate (place.toNat - digits.length) '0') = true := by
        refine isWhole_of_head? (List.append_ne_nil_of_left_ne_nil h.ne_nil _) ?_
        rw [List.head?_append_of_ne_nil _ h.ne_nil]
        exact hhead
      have hpoint := isFractional_of_point (h.append (hzeros _)) hwhole (isDigits_digitChars 0) []
      rw [if_pos hback, String.toList_append, String.toList_ofList]
      exact hpoint
    · obtain ⟨n, hn⟩ : ∃ n, place.toNat = n + 1 := ⟨place.toNat - 1, by omega⟩
      rw [if_neg hback, String.toList_ofList, hn]
      rw [hn] at hback
      obtain ⟨c, rest, rfl, hc⟩ := exists_cons_of_isDigits h
      have hwhole : IsDigits ((c :: rest).take (n + 1)) :=
        ⟨List.cons_ne_nil _ _, fun d hd => h.all d (List.mem_of_mem_take hd)⟩
      have hfraction : IsDigits ((c :: rest).drop (n + 1)) :=
        ⟨fun hnil => hback (List.drop_eq_nil_iff.mp hnil), fun d hd => h.all d (List.mem_of_mem_drop hd)⟩
      have hpoint := isFractional_of_point hwhole (isWhole_of_head? (List.cons_ne_nil _ _) hhead) hfraction []
      rw [List.append_nil] at hpoint
      exact hpoint

theorem isFractional_scientificText {digits : List Char} (h : IsDigits digits) (hhead : digits.head? ≠ some '0')
    (width : Nat) (exponent : Int) : IsFractional (scientificText width digits exponent).toList := by
  obtain ⟨c, more, rfl, hc⟩ := exists_cons_of_isDigits h
  have hlead : IsDigits [c] := ⟨List.cons_ne_nil _ _, List.forall_mem_singleton.mpr hc⟩
  have hwhole : isWhole [c] = true := isWhole_of_head? (List.cons_ne_nil _ _) hhead
  rw [scientificText, String.toList_ofList]
  cases more with
  | nil => exact ⟨[c], _, rfl, hlead, hwhole, .power _⟩
  | cons d rest =>
      have hfraction : IsDigits (d :: rest) := ⟨List.cons_ne_nil _ _, fun e he => h.all e (List.mem_cons_of_mem c he)⟩
      exact isFractional_of_point hlead hwhole hfraction _

theorem isFractional_text (s : Scaled) : IsFractional (s.text Layout.natural).toList := by
  have hdigits := isDigits_digitChars s.coefficient
  unfold Scaled.text
  dsimp only
  split
  · exact ⟨['0'], ['.', '0'], rfl, isDigits_digitChars 0, rfl, .point rfl []⟩
  · rename_i hzero
    split
    · exact isFractional_positionalText hdigits (head?_digitChars hzero) _
    · exact isFractional_scientificText hdigits (head?_digitChars hzero) _ _

theorem readUnsigned?_of_isFractional {cs : List Char} (h : IsFractional cs) (negative : Bool) :
    readUnsigned? negative cs = (readMagnitude? cs).map fun s => .float (Numeral.finite negative s).toFloat := by
  obtain ⟨whole, tail, rfl, hdigits, hwhole, hfraction⟩ := h.split
  obtain ⟨htake, hdrop⟩ := takeWhile_digits hdigits.all hfraction.endsDigits
  unfold readUnsigned?
  rw [htake, hdrop, if_pos hwhole]
  cases hfraction with
  | point hc rest => exact if_pos ((isDigit_eq _).trans hc)
  | power rest => rfl

theorem readUnsigned?_digitChars (negative : Bool) (n : Nat) :
    readUnsigned? negative (digitChars n) = some (.int (if negative then -(n : Int) else (n : Int))) := by
  have hdigits := isDigits_digitChars n
  obtain ⟨htake, hdrop⟩ := takeWhile_digits hdigits.all endsDigits_nil
  rw [List.append_nil] at htake hdrop
  unfold readUnsigned?
  rw [htake, hdrop, if_pos (isWhole_digitChars n), digitsValue_digitChars]

/-- A sign is no part of the digits behind it. -/
theorem readNumber?_signText {s : String} (h : ∃ c rest, s.toList = c :: rest ∧ c.isDigit = true) (negative : Bool) :
    readNumber? (signText negative ++ s).toList = readUnsigned? negative s.toList := by
  obtain ⟨c, rest, hs, hc⟩ := h
  rw [String.toList_append, hs]
  cases negative with
  | true => rfl
  | false =>
      show readNumber? (c :: rest) = _
      unfold readNumber?
      split
      · rename_i heq
        exact absurd (List.cons.inj heq).1 (ne_of_isDigit hc rfl)
      · rfl

/-- An integer is read back. -/
theorem readNumber?_intText (i : Int) : readNumber? (Decimal.intText i).toList = some (.int i) := by
  have hdigits := isDigits_digitChars i.natAbs
  obtain ⟨c, rest, hhead, hc⟩ := hdigits.head []
  rw [List.append_nil] at hhead
  have hnat : (natText i.natAbs).toList = digitChars i.natAbs := by rw [natText, String.toList_ofList]
  rw [intText_eq, readNumber?_signText ⟨c, rest, hnat.trans hhead, hc⟩, hnat, readUnsigned?_digitChars]
  refine congrArg (fun n => some (Value.int n)) ?_
  by_cases hneg : i < 0
  · rw [if_pos (decide_eq_true hneg)]
    omega
  · rw [if_neg (mt of_decide_eq_true hneg)]
    omega

/-- A float that is a number is read back. -/
theorem readNumber?_naturalText {x : Float} {b : Binary} (h : Binary.ofFloat? x = some b) :
    readNumber? (naturalText x).toList = some (.float x) := by
  have hfractional := isFractional_text b.shortest
  obtain ⟨hdigit, s, hs, hvalue⟩ := b.shortest.spells_text
  obtain ⟨n, hread, hn⟩ := exists_read?_naturalText h
  rw [naturalText, h] at hread ⊢
  dsimp only at hread ⊢
  rw [String.toList_append, read?_magnitude hdigit, hs, Option.map_some] at hread
  rw [readNumber?_signText hdigit, readUnsigned?_of_isFractional hfractional, hs, Option.map_some,
    Option.some.inj hread]
  rw [Binary.eq_of_ofFloat? hn h]

end Json

end PartProgram

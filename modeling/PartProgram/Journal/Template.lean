/-
Messages with places to fill in.

A template is text with conversions in it: a percent sign, the key of an entry in parentheses, flags, a width, a
precision and a letter that says how a value is written.  Two percent signs stand for one of them.  Reading a
template never fails; a conversion that is not complete is read as far as it goes, and filling it in fails where
its turn comes.  Values are taken in order, or by their keys when there is one map to take them from, and in the
first case none may be left over.
-/
import PartProgram.Decimal.Layout
import PartProgram.Decimal.Numeral
import PartProgram.Decimal.Rounded
import PartProgram.Value.Printer

namespace PartProgram

namespace Template

/-- A width or a precision. -/
inductive Amount where
  | absent
  | given (n : Nat)
  /-- The next value gives it. -/
  | fromValue

/-- The key of a conversion. -/
inductive Key where
  | absent
  | named (k : String)
  /-- Its parentheses do not close. -/
  | unclosed

/-- The flags of a conversion. -/
structure Flags where
  left : Bool
  plus : Bool
  blank : Bool
  alternate : Bool
  zero : Bool

/-- A conversion.  One that is not complete has no letter. -/
structure Conversion where
  key : Key
  flags : Flags
  width : Amount
  precision : Amount
  letter : Option Char
  /-- The index of the letter in the template. -/
  index : Nat

/-- A part of a template. -/
inductive Piece where
  | literal (cs : List Char)
  | conversion (c : Conversion)

/-! ### Reading -/

/-- The characters up to the parenthesis that closes the given number of open ones, and those behind it. -/
def closeKey? : Nat → List Char → Option (List Char × List Char)
  | _, [] => none
  | depth, c :: rest =>
    let more (depth : Nat) := (closeKey? depth rest).map fun (k, rest) => (c :: k, rest)
    if c = '(' then more (depth + 1)
    else if c ≠ ')' then more depth
    else match depth with
      | 0 | 1 => some ([], rest)
      | depth + 2 => more (depth + 1)

/-- Reads a key. -/
def readKey : List Char → Key × List Char
  | '(' :: rest => match closeKey? 1 rest with
    | some (k, rest) => (.named (String.ofList k), rest)
    | none => (.unclosed, [])
  | cs => (.absent, cs)

/-- Whether `c` is a flag. -/
def isFlag (c : Char) : Bool := c == '-' || c == '+' || c == ' ' || c == '#' || c == '0'

/-- Reads flags. -/
def readFlags (cs : List Char) : Flags × List Char :=
  let fs := cs.takeWhile isFlag
  (⟨fs.contains '-', fs.contains '+', fs.contains ' ', fs.contains '#', fs.contains '0'⟩, cs.dropWhile isFlag)

/-- Reads a width. -/
def readAmount : List Char → Amount × List Char
  | '*' :: rest => (.fromValue, rest)
  | cs =>
    let ds := cs.takeWhile Decimal.isDigit
    (if ds.isEmpty then .absent else .given (Decimal.digitsValue 10 ds), cs.dropWhile Decimal.isDigit)

/-- Reads a precision, which is zero where there is a point and no number. -/
def readPrecision : List Char → Amount × List Char
  | '.' :: rest => match readAmount rest with
    | (.absent, rest) => (.given 0, rest)
    | read => read
  | cs => (.absent, cs)

/-- Leaves out a letter for the size of a number, which says nothing. -/
def dropSize : List Char → List Char
  | c :: rest => if c = 'h' ∨ c = 'l' ∨ c = 'L' then rest else c :: rest
  | [] => []

/-- Reads a conversion behind its percent sign.  `total` is the length of the template. -/
def readConversion (total : Nat) (cs : List Char) : Conversion × List Char :=
  let (key, cs) := readKey cs
  let (flags, cs) := readFlags cs
  let (width, cs) := readAmount cs
  let (precision, cs) := readPrecision cs
  let cs := dropSize cs
  (⟨key, flags, width, precision, cs.head?, total - cs.length⟩, cs.drop 1)

/-- Reads the pieces of a template of length `total`.  `fuel` is at least the number of characters left. -/
def readPieces (total : Nat) : Nat → List Char → List Piece
  | 0, _ => []
  | _, [] => []
  | fuel + 1, '%' :: '%' :: rest => .literal ['%'] :: readPieces total fuel rest
  | fuel + 1, '%' :: rest =>
    let (c, rest) := readConversion total rest
    .conversion c :: readPieces total fuel rest
  | fuel + 1, cs =>
    .literal (cs.takeWhile (· ≠ '%')) :: readPieces total fuel (cs.dropWhile (· ≠ '%'))

/-- The pieces of a template. -/
def read (s : String) : List Piece := readPieces s.length s.length s.toList

/-! ### Filling in -/

/-- Why a template cannot be filled in. -/
inductive Fault where
  | tooFewValues
  | tooManyValues
  | noMap
  | noEntry (key : String)
  | unclosedKey
  | incomplete
  | widthTooBig
  | precisionTooBig
  /-- The value that gives a width or a precision is beyond its range, which has this name. -/
  | amountTooLarge (range : String)
  | amountNotInteger
  | notReal (letter : Char) (kind : String)
  | notInteger (letter : Char) (kind : String)
  | notFloat (kind : String)
  | notChar
  | charOutOfRange
  | floatTooLarge
  | wholeOfInfinity
  | wholeOfUndefined
  | unknownLetter (letter : Char) (index : Nat)
  /-- A value cannot be written. -/
  | unwritten (e : TooLong)
deriving DecidableEq, Repr

variable [DigitLimit]

/-- What went wrong, in words. -/
def Fault.message : Fault → String
  | tooFewValues => "not enough arguments for format string"
  | tooManyValues => "not all arguments converted during string formatting"
  | noMap => "format requires a mapping"
  | noEntry key => Text.quoted key
  | unclosedKey => "incomplete format key"
  | incomplete => "incomplete format"
  | widthTooBig => "width too big"
  | precisionTooBig => "precision too big"
  | amountTooLarge range => "Python int too large to convert to C " ++ range
  | amountNotInteger => "* wants int"
  | notReal letter kind =>
    "%" ++ letter.toString ++ " format: a real number is required, not " ++ kind
  | notInteger letter kind => "%" ++ letter.toString ++ " format: an integer is required, not " ++ kind
  | notFloat kind => "must be real number, not " ++ kind
  | notChar => "%c requires int or char"
  | charOutOfRange => "%c arg not in range(0x110000)"
  | floatTooLarge => "int too large to convert to float"
  | wholeOfInfinity => "cannot convert float infinity to integer"
  | wholeOfUndefined => "cannot convert float NaN to integer"
  | unknownLetter letter index =>
    let shown := if 31 ≤ letter.toNat ∧ letter.toNat ≤ 126 then letter else '?'
    "unsupported format character " ++ Text.singleQuote.toString ++ shown.toString ++ Text.singleQuote.toString
      ++ " (0x" ++ Decimal.baseText 16 letter.toNat ++ ") at index " ++ Decimal.natText index
  | unwritten e => e.message

/-- The values that are still to be filled in, and the entries that keys choose from. -/
structure Supply where
  values : List Value
  entries : Option (List (Value × Value))

/-- The supply of some values: a map that is alone and not empty gives its entries. -/
def Supply.ofList : List Value → Supply
  | [.map []] => ⟨[.map []], none⟩
  | [.map es] => ⟨[.map es], some es⟩
  | vs => ⟨vs, none⟩

/-- Filling in, which uses values up. -/
abbrev Filling := StateT Supply (Except Fault)

namespace Filling

/-- Takes the next value. -/
def next : Filling Value := do
  let s ← get
  match s.values with
  | [] => throw .tooFewValues
  | v :: rest =>
    set { s with values := rest }
    return v

/-- Goes on with the value that a key chooses. -/
def choose : Key → Filling Unit
  | .absent => pure ()
  | .named k => do
    let s ← get
    match s.entries with
    | none => throw .noMap
    | some es => match Value.entry? k es with
      | none => throw (.noEntry k)
      | some v => set { s with values := [v] }
  | .unclosed => do
    if (← get).entries.isNone then throw .noMap
    throw .unclosedKey

/-- The number that a width or a precision is; nothing where there is none.  Both are bounded, and a value may be
as far below zero as the bound is above it. -/
def amount (limit : Nat) (tooBig : Fault) (range : String) : Amount → Filling (Option Int)
  | .absent => return none
  | .given n => if n < limit then return some n else throw tooBig
  | .fromValue => do
    match ← next with
    | .int i => if -limit ≤ i ∧ i < limit then return some i else throw (.amountTooLarge range)
    | .bool b => return some (if b then 1 else 0)
    | _ => throw .amountNotInteger

end Filling

/-- A written number: its sign, the mark of its base, and its digits. -/
structure Written where
  negative : Bool
  mark : List Char
  digits : List Char

/-- A written text brought to a width. -/
def justified (flags : Flags) (width : Nat) (cs : List Char) : List Char :=
  let gap := List.replicate (width - cs.length) ' '
  if flags.left then cs ++ gap else gap ++ cs

/-- A written number brought to a width.  With the flag for it, zeros fill up the space behind the sign. -/
def Written.justified (flags : Flags) (width : Nat) (w : Written) : List Char :=
  let sign := if w.negative then ['-'] else if flags.plus then ['+'] else if flags.blank then [' '] else []
  let lead := sign ++ w.mark
  if flags.zero && !flags.left then
    lead ++ List.replicate (width - lead.length - w.digits.length) '0' ++ w.digits
  else Template.justified flags width (lead ++ w.digits)

/-- An integer in a base. -/
def writtenInt (letter : Char) (alternate : Bool) (precision : Option Nat) (i : Int) : Written :=
  let base := if letter = 'o' then 8 else if letter = 'x' ∨ letter = 'X' then 16 else 10
  let digits := Nat.toDigits base i.natAbs
  let digits := if letter = 'X' then digits.map Char.toUpper else digits
  let mark := if alternate && base ≠ 10 then ['0', letter] else []
  ⟨decide (i < 0), mark, List.replicate (precision.getD 0 - digits.length) '0' ++ digits⟩

/-- A float with the given precision. -/
def writtenFloat (letter : Char) (alternate : Bool) (precision : Nat) (x : Float) : Written :=
  let cased (cs : List Char) := if letter.isUpper then cs.map Char.toUpper else cs
  match Decimal.Binary.ofFloat? x with
  | none => ⟨x < 0, [], cased ((if x.isNaN then "nan" else "inf").toList)⟩
  | some b =>
    let digits :=
      if letter = 'f' ∨ letter = 'F' then b.fixed alternate precision
      else if letter = 'e' ∨ letter = 'E' then b.scientific alternate precision
      else b.general alternate precision
    ⟨b.negative, [], cased digits⟩

/-- The integer that a value counts as in a conversion to an integer. -/
def wholeOf (letter : Char) : Value → Except Fault Int
  | .int i => .ok i
  | .bool b => .ok (if b then 1 else 0)
  | .float x =>
    if letter = 'o' ∨ letter = 'x' ∨ letter = 'X' then .error (.notInteger letter (Value.float x).kindName)
    else match Decimal.Binary.ofFloat? x with
      | some b => .ok b.truncate
      | none => .error (if x.isNaN then .wholeOfUndefined else .wholeOfInfinity)
  | v =>
    if letter = 'o' ∨ letter = 'x' ∨ letter = 'X' then .error (.notInteger letter v.kindName)
    else .error (.notReal letter v.kindName)

/-- The float that a value counts as in a conversion to a float. -/
def floatOf : Value → Except Fault Float
  | .int i => if Decimal.fitsFloat i then .ok (Decimal.intToFloat i) else .error .floatTooLarge
  | .bool b => .ok (if b then 1.0 else 0.0)
  | .float x => .ok x
  | v => .error (.notFloat v.kindName)

/-- The character that a value stands for. -/
def charOf : Value → Except Fault Char
  | .text s => match s.toList with
    | [c] => .ok c
    | _ => .error .notChar
  | .bool b => .ok (Char.ofNat (if b then 1 else 0))
  | .int i => if i < 0 ∨ 0x110000 ≤ i then .error .charOutOfRange else .ok (Char.ofNat i.toNat)
  | _ => .error .notChar

/-- A literal in ASCII: what lies beyond it is escaped by its code point. -/
def asciiLiteral (v : Value) : List Char :=
  v.literal.toList.flatMap fun c =>
    if c.toNat < 0x80 then [c]
    else if c.toNat < 0x100 then '\\' :: 'x' :: Text.hexDigits 2 c.toNat
    else if c.toNat < 0x10000 then '\\' :: 'u' :: Text.hexDigits 4 c.toNat
    else '\\' :: 'U' :: Text.hexDigits 8 c.toNat

/-- A value as its conversion writes it. -/
def written (letter : Char) (index : Nat) (flags : Flags) (width : Nat) (precision : Option Nat) (v : Value) :
    Except Fault (List Char) :=
  let cut (cs : List Char) :=
    (v.checkWritten.mapError .unwritten).map fun _ => justified flags width (cs.take (precision.getD cs.length))
  match letter with
  | 's' => cut v.plain.toList
  | 'r' => cut v.literal.toList
  | 'a' => cut (asciiLiteral v)
  | 'c' => (charOf v).map fun c => justified flags width [c]
  | 'd' | 'i' | 'u' => do
    let i ← wholeOf letter v
    if !Decimal.isWritten i then throw (.unwritten ⟨⟩)
    return (writtenInt letter flags.alternate precision i).justified flags width
  | 'o' | 'x' | 'X' =>
    (wholeOf letter v).map fun i => (writtenInt letter flags.alternate precision i).justified flags width
  | 'e' | 'E' | 'f' | 'F' | 'g' | 'G' =>
    (floatOf v).map fun x => (writtenFloat letter flags.alternate (precision.getD 6) x).justified flags width
  | _ => .error (.unknownLetter letter index)

/-- Widths are below this. -/
def widthLimit : Nat := 2 ^ 63

/-- Precisions are below this. -/
def precisionLimit : Nat := 2 ^ 31

/-- Fills a conversion in.  A negative width asks for the left side, and a negative precision is zero. -/
def fillConversion (c : Conversion) : Filling (List Char) := do
  Filling.choose c.key
  let width ← Filling.amount widthLimit .widthTooBig "ssize_t" c.width
  let precision ← Filling.amount precisionLimit .precisionTooBig "int" c.precision
  match c.letter with
  | none => throw .incomplete
  | some letter =>
    let v ← Filling.next
    let width := width.getD 0
    let flags := { c.flags with left := c.flags.left || decide (width < 0) }
    liftM (written letter c.index flags width.natAbs (precision.map Int.toNat) v)

/-- Fills pieces in. -/
def fillPieces : List Piece → Filling (List Char)
  | [] => return []
  | .literal cs :: rest => return cs ++ (← fillPieces rest)
  | .conversion c :: rest => do
    let filled ← fillConversion c
    return filled ++ (← fillPieces rest)

/-- The template with values filled in. -/
def fill (s : String) (values : List Value) : Except Fault String := do
  let (cs, left) ← (fillPieces (read s)).run (Supply.ofList values)
  if left.entries.isNone && !left.values.isEmpty then throw .tooManyValues
  return String.ofList cs

end Template

end PartProgram

/-
The order of values.

Numbers are in the order of what they denote, which is compared exactly, texts in that of their characters, and
lists and tuples in that of the first items that differ.  Nothing else is in order; values that are not cannot be
sorted either.
-/
import PartProgram.Value.Equality

namespace PartProgram

/-- The kinds of two values that are not in order. -/
structure Unordered where
  left : String
  right : String
deriving DecidableEq, Repr

/-- What went wrong, in words. -/
def Unordered.message (e : Unordered) : String :=
  "'<' not supported between instances of '" ++ e.left ++ "' and '" ++ e.right ++ "'"

namespace Value

/-- A number, which is an integer or a float.  A truth value counts as zero or one. -/
def number? : Value → Option (Int ⊕ Float)
  | bool b => some (.inl (if b then 1 else 0))
  | int i => some (.inl i)
  | float x => some (.inr x)
  | _ => none

/-- Whether an integer is less than a float. -/
def intLess (i : Int) (x : Float) : Bool :=
  match Decimal.Binary.ofFloat? x with
  | some b => decide (i * b.ratio.2 < b.numerator)
  | none => decide (0 < x)

/-- Whether a float is less than an integer. -/
def floatLess (x : Float) (i : Int) : Bool :=
  match Decimal.Binary.ofFloat? x with
  | some b => decide (b.numerator < i * b.ratio.2)
  | none => decide (x < 0)

/-- Whether a number is less than another. -/
def numberLess : Int ⊕ Float → Int ⊕ Float → Bool
  | .inl i, .inl j => decide (i < j)
  | .inl i, .inr y => intLess i y
  | .inr x, .inl j => floatLess x j
  | .inr x, .inr y => decide (x < y)

mutual

/-- Whether a value is less than another. -/
def less : Value → Value → Except Unordered Bool
  | text s, text t => .ok (decide (s < t))
  | list a, list b => lessItems a b
  | tuple a, tuple b => lessItems a b
  | v, w => match v.number?, w.number? with
    | some m, some n => .ok (numberLess m n)
    | _, _ => .error ⟨v.kindName, w.kindName⟩

/-- Whether a list of values is less than another, by the first items that differ. -/
def lessItems : List Value → List Value → Except Unordered Bool
  | _, [] => .ok false
  | [], _ :: _ => .ok true
  | a :: as, b :: bs => if equal a b then lessItems as bs else less a b

end

/-- The sorted values with one more in its place. -/
def insertSorted (v : Value) : List Value → Except Unordered (List Value)
  | [] => .ok [v]
  | w :: rest => do
    if ← less v w then return v :: w :: rest
    else return w :: (← insertSorted v rest)

/-- The values in order, where they are all in order. -/
def sorted (vs : List Value) : Except Unordered (List Value) := vs.foldlM (fun vs v => insertSorted v vs) []

end Value

end PartProgram

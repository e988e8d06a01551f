/-
When two values are equal.

Numbers are equal when they denote the same number, whatever their kinds; a truth value counts as the number
zero or one, and what is no number equals nothing, itself included.  Lists equal lists and tuples equal tuples,
item by item; the order of the entries does not matter for maps.
-/
import PartProgram.Decimal.Binary
import PartProgram.Value.Basic

namespace PartProgram.Value

/-- The integer a value denotes, where it denotes one. -/
def integer? : Value → Option Int
  | bool b => some (if b then 1 else 0)
  | int i => some i
  | float x => (Decimal.Binary.ofFloat? x).bind (·.toInt?)
  | _ => none

mutual

/-- Whether two values are equal. -/
def equal : Value → Value → Bool
  | null, null => true
  | float x, float y => x == y
  | text s, text t => s == t
  | list a, list b => equalItems a b
  | tuple a, tuple b => equalItems a b
  | map a, map b => a.length == b.length && entriesAmong b a
  | position x y z, position x' y' z' => equal x x' && equal y y' && equal z z'
  | mode m, mode n => decide (m = n)
  | bool a, w => w.integer? == some (if a then 1 else 0)
  | int i, w => w.integer? == some i
  | float x, bool b => (float x).integer? == some (if b then 1 else 0)
  | float x, int i => (float x).integer? == some i
  | _, _ => false

/-- Whether two lists of values are equal item by item. -/
def equalItems : List Value → List Value → Bool
  | [], [] => true
  | a :: as, b :: bs => equal a b && equalItems as bs
  | _, _ => false

/-- Whether each of the entries is equal to one among `others`. -/
def entriesAmong (others : List (Value × Value)) : List (Value × Value) → Bool
  | [] => true
  | (k, v) :: rest => (others.any fun (k', v') => equal k k' && equal v v') && entriesAmong others rest

end

/-- The entries after a value is put under a key: an equal key keeps its place and takes the new value. -/
def putEntry (key value : Value) : List (Value × Value) → List (Value × Value)
  | [] => [(key, value)]
  | (k, v) :: rest => if equal k key then (k, value) :: rest else (k, v) :: putEntry key value rest

/-- The map of the given pairs, a key that comes again keeping its first place and its last value. -/
def ofPairs (pairs : List (Value × Value)) : Value :=
  map (pairs.foldl (fun es (k, v) => putEntry k v es) [])

end PartProgram.Value

/-
Values as they are given.

Settings, job files and calls on a program all carry values whose kind is not fixed beforehand: a permissive
configuration takes a feed rate that is a text and writes it out as it stands.  `Value` is the one type for
them.  Positions and distance modes are values too, because a setting may be given in either its written or
its finished form.
-/

namespace PartProgram

/-- How coordinates are meant: from the origin, or from the place reached last. -/
inductive DistanceMode where
  | absolute
  | relative
deriving DecidableEq, Repr, Inhabited

/-- A value of any kind.  The entries of a map are in the order in which their keys were first given. -/
inductive Value where
  | null
  | bool (b : Bool)
  | int (i : Int)
  | float (x : Float)
  | text (s : String)
  | list (items : List Value)
  | tuple (items : List Value)
  | map (entries : List (Value × Value))
  | position (x y z : Value)
  | mode (m : DistanceMode)
deriving Inhabited

namespace Value

/-- The name of a value's kind, as messages give it. -/
def kindName : Value → String
  | null => "NoneType"
  | bool _ => "bool"
  | int _ => "int"
  | float _ => "float"
  | text _ => "str"
  | list _ => "list"
  | tuple _ => "tuple"
  | map _ => "dict"
  | position .. => "Position"
  | mode _ => "Positioning"

/-- Whether a value stands for nothing at all. -/
def isNull : Value → Bool
  | null => true
  | _ => false

/-- Whether a value counts as true: everything but nothing, false, zero and what is empty. -/
def isTrue : Value → Bool
  | null => false
  | bool b => b
  | int i => decide (i ≠ 0)
  | float x => !(x == 0.0)
  | text s => !s.isEmpty
  | list items => !items.isEmpty
  | tuple items => !items.isEmpty
  | map entries => !entries.isEmpty
  | position .. => true
  | mode _ => true

/-- The entry a map has under a text, its keys being compared as texts. -/
def entry? (key : String) : List (Value × Value) → Option Value
  | [] => none
  | (text k, v) :: rest => if k = key then some v else entry? key rest
  | _ :: rest => entry? key rest

end Value

end PartProgram

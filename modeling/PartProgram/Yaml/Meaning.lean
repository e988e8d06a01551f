/-
What the nodes of a document stand for.

Nodes are given their meaning from the outside in: whatever is wrong at one depth is found before what is wrong
further in, and at the same depth what comes first in the document.  A key must be a value that cannot change.
-/
import PartProgram.Value.Equality
import PartProgram.Yaml.Cursor
import PartProgram.Yaml.Node
import PartProgram.Yaml.Scalar

namespace PartProgram.Yaml

variable [DigitLimit]

namespace Node

/-- The text that is a value by itself only as a key. -/
def bareKey : String := "="

/-- The value of a plain text. -/
def plainValue (s : String) : Except Error Value :=
  if s = bareKey ∨ s = mergeKey then .error .unexpected
  else if isMoment s.toList then .error .beyond
  else (resolve s).mapError .value

/-- The value of a plain text as a key. -/
def plainKey (s : String) : Except Error Value :=
  if s = bareKey then .ok (.text s)
  else do
    let v ← plainValue s
    if isDay s.toList then throw .beyond else return v

/-- An error and the depth at which it is found. -/
abbrev Found := Nat × Error

/-- What is found at a depth. -/
def foundAt (depth : Nat) : Except Error Value → List Found
  | .ok _ => []
  | .error e => [(depth, e)]

/-- What is wrong with a key at a depth. -/
def keyFaults (depth : Nat) : Node → List Found
  | plain s => foundAt depth (plainKey s)
  | quoted _ => []
  | _ => [(depth, .badKey)]

mutual

/-- What is wrong with a node at a depth, in the order of the document. -/
def faults (depth : Nat) : Node → List Found
  | plain s => foundAt depth (plainValue s)
  | quoted _ => []
  | list items => itemFaults (depth + 1) items
  | map es => entryFaults (depth + 1) es
  | unmergeable => [(depth + 1, .unexpected)]

/-- The same for the items of a list. -/
def itemFaults (depth : Nat) : List Node → List Found
  | [] => []
  | n :: rest => faults depth n ++ itemFaults depth rest

/-- The same for the entries of a map. -/
def entryFaults (depth : Nat) : List (Node × Node) → List Found
  | [] => []
  | (k, n) :: rest => keyFaults depth k ++ faults depth n ++ entryFaults depth rest

end

/-- The first of what was found at the least depth. -/
def outermost : List Found → Option Error
  | [] => none
  | first :: rest => some (rest.foldl (fun least f => if f.1 < least.1 then f else least) first).2

/-- Whether a value is the float that is no number. -/
def isUndefined : Value → Bool
  | .float x => x.isNaN
  | _ => false

/-- Whether two keys of a document are one.  What is no number is the same wherever it stands. -/
def sameKey (k k' : Value) : Bool := k.equal k' || (isUndefined k && isUndefined k')

/-- The entries after a value is put under a key: the same key keeps its place and takes the new value. -/
def putEntry (key value : Value) : List (Value × Value) → List (Value × Value)
  | [] => [(key, value)]
  | (k, v) :: rest => if sameKey k key then (k, value) :: rest else (k, v) :: putEntry key value rest

/-- The value of a key that nothing is wrong with. -/
def keyValue : Node → Value
  | plain s => (plainKey s).toOption.getD .null
  | quoted s => .text s
  | _ => .null

mutual

/-- The value of a node that nothing is wrong with. -/
def value : Node → Value
  | plain s => (plainValue s).toOption.getD .null
  | quoted s => .text s
  | list items => .list (itemValues items)
  | map es => .map ((entryValues es).foldl (fun all (k, v) => putEntry k v all) [])
  | unmergeable => .null

/-- The values of the items of a list. -/
def itemValues : List Node → List Value
  | [] => []
  | n :: rest => value n :: itemValues rest

/-- The values of the entries of a map, in the order in which they stand. -/
def entryValues : List (Node × Node) → List (Value × Value)
  | [] => []
  | (k, n) :: rest => (keyValue k, value n) :: entryValues rest

end

/-- What a node stands for. -/
def meaning (n : Node) : Except Error Value :=
  match outermost (n.faults 0) with
  | some e => .error e
  | none => .ok n.value

end Node

end PartProgram.Yaml

/-
Values that can be read as a map.

A map is one; so is any sequence of pairs, a text counting as the sequence of its characters.
-/
import PartProgram.Decimal.Digits
import PartProgram.Value.Equality
import PartProgram.Value.Key

namespace PartProgram

/-- Why a value cannot be read as a map. -/
inductive EntriesError where
  | notSequence (kind : String)
  | itemNotSequence (index : Nat)
  | itemNotPair (index length : Nat)
  | unfitKey (e : UnfitKey)
deriving DecidableEq, Repr

/-- What went wrong, in words. -/
def EntriesError.message : EntriesError → String
  | notSequence kind => "'" ++ kind ++ "' object is not iterable"
  | itemNotSequence i =>
    "cannot convert dictionary update sequence element #" ++ Decimal.natText i ++ " to a sequence"
  | itemNotPair i n =>
    "dictionary update sequence element #" ++ Decimal.natText i ++ " has length " ++ Decimal.natText n
      ++ "; 2 is required"
  | unfitKey e => e.message

namespace Value

/-- The items of a sequence: those of a list, the keys of a map, the characters of a text. -/
def items? : Value → Option (List Value)
  | list items => some items
  | tuple items => some items
  | map entries => some (entries.map (·.1))
  | text s => some (s.toList.map fun c => text (String.ofList [c]))
  | _ => none

/-- The entries that a sequence of pairs gives; `index` is the number of pairs before. -/
def pairs (index : Nat) : List Value → Except EntriesError (List (Value × Value))
  | [] => .ok []
  | v :: rest =>
    match v.items? with
    | none => .error (.itemNotSequence index)
    | some [k, w] =>
      match k.checkKey with
      | .error e => .error (.unfitKey e)
      | .ok () => (pairs (index + 1) rest).map ((k, w) :: ·)
    | some items => .error (.itemNotPair index items.length)

/-- The entries of a value read as a map. -/
def entries : Value → Except EntriesError (List (Value × Value))
  | map entries => .ok entries
  | v => match v.items? with
    | none => .error (.notSequence v.kindName)
    | some items => (pairs 0 items).map fun ps => ps.foldl (fun es (k, w) => putEntry k w es) []

end Value

end PartProgram

/-
The context of a journal.

A context is a list of named values that go along with every record.  A name that is pushed again keeps its place
and takes the new value; one that was popped in between comes last.
-/
import PartProgram.Value.Entries
import PartProgram.Value.Printer

namespace PartProgram

/-- Named values in the order in which their names came in. -/
abbrev Context := List (String × Value)

/-- Why values cannot be popped. -/
inductive PopError where
  | notSequence (kind : String)
  | unfitKey (e : UnfitKey)
deriving DecidableEq, Repr

/-- What went wrong, in words. -/
def PopError.message : PopError → String
  | notSequence kind => "'" ++ kind ++ "' object is not iterable"
  | unfitKey e => e.message

namespace Context

/-- The context with one value pushed. -/
def put (name : String) (v : Value) : Context → Context
  | [] => [(name, v)]
  | (n, w) :: rest => if n = name then (n, v) :: rest else (n, w) :: put name v rest

/-- The context with values pushed in order. -/
def push (c fields : Context) : Context := fields.foldl (fun c (n, v) => c.put n v) c

/-- The context with the named values popped; names that are not there are passed over. -/
def pop (names : List String) (c : Context) : Context := c.filter fun (n, _) => !names.contains n

/-- The context with what the values name popped, one after another.  A value that is no text names nothing, and
where nothing is left none is looked at any more. -/
def popValues : List Value → Context → Except UnfitKey Context
  | [], c => .ok c
  | v :: rest, c =>
    if c.isEmpty then .ok c
    else match v with
      | .text name => popValues rest (c.pop [name])
      | v => match v.checkKey with
        | .ok () => popValues rest c
        | .error e => .error e

/-- The context with the names in a sequence popped; all of them where there is no sequence at all. -/
def popGiven (names : Value) (c : Context) : Except PopError Context :=
  match names with
  | .null => .ok []
  | v => match v.items? with
    | some items => (popValues items c).mapError .unfitKey
    | none => .error (.notSequence v.kindName)

/-- A named value as people read it. -/
def fieldText (field : String × Value) : String := field.1 ++ "=" ++ field.2.plain

/-- The context on one line. -/
def text (c : Context) : String := " ".intercalate (c.map fieldText)

/-- Refuses a context with a value that cannot be written. -/
def checkWritten [DigitLimit] (c : Context) : Except TooLong Unit := c.forM fun field => field.2.checkWritten

end Context

end PartProgram

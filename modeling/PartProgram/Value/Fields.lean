/-
Fields.

What is made by name is given its parts as fields, each a value under a name.  A signature lists the fields that must
be there and, for the others, the values that stand in for them.  A name that is not in the list is refused before
anything that is lacking is noticed.
-/
import PartProgram.Decimal.Digits
import PartProgram.Value.Basic

namespace PartProgram

/-- A value for each of some fields, by name. -/
abbrev Fields := List (String × Value)

/-- The fields as the entries of a map. -/
def Fields.entries (fields : Fields) : List (Value × Value) := fields.map fun (k, v) => (.text k, v)

/-- The fields that something is made of. -/
structure Signature where
  /-- What is made. -/
  title : String
  required : List String
  /-- The fields that may be left out, with the values that stand in for them. -/
  optional : Fields

/-- Why fields do not fit a signature. -/
inductive FieldError where
  | unexpected (title name : String)
  | missing (title : String) (names : List String)
  /-- Fields must come as a map, and not as a value of this kind. -/
  | notMap (title kind : String)
  /-- A name is no text. -/
  | nameNotText
deriving DecidableEq, Repr

namespace FieldError

/-- Names between single quotes, as a list in words. -/
def namesText : List String → String
  | [] => ""
  | [a] => "'" ++ a ++ "'"
  | [a, b] => "'" ++ a ++ "' and '" ++ b ++ "'"
  | [a, b, c] => "'" ++ a ++ "', '" ++ b ++ "', and '" ++ c ++ "'"
  | a :: rest => "'" ++ a ++ "', " ++ namesText rest

/-- What went wrong, in words. -/
def message : FieldError → String
  | unexpected title name => title ++ "() got an unexpected keyword argument '" ++ name ++ "'"
  | missing title names =>
    title ++ "() missing " ++ Decimal.natText names.length ++ " required positional argument"
      ++ (if names.length = 1 then "" else "s") ++ ": " ++ namesText names
  | notMap title kind => title ++ "() argument after ** must be a mapping, not " ++ kind
  | nameNotText => "keywords must be strings"

end FieldError

/-- The fields that the entries of a map give. -/
def Fields.ofEntries (es : List (Value × Value)) : Except FieldError Fields :=
  es.mapM fun (k, v) => match k with
    | .text name => .ok (name, v)
    | _ => .error .nameNotText

/-- The fields that a value gives. -/
def Fields.ofValue (title : String) : Value → Except FieldError Fields
  | .map es => ofEntries es
  | v => .error (.notMap title v.kindName)

namespace Signature

/-- The names of all fields, in order. -/
def names (s : Signature) : List String := s.required ++ s.optional.map (·.1)

/-- Refuses fields whose names are not in the signature, and then too few of them. -/
def check (s : Signature) (given : Fields) : Except FieldError Unit :=
  match given.find? fun f => !s.names.contains f.1 with
  | some (name, _) => .error (.unexpected s.title name)
  | none => match s.required.filter fun name => (given.lookup name).isNone with
    | [] => .ok ()
    | lacking => .error (.missing s.title lacking)

/-- The value of a field: the one given, or else the one that stands in for it. -/
def value (s : Signature) (given : Fields) (name : String) : Value :=
  ((given.lookup name).or (s.optional.lookup name)).getD .null

end Signature

end PartProgram

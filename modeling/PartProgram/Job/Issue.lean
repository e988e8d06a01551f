/-
What is wrong with a job file.

A job file is checked as a whole: every field that is wrong is reported, with the path that leads to it and the
problem that was met there.
-/
import PartProgram.Value.Printer

namespace PartProgram

/-- One step of a path into a value. -/
inductive PathStep where
  | key (k : String)
  | index (i : Int)
deriving DecidableEq, Repr

/-- A rule for the fields of a job file that does not come from their kinds. -/
inductive JobRule where
  | tooManyComponents (count : Nat)
  /-- Keys that are no axes, in alphabetical order. -/
  | unknownAxes (keys : List String)
  /-- A directive lacks a field that it cannot do without. -/
  | lacking (op field : String)
  | unknownSchema (given : String)
deriving DecidableEq, Repr

/-- What a broken rule says. -/
def JobRule.message : JobRule → String
  | tooManyComponents n => "position takes at most 3 components, got " ++ Decimal.natText n
  | unknownAxes keys => "position keys must be x, y or z, got " ++ (Value.list (keys.map .text)).literal
  | lacking op field => "op '" ++ op ++ "' requires '" ++ field ++ "'"
  | unknownSchema given => "Expected schema 'job.v1', got '" ++ given ++ "'"

/-- What can be wrong with a field. -/
inductive Problem where
  | missing
  | unexpected
  | keyNotText
  | notChoice (choices : List String)
  | notNumber
  | unreadableNumber
  | notTruth
  | unreadableTruth
  | notText
  | notInteger
  | fractionalInteger
  | integerNotFinite
  | integerTooLarge
  | notList
  | notMap
  | notDirective
  | breaks (rule : JobRule)
deriving DecidableEq, Repr

namespace Problem

/-- Texts between single quotes as a choice. -/
def choiceText : List String → String
  | [] => ""
  | [c] => "'" ++ c ++ "'"
  | [c, d] => "'" ++ c ++ "' or '" ++ d ++ "'"
  | c :: rest => "'" ++ c ++ "', " ++ choiceText rest

/-- The code of a problem. -/
def code : Problem → String
  | missing => "missing"
  | unexpected => "extra_forbidden"
  | keyNotText => "invalid_key"
  | notChoice _ => "literal_error"
  | notNumber => "float_type"
  | unreadableNumber => "float_parsing"
  | notTruth => "bool_type"
  | unreadableTruth => "bool_parsing"
  | notText => "string_type"
  | notInteger => "int_type"
  | fractionalInteger => "int_from_float"
  | integerNotFinite => "finite_number"
  | integerTooLarge => "int_parsing_size"
  | notList => "list_type"
  | notMap => "dict_type"
  | notDirective => "model_type"
  | breaks _ => "value_error"

/-- A problem in words. -/
def message : Problem → String
  | missing => "Field required"
  | unexpected => "Extra inputs are not permitted"
  | keyNotText => "Keys should be strings"
  | notChoice choices => "Input should be " ++ choiceText choices
  | notNumber => "Input should be a valid number"
  | unreadableNumber => "Input should be a valid number, unable to parse string as a number"
  | notTruth => "Input should be a valid boolean"
  | unreadableTruth => "Input should be a valid boolean, unable to interpret input"
  | notText => "Input should be a valid string"
  | notInteger => "Input should be a valid integer"
  | fractionalInteger => "Input should be a valid integer, got a number with a fractional part"
  | integerNotFinite => "Input should be a finite number"
  | integerTooLarge => "Unable to parse input string as an integer, exceeded maximum size"
  | notList => "Input should be a valid list"
  | notMap => "Input should be a valid dictionary"
  | notDirective => "Input should be a valid dictionary or instance of DirectiveV1"
  | breaks rule => "Value error, " ++ rule.message

end Problem

/-- A problem and the path to where it was met. -/
structure Issue where
  path : List PathStep
  problem : Problem
deriving DecidableEq, Repr

/-- The issue seen from one step further out. -/
def Issue.under (step : PathStep) (i : Issue) : Issue := { i with path := step :: i.path }

end PartProgram

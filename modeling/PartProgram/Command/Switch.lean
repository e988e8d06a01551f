/-
The switches of the command line.

A switch has one or two spellings, and some take a value.  A spelling of one letter begins with one dash and a
spelling of a word with two; a word may be shortened as long as it stays the only one.
-/
import PartProgram.Text.DecimalDigit
import PartProgram.Text.Quoted

namespace PartProgram.Command

/-- What the command line can say. -/
inductive Switch where
  | help
  | job
  | config
  | output
  | seed
  | strict
  | logLevel
  | logFile
  | logJson
deriving DecidableEq, Repr

namespace Switch

/-- All switches, in the order in which they are listed. -/
def all : List Switch := [help, job, config, output, seed, strict, logLevel, logFile, logJson]

/-- The spellings of a switch. -/
def spellings : Switch → List String
  | help => ["-h", "--help"]
  | job => ["--job", "-j"]
  | config => ["--config", "-c"]
  | output => ["--output", "-o"]
  | seed => ["--seed"]
  | strict => ["--strict"]
  | logLevel => ["--log-level"]
  | logFile => ["--log-file"]
  | logJson => ["--log-json"]

/-- Whether a value belongs to the switch. -/
def takesValue : Switch → Bool
  | help | strict | logJson => false
  | _ => true

/-- The switch as messages name it. -/
def title (s : Switch) : String := "/".intercalate s.spellings

/-- Every spelling with its switch. -/
def table : List (String × Switch) := all.flatMap fun s => s.spellings.map fun name => (name, s)

/-- The switch with the given spelling. -/
def named? (name : String) : Option Switch := table.lookup name

end Switch

/-- Why a command line is refused. -/
inductive UsageError where
  | valueMissing (s : Switch)
  | valueIgnored (s : Switch) (given : String)
  | ambiguous (given : String) (spellings : List String)
  | notInteger (s : Switch) (given : String)
  | notChoice (s : Switch) (given : String) (choices : List String)
  | required (s : Switch)
  | unrecognized (args : List String)
deriving DecidableEq, Repr

/-- What went wrong, in words. -/
def UsageError.message : UsageError → String
  | valueMissing s => "argument " ++ s.title ++ ": expected one argument"
  | valueIgnored s given => "argument " ++ s.title ++ ": ignored explicit argument " ++ Text.quoted given
  | ambiguous given spellings =>
    "ambiguous option: " ++ given ++ " could match " ++ ", ".intercalate spellings
  | notInteger s given => "argument " ++ s.title ++ ": invalid int value: " ++ Text.quoted given
  | notChoice s given choices =>
    "argument " ++ s.title ++ ": invalid choice: " ++ Text.quoted given ++ " (choose from "
      ++ ", ".intercalate (choices.map Text.quoted) ++ ")"
  | required s => "the following arguments are required: " ++ s.title
  | unrecognized args => "unrecognized arguments: " ++ " ".intercalate args

/-- What an argument is by itself. -/
inductive Word where
  | value (text : String)
  /-- Two dashes, behind which everything is a value. -/
  | divider
  | switch (s : Switch)
  /-- A switch with a text attached to it, which is spelled as a letter or as a word. -/
  | attached (s : Switch) (text : String) (letter : Bool)
  | unknown (text : String)
deriving DecidableEq, Repr

namespace Word

/-- The two parts of a text around its first equals sign. -/
def splitEquals? (s : String) : Option (String × String) :=
  let cs := s.toList
  match cs.dropWhile (· ≠ '=') with
  | [] => none
  | _ :: rest => some (String.ofList (cs.takeWhile (· ≠ '=')), String.ofList rest)

/-- Whether a spelling is that of a letter: one dash and the letter. -/
def isLetter (name : String) : Bool := name.length == 2

/-- A switch that is spelled as a word, with the text behind an equals sign, where there is one. -/
def withText (s : Switch) : Option String → Word
  | some text => .attached s text false
  | none => .switch s

/-- The spellings that an argument may stand for, with what it is in each case. -/
def candidates (arg : String) : List (String × Word) :=
  match arg.toList with
  | '-' :: '-' :: _ =>
    let (start, text) := match splitEquals? arg with
      | some (start, text) => (start, some text)
      | none => (arg, none)
    (Switch.table.filter fun e => start.toList.isPrefixOf e.1.toList).map fun (name, s) => (name, withText s text)
  | '-' :: letter :: rest =>
    let short := String.ofList ['-', letter]
    match Switch.named? short with
    | some s => [(short, .attached s (String.ofList rest) true)]
    | none => []
  | _ => []

/-- Whether all characters are decimal digits and there is at least one. -/
def areDigits (cs : List Char) : Bool := !cs.isEmpty && cs.all fun c => (Text.digitValue? c).isSome

/-- The characters without the line end that may close them. -/
def withoutLineEnd (cs : List Char) : List Char := if cs.getLast? == some '\n' then cs.dropLast else cs

/-- Whether an argument is a negative number: a dash and digits, with a point before the last of them.  A line end
behind it does not matter. -/
def isNegative (arg : String) : Bool :=
  match withoutLineEnd arg.toList with
  | '-' :: cs =>
    areDigits cs || match cs.dropWhile (fun c => (Text.digitValue? c).isSome) with
      | '.' :: fraction => areDigits fraction
      | _ => false
  | _ => false

/-- What an argument is that begins with a dash and has something behind it. -/
def readDashed (arg : String) : Except UsageError Word :=
  match Switch.named? arg, (splitEquals? arg).bind fun (name, v) => (Switch.named? name).map (·, v, isLetter name) with
  | some s, _ => .ok (.switch s)
  | none, some (s, v, letter) => .ok (.attached s v letter)
  | none, none => match candidates arg with
    | [(_, w)] => .ok w
    | [] => .ok (if isNegative arg || arg.toList.contains ' ' then .value arg else .unknown arg)
    | several => .error (.ambiguous arg (several.map (·.1)))

/-- What an argument is. -/
def read (arg : String) : Except UsageError Word :=
  match arg.toList with
  | ['-', '-'] => .ok .divider
  | '-' :: _ :: _ => readDashed arg
  | _ => .ok (.value arg)

/-- What arguments are. -/
def readAll : List String → Except UsageError (List Word)
  | [] => .ok []
  | arg :: rest => do
    match ← read arg with
    | .divider => return .divider :: rest.map .value
    | w => return w :: (← readAll rest)

end Word

end PartProgram.Command

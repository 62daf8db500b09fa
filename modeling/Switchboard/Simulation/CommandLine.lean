import Switchboard.Simulation.Host
import Switchboard.Text.DecimalDigit
import Switchboard.Text.Part
/-! # The command line

A plan is given by options. Each may be shortened as long as it is told apart from the others, takes the
next word or what follows an equals sign as its value, and replaces what was given before; digits take all
words up to the next option. A word of two hyphens ends the options, and what comes after it belongs to
nothing.
-/
namespace Switchboard.Simulation.CommandLine

inductive Setting where
  | base
  | publicBase
  | called
  | caller
  | callSid
  | digits
  | secret
  | help
deriving DecidableEq, Repr

def options : List (String × Setting) :=
  [("-h", .help), ("--help", .help), ("--base", .base), ("--public-base", .publicBase), ("--to", .called),
    ("--from", .caller), ("--call-sid", .callSid), ("--digits", .digits), ("--auth-token", .secret)]

inductive Word where
  | value (text : String)
  | option (setting : Setting) (attached : Option String)
  | stray
  | ambiguous
deriving DecidableEq, Repr

/-- Whether a word reads as a number below zero; a line end may follow. -/
def isNegativeNumber (word : String) : Bool :=
  match word.toList with
  | '-' :: number =>
    let number := if number.getLast? == some '\n' then number.dropLast else number
    let whole := number.takeWhile Text.isDecimalDigit
    match number.dropWhile Text.isDecimalDigit with
    | [] => !whole.isEmpty
    | '.' :: fraction => !fraction.isEmpty && fraction.all Text.isDecimalDigit
    | _ => false
  | _ => false

def splitEquals (word : String) : String × Option String :=
  match word.toList.dropWhile (· != '=') with
  | _ :: value => (String.ofList (word.toList.takeWhile (· != '=')), some (String.ofList value))
  | [] => (word, none)

def candidates (name : String) : List Setting :=
  (options.filter fun option => Text.beginsWith name option.1).map Prod.snd

/-- Whether what follows the option of one letter is no value: the letter may come again, and no hyphen or
equals sign may follow it directly. -/
def followsFlag : List Char → Bool
  | [] => true
  | c :: rest => if c = 'h' then followsFlag rest else c != '-' && c != '='

def flag (rest : List Char) : Word :=
  .option .help (if followsFlag rest then none else some (String.ofList rest))

def readUnnamed (word : String) : Word :=
  if isNegativeNumber word || word.toList.contains ' ' then .value word else .stray

def readLong (word : String) : Word :=
  let (name, attached) := splitEquals word
  match options.lookup name, candidates name with
  | some setting, _ => .option setting attached
  | none, [] => readUnnamed word
  | none, [setting] => .option setting attached
  | none, _ => .ambiguous

def readWord (word : String) : Word :=
  match options.lookup word with
  | some setting => .option setting none
  | none =>
    match word.toList with
    | '-' :: '-' :: _ => readLong word
    | '-' :: 'h' :: rest => flag rest
    | '-' :: _ :: _ => readUnnamed word
    | _ => .value word

def readWords (words : List String) : List Word :=
  (words.takeWhile (· != "--")).map readWord ++ (words.dropWhile (· != "--")).map fun _ => .stray

inductive Usage where
  | help
  | missingValue (setting : Setting)
  | ambiguousOption
  | attachedValue
  | strayWord
  | missingNumber
deriving DecidableEq, Repr

/-- What the next word may be. -/
inductive Expected where
  | option
  | valueOf (setting : Setting)
  | digit
deriving DecidableEq, Repr

structure Progress where
  plan : Plan
  expected : Expected := .option
  hasNumber : Bool := false
  hasStray : Bool := false
deriving DecidableEq, Repr

namespace Progress

def give (p : Progress) (setting : Setting) (value : String) : Progress :=
  let p := { p with expected := .option }
  match setting with
  | .base => { p with plan := { p.plan with base := value } }
  | .publicBase => { p with plan := { p.plan with publicBase := some value } }
  | .called => { p with plan := { p.plan with called := value }, hasNumber := true }
  | .caller => { p with plan := { p.plan with caller := value } }
  | .callSid => { p with plan := { p.plan with callSid := some value } }
  | .digits => { p with plan := { p.plan with digits := [value] } }
  | .secret => { p with plan := { p.plan with secret := some value } }
  | .help => p

def begin (p : Progress) (setting : Setting) (attached : Option String) : Except Usage Progress :=
  match setting, attached with
  | .help, none => .error .help
  | .help, some _ => .error .attachedValue
  | .digits, none => .ok { p with plan := { p.plan with digits := [] }, expected := .digit }
  | setting, some value => .ok (p.give setting value)
  | setting, none => .ok { p with expected := .valueOf setting }

def step (p : Progress) (word : Word) : Except Usage Progress :=
  match p.expected, word with
  | .valueOf setting, .value value => .ok (p.give setting value)
  | .valueOf setting, _ => .error (.missingValue setting)
  | .digit, .value value => .ok { p with plan := { p.plan with digits := p.plan.digits ++ [value] } }
  | _, .option setting attached => p.begin setting attached
  | _, _ => .ok { p with expected := .option, hasStray := true }

def finish (p : Progress) : Except Usage Plan :=
  match p.expected with
  | .valueOf setting => .error (.missingValue setting)
  | _ =>
    if !p.hasNumber then .error .missingNumber
    else if p.hasStray then .error .strayWord
    else .ok p.plan

end Progress

def parse (defaults : Plan) (arguments : List String) : Except Usage Plan := do
  let words := readWords arguments
  if words.contains .ambiguous then throw .ambiguousOption
  let progress ← words.foldlM Progress.step { plan := defaults }
  progress.finish

def usageText : String :=
  "usage: switchboard [-h] [--base BASE] [--public-base PUBLIC_BASE] --to TO_NUMBER\n" ++
    "                   [--from FROM_NUMBER] [--call-sid CALL_SID]\n" ++
    "                   [--digits [DIGITS ...]] [--auth-token AUTH_TOKEN]\n"

namespace Usage

def status : Usage → UInt32
  | help => 0
  | _ => 2

def message : Usage → String
  | help => usageText
  | missingValue setting => usageText ++ "error: argument " ++
      String.intercalate "/" ((options.filter fun option => option.2 == setting).map Prod.fst) ++
      ": expected one argument\n"
  | ambiguousOption => usageText ++ "error: ambiguous option\n"
  | attachedValue => usageText ++ "error: argument -h/--help: takes no value\n"
  | strayWord => usageText ++ "error: unrecognized arguments\n"
  | missingNumber => usageText ++ "error: the following arguments are required: --to\n"

end Usage
end Switchboard.Simulation.CommandLine

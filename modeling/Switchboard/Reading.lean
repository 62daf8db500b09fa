import Switchboard.Number.Numeral
import Switchboard.Text.Lowercase
import Switchboard.Value.Basic
/-! # Reading values as records

A record is read from an object field by field, and every field that cannot be read is reported. An
issue tells where the value stands and what is wrong with it. The reading of two parts fails with the
issues of both, so the issues of a record come in the order of its fields.
-/
namespace Switchboard

inductive Step where
  | field (name : Text)
  | item (index : Nat)
deriving DecidableEq, Repr

inductive Problem where
  | missing
  | notText
  | looseText
  | notList
  | notObject
  | notRecord (name : String)
  | notBody
  | notOneOf (words : List String)
  | notInteger
  | unreadableInteger
  | oversizedInteger
  | unwritable
  | fraction
  | notFinite
  | notNumber
  | unreadableNumber
  | notBool
  | unreadableBool
  | below (least : Int)
  | above (greatest : Int)
  | malformed
  | unexpected
deriving DecidableEq, Repr

def alternatives : List String → String
  | [] => ""
  | [word] => "'" ++ word ++ "'"
  | [word, last] => "'" ++ word ++ "' or '" ++ last ++ "'"
  | word :: rest => "'" ++ word ++ "', " ++ alternatives rest

def oversizedMessage : String :=
  "Exceeds the limit (4300 digits) for integer string conversion; use sys.set_int_max_str_digits() to increase the limit"

def Problem.message : Problem → String
  | .missing => "Field required"
  | .notText => "Input should be a valid string"
  | .looseText => "Input should be a valid string, unable to parse raw data as a unicode string"
  | .notList => "Input should be a valid list"
  | .notObject => "Input should be a valid dictionary"
  | .notRecord name => "Input should be a valid dictionary or instance of " ++ name
  | .notBody => "Input should be a valid dictionary or object to extract fields from"
  | .notOneOf words => "Input should be " ++ alternatives words
  | .notInteger => "Input should be a valid integer"
  | .unreadableInteger => "Input should be a valid integer, unable to parse string as an integer"
  | .oversizedInteger => "Unable to parse input string as an integer, exceeded maximum size"
  | .unwritable => "Value error, " ++ oversizedMessage
  | .fraction => "Input should be a valid integer, got a number with a fractional part"
  | .notFinite => "Input should be a finite number"
  | .notNumber => "Input should be a valid number"
  | .unreadableNumber => "Input should be a valid number, unable to parse string as a number"
  | .notBool => "Input should be a valid boolean"
  | .unreadableBool => "Input should be a valid boolean, unable to interpret input"
  | .below least => "Input should be greater than or equal to " ++ toString least
  | .above greatest => "Input should be less than or equal to " ++ toString greatest
  | .malformed => "JSON decode error"
  | .unexpected => "Extra inputs are not permitted"

def Problem.code : Problem → String
  | .missing => "missing"
  | .notText => "string_type"
  | .looseText => "string_unicode"
  | .notList => "list_type"
  | .notObject => "dict_type"
  | .notRecord _ => "model_type"
  | .notBody => "model_attributes_type"
  | .notOneOf _ => "enum"
  | .notInteger => "int_type"
  | .unreadableInteger => "int_parsing"
  | .oversizedInteger => "int_parsing_size"
  | .unwritable => "value_error"
  | .fraction => "int_from_float"
  | .notFinite => "finite_number"
  | .notNumber => "float_type"
  | .unreadableNumber => "float_parsing"
  | .notBool => "bool_type"
  | .unreadableBool => "bool_parsing"
  | .below _ => "greater_than_equal"
  | .above _ => "less_than_equal"
  | .malformed => "json_invalid"
  | .unexpected => "extra_forbidden"

structure Issue where
  path : List Step
  problem : Problem
deriving DecidableEq, Repr

def Step.text : Step → Text
  | .field name => name
  | .item index => toString index

def Issue.message (issue : Issue) : Text :=
  Text.intercalate "." (issue.path.map Step.text) ++ ": " ++ issue.problem.message

def Issue.summary (issues : List Issue) : Text :=
  Text.intercalate "; " (issues.map Issue.message)

/-- The outcome of reading: a result, or what is wrong. -/
inductive Reading (α : Type) where
  | done (a : α)
  | refused (issues : List Issue)
deriving Repr

namespace Reading

variable {α β : Type}

def map (f : α → β) : Reading α → Reading β
  | done a => done (f a)
  | refused issues => refused issues

/-- Puts two readings together; the issues of the first come first. -/
def apply (f : Reading (α → β)) (x : Reading α) : Reading β :=
  match f, x with
  | done f, done a => done (f a)
  | done _, refused issues => refused issues
  | refused issues, done _ => refused issues
  | refused issues, refused more => refused (issues ++ more)

instance : Functor Reading := ⟨map, fun a r => map (fun _ => a) r⟩

instance : Applicative Reading where
  pure := done
  seq f x := apply f (x ())

def fail (problem : Problem) : Reading α :=
  refused [{ path := [], problem }]

def under (step : Step) : Reading α → Reading α
  | done a => done a
  | refused issues => refused (issues.map fun issue => { issue with path := step :: issue.path })

def isDone : Reading α → Bool
  | done _ => true
  | refused _ => false

def result? : Reading α → Option α
  | done a => some a
  | refused _ => none

def items (read : Value → Reading α) : Nat → List Value → Reading (List α)
  | _, [] => done []
  | index, v :: rest =>
    List.cons <$> under (.item index) (read v) <*> items read (index + 1) rest

def list (read : Value → Reading α) : Value → Reading (List α)
  | .arr values => items read 0 values
  | _ => fail .notList

def text : Value → Reading Text
  | .str t => done t
  | _ => fail .notText

/-- One of some words, which may be told in more than one way. -/
def oneOf (words : List String) (find? : String → Option α) : Value → Reading α
  | .str (.plain s) =>
    match find? s with
    | some a => done a
    | none => fail (.notOneOf words)
  | .str (.loose _ _) => fail .looseText
  | _ => fail (.notOneOf words)

def nullable (read : Value → Reading α) : Value → Reading (Option α)
  | .null => done none
  | v => some <$> read v

def entries : Value → Reading Entries
  | .obj entries => done entries
  | _ => fail .notObject

def wordBound : Int := 9223372036854775808

/-- An integer: truth values, numbers without a fraction that fit a word, and texts that hold an integer
count. -/
def integer : Value → Reading Int
  | .int n => done n
  | .bool b => done (if b then 1 else 0)
  | .float x =>
    match x.truncate? with
    | none => fail .notFinite
    | some n =>
      if !x.isInteger then fail .fraction
      else if -wordBound < n && n < wordBound then done n
      else fail .oversizedInteger
  | .str (.plain s) =>
    match Numeral.strictInteger s with
    | .ok n => done n
    | .error .tooLong => fail .oversizedInteger
    | .error .malformed => fail .unreadableInteger
  | .str (.loose _ _) => fail .looseText
  | _ => fail .notInteger

/-- A number: truth values, integers that are not too large and texts that hold a number count. -/
def number : Value → Reading Binary64
  | .float x => done x
  | .bool b => done (Binary64.ofInt (if b then 1 else 0))
  | .int n =>
    match Binary64.ofInt? n with
    | some x => done x
    | none => fail .notNumber
  | .str (.plain s) =>
    match Numeral.strictDecimal? s with
    | some x => done x
    | none => fail .unreadableNumber
  | .str (.loose _ _) => fail .looseText
  | _ => fail .notNumber

def trueWords : List String := ["1", "on", "t", "true", "y", "yes"]

def falseWords : List String := ["0", "off", "f", "false", "n", "no"]

def ofWord (word : String) : Reading Bool :=
  let word := String.ofList (word.toList.map Char.toLower)
  if trueWords.contains word then done true
  else if falseWords.contains word then done false
  else fail .unreadableBool

/-- The truth value that an integer of a word counts as; no integer beyond a word is near one. -/
def boolOfInt (n : Int) (fits : Bool) : Reading Bool :=
  if n = 0 then done false
  else if n = 1 then done true
  else if fits then fail .unreadableBool
  else fail .notBool

def bool : Value → Reading Bool
  | .bool b => done b
  | .int n => boolOfInt n (-wordBound ≤ n && n < wordBound)
  | .float x =>
    match x.truncate? with
    | some n => if x.isInteger then boolOfInt n (-wordBound < n && n < wordBound) else fail .notBool
    | none => fail .notBool
  | .str (.plain s) => ofWord s
  | .str (.loose _ _) => fail .looseText
  | _ => fail .notBool

def field (entries : Entries) (name : Text) (read : Value → Reading α) : Reading α :=
  under (.field name) (match entries.get? name with
    | some v => read v
    | none => fail .missing)

def fieldOr (entries : Entries) (name : Text) (absent : α) (read : Value → Reading α) : Reading α :=
  match entries.get? name with
  | some v => under (.field name) (read v)
  | none => done absent

/-- A reading whose object must have no other fields than the named ones. -/
def closed (entries : Entries) (names : List Text) (read : Reading α) : Reading α :=
  let others := entries.filter fun entry => !names.contains entry.1
  match read, others.map fun entry => { path := [.field entry.1], problem := .unexpected : Issue } with
  | done a, [] => done a
  | done _, issues => refused issues
  | refused issues, more => refused (issues ++ more)

def record (name : String) (read : Entries → Reading α) : Value → Reading α
  | .obj entries => read entries
  | _ => fail (.notRecord name)

end Reading
end Switchboard

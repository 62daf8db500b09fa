import Switchboard.Number.Binary64
import Switchboard.Text.Basic
/-! # Free-form values

The configuration of a block is a value of a data format: null, a truth value, an integer of any size, a
number with a fraction, a text, a list, or an object, nested to any depth. An object is a list of entries:
their order is kept, a repeated key keeps its first place and takes its last value.
-/
namespace Switchboard

/-- A free-form value. -/
inductive Value where
  | null
  | bool (b : Bool)
  | int (n : Int)
  | float (x : Binary64)
  | str (t : Text)
  | arr (items : List Value)
  | obj (entries : List (Text × Value))
deriving Inhabited, Repr

abbrev Entries := List (Text × Value)

namespace Entries

def get? (entries : Entries) (key : Text) : Option Value :=
  entries.lookup key

def get (entries : Entries) (key : Text) : Value :=
  (entries.get? key).getD .null

def has (entries : Entries) (key : Text) : Bool :=
  (entries.get? key).isSome

/-- The entries with a key set to a value: in its place when the key is there, otherwise at the end. -/
def put (key : Text) (value : Value) : Entries → Entries
  | [] => [(key, value)]
  | entry :: rest => if entry.1 = key then (key, value) :: rest else entry :: put key value rest

def putAll (entries updates : Entries) : Entries :=
  updates.foldl (fun entries update => put update.1 update.2 entries) entries

/-- The object of a list of entries, each key in its first place with its last value. -/
def ofList (entries : List (Text × Value)) : Entries :=
  putAll [] entries

theorem get?_put (key other : Text) (value : Value) (entries : Entries) :
    (put key value entries).get? other = if other = key then some value else entries.get? other := by
  induction entries with
  | nil => grind [get?, put]
  | cons entry rest ih =>
    by_cases he : entry.1 = key <;> by_cases ho : other = key <;> grind [get?, put]

end Entries

namespace Value

inductive Kind where
  | null
  | bool
  | int
  | float
  | str
  | arr
  | obj
deriving DecidableEq, Repr

def kind : Value → Kind
  | null => .null
  | bool _ => .bool
  | int _ => .int
  | float _ => .float
  | str _ => .str
  | arr _ => .arr
  | obj _ => .obj

def Kind.name : Kind → String
  | .null => "NoneType"
  | .bool => "bool"
  | .int => "int"
  | .float => "float"
  | .str => "str"
  | .arr => "list"
  | .obj => "dict"

/-- Whether a value counts as true: null, false, zero and everything empty do not. -/
def truthy : Value → Bool
  | null => false
  | bool b => b
  | int n => n != 0
  | float x => !x.isZero
  | str t => t != ""
  | arr items => !items.isEmpty
  | obj entries => !entries.isEmpty

def orElse (value alternative : Value) : Value :=
  if value.truthy then value else alternative

def truthy? (value : Value) : Option Value :=
  if value.truthy then some value else none

def ofText? : Option Text → Value
  | some t => str t
  | none => null

def asText? : Value → Option Text
  | str t => some t
  | _ => none

def asEntries? : Value → Option Entries
  | obj entries => some entries
  | _ => none

def isNull : Value → Bool
  | null => true
  | _ => false

def asInt? : Value → Option Int
  | bool b => some (if b then 1 else 0)
  | int n => some n
  | _ => none

/-- Whether a scalar value equals another: truth values count as one and zero, and integers and numbers
with a fraction are compared by their values. Two missing numbers are alike. -/
def scalarAlike (v w : Value) : Bool :=
  match v, w with
  | null, null => true
  | str s, str t => s == t
  | float x, float y => x.same y || (x == .nan && y == .nan)
  | float x, w => match w.asInt? with
    | some n => x.isInt n
    | none => false
  | v, float y => match v.asInt? with
    | some n => y.isInt n
    | none => false
  | v, w => match v.asInt?, w.asInt? with
    | some m, some n => m == n
    | _, _ => false

mutual

/-- Whether two values are equal in the loose sense: scalars as in `scalarAlike`, lists item by item, and
objects key by key in any order. -/
def alike : Value → Value → Bool
  | arr xs, arr ys => alikeItems xs ys
  | obj xs, obj ys => xs.length == ys.length && alikeEntries xs ys
  | v, w => scalarAlike v w

def alikeItems : List Value → List Value → Bool
  | [], [] => true
  | x :: xs, y :: ys => alike x y && alikeItems xs ys
  | _, _ => false

def alikeEntries : List (Text × Value) → List (Text × Value) → Bool
  | [], _ => true
  | (key, x) :: xs, ys =>
    (match ys.lookup key with
      | some y => alike x y
      | none => false) && alikeEntries xs ys

end

def distinct (values : List Value) : List Value :=
  values.foldl (fun kept v => if kept.any (alike · v) then kept else kept ++ [v]) []

mutual

def finiteOnly : Value → Value
  | float x => if x.isFinite then float x else null
  | arr items => arr (finiteItems items)
  | obj entries => obj (finiteEntries entries)
  | v => v

def finiteItems : List Value → List Value
  | [] => []
  | v :: rest => finiteOnly v :: finiteItems rest

def finiteEntries : List (Text × Value) → List (Text × Value)
  | [] => []
  | (key, v) :: rest => (key, finiteOnly v) :: finiteEntries rest

end

end Value
end Switchboard

import Switchboard.Fault
import Switchboard.Text.Lowercase
/-! # Blocks

A block is one step of a call. Its type says what happens there and its free-form configuration how;
`next` holds the ids of the blocks that follow. A menu also leads to the targets of its options, and any
block to the one it names for failures.
-/
namespace Switchboard

inductive BlockType where
  | say
  | menu
  | forward
  | multiForward
  | pause
  | play
  | sms
  | hangup
deriving DecidableEq, Repr, Inhabited

namespace BlockType

def all : List BlockType :=
  [say, menu, forward, multiForward, pause, play, sms, hangup]

def name : BlockType → String
  | say => "say"
  | menu => "menu"
  | forward => "forward"
  | multiForward => "multi_forward"
  | pause => "pause"
  | play => "play"
  | sms => "sms"
  | hangup => "hangup"

def isLinear : BlockType → Bool
  | say | play | pause | sms => true
  | _ => false

def ofName? (name : String) : Option BlockType :=
  all.find? fun t => t.name == (if name == "gather" then "menu" else name)

/-- The type that a value names; case and blanks around a name do not matter. -/
def read : Value → Reading BlockType :=
  Reading.oneOf (all.map name) fun s => ofName? (Text.lowercase (Text.trimString s))

end BlockType

structure Position (K : Type := Binary64) where
  x : K
  y : K
deriving DecidableEq, Repr

namespace Position

def readEntries (entries : Entries) : Reading (Position Binary64) :=
  Position.mk <$> Reading.fieldOr entries "x" (.ofInt 0) Reading.number
    <*> Reading.fieldOr entries "y" (.ofInt 0) Reading.number

def read : Value → Reading (Position Binary64) :=
  Reading.record "Position" readEntries

def toValue (p : Position Binary64) : Value :=
  .obj [("x", .float p.x), ("y", .float p.y)]

end Position

structure MenuOption where
  digit : Text
  label : Option Text
  target : Option Text
deriving DecidableEq, Repr

namespace MenuOption

/-- The digits of an option, from any value but null that has a text. -/
def readDigit : Value → Reading Text
  | .null => .fail .notText
  | v =>
    match v.text? with
    | some t => .done t.trim
    | none => .fail .unwritable

def read (entries : Entries) : Reading MenuOption :=
  MenuOption.mk <$> Reading.field entries "digit" readDigit
    <*> Reading.fieldOr entries "label" none (Reading.nullable Reading.text)
    <*> Reading.fieldOr entries "target" none (Reading.nullable Reading.text)

def toValue (o : MenuOption) : Value :=
  .obj [("digit", .str o.digit), ("label", .ofText? o.label), ("target", .ofText? o.target)]

def target? (o : MenuOption) : Option Text :=
  o.target.filter (· != "")

end MenuOption

/-- A step of a call. -/
structure Block (K : Type := Binary64) where
  id : Text
  type : BlockType
  config : Entries
  position : Position K
  next : List Text
deriving Repr

namespace Block

variable {K : Type}

/-- The following blocks, from nothing, one id or a list of ids. -/
def readNext : Value → Reading (List Text)
  | .null => .done []
  | .str id => .done [id]
  | v => Reading.list Reading.text v

def readConfig (v : Value) : Reading Entries :=
  if v.truthy then Reading.entries v else .done []

def readEntries (entries : Entries) : Reading Block :=
  Block.mk <$> Reading.field entries "id" Reading.text
    <*> Reading.field entries "type" BlockType.read
    <*> Reading.fieldOr entries "config" [] readConfig
    <*> Reading.fieldOr entries "position" ⟨.ofInt 0, .ofInt 0⟩ Position.read
    <*> Reading.fieldOr entries "next" [] readNext

def read : Value → Reading Block :=
  Reading.record "Block" readEntries

/-- A block as a value; numbers of the configuration that are not finite become null. -/
def toValue (b : Block) : Value :=
  .obj [("id", .str b.id), ("type", .str b.type.name),
    ("config", .obj (Value.finiteEntries b.config)), ("position", b.position.toValue),
    ("next", .arr (b.next.map .str))]

/-- The option that an item of the configuration stands for; an item that is no object or has no digits
stands for none. -/
def readOption (item : Value) : Outcome (Option MenuOption) :=
  match item with
  | .obj entries =>
    match Entries.get entries "digit" with
    | .null | .str (.plain "") => .ok none
    | _ => some <$> (MenuOption.read entries).outcome
  | _ => .ok none

/-- The items that hold the options: a list, or an object from digits to targets. -/
def optionItems (config : Entries) : Outcome (List Value) :=
  match config.get "options" with
  | .obj entries =>
    .ok (entries.map fun entry => .obj [("digit", .str entry.1), ("target", entry.2)])
  | v => if v.truthy then v.items else .ok []

def menuOptions (b : Block K) : Outcome (List MenuOption) := do
  let items ← optionItems b.config
  let options ← items.mapM readOption
  return options.filterMap fun o => o

def optionFor (b : Block K) (digits : Option Text) : Outcome (Option MenuOption) :=
  match digits with
  | none | some (.plain "") => .ok none
  | some digits => do
    let options ← b.menuOptions
    return options.find? fun o => o.digit == digits.trim

def optionAt (b : Block K) (digits : Value) : Outcome (Option MenuOption) :=
  match digits.truthy?, digits with
  | none, _ => .ok none
  | some _, .str s => b.optionFor (some s)
  | some v, _ => .error (.noPart v.kind "strip")

def onFail? (b : Block K) : Option Value :=
  (b.config.get "on_fail").truthy?

def firstNext? (b : Block K) : Option Text :=
  b.next.head?

def optionTargets (b : Block K) : Outcome (List Text) :=
  if b.type = .menu then do
    let options ← b.menuOptions
    return options.filterMap MenuOption.target?
  else .ok []

/-- Everything the block can lead to, each once: the following blocks, the targets of its options and
what it names for failures. -/
def edges (b : Block K) : Outcome (List Value) := do
  let targets ← b.optionTargets
  return Value.distinct ((b.next ++ targets).map .str ++ b.onFail?.toList)

def edgeIds (b : Block K) : Outcome (List Text) := do
  let edges ← b.edges
  let ids ← edges.mapM Value.key?
  return ids.filterMap fun id => id

end Block
end Switchboard

import Switchboard.Flow.Block
import Switchboard.Identifier
/-! # The palette of new blocks

A new block starts from the configuration that its type has by default, with the given settings on top,
and gets a fresh id unless one is given.
-/
namespace Switchboard.Palette

def defaultConfig : BlockType → Entries
  | .say => [("text", .str "New message")]
  | .menu => [("prompt", .str "Choose an option"),
      ("options", .arr [MenuOption.toValue ⟨"1", some "Option 1", none⟩])]
  | .forward => [("to", .str "")]
  | .multiForward => [("numbers", .arr [])]
  | .pause => [("seconds", .int 1)]
  | .play => [("url", .str "")]
  | .sms => [("body", .str "")]
  | .hangup => []

def typeOf (name : Value) : Outcome BlockType := do
  let key ← name.key?
  match key.bind fun t => t.plain?.bind BlockType.ofName? with
  | some t => return t
  | none =>
    match name.quoted? with
    | some quoted => throw (.unknownBlockType quoted)
    | none => throw .oversized

def readPair (item : Value) : Outcome (Value × Value) := do
  match ← item.items with
  | [key, value] => do
    let _ ← key.key?
    return (key, value)
  | _ => throw .notPair

def settle (pairs : List (Value × Value)) : List (Value × Value) :=
  pairs.foldl (fun kept pair =>
    if kept.any fun other => other.1.alike pair.1 then
      kept.map fun other => if other.1.alike pair.1 then (other.1, pair.2) else other
    else kept ++ [pair]) []

def settingsOf (v : Value) : Outcome (List (Value × Value)) :=
  match v.orElse (.obj []) with
  | .obj entries => .ok (entries.map fun entry => (.str entry.1, entry.2))
  | v => do
    let items ← v.items
    return settle (← items.mapM readPair)

/-- A key as it is named in an issue; truth values are numbers there. -/
def keyName : Value → Text
  | .bool b => if b then "1" else "0"
  | key => key.text?.getD "<unprintable int object>"

def readSetting (pair : Value × Value) : Reading (Text × Value) :=
  match pair.1 with
  | .str key => .done (key, pair.2)
  | key => Reading.under (.field (keyName key)) (Reading.under (.field "[key]") (.fail .notText))

def readSettings : List (Value × Value) → Reading Entries
  | [] => .done []
  | pair :: rest => List.cons <$> readSetting pair <*> readSettings rest

def assemble (type : BlockType) (settings : List (Value × Value)) (id : Value) : Outcome Block :=
  (Block.mk <$> Reading.under (.field "id") (Reading.text id)
    <*> pure type
    <*> Reading.under (.field "config") ((defaultConfig type).putAll <$> readSettings settings)
    <*> pure ⟨.ofInt 0, .ofInt 0⟩
    <*> pure []).outcome

/-- A new block of the named type, and the supply that is left. An identifier is used up when the type
and the settings are in order and no id is given. -/
def newBlock (type config id : Value) (supply : Supply) : Outcome Block × Supply :=
  match typeOf type, settingsOf config with
  | .error fault, _ => (.error fault, supply)
  | .ok _, .error fault => (.error fault, supply)
  | .ok type, .ok settings =>
    if id.truthy then (assemble type settings id, supply)
    else (assemble type settings (.str (type.name ++ "-" ++ supply.nextShort : String)), supply.advance)

end Switchboard.Palette

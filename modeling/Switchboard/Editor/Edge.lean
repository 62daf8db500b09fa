import Switchboard.Flow.Block
/-! # Edges under edit

An edge is added to a block and taken away from it. On a menu an edge belongs to an option: a given one,
or the first that leads nowhere.
-/
namespace Switchboard.Edge

variable {K : Type}

def bindFirst? (test : MenuOption → Bool) (target : Text) :
    List MenuOption → Option (List MenuOption)
  | [] => none
  | o :: rest =>
    if test o then some ({ o with target := some target } :: rest)
    else (bindFirst? test target rest).map (o :: ·)

/-- The options with an edge to a block, bound to the given digits or to the first option that leads
nowhere. -/
def bindOption (options : List MenuOption) (target : Text) (digit : Option Text) :
    List MenuOption :=
  match digit with
  | some d =>
    (bindFirst? (fun o => o.digit == d) target options).getD (options ++ [⟨d, none, some target⟩])
  | none =>
    if options.any fun o => o.target == some target then options
    else (bindFirst? (fun o => o.target?.isNone) target options).getD options

def withOptions (config : Entries) (options : List MenuOption) : Entries :=
  Entries.put "options" (.arr (options.map MenuOption.toValue)) config

def add (b : Block K) (target : Text) (digit : Option Text) : Outcome (Block K) := do
  let next := if b.next.contains target then b.next else b.next ++ [target]
  if b.type = .menu then
    let options ← b.menuOptions
    return { b with next, config := withOptions b.config (bindOption options target digit) }
  else return { b with next }

/-- A block with an edge to another, bound to the text of a value on a menu; null binds it to no digits. -/
def addAt (b : Block K) (target : Text) (digit : Value) : Outcome (Block K) :=
  if b.type = .menu ∧ digit.isNull = false then do
    let _ ← b.menuOptions
    let digit ← digit.written
    add b target (some digit)
  else add b target none

def leadsTo (target : Value) (edge : Text) : Bool :=
  (Value.str edge).alike target

def unbind (target : Value) (o : MenuOption) : MenuOption :=
  { o with target := o.target.filter fun edge => !leadsTo target edge }

def stripOptions (b : Block K) (target : Value) : Outcome Entries :=
  if b.type = .menu ∧ b.config.has "options" = true then do
    let options ← b.menuOptions
    return withOptions b.config (options.map (unbind target))
  else .ok b.config

def stripOnFail (config : Entries) (target : Value) : Entries :=
  if (config.get "on_fail").alike target then Entries.put "on_fail" .null config else config

/-- A block without its edges to a target. -/
def strip (b : Block K) (target : Value) : Outcome (Block K) := do
  let config ← stripOptions b target
  return { b with
    next := b.next.filter fun edge => !leadsTo target edge
    config := stripOnFail config target }

def changeAt (blocks : List (Block K)) (id : Text) (change : Block K → Outcome (Block K)) :
    Outcome (List (Block K)) :=
  blocks.mapM fun b => if b.id = id then change b else .ok b

end Switchboard.Edge

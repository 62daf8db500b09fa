import Switchboard.Flow.Finding
import Switchboard.Flow.Graph
/-! # Validation

A flow may be saved when its graph and the settings of its blocks are in order. The checks report errors
and warnings: first the repeated ids, then block by block the edges and the settings, then the entry and
what a call never comes to.
-/
namespace Switchboard

/-- What the validation of a flow reports. -/
structure Report where
  errors : List Finding := []
  warnings : List Finding := []
  entryBlockId : Option Text := none
deriving DecidableEq, Repr

namespace Report

def ok (r : Report) : Bool :=
  r.errors.isEmpty

def summary (r : Report) : Text :=
  Finding.summary r.errors

def append (r s : Report) : Report where
  errors := r.errors ++ s.errors
  warnings := r.warnings ++ s.warnings
  entryBlockId := s.entryBlockId.or r.entryBlockId

instance : Append Report := ⟨append⟩

@[simp] theorem errors_append (r s : Report) : (r ++ s).errors = r.errors ++ s.errors := rfl

@[simp] theorem warnings_append (r s : Report) : (r ++ s).warnings = r.warnings ++ s.warnings := rfl

@[simp] theorem ok_append (r s : Report) : (r ++ s).ok = (r.ok && s.ok) := by
  simp only [ok, errors_append]
  cases r.errors <;> rfl

end Report

namespace Validation

variable {K : Type}

def isUnset : Value → Bool
  | .null => true
  | .str s => Text.isBlankText s
  | _ => false

/-- Whether a setting is a number above zero. A number that is too large has no answer. -/
def isPositive (v : Value) : Outcome Bool :=
  match v.toNumber with
  | .ok x => .ok (decide (Binary64.ofInt 0 < x))
  | .error .tooLarge => .error .tooLarge
  | .error _ => .ok false

def errorAt (b : Block K) (code : FindingCode) (message : Text) : List Finding :=
  [{ code, message, blockId := some b.id }]

def describe (b : Block K) : Text :=
  b.type.name ++ " block '" ++ b.id ++ "'"

def checkRequired (b : Block K) (key : Text) : List Finding :=
  if isUnset (b.config.get key) then
    errorAt b .missingRequiredConfig (describe b ++ " requires '" ++ key ++ "'")
  else []

def checkNumber (b : Block K) (key : Text) : Outcome (List Finding) := do
  let v := b.config.get key
  if isUnset v then return []
  if ← isPositive v then return []
  return errorAt b .invalidConfig (describe b ++ " needs a positive number for '" ++ key ++ "'")

def checkNumbers (b : Block K) : Outcome (List Finding) := do
  let numbers ← ((b.config.get "numbers").orElse (.arr [])).items
  if numbers.all isUnset then
    return errorAt b .missingRequiredConfig (describe b ++ " requires at least one number")
  return []

def checkSeconds (b : Block K) : Outcome (List Finding) := do
  let seconds := b.config.get "seconds"
  if seconds.isNull then return checkRequired b "seconds"
  if ← isPositive seconds then return []
  return errorAt b .invalidConfig (describe b ++ " needs a positive number of seconds")

def repeatedDigits (options : List MenuOption) : List Text :=
  let digits := options.map MenuOption.digit
  (digits.eraseDups.filter fun d => 1 < digits.count d).mergeSort fun s t => !decide (t < s)

def checkOptions (b : Block K) : Outcome (List Finding) := do
  let options ← b.menuOptions
  let missing :=
    if options.isEmpty then
      errorAt b .missingRequiredConfig (describe b ++ " requires at least one option")
    else []
  let repeated := repeatedDigits options
  let twice :=
    if repeated.isEmpty then []
    else errorAt b .invalidConfig
      (describe b ++ " repeats digit(s) " ++ Text.intercalate ", " repeated)
  return missing ++ twice

def checkConfig (b : Block K) : Outcome (List Finding) :=
  match b.type with
  | .say => .ok (checkRequired b "text")
  | .play => do return checkRequired b "url" ++ (← checkNumber b "loop")
  | .sms => .ok (checkRequired b "body")
  | .forward => do return checkRequired b "to" ++ (← checkNumber b "timeout")
  | .multiForward => do return (← checkNumbers b) ++ (← checkNumber b "timeout")
  | .pause => checkSeconds b
  | .menu => do
    return checkRequired b "prompt" ++ (← checkNumber b "timeout") ++
      (← checkNumber b "max_attempts") ++ (← checkOptions b)
  | .hangup => .ok []

/-- The ids that come again, each time they do; `seen` are the earlier ones. -/
def repeatedIds (seen : List Text) : List (Block K) → List Text
  | [] => []
  | b :: rest =>
    if seen.contains b.id then b.id :: repeatedIds seen rest
    else repeatedIds (b.id :: seen) rest

def checkIds (blocks : List (Block K)) : Report where
  errors := (repeatedIds [] blocks).map fun id =>
    { code := .duplicateBlockId, message := "block id '" ++ id ++ "' is used more than once",
      blockId := some id }

def dangling (blocks : List (Block K)) (b : Block K) : Outcome (List Value) := do
  let edges ← b.edges
  let found ← edges.mapM fun target => do return (target, ← Graph.lookup blocks target)
  return (found.filter fun pair => pair.2.isNone).map Prod.fst

def checkEdges (blocks : List (Block K)) (b : Block K) : Outcome (List Finding) := do
  let missing ← dangling blocks b
  let targets ← missing.mapM Value.written
  return targets.map fun target =>
    { code := .danglingEdge,
      message := "block '" ++ b.id ++ "' points at missing block '" ++ target ++ "'",
      blockId := some b.id }

def extraEdges (b : Block K) : List Finding :=
  if b.type.isLinear ∧ 1 < b.next.length then
    [{ code := .extraOutgoingEdges, message := describe b ++ " only follows its first connection",
       blockId := some b.id }]
  else []

def unboundOptions (b : Block K) : Outcome (List Finding) := do
  if b.type = .menu then
    let options ← b.menuOptions
    return (options.filter fun o => o.target?.isNone).map fun o =>
      { code := .unboundMenuOption,
        message := "menu '" ++ b.id ++ "' option " ++ o.digit ++
          " is not connected and will end the call",
        blockId := some b.id }
  else return []

def checkBlock (blocks : List (Block K)) (b : Block K) : Outcome Report := do
  let edges ← checkEdges blocks b
  let config ← checkConfig b
  let unbound ← unboundOptions b
  return { errors := edges ++ config, warnings := extraEdges b ++ unbound }

def missingEntry (entry : Text) : Report where
  errors := [{ code := .danglingEdge, message := "entry block '" ++ entry ++ "' does not exist" }]

def checkExplicitEntry (blocks : List (Block K)) (entry : Option Text) : Report :=
  match entry.filter (· != ("" : Text)) with
  | some id => if Graph.hasBlock blocks id then {} else missingEntry id
  | none => {}

def ambiguity (candidates : List Text) (entry : Block K) : List Finding :=
  if 1 < candidates.length then
    [{ code := .multipleAmbiguousEntries,
       message := (toString candidates.length : String) ++ " blocks have no incoming connection; '" ++ entry.id ++
         "' (first added) is used as entry",
       blockId := some entry.id }]
  else []

def unreachable (ids candidates reached : List Text) : List Finding :=
  (ids.filter fun id => !reached.contains id && !candidates.contains id).map fun id =>
    { code := .unreachableBlock, message := "block '" ++ id ++ "' cannot be reached from the entry",
      blockId := some id }

def checkEntry (blocks : List (Block K)) (entry : Option Text) : Outcome Report := do
  let candidates ← Graph.entryCandidates blocks
  match ← Graph.entryBlock blocks entry with
  | none =>
    return { errors := [{
      code := .noEntryPoint,
      message := if blocks.isEmpty then "flow has no blocks"
        else "flow has no entry block (every block is the target of another)" }] }
  | some b =>
    let reached ← Graph.reachable blocks b.id
    let several :=
      if (Graph.explicitEntry? blocks entry).isSome then [] else ambiguity candidates b
    return { warnings := several ++ unreachable (Graph.ids blocks) candidates reached,
             entryBlockId := some b.id }

def checkBlocks (blocks : List (Block K)) : Outcome Report := do
  let perBlock ← (Graph.distinct blocks).mapM (checkBlock blocks)
  return checkIds blocks ++ perBlock.foldl Report.append {}

def validate (blocks : List (Block K)) (entry : Option Text) : Outcome Report := do
  let inBlocks ← checkBlocks blocks
  let atEntry ← checkEntry blocks entry
  return inBlocks ++ checkExplicitEntry blocks entry ++ atEntry

/-- All that is reported about a flow whose explicit entry is a value that may not be an id. -/
def validateAt (blocks : List (Block K)) (entry : Value) : Outcome Report := do
  let inBlocks ← checkBlocks blocks
  match ← (if entry.truthy then entry.key? else pure none) with
  | some id => validate blocks (some id)
  | none =>
    let missing ← if entry.truthy then missingEntry <$> entry.written else pure {}
    let atEntry ← checkEntry blocks none
    return inBlocks ++ missing ++ atEntry

end Validation
end Switchboard

import Switchboard.Flow.Block
/-! # The graph of a flow

Blocks are the vertices of a graph and their edges lead to other blocks by id. Of several blocks with one
id the first counts. Here are the blocks without their repetitions, the number of blocks that lead to
each, the block where a call begins, and what can be reached from a block.
-/
namespace Switchboard.Graph

variable {K : Type}

def block? (blocks : List (Block K)) (id : Text) : Option (Block K) :=
  blocks.find? fun b => b.id == id

def hasBlock (blocks : List (Block K)) (id : Text) : Bool :=
  (block? blocks id).isSome

def lookup (blocks : List (Block K)) (v : Value) : Outcome (Option (Block K)) := do
  let key ← v.key?
  return key.bind (block? blocks)

/-- The blocks that come after others, without those whose id is taken by a kept one. -/
def distinctAfter (kept : List (Block K)) : List (Block K) → List (Block K)
  | [] => kept
  | b :: rest => distinctAfter (if hasBlock kept b.id then kept else kept ++ [b]) rest

def distinct (blocks : List (Block K)) : List (Block K) :=
  distinctAfter [] blocks

def ids (blocks : List (Block K)) : List Text :=
  (distinct blocks).map Block.id

def links (blocks : List (Block K)) : Outcome (List (Text × List Text)) :=
  (distinct blocks).mapM fun b => do
    let targets ← b.edgeIds
    return (b.id, targets)

def degreeIn (links : List (Text × List Text)) (id : Text) : Nat :=
  links.countP fun link => link.1 != id && link.2.contains id

def inDegrees (blocks : List (Block K)) : Outcome (List (Text × Nat)) := do
  let links ← links blocks
  return (ids blocks).map fun id => (id, degreeIn links id)

def entryCandidates (blocks : List (Block K)) : Outcome (List Text) := do
  let degrees ← inDegrees blocks
  return (degrees.filter fun d => d.2 == 0).map Prod.fst

def explicitEntry? (blocks : List (Block K)) (entry : Option Text) : Option (Block K) :=
  (entry.filter (· != ("" : Text))).bind (block? blocks)

/-- The block where a call begins: the explicit entry, otherwise the first block that no other leads
to. -/
def entryBlock (blocks : List (Block K)) (entry : Option Text) : Outcome (Option (Block K)) :=
  match explicitEntry? blocks entry with
  | some b => .ok (some b)
  | none => do
    let candidates ← entryCandidates blocks
    return candidates.head?.bind (block? blocks)

def entryBlockAt (blocks : List (Block K)) (entry : Value) : Outcome (Option (Block K)) := do
  let key ← if entry.truthy then entry.key? else pure none
  entryBlock blocks key

def unseen (blocks : List (Block K)) (seen : List Text) (id : Text) : Outcome (List Text) :=
  match block? blocks id with
  | none => .ok []
  | some b => do
    let targets ← b.edgeIds
    return targets.filter fun t => hasBlock blocks t && !seen.contains t

/-- Goes through a queue of ids, first come first served: what a block leads to and has not been seen is
added to the seen ones and to the queue. At most `fuel` blocks are looked at. -/
def explore (blocks : List (Block K)) : Nat → List Text → List Text → Outcome (List Text)
  | 0, seen, _ => .ok seen
  | _, seen, [] => .ok seen
  | fuel + 1, seen, id :: queue => do
    let found ← unseen blocks seen id
    explore blocks fuel (seen ++ found) (queue ++ found)

def reachable (blocks : List (Block K)) (start : Text) : Outcome (List Text) :=
  if hasBlock blocks start then explore blocks (distinct blocks).length [start] [start] else .ok []

def reachableAt (blocks : List (Block K)) (start : Value) : Outcome (List Text) := do
  match ← start.key? with
  | some id => reachable blocks id
  | none => return []

end Switchboard.Graph

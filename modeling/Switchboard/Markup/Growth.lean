import Switchboard.Markup.Doctype
/-! # How far a document grows

Entities may use entities, so that a short document stands for a text of any length. What comes out is
therefore counted before any entity is put in: a document that grows too far is not read.
-/
namespace Switchboard.Markup

/-- The entities that a text puts in, in order and as often as it does, with a bound on the number of
characters. Comments, instructions and quoted sections put nothing in. -/
def entitiesWithin : Nat → List Char → List String
  | 0, _ => []
  | bound + 1, s =>
    let skip (stop s : List Char) : List String :=
      ((upTo? stop s).map fun parts => entitiesWithin bound parts.2).getD []
    match s with
    | [] => []
    | '<' :: '!' :: '-' :: '-' :: rest => skip ['-', '-', '>'] rest
    | '<' :: '!' :: '[' :: rest => skip [']', ']', '>'] rest
    | '<' :: '?' :: rest => skip ['?', '>'] rest
    | '&' :: rest =>
      match reference? rest with
      | some (.entity name, rest) => name :: entitiesWithin bound rest
      | _ => entitiesWithin bound rest
    | _ :: rest => entitiesWithin bound rest

def entitiesIn (s : List Char) : List String :=
  entitiesWithin s.length s

def bytes (s : List Char) : Nat :=
  s.foldl (fun n c => n + c.utf8Size) 0

structure Load where
  name : String
  own : Nat
  uses : List String
deriving DecidableEq, Repr

namespace Load

/-- How many bytes the entities of some names add, when the others add as many as `sizes` tells. An entity
with a character of its own adds that character. -/
def weight (sizes : List (String × Nat)) (names : List String) : Nat :=
  names.foldl (fun n name =>
    n + if (predefined? name).isSome then 1 else (sizes.lookup name).getD 0) 0

/-- How many bytes each entity adds, after some rounds in which every entity looks at those that it uses;
nothing changes any more once a round changes nothing. -/
def sizesAfter (loads : List Load) : Nat → List (String × Nat) → List (String × Nat)
  | 0, sizes => sizes
  | rounds + 1, sizes =>
    let next := loads.map fun load => (load.name, load.own + weight sizes load.uses)
    if next = sizes then sizes else sizesAfter loads rounds next

end Load

namespace Doctype

/-- How many bytes every entity adds. As many rounds as there are entities are enough, unless an entity
uses itself. -/
def sizes (doctype : Doctype) : List (String × Nat) :=
  let loads := doctype.entities.filterMap fun (name, text?) => text?.map fun text =>
    { name, own := bytes text, uses := entitiesIn text : Load }
  Load.sizesAfter loads loads.length []

/-- Whether a text of a document may put in its entities. Up to eight mebibytes it may; beyond, what the
document and its entities have together is at most a hundred times the document. -/
def mayGrow (doctype : Doctype) (text : List Char) : Bool :=
  let names := entitiesIn text
  names.isEmpty ||
    let total := doctype.written + Load.weight doctype.sizes names
    total < 8388608 || total ≤ 100 * doctype.written

end Doctype
end Switchboard.Markup

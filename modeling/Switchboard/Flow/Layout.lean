import Switchboard.Flow.Block
/-! # Layout on the canvas

New blocks are put on a grid of three columns. A cell is taken when a block stands closer than a
threshold on both axes. The coordinates may be of any kind that can be added, multiplied and compared.
-/
namespace Switchboard

/-- What the layout needs to know about coordinates. -/
class Coordinate (K : Type) extends Add K, Sub K, Mul K, Neg K, IntCast K, LT K where
  decidableLt : DecidableLT K

attribute [reducible, instance] Coordinate.decidableLt

instance : Coordinate Binary64 where
  decidableLt := inferInstance

namespace Layout

variable {K : Type} [Coordinate K]

def columns : Int := 3

def stepX : Int := 220

def stepY : Int := 160

def proximity : Int := 60

def gridPosition (index : Int) : Position K where
  x := ((120 : Int) : K) + ((index.fmod columns : Int) : K) * ((stepX : Int) : K)
  y := ((80 : Int) : K) + ((index.fdiv columns : Int) : K) * ((stepY : Int) : K)

def gridPosition? (index : Int) : Outcome (Position Binary64) :=
  match Binary64.ofInt? (index.fdiv columns) with
  | some _ => .ok (gridPosition index)
  | none => .error .tooLarge

/-- The cell with an index that is a number with a fraction, which moves the cell within its row. -/
def gridPositionNear (index : Binary64) : Position Binary64 :=
  match index.floorDivide? 3 with
  | some (row, rest) =>
    { x := ((120 : Int) : Binary64) + rest * ((stepX : Int) : Binary64)
      y := ((80 : Int) : Binary64) + (row : Binary64) * ((stepY : Int) : Binary64) }
  | none => { x := .nan, y := .nan }

def gridPositionAt (index : Value) : Outcome (Position Binary64) :=
  match index, index.asInt? with
  | _, some n => gridPosition? n
  | .float x, _ => .ok (gridPositionNear x)
  | v, _ => .error (.notNumeric v.kind)

def near (a b threshold : K) : Bool :=
  decide (a - b < threshold) && decide (-(a - b) < threshold)

def isOccupied (place : Position K) (blocks : List (Block K)) (threshold : K) : Bool :=
  blocks.any fun b => near b.position.x place.x threshold && near b.position.y place.y threshold

def isOccupiedAt (place : Position Binary64) (blocks : List Block) (threshold : Value) : Outcome Bool :=
  match threshold, threshold.asInt? with
  | _, some n => .ok (isOccupied place blocks (Binary64.ofInt n))
  | .float x, _ => .ok (isOccupied place blocks x)
  | v, _ => if blocks.isEmpty then .ok false else .error (.notNumeric v.kind)

def isFree (blocks : List (Block K)) (place : Position K) : Bool :=
  !isOccupied place blocks ((proximity : Int) : K)

/-- The first cell that is free. Every block is in the way of at most one cell, so one of the first cells
is free, one more than there are blocks. -/
def nextFreePosition (blocks : List (Block K)) : Position K :=
  let cells := List.range (blocks.length + 1)
  let free (i : Nat) : Bool := isFree blocks (gridPosition (i : Int))
  gridPosition (((cells.find? free).getD blocks.length : Nat) : Int)

def shiftRight (place : Position K) : Position K :=
  { place with x := place.x + ((stepX : Int) : K) }

end Layout

variable {K : Type} [Coordinate K]

/-- The first free place of those further and further to the right. There is none when the search does not
end: a coordinate may be so large that a step does not change it. -/
def Position.firstFreeRight (blocks : List (Block K)) (place : Position K) : Option (Position K) :=
  if Layout.isFree blocks place then some place else Layout.shiftRight place |>.firstFreeRight blocks
partial_fixpoint

/-- The place below a block, moved to the right until it is free. -/
def Layout.positionBelow (source : Block K) (blocks : List (Block K)) : Option (Position K) :=
  Position.firstFreeRight blocks { x := source.position.x, y := source.position.y + ((stepY : Int) : K) }

end Switchboard

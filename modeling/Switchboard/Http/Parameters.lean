import Switchboard.Http.Message
import Switchboard.Text.Part
import Switchboard.Text.Percent
import Switchboard.Value.Display
/-! # Parameters of requests

Parameters are names with values. They stand in the query of a request or in its body as a form, separated
and encoded, and of several values for one name the last counts.
-/
namespace Switchboard.Http

abbrev Parameters := List (String × String)

def ampersand : UInt8 := 0x26

def equalsSign : UInt8 := 0x3d

def isAscii (b : UInt8) : Bool :=
  b < 0x80

def runs : List UInt8 → List (List UInt8)
  | [] => []
  | b :: rest =>
    match runs rest with
    | (c :: run) :: more =>
      if isAscii b && isAscii c then (b :: c :: run) :: more else [b] :: (c :: run) :: more
    | more => [b] :: more

/-- The text of a run: one of ASCII is read as part of a query, any other byte is a character of its own. -/
def decodeRun (run : List UInt8) : String :=
  if run.all isAscii then Text.decodeQueryBytes run
  else String.ofList (run.map fun b => Char.ofNat b.toNat)

def decodeFormPiece (piece : List UInt8) : String :=
  String.join ((runs piece).map decodeRun)

namespace Parameters

/-- Each name once, with its last value. -/
def settle {α β : Type} [BEq α] (parameters : List (α × β)) : List (α × β) :=
  parameters.foldr (fun p rest => if rest.any fun q => q.1 == p.1 then rest else p :: rest) []

/-- The name and the value of a piece; a piece that is no more than a name has an empty value. -/
def ofPiece (decode : List UInt8 → String) (piece : List UInt8) : String × String :=
  (decode (piece.takeWhile (· != equalsSign)), decode ((piece.dropWhile (· != equalsSign)).drop 1))

def ofQuery (query : String) : Parameters :=
  settle (((Text.pieces ampersand (Text.bytesOf query.toList)).filter (!·.isEmpty)).map
    (ofPiece Text.decodeQueryBytes))

def texts (parameters : Parameters) : List (Text × Text) :=
  parameters.map fun p => (p.1, p.2)

/-- The parameters of an object: the texts of its values, without those that are null. -/
def ofValue? : Value → Option (List (Text × Text))
  | .obj entries => (entries.filter fun entry => !entry.2.isNull).mapM fun entry =>
      entry.2.text?.map fun t => (entry.1, t)
  | _ => some []

def above (upper : List (Text × Text)) (lower : Parameters) : List (Text × Text) :=
  settle (texts lower ++ upper)

def filled? (parameters : List (Text × Text)) (name : Text) : Option Text :=
  (parameters.lookup name).filter (· != ("" : Text))

def toEntries (parameters : Parameters) : Entries :=
  parameters.map fun p => (p.1, .str p.2)

end Parameters
end Switchboard.Http

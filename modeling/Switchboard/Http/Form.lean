import Switchboard.Http.Parameters
/-! # Forms

A form gives a limited number of fields. One that is encoded like a query separates them with ampersands;
a piece that is no more than a name has an empty value.
-/
namespace Switchboard.Http

inductive FormFault where
  | tooManyFields
  | tooManyFiles
  | noBoundary
  | unnamedPart
  | broken
  | spent
  | oversized
deriving DecidableEq, Repr

def mostFields : Nat := 1000

/-- The text for a form that is refused; there is none for a body that cannot be read at all. -/
def FormFault.message? : FormFault → Option String
  | .tooManyFields => some ("Too many fields. Maximum number of fields is " ++ toString mostFields ++ ".")
  | .tooManyFiles => some ("Too many files. Maximum number of files is " ++ toString mostFields ++ ".")
  | .noBoundary => some "Missing boundary in multipart."
  | .unnamedPart => some "The Content-Disposition header field \"name\" must be provided."
  | .broken | .spent | .oversized => none

def Parameters.ofForm (body : List UInt8) : Except FormFault Parameters :=
  let pieces := (Text.pieces ampersand body).filter (!·.isEmpty)
  if mostFields < pieces.length then .error .tooManyFields
  else .ok (settle (pieces.map (ofPiece decodeFormPiece)))

end Switchboard.Http

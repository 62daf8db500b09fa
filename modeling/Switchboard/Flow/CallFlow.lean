import Switchboard.Flow.Block
import Switchboard.PhoneNumber
/-! # Call flows

A call flow belongs to an owner and governs the calls to one phone number. It holds its blocks in the
order in which they were added, and may name the block where a call begins.
-/
namespace Switchboard

/-- The flow of an owner for a phone number. -/
structure CallFlow (K : Type := Binary64) where
  id : Option Text
  owner : Text
  /-- The number that the flow governs, in normal form. -/
  phoneNumber : Text
  name : Text := "Untitled Flow"
  description : Text := ""
  status : Text := "active"
  blocks : List (Block K) := []
  entryBlockId : Option Text := none
  recordingEnabled : Bool := true
  recordingDisclaimer : Option Text := none
  createdAt : Option Text := none
  updatedAt : Option Text := none
deriving Repr

namespace CallFlow

def readNumber (v : Value) : Reading Text :=
  match PhoneNumber.normalizeValue? v with
  | some number => Reading.text number
  | none => .fail .unwritable

def readEntries (entries : Entries) : Reading CallFlow :=
  CallFlow.mk <$> Reading.fieldOr entries "id" none (Reading.nullable Reading.text)
    <*> Reading.field entries "owner" Reading.text
    <*> Reading.field entries "phone_number" readNumber
    <*> Reading.fieldOr entries "name" "Untitled Flow" Reading.text
    <*> Reading.fieldOr entries "description" "" Reading.text
    <*> Reading.fieldOr entries "status" "active" Reading.text
    <*> Reading.fieldOr entries "blocks" [] (Reading.list Block.read)
    <*> Reading.fieldOr entries "entry_block_id" none (Reading.nullable Reading.text)
    <*> Reading.fieldOr entries "recording_enabled" true Reading.bool
    <*> Reading.fieldOr entries "recording_disclaimer" none (Reading.nullable Reading.text)
    <*> Reading.fieldOr entries "created_at" none (Reading.nullable Reading.text)
    <*> Reading.fieldOr entries "updated_at" none (Reading.nullable Reading.text)

def read : Value → Reading CallFlow :=
  Reading.record "CallFlow" readEntries

def document (f : CallFlow) : Value :=
  .arr (f.blocks.map Block.toValue)

def toValue (f : CallFlow) : Value :=
  .obj [("id", .ofText? f.id), ("owner", .str f.owner), ("phone_number", .str f.phoneNumber),
    ("name", .str f.name), ("description", .str f.description), ("status", .str f.status),
    ("blocks", f.document), ("entry_block_id", .ofText? f.entryBlockId),
    ("recording_enabled", .bool f.recordingEnabled),
    ("recording_disclaimer", .ofText? f.recordingDisclaimer),
    ("created_at", .ofText? f.createdAt), ("updated_at", .ofText? f.updatedAt)]

end CallFlow
end Switchboard

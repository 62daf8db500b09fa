import Switchboard.Fault
/-! # Findings

What a check of a flow reports: a code, a text, and the block it is about. Errors keep a flow from being
saved, warnings do not.
-/
namespace Switchboard

inductive FindingCode where
  | duplicateBlockId
  | danglingEdge
  | noEntryPoint
  | missingRequiredConfig
  | invalidConfig
  | multipleAmbiguousEntries
  | unreachableBlock
  | extraOutgoingEdges
  | unboundMenuOption
deriving DecidableEq, Repr

namespace FindingCode

def all : List FindingCode :=
  [duplicateBlockId, danglingEdge, noEntryPoint, missingRequiredConfig, invalidConfig,
    multipleAmbiguousEntries, unreachableBlock, extraOutgoingEdges, unboundMenuOption]

def name : FindingCode → String
  | duplicateBlockId => "duplicate_block_id"
  | danglingEdge => "dangling_edge"
  | noEntryPoint => "no_entry_point"
  | missingRequiredConfig => "missing_required_config"
  | invalidConfig => "invalid_config"
  | multipleAmbiguousEntries => "multiple_ambiguous_entries"
  | unreachableBlock => "unreachable_block"
  | extraOutgoingEdges => "extra_outgoing_edges"
  | unboundMenuOption => "unbound_menu_option"

def read : Value → Reading FindingCode :=
  Reading.oneOf (all.map name) fun s => all.find? fun c => c.name == s

end FindingCode

structure Finding where
  code : FindingCode
  message : Text
  blockId : Option Text := none
deriving DecidableEq, Repr

namespace Finding

def readEntries (entries : Entries) : Reading Finding :=
  Finding.mk <$> Reading.field entries "code" FindingCode.read
    <*> Reading.field entries "message" Reading.text
    <*> Reading.fieldOr entries "block_id" none (Reading.nullable Reading.text)

def read : Value → Reading Finding :=
  Reading.record "ValidationIssue" readEntries

def toValue (f : Finding) : Value :=
  .obj [("code", .str f.code.name), ("message", .str f.message), ("block_id", .ofText? f.blockId)]

def summary (findings : List Finding) : Text :=
  Text.intercalate "; " (findings.map Finding.message)

end Finding
end Switchboard

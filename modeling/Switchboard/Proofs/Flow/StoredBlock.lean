import Switchboard.Flow.Document
import Switchboard.Proofs.Text.Lowercase
import Switchboard.Proofs.Value.Written

/-! # Blocks that are stored and read back

A block is stored as a value, and numbers of its configuration that are not finite are lost on the way. A list of blocks
is read back in order, and no block is left out. Halves that stand side by side in a text come back as one character;
where there are none, nothing but those numbers is changed.
-/
namespace Switchboard

namespace Value

mutual

def allFinite : Value → Bool
  | float x => x.isFinite
  | arr items => allFiniteItems items
  | obj entries => allFiniteEntries entries
  | _ => true

def allFiniteItems : List Value → Bool
  | [] => true
  | v :: rest => allFinite v && allFiniteItems rest

def allFiniteEntries : List (Text × Value) → Bool
  | [] => true
  | (_, v) :: rest => allFinite v && allFiniteEntries rest

end

mutual

theorem finiteOnly_eq_self {v : Value} (h : allFinite v = true) : finiteOnly v = v := by
  cases v with
  | float x => simp_all [allFinite, finiteOnly]
  | arr items => rw [finiteOnly, finiteItems_eq_self (by simpa [allFinite] using h)]
  | obj entries => rw [finiteOnly, finiteEntries_eq_self (by simpa [allFinite] using h)]
  | _ => simp [finiteOnly]

theorem finiteItems_eq_self {items : List Value} (h : allFiniteItems items = true) :
    finiteItems items = items := by
  cases items with
  | nil => simp [finiteItems]
  | cons v rest =>
    obtain ⟨hv, hr⟩ := by simpa [allFiniteItems] using h
    rw [finiteItems, finiteOnly_eq_self hv, finiteItems_eq_self hr]

theorem finiteEntries_eq_self {entries : Entries} (h : allFiniteEntries entries = true) :
    finiteEntries entries = entries := by
  cases entries with
  | nil => simp [finiteEntries]
  | cons entry rest =>
    obtain ⟨key, v⟩ := entry
    obtain ⟨hv, hr⟩ := by simpa [allFiniteEntries] using h
    rw [finiteEntries, finiteOnly_eq_self hv, finiteEntries_eq_self hr]

end

end Value

theorem BlockType.read_name (t : BlockType) : BlockType.read (.str t.name) = .done t := by
  have htrim : Text.trimString t.name = t.name := by cases t <;> decide +kernel
  have hsmall : t.name.toList.all Text.isSmall = true := by cases t <;> decide +kernel
  have hname : ofName? t.name = some t := by cases t <;> decide +kernel
  simp only [read, Reading.oneOf, htrim, Text.lowercase_eq_self hsmall, hname]

theorem Position.read_toValue (p : Position) : Position.read p.toValue = .done p := by
  simp [Position.read, Position.toValue, Reading.record, readEntries, Reading.fieldOr, Entries.get?]
  rfl

theorem Reading.items_text (index : Nat) (texts : List Text) :
    Reading.items Reading.text index (texts.map .str) = .done texts := by
  induction texts generalizing index with
  | nil => rfl
  | cons s rest ih =>
    simp only [List.map_cons, Reading.items, ih]
    rfl

namespace Block

/-- The block without the numbers that cannot be stored. -/
def stored (b : Block) : Block :=
  { b with config := Value.finiteEntries b.config }

theorem readConfig_obj (entries : Entries) : readConfig (.obj entries) = .done entries := by
  cases entries <;> rfl

theorem readNext_texts (next : List Text) : readNext (.arr (next.map .str)) = .done next :=
  Reading.items_text 0 next

/-- What is read from the parts of a block, in the order in which they are written. -/
theorem read_parts (id : Text) (type : BlockType) (config : Entries) (position : Position Binary64) (next : List Text) :
    read (.obj [("id", .str id), ("type", .str type.name), ("config", .obj config), ("position", position.toValue),
      ("next", .arr (next.map .str))]) = .done ⟨id, type, config, position, next⟩ := by
  let entries : Entries := [("id", .str id), ("type", .str type.name), ("config", .obj config),
    ("position", position.toValue), ("next", .arr (next.map .str))]
  have hid : Reading.field entries "id" Reading.text = .done id := rfl
  have htype : Reading.field entries "type" BlockType.read = .done type :=
    congrArg (Reading.under (.field "type")) (BlockType.read_name type)
  have hconfig : Reading.fieldOr entries "config" [] readConfig = .done config :=
    congrArg (Reading.under (.field "config")) (readConfig_obj _)
  have hposition : Reading.fieldOr entries "position" ⟨.ofInt 0, .ofInt 0⟩ Position.read =
      .done position := congrArg (Reading.under (.field "position")) (Position.read_toValue position)
  have hnext : Reading.fieldOr entries "next" [] readNext = .done next :=
    congrArg (Reading.under (.field "next")) (readNext_texts next)
  change readEntries entries = _
  rw [readEntries, hid, htype, hconfig, hposition, hnext]
  rfl

theorem read_toValue (b : Block) : read b.toValue = .done b.stored :=
  read_parts b.id b.type (Value.finiteEntries b.config) b.position b.next

/-- The block that is read back from a document. -/
def reread (b : Block) : Block :=
  { b with
    id := b.id.joined
    config := ((Value.obj (Value.finiteEntries b.config)).reread.asEntries?).getD []
    next := b.next.map Text.joined }

theorem rereadItems_texts (texts : List Text) :
    Value.rereadItems (texts.map .str) = (texts.map Text.joined).map .str := by
  induction texts with
  | nil => simp [Value.rereadItems]
  | cons t rest ih => simp [Value.rereadItems, Value.reread, ih]

theorem reread_toValue (b : Block) : b.toValue.reread =
    .obj [("id", .str b.id.joined), ("type", .str b.type.name), ("config", .obj b.reread.config),
      ("position", b.position.toValue), ("next", .arr (b.reread.next.map .str))] := by
  have hjoined (s : String) : (Text.plain s).joined = .plain s := rfl
  simp only [toValue, Position.toValue, Value.reread, Value.rereadEntries, hjoined, rereadItems_texts, reread,
    List.all_cons, List.all_nil, beq_self_eq_true, Bool.and_self, if_pos]
  rfl

theorem read_reread (b : Block) : read b.toValue.reread = .done b.reread := by
  rw [reread_toValue]
  exact read_parts b.id.joined b.type b.reread.config b.position b.reread.next

theorem reread_of_joined {b : Block} (h : b.toValue.isJoined = true) : b.reread = b.stored := by
  have hread := read_reread b
  rw [Value.reread_of_isJoined b.toValue h, read_toValue, Reading.done.injEq] at hread
  exact hread.symm

theorem map_reread_of_joined {blocks : List Block} (h : ∀ b ∈ blocks, b.toValue.isJoined = true) :
    blocks.map reread = blocks.map stored :=
  List.map_congr_left fun b hb => reread_of_joined (h b hb)

theorem stored_eq_self {b : Block} (h : Value.allFiniteEntries b.config = true) : b.stored = b := by
  rw [stored, Value.finiteEntries_eq_self h]

theorem map_stored_eq_self {blocks : List Block} (h : ∀ b ∈ blocks, Value.allFiniteEntries b.config = true) :
    blocks.map stored = blocks :=
  calc blocks.map stored = blocks.map (fun b => b) := List.map_congr_left fun b hb => stored_eq_self (h b hb)
    _ = blocks := List.map_id' blocks

end Block

theorem StoredGraph.readBlocks_rereadItems (blocks : List Block) :
    readBlocks (Value.rereadItems (blocks.map Block.toValue)) = blocks.map Block.reread := by
  induction blocks with
  | nil => simp [Value.rereadItems, readBlocks]
  | cons b rest ih =>
    rw [readBlocks] at ih ⊢
    rw [List.map_cons, Value.rereadItems, List.filterMap_cons, Block.read_reread, Reading.result?, ih, List.map_cons]

end Switchboard

import Switchboard.Proofs.Service.Requests

/-! # What an upload keeps

A list of blocks is read item by item, and an item that is no block is left out without a word. So an upload that is
taken holds a block for every item, in order and under its id, exactly when every item is a block and its id is read back
as it is. A validation does not see what has been left out; it only refuses an upload in which something else leads there.
-/
namespace Switchboard
open Store

def itemId? (item : Value) : Option Text :=
  (item.asEntries?.bind fun entries => entries.get? "id").bind Value.asText?

theorem Block.itemId?_of_read {item : Value} {b : Block} (h : Block.read item = .done b) : itemId? item = some b.id := by
  cases item with
  | obj entries =>
    obtain ⟨_, next, hposition, -, rfl⟩ := Reading.seq_eq_done.mp h
    obtain ⟨_, position, hconfig, -, rfl⟩ := Reading.seq_eq_done.mp hposition
    obtain ⟨_, config, htype, -, rfl⟩ := Reading.seq_eq_done.mp hconfig
    obtain ⟨_, type, hid, -, rfl⟩ := Reading.seq_eq_done.mp htype
    obtain ⟨id, hfield, rfl⟩ := Reading.map_eq_done.mp hid
    obtain ⟨v, hv, hread⟩ := Reading.field_eq_done.mp hfield
    cases v with
    | str s =>
      cases hread
      simp [itemId?, Value.asEntries?, hv, Value.asText?]
    | _ => cases hread
  | _ => cases h

namespace StoredGraph

variable {items : List Value} {stored : StoredGraph}

def documentItems? : Value → Option (List Value)
  | .arr items => some items
  | .obj entries =>
    match Entries.get entries "blocks" with
    | .arr items => some items
    | _ => none
  | _ => none

/-- The items of what is sent as a block list: a document, or its text. -/
def listedItems? : Value → Option (List Value)
  | .str s => (Json.read? s).bind documentItems?
  | document => documentItems? document

theorem blocks_of_ofDocument {document : Value} (hitems : documentItems? document = some items)
    (h : ofDocument document = .ok stored) : stored.blocks = readBlocks items := by
  cases document with
  | arr listed =>
    cases hitems
    cases h
    rfl
  | obj entries =>
    rw [documentItems?] at hitems
    rw [ofDocument, ofEntries] at h
    split at hitems
    · rename_i listed hblocks
      cases hitems
      rw [hblocks] at h
      obtain ⟨entry, -, h⟩ := Outcome.bind_eq_ok.mp h
      cases h
      rfl
    · cases hitems
  | _ => cases hitems

theorem blocks_of_decode {sent : Value} (hitems : listedItems? sent = some items) (h : decode sent = .ok stored) :
    stored.blocks = readBlocks items := by
  cases sent with
  | str s =>
    obtain ⟨document, hdocument, hitems⟩ := Option.bind_eq_some_iff.mp hitems
    rw [decode, hdocument] at h
    exact blocks_of_ofDocument hitems h
  | arr listed =>
    have hlisted : documentItems? (.arr listed) = some items := hitems
    exact blocks_of_ofDocument hlisted h
  | obj entries =>
    have hlisted : documentItems? (.obj entries) = some items := hitems
    exact blocks_of_ofDocument hlisted h
  | _ => cases hitems

theorem readBlocks_cons_of_done {item : Value} {b : Block} (h : Block.read item = .done b) (items : List Value) :
    readBlocks (item :: items) = b :: readBlocks items := by
  simp [readBlocks, h, Reading.result?]

theorem readBlocks_cons_of_refused {item : Value} {issues : List Issue} (h : Block.read item = .refused issues)
    (items : List Value) : readBlocks (item :: items) = readBlocks items := by
  simp [readBlocks, h, Reading.result?]

theorem length_readBlocks_le (items : List Value) : (readBlocks items).length ≤ items.length :=
  List.length_filterMap_le _ _

/-- What is read back has a block for every item, in order and under its id, exactly when every item is a block whose id
is read back as it is. -/
theorem ids_reread_iff : ((readBlocks items).map Block.reread).map (fun b => some b.id) = items.map itemId? ↔
    ∀ item ∈ items, (Block.read item).isDone = true ∧ (itemId? item).all (fun id => id.joined == id) = true := by
  induction items with
  | nil => simp [readBlocks]
  | cons item items ih =>
    rw [List.forall_mem_cons]
    cases hread : Block.read item with
    | done b =>
      have hid : some b.reread.id = some b.id ↔ (b.id.joined == b.id) = true := by simp [Block.reread]
      rw [readBlocks_cons_of_done hread, List.map_cons, List.map_cons, List.map_cons, Block.itemId?_of_read hread,
        List.cons.injEq, ih, hid]
      exact and_congr_left' (and_iff_right rfl).symm
    | refused issues =>
      rw [readBlocks_cons_of_refused hread]
      refine iff_of_false ?_ fun h => Bool.false_ne_true h.1.1
      intro hids
      -- one item fewer is left than there are ids
      have hlength := congrArg List.length hids
      have hle := length_readBlocks_le items
      simp only [List.length_map, List.length_cons] at hlength
      omega

end StoredGraph

namespace Service
open Http (Request)

variable {settings : Settings} {db after : Database} {now : String} {request : Request}

theorem of_storeFlow {flow : CallFlow} {replace : Bool} {now : Text} {warnings : List Finding}
    (hok : (storeFlow db flow replace now warnings).1.status = 200) : ∃ saved after,
      db.saveFlow flow replace now = (.ok saved, after) ∧ storeFlow db flow replace now warnings =
        (success (.obj [("flow", saved.toValue), ("warnings", findingsValue warnings)]), after) := by
  unfold storeFlow at hok ⊢
  split at hok
  · rename_i saved after hsave
    exact ⟨saved, after, hsave, rfl⟩
  · exact absurd hok (responseWith_ne_ok (by decide) _)
  · exact absurd hok failure_ne_ok

theorem respond_upload (hpath : request.path = "/api/call-flows/") (hmethod : request.method = .post) :
    respond settings db now request = takeFlow db now request := by
  have hnamed : Resource.ofPath "/api/call-flows/" = [.flows] := by decide +kernel
  have hknown : (Resource.methods .flows).contains request.method = true := by rw [hmethod]; rfl
  simp only [respond, hpath, hnamed, List.find?_cons, hknown, answerAt]
  rw [if_pos hmethod]

/-- Where an upload is answered with what is stored, the flow holds the items that are blocks, in order. It holds a block
for every item, under its id, exactly when every item is a block and its id is read back as it is. The entry leads to no
other id than those of the blocks, and nor do the blocks where all texts are read back as they are, so an item is only
lost when nothing that is kept leads to it. -/
theorem upload_keeps_blocks (hpath : request.path = "/api/call-flows/") (hmethod : request.method = .post)
    (hok : (respond settings db now request).1.status = 200) :
    ∃ replace upload flow saved after, ∃ report : Report, readUpload request = .done (replace, upload) ∧
      upload.toFlow = .ok flow ∧ db.saveFlow flow replace now = (.ok saved, after) ∧
      respond settings db now request =
        (success (.obj [("flow", saved.toValue), ("warnings", findingsValue report.warnings)]), after) ∧
      ∀ items, StoredGraph.listedItems? upload.blocks = some items →
        saved.blocks = (StoredGraph.readBlocks items).map Block.reread ∧
        (saved.blocks.map (fun b => some b.id) = items.map itemId? ↔
          ∀ item ∈ items, (Block.read item).isDone = true ∧ (itemId? item).all (fun id => id.joined == id) = true) ∧
        (flow.document.isJoined = true → saved.blocks = (StoredGraph.readBlocks items).map Block.stored ∧
          ∀ b ∈ saved.blocks, ∃ edges, b.edges = .ok edges ∧ ∀ v ∈ edges, ∃ c ∈ saved.blocks, v = .str c.id) ∧
        ∀ id, saved.entryBlockId = some id → ∃ c ∈ saved.blocks, c.id = id := by
  rw [respond_upload hpath hmethod] at hok ⊢
  rcases takeFlow_cases db now request with hrefused | ⟨replace, upload, flow, report, hread, hflow, hreport, htaken⟩
  · exact absurd hok hrefused.1
  have haccepted : Validation.Accepts flow.blocks flow.entryBlockId := ⟨report, hreport⟩
  rw [htaken] at hok ⊢
  obtain ⟨saved, after, hsave, hanswer⟩ := of_storeFlow hok
  refine ⟨replace, upload, flow, saved, after, report, hread, hflow, hsave, hanswer, fun items hitems => ?_⟩
  obtain ⟨stored, hstored, hmade⟩ := Outcome.bind_eq_ok.mp hflow
  obtain ⟨flows, hsaved, -, -⟩ := Database.saveFlow_eq_ok hsave
  have hencodable : (FlowTable.entry db.flows flow now db.supply).IsEncodable :=
    (FlowTable.storable_eq_ok_iff.mp (FlowTable.storable_of_save hsaved)).2
  obtain ⟨hblocks, hentry⟩ := FlowTable.blocks_of_save hsaved
  have hflowBlocks : flow.blocks = StoredGraph.readBlocks items := by
    rw [← StoredGraph.blocks_of_decode hitems hstored, ← Outcome.pure_eq_ok.mp hmade]
  refine ⟨hblocks.trans (congrArg _ hflowBlocks), ?_, ?_, ?_⟩
  · rw [hblocks, hflowBlocks]
    exact StoredGraph.ids_reread_iff
  · intro hjoined
    rw [FlowTable.map_reread_of_joined hjoined] at hblocks
    refine ⟨hblocks.trans (congrArg _ hflowBlocks), ?_⟩
    rw [hblocks]
    exact haccepted.wellFormed.edges_stored fun b hb => haccepted.edgeIds hb
  · intro id hid
    rw [hentry] at hid
    obtain ⟨hexplicit, hne⟩ := Option.filter_eq_some_iff.mp hid
    obtain ⟨b, hb, hsame⟩ := haccepted.wellFormed.explicit id hexplicit (bne_iff_ne.mp hne)
    -- the entry stands in a column, where a text has bytes, so the block keeps the id
    have hplain : id.isPlain = true := hencodable id (by simp [FlowTable.entry, FlowRow.ofFlow, FlowRow.texts, hexplicit])
    obtain ⟨s, rfl⟩ := Text.isPlain_iff.mp hplain
    exact ⟨b.reread, hblocks ▸ List.mem_map_of_mem hb, congrArg Text.joined hsame⟩

def greetingUpload (next type : String) : Request where
  method := .post
  path := "/api/call-flows/"
  headers := [("Content-Type", "application/json")]
  body := ["\x7b\"owner\": \"ann\", \"phone_number\": \"1\", \"blocks\": [",
    "\x7b\"id\": \"hello\", \"type\": \"say\", \"config\": \x7b\"text\": \"Hello\"\x7d, \"next\": ", next, "\x7d, ",
    "\x7b\"id\": \"last\", \"type\": \"", type, "\"\x7d]\x7d"].flatMap fun piece => Text.bytesOf piece.toList

theorem upload_keeps_blocks_hangup : ∃ (saved : CallFlow) (after : Database) (findings : List Finding),
    respond {} {} "t0" (greetingUpload "\"last\"" "hangup") =
      (success (.obj [("flow", saved.toValue), ("warnings", findingsValue findings)]), after) ∧
    saved.blocks.map (fun b => some b.id) = [some ("hello" : Text), some ("last" : Text)] := by
  have hok : (respond {} {} "t0" (greetingUpload "\"last\"" "hangup")).1.status = 200 := by decide +kernel
  obtain ⟨replace, upload, flow, saved, after, report, hread, -, -, hanswer, hkeeps⟩ :=
    upload_keeps_blocks rfl rfl hok
  have hlisted : ((readUpload (greetingUpload "\"last\"" "hangup")).result?.bind fun upload =>
      StoredGraph.listedItems? upload.2.blocks).map (fun items =>
        (items.map itemId?, items.all fun item =>
          (Block.read item).isDone && (itemId? item).all fun id => id.joined == id)) =
      some ([some ("hello" : Text), some ("last" : Text)], true) := by decide +kernel
  rw [hread] at hlisted
  obtain ⟨items, hitems, hchecked⟩ := Option.map_eq_some_iff.mp hlisted
  obtain ⟨hids, hblocks⟩ := Prod.mk.inj hchecked
  obtain ⟨-, hkept, -⟩ := hkeeps items hitems
  refine ⟨saved, after, report.warnings, hanswer, hids ▸ hkept.mpr fun item hitem => ?_⟩
  exact Bool.and_eq_true_iff.mp (List.all_eq_true.mp hblocks item hitem)

/-- A block of an unknown type is lost, and the upload is answered all the same. -/
theorem unknownBlock_lost :
    let answered := respond {} {} "t0" (greetingUpload "[]" "teleport")
    answered.1.status = 200 ∧ (answered.2.flowsOf .null).toOption.map (List.map fun flow => flow.blocks.map Block.id) =
      some [[("hello" : Text)]] := by
  decide +kernel

end Service
end Switchboard

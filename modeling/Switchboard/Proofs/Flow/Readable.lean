import Switchboard.Flow.Document
import Switchboard.Proofs.Flow.Edges
import Switchboard.Proofs.Text.Basic
import Switchboard.Proofs.Value.Kinds

/-! # Stored flows that can be read

A stored flow cannot be read when a part that is used as an object, as a list or as a text is something else, nor when
the digits of a greeting's option are a number that is too long to be written. Blocks that are no blocks, nodes that are
no objects and texts that are no documents are left out and do no harm. Here is a check that finds the parts that do,
shape by shape, and it decides whether a flow can be read.
-/
namespace Switchboard

namespace Value

theorem exists_mem_distinct {values : List Value} {v : Value} (h : v ∈ values) :
    ∃ w ∈ distinct values, w = v ∨ w.alike v = true := by
  have hkeep : ∀ (rest kept : List Value), ∀ w ∈ kept, w ∈ rest.foldl addDistinct kept := by
    intro rest
    induction rest with
    | nil => exact fun kept w hw => hw
    | cons u rest ih =>
      intro kept w hw
      apply ih
      unfold addDistinct
      split
      · exact hw
      · exact List.mem_append_left _ hw
  obtain ⟨before, after, rfl⟩ := List.append_of_mem h
  rw [distinct_eq, List.foldl_append, List.foldl_cons]
  generalize before.foldl addDistinct [] = kept
  have hnow : ∃ w ∈ addDistinct kept v, w = v ∨ w.alike v = true := by
    unfold addDistinct
    split
    · rename_i hany
      obtain ⟨w, hw, halike⟩ := List.any_eq_true.mp hany
      exact ⟨w, hw, Or.inr halike⟩
    · exact ⟨v, List.mem_append_right _ List.mem_cons_self, Or.inl rfl⟩
  obtain ⟨w, hw, hlike⟩ := hnow
  exact ⟨w, hkeep after _ w hw, hlike⟩

theorem distinct_texts_iff {values : List Value} :
    (∀ v ∈ distinct values, v.isText = true) ↔ ∀ v ∈ values, v.isText = true := by
  constructor
  · intro h v hv
    obtain ⟨w, hw, hlike⟩ := exists_mem_distinct hv
    obtain ⟨s, rfl⟩ := isText_iff.mp (h w hw)
    rcases hlike with rfl | hlike
    · rfl
    · rw [str_alike_iff.mp hlike]
      rfl
  · intro h v hv
    exact h v (mem_of_mem_distinct hv)

end Value

namespace StoredGraph

def greetingOptionReadable : Value → Bool
  | .obj option => (Entries.get option "digit").hasText
  | _ => true

def greetingOptionsReadable : Value → Bool
  | .arr items => items.all greetingOptionReadable
  | v => v.isListing

def greetingReadable : Value → Bool
  | .obj menu => greetingOptionsReadable (Entries.get menu "options")
  | menu => !menu.truthy

theorem greetingOption_succeeds_iff {item : Value} :
    (∃ o, greetingOption item = .ok o) ↔ greetingOptionReadable item = true := by
  cases item with
  | obj option =>
    simp only [greetingOption, greetingOptionReadable]
    split
    · next hnull => simp [hnull, Value.hasText, Value.text?, Value.quoted?]
    · next hempty => simp [hempty, Value.hasText, Value.text?]
    · rw [← Value.written_succeeds_iff]
      exact Outcome.map_succeeds_iff
  | _ => simp [greetingOption, greetingOptionReadable]

theorem greetingOptions_succeeds_iff {raw : Value} :
    (∃ options, greetingOptions raw = .ok options) ↔ greetingOptionsReadable raw = true := by
  have hget : Entries.get [("options", raw)] "options" = raw := rfl
  have hpure (found : List (Option Value)) :
      ∃ options, (pure (found.filterMap fun o => o) : Outcome (List Value)) = .ok options := ⟨_, rfl⟩
  unfold greetingOptions Block.optionItems
  simp only [Outcome.bind_succeeds_iff, hget, hpure, and_true]
  simp only [Outcome.mapM_succeeds_iff, greetingOption_succeeds_iff]
  cases raw with
  | obj entries =>
    have hdigit (entry : Text × Value) :
        greetingOptionReadable (.obj [("digit", .str entry.1), ("target", entry.2)]) = true := rfl
    simp only [Except.ok.injEq, exists_eq_left', List.forall_mem_map, hdigit, greetingOptionsReadable, Value.isListing,
      implies_true]
  | arr items => cases items <;> simp [greetingOptionsReadable, Value.items, Value.truthy]
  | str s =>
    by_cases hs : s = "" <;>
      simp [greetingOptionsReadable, Value.isListing, Value.items, Value.truthy, hs, greetingOptionReadable]
  | _ =>
    simp only [greetingOptionsReadable, Value.isListing, Value.items]
    split <;> simp_all

theorem menuBlock_succeeds_iff {menu : Value} {row : Int} (h : menu.truthy = true) :
    (∃ b, menuBlock menu row = .ok b) ↔ greetingReadable menu = true := by
  cases menu with
  | obj entries =>
    rw [greetingReadable, ← greetingOptions_succeeds_iff]
    simp only [menuBlock, part, Outcome.bind_succeeds_iff]
    simp
  | _ => simp_all [menuBlock, part, greetingReadable, bind, Except.bind]

theorem ofGreeting_succeeds_iff {entries : Entries} :
    (∃ graph, ofGreeting entries = .ok graph) ↔ greetingReadable (entries.get "menu") = true := by
  unfold ofGreeting
  by_cases htruthy : (entries.get "menu").truthy = true
  · simp only [htruthy, if_true, Outcome.bind_succeeds_iff]
    simp [menuBlock_succeeds_iff htruthy]
  · have hreadable : greetingReadable (entries.get "menu") = true := by
      generalize entries.get "menu" = menu at htruthy ⊢
      cases menu with
      | obj inner =>
        -- the only object that counts as nothing is the empty one
        cases inner with
        | nil => rfl
        | cons entry rest => exact absurd rfl htruthy
      | _ => simpa [greetingReadable] using htruthy
    simp [htruthy, hreadable]

def nodeOptionReadable : Value → Bool
  | .obj option => (Entries.get option "target").isTextIfTruthy
  | _ => false

def nodeOptionsReadable : Value → Bool
  | .obj targets => targets.all fun entry => entry.2.isTextIfTruthy
  | .arr options => options.all nodeOptionReadable
  | v => !v.truthy

def nodeReadable (id : Value) (node : Entries) : Bool :=
  match (node.get "type").asText?.bind Text.plain? with
  | some "say" => id.isText && (node.get "next").isTextIfTruthy
  | some "menu" | some "gather" => id.isText && nodeOptionsReadable (node.get "options")
  | some "forward" | some "voicemail" | some "hangup" => id.isText
  | _ => true

def nodesReadable (nodes : List (Value × Value)) : Bool :=
  nodes.all fun node => node.2.asEntries?.all (nodeReadable node.1)

def idOf : Value → Value
  | .obj node => Entries.get node "id"
  | _ => .null

def keyedNodes (items : List Value) : List (Value × Value) :=
  (items.filter fun item => (idOf item).truthy).map fun item => (idOf item, item)

def nodeMapReadable : Value → Bool
  | .obj nodes => nodesReadable (nodes.map fun entry => (.str entry.1, entry.2))
  | .arr items => (keyedNodes items).all (fun node => node.1.isKey) &&
      nodesReadable ((keyedNodes items).foldl (fun nodes node => putNode node.1 node.2 nodes) [])
  | v => !v.truthy

theorem nodeBlock_succeeds_iff {id : Value} {type : BlockType} {config : Entries} {next : List Value} :
    (∃ b, nodeBlock id type config next = .ok b) ↔ id.isText = true ∧ ∀ v ∈ next, v.isText = true := by
  have hpure {α : Type} (a : α) : ∃ b, (pure a : Reading α) = .done b := ⟨a, rfl⟩
  simp only [nodeBlock, Reading.outcome_succeeds_iff, Reading.seq_succeeds_iff, Reading.map_succeeds_iff,
    Reading.under_succeeds_iff, Reading.items_succeeds_iff, Reading.text_succeeds_iff, hpure, and_true]

theorem truthy?_texts_iff {v : Value} :
    (∀ w ∈ v.truthy?.toList, w.isText = true) ↔ v.isTextIfTruthy = true := by
  unfold Value.truthy? Value.isTextIfTruthy
  cases v.truthy <;> simp

theorem part_succeeds_iff {v : Value} {name : Text} :
    (∃ w, part v name = .ok w) ↔ ∃ entries, v = .obj entries := by
  cases v <;> simp [part]

/-- What the targets of options become: the texts among them, if there is nothing else that counts. -/
theorem nodeTargets_texts_iff {options : List Value} :
    (∃ targets, nodeTargets options = .ok targets ∧ ∀ v ∈ targets, v.isText = true) ↔
      options.all nodeOptionReadable = true := by
  have hread (targets : List Value) : (∀ v ∈ Value.distinct (targets.filter Value.truthy), v.isText = true) ↔
      ∀ v ∈ targets, v.isTextIfTruthy = true := by
    rw [Value.distinct_texts_iff]
    simp only [List.mem_filter, and_imp, Value.isTextIfTruthy, Bool.or_eq_true, Bool.not_eq_true']
    refine forall₂_congr fun v _ => ?_
    cases v.truthy <;> simp
  rw [List.all_eq_true]
  constructor
  · rintro ⟨targets, htargets, htexts⟩ option hoption
    obtain ⟨all, hall, htargets⟩ := Outcome.bind_eq_ok.mp htargets
    obtain ⟨target, htarget, hpart⟩ := Outcome.exists_of_mapM_eq_ok hall hoption
    rw [← Outcome.pure_eq_ok.mp htargets, hread] at htexts
    obtain ⟨entries, rfl⟩ := part_succeeds_iff.mp ⟨target, hpart⟩
    obtain rfl : Entries.get entries "target" = target := by simpa [part] using hpart
    exact htexts _ htarget
  · intro h
    have hparts : ∀ option ∈ options, ∃ target, part option "target" = .ok target := by
      intro option hoption
      have hreadable := h option hoption
      cases option <;> simp_all [nodeOptionReadable, part]
    obtain ⟨all, hall⟩ := Outcome.mapM_succeeds hparts
    refine ⟨Value.distinct (all.filter Value.truthy), Outcome.bind_eq_ok.mpr ⟨all, hall, rfl⟩, ?_⟩
    rw [hread]
    intro target htarget
    obtain ⟨option, hoption, hpart⟩ := Outcome.mem_of_mapM_eq_ok hall htarget
    obtain ⟨entries, rfl⟩ := part_succeeds_iff.mp ⟨target, hpart⟩
    obtain rfl : Entries.get entries "target" = target := by simpa [part] using hpart
    exact h _ hoption

theorem nodeOptions_truthy {raw : Value} (h : raw.truthy = false) : nodeOptions raw = .ok [] := by
  unfold nodeOptions Value.orElse
  rw [h]
  rfl

theorem nodeOptions_texts_iff {raw : Value} :
    (∃ options, nodeOptions raw = .ok options ∧
      ∃ targets, nodeTargets options = .ok targets ∧ ∀ v ∈ targets, v.isText = true) ↔
      nodeOptionsReadable raw = true := by
  by_cases htruthy : raw.truthy = true
  · have horElse : raw.orElse (.obj []) = raw := by simp [Value.orElse, htruthy]
    simp only [nodeTargets_texts_iff, nodeOptions, horElse]
    cases raw with
    | obj entries =>
      have hentry (entry : Text × Value) : nodeOptionReadable
          (.obj [("digit", .str entry.1), ("label", .null), ("target", entry.2)]) = entry.2.isTextIfTruthy := rfl
      simp only [Except.ok.injEq, exists_eq_left', List.all_map, Function.comp_def, hentry, nodeOptionsReadable]
    | arr items => simp [nodeOptionsReadable, Value.items]
    | str s =>
      -- the items of a text are its characters, and no text is an option
      cases hs : s.symbols with
      | nil => simp [Text.symbols_eq_nil_iff.mp hs, Value.truthy] at htruthy
      | cons c rest => simp [nodeOptionsReadable, Value.items, hs, htruthy, nodeOptionReadable]
    | _ => simp [nodeOptionsReadable, Value.items, htruthy]
  · have hfalse : raw.truthy = false := Bool.eq_false_iff.mpr htruthy
    have hreadable : nodeOptionsReadable raw = true := by
      cases raw with
      | obj entries => simp_all [Value.truthy, nodeOptionsReadable]
      | arr items => simp_all [Value.truthy, nodeOptionsReadable]
      | _ => simp [nodeOptionsReadable, hfalse]
    have hnone : ∃ targets, nodeTargets [] = .ok targets ∧ ∀ v ∈ targets, v.isText = true :=
      nodeTargets_texts_iff.mpr rfl
    simpa [nodeOptions_truthy hfalse, hreadable] using hnone

theorem menuNode_succeeds_iff {id : Value} {node : Entries} :
    (∃ b, menuNode id node = .ok b) ↔ id.isText = true ∧ nodeOptionsReadable (node.get "options") = true := by
  rw [← nodeOptions_texts_iff]
  simp only [menuNode, Outcome.bind_succeeds_iff, nodeBlock_succeeds_iff]
  grind

theorem ofNode_succeeds_iff {id : Value} {node : Entries} :
    (∃ b, ofNode id node = .ok b) ↔ nodeReadable id node = true := by
  unfold ofNode nodeReadable
  split <;> simp_all [Outcome.map_succeeds_iff, nodeBlock_succeeds_iff, menuNode_succeeds_iff, ← truthy?_texts_iff]

theorem nodeBlocks_succeeds_iff {index : Nat} {nodes : List (Value × Value)} :
    (∃ blocks, nodeBlocks index nodes = .ok blocks) ↔ nodesReadable nodes = true := by
  induction nodes generalizing index with
  | nil => simp [nodeBlocks, nodesReadable]
  | cons first rest ih =>
    obtain ⟨id, node⟩ := first
    have hrest : nodesReadable ((id, node) :: rest) =
        (node.asEntries?.all (nodeReadable id) && nodesReadable rest) := rfl
    rw [hrest, Bool.and_eq_true, ← @ih (index + 1)]
    cases node with
    | obj node =>
      simp only [nodeBlocks, Outcome.bind_succeeds_iff]
      have hfirst := @ofNode_succeeds_iff id node
      simp only [Value.asEntries?, Option.all_some, ← hfirst]
      simp
    | _ => simp [nodeBlocks, Value.asEntries?]

theorem nodesOfList_eq (items : List Value) : nodesOfList items =
    ((items.filter fun item => (idOf item).truthy).mapM fun item => do
      let id ← part item "id"
      let _ ← id.key?
      return (id, item)) >>= fun keyed =>
    .ok (keyed.foldl (fun nodes node => putNode node.1 node.2 nodes) []) := by
  have hid : (fun item => match item with
      | .obj entries => (Entries.get entries "id").truthy
      | _ => false) = fun item => (idOf item).truthy := by
    funext item
    cases item <;> rfl
  rw [← hid]
  rfl

/-- A list of nodes is one when its ids are keys, and then the last node of every id counts. -/
theorem nodesOfList_eq_ok_iff {items : List Value} {nodes : List (Value × Value)} :
    nodesOfList items = .ok nodes ↔ (∀ node ∈ keyedNodes items, node.1.isKey = true) ∧
      (keyedNodes items).foldl (fun nodes node => putNode node.1 node.2 nodes) [] = nodes := by
  have hkeyed (item : Value) (node : Value × Value) : (do
      let id ← part item "id"
      let _ ← id.key?
      return (id, item)) = Except.ok node → node = (idOf item, item) := by
    intro h
    obtain ⟨id, hid, h⟩ := Outcome.bind_eq_ok.mp h
    obtain ⟨key, -, h⟩ := Outcome.bind_eq_ok.mp h
    obtain ⟨entries, rfl⟩ := part_succeeds_iff.mp ⟨id, hid⟩
    obtain rfl : Entries.get entries "id" = id := by simpa [part] using hid
    exact (Outcome.pure_eq_ok.mp h).symm
  rw [nodesOfList_eq, Outcome.bind_eq_ok]
  constructor
  · rintro ⟨keyed, hall, h⟩
    rw [Outcome.eq_map_of_mapM_eq_ok hkeyed hall] at h
    refine ⟨?_, Except.ok.inj h⟩
    intro node hnode
    obtain ⟨item, hitem, rfl⟩ := List.mem_map.mp hnode
    obtain ⟨node, -, h⟩ := Outcome.exists_of_mapM_eq_ok hall hitem
    obtain ⟨id, hid, h⟩ := Outcome.bind_eq_ok.mp h
    obtain ⟨key, hkey, -⟩ := Outcome.bind_eq_ok.mp h
    obtain ⟨entries, rfl⟩ := part_succeeds_iff.mp ⟨id, hid⟩
    obtain rfl : Entries.get entries "id" = id := by simpa [part] using hid
    exact Value.key?_succeeds_iff.mp ⟨key, hkey⟩
  · rintro ⟨hkeys, h⟩
    have hparts : ∀ item ∈ items.filter fun item => (idOf item).truthy, ∃ node, (do
        let id ← part item "id"
        let _ ← id.key?
        return (id, item)) = Except.ok node := by
      intro item hitem
      obtain ⟨key, hkey⟩ := Value.key?_succeeds_iff.mpr (hkeys _ (List.mem_map_of_mem hitem))
      cases item with
      | obj entries => exact ⟨_, Outcome.bind_eq_ok.mpr ⟨_, rfl, Outcome.bind_eq_ok.mpr ⟨key, hkey, rfl⟩⟩⟩
      | _ => simp [idOf, Value.truthy] at hitem
    obtain ⟨keyed, hall⟩ := Outcome.mapM_succeeds hparts
    refine ⟨keyed, hall, ?_⟩
    rw [Outcome.eq_map_of_mapM_eq_ok hkeyed hall]
    exact congrArg Except.ok h

theorem nodesOf_readable_iff {raw : Value} :
    (∃ nodes, nodesOf raw = .ok nodes ∧ nodesReadable nodes = true) ↔ nodeMapReadable raw = true := by
  by_cases htruthy : raw.truthy = true
  · have horElse : raw.orElse (.obj []) = raw := by simp [Value.orElse, htruthy]
    simp only [nodesOf, horElse]
    cases raw with
    | obj entries => simp [nodeMapReadable]
    | arr items =>
      simp only [nodesOfList_eq_ok_iff, nodeMapReadable, Bool.and_eq_true, List.all_eq_true, and_assoc,
        exists_and_left, exists_eq_left']
    | _ => simp [nodeMapReadable, htruthy]
  · have hfalse : raw.truthy = false := Bool.eq_false_iff.mpr htruthy
    have horElse : raw.orElse (.obj []) = .obj [] := by simp [Value.orElse, hfalse]
    simp only [nodesOf, horElse]
    cases raw with
    | obj entries => simp_all [Value.truthy, nodeMapReadable]
    | arr items => simp_all [Value.truthy, nodeMapReadable, keyedNodes, nodesReadable]
    | _ => simp [nodeMapReadable, nodesReadable, hfalse]

theorem ofNodeMap_succeeds_iff {entries : Entries} :
    (∃ graph, ofNodeMap entries = .ok graph) ↔ nodeMapReadable (entries.get "nodes") = true := by
  have hpure (graph : StoredGraph) : ∃ result, (pure graph : Outcome StoredGraph) = .ok result := ⟨graph, rfl⟩
  simp only [ofNodeMap, Outcome.bind_succeeds_iff, hpure, and_true, nodeBlocks_succeeds_iff, nodesOf_readable_iff]

def entriesReadable (entries : Entries) : Bool :=
  match entries.get "blocks" with
  | .arr _ => (entries.get "entry_block_id").isTextOrNull
  | _ =>
    if entries.has "nodes" then nodeMapReadable (entries.get "nodes")
    else if entries.has "greeting" || entries.has "menu" then greetingReadable (entries.get "menu")
    else true

/-- Whether every part of a document that is used as an object, as a list or as a text can be. -/
def documentReadable : Value → Bool
  | .obj entries => entriesReadable entries
  | _ => true

def isReadable : Value → Bool
  | .str s => (Json.read? s).all documentReadable
  | document => documentReadable document

theorem ofBlockObject_succeeds_iff {items : List Value} {entries : Entries} :
    (∃ graph, ofBlockObject items entries = .ok graph) ↔ (entries.get "entry_block_id").isTextOrNull = true := by
  have hpure (graph : StoredGraph) : ∃ result, (pure graph : Outcome StoredGraph) = .ok result := ⟨graph, rfl⟩
  simp only [ofBlockObject, Outcome.bind_succeeds_iff, hpure, and_true, Reading.outcome_succeeds_iff,
    Reading.under_succeeds_iff, Reading.nullable_text_succeeds_iff]

theorem ofEntries_succeeds_iff {entries : Entries} :
    (∃ graph, ofEntries entries = .ok graph) ↔ entriesReadable entries = true := by
  unfold ofEntries entriesReadable
  cases Entries.get entries "blocks" with
  | arr items => exact ofBlockObject_succeeds_iff
  | _ =>
    dsimp only
    split
    · exact ofNodeMap_succeeds_iff
    · split
      · exact ofGreeting_succeeds_iff
      · simp

theorem ofDocument_succeeds_iff {document : Value} :
    (∃ graph, ofDocument document = .ok graph) ↔ documentReadable document = true := by
  cases document with
  | obj entries => exact ofEntries_succeeds_iff
  | _ => simp [ofDocument, documentReadable]

theorem ofDocument?_succeeds_iff {document : Option Value} :
    (∃ graph, ofDocument? document = .ok graph) ↔ document.all documentReadable = true := by
  cases document with
  | none => simp [ofDocument?]
  | some document => exact ofDocument_succeeds_iff

theorem decode_succeeds_iff {stored : Value} : (∃ graph, decode stored = .ok graph) ↔ isReadable stored = true := by
  cases stored with
  | str s => exact ofDocument?_succeeds_iff
  | _ => simpa only [decode, isReadable] using ofDocument_succeeds_iff

end StoredGraph
end Switchboard

import Switchboard.Proofs.Flow.Layout
import Switchboard.Proofs.Flow.Options
import Switchboard.Proofs.Flow.StoredBlock
import Switchboard.Proofs.Keyed
import Switchboard.Proofs.Value.Kinds
import Mathlib.Data.List.Forall2

/-! # Nodes that become blocks

In an object of nodes every node becomes a block. A menu node gives its targets twice, as the blocks that follow and in
the options, and reading the options trims their digits and leaves out those without. Still the block leads to the
targets of the node, each once and in order, and for digits that stay apart when they are trimmed each option is found.
-/
namespace Switchboard

namespace Value

theorem nodup_eraseDups (ids : List Text) : ids.eraseDups.Nodup := by
  have hnodup := distinct_nodup (ids.map .str)
  rw [distinct_texts, List.filterMap_map] at hnodup
  have hsame : asText? ∘ str = (some : Text → Option Text) := rfl
  rwa [hsame, List.filterMap_some] at hnodup

def named? (v : Value) : Option Text :=
  v.asText?.filter (· != ("" : Text))

theorem truthy?_of_isTextOrNull {v : Value} (h : v.isTextOrNull = true) : v.truthy? = v.named?.map .str := by
  cases v with
  | null => rfl
  | str s =>
    by_cases hempty : s = ""
    · simp [truthy?, named?, truthy, asText?, hempty]
    · simp [truthy?, named?, truthy, asText?, Option.filter_some, hempty]
  | _ => simp [isTextOrNull, isNull, isText] at h

theorem ofText?_asText? {v : Value} (h : v.isTextOrNull = true) : ofText? v.asText? = v := by
  cases v with
  | null => rfl
  | str s => rfl
  | _ => simp [isTextOrNull, isNull, isText] at h

end Value

namespace StoredGraph

/-- The targets of a node, from an object of them by digits: those that are not empty, in order. -/
def targetsOf (options : Entries) : List Text :=
  options.filterMap fun entry => entry.2.named?

/-- A node of a known type that leads to texts or to nothing; a menu has its targets in an object by digits. -/
inductive Convertible (node : Entries) : Prop where
  | say (htype : node.get "type" = .str "say") (hnext : (node.get "next").isTextOrNull = true)
  | menu (options : Entries) (htype : node.get "type" = .str "menu" ∨ node.get "type" = .str "gather")
      (hoptions : node.get "options" = .obj options) (htargets : ∀ entry ∈ options, entry.2.isTextOrNull = true)
      (hfail : (node.get "on_fail").isTextOrNull = true)
  | forward (htype : node.get "type" = .str "forward")
  | hangup (htype : node.get "type" = .str "voicemail" ∨ node.get "type" = .str "hangup")

/-- A block that leads where a node leads: a menu to the targets of the node, each once and in order, and then to what
the node names for failures; and for the digits of each target an option is found with this target. -/
inductive LeadsAs (node : Entries) (b : Block) : Prop where
  | say (htype : node.get "type" = .str "say") (hsay : b.type = .say)
      (hedges : b.edges = .ok ((node.get "next").named?.toList.map .str))
  | menu (options : Entries) (htype : node.get "type" = .str "menu" ∨ node.get "type" = .str "gather")
      (hoptions : node.get "options" = .obj options) (hmenu : b.type = .menu)
      (hedges : b.edges = .ok (((targetsOf options).eraseDups ++
        ((node.get "on_fail").named?.filter fun id => !(targetsOf options).contains id).toList).map .str))
      (hoption : (options.map fun entry => Text.trim entry.1).Nodup → (∀ entry ∈ options, Text.trim entry.1 ≠ "") →
        ∀ entry ∈ options, ∃ o, b.optionFor (some entry.1) = .ok (some o) ∧ .ofText? o.target = entry.2)
  | forward (htype : node.get "type" = .str "forward") (hforward : b.type = .forward) (hedges : b.edges = .ok [])
  | hangup (htype : node.get "type" = .str "voicemail" ∨ node.get "type" = .str "hangup") (hhangup : b.type = .hangup)
      (hedges : b.edges = .ok [])

theorem nodeBlock_texts (id : Text) (type : BlockType) (config : Entries) (next : List Text) :
    nodeBlock (.str id) type config (next.map .str) =
      .ok { id, type, config, position := ⟨.ofInt 0, .ofInt 0⟩, next } := by
  rw [nodeBlock, Reading.items_text]
  rfl

def menuOptionsOf (options : Entries) : List MenuOption :=
  options.map fun entry => ⟨entry.1, none, entry.2.asText?⟩

theorem nodeOptions_obj {options : Entries} (h : ∀ entry ∈ options, entry.2.isTextOrNull = true) :
    nodeOptions (.obj options) = .ok ((menuOptionsOf options).map MenuOption.toValue) := by
  have horElse : Value.orElse (.obj options) (.obj []) = .obj options := by cases options <;> rfl
  rw [nodeOptions, horElse, menuOptionsOf, List.map_map]
  refine congrArg Except.ok (List.map_congr_left fun entry hentry => ?_)
  rw [Function.comp_apply, MenuOption.toValue, Value.ofText?_asText? (h entry hentry)]
  rfl

theorem targetsOf_eq (options : Entries) :
    (menuOptionsOf options).filterMap MenuOption.target? = targetsOf options := by
  rw [menuOptionsOf, List.filterMap_map]
  rfl

theorem filter_truthy_targets (options : List MenuOption) :
    (options.map fun o => Value.ofText? o.target).filter Value.truthy =
      (options.filterMap MenuOption.target?).map .str := by
  have htarget (o : MenuOption) : o.target?.map Value.str = (Value.ofText? o.target).truthy? := by
    obtain ⟨digit, label, target⟩ := o
    cases target with
    | none => rfl
    | some id =>
      by_cases hempty : id = ""
      · simp [MenuOption.target?, Value.ofText?, Value.truthy?, Value.truthy, hempty]
      · simp [MenuOption.target?, Value.ofText?, Value.truthy?, Value.truthy, Option.filter_some, hempty]
  rw [List.map_filterMap, ← List.filterMap_eq_filter, List.filterMap_map]
  refine List.filterMap_congr fun o _ => ?_
  rw [htarget, Function.comp_apply, Value.truthy?]
  rfl

theorem nodeTargets_written (options : List MenuOption) : nodeTargets (options.map MenuOption.toValue) =
    .ok ((options.filterMap MenuOption.target?).eraseDups.map .str) := by
  have hparts : (options.map MenuOption.toValue).mapM (part · "target") =
      .ok (options.map fun o => Value.ofText? o.target) := by
    rw [List.mapM_map]
    exact Outcome.mapM_eq_ok_map fun o _ => rfl
  rw [nodeTargets, hparts, ← Value.distinct_texts, ← filter_truthy_targets]
  rfl

theorem menuNode_eq {options : Entries} (id : Text) {node : Entries} (hoptions : node.get "options" = .obj options)
    (h : ∀ entry ∈ options, entry.2.isTextOrNull = true) : menuNode (.str id) node = .ok {
      id := id, type := .menu, position := ⟨.ofInt 0, .ofInt 0⟩, next := (targetsOf options).eraseDups
      config := ("prompt", (node.get "prompt").orElse (.str "")) ::
        ("options", .arr ((menuOptionsOf options).map MenuOption.toValue)) :: menuExtras node } := by
  have htargets := nodeTargets_written (menuOptionsOf options)
  rw [targetsOf_eq] at htargets
  rw [menuNode, hoptions, nodeOptions_obj h, ← nodeBlock_texts]
  simp only [bind, Except.bind, htargets]

theorem eraseDups_of_nodup {ids : List Text} (h : ids.Nodup) : ids.eraseDups = ids := by
  induction ids with
  | nil => rfl
  | cons id rest ih =>
    obtain ⟨hnew, hrest⟩ := List.nodup_cons.mp h
    have hkept : rest.filter (fun other => !other == id) = rest := by
      refine List.filter_eq_self.mpr fun other hother => ?_
      simp only [Bool.not_eq_true', beq_eq_false_iff_ne]
      exact fun hsame => hnew (hsame ▸ hother)
    rw [List.eraseDups_cons, hkept, ih hrest]

/-- Targets that are repeated are left out, and so is what comes last if it is one of them. -/
theorem eraseDups_targets {targets more : List Text} (hmore : ∀ id ∈ more, id ∈ targets) (last : Option Text) :
    (targets.eraseDups ++ more ++ last.toList).eraseDups =
      targets.eraseDups ++ (last.filter fun id => !targets.contains id).toList := by
  have hnothing : more.removeAll targets.eraseDups = [] := by
    refine List.filter_eq_nil_iff.mpr fun id hid => ?_
    simp [List.mem_eraseDups, hmore id hid]
  have hmem (id : Text) : id ∈ targets.eraseDups ++ more ↔ id ∈ targets := by
    rw [List.mem_append, List.mem_eraseDups, or_iff_left_of_imp (hmore id)]
  rw [List.eraseDups_append, List.eraseDups_append, hnothing, eraseDups_of_nodup (Value.nodup_eraseDups targets)]
  cases last with
  | none => simp [List.removeAll]
  | some id =>
    rw [Option.toList_some, Option.filter_some]
    by_cases hid : id ∈ targets
    · have hold : [id].removeAll (targets.eraseDups ++ more) = [] := by
        rw [List.removeAll, List.filter_eq_nil_iff]
        simp [hid]
      simp [hold, hid]
    · have hnew : [id].removeAll (targets.eraseDups ++ more) = [id] := by
        rw [List.removeAll, List.filter_eq_self]
        simpa using mt (hmem id).mp hid
      simp [hnew, hid, List.eraseDups_cons]

variable {b : Block}

theorem edges_menu {options : Entries} {last : Option Text} (htype : b.type = .menu)
    (hconfig : b.config.get "options" = .arr ((menuOptionsOf options).map MenuOption.toValue))
    (hnext : b.next = (targetsOf options).eraseDups) (hlast : b.onFail? = last.map .str) :
    b.edges = .ok (((targetsOf options).eraseDups ++
      (last.filter fun id => !(targetsOf options).contains id).toList).map .str) := by
  let stored := (menuOptionsOf options).filterMap MenuOption.stored?
  have hmore : ∀ id ∈ stored.filterMap MenuOption.target?, id ∈ targetsOf options := by
    intro id hid
    rw [← targetsOf_eq]
    exact MenuOption.mem_targets_of_stored hid
  have htargets : b.optionTargets = .ok (stored.filterMap MenuOption.target?) :=
    Block.optionTargets_of_menuOptions htype (Block.menuOptions_of_written hconfig)
  have hids : b.onFail?.toList = last.toList.map .str := by
    rw [hlast, Option.toList_map]
  rw [← eraseDups_targets hmore, ← Value.distinct_texts, Block.edges, htargets, hnext, hids, List.map_append]
  rfl

theorem optionFor_entry {options : Entries}
    (hconfig : b.config.get "options" = .arr ((menuOptionsOf options).map MenuOption.toValue))
    (hdistinct : (options.map fun entry => Text.trim entry.1).Nodup)
    (hfilled : ∀ entry ∈ options, Text.trim entry.1 ≠ "") {entry : Text × Value} (hentry : entry ∈ options) :
    b.optionFor (some entry.1) = .ok (some ⟨Text.trim entry.1, none, entry.2.asText?⟩) := by
  have hne {entry : Text × Value} (hentry : entry ∈ options) : entry.1 ≠ "" := by
    intro hempty
    exact hfilled entry hentry (by rw [hempty]; decide +kernel)
  have hread : b.menuOptions = .ok (options.map fun entry => ⟨Text.trim entry.1, none, entry.2.asText?⟩) := by
    rw [Block.menuOptions_of_written hconfig, menuOptionsOf, List.filterMap_map, ← List.filterMap_eq_map]
    refine congrArg Except.ok (List.filterMap_congr fun entry hentry => ?_)
    exact if_neg (hne hentry)
  have hfound : options.find? (fun other => Text.trim other.1 == Text.trim entry.1) = some entry :=
    find?_of_mem hdistinct hentry fun _ => beq_iff_eq
  rw [Block.optionFor_of_menuOptions hread (hne hentry), List.find?_map]
  simp only [Function.comp_def, hfound, Option.map_some]

theorem truthy?_menuExtras {prompt options : Value} (node : Entries) :
    (Entries.get (("prompt", prompt) :: ("options", options) :: menuExtras node) "on_fail").truthy? =
      (node.get "on_fail").truthy? := by
  have hget : Entries.get (("prompt", prompt) :: ("options", options) :: menuExtras node) "on_fail" =
      if (node.get "on_fail").truthy then node.get "on_fail" else .null := by
    simp only [menuExtras]
    cases (node.get "max_attempts").isNull <;> cases (node.get "on_fail").truthy <;> rfl
  rw [hget, Value.truthy?, Value.truthy?]
  cases htruthy : (node.get "on_fail").truthy with
  | true => simp [htruthy]
  | false => rfl

theorem exists_leadsAs (id : Text) {node : Entries} (h : Convertible node) :
    ∃ b, ofNode (.str id) node = .ok (some b) ∧ b.id = id ∧ ∀ place, LeadsAs node { b with position := place } := by
  cases h with
  | say htype hnext =>
    have hnode : ofNode (.str id) node = .ok (some {
        id := id, type := .say, position := ⟨.ofInt 0, .ofInt 0⟩, next := (node.get "next").named?.toList
        config := [("text", (node.get "message").orElse (.str ""))] }) := by
      rw [ofNode, htype, Value.truthy?_of_isTextOrNull hnext, Option.toList_map]
      simp only [Value.asText?, nodeBlock_texts]
      rfl
    refine ⟨_, hnode, rfl, fun place => .say htype rfl ?_⟩
    cases (node.get "next").named? <;> rfl
  | menu options htype hoptions htargets hfail =>
    have hnode : ofNode (.str id) node = some <$> menuNode (.str id) node := by
      rcases htype with htype | htype <;> rw [ofNode, htype] <;> rfl
    rw [hnode, menuNode_eq id hoptions htargets]
    refine ⟨_, rfl, rfl, fun place => .menu options htype hoptions rfl ?_ ?_⟩
    · refine edges_menu rfl rfl rfl ?_
      rw [← Value.truthy?_of_isTextOrNull hfail]
      exact truthy?_menuExtras node
    · intro hdistinct hfilled entry hentry
      refine ⟨_, optionFor_entry rfl hdistinct hfilled hentry, ?_⟩
      exact Value.ofText?_asText? (htargets entry hentry)
  | forward htype =>
    have hnode : ofNode (.str id) node = .ok (some {
        id := id, type := .forward, position := ⟨.ofInt 0, .ofInt 0⟩, next := []
        config := [("to", (node.get "to").orElse (.str ""))] }) := by
      rw [ofNode, htype]
      rfl
    exact ⟨_, hnode, rfl, fun place => .forward htype rfl rfl⟩
  | hangup htype =>
    rcases htype with hvoicemail | hhangup
    · have hnode : ofNode (.str id) node = .ok (some {
          id := id, type := .hangup, position := ⟨.ofInt 0, .ofInt 0⟩, next := []
          config := [("voicemail", .bool true), ("message", .str voicemailPrompt)] }) := by
        rw [ofNode, hvoicemail]
        rfl
      exact ⟨_, hnode, rfl, fun place => .hangup (Or.inl hvoicemail) rfl rfl⟩
    · have hnode : ofNode (.str id) node = .ok (some {
          id := id, type := .hangup, position := ⟨.ofInt 0, .ofInt 0⟩, next := [], config := [] }) := by
        rw [ofNode, hhangup]
        rfl
      exact ⟨_, hnode, rfl, fun place => .hangup (Or.inr hhangup) rfl rfl⟩

theorem nodeBlocks_leadsAs {nodes : Entries} (index : Nat)
    (h : ∀ entry ∈ nodes, ∃ node, entry.2 = .obj node ∧ Convertible node) : ∃ blocks,
      nodeBlocks index (nodes.map fun entry => (.str entry.1, entry.2)) = .ok blocks ∧
      blocks.map Block.id = nodes.map Prod.fst ∧
      blocks.map Block.position = (List.range' index nodes.length).map (fun i : Nat => Layout.gridPosition (i : Int)) ∧
      List.Forall₂ (fun entry b => ∃ node, entry.2 = .obj node ∧ LeadsAs node b) nodes blocks := by
  induction nodes generalizing index with
  | nil => exact ⟨[], rfl, rfl, rfl, .nil⟩
  | cons entry rest ih =>
    obtain ⟨id, value⟩ := entry
    obtain ⟨⟨node, hnode, hconvertible⟩, hrest⟩ := List.forall_mem_cons.mp h
    obtain rfl : value = .obj node := hnode
    obtain ⟨b, hb, hid, hleads⟩ := exists_leadsAs id hconvertible
    obtain ⟨blocks, hblocks, hids, hpositions, hall⟩ := ih (index + 1) hrest
    refine ⟨{ b with position := Layout.gridPosition (index : Int) } :: blocks, ?_, ?_, ?_, ?_⟩
    · rw [List.map_cons, nodeBlocks, hb, hblocks]
      rfl
    · rw [List.map_cons, List.map_cons, hids, hid]
    · rw [List.map_cons, hpositions]
      rfl
    · exact .cons ⟨node, rfl, hleads _⟩ hall

theorem nodesOf_obj (nodes : Entries) : nodesOf (.obj nodes) = .ok (nodes.map fun entry => (.str entry.1, entry.2)) := by
  cases nodes <;> rfl

/-- An object of nodes becomes one block for each, in order, with its id and in the cell of its index, that leads where
the node leads; calls begin at the start if it is a node. No two cells are the same, and neither are their places in
double precision, which are exact for up to `2 ^ 47` nodes. -/
theorem ofNodeMap_leadsAs {entries nodes : Entries} (hnodes : entries.get "nodes" = .obj nodes)
    (h : ∀ entry ∈ nodes, ∃ node, entry.2 = .obj node ∧ Convertible node) : ∃ graph, ofNodeMap entries = .ok graph ∧
      graph.blocks.map Block.id = nodes.map Prod.fst ∧
      List.Forall₂ (fun entry b => ∃ node, entry.2 = .obj node ∧ LeadsAs node b) nodes graph.blocks ∧
      graph.blocks.map Block.position = (List.range nodes.length).map (fun i : Nat => Layout.gridPosition (i : Int)) ∧
      (Function.Injective fun i : Nat => (Layout.gridPosition (i : Int) : Position ℚ)) ∧
      (nodes.length ≤ 2 ^ 47 → (graph.blocks.map Block.position).Nodup) ∧
      ∀ start, graph.entryBlockId = some start ↔ entries.get "start" = .str start ∧ start ∈ nodes.map Prod.fst := by
  obtain ⟨blocks, hblocks, hids, hpositions, hleads⟩ := nodeBlocks_leadsAs 0 h
  have hgraph : ofNodeMap entries = .ok {
      blocks := blocks, shape := .nodeMap
      entryBlockId := (entries.get "start").asText?.filter fun id => blocks.any fun b => b.id == id } := by
    rw [ofNodeMap, hnodes, nodesOf_obj]
    simp only [bind, Except.bind, hblocks]
    rfl
  rw [← List.range_eq_range'] at hpositions
  refine ⟨_, hgraph, hids, hleads, hpositions, Layout.gridPosition_injective, ?_, ?_⟩
  · intro hfew
    dsimp only
    rw [hpositions, List.nodup_map_iff_inj_on List.nodup_range]
    intro i hi j hj hsame
    exact Layout.gridPosition_inj (Nat.lt_of_lt_of_le (List.mem_range.mp hi) hfew)
      (Nat.lt_of_lt_of_le (List.mem_range.mp hj) hfew) hsame
  · intro start
    rw [Option.filter_eq_some_iff, Value.asText?_eq_some, ← hids, List.any_eq_true, List.mem_map]
    simp only [beq_iff_eq]

theorem ofNodeMap_leadsAs_greeting :
    let menu : Entries := [("type", .str "gather"), ("prompt", .str "Press 1 or 2"), ("max_attempts", .int 2),
      ("options", .obj [("1", .str "desk"), (" 2 ", .str "box"), ("3", .null), ("4", .str "desk")]),
      ("on_fail", .str "bye")]
    let nodes : Entries := [
      ("hello", .obj [("type", .str "say"), ("message", .str "Hello"), ("next", .str "menu")]), ("menu", .obj menu),
      ("desk", .obj [("type", .str "forward"), ("to", .str "+15551230001")]), ("box", .obj [("type", .str "voicemail")]),
      ("bye", .obj [("type", .str "hangup")])]
    ∃ graph hello b desk box bye, ofNodeMap [("start", .str "hello"), ("nodes", .obj nodes)] = .ok graph ∧
      graph.blocks = [hello, b, desk, box, bye] ∧ b.id = "menu" ∧
      b.edges = .ok [.str "desk", .str "box", .str "bye"] ∧
      (∃ o, b.optionFor (some (" 2 " : Text)) = .ok (some o) ∧ o.target = some ("box" : Text)) ∧
      (graph.blocks.map Block.position).Nodup ∧ graph.entryBlockId = some ("hello" : Text) := by
  intro menu nodes
  have hmenu : Convertible menu := .menu _ (Or.inr rfl) rfl (by decide) rfl
  have hconvertible : ∀ entry ∈ nodes, ∃ node, entry.2 = .obj node ∧ Convertible node := by
    refine List.forall_mem_cons.mpr ⟨⟨_, rfl, .say rfl rfl⟩, List.forall_mem_cons.mpr ⟨⟨_, rfl, hmenu⟩, ?_⟩⟩
    refine List.forall_mem_cons.mpr ⟨⟨_, rfl, .forward rfl⟩, ?_⟩
    refine List.forall_mem_cons.mpr ⟨⟨_, rfl, .hangup (Or.inl rfl)⟩, ?_⟩
    exact List.forall_mem_singleton.mpr ⟨_, rfl, .hangup (Or.inr rfl)⟩
  have hnodes : Entries.get [("start", .str "hello"), ("nodes", .obj nodes)] "nodes" = .obj nodes := rfl
  obtain ⟨graph, hgraph, hids, hleads, -, -, hapart, hentry⟩ := ofNodeMap_leadsAs hnodes hconvertible
  generalize hblocks : graph.blocks = blocks at hids hleads
  change List.Forall₂ _ [_, (("menu" : Text), Value.obj menu), _, _, _] blocks at hleads
  obtain _ | ⟨-, _ | ⟨⟨node, hnode, hb⟩, _ | ⟨-, _ | ⟨-, _ | ⟨-, _ | _⟩⟩⟩⟩⟩ := hleads
  obtain rfl : menu = node := Value.obj.inj hnode
  have hgather : menu.get "type" = .str "gather" := rfl
  cases hb with
  | say htype => simp [hgather] at htype
  | forward htype => simp [hgather] at htype
  | hangup htype => simp [hgather] at htype
  | menu options htype hoptions hmenu hedges hoption =>
    obtain rfl : _ = options := Value.obj.inj hoptions
    obtain ⟨o, hfound, htarget⟩ := hoption (by decide +kernel) (by decide +kernel) (" 2 ", .str "box") (by simp)
    refine ⟨graph, _, _, _, _, _, hgraph, hblocks, ?_, hedges, ⟨o, hfound, ?_⟩, hapart (by decide), ?_⟩
    · exact (List.cons.inj (List.cons.inj hids).2).1
    · cases hto : o.target with
      | none =>
        rw [hto] at htarget
        cases htarget
      | some target =>
        rw [hto] at htarget
        exact congrArg some (Value.str.inj htarget)
    · exact (hentry "hello").mpr ⟨rfl, by decide⟩

end StoredGraph
end Switchboard

import Switchboard.Flow.Graph
import Switchboard.Proofs.Flow.Edges
import Switchboard.Proofs.Keyed
import Mathlib.Data.List.Perm.Subperm

/-! # What can be reached

The graph has one vertex for each id, and an edge wherever the block of an id leads to a block that exists. The
search looks at every vertex at most once, so it ends with a set that no edge leaves.
-/
namespace Switchboard.Graph

variable {K : Type} {blocks : List (Block K)} {b : Block K} {id target : Text}

theorem id_of_block?_eq_some (h : block? blocks id = some b) : b.id = id := by
  have hb := List.find?_some h
  exact beq_iff_eq.mp hb

theorem block?_of_lookup {v : Value} (h : lookup blocks v = .ok (some b)) : block? blocks b.id = some b := by
  obtain ⟨key, -, h⟩ := Outcome.bind_eq_ok.mp h
  simp only [Outcome.pure_eq_ok, Option.bind_eq_some_iff] at h
  obtain ⟨id, -, hb⟩ := h
  rw [id_of_block?_eq_some hb]
  exact hb

theorem mem_of_block? (h : block? blocks id = some b) : b ∈ blocks :=
  List.mem_of_find?_eq_some h

theorem str_of_lookup {v : Value} (h : lookup blocks v = .ok (some b)) : v = .str b.id := by
  obtain ⟨key, hkey, h⟩ := Outcome.bind_eq_ok.mp h
  simp only [Outcome.pure_eq_ok, Option.bind_eq_some_iff] at h
  obtain ⟨id, rfl, hb⟩ := h
  rw [id_of_block?_eq_some hb]
  exact Value.asText?_eq_some.mp (Value.asText?_of_key? hkey).symm

theorem lookup_str (blocks : List (Block K)) (id : Text) :
    lookup blocks (.str id) = .ok (block? blocks id) := rfl

theorem block?_cons (b : Block K) (rest : List (Block K)) (id : Text) :
    block? (b :: rest) id = if b.id = id then some b else block? rest id := by
  by_cases h : b.id = id <;> simp [block?, h]

theorem block?_append (blocks rest : List (Block K)) (id : Text) :
    block? (blocks ++ rest) id = (block? blocks id).or (block? rest id) := by
  simp [block?, List.find?_append]

theorem block?_distinctAfter (kept rest : List (Block K)) (id : Text) :
    block? (distinctAfter kept rest) id = (block? kept id).or (block? rest id) := by
  induction rest generalizing kept with
  | nil => simp [distinctAfter, block?]
  | cons b rest ih =>
    rw [distinctAfter, ih, block?_cons]
    by_cases hid : b.id = id
    · subst hid
      cases hk : block? kept b.id with
      | some old => simp [hasBlock, hk]
      | none => simp [hasBlock, hk, block?_append, block?_cons]
    · rw [if_neg hid]
      split
      · rfl
      · rw [block?_append, block?_cons, if_neg hid]
        simp [block?]

@[simp] theorem block?_distinct (blocks : List (Block K)) (id : Text) :
    block? (distinct blocks) id = block? blocks id := by
  rw [distinct, block?_distinctAfter]
  simp [block?]

theorem distinctAfter_nodup {kept : List (Block K)} (h : (kept.map Block.id).Nodup) (rest : List (Block K)) :
    ((distinctAfter kept rest).map Block.id).Nodup := by
  induction rest generalizing kept with
  | nil => exact h
  | cons b rest ih =>
    rw [distinctAfter]
    apply ih
    split
    · exact h
    · rename_i hnew
      rw [List.map_append, List.map_singleton, ← List.concat_eq_append]
      refine h.concat fun hmem => hnew ?_
      obtain ⟨old, hold, hid⟩ := List.mem_map.mp hmem
      rw [hasBlock, block?, List.find?_isSome]
      exact ⟨old, hold, beq_iff_eq.mpr hid⟩

theorem ids_nodup (blocks : List (Block K)) : (ids blocks).Nodup := by
  have hnone : (([] : List (Block K)).map Block.id).Nodup := List.nodup_nil
  exact distinctAfter_nodup hnone blocks

/-- The index holds the first block of each id, and no other. -/
theorem mem_distinct_iff : b ∈ distinct blocks ↔ block? blocks b.id = some b := by
  constructor
  · intro hb
    rw [← block?_distinct]
    exact find?_of_mem (ids_nodup blocks) hb fun c => beq_iff_eq
  · intro hb
    rw [← block?_distinct] at hb
    exact mem_of_block? hb

theorem mem_distinct_of_block? (h : block? blocks id = some b) : b ∈ distinct blocks :=
  mem_distinct_iff.mpr ((id_of_block?_eq_some h).symm ▸ h)

theorem mem_of_mem_distinct (h : b ∈ distinct blocks) : b ∈ blocks :=
  mem_of_block? (mem_distinct_iff.mp h)

theorem hasBlock_iff : hasBlock blocks id = true ↔ ∃ b, block? blocks id = some b :=
  Option.isSome_iff_exists

theorem hasBlock_iff_mem : hasBlock blocks id = true ↔ ∃ b ∈ blocks, b.id = id := by
  simp [hasBlock, block?]

theorem lookup_eq_some_iff {v : Value} :
    (∃ b, lookup blocks v = .ok (some b)) ↔ ∃ b ∈ blocks, v = .str b.id := by
  constructor
  · rintro ⟨b, hb⟩
    exact ⟨b, mem_of_block? (block?_of_lookup hb), str_of_lookup hb⟩
  · rintro ⟨b, hb, rfl⟩
    obtain ⟨c, hc⟩ := hasBlock_iff.mp (hasBlock_iff_mem.mpr ⟨b, hb, rfl⟩)
    exact ⟨c, by rw [lookup_str, hc]⟩

theorem mem_ids_iff : id ∈ ids blocks ↔ hasBlock blocks id = true := by
  rw [hasBlock_iff, ids, List.mem_map]
  constructor
  · rintro ⟨b, hb, rfl⟩
    exact ⟨b, mem_distinct_iff.mp hb⟩
  · rintro ⟨b, hb⟩
    exact ⟨b, mem_distinct_of_block? hb, id_of_block?_eq_some hb⟩

/-- Whether the graph has an edge: the first block of an id leads to another id that is that of a block. -/
def Leads (blocks : List (Block K)) (id target : Text) : Prop :=
  ∃ b ids, block? blocks id = some b ∧ b.edgeIds = .ok ids ∧ target ∈ ids ∧ hasBlock blocks target = true

def EdgesKnown (blocks : List (Block K)) : Prop :=
  ∀ b ∈ distinct blocks, ∃ ids, b.edgeIds = .ok ids

theorem mem_unseen_iff {seen found : List Text} (h : unseen blocks seen id = .ok found) :
    target ∈ found ↔ Leads blocks id target ∧ target ∉ seen := by
  unfold unseen at h
  unfold Leads
  split at h
  · rename_i hnone
    cases h
    simp [hnone]
  · rename_i b hb
    obtain ⟨ids, hids, h⟩ := Outcome.bind_eq_ok.mp h
    rw [← Outcome.pure_eq_ok.mp h, List.mem_filter]
    simp [hb, hids, and_assoc]

theorem unseen_nodup {seen found : List Text} (h : unseen blocks seen id = .ok found) : found.Nodup := by
  unfold unseen at h
  split at h
  · cases h
    exact List.nodup_nil
  · obtain ⟨ids, hids, h⟩ := Outcome.bind_eq_ok.mp h
    rw [← Outcome.pure_eq_ok.mp h]
    exact (Block.edgeIds_nodup hids).filter _

theorem unseen_succeeds (hk : EdgesKnown blocks) (seen : List Text) (id : Text) :
    ∃ found, unseen blocks seen id = .ok found := by
  unfold unseen
  split
  · exact ⟨_, rfl⟩
  · rename_i b hb
    obtain ⟨ids, hids⟩ := hk b (mem_distinct_of_block? hb)
    rw [hids]
    exact ⟨_, rfl⟩

/-- The state of a search: what has been seen are the ids that have been looked at and then those in the queue,
each once and each that of a block, and every edge from an id that has been looked at leads to one that has been
seen. The fuel is the number of blocks that have not been looked at. -/
structure Searching (blocks : List (Block K)) (fuel : Nat) (done queue : List Text) : Prop where
  nodup : (done ++ queue).Nodup
  exist : ∀ id ∈ done ++ queue, hasBlock blocks id = true
  fueled : done.length + fuel = (distinct blocks).length
  closed : ∀ id ∈ done, ∀ target, Leads blocks id target → target ∈ done ++ queue

theorem Searching.length_le {fuel : Nat} {done queue : List Text} (h : Searching blocks fuel done queue) :
    done.length + queue.length ≤ (distinct blocks).length := by
  have hsub : done ++ queue ⊆ ids blocks := fun id hid => mem_ids_iff.mpr (h.exist id hid)
  have hlen := (h.nodup.subperm hsub).length_le
  rwa [List.length_append, ids, List.length_map] at hlen

/-- With no fuel left every block has been looked at, and so the queue is empty. -/
theorem Searching.queue_eq_nil {done queue : List Text} (h : Searching blocks 0 done queue) : queue = [] := by
  have hlen := h.length_le
  have hfuel := h.fueled
  exact List.length_eq_zero_iff.mp (by omega)

theorem Searching.begin {start : Text} (hs : hasBlock blocks start = true) :
    Searching blocks (distinct blocks).length [] [start] := by
  refine ⟨List.nodup_singleton start, ?_, Nat.zero_add _, fun id hid => absurd hid List.not_mem_nil⟩
  intro id hid
  rw [List.nil_append, List.mem_singleton] at hid
  exact hid ▸ hs

theorem Searching.step {fuel : Nat} {done queue found : List Text} {id : Text}
    (h : Searching blocks (fuel + 1) done (id :: queue))
    (hf : unseen blocks (done ++ id :: queue) id = .ok found) :
    Searching blocks fuel (done ++ [id]) (queue ++ found) := by
  have hseen : (done ++ [id]) ++ (queue ++ found) = (done ++ id :: queue) ++ found := by simp
  constructor
  · rw [hseen, List.nodup_append]
    refine ⟨h.nodup, unseen_nodup hf, ?_⟩
    rintro seen hmem new hnew rfl
    exact ((mem_unseen_iff hf).mp hnew).2 hmem
  · rw [hseen]
    intro target hmem
    rcases List.mem_append.mp hmem with hmem | hmem
    · exact h.exist target hmem
    · obtain ⟨⟨_, _, _, _, _, hhas⟩, -⟩ := (mem_unseen_iff hf).mp hmem
      exact hhas
  · have hfuel := h.fueled
    rw [List.length_append, List.length_singleton]
    omega
  · rw [hseen]
    intro source hsource target hleads
    -- the edges from `done` are closed already, so only those from `id` can lead to what was not seen
    by_cases hmem : target ∈ done ++ id :: queue
    · exact List.mem_append_left _ hmem
    · rcases List.mem_append.mp hsource with hdone | hid
      · exact absurd (h.closed source hdone target hleads) hmem
      · rw [List.mem_singleton.mp hid] at hleads
        exact List.mem_append_right _ ((mem_unseen_iff hf).mpr ⟨hleads, hmem⟩)

theorem explore_succeeds (hk : EdgesKnown blocks) (fuel : Nat) (seen queue : List Text) :
    ∃ reached, explore blocks fuel seen queue = .ok reached := by
  induction fuel generalizing seen queue with
  | zero => exact ⟨seen, rfl⟩
  | succ fuel ih =>
    cases queue with
    | nil => exact ⟨seen, rfl⟩
    | cons id queue =>
      obtain ⟨found, hfound⟩ := unseen_succeeds hk seen id
      rw [explore, hfound]
      exact ih (seen ++ found) (queue ++ found)

def Looked (blocks : List (Block K)) (id : Text) : Prop :=
  ∃ b ids, block? blocks id = some b ∧ b.edgeIds = .ok ids

theorem looked_of_unseen {seen found : List Text} (hhas : hasBlock blocks id = true)
    (h : unseen blocks seen id = .ok found) : Looked blocks id := by
  obtain ⟨b, hb⟩ := hasBlock_iff.mp hhas
  rw [unseen, hb] at h
  obtain ⟨ids, hids, -⟩ := Outcome.bind_eq_ok.mp h
  exact ⟨b, ids, hb, hids⟩

theorem Searching.ended {fuel : Nat} {done : List Text} (h : Searching blocks fuel done [])
    (hdone : ∀ id ∈ done, Looked blocks id) :
    ∀ id ∈ done ++ [], Looked blocks id ∧ ∀ target, Leads blocks id target → target ∈ done ++ [] := by
  intro id hid
  have hid' : id ∈ done := by rwa [List.append_nil] at hid
  exact ⟨hdone id hid', h.closed id hid'⟩

/-- A search that ends has everything seen so far, it has looked at all of it, and no edge leaves it. The induction is
on the fuel. -/
theorem closed_of_explore {fuel : Nat} {done queue reached : List Text} (h : Searching blocks fuel done queue)
    (hdone : ∀ id ∈ done, Looked blocks id) (hr : explore blocks fuel (done ++ queue) queue = .ok reached) :
    done ++ queue ⊆ reached ∧
    ∀ id ∈ reached, Looked blocks id ∧ ∀ target, Leads blocks id target → target ∈ reached := by
  induction fuel generalizing done queue with
  | zero =>
    obtain rfl := h.queue_eq_nil
    cases hr
    exact ⟨List.Subset.refl _, h.ended hdone⟩
  | succ fuel ih =>
    cases queue with
    | nil =>
      cases hr
      exact ⟨List.Subset.refl _, h.ended hdone⟩
    | cons id queue =>
      rw [explore] at hr
      obtain ⟨found, hfound, hr⟩ := Outcome.bind_eq_ok.mp hr
      have hseen : (done ++ [id]) ++ (queue ++ found) = (done ++ id :: queue) ++ found := by simp
      have hlooked : ∀ id' ∈ done ++ [id], Looked blocks id' := by
        intro id' hid'
        rcases List.mem_append.mp hid' with hold | hnew
        · exact hdone id' hold
        · rw [List.mem_singleton.mp hnew]
          exact looked_of_unseen (h.exist id (List.mem_append_right _ List.mem_cons_self)) hfound
      rw [← hseen] at hr
      obtain ⟨hsub, hclosed⟩ := ih (h.step hfound) hlooked hr
      rw [hseen] at hsub
      exact ⟨fun seen hmem => hsub (List.mem_append_left _ hmem), hclosed⟩

theorem closed_of_reachable {start : Text} {reached : List Text} (hs : hasBlock blocks start = true)
    (h : reachable blocks start = .ok reached) : start ∈ reached ∧
    ∀ id ∈ reached, Looked blocks id ∧ ∀ target, Leads blocks id target → target ∈ reached := by
  rw [reachable, if_pos hs] at h
  obtain ⟨hsub, hclosed⟩ := closed_of_explore (Searching.begin hs) (fun id hid => absurd hid List.not_mem_nil) h
  exact ⟨hsub List.mem_cons_self, hclosed⟩

/-- From a block the search reaches a set that has the block and that no edge leaves. -/
theorem reachable_closed (hk : EdgesKnown blocks) {start : Text} (hs : hasBlock blocks start = true) :
    ∃ reached, reachable blocks start = .ok reached ∧ start ∈ reached ∧
      ∀ id ∈ reached, ∀ target, Leads blocks id target → target ∈ reached := by
  obtain ⟨reached, hreached⟩ := explore_succeeds hk (distinct blocks).length [start] [start]
  have h : reachable blocks start = .ok reached := by rw [reachable, if_pos hs, hreached]
  obtain ⟨hstart, hclosed⟩ := closed_of_reachable hs h
  exact ⟨reached, h, hstart, fun id hid => (hclosed id hid).2⟩

theorem block?_of_entryBlock {entry : Option Text} (h : entryBlock blocks entry = .ok (some b)) :
    block? blocks b.id = some b := by
  have hfrom : ∃ id, block? blocks id = some b := by
    unfold entryBlock at h
    split at h
    · rename_i hexplicit
      cases h
      obtain ⟨id, -, hid⟩ := Option.bind_eq_some_iff.mp hexplicit
      exact ⟨id, hid⟩
    · obtain ⟨candidates, -, h⟩ := Outcome.bind_eq_ok.mp h
      obtain ⟨id, -, hid⟩ := Option.bind_eq_some_iff.mp (Outcome.pure_eq_ok.mp h)
      exact ⟨id, hid⟩
  obtain ⟨id, hid⟩ := hfrom
  rw [id_of_block?_eq_some hid]
  exact hid

theorem hasBlock_of_entryBlock {entry : Option Text} (h : entryBlock blocks entry = .ok (some b)) :
    hasBlock blocks b.id = true :=
  hasBlock_iff.mpr ⟨b, block?_of_entryBlock h⟩

theorem lookup_of_entryBlock {entry : Option Text} (h : entryBlock blocks entry = .ok (some b)) :
    lookup blocks (.str b.id) = .ok (some b) := by
  rw [lookup_str, block?_of_entryBlock h]

end Switchboard.Graph

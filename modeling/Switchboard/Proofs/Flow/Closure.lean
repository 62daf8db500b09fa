import Switchboard.Proofs.Flow.Reach
import Mathlib.Logic.Relation

/-! # The closure of a block

What a search reaches are the ids with a path from its start, and no others. The search itself goes through a queue
until this is empty; nothing bounds it but the graph, as no id comes into the queue twice. So it ends on every graph,
and it has then looked once at everything that it has reached.
-/
namespace Switchboard.Graph
open Relation (ReflTransGen TransGen)

variable {K : Type} {blocks : List (Block K)} {id start target : Text}

theorem rank_lt_of_path {R : Text → Text → Prop} (rank : Text → Nat)
    (h : ∀ id target, R id target → rank id < rank target) (hpath : TransGen R id target) :
    rank id < rank target := by
  induction hpath with
  | single hleads => exact h _ _ hleads
  | tail _ hleads ih => exact Nat.lt_trans ih (h _ _ hleads)

/-- A search that goes through its queue to the end: what has been seen and what is in the queue at first, the ids that
are looked at from there, in order, and all that has been seen when the queue is empty. -/
inductive Search (blocks : List (Block K)) : List Text → List Text → List Text → List Text → Prop where
  | ended {seen : List Text} : Search blocks seen [] [] seen
  | look {seen queue found looked reached : List Text} {id : Text} (finds : unseen blocks seen id = .ok found)
      (rest : Search blocks (seen ++ found) (queue ++ found) looked reached) :
      Search blocks seen (id :: queue) (id :: looked) reached

/-- What is kept along the edges and holds of everything seen holds of all that is reached. -/
theorem Search.forall_reached {P : Text → Prop} {seen queue looked reached : List Text}
    (h : Search blocks seen queue looked reached) (hP : ∀ id, P id → ∀ target, Leads blocks id target → P target)
    (hseen : ∀ id ∈ seen, P id) (hqueue : queue ⊆ seen) : ∀ id ∈ reached, P id := by
  induction h with
  | ended => exact hseen
  | @look seen queue found looked reached id finds rest ih =>
    have hid : P id := hseen id (hqueue List.mem_cons_self)
    apply ih
    · intro target hmem
      rcases List.mem_append.mp hmem with hold | hnew
      · exact hseen target hold
      · exact hP id hid target ((mem_unseen_iff finds).mp hnew).1
    · intro target hmem
      rcases List.mem_append.mp hmem with hold | hnew
      · exact List.mem_append_left _ (hqueue (List.mem_cons_of_mem _ hold))
      · exact List.mem_append_right _ hnew

/-- A bounded search that has its fuel is one that goes on to the end, and it looks at every id once. -/
theorem search_of_explore {fuel : Nat} {done queue reached : List Text} (h : Searching blocks fuel done queue)
    (hr : explore blocks fuel (done ++ queue) queue = .ok reached) :
    ∃ looked, Search blocks (done ++ queue) queue looked reached ∧ reached = done ++ looked ∧ reached.Nodup := by
  induction fuel generalizing done queue with
  | zero =>
    obtain rfl := h.queue_eq_nil
    cases hr
    exact ⟨[], .ended, rfl, h.nodup⟩
  | succ fuel ih =>
    cases queue with
    | nil =>
      cases hr
      exact ⟨[], .ended, rfl, h.nodup⟩
    | cons id queue =>
      rw [explore] at hr
      obtain ⟨found, hfound, hr⟩ := Outcome.bind_eq_ok.mp hr
      have hseen : (done ++ [id]) ++ (queue ++ found) = (done ++ id :: queue) ++ found := by simp
      rw [← hseen] at hr
      obtain ⟨looked, hsearch, hreached, hnodup⟩ := ih (h.step hfound) hr
      rw [hseen] at hsearch
      exact ⟨id :: looked, .look hfound hsearch, by simp [hreached], hnodup⟩

theorem search_of_reachable {reached : List Text} (hs : hasBlock blocks start = true)
    (h : reachable blocks start = .ok reached) : Search blocks [start] [start] reached reached ∧ reached.Nodup := by
  rw [reachable, if_pos hs] at h
  obtain ⟨looked, hsearch, hreached, hnodup⟩ := search_of_explore (Searching.begin hs) h
  obtain rfl : reached = looked := hreached
  exact ⟨hsearch, hnodup⟩

theorem mem_reachable_iff {reached : List Text} (hs : hasBlock blocks start = true)
    (h : reachable blocks start = .ok reached) : id ∈ reached ↔ ReflTransGen (Leads blocks) start id := by
  obtain ⟨hstart, hclosed⟩ := closed_of_reachable hs h
  constructor
  · refine (search_of_reachable hs h).1.forall_reached (fun id hid target hleads => hid.tail hleads) ?_
      (List.Subset.refl _) id
    intro id hid
    rw [List.mem_singleton.mp hid]
  · intro hpath
    induction hpath with
    | refl => exact hstart
    | @tail source target _ hleads hsource => exact (hclosed source hsource).2 target hleads

theorem hasBlock_of_path (hs : hasBlock blocks start = true) (h : ReflTransGen (Leads blocks) start id) :
    hasBlock blocks id = true := by
  cases h with
  | refl => exact hs
  | tail _ hleads =>
    obtain ⟨_, _, _, _, _, hhas⟩ := hleads
    exact hhas

/-- Where the edges can be looked up, the search from an id ends. It reaches nothing where there is no block, and
otherwise the blocks with a path from there; then it has gone through its queue to the end, and what it has looked at is
what it has reached, each id once. -/
theorem reachable_is_closure (hk : EdgesKnown blocks) (start : Text) :
    ∃ reached, reachable blocks start = .ok reached ∧
      (hasBlock blocks start = false → reached = []) ∧
      (hasBlock blocks start = true →
        (∀ id, id ∈ reached ↔ hasBlock blocks id = true ∧ ReflTransGen (Leads blocks) start id) ∧
        Search blocks [start] [start] reached reached ∧ reached.Nodup) := by
  cases hs : hasBlock blocks start with
  | false => exact ⟨[], by rw [reachable, hs]; rfl, fun _ => rfl, fun htrue => absurd htrue Bool.false_ne_true⟩
  | true =>
    obtain ⟨reached, h, -⟩ := reachable_closed hk hs
    refine ⟨reached, h, fun hfalse => absurd hfalse.symm Bool.false_ne_true, fun _ => ⟨fun id => ?_,
      search_of_reachable hs h⟩⟩
    rw [mem_reachable_iff hs h]
    exact ⟨fun hpath => ⟨hasBlock_of_path hs hpath, hpath⟩, And.right⟩

theorem reachable_is_closure_cyclic :
    let block (id : Text) (next : List Text) : Block Unit := {
      id, type := .say, config := [("text", .str "Hello")], position := ⟨(), ()⟩, next }
    let blocks := [block "hello" ["hello", "ring"], block "ring" ["gone", "hello"], block "apart" ["ring"],
      block "hello" ["apart"]]
    EdgesKnown blocks ∧ reachable blocks "hello" = .ok (["hello", "ring"] : List Text) ∧
      ReflTransGen (Leads blocks) "hello" "ring" ∧ ¬ ReflTransGen (Leads blocks) "hello" "apart" ∧
      Search blocks ["hello"] ["hello"] ["hello", "ring"] ["hello", "ring"] := by
  intro block blocks
  have hk : EdgesKnown blocks := by
    intro b hb
    have hmem := mem_of_mem_distinct hb
    simp only [blocks, List.mem_cons, List.not_mem_nil, or_false] at hmem
    rcases hmem with rfl | rfl | rfl | rfl <;> exact ⟨_, rfl⟩
  obtain ⟨reached, h, -, hfull⟩ := reachable_is_closure hk "hello"
  have hreached : reachable blocks "hello" = .ok (["hello", "ring"] : List Text) := rfl
  obtain rfl : reached = (["hello", "ring"] : List Text) := Except.ok.inj (h.symm.trans hreached)
  obtain ⟨hpaths, hsearch, -⟩ := hfull rfl
  refine ⟨hk, hreached, ((hpaths "ring").mp (by decide)).2, fun hpath => ?_, hsearch⟩
  have hmem : ("apart" : Text) ∈ (["hello", "ring"] : List Text) := (hpaths "apart").mpr ⟨rfl, hpath⟩
  exact absurd hmem (by decide)

end Switchboard.Graph

import Switchboard.Proofs.Text.Basic
import Switchboard.Proofs.Value.Kinds
import Switchboard.Value.Written

/-! # Which values are written

Whether a value can be written is told by its scalars, so what leaves these alone changes nothing about it: a value has a
text exactly when every integer in it has one, and it is read back as it is when every text in it is.
-/
namespace Switchboard.Value

def isJoined (v : Value) : Bool :=
  v.all fun w => w.asText?.all fun t => t.joined == t

mutual

theorem isSome_quoted? : (v : Value) → v.quoted?.isSome = v.isWritable
  | .null | .bool _ | .float _ | .str _ => by simp [quoted?, isWritable, all, fits]
  | .int n => by simp [quoted?, isWritable, all, fits]
  | .arr items => by
    rw [quoted?, Option.isSome_map, isSome_quotedItems? items, isWritable, all]
  | .obj entries => by
    rw [quoted?, Option.isSome_map, isSome_quotedEntries? entries, isWritable, all]

theorem isSome_quotedItems? : (items : List Value) → (quotedItems? items).isSome = allItems fits items
  | [] => by simp [quotedItems?, allItems]
  | v :: rest => by
    have hv := isSome_quoted? v
    have hrest := isSome_quotedItems? rest
    rw [isWritable] at hv
    rw [allItems, ← hv, ← hrest, quotedItems?]
    cases v.quoted? <;> cases quotedItems? rest <;> rfl

theorem isSome_quotedEntries? :
    (entries : List (Text × Value)) → (quotedEntries? entries).isSome = allEntries fits entries
  | [] => by simp [quotedEntries?, allEntries]
  | (key, v) :: rest => by
    have hv := isSome_quoted? v
    have hrest := isSome_quotedEntries? rest
    rw [isWritable] at hv
    rw [allEntries, ← hv, ← hrest, quotedEntries?]
    cases v.quoted? <;> cases quotedEntries? rest <;> rfl

end

theorem hasText_iff {v : Value} : v.hasText = true ↔ v.isText = true ∨ v.isWritable = true := by
  rw [← isSome_quoted?]
  cases v <;> simp [hasText, text?, isText]

section
variable {p : Value → Bool}

theorem allItems_eq (items : List Value) : allItems p items = items.all (all p) := by
  induction items with
  | nil => simp [allItems]
  | cons v rest ih => simp [allItems, ih]

theorem allEntries_eq (entries : List (Text × Value)) :
    allEntries p entries = entries.all fun entry => p (.str entry.1) && entry.2.all p := by
  induction entries with
  | nil => simp [allEntries]
  | cons entry rest ih => simp [allEntries, ih]

mutual

/-- What makes no difference between null and a number with a fraction is not changed when numbers are left out. -/
theorem all_finiteOnly (hp : ∀ x, p (.float x) = p .null) : (v : Value) → v.finiteOnly.all p = v.all p
  | .null | .bool _ | .int _ | .str _ => by simp [finiteOnly]
  | .float x => by
    rw [finiteOnly]
    split <;> simp [all, hp]
  | .arr items => by rw [finiteOnly, all, all, allItems_finiteItems hp items]
  | .obj entries => by rw [finiteOnly, all, all, allEntries_finiteEntries hp entries]

theorem allItems_finiteItems (hp : ∀ x, p (.float x) = p .null) :
    (items : List Value) → allItems p (finiteItems items) = allItems p items
  | [] => by simp [finiteItems]
  | v :: rest => by rw [finiteItems, allItems, allItems, all_finiteOnly hp v, allItems_finiteItems hp rest]

theorem allEntries_finiteEntries (hp : ∀ x, p (.float x) = p .null) :
    (entries : List (Text × Value)) → allEntries p (finiteEntries entries) = allEntries p entries
  | [] => by simp [finiteEntries]
  | (key, v) :: rest => by
    rw [finiteEntries, allEntries, allEntries, all_finiteOnly hp v, allEntries_finiteEntries hp rest]

end

end

theorem isWritable_finiteOnly (v : Value) : v.finiteOnly.isWritable = v.isWritable :=
  all_finiteOnly (fun _ => rfl) v

theorem hasText_finiteOnly {v : Value} (h : v.hasText = true) : v.finiteOnly.hasText = true := by
  rw [hasText_iff] at h
  rcases h with h | h
  · obtain ⟨t, rfl⟩ := isText_iff.mp h
    simp [finiteOnly, hasText, text?]
  · rw [hasText_iff, isWritable_finiteOnly]
    exact Or.inr h

mutual

/-- A value whose texts are read back as they are is read back as it is. -/
theorem reread_of_isJoined : (v : Value) → v.isJoined = true → v.reread = v
  | .null, _ | .bool _, _ | .int _, _ | .float _, _ => by simp [reread]
  | .str t, h => by
    have ht : t.joined = t := by simpa [isJoined, all, asText?] using h
    rw [reread, ht]
  | .arr items, h => by
    rw [isJoined, all] at h
    rw [reread, rereadItems_of_joined items h]
  | .obj entries, h => by
    rw [isJoined, all] at h
    obtain ⟨hkeys, hsame⟩ := rereadEntries_of_joined entries h
    rw [reread, hkeys, if_pos rfl, hsame]

theorem rereadItems_of_joined : (items : List Value) →
    allItems (fun w => w.asText?.all fun t => t.joined == t) items = true → rereadItems items = items
  | [], _ => by rw [rereadItems]
  | v :: rest, h => by
    rw [allItems, Bool.and_eq_true] at h
    rw [rereadItems, reread_of_isJoined v h.1, rereadItems_of_joined rest h.2]

theorem rereadEntries_of_joined : (entries : List (Text × Value)) →
    allEntries (fun w => w.asText?.all fun t => t.joined == t) entries = true →
    (entries.all fun entry => entry.1.joined == entry.1) = true ∧ rereadEntries entries = entries
  | [], _ => by simp [rereadEntries]
  | (key, v) :: rest, h => by
    rw [allEntries, Bool.and_eq_true, Bool.and_eq_true] at h
    obtain ⟨⟨hkey, hv⟩, hrest⟩ := h
    have hsame : key.joined = key := by simpa [asText?] using hkey
    obtain ⟨hkeys, hentries⟩ := rereadEntries_of_joined rest hrest
    rw [rereadEntries, hsame, reread_of_isJoined v hv, hentries, List.all_cons, hkeys, hsame, beq_self_eq_true]
    exact ⟨rfl, rfl⟩

end

end Switchboard.Value

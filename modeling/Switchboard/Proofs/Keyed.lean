import Mathlib.Data.List.Nodup

/-! # Items with distinct keys

Blocks are found by their ids, options by their digits and rows by their ids or numbers: in a list, by the first item
that has the key. Where no key stands twice every item is the one that is found for its key.
-/
namespace Switchboard

theorem find?_of_mem {α β : Type} {key : α → β} {items : List α} (hk : (items.map key).Nodup) {a : α}
    (ha : a ∈ items) {p : α → Bool} (hp : ∀ b, p b = true ↔ key b = key a) : items.find? p = some a := by
  cases hf : items.find? p with
  | none => exact absurd ((hp a).mpr rfl) (List.find?_eq_none.mp hf a ha)
  | some b =>
    have hb := (hp b).mp (List.find?_some hf)
    rw [List.inj_on_of_nodup_map hk (List.mem_of_find?_eq_some hf) ha hb]

end Switchboard

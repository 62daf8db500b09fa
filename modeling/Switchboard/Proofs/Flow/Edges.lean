import Switchboard.Flow.Block
import Switchboard.Proofs.Outcome

/-! # Where a block leads

The edges of a block are values, of which the texts are ids. A block leads to every block that follows, to the
target of every option if it is a menu, and to the block that it names for failures; and it names no id twice.
-/
namespace Switchboard

namespace Value

theorem alike_str_iff {v : Value} {s : Text} : alike v (.str s) = true ↔ v = .str s := by
  cases v <;> simp [alike, scalarAlike, asInt?]

theorem str_alike_iff {v : Value} {s : Text} : alike (.str s) v = true ↔ v = .str s := by
  cases v with
  | str t =>
    rw [str.injEq, eq_comm (a := t)]
    simp [alike, scalarAlike]
  | _ => simp [alike, scalarAlike, asInt?]

@[simp] theorem asText?_eq_some {v : Value} {s : Text} : v.asText? = some s ↔ v = .str s := by
  cases v <;> simp [asText?]

theorem asText?_of_key? {v : Value} {key : Option Text} (h : v.key? = .ok key) : key = v.asText? := by
  cases v <;> simp_all [key?, asText?]

def addDistinct (kept : List Value) (v : Value) : List Value :=
  if kept.any (alike · v) then kept else kept ++ [v]

theorem distinct_eq (values : List Value) : distinct values = values.foldl addDistinct [] := rfl

theorem mem_addDistinct_str {kept : List Value} {v : Value} {s : Text} :
    .str s ∈ addDistinct kept v ↔ .str s ∈ kept ∨ v = .str s := by
  unfold addDistinct
  split
  · rename_i hany
    constructor
    · exact Or.inl
    · rintro (hmem | rfl)
      · exact hmem
      · obtain ⟨w, hw, hal⟩ := List.any_eq_true.mp hany
        exact alike_str_iff.mp hal ▸ hw
  · rw [List.mem_append, List.mem_singleton, eq_comm (a := Value.str s)]

theorem addDistinct_nodup {kept : List Value} (h : (kept.filterMap asText?).Nodup) (v : Value) :
    ((addDistinct kept v).filterMap asText?).Nodup := by
  unfold addDistinct
  split
  · exact h
  · rename_i hany
    cases hv : v.asText? with
    | none => rwa [List.filterMap_append, List.filterMap_cons_none hv, List.filterMap_nil, List.append_nil]
    | some s =>
      rw [List.filterMap_append, List.filterMap_cons_some hv, List.filterMap_nil, List.nodup_append]
      refine ⟨h, by simp, ?_⟩
      intro t ht t' ht' hne
      obtain ⟨w, hw, hwt⟩ := List.mem_filterMap.mp ht
      have hws : w = v := by
        rw [asText?_eq_some.mp hwt, asText?_eq_some.mp hv, hne, List.mem_singleton.mp ht']
      refine hany (List.any_eq_true.mpr ⟨w, hw, ?_⟩)
      rw [asText?_eq_some.mp hv] at hws ⊢
      exact alike_str_iff.mpr hws

theorem mem_distinct_str {values : List Value} {s : Text} : .str s ∈ distinct values ↔ .str s ∈ values := by
  have hfold : ∀ kept, .str s ∈ values.foldl addDistinct kept ↔ .str s ∈ kept ∨ .str s ∈ values := by
    induction values with
    | nil => simp
    | cons v rest ih =>
      intro kept
      rw [List.foldl_cons, ih, mem_addDistinct_str, List.mem_cons, or_assoc, eq_comm (a := v)]
  have h := hfold []
  rwa [← distinct_eq, List.mem_nil_iff, false_or] at h

theorem mem_of_mem_distinct {values : List Value} {v : Value} (h : v ∈ distinct values) : v ∈ values := by
  have hfold : ∀ kept, v ∈ values.foldl addDistinct kept → v ∈ kept ∨ v ∈ values := by
    clear h
    induction values with
    | nil => exact fun kept h => Or.inl h
    | cons w rest ih =>
      intro kept h
      rcases ih _ h with h | h
      · unfold addDistinct at h
        split at h
        · exact Or.inl h
        · rcases List.mem_append.mp h with h | h
          · exact Or.inl h
          · exact Or.inr (List.mem_singleton.mp h ▸ List.mem_cons_self)
      · exact Or.inr (List.mem_cons_of_mem w h)
  exact (hfold [] h).resolve_left List.not_mem_nil

/-- A value that comes after texts only is kept, as no text but itself is alike. -/
theorem mem_distinct_append (ids : List Text) (v : Value) : v ∈ distinct (ids.map .str ++ [v]) := by
  rw [distinct_eq, List.foldl_append, ← distinct_eq, List.foldl_cons, List.foldl_nil, addDistinct]
  split
  · rename_i hany
    obtain ⟨w, hw, hal⟩ := List.any_eq_true.mp hany
    obtain ⟨s, -, rfl⟩ := List.mem_map.mp (mem_of_mem_distinct hw)
    exact str_alike_iff.mp hal ▸ hw
  · exact List.mem_append_right _ List.mem_cons_self

theorem distinct_nodup (values : List Value) : ((distinct values).filterMap asText?).Nodup := by
  have hfold : ∀ kept, (kept.filterMap asText?).Nodup →
      ((values.foldl addDistinct kept).filterMap asText?).Nodup := by
    induction values with
    | nil => exact fun kept h => h
    | cons v rest ih => exact fun kept h => ih _ (addDistinct_nodup h v)
  rw [distinct_eq]
  exact hfold [] List.nodup_nil

theorem addDistinct_text (kept : List Text) (id : Text) :
    addDistinct (kept.map .str) (.str id) = (if id ∈ kept then kept else kept ++ [id]).map .str := by
  have hany : ((kept.map Value.str).any (alike · (.str id))) = decide (id ∈ kept) := by
    rw [Bool.eq_iff_iff, List.any_eq_true, decide_eq_true_iff]
    simp [alike_str_iff]
  rw [addDistinct, hany]
  by_cases hmem : id ∈ kept
  · simp [hmem]
  · simp [hmem]

theorem distinct_texts (ids : List Text) : distinct (ids.map .str) = ids.eraseDups.map .str := by
  have hfold : ∀ kept : List Text, (ids.map .str).foldl addDistinct (kept.map .str) =
      (kept ++ (ids.removeAll kept).eraseDups).map .str := by
    induction ids with
    | nil => simp [List.removeAll]
    | cons id rest ih =>
      intro kept
      rw [List.map_cons, List.foldl_cons, addDistinct_text, ih]
      by_cases hmem : id ∈ kept
      · simp [hmem, List.removeAll]
      · have hrest : rest.removeAll (kept ++ [id]) = (rest.removeAll kept).filter fun other => !other == id := by
          rw [List.removeAll, List.removeAll, List.filter_filter]
          refine List.filter_congr fun other _ => ?_
          by_cases hsame : other = id
          · simp [hsame]
          · simp [hsame]
        have hfirst : (id :: rest).removeAll kept = id :: rest.removeAll kept := by simp [List.removeAll, hmem]
        rw [if_neg hmem, hrest, hfirst, List.eraseDups_cons, List.append_assoc, List.singleton_append]
  have hall := hfold []
  rwa [List.map_nil, List.nil_append, List.removeAll, List.filter_eq_self.mpr (by simp)] at hall

theorem filter_addDistinct (kept : List Value) (v : Value) (s : Text) :
    (addDistinct kept v).filter (fun w => w.asText? != some s) =
      if v.asText? = some s then kept.filter fun w => w.asText? != some s
      else addDistinct (kept.filter fun w => w.asText? != some s) v := by
  by_cases hv : v.asText? = some s
  · rw [if_pos hv, addDistinct]
    split
    · rfl
    · simp [List.filter_append, hv]
  · have hsame : (fun w => (w.asText? != some s) && alike w v) = (alike · v) := by
      funext w
      by_cases hw : w.asText? = some s
      · rw [asText?_eq_some] at hw hv
        simp [hw, str_alike_iff, hv]
      · simp [hw]
    have hany : (kept.filter fun w => w.asText? != some s).any (alike · v) = kept.any (alike · v) := by
      rw [List.any_filter, hsame]
    rw [if_neg hv, addDistinct, addDistinct, hany]
    split
    · rfl
    · simp [List.filter_append, hv]

/-- Taking a text out of distinct values leaves the distinct ones of what is left without it. -/
theorem filter_distinct (values : List Value) (s : Text) :
    (distinct values).filter (fun w => w.asText? != some s) =
      distinct (values.filter fun w => w.asText? != some s) := by
  have hfold : ∀ kept, (values.foldl addDistinct kept).filter (fun w => w.asText? != some s) =
      (values.filter fun w => w.asText? != some s).foldl addDistinct (kept.filter fun w => w.asText? != some s) := by
    induction values with
    | nil => exact fun kept => rfl
    | cons v rest ih =>
      intro kept
      rw [List.foldl_cons, ih, filter_addDistinct]
      by_cases hv : v.asText? = some s
      · simp [hv]
      · simp [hv]
  exact hfold []

end Value

namespace Block

variable {K : Type} {b : Block K} {ids : List Text} {id : Text}

/-- The ids that a block leads to are the texts among its edges. -/
theorem edgeIds_eq_ok (h : b.edgeIds = .ok ids) :
    ∃ edges, b.edges = .ok edges ∧ (∀ v ∈ edges, ∃ key, v.key? = .ok key) ∧
      ids = edges.filterMap Value.asText? := by
  obtain ⟨edges, hedges, h⟩ := Outcome.bind_eq_ok.mp h
  obtain ⟨keys, hkeys, h⟩ := Outcome.bind_eq_ok.mp h
  refine ⟨edges, hedges, ?_, ?_⟩
  · intro v hv
    obtain ⟨key, -, hkey⟩ := Outcome.exists_of_mapM_eq_ok hkeys hv
    exact ⟨key, hkey⟩
  · rw [← Outcome.pure_eq_ok.mp h,
      Outcome.eq_map_of_mapM_eq_ok (fun v key hkey => Value.asText?_of_key? hkey) hkeys, List.filterMap_map]
    rfl

theorem edgeIds_nodup (h : b.edgeIds = .ok ids) : ids.Nodup := by
  obtain ⟨edges, hedges, -, rfl⟩ := edgeIds_eq_ok h
  obtain ⟨targets, -, h⟩ := Outcome.bind_eq_ok.mp hedges
  rw [← Outcome.pure_eq_ok.mp h]
  exact Value.distinct_nodup _

theorem mem_edges_str_iff {edges : List Value} (h : b.edges = .ok edges) : .str id ∈ edges ↔
    id ∈ b.next ∨ (∃ targets, b.optionTargets = .ok targets ∧ id ∈ targets) ∨ b.onFail? = some (.str id) := by
  obtain ⟨targets, htargets, h⟩ := Outcome.bind_eq_ok.mp h
  rw [← Outcome.pure_eq_ok.mp h, Value.mem_distinct_str, htargets]
  simp

theorem onFail_mem_edges {edges : List Value} {v : Value} (h : b.edges = .ok edges) (hv : b.onFail? = some v) :
    v ∈ edges := by
  obtain ⟨targets, -, h⟩ := Outcome.bind_eq_ok.mp h
  rw [← Outcome.pure_eq_ok.mp h, hv]
  exact Value.mem_distinct_append _ v

theorem text_or_onFail_of_mem_edges {edges : List Value} {v : Value} (h : b.edges = .ok edges) (hv : v ∈ edges) :
    (∃ id, v = .str id) ∨ b.onFail? = some v := by
  obtain ⟨targets, -, h⟩ := Outcome.bind_eq_ok.mp h
  rw [← Outcome.pure_eq_ok.mp h] at hv
  rcases List.mem_append.mp (Value.mem_of_mem_distinct hv) with hv | hv
  · obtain ⟨id, -, rfl⟩ := List.mem_map.mp hv
    exact Or.inl ⟨id, rfl⟩
  · exact Or.inr (Option.mem_toList.mp hv)

/-- A block leads to what follows, to the targets of its options and to what it names for failures. -/
theorem mem_edgeIds_iff (h : b.edgeIds = .ok ids) : id ∈ ids ↔
    id ∈ b.next ∨ (∃ targets, b.optionTargets = .ok targets ∧ id ∈ targets) ∨ b.onFail? = some (.str id) := by
  obtain ⟨edges, hedges, -, rfl⟩ := edgeIds_eq_ok h
  rw [← mem_edges_str_iff hedges]
  simp

theorem mem_of_optionFor {digits : Option Text} {option : MenuOption}
    (h : b.optionFor digits = .ok (some option)) : ∃ options, b.menuOptions = .ok options ∧ option ∈ options := by
  unfold optionFor at h
  split at h
  · cases h
  · cases h
  · obtain ⟨options, hoptions, h⟩ := Outcome.bind_eq_ok.mp h
    exact ⟨options, hoptions, List.mem_of_find?_eq_some (Outcome.pure_eq_ok.mp h)⟩

theorem mem_optionTargets {digits : Option Text} {option : MenuOption} (htype : b.type = .menu)
    (h : b.optionFor digits = .ok (some option)) (ht : option.target? = some id) :
    ∃ targets, b.optionTargets = .ok targets ∧ id ∈ targets := by
  obtain ⟨options, hoptions, hmem⟩ := mem_of_optionFor h
  refine ⟨options.filterMap MenuOption.target?, ?_, List.mem_filterMap.mpr ⟨option, hmem, ht⟩⟩
  rw [optionTargets, if_pos htype, hoptions]
  rfl

theorem target_mem_edgeIds {digits : Option Text} {option : MenuOption} (hids : b.edgeIds = .ok ids)
    (htype : b.type = .menu) (h : b.optionFor digits = .ok (some option)) (ht : option.target? = some id) :
    id ∈ ids :=
  (mem_edgeIds_iff hids).mpr (Or.inr (Or.inl (mem_optionTargets htype h ht)))

theorem firstNext_mem_edgeIds (hids : b.edgeIds = .ok ids) (h : b.firstNext? = some id) : id ∈ ids :=
  (mem_edgeIds_iff hids).mpr (Or.inl (List.mem_of_head? h))

theorem onFail_mem_edgeIds (hids : b.edgeIds = .ok ids) (h : b.onFail? = some (.str id)) : id ∈ ids :=
  (mem_edgeIds_iff hids).mpr (Or.inr (Or.inr h))

end Block
end Switchboard

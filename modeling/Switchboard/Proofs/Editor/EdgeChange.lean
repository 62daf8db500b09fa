import Switchboard.Editor.Edge
import Switchboard.Proofs.Flow.Options

/-! # Blocks that edges are added to and taken away from

Adding an edge and taking one away rewrite the options of a menu, and reading them again gives what was written,
but for options without digits. So a block that leads to certain blocks leads to them and to the new one after an
edge is added, and to all but one after the edges to it are taken away.
-/
namespace Switchboard

variable {K : Type} {b b' : Block K} {ids : List Text} {target : Text} {digit : Option Text}

namespace Block

/-- Everything the block leads to is a block of these ids. -/
def LeadsInto (ids : List Text) (b : Block K) : Prop :=
  ∃ edges, b.edges = .ok edges ∧ ∀ v ∈ edges, ∃ id ∈ ids, v = .str id

instance : Decidable (b.LeadsInto ids) :=
  decidable_of_iff ((match b.edges with
    | .ok edges => edges.all fun v => v.asText?.any fun id => ids.contains id
    | .error _ => false) = true) <| by
    unfold LeadsInto
    cases b.edges with
    | error fault => simp
    | ok edges => simp [List.all_eq_true, Option.any_eq_true, and_comm]

theorem leadsInto_iff : b.LeadsInto ids ↔ (∀ id ∈ b.next, id ∈ ids) ∧
    (∃ targets, b.optionTargets = .ok targets ∧ ∀ id ∈ targets, id ∈ ids) ∧
    ∀ v, b.onFail? = some v → ∃ id ∈ ids, v = .str id := by
  constructor
  · rintro ⟨edges, hedges, h⟩
    have hstr {id : Text} (hid : .str id ∈ edges) : id ∈ ids := by
      obtain ⟨id', hid', heq⟩ := h _ hid
      rwa [Value.str.inj heq]
    obtain ⟨targets, htargets, -⟩ := Outcome.bind_eq_ok.mp hedges
    refine ⟨?_, ⟨targets, htargets, ?_⟩, ?_⟩
    · intro id hid
      exact hstr ((mem_edges_str_iff hedges).mpr (Or.inl hid))
    · intro id hid
      exact hstr ((mem_edges_str_iff hedges).mpr (Or.inr (Or.inl ⟨targets, htargets, hid⟩)))
    · intro v hv
      exact h v (onFail_mem_edges hedges hv)
  · rintro ⟨hnext, ⟨targets, htargets, hin⟩, hfail⟩
    refine ⟨_, Outcome.bind_eq_ok.mpr ⟨targets, htargets, rfl⟩, ?_⟩
    intro v hv
    rcases List.mem_append.mp (Value.mem_of_mem_distinct hv) with hv | hv
    · obtain ⟨id, hid, rfl⟩ := List.mem_map.mp hv
      exact ⟨id, (List.mem_append.mp hid).elim (hnext id) (hin id), rfl⟩
    · exact hfail v (Option.mem_toList.mp hv)

theorem LeadsInto.mono {more : List Text} (h : b.LeadsInto ids) (hsub : ∀ id ∈ ids, id ∈ more) :
    b.LeadsInto more := by
  obtain ⟨edges, hedges, hin⟩ := h
  refine ⟨edges, hedges, ?_⟩
  intro v hv
  obtain ⟨id, hid, rfl⟩ := hin v hv
  exact ⟨id, hsub id hid, rfl⟩

theorem LeadsInto.options (h : b.LeadsInto ids) (htype : b.type = .menu) :
    ∃ options, b.menuOptions = .ok options ∧ ∀ o ∈ options, ∀ id, o.target? = some id → id ∈ ids := by
  obtain ⟨-, ⟨targets, htargets, hin⟩, -⟩ := leadsInto_iff.mp h
  rw [optionTargets, if_pos htype] at htargets
  obtain ⟨options, hoptions, htargets⟩ := Outcome.bind_eq_ok.mp htargets
  refine ⟨options, hoptions, ?_⟩
  intro o ho id hid
  refine hin id ?_
  rw [← Outcome.pure_eq_ok.mp htargets]
  exact List.mem_filterMap.mpr ⟨o, ho, hid⟩

/-- A menu leads to what follows, to the targets of the options that have been written into it, and to what it
names for failures. -/
theorem leadsInto_of_written {options : List MenuOption} (htype : b.type = .menu)
    (hconfig : b.config.get "options" = .arr (options.map MenuOption.toValue)) (hnext : ∀ id ∈ b.next, id ∈ ids)
    (hoptions : ∀ o ∈ options, ∀ id, o.target? = some id → id ∈ ids)
    (hfail : ∀ v, b.onFail? = some v → ∃ id ∈ ids, v = .str id) : b.LeadsInto ids := by
  refine leadsInto_iff.mpr ⟨hnext, ⟨(options.filterMap MenuOption.stored?).filterMap MenuOption.target?, ?_, ?_⟩, hfail⟩
  · exact optionTargets_of_menuOptions htype (menuOptions_of_written hconfig)
  · intro id hid
    obtain ⟨o, ho, htarget⟩ := List.mem_filterMap.mp (MenuOption.mem_targets_of_stored hid)
    exact hoptions o ho id htarget

theorem leadsInto_of_no_menu (htype : b.type ≠ .menu) (hnext : ∀ id ∈ b.next, id ∈ ids)
    (hfail : ∀ v, b.onFail? = some v → ∃ id ∈ ids, v = .str id) : b.LeadsInto ids :=
  leadsInto_iff.mpr ⟨hnext, ⟨[], by rw [optionTargets, if_neg htype], by simp⟩, hfail⟩

/-- What an edge cannot change: the id, the type and the place of a block. -/
def outline (b : Block K) : Text × BlockType × Position K := (b.id, b.type, b.position)

end Block

namespace Edge

open Block

theorem mem_bindFirst? {test : MenuOption → Bool} {options bound : List MenuOption}
    (h : bindFirst? test target options = some bound) {o : MenuOption} (ho : o ∈ bound) :
    o ∈ options ∨ o.target = some target := by
  induction options generalizing bound with
  | nil => cases h
  | cons first rest ih =>
    unfold bindFirst? at h
    split at h
    · cases h
      rcases List.mem_cons.mp ho with rfl | ho
      · exact Or.inr rfl
      · exact Or.inl (List.mem_cons_of_mem _ ho)
    · obtain ⟨others, hothers, rfl⟩ := Option.map_eq_some_iff.mp h
      rcases List.mem_cons.mp ho with rfl | ho
      · exact Or.inl List.mem_cons_self
      · exact (ih hothers ho).imp_left (List.mem_cons_of_mem _)

theorem mem_bindOption {options : List MenuOption} {o : MenuOption} (ho : o ∈ bindOption options target digit) :
    o ∈ options ∨ o.target = some target := by
  unfold bindOption at ho
  split at ho
  · rename_i d
    cases hbound : bindFirst? (fun o => o.digit == d) target options with
    | some bound =>
      rw [hbound] at ho
      exact mem_bindFirst? hbound ho
    | none =>
      rw [hbound] at ho
      rcases List.mem_append.mp ho with ho | ho
      · exact Or.inl ho
      · exact Or.inr (congrArg MenuOption.target (List.mem_singleton.mp ho))
  · split at ho
    · exact Or.inl ho
    · cases hbound : bindFirst? (fun o => o.target?.isNone) target options with
      | some bound =>
        rw [hbound] at ho
        exact mem_bindFirst? hbound ho
      | none =>
        rw [hbound] at ho
        exact Or.inl ho

theorem mem_next_of_add {id : Text}
    (h : id ∈ if b.next.contains target then b.next else b.next ++ [target]) : id ∈ b.next ∨ id = target := by
  split at h
  · exact Or.inl h
  · exact (List.mem_append.mp h).imp_right List.mem_singleton.mp

theorem get_withOptions (config : Entries) (options : List MenuOption) :
    (withOptions config options).get "options" = .arr (options.map MenuOption.toValue) := by
  rw [withOptions, Entries.get, Entries.get?_put, if_pos rfl, Option.getD_some]

theorem get_withOptions_of_ne {key : Text} (h : key ≠ "options") (config : Entries) (options : List MenuOption) :
    (withOptions config options).get key = config.get key := by
  rw [withOptions, Entries.get, Entries.get?_put, if_neg h, ← Entries.get]

theorem add_outline (h : add b target digit = .ok b') : b'.outline = b.outline := by
  by_cases htype : b.type = .menu
  · simp only [add, if_pos htype] at h
    obtain ⟨options, -, h⟩ := Outcome.bind_eq_ok.mp h
    rw [← Outcome.pure_eq_ok.mp h]
    rfl
  · simp only [add, if_neg htype] at h
    rw [← Outcome.pure_eq_ok.mp h]
    rfl

theorem add_of_addAt {digit : Value} (h : addAt b target digit = .ok b') : ∃ digit, add b target digit = .ok b' := by
  unfold addAt at h
  split at h
  · obtain ⟨options, -, h⟩ := Outcome.bind_eq_ok.mp h
    obtain ⟨digit, -, h⟩ := Outcome.bind_eq_ok.mp h
    exact ⟨some digit, h⟩
  · exact ⟨none, h⟩

theorem addAt_outline {digit : Value} (h : addAt b target digit = .ok b') : b'.outline = b.outline := by
  obtain ⟨digit, h⟩ := add_of_addAt h
  exact add_outline h

theorem addAt_ofText? (b : Block K) (target : Text) (digit : Option Text) :
    addAt b target (.ofText? digit) = add b target digit := by
  by_cases htype : b.type = .menu
  · cases digit with
    | none => simp [addAt, Value.ofText?, Value.isNull]
    | some d =>
      rw [addAt, if_pos ⟨htype, rfl⟩]
      simp only [add, if_pos htype]
      cases b.menuOptions <;> rfl
  · simp [addAt, add, htype]

/-- A block to which an edge is added leads to the new block, and to no others but the old ones. -/
theorem add_leadsInto (h : b.LeadsInto ids) (htarget : target ∈ ids) (digit : Option Text) :
    ∃ b', add b target digit = .ok b' ∧ b'.LeadsInto ids := by
  obtain ⟨hnext, -, hfail⟩ := leadsInto_iff.mp h
  have hnext' : ∀ id ∈ (if b.next.contains target then b.next else b.next ++ [target]), id ∈ ids := by
    intro id hid
    rcases mem_next_of_add hid with hid | rfl
    · exact hnext id hid
    · exact htarget
  by_cases htype : b.type = .menu
  · obtain ⟨options, hoptions, hin⟩ := h.options htype
    refine ⟨_, by rw [add, if_pos htype, hoptions]; rfl, ?_⟩
    refine leadsInto_of_written htype (get_withOptions _ _) hnext' ?_ ?_
    · intro o ho id hid
      rcases mem_bindOption ho with ho | ho
      · exact hin o ho id hid
      · rw [MenuOption.target?, ho] at hid
        rw [← Option.some.inj (Option.filter_eq_some_iff.mp hid).1]
        exact htarget
    · intro v hv
      rw [onFail?, get_withOptions_of_ne (by decide)] at hv
      exact hfail v hv
  · refine ⟨_, by rw [add, if_neg htype]; rfl, ?_⟩
    exact leadsInto_of_no_menu htype hnext' hfail

theorem leadsTo_str {edge : Text} : leadsTo (.str target) edge = true ↔ edge = target := by
  rw [leadsTo, Value.alike_str_iff, Value.str.injEq]

theorem get_stripOnFail_of_ne {key : Text} (h : key ≠ "on_fail") (config : Entries) (gone : Value) :
    (stripOnFail config gone).get key = config.get key := by
  unfold stripOnFail
  split
  · rw [Entries.get, Entries.get?_put, if_neg h, ← Entries.get]
  · rfl

theorem onFail?_of_stripOnFail {config : Entries} {v : Value}
    (h : ((stripOnFail config (.str target)).get "on_fail").truthy? = some v) :
    (config.get "on_fail").truthy? = some v ∧ v ≠ .str target := by
  unfold stripOnFail at h
  split at h
  · rw [Entries.get, Entries.get?_put, if_pos rfl] at h
    cases h
  · rename_i halike
    refine ⟨h, ?_⟩
    rintro rfl
    unfold Value.truthy? at h
    split at h
    · exact halike (Value.alike_str_iff.mpr (Option.some.inj h))
    · cases h

theorem target_of_unbind {o : MenuOption} {id : Text} (h : (unbind (.str target) o).target? = some id) :
    o.target? = some id ∧ id ≠ target := by
  obtain ⟨hid, hfilled⟩ := Option.filter_eq_some_iff.mp h
  obtain ⟨htarget, hkept⟩ := Option.filter_eq_some_iff.mp hid
  refine ⟨Option.filter_eq_some_iff.mpr ⟨htarget, hfilled⟩, ?_⟩
  rintro rfl
  simp [leadsTo_str.mpr rfl] at hkept

theorem strip_outline {gone : Value} (h : strip b gone = .ok b') : b'.outline = b.outline := by
  obtain ⟨config, -, h⟩ := Outcome.bind_eq_ok.mp h
  rw [← Outcome.pure_eq_ok.mp h]
  rfl

/-- A block from which the edges to a target are taken away leads to the other blocks it led to. -/
theorem strip_leadsInto (h : b.LeadsInto ids) (target : Text) :
    ∃ b', strip b (.str target) = .ok b' ∧ b'.LeadsInto (ids.filter (· != target)) := by
  obtain ⟨hnext, ⟨targets, htargets, hin⟩, hfail⟩ := leadsInto_iff.mp h
  have hother {id : Text} (hid : id ∈ ids) (hne : id ≠ target) : id ∈ ids.filter (· != target) :=
    List.mem_filter.mpr ⟨hid, bne_iff_ne.mpr hne⟩
  have hnext' : ∀ id ∈ b.next.filter (fun edge => !leadsTo (.str target) edge), id ∈ ids.filter (· != target) := by
    intro id hid
    obtain ⟨hid, hkept⟩ := List.mem_filter.mp hid
    refine hother (hnext id hid) ?_
    rintro rfl
    simp [leadsTo_str.mpr rfl] at hkept
  have hfail' {config : Entries} (hconfig : config.get "on_fail" = b.config.get "on_fail") {v : Value}
      (hv : ((stripOnFail config (.str target)).get "on_fail").truthy? = some v) :
      ∃ id ∈ ids.filter (· != target), v = .str id := by
    obtain ⟨hv, hne⟩ := onFail?_of_stripOnFail hv
    rw [hconfig] at hv
    obtain ⟨id, hid, rfl⟩ := hfail v hv
    exact ⟨id, hother hid fun heq => hne (congrArg Value.str heq), rfl⟩
  by_cases hmenu : b.type = .menu ∧ b.config.has "options" = true
  · obtain ⟨options, hoptions, hin⟩ := h.options hmenu.1
    refine ⟨_, by rw [strip, stripOptions, if_pos hmenu, hoptions]; rfl, ?_⟩
    have hwritten := (get_stripOnFail_of_ne (by decide) _ (.str target)).trans
      (get_withOptions b.config (options.map (unbind (.str target))))
    refine leadsInto_of_written hmenu.1 hwritten hnext' ?_ ?_
    · intro p hp id hid
      obtain ⟨o, ho, rfl⟩ := List.mem_map.mp hp
      obtain ⟨hid, hne⟩ := target_of_unbind hid
      exact hother (hin o ho id hid) hne
    · exact fun v => hfail' (get_withOptions_of_ne (by decide) _ _)
  · refine ⟨_, by rw [strip, stripOptions, if_neg hmenu]; rfl, ?_⟩
    refine leadsInto_iff.mpr ⟨hnext', ⟨[], optionTargets_of_null ?_, by simp⟩, fun v => hfail' rfl⟩
    intro htype
    have hnone : b.config.get? "options" = none := by simpa [Entries.has] using fun hhas => hmenu ⟨htype, hhas⟩
    rw [get_stripOnFail_of_ne (by decide), Entries.get, hnone]
    rfl

end Edge
end Switchboard

import Switchboard.Proofs.Flow.Edges
import Switchboard.Proofs.Text.Blank

/-! # The options of a menu

The options are read from values, and where edges are changed they are written as values again. An option is read with
its digits trimmed, and one without digits is left out; so what has been written is read again as it was if all digits
are trimmed and not empty.
-/
namespace Switchboard

namespace MenuOption

/-- The option as it is read again once it is written into a configuration. -/
def stored? (o : MenuOption) : Option MenuOption :=
  if o.digit = "" then none else some { o with digit := Text.trim o.digit }

theorem target_of_stored? {o p : MenuOption} (h : o.stored? = some p) : p.target? = o.target? := by
  unfold stored? at h
  split at h
  · cases h
  · cases h
    rfl

theorem stored?_eq_self {o : MenuOption} (htrim : Text.trim o.digit = o.digit) (hne : o.digit ≠ "") :
    o.stored? = some o := by
  rw [stored?, if_neg hne, htrim]

theorem trim_of_readDigit {v : Value} {digit : Text} (h : readDigit v = .done digit) : Text.trim digit = digit := by
  unfold readDigit at h
  split at h
  · cases h
  · split at h
    · rw [← Reading.done.inj h, Text.trim_trim]
    · cases h

theorem trim_digit_of_read {entries : Entries} {o : MenuOption} (h : read entries = .done o) :
    Text.trim o.digit = o.digit := by
  obtain ⟨_, _, hlabel, -, rfl⟩ := Reading.seq_eq_done.mp h
  obtain ⟨_, _, hdigit, -, rfl⟩ := Reading.seq_eq_done.mp hlabel
  obtain ⟨digit, hfield, rfl⟩ := Reading.map_eq_done.mp hdigit
  obtain ⟨v, -, hread⟩ := Reading.field_eq_done.mp hfield
  exact trim_of_readDigit hread

theorem filterMap_stored?_eq_self {options : List MenuOption} (htrim : ∀ o ∈ options, Text.trim o.digit = o.digit)
    (hfilled : ∀ o ∈ options, o.digit ≠ "") : options.filterMap stored? = options := by
  rw [List.filterMap_congr fun o ho => stored?_eq_self (htrim o ho) (hfilled o ho), List.filterMap_some]

/-- No target comes from writing the options and reading them again. -/
theorem mem_targets_of_stored {options : List MenuOption} {id : Text}
    (h : id ∈ (options.filterMap stored?).filterMap target?) : id ∈ options.filterMap target? := by
  obtain ⟨p, hp, htarget⟩ := List.mem_filterMap.mp h
  obtain ⟨o, ho, hstored⟩ := List.mem_filterMap.mp hp
  exact List.mem_filterMap.mpr ⟨o, ho, target_of_stored? hstored ▸ htarget⟩

end MenuOption

namespace Block

variable {K : Type} {b b' : Block K} {options : List MenuOption}

theorem readOption_toValue (o : MenuOption) : readOption o.toValue = .ok o.stored? := by
  obtain ⟨digit, label, target⟩ := o
  have hlabel : Reading.nullable Reading.text (Value.ofText? label) = .done label := by cases label <;> rfl
  have htarget : Reading.nullable Reading.text (Value.ofText? target) = .done target := by cases target <;> rfl
  have hread : MenuOption.read [("digit", .str digit), ("label", .ofText? label), ("target", .ofText? target)] =
      .done ⟨Text.trim digit, label, target⟩ := by
    change MenuOption.mk <$> Reading.under (.field "digit") (Reading.done (Text.trim digit))
      <*> Reading.under (.field "label") (Reading.nullable Reading.text (Value.ofText? label))
      <*> Reading.under (.field "target") (Reading.nullable Reading.text (Value.ofText? target)) = _
    rw [hlabel, htarget]
    rfl
  by_cases hdigit : digit = ""
  · subst hdigit
    rfl
  · have hget : Entries.get [("digit", .str digit), ("label", .ofText? label), ("target", .ofText? target)] "digit" =
        .str digit := rfl
    rw [MenuOption.toValue, readOption.eq_def]
    simp [hget, hread, hdigit, MenuOption.stored?, Reading.outcome, Functor.map, Except.map]

theorem menuOptions_of_written (h : b.config.get "options" = .arr (options.map MenuOption.toValue)) :
    b.menuOptions = .ok (options.filterMap MenuOption.stored?) := by
  have hitems : optionItems b.config = .ok (options.map MenuOption.toValue) := by
    rw [optionItems, h]
    cases options <;> rfl
  have hread : (options.map MenuOption.toValue).mapM readOption = .ok (options.map MenuOption.stored?) := by
    rw [List.mapM_map]
    exact Outcome.mapM_eq_ok_map fun o _ => readOption_toValue o
  rw [menuOptions, hitems]
  simp only [bind, Except.bind, hread, pure, Except.pure, List.filterMap_map]
  rfl

theorem trim_digit_of_menuOptions (h : b.menuOptions = .ok options) {o : MenuOption} (ho : o ∈ options) :
    Text.trim o.digit = o.digit := by
  obtain ⟨items, -, h⟩ := Outcome.bind_eq_ok.mp h
  obtain ⟨found, hfound, h⟩ := Outcome.bind_eq_ok.mp h
  rw [← Outcome.pure_eq_ok.mp h] at ho
  obtain ⟨_, hmem, rfl⟩ := List.mem_filterMap.mp ho
  obtain ⟨item, -, hread⟩ := Outcome.mem_of_mapM_eq_ok hfound hmem
  unfold readOption at hread
  split at hread
  · split at hread
    · cases hread
    · cases hread
    · obtain ⟨_, ho, hsame⟩ := Outcome.map_eq_ok.mp hread
      cases hsame
      exact MenuOption.trim_digit_of_read (Reading.outcome_eq_ok.mp ho)
  · cases hread

/-- Options that have been written with trimmed digits are read again as they are. -/
theorem menuOptions_of_kept (hconfig : b.config.get "options" = .arr (options.map MenuOption.toValue))
    (htrim : ∀ o ∈ options, Text.trim o.digit = o.digit) (hfilled : ∀ o ∈ options, o.digit ≠ "") :
    b.menuOptions = .ok options := by
  rw [menuOptions_of_written hconfig, MenuOption.filterMap_stored?_eq_self htrim hfilled]

theorem menuOptions_of_null (h : b.config.get "options" = .null) : b.menuOptions = .ok [] := by
  rw [menuOptions, optionItems, h]
  rfl

theorem menuOptions_congr (h : b'.config.get "options" = b.config.get "options") : b'.menuOptions = b.menuOptions := by
  rw [menuOptions, menuOptions, optionItems, optionItems, h]

theorem optionTargets_of_menuOptions (htype : b.type = .menu) (hoptions : b.menuOptions = .ok options) :
    b.optionTargets = .ok (options.filterMap MenuOption.target?) := by
  rw [optionTargets, if_pos htype, hoptions]
  rfl

theorem optionTargets_of_null (h : b.type = .menu → b.config.get "options" = .null) : b.optionTargets = .ok [] := by
  by_cases htype : b.type = .menu
  · exact optionTargets_of_menuOptions htype (menuOptions_of_null (h htype))
  · rw [optionTargets, if_neg htype]

theorem optionFor_of_menuOptions {digits : Text} (hoptions : b.menuOptions = .ok options) (hne : digits ≠ "") :
    b.optionFor (some digits) = .ok (options.find? fun o => o.digit == Text.trim digits) := by
  unfold optionFor
  split
  · contradiction
  · rename_i heq
    exact absurd (Option.some.inj heq) hne
  · rename_i heq
    cases heq
    rw [hoptions]
    rfl

theorem optionFor_congr (h : b'.menuOptions = b.menuOptions) (digits : Option Text) :
    b'.optionFor digits = b.optionFor digits := by
  unfold optionFor
  rw [h]

theorem optionFor_map {change : MenuOption → MenuOption} (hoptions : b.menuOptions = .ok options)
    (hoptions' : b'.menuOptions = .ok (options.map change)) (hdigit : ∀ o, (change o).digit = o.digit)
    (digits : Option Text) : ∃ o, b.optionFor digits = .ok o ∧ b'.optionFor digits = .ok (o.map change) := by
  cases digits with
  | none => exact ⟨none, rfl, rfl⟩
  | some digits =>
    by_cases hne : digits = ""
    · subst hne
      exact ⟨none, rfl, rfl⟩
    · refine ⟨_, optionFor_of_menuOptions hoptions hne, ?_⟩
      rw [optionFor_of_menuOptions hoptions' hne, List.find?_map]
      simp only [Function.comp_def, hdigit]

end Block
end Switchboard

import Switchboard.Proofs.Editor.Command
import Switchboard.Proofs.Editor.EdgeChange

/-! # Digits that are bound to a block

Connecting a menu by digits leads the first option for these digits to the block, or one more option if there is none.
The menu reads its options with trimmed digits and leaves out those without, while the given digits are compared and
written as they are. So an option for them is found afterwards that leads to the block, the other options stay as they
are and connecting once more changes nothing, exactly when the digits are trimmed and not empty.
-/
namespace Switchboard

variable {K : Type} {options : List MenuOption} {target digit : Text}

theorem Entries.put_put (key : Text) (value : Value) (entries : Entries) :
    put key value (put key value entries) = put key value entries := by
  induction entries with
  | nil => simp [put]
  | cons entry rest ih =>
    by_cases hkey : entry.1 = key
    · simp [put, hkey]
    · simp [put, hkey, ih]

namespace Edge

theorem bindOption_nil (target digit : Text) : bindOption [] target (some digit) = [⟨digit, none, some target⟩] := rfl

theorem bindOption_cons (o : MenuOption) (options : List MenuOption) (target digit : Text) :
    bindOption (o :: options) target (some digit) =
      if o.digit = digit then { o with target := some target } :: options
      else o :: bindOption options target (some digit) := by
  simp only [bindOption, bindFirst?]
  by_cases hdigit : o.digit = digit
  · simp [hdigit]
  · cases bindFirst? (fun o => o.digit == digit) target options <;> simp [hdigit]

/-- For the digits an option is found that leads to the block, and all others are where they have been. -/
theorem exists_bound (options : List MenuOption) (target digit : Text) : ∃ (i : Nat) (o : MenuOption),
    (bindOption options target (some digit)).find? (fun o => o.digit == digit) = some o ∧ o.target = some target ∧
      (bindOption options target (some digit))[i]? = some o ∧
      ∀ j, j ≠ i → (bindOption options target (some digit))[j]? = options[j]? := by
  induction options with
  | nil =>
    refine ⟨0, ⟨digit, none, some target⟩, by simp [bindOption_nil], rfl, rfl, ?_⟩
    intro j hj
    cases j with
    | zero => exact absurd rfl hj
    | succ j => rfl
  | cons first rest ih =>
    rw [bindOption_cons]
    by_cases hdigit : first.digit = digit
    · rw [if_pos hdigit]
      refine ⟨0, { first with target := some target }, by simp [hdigit], rfl, rfl, ?_⟩
      intro j hj
      cases j with
      | zero => exact absurd rfl hj
      | succ j => rfl
    · rw [if_neg hdigit]
      obtain ⟨i, o, hfound, htarget, hplace, hothers⟩ := ih
      refine ⟨i + 1, o, by simpa [hdigit] using hfound, htarget, hplace, ?_⟩
      intro j hj
      cases j with
      | zero => rfl
      | succ j => exact hothers j fun hsame => hj (congrArg Nat.succ hsame)

theorem bindOption_bindOption (options : List MenuOption) (target digit : Text) :
    bindOption (bindOption options target (some digit)) target (some digit) =
      bindOption options target (some digit) := by
  induction options with
  | nil => simp [bindOption_nil, bindOption_cons]
  | cons first rest ih =>
    rw [bindOption_cons]
    by_cases hdigit : first.digit = digit
    · rw [if_pos hdigit, bindOption_cons, if_pos hdigit]
    · rw [if_neg hdigit, bindOption_cons, if_neg hdigit, ih]

theorem bindOption_of_new (h : ∀ o ∈ options, o.digit ≠ digit) :
    bindOption options target (some digit) = options ++ [⟨digit, none, some target⟩] := by
  induction options with
  | nil => rfl
  | cons first rest ih =>
    obtain ⟨hfirst, hrest⟩ := List.forall_mem_cons.mp h
    rw [bindOption_cons, if_neg hfirst, ih hrest, List.cons_append]

theorem forall_digit_bindOption {P : Text → Prop} (hold : ∀ o ∈ options, P o.digit) (hnew : P digit) :
    ∀ o ∈ bindOption options target (some digit), P o.digit := by
  induction options with
  | nil =>
    rw [bindOption_nil]
    exact List.forall_mem_singleton.mpr hnew
  | cons first rest ih =>
    obtain ⟨hfirst, hrest⟩ := List.forall_mem_cons.mp hold
    rw [bindOption_cons]
    split
    · exact List.forall_mem_cons.mpr ⟨hfirst, hrest⟩
    · exact List.forall_mem_cons.mpr ⟨hfirst, ih hrest⟩

/-- A menu with an edge to a block for the digits. -/
def bound (b : Block K) (options : List MenuOption) (target digit : Text) : Block K :=
  { b with
    next := if b.next.contains target then b.next else b.next ++ [target]
    config := withOptions b.config (bindOption options target (some digit)) }

variable {b : Block K}

theorem add_menu (htype : b.type = .menu) (hoptions : b.menuOptions = .ok options) (target digit : Text) :
    add b target (some digit) = .ok (bound b options target digit) := by
  rw [add, if_pos htype, hoptions]
  rfl

theorem menuOptions_bound (b : Block K) (options : List MenuOption) (target digit : Text) :
    (bound b options target digit).menuOptions =
      .ok ((bindOption options target (some digit)).filterMap MenuOption.stored?) :=
  Block.menuOptions_of_written (get_withOptions _ _)

theorem bound_bound (b : Block K) (options : List MenuOption) (target digit : Text) :
    bound (bound b options target digit) (bindOption options target (some digit)) target digit =
      bound b options target digit := by
  unfold bound
  rw [bindOption_bindOption, withOptions, withOptions, Entries.put_put]
  by_cases hnext : target ∈ b.next
  · simp [hnext]
  · simp [hnext]

section
variable (htrim : ∀ o ∈ options, Text.trim o.digit = o.digit) (hfilled : ∀ o ∈ options, o.digit ≠ "")
include htrim hfilled

theorem menuOptions_bound_of_trimmed (htrimmed : Text.trim digit = digit) (hne : digit ≠ "") (b : Block K)
    (target : Text) :
    (bound b options target digit).menuOptions = .ok (bindOption options target (some digit)) := by
  refine Block.menuOptions_of_kept (get_withOptions _ _) ?_ ?_
  · exact forall_digit_bindOption (P := fun d => Text.trim d = d) htrim htrimmed
  · exact forall_digit_bindOption (P := fun d => d ≠ "") hfilled hne

/-- For digits that are not trimmed one more option is written each time. -/
theorem trim_digit_of_steady (hne : digit ≠ "") {read : List MenuOption}
    (hread : (bound b options target digit).menuOptions = .ok read)
    (hsteady : bound (bound b options target digit) read target digit = bound b options target digit) :
    Text.trim digit = digit := by
  by_contra hpadded
  have hstored := MenuOption.filterMap_stored?_eq_self htrim hfilled
  have hfirst : bindOption options target (some digit) = options ++ [⟨digit, none, some target⟩] :=
    bindOption_of_new fun o ho heq => hpadded (heq ▸ htrim o ho)
  obtain rfl : options ++ [⟨Text.trim digit, none, some target⟩] = read := by
    rw [menuOptions_bound, hfirst, List.filterMap_append, hstored] at hread
    simpa [MenuOption.stored?, hne] using hread
  have hsecond : bindOption (options ++ [⟨Text.trim digit, none, some target⟩]) target (some digit) =
      options ++ [⟨Text.trim digit, none, some target⟩] ++ [⟨digit, none, some target⟩] := by
    refine bindOption_of_new fun o ho heq => hpadded ?_
    rcases List.mem_append.mp ho with ho | ho
    · exact heq ▸ htrim o ho
    · rw [← heq, List.mem_singleton.mp ho, Text.trim_trim]
  have hconfig := congrArg (fun b : Block K => b.config.get "options") hsteady
  simp only [bound, get_withOptions, hfirst, hsecond, Value.arr.injEq] at hconfig
  have hlength := congrArg List.length hconfig
  simp at hlength

end

theorem changeAt_split {before after : List (Block K)} (honly : ∀ c ∈ before ++ after, c.id ≠ b.id)
    {change : Block K → Outcome (Block K)} {b' : Block K} (hchange : change b = .ok b') :
    changeAt (before ++ b :: after) b.id change = .ok (before ++ b' :: after) := by
  have hkept (blocks : List (Block K)) (h : ∀ c ∈ blocks, c.id ≠ b.id) :
      (blocks.mapM fun c => if c.id = b.id then change c else .ok c) = .ok blocks := by
    have hsame : (blocks.mapM fun c => if c.id = b.id then change c else .ok c) = .ok (blocks.map id) :=
      Outcome.mapM_eq_ok_map fun c hc => if_neg (h c hc)
    rwa [List.map_id] at hsame
  rw [changeAt, List.mapM_append, hkept before fun c hc => honly c (List.mem_append_left _ hc), List.mapM_cons,
    if_pos rfl, hchange, hkept after fun c hc => honly c (List.mem_append_right _ hc)]
  rfl

end Edge

namespace EditorState

variable {s : EditorState K} {before after : List (Block K)} {b : Block K}

theorem block?_split (hblocks : s.blocks = before ++ b :: after) (honly : ∀ c ∈ before ++ after, c.id ≠ b.id) :
    s.block? b.id = some b := by
  have hbefore : before.find? (fun c => c.id == b.id) = none := by
    refine List.find?_eq_none.mpr fun c hc hid => ?_
    exact honly c (List.mem_append_left _ hc) (beq_iff_eq.mp hid)
  rw [block?, hblocks, List.find?_append, hbefore, Option.none_or]
  exact List.find?_cons_of_pos (beq_self_eq_true b.id)

theorem connectBlocks_split (hstatus : s.status ≠ .saving) (hblocks : s.blocks = before ++ b :: after)
    (honly : ∀ c ∈ before ++ after, c.id ≠ b.id) (htarget : target ∈ s.blocks.map Block.id) {b' : Block K}
    (hadd : Edge.add b target (some digit) = .ok b') :
    ∃ e, s.connectBlocks (.str b.id) (.str target) (.str digit) = .ok e ∧ e.ok = true ∧ e.state.status = .editing ∧
      e.state.blocks = before ++ b' :: after := by
  obtain ⟨t, ht, hid⟩ := exists_block?_of_mem htarget
  have hchange : Edge.changeAt s.blocks b.id (fun b => Edge.add b target (some digit)) = .ok (before ++ b' :: after) := by
    rw [hblocks]
    exact Edge.changeAt_split honly hadd
  have hconnect : s.connectBlocks (.str b.id) (.str target) (.str digit) =
      s.withEdge b target (.ofText? (some digit)) := by
    rw [connectBlocks, unlessSaving?, if_neg hstatus, blockAt?_str, blockAt?_str, block?_split hblocks honly, ht, ← hid]
    rfl
  rw [hconnect, withEdge, if_neg (by simp [Value.ofText?, Value.isNull])]
  simp only [Edge.addAt_ofText?, hchange]
  exact ⟨_, rfl, rfl, rfl, rfl⟩

/-- A menu that is the only block with its id is connected with a block by digits, and no other block changes. An option
that leads to the block is found for the digits then, all other options are where they have been, and connecting once
more changes nothing, exactly when the digits are trimmed and not empty. -/
theorem connectBlocks_binds_iff (hstatus : s.status ≠ .saving) (hblocks : s.blocks = before ++ b :: after)
    (honly : ∀ c ∈ before ++ after, c.id ≠ b.id) (htype : b.type = .menu) (hoptions : b.menuOptions = .ok options)
    (hfilled : ∀ o ∈ options, o.digit ≠ "") (htarget : target ∈ s.blocks.map Block.id) (digit : Text) :
    ∃ e b' bound, s.connectBlocks (.str b.id) (.str target) (.str digit) = .ok e ∧ e.ok = true ∧
      e.state.blocks = before ++ b' :: after ∧ b'.menuOptions = .ok bound ∧
      (((∃ (i : Nat) (o : MenuOption), b'.optionFor (some digit) = .ok (some o) ∧ o.target = some target ∧
            bound[i]? = some o ∧ ∀ j, j ≠ i → bound[j]? = options[j]?) ∧
          ∃ again, e.state.connectBlocks (.str b.id) (.str target) (.str digit) = .ok again ∧
            again.state.blocks = e.state.blocks) ↔
        Text.trim digit = digit ∧ digit ≠ "") := by
  have htrim : ∀ o ∈ options, Text.trim o.digit = o.digit := fun o ho => Block.trim_digit_of_menuOptions hoptions ho
  obtain ⟨e, hconnect, hok, hediting, hchanged⟩ :=
    connectBlocks_split hstatus hblocks honly htarget (Edge.add_menu htype hoptions target digit)
  have hread := Edge.menuOptions_bound b options target digit
  have htarget' : target ∈ e.state.blocks.map Block.id := by
    rw [hblocks, List.map_append] at htarget
    rwa [hchanged, List.map_append]
  obtain ⟨again, hagain, -, -, hrepeated⟩ := connectBlocks_split (by rw [hediting]; decide) hchanged honly htarget'
    (Edge.add_menu (b := Edge.bound b options target digit) htype hread target digit)
  refine ⟨e, _, _, hconnect, hok, hchanged, hread, ?_⟩
  constructor
  · rintro ⟨⟨i, o, hfound, -⟩, again', hagain', hsame⟩
    have hne : digit ≠ "" := by
      rintro rfl
      cases hfound
    obtain rfl : again = again' := Except.ok.inj (hagain.symm.trans hagain')
    rw [hrepeated, hchanged, List.append_cancel_left_eq, List.cons.injEq] at hsame
    exact ⟨Edge.trim_digit_of_steady htrim hfilled hne hread hsame.1, hne⟩
  · rintro ⟨htrimmed, hne⟩
    have hkept := Edge.menuOptions_bound_of_trimmed htrim hfilled htrimmed hne b target
    have hwritten := Except.ok.inj (hread.symm.trans hkept)
    obtain ⟨i, o, hfound, hto, hplace, hothers⟩ := Edge.exists_bound options target digit
    rw [hwritten]
    refine ⟨⟨i, o, ?_, hto, hplace, hothers⟩, again, hagain, ?_⟩
    · rw [Block.optionFor_of_menuOptions hkept hne, htrimmed, hfound]
    · rw [hrepeated, hchanged, hwritten, Edge.bound_bound]

theorem connectBlocks_binds_menu :
    let main : Block := {
      id := "main", type := .menu, position := ⟨.ofInt 120, .ofInt 80⟩, next := ["sales"]
      config := [("prompt", .str "Press 1 or 2"), ("options", .obj [("1", .str "sales"), (" 2 ", .null)])] }
    let sales : Block := { id := "sales", type := .say, position := ⟨.ofInt 520, .ofInt 80⟩, next := [], config := [] }
    let bye : Block := { id := "bye", type := .hangup, position := ⟨.ofInt 120, .ofInt 300⟩, next := [], config := [] }
    let s : EditorState := { blocks := [sales, main, bye] }
    ∃ e b' bound, s.connectBlocks (.str "main") (.str "bye") (.str "2") = .ok e ∧ e.ok = true ∧
      e.state.blocks = [sales, b', bye] ∧ b'.menuOptions = .ok bound ∧
      (∃ (i : Nat) (o : MenuOption), b'.optionFor (some ("2" : Text)) = .ok (some o) ∧ o.target = some ("bye" : Text) ∧
        bound[i]? = some o ∧ ∀ j, j ≠ i → bound[j]? =
          [⟨"1", none, some ("sales" : Text)⟩, (⟨"2", none, none⟩ : MenuOption)][j]?) ∧
      ∃ again, e.state.connectBlocks (.str "main") (.str "bye") (.str "2") = .ok again ∧
        again.state.blocks = e.state.blocks := by
  intro main sales bye s
  have hoptions : main.menuOptions = .ok [⟨"1", none, some ("sales" : Text)⟩, ⟨"2", none, none⟩] :=
    Outcome.eq_ok_of_toOption (by decide +kernel)
  have hblocks : s.blocks = [sales] ++ main :: [bye] := rfl
  have htarget : ("bye" : Text) ∈ s.blocks.map Block.id := by decide
  obtain ⟨e, b', bound, hconnect, hok, hchanged, hread, hbinds⟩ :=
    connectBlocks_binds_iff (by decide) hblocks (by decide) rfl hoptions (by decide) htarget "2"
  exact ⟨e, b', bound, hconnect, hok, hchanged, hread, hbinds.mpr ⟨by decide +kernel, by decide⟩⟩

/-- Digits with a blank before them are bound to no option: what has been found for them still is, and there is one more
option for the same digits behind it. -/
theorem connectBlocks_binds_no_padded :
    let main : Block := {
      id := "main", type := .menu, position := ⟨.ofInt 120, .ofInt 80⟩, next := ["sales"]
      config := [("prompt", .str "Press 2"), ("options", .obj [("2", .str "sales")])] }
    let sales : Block := { id := "sales", type := .say, position := ⟨.ofInt 520, .ofInt 80⟩, next := [], config := [] }
    let bye : Block := { id := "bye", type := .hangup, position := ⟨.ofInt 120, .ofInt 300⟩, next := [], config := [] }
    let s : EditorState := { blocks := [main, sales, bye] }
    ∃ e b', s.connectBlocks (.str "main") (.str "bye") (.str " 2") = .ok e ∧ e.ok = true ∧
      e.state.blocks = [b', sales, bye] ∧ b'.optionFor (some (" 2" : Text)) = .ok (some ⟨"2", none, some ("sales" : Text)⟩) ∧
      b'.menuOptions = .ok [⟨"2", none, some ("sales" : Text)⟩, ⟨"2", none, some ("bye" : Text)⟩] ∧
      ∃ again b'', e.state.connectBlocks (.str "main") (.str "bye") (.str " 2") = .ok again ∧
        again.state.blocks = [b'', sales, bye] ∧ b''.menuOptions =
          .ok [⟨"2", none, some ("sales" : Text)⟩, ⟨"2", none, some ("bye" : Text)⟩, ⟨"2", none, some ("bye" : Text)⟩] := by
  intro main sales bye s
  have hoptions : main.menuOptions = .ok [⟨"2", none, some ("sales" : Text)⟩] := Outcome.eq_ok_of_toOption (by decide +kernel)
  have hblocks : s.blocks = [] ++ main :: [sales, bye] := rfl
  obtain ⟨e, hconnect, hok, hediting, hchanged⟩ :=
    connectBlocks_split (by decide) hblocks (by decide) (by decide) (Edge.add_menu rfl hoptions "bye" " 2")
  have hread : (Edge.bound main [⟨"2", none, some ("sales" : Text)⟩] "bye" " 2").menuOptions =
      .ok [⟨"2", none, some ("sales" : Text)⟩, ⟨"2", none, some ("bye" : Text)⟩] := Outcome.eq_ok_of_toOption (by decide +kernel)
  obtain ⟨again, hagain, -, -, hrepeated⟩ := connectBlocks_split (by rw [hediting]; decide) hchanged (by decide)
    (by rw [hchanged]; decide) (Edge.add_menu rfl hread "bye" " 2")
  exact ⟨e, _, hconnect, hok, hchanged, Outcome.eq_ok_of_toOption (by decide +kernel), hread, again, _, hagain,
    hrepeated, Outcome.eq_ok_of_toOption (by decide +kernel)⟩

end EditorState
end Switchboard

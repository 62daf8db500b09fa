import Switchboard.Proofs.Text.Basic
import Switchboard.Proofs.Text.Part
import Switchboard.Store.Address

/-! # The two addresses of a database

Either form of the address of a file is made into both, by replacing parts wherever they occur. The path is kept as
long as it does not hold one of these parts itself; otherwise one of the addresses is not of its form, or the two are
those of different files.
-/
namespace Switchboard.Store

open Text (beginsWith holds replaceAll)

variable {path : Text}

def fileOf? (url : Text) : Option Text :=
  if beginsWith directScheme url then some (Text.ofSymbols (url.symbols.drop directScheme.length))
  else if beginsWith backgroundScheme url then some (Text.ofSymbols (url.symbols.drop backgroundScheme.length))
  else none

/-- Whether both addresses that are made from one are about the same file. -/
def ShareFile (url : Text) : Prop :=
  ∃ file, fileOf? (addresses url).1 = some file ∧ fileOf? (addresses url).2 = some file

theorem beginsWith_append (start path : Text) : beginsWith start (start ++ path) = true := by
  rw [beginsWith, Text.symbols_append, List.isPrefixOf_iff_prefix]
  exact List.prefix_append _ _

theorem not_beginsWith_direct (path : Text) : beginsWith directScheme (backgroundScheme ++ path) = false := by
  rw [beginsWith, Text.symbols_append]
  rfl

theorem fileOf?_direct (path : Text) : fileOf? (directScheme ++ path) = some path := by
  rw [fileOf?, if_pos (beginsWith_append directScheme path), Text.symbols_append]
  exact congrArg some (Text.ofSymbols_symbols path)

theorem fileOf?_background (path : Text) : fileOf? (backgroundScheme ++ path) = some path := by
  rw [fileOf?, not_beginsWith_direct, if_neg Bool.false_ne_true, if_pos (beginsWith_append backgroundScheme path),
    Text.symbols_append]
  exact congrArg some (Text.ofSymbols_symbols path)

theorem holds_direct (path : Text) : holds "+aiosqlite" (directScheme ++ path) = holds "+aiosqlite" path := by
  rw [holds, Text.symbols_append]
  exact Text.holdsPart_append_of_not_mem (by decide) _ _

theorem replaceAll_direct (path : Text) : replaceAll directScheme backgroundScheme (directScheme ++ path) =
    backgroundScheme ++ replaceAll directScheme backgroundScheme path := by
  rw [← Text.symbols_inj, replaceAll, Text.symbols_append, Text.replaceFrom_part_append (by decide), replaceAll,
    Text.symbols_append, Text.symbols_ofSymbols, Text.symbols_ofSymbols]

theorem replaceAll_background (path : Text) : replaceAll "+aiosqlite" "" (backgroundScheme ++ path) =
    directScheme ++ replaceAll "+aiosqlite" "" path := by
  have hmark : ("+aiosqlite" : Text).symbols = .char '+' :: ("aiosqlite" : Text).symbols := rfl
  have hparts : (backgroundScheme ++ path).symbols =
      ("sqlite" : Text).symbols ++ (("+aiosqlite" : Text).symbols ++ ((":///" : Text).symbols ++ path.symbols)) := by
    rw [Text.symbols_append]
    rfl
  have hscheme : directScheme.symbols = ("sqlite" : Text).symbols ++ (":///" : Text).symbols := rfl
  rw [← Text.symbols_inj, replaceAll, Text.symbols_ofSymbols, hparts, hmark,
    Text.replaceFrom_append_of_not_mem (by decide), ← hmark, Text.replaceFrom_part_append (by decide), hmark,
    Text.replaceFrom_append_of_not_mem (by decide), ← hmark, Text.symbols_append, hscheme, replaceAll,
    Text.symbols_ofSymbols, List.append_assoc]
  rfl

theorem addresses_direct (path : Text) : addresses (directScheme ++ path) =
    (if holds "+aiosqlite" path then directScheme ++ path
      else backgroundScheme ++ replaceAll directScheme backgroundScheme path, directScheme ++ path) := by
  have hforeign : beginsWith backgroundScheme (directScheme ++ path) = false := by
    rw [beginsWith, Text.symbols_append]
    rfl
  rw [addresses, beginsWith_append, holds_direct, replaceAll_direct, hforeign]
  cases holds "+aiosqlite" path <;> rfl

theorem addresses_background (path : Text) : addresses (backgroundScheme ++ path) =
    (backgroundScheme ++ path, directScheme ++ replaceAll "+aiosqlite" "" path) := by
  rw [addresses, not_beginsWith_direct, beginsWith_append, replaceAll_background]
  rfl

theorem replaceAll_mark_eq_self_iff : replaceAll "+aiosqlite" "" path = path ↔ holds "+aiosqlite" path = false := by
  rw [replaceAll, ← Text.symbols_inj, Text.symbols_ofSymbols, holds]
  exact Text.replaceFrom_eq_self_iff (by decide) (by decide)

theorem replaceAll_scheme_eq_self_iff :
    replaceAll directScheme backgroundScheme path = path ↔ holds directScheme path = false := by
  rw [replaceAll, ← Text.symbols_inj, Text.symbols_ofSymbols, holds]
  exact Text.replaceFrom_eq_self_iff (by decide) (by decide)

def addressesOf (path : Text) : Text × Text := (backgroundScheme ++ path, directScheme ++ path)

theorem addresses_direct_iff : addresses (directScheme ++ path) = addressesOf path ↔
    holds "+aiosqlite" path = false ∧ holds directScheme path = false := by
  have hform : directScheme ++ path ≠ backgroundScheme ++ path := by
    intro hsame
    have hforeign := not_beginsWith_direct path
    rw [← hsame, beginsWith_append] at hforeign
    cases hforeign
  rw [addresses_direct, addressesOf, Prod.mk.injEq, and_iff_left rfl]
  cases holds "+aiosqlite" path with
  | true => simp [hform]
  | false => simp [Text.append_right_inj, replaceAll_scheme_eq_self_iff]

theorem addresses_background_iff :
    addresses (backgroundScheme ++ path) = addressesOf path ↔ holds "+aiosqlite" path = false := by
  rw [addresses_background, addressesOf, Prod.mk.injEq, and_iff_right rfl, Text.append_right_inj,
    replaceAll_mark_eq_self_iff]

theorem shareFile_iff {url file : Text} (h : fileOf? (addresses url).2 = some file) :
    ShareFile url ↔ fileOf? (addresses url).1 = some file := by
  rw [ShareFile, h]
  simp

theorem shareFile_direct_iff :
    ShareFile (directScheme ++ path) ↔ holds "+aiosqlite" path = true ∨ holds directScheme path = false := by
  have hopened : fileOf? (addresses (directScheme ++ path)).2 = some path := by
    rw [addresses_direct, fileOf?_direct]
  rw [shareFile_iff hopened, addresses_direct]
  cases holds "+aiosqlite" path with
  | true => simp [fileOf?_direct]
  | false => simp [fileOf?_background, replaceAll_scheme_eq_self_iff]

theorem shareFile_background_iff : ShareFile (backgroundScheme ++ path) ↔ holds "+aiosqlite" path = false := by
  rw [shareFile_iff (by rw [addresses_background, fileOf?_direct]), addresses_background, fileOf?_background,
    Option.some.injEq, eq_comm, replaceAll_mark_eq_self_iff]

/-- From either address of a file both are made, and from these the same again, exactly when its path holds neither
the mark of the background form nor the form for opening directly. An address of the background form is made into both
exactly when its path does not hold the mark, and otherwise what is made is about two files. -/
theorem addresses_agree_iff (path : Text) :
    (addresses (directScheme ++ path) = addressesOf path ↔
      holds "+aiosqlite" path = false ∧ holds directScheme path = false) ∧
    (addresses (backgroundScheme ++ path) = addressesOf path ↔ holds "+aiosqlite" path = false) ∧
    ((∀ url ∈ [directScheme ++ path, backgroundScheme ++ path], addresses url = addressesOf path ∧
      addresses (addresses url).1 = addressesOf path ∧ addresses (addresses url).2 = addressesOf path) ↔
      holds "+aiosqlite" path = false ∧ holds directScheme path = false) ∧
    (ShareFile (directScheme ++ path) ↔ holds "+aiosqlite" path = true ∨ holds directScheme path = false) ∧
    (ShareFile (backgroundScheme ++ path) ↔ holds "+aiosqlite" path = false) := by
  refine ⟨addresses_direct_iff, addresses_background_iff, ?_, shareFile_direct_iff, shareFile_background_iff⟩
  constructor
  · intro h
    exact addresses_direct_iff.mp (h _ List.mem_cons_self).1
  · intro h url hurl
    have hdirect := addresses_direct_iff.mpr h
    have hbackground := addresses_background_iff.mpr h.1
    have hmade : addresses url = addressesOf path := by
      rcases List.mem_pair.mp hurl with rfl | rfl
      · exact hdirect
      · exact hbackground
    rw [hmade]
    exact ⟨rfl, hbackground, hdirect⟩

/-- The mark is taken out of the name of the file as well: what is opened directly is another file. -/
theorem addresses_split :
    let url := backgroundScheme ++ "data+aiosqlite.db"
    addresses url ≠ addressesOf "data+aiosqlite.db" ∧ fileOf? (addresses url).1 = some ("data+aiosqlite.db" : Text) ∧
      fileOf? (addresses url).2 = some ("data.db" : Text) := by
  decide +kernel

end Switchboard.Store

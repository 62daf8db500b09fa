import Switchboard.Proofs.Outcome

/-! # Values of the kinds that are asked for

A value is used as a text, as a list, as a key or as a number. Each use succeeds for the values of some kinds, and for
no others.
-/
namespace Switchboard

namespace Value

def isText : Value → Bool
  | .str _ => true
  | _ => false

def isTextIfTruthy (v : Value) : Bool :=
  v.isText || !v.truthy

def isTextOrNull (v : Value) : Bool :=
  v.isNull || v.isText

def isListing : Value → Bool
  | .arr _ | .obj _ | .str _ => true
  | v => !v.truthy

def isKey : Value → Bool
  | .arr _ | .obj _ => false
  | _ => true

/-- Whether a value has a text: it holds no integer with too many digits. -/
def hasText (v : Value) : Bool :=
  v.text?.isSome

/-- Whether a value is no integer beyond the range of numbers. -/
def isInRange : Value → Bool
  | .int n => (Binary64.ofInt? n).isSome
  | _ => true

theorem isText_iff {v : Value} : v.isText = true ↔ ∃ s, v = .str s := by
  cases v <;> simp [isText]

theorem key?_succeeds_iff {v : Value} : (∃ key, v.key? = .ok key) ↔ v.isKey = true := by
  cases v <;> simp [key?, isKey]

theorem written_eq_ok {v : Value} {t : Text} : v.written = .ok t ↔ v.text? = some t := by
  unfold written
  cases v.text? <;> simp [Fault.unlessOversized]

theorem written_succeeds_iff {v : Value} : (∃ t, v.written = .ok t) ↔ v.hasText = true := by
  simp only [written_eq_ok, hasText, Option.isSome_iff_exists]

theorem hasText_of_isText {v : Value} (h : v.isText = true) : v.hasText = true := by
  obtain ⟨t, rfl⟩ := isText_iff.mp h
  rfl

theorem key?_of_not_isText {v : Value} (hkey : v.isKey = true) (h : v.isText = false) : v.key? = .ok none := by
  cases v <;> simp_all [isKey, isText, key?]

theorem toNumber_eq_tooLarge_iff {v : Value} : v.toNumber = .error .tooLarge ↔ v.isInRange = false := by
  cases v with
  | bool b =>
    have hsmall : (Binary64.ofInt? (if b then 1 else 0)).isSome = true := by cases b <;> decide +kernel
    obtain ⟨x, hx⟩ := Option.isSome_iff_exists.mp hsmall
    simp [toNumber, asInt?, isInRange, hx]
  | int n =>
    cases h : Binary64.ofInt? n with
    | some x => simp [toNumber, asInt?, isInRange, h]
    | none => simp [toNumber, asInt?, isInRange, h]
  | str t => cases h : t.plain?.bind Numeral.readDecimal? <;> simp [toNumber, isInRange, h]
  | _ => simp [toNumber, asInt?, isInRange]

end Value

namespace Reading

theorem text_succeeds_iff {v : Value} : (∃ s, text v = .done s) ↔ v.isText = true := by
  cases v <;> simp [text, Value.isText, fail]

theorem nullable_text_succeeds_iff {v : Value} : (∃ s, nullable text v = .done s) ↔ v.isTextOrNull = true := by
  cases v <;> simp [nullable, text, fail, Functor.map, map, Value.isTextOrNull, Value.isNull, Value.isText]

theorem fieldOr_text_succeeds_iff {entries : Entries} {name : Text} :
    (∃ s, fieldOr entries name none (nullable text) = .done s) ↔ (entries.get name).isTextOrNull = true := by
  unfold fieldOr Entries.get
  cases entries.get? name with
  | none => simp [Value.isTextOrNull, Value.isNull]
  | some v => rw [under_succeeds_iff, nullable_text_succeeds_iff, Option.getD_some]

end Reading
end Switchboard

import Switchboard.Proofs.Markup.Script
import Switchboard.Proofs.Text.Blank

/-! # Which scripts can be written

A script is written when every text in it is a string and every integer in it has few enough digits. Only the address
of the service matters besides, and only where a directive tells the provider to call back.
-/
namespace Switchboard

def Continuation.texts (c : Continuation) : List Text := c.flowId.toList ++ [c.blockId]

def Continuation.integers (c : Continuation) : List Int := [c.attempt, c.hops]

namespace Directive

def ownTexts : Directive → List Text
  | say text voice => text :: voice.toList
  | play url _ => [url]
  | gather prompt voice _ _ _ => prompt :: voice.toList
  | dial numbers _ callerId _ _ => numbers ++ callerId.toList
  | sms body recipient sender => body :: (recipient.toList ++ sender.toList)
  | _ => []

def ownIntegers : Directive → List Int
  | play _ loop => [loop]
  | pause seconds => [seconds]
  | gather _ _ numDigits timeout _ => [numDigits, timeout]
  | dial _ timeout _ _ _ => [timeout]
  | record maxLength _ _ => [maxLength]
  | _ => []

def texts (d : Directive) : List Text := d.ownTexts ++ d.continuation?.toList.flatMap Continuation.texts

def integers (d : Directive) : List Int := d.ownIntegers ++ d.continuation?.toList.flatMap Continuation.integers

/-- Whether a directive can be written by a service of an address. -/
structure IsWritable (base : Text) (d : Directive) : Prop where
  texts : ∀ t ∈ d.texts, t.isPlain = true
  integers : ∀ n ∈ d.integers, n.natAbs < Numeral.leastOversized
  base : d.continuation?.isSome = true → base.isPlain = true

end Directive

namespace Markup

variable {base : Text} {path : String} {c : Continuation} {d : Directive}

theorem integerText_succeeds_iff {n : Int} : (∃ s, integerText n = .ok s) ↔ n.natAbs < Numeral.leastOversized := by
  simp only [integerText_eq_ok, exists_and_left, exists_eq, and_true]

theorem mapM_encoded_succeeds_iff {texts : List Text} :
    (∃ written, texts.mapM Text.encoded = .ok written) ↔ ∀ t ∈ texts, t.isPlain = true := by
  simp only [Outcome.mapM_succeeds_iff, Text.encoded_succeeds_iff]

theorem optionMapM_encoded_succeeds_iff {text : Option Text} :
    (∃ written, text.mapM Text.encoded = .ok written) ↔ ∀ t ∈ text.toList, t.isPlain = true := by
  cases text with
  | none => simp
  | some t => simp only [Option.mapM_some, Outcome.map_succeeds_iff, Text.encoded_succeeds_iff, Option.toList_some,
      List.forall_mem_singleton]

theorem isPlain_filter_iff {id : Option Text} :
    (∀ t ∈ (id.filter (· != ("" : Text))).toList, t.isPlain = true) ↔ ∀ t ∈ id.toList, t.isPlain = true := by
  cases id with
  | none => rfl
  | some id =>
    rw [Option.filter_some]
    split
    · rfl
    · next hempty =>
      obtain rfl : id = "" := by simpa using hempty
      simp [Text.isPlain, Text.plain?]

/-- What the place that a directive tells, if any, has to be. -/
def IsTold (base : Text) (c : Option Continuation) : Prop :=
  (∀ t ∈ c.toList.flatMap Continuation.texts, t.isPlain = true) ∧
    (∀ n ∈ c.toList.flatMap Continuation.integers, n.natAbs < Numeral.leastOversized) ∧
    (c.isSome = true → base.isPlain = true)

theorem isTold_none : IsTold base none ↔ True := by
  simp [IsTold]

theorem isWritable_iff : d.IsWritable base ↔ (∀ t ∈ d.ownTexts, t.isPlain = true) ∧
    (∀ n ∈ d.ownIntegers, n.natAbs < Numeral.leastOversized) ∧ IsTold base d.continuation? := by
  constructor
  · intro h
    obtain ⟨hown, htold⟩ := List.forall_mem_append.mp h.texts
    obtain ⟨hnumbers, hcounts⟩ := List.forall_mem_append.mp h.integers
    exact ⟨hown, hnumbers, htold, hcounts, h.base⟩
  · rintro ⟨hown, hnumbers, htold, hcounts, hbase⟩
    exact ⟨List.forall_mem_append.mpr ⟨hown, htold⟩, List.forall_mem_append.mpr ⟨hnumbers, hcounts⟩, hbase⟩

theorem continuationUrl_succeeds_iff : (∃ url, continuationUrl base path c = .ok url) ↔ IsTold base (some c) := by
  refine (Outcome.bind_succeeds_and (Outcome.bind_succeeds_and (mapM_encoded_succeeds_iff.trans isPlain_filter_iff)
    fun _ => Outcome.bind_succeeds_and Text.encoded_succeeds_iff fun _ =>
      Outcome.bind_succeeds_and integerText_succeeds_iff fun _ =>
      Outcome.bind_succeeds_and integerText_succeeds_iff fun _ => Outcome.pure_succeeds) fun _ =>
    Outcome.bind_succeeds_and Text.encoded_succeeds_iff fun _ => Outcome.pure_succeeds).trans ?_
  rw [Text.isPlain_dropTrailing]
  simp [IsTold, Continuation.texts, Continuation.integers, or_imp, forall_and, and_assoc]

theorem mapM_continuationUrl_succeeds_iff {c : Option Continuation} :
    (∃ action, c.mapM (continuationUrl base path) = .ok action) ↔ IsTold base c := by
  cases c with
  | none => simp [isTold_none]
  | some c => rw [Option.mapM_some, Outcome.map_succeeds_iff, continuationUrl_succeeds_iff]

theorem spoken_succeeds_iff {text : Text} {voice : Option Text} :
    (∃ e, spoken text voice = .ok e) ↔ ∀ t ∈ text :: voice.toList, t.isPlain = true := by
  refine (Outcome.bind_succeeds_and optionMapM_encoded_succeeds_iff fun _ =>
    Outcome.bind_succeeds_and Text.encoded_succeeds_iff fun _ => Outcome.pure_succeeds).trans ?_
  rw [List.forall_mem_cons, and_true, and_comm]

theorem elementsOf_succeeds_iff : (∃ elements, elementsOf base path d = .ok elements) ↔ d.IsWritable base := by
  rw [isWritable_iff]
  cases d with
  | say text voice =>
    refine (Outcome.bind_succeeds_and spoken_succeeds_iff fun _ => Outcome.pure_succeeds).trans ?_
    simp [Directive.ownTexts, Directive.ownIntegers, Directive.continuation?, isTold_none]
  | play url loop =>
    refine (Outcome.bind_succeeds_and integerText_succeeds_iff fun _ =>
      Outcome.bind_succeeds_and Text.encoded_succeeds_iff fun _ => Outcome.pure_succeeds).trans ?_
    simp [Directive.ownTexts, Directive.ownIntegers, Directive.continuation?, isTold_none, and_comm]
  | pause seconds =>
    refine (Outcome.bind_succeeds_and integerText_succeeds_iff fun _ => Outcome.pure_succeeds).trans ?_
    simp [Directive.ownTexts, Directive.ownIntegers, Directive.continuation?, isTold_none]
  | gather prompt voice numDigits timeout c =>
    refine (Outcome.bind_succeeds_and continuationUrl_succeeds_iff fun _ =>
      Outcome.bind_succeeds_and integerText_succeeds_iff fun _ =>
      Outcome.bind_succeeds_and integerText_succeeds_iff fun _ =>
      Outcome.bind_succeeds_and spoken_succeeds_iff fun _ => Outcome.pure_succeeds).trans ?_
    simp [Directive.ownTexts, Directive.ownIntegers, Directive.continuation?, and_assoc, and_comm, and_left_comm]
  | dial numbers timeout callerId record c =>
    refine (Outcome.bind_succeeds_and mapM_continuationUrl_succeeds_iff fun _ =>
      Outcome.bind_succeeds_and integerText_succeeds_iff fun _ =>
      Outcome.bind_succeeds_and optionMapM_encoded_succeeds_iff fun _ =>
      Outcome.bind_succeeds_and mapM_encoded_succeeds_iff fun _ => Outcome.pure_succeeds).trans ?_
    simp [Directive.ownTexts, Directive.ownIntegers, Directive.continuation?, or_imp, forall_and, and_assoc,
      and_comm, and_left_comm]
  | sms body recipient sender =>
    refine (Outcome.bind_succeeds_and optionMapM_encoded_succeeds_iff fun _ =>
      Outcome.bind_succeeds_and optionMapM_encoded_succeeds_iff fun _ =>
      Outcome.bind_succeeds_and Text.encoded_succeeds_iff fun _ => Outcome.pure_succeeds).trans ?_
    simp [Directive.ownTexts, Directive.ownIntegers, Directive.continuation?, isTold_none, or_imp, forall_and,
      and_comm, and_left_comm]
  | record maxLength playBeep c =>
    refine (Outcome.bind_succeeds_and mapM_continuationUrl_succeeds_iff fun _ =>
      Outcome.bind_succeeds_and integerText_succeeds_iff fun _ => Outcome.pure_succeeds).trans ?_
    simp [Directive.ownTexts, Directive.ownIntegers, Directive.continuation?, and_comm]
  | hangup => simp [elementsOf, Directive.ownTexts, Directive.ownIntegers, Directive.continuation?, isTold_none]

theorem render_succeeds_iff {directives : List Directive} :
    (∃ body, render base path directives = .ok body) ↔ ∀ d ∈ directives, d.IsWritable base := by
  refine (Outcome.bind_succeeds_and Outcome.mapM_succeeds_iff fun _ => Outcome.pure_succeeds).trans ?_
  simp only [elementsOf_succeeds_iff, and_true]

end Markup
end Switchboard

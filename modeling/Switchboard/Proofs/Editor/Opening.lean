import Switchboard.Editor.Session
import Switchboard.Proofs.Outcome

/-! # Openings that fail

A number is opened in two steps around the answer of the database: it is selected, and then the flow that is stored for
it is edited. The database may fail between them. Then the number stays selected and the editor holds unsaved edits,
while the blocks and the flow are still those from before.
-/
namespace Switchboard

namespace EditorState

variable {K : Type} {s t : EditorState K} {number : Value} {answer : Outcome (Option (CallFlow K))} {e : Edit K}
  {error : EditorError}

/-- An opening by any database: how it ends, and the editor afterwards. -/
def opening (s : EditorState K) (number : Value) (answer : Outcome (Option (CallFlow K))) :
    Outcome (Edit K × EditorState K) := do
  let selected ← s.selectNumber number
  if selected.ok then return (receiveFlow selected answer, (receiveFlow selected answer).state)
  else return (selected, (keepError selected).state)

def numberOf (number : Value) : Option Text :=
  (PhoneNumber.normalizeValue? number).bind Value.asText?

def withNumber (s : EditorState K) (number : Value) : EditorState K :=
  { s with selectedNumber := numberOf number, status := .editing, dirty := true, lastError := none }

theorem selectNumber_cases (h : s.selectNumber number = .ok e) :
    (s.status = .saving ∧ e = { state := s, error := some busy }) ∨
    (s.status ≠ .saving ∧ (∃ normal, PhoneNumber.normalizeValue? number = some normal) ∧
      e = { state := s.withNumber number, event := some .numberSelected }) := by
  by_cases hsaving : s.status = .saving
  · rw [selectNumber, unlessSaving?, if_pos hsaving] at h
    exact Or.inl ⟨hsaving, (Except.ok.inj h).symm⟩
  · rw [selectNumber, unlessSaving?, if_neg hsaving] at h
    obtain ⟨normal, hnormal, h⟩ := Outcome.bind_eq_ok.mp h
    have hnormal := Outcome.unlessOversized_eq_ok.mp hnormal
    refine Or.inr ⟨hsaving, ⟨normal, hnormal⟩, ?_⟩
    rw [← Outcome.pure_eq_ok.mp h, withNumber, numberOf, hnormal]
    rfl

/-- An opening fails because a save is under way, and then it leaves all but the error, or because the database fails,
and then the number is selected. -/
theorem opening_failed (h : s.opening number answer = .ok (e, t)) (herror : e.error = some error) :
    (s.status = .saving ∧ error = busy ∧ t = s.withError error) ∨
    (s.status ≠ .saving ∧ (∃ fault, answer = .error fault ∧ error = { code := .loadFailed, message := fault.message }) ∧
      t = (s.withNumber number).withError error) := by
  obtain ⟨selected, hselected, h⟩ := Outcome.bind_eq_ok.mp h
  rcases selectNumber_cases hselected with ⟨hsaving, rfl⟩ | ⟨hfree, -, rfl⟩
  · cases h
    obtain rfl : busy = error := Option.some.inj herror
    exact Or.inl ⟨hsaving, rfl, rfl⟩
  · cases h
    match answer with
    | .ok none => cases herror
    | .ok (some flow) => cases herror
    | .error fault =>
      obtain rfl := Option.some.inj herror
      exact Or.inr ⟨hfree, ⟨fault, rfl, rfl⟩, rfl⟩

def SameButError (s t : EditorState K) : Prop :=
  { t with lastError := s.lastError } = s

theorem sameButError_withError (s : EditorState K) (error : EditorError) : SameButError s (s.withError error) := rfl

theorem sameButError_withNumber_iff : SameButError s ((s.withNumber number).withError error) ↔
    s.status = .editing ∧ s.dirty = true ∧ s.selectedNumber = numberOf number := by
  constructor
  · intro h
    exact ⟨(congrArg status h).symm, (congrArg dirty h).symm, (congrArg selectedNumber h).symm⟩
  · rintro ⟨hstatus, hdirty, hnumber⟩
    obtain ⟨⟩ := s
    cases hstatus
    cases hdirty
    cases hnumber
    rfl

end EditorState

namespace Session
open EditorState

def flowFor (s : Session) (owner number : Value) (outage : Outage) : Outcome (Option CallFlow) :=
  Outage.orElse outage.load do
    let normal ← Fault.unlessOversized (PhoneNumber.normalizeValue? number)
    s.database.flowOf owner normal

theorem openNumber_of_opening {s : Session} {owner number : Value} {outage : Outage} {e : Edit} {t : EditorState}
    (h : s.editor.opening number (s.flowFor owner number outage) = .ok (e, t)) :
    s.openNumber owner number outage = .ok (e, { s with editor := t }) := by
  obtain ⟨selected, hselected, h⟩ := Outcome.bind_eq_ok.mp h
  rw [openNumber, hselected]
  rcases selectNumber_cases hselected with ⟨-, rfl⟩ | ⟨-, ⟨normal, hnormal⟩, rfl⟩
  · cases h
    rfl
  · rw [flowFor, hnormal] at h
    rw [hnormal]
    cases h
    rfl

end Session

namespace EditorState

/-- A failed opening leaves the database, the blocks, the flow and everything else but the selected number, the status,
the mark of unsaved edits and the error. It leaves those as well if a save is under way, and otherwise only where they
are already as a selection makes them. -/
theorem failed_opening_keeps (s : EditorState) (number : Value) (answer : Outcome (Option CallFlow)) {e : Edit}
    {t : EditorState} (h : s.opening number answer = .ok (e, t)) (herror : e.error = some error) :
    (∀ (session : Session) owner outage, session.editor = s → session.flowFor owner number outage = answer →
      session.openNumber owner number outage = .ok (e, { session with editor := t })) ∧
    t.lastError = some error ∧
    SameButError s { t with selectedNumber := s.selectedNumber, status := s.status, dirty := s.dirty } ∧
    (s.status ≠ .saving → t.selectedNumber = numberOf number ∧ t.status = .editing ∧ t.dirty = true) ∧
    (SameButError s t ↔
      s.status = .saving ∨ (s.status = .editing ∧ s.dirty = true ∧ s.selectedNumber = numberOf number)) := by
  refine ⟨?_, ?_⟩
  · rintro session owner outage rfl hanswer
    exact Session.openNumber_of_opening (hanswer ▸ h)
  · rcases opening_failed h herror with ⟨hsaving, -, rfl⟩ | ⟨hfree, -, rfl⟩
    · refine ⟨rfl, rfl, fun hfree => absurd hsaving hfree, fun _ => Or.inl hsaving, fun _ => ?_⟩
      exact sameButError_withError s error
    · rw [sameButError_withNumber_iff]
      exact ⟨rfl, rfl, fun _ => ⟨rfl, rfl, rfl⟩, Or.inr, fun hcase => hcase.resolve_left hfree⟩

theorem failed_opening_keeps_selected :
    let hello : Block := { id := "hello", type := .say, position := ⟨.ofInt 120, .ofInt 80⟩, next := [], config := [] }
    let s : EditorState := {
      status := .editing, blocks := [hello], selectedNumber := some ("+15550001111" : Text), dirty := true }
    let session : Session := { editor := s }
    ∃ e t, session.openNumber (.str "ann") (.str "+1 (555) 000-1111") { load := some ("down" : Text) } = .ok (e, t) ∧
      e.error = some { code := .loadFailed, message := "down" } ∧ SameButError s t.editor := by
  intro hello s session
  have hanswer : session.flowFor (.str "ann") (.str "+1 (555) 000-1111") { load := some ("down" : Text) } =
      .error (.reported "down") := rfl
  have hnumber : s.selectedNumber = numberOf (.str "+1 (555) 000-1111") := by decide +kernel
  obtain ⟨e, t, hopening, hfailed⟩ : ∃ e t, s.opening (.str "+1 (555) 000-1111") (.error (.reported "down")) = .ok (e, t) ∧
      e.error = some { code := .loadFailed, message := "down" } := ⟨_, _, rfl, rfl⟩
  obtain ⟨hopen, -, -, -, hsame⟩ := failed_opening_keeps s _ _ hopening hfailed
  exact ⟨e, _, hopen session (.str "ann") _ rfl hanswer, hfailed, hsame.mpr (Or.inr ⟨rfl, rfl, hnumber⟩)⟩

/-- When another number cannot be loaded, it is selected all the same: the flow that is shown, with its id, would be
saved under it. -/
theorem failed_opening_selects :
    let hello : Block := { id := "hello", type := .say, position := ⟨.ofInt 120, .ofInt 80⟩, next := [], config := [] }
    let desk : CallFlow := {
      id := some ("desk" : Text), owner := "ann", phoneNumber := "+15550001111", name := "Desk", blocks := [hello] }
    let session : Session := { editor := (EditorState.loadFlow {} desk).state }
    ∃ e t, session.openNumber (.str "ann") (.str "+15550002222") { load := some ("down" : Text) } = .ok (e, t) ∧
      e.error = some { code := .loadFailed, message := "down" } ∧ session.editor.dirty = false ∧
      session.editor.numberToSave .null = .ok (some ("+15550001111" : Text)) ∧ t.editor.dirty = true ∧
      t.editor.currentId = some ("desk" : Text) ∧ t.editor.blocks = [hello] ∧
      t.editor.numberToSave .null = .ok (some ("+15550002222" : Text)) ∧ ¬ SameButError session.editor t.editor := by
  intro hello desk session
  refine ⟨_, _, rfl, rfl, rfl, rfl, rfl, rfl, rfl, rfl, fun hsame => ?_⟩
  exact absurd (congrArg dirty hsame) (by decide)

end EditorState
end Switchboard

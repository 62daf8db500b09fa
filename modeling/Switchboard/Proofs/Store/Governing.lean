import Switchboard.Proofs.Service.Requests
import Switchboard.Proofs.Store.Readable

/-! # Which flow answers the calls to a number

The lookup for a call goes by the columns as they are stored, and the flows are listed with a number in normal form and
with a status that is never blank. A row that a save has written is the same in both. Any other row may be shown as
active for a number without answering its calls; what the lookup gives is then still shown, but it need not be the one
that changed last.
-/
namespace Switchboard

def CallFlow.InUse (flow : CallFlow) (number : Text) : Prop :=
  flow.status = "active" ∧ flow.phoneNumber = PhoneNumber.normalize number

namespace Store

variable {s t u : Option Text}

theorem earlier_trans (h : earlier s t = false) (h' : earlier t u = false) : earlier s u = false := by
  cases s <;> cases t <;> cases u <;>
    simp_all only [earlier, decide_eq_false_iff_not, reduceCtorEq]
  exact List.not_lt.mpr (List.le_trans (List.not_lt.mp h') (List.not_lt.mp h))

theorem earlier_total (s t : Option Text) : earlier s t = false ∨ earlier t s = false := by
  cases s <;> cases t <;> simp only [earlier, decide_eq_false_iff_not, true_or, or_true]
  exact (List.le_total _ _).symm.imp List.not_lt.mpr List.not_lt.mpr

theorem earlier_self (s : Option Text) : earlier s s = false := (earlier_total s s).elim id id

theorem pairwise_newestFirst {α : Type} (time : α → Option Text) (rows : List α) :
    (newestFirst time rows).Pairwise fun a b => earlier (time a) (time b) = false := by
  refine (List.pairwise_mergeSort ?_ ?_ rows).imp fun h => ?_
  · intro a b c hab hbc
    rw [Bool.not_eq_true'] at hab hbc ⊢
    exact earlier_trans hab hbc
  · intro a b
    rw [Bool.or_eq_true, Bool.not_eq_true', Bool.not_eq_true']
    exact earlier_total _ _
  · rwa [Bool.not_eq_true'] at h

theorem not_earlier_of_head? {α : Type} {time : α → Option Text} {rows : List α} {a b : α}
    (ha : (newestFirst time rows).head? = some a) (hb : b ∈ rows) : earlier (time a) (time b) = false := by
  obtain ⟨rest, hrest⟩ := List.head?_eq_some_iff.mp ha
  have hsorted := pairwise_newestFirst time rows
  have hlisted : b ∈ newestFirst time rows := mem_newestFirst.mpr hb
  rw [hrest] at hsorted hlisted
  rcases List.mem_cons.mp hlisted with rfl | hb
  · exact earlier_self _
  · exact List.rel_of_pairwise_cons hsorted hb

namespace FlowRow

variable {row : FlowRow} {flow : CallFlow} {number : Text}

def Answers (row : FlowRow) (number : Text) : Prop :=
  row.phoneNumber = PhoneNumber.normalize number ∧ row.status = some ("active" : Text)

/-- Whether a row is shown as active for a number. -/
def Shows (row : FlowRow) (number : Text) : Prop :=
  PhoneNumber.normalize row.phoneNumber = PhoneNumber.normalize number ∧ (filled row.status).getD "active" = "active"

theorem Answers.shows (h : row.Answers number) : row.Shows number := by
  obtain ⟨hnumber, hstatus⟩ := h
  constructor
  · rw [hnumber, PhoneNumber.normalize_normalize]
  · rw [hstatus]
    rfl

/-- A row with a number in normal form and a status that is not blank answers the calls that it is shown for. -/
theorem Shows.answers_of_plain (h : row.Shows number) (hnormal : PhoneNumber.IsNormal row.phoneNumber)
    (hfilled : filled row.status = row.status) (hstatus : row.status.isSome = true) : row.Answers number := by
  obtain ⟨hnumber, hactive⟩ := h
  obtain ⟨status, hs⟩ := Option.isSome_iff_exists.mp hstatus
  constructor
  · rw [← hnumber, hnormal.eq]
  · rw [hfilled, hs] at hactive
    rw [hs, ← hactive]
    rfl

theorem shows_iff_of_toFlow (h : row.toFlow = .ok flow) :
    row.Shows number ↔ flow.InUse number := by
  obtain ⟨stored, -, h⟩ := Outcome.bind_eq_ok.mp h
  cases h
  exact and_comm

theorem updatedAt_of_toFlow (h : row.toFlow = .ok flow) : flow.updatedAt = row.updatedAt := by
  obtain ⟨stored, -, h⟩ := Outcome.bind_eq_ok.mp h
  cases h
  rfl

end FlowRow

namespace FlowTable

variable {table : FlowTable} {row : FlowRow} {flow : CallFlow} {flows : List CallFlow} {number : Text}

theorem mem_answering : (row ∈ table.filter fun row =>
    row.phoneNumber == PhoneNumber.normalize number && row.status == some ("active" : Text)) ↔
      row ∈ table ∧ row.Answers number := by
  simp [List.mem_filter, FlowRow.Answers]

theorem governing?_eq_none_iff : table.governing? number = none ↔ ∀ row ∈ table, ¬ row.Answers number := by
  rw [governing?, List.head?_eq_none_iff, List.eq_nil_iff_forall_not_mem]
  simp only [mem_newestFirst, mem_answering, not_and]

theorem of_governing? (h : table.governing? number = some row) : row ∈ table ∧ row.Answers number ∧
    ∀ other ∈ table, other.Answers number → earlier row.updatedAt other.updatedAt = false := by
  have hrow := mem_answering.mp (mem_newestFirst.mp (List.mem_of_mem_head? h))
  refine ⟨hrow.1, hrow.2, fun other hm hother => ?_⟩
  exact not_earlier_of_head? h (mem_answering.mpr ⟨hm, hother⟩)

theorem mem_of_list_none (hl : table.list none = .ok flows) : flow ∈ flows ↔ ∃ row ∈ table, row.toFlow = .ok flow := by
  have hall (row : FlowRow) (hm : row ∈ table) :
      row ∈ newestFirst FlowRow.createdAt (table.filter fun row => (filled none).all fun o => row.owner == o) :=
    mem_newestFirst.mpr (List.mem_filter.mpr ⟨hm, rfl⟩)
  constructor
  · intro hflow
    obtain ⟨row, hrow, hread⟩ := Outcome.mem_of_mapM_eq_ok hl hflow
    exact ⟨row, (List.mem_filter.mp (mem_newestFirst.mp hrow)).1, hread⟩
  · rintro ⟨row, hm, hread⟩
    obtain ⟨flow', hflow, hread'⟩ := Outcome.exists_of_mapM_eq_ok hl (hall row hm)
    cases hread.symm.trans hread'
    exact hflow

/-- Whether no flow that is shown for a number has changed after all those that answer its calls. -/
def AnswersLast (table : FlowTable) (number : Text) : Prop :=
  ∀ row ∈ table, row.Shows number →
    ∃ other ∈ table, other.Answers number ∧ earlier other.updatedAt row.updatedAt = false

theorem answersLast_of_plain (h : ∀ row ∈ table, PhoneNumber.IsNormal row.phoneNumber ∧
    filled row.status = row.status ∧ row.status.isSome = true) (number : Text) : table.AnswersLast number := by
  intro row hm hshows
  obtain ⟨hnormal, hfilled, hstatus⟩ := h row hm
  exact ⟨row, hm, hshows.answers_of_plain hnormal hfilled hstatus, earlier_self _⟩

theorem forNumber_eq_ok {found : Option CallFlow} (h : table.forNumber number = .ok found) :
    (table.governing? number).mapM FlowRow.toFlow = .ok found := by
  obtain ⟨_, -, h⟩ := Outcome.bind_eq_ok.mp h
  exact h

theorem answersLast_iff_of_none (hl : table.list none = .ok flows) (hnone : table.governing? number = none)
    (hreads : ∀ row ∈ table, ∃ flow, row.toFlow = .ok flow) :
    table.AnswersLast number ↔ ¬ ∃ flow ∈ flows, flow.InUse number := by
  have hanswers := governing?_eq_none_iff.mp hnone
  constructor
  · rintro hlast ⟨flow, hflow, huse⟩
    obtain ⟨row, hm, hread⟩ := (mem_of_list_none hl).mp hflow
    obtain ⟨other, hother, hanswer, -⟩ := hlast row hm ((FlowRow.shows_iff_of_toFlow hread).mpr huse)
    exact hanswers other hother hanswer
  · intro hshown row hm hshows
    obtain ⟨flow, hread⟩ := hreads row hm
    exact absurd ⟨flow, (mem_of_list_none hl).mpr ⟨row, hm, hread⟩, (FlowRow.shows_iff_of_toFlow hread).mp hshows⟩ hshown

theorem answersLast_iff_of_some (hl : table.list none = .ok flows) (hsome : table.governing? number = some row)
    (hreads : ∀ row ∈ table, ∃ flow, row.toFlow = .ok flow) : table.AnswersLast number ↔
      ∀ flow ∈ flows, flow.InUse number → earlier row.updatedAt flow.updatedAt = false := by
  obtain ⟨hm, hanswers, hgreatest⟩ := of_governing? hsome
  constructor
  · intro hlast flow hflow huse
    obtain ⟨shown, hshown, hread⟩ := (mem_of_list_none hl).mp hflow
    obtain ⟨other, hother, hanswer, hlater⟩ := hlast shown hshown ((FlowRow.shows_iff_of_toFlow hread).mpr huse)
    rw [FlowRow.updatedAt_of_toFlow hread]
    exact earlier_trans (hgreatest other hother hanswer) hlater
  · intro hlater shown hshown hshows
    obtain ⟨flow, hread⟩ := hreads shown hshown
    have hflow := (mem_of_list_none hl).mpr ⟨shown, hshown, hread⟩
    refine ⟨row, hm, hanswers, ?_⟩
    rw [← FlowRow.updatedAt_of_toFlow hread]
    exact hlater flow hflow ((FlowRow.shows_iff_of_toFlow hread).mp hshows)

/-- Where every row can be read, the lookup has an answer for every number that has bytes. It gives a flow that is listed
and in use for the number, if it gives one. It gives one exactly when there is one, and one that no other has changed
after, if and only if the last flow that is shown for the number answers its calls. -/
theorem forNumber_agrees (hreadable : ∀ row ∈ table, row.isReadable = true) (number : Text) :
    ∃ flows, table.list none = .ok flows ∧
      ((∃ found, table.forNumber number = .ok found) ↔ (PhoneNumber.normalize number).isPlain = true) ∧
      ∀ found, table.forNumber number = .ok found →
        (∀ flow, found = some flow → flow ∈ flows ∧ flow.InUse number) ∧
        (table.AnswersLast number ↔
          (found.isSome = true ↔ ∃ flow ∈ flows, flow.InUse number) ∧
          ∀ flow, found = some flow → ∀ other ∈ flows, other.InUse number →
            earlier flow.updatedAt other.updatedAt = false) := by
  have hreads (row : FlowRow) (hm : row ∈ table) : ∃ flow, row.toFlow = .ok flow :=
    FlowRow.toFlow_succeeds_iff.mpr (hreadable row hm)
  obtain ⟨flows, hl⟩ : ∃ flows, table.list none = .ok flows :=
    list_succeeds_iff.mpr ⟨rfl, fun row hm _ => hreadable row hm⟩
  refine ⟨flows, hl, ?_, fun found hfound => ?_⟩
  · rw [forNumber_succeeds_iff, and_iff_left_iff_imp]
    exact fun _ => Option.all_eq_true _ _ |>.mpr fun row hrow => hreadable row (of_governing? hrow).1
  have hgiven := forNumber_eq_ok hfound
  cases hgoverning : table.governing? number with
  | none =>
    rw [hgoverning] at hgiven
    cases hgiven
    refine ⟨by simp, ?_⟩
    rw [answersLast_iff_of_none hl hgoverning hreads]
    simp
  | some row =>
    obtain ⟨hm, hanswers, -⟩ := of_governing? hgoverning
    obtain ⟨flow, hread⟩ := hreads row hm
    have hflow := (mem_of_list_none hl).mpr ⟨row, hm, hread⟩
    have huse := (FlowRow.shows_iff_of_toFlow hread).mp hanswers.shows
    rw [hgoverning, Option.mapM_some, hread] at hgiven
    cases hgiven
    refine ⟨?_, ?_⟩
    · rintro found hfound
      cases hfound
      exact ⟨hflow, huse⟩
    · rw [answersLast_iff_of_some hl hgoverning hreads, ← FlowRow.updatedAt_of_toFlow hread]
      constructor
      · intro hlater
        refine ⟨iff_of_true rfl ⟨flow, hflow, huse⟩, fun found hfound => ?_⟩
        cases hfound
        exact hlater
      · rintro ⟨-, hlater⟩
        exact hlater flow rfl

def lineRow (owner : Text) (status : Option Text) (updatedAt : Text) : FlowRow where
  id := owner
  owner := owner
  phoneNumber := "+15550001111"
  name := "Line"
  status := status
  document := some (.arr [])
  recordingEnabled := true
  updatedAt := some updatedAt

theorem forNumber_agrees_lines :
    let table : FlowTable := [lineRow "ann" (some ("active" : Text)) "t1", lineRow "bob" (some ("active" : Text)) "t2"]
    ∃ flow flows, table.forNumber "+1 (555) 000-1111" = .ok (some flow) ∧ table.list none = .ok flows ∧
      flow ∈ flows ∧ flow.InUse "+1 (555) 000-1111" ∧
      ∀ other ∈ flows, other.InUse "+1 (555) 000-1111" → earlier flow.updatedAt other.updatedAt = false := by
  intro table
  have hreadable : ∀ row ∈ table, row.isReadable = true := by decide +kernel
  obtain ⟨flows, hl, hanswered, hgiven⟩ := forNumber_agrees hreadable "+1 (555) 000-1111"
  obtain ⟨found, hfound⟩ := hanswered.mpr (by decide +kernel)
  obtain ⟨hshown, hagrees⟩ := hgiven found hfound
  have hplain : ∀ row ∈ table, PhoneNumber.IsNormal row.phoneNumber ∧ filled row.status = row.status ∧
      row.status.isSome = true := by
    unfold PhoneNumber.IsNormal
    decide +kernel
  obtain ⟨hfinds, hgreatest⟩ := hagrees.mp (answersLast_of_plain hplain _)
  have hbob : lineRow "bob" (some ("active" : Text)) "t2" ∈ table := by simp [table]
  have hanswers : (lineRow "bob" (some ("active" : Text)) "t2").Answers "+1 (555) 000-1111" := ⟨by decide +kernel, rfl⟩
  obtain ⟨bob, hread⟩ := FlowRow.toFlow_succeeds_iff.mpr (hreadable _ hbob)
  obtain ⟨flow, rfl⟩ := Option.isSome_iff_exists.mp (hfinds.mpr
    ⟨bob, (mem_of_list_none hl).mpr ⟨_, hbob, hread⟩, (FlowRow.shows_iff_of_toFlow hread).mp hanswers.shows⟩)
  obtain ⟨hflow, huse⟩ := hshown flow rfl
  exact ⟨flow, flows, hfound, hl, hflow, huse, hgreatest flow rfl⟩

/-- A row whose status is left empty is listed as active, but it does not answer. -/
theorem emptyStatus_unanswered :
    let table : FlowTable := [lineRow "ann" none "t1"]
    (table.list none).toOption.map (List.map fun flow => (flow.status, flow.phoneNumber)) =
      some [(("active" : Text), ("+15550001111" : Text))] ∧
    (table.forNumber "+15550001111").toOption.map (Option.map CallFlow.id) = some none := by
  decide +kernel

end FlowTable
end Store

/-- Where all flows have been uploaded, the last one that is shown for a number answers its calls. -/
theorem Service.Served.answersLast {requests : List Http.Request} {db : Store.Database} (run : Served requests db)
    (number : Text) : db.flows.AnswersLast number := by
  refine Store.FlowTable.answersLast_of_plain (fun row hm => ?_) number
  obtain ⟨_, -, flow, now, ⟨⟨_, upload, -, hflow⟩, -⟩, hholds⟩ := run.rows_uploaded row hm
  obtain ⟨stored, -, hmade⟩ := Outcome.bind_eq_ok.mp hflow
  have hnumber : row.phoneNumber = PhoneNumber.normalize upload.phoneNumber := by
    rw [hholds, ← Outcome.pure_eq_ok.mp hmade]
    rfl
  have hstatus : row.status = some (if flow.status = "" then ("active" : Text) else flow.status) := by
    rw [hholds]
    rfl
  refine ⟨hnumber ▸ PhoneNumber.isNormal_normalize _, ?_, by rw [hstatus]; rfl⟩
  rw [hstatus, Store.filled]
  split <;> simp_all

end Switchboard

import Switchboard.Editor.Session
import Switchboard.Proofs.Store.Database
import Switchboard.Proofs.Store.Readable
import Switchboard.Service.Routing

/-! # What is done for an owner

The store, the service and the editor list the flows of an owner, and they remove flows for an owner. What is listed
comes from the rows of the owner, all of them, and a removal leaves the rows of everyone else. This takes an owner
with a name: one without counts as none, and what is done for none concerns every row.
-/
namespace Switchboard
open Store

namespace Store.FlowTable

variable {table : FlowTable} {owner : Text} {row : FlowRow} {flow : CallFlow} {flows : List CallFlow}

theorem owner_of_toFlow (h : row.toFlow = .ok flow) : flow.owner = row.owner := by
  obtain ⟨stored, -, h⟩ := Outcome.bind_eq_ok.mp h
  cases h
  rfl

/-- Whether what is done for an owner concerns no row of another: the owner has a name, or there is no such row. -/
def Confines (table : FlowTable) (owner : Text) : Prop :=
  owner ≠ "" ∨ ∀ row ∈ table, row.owner = owner

structure Lists (table : FlowTable) (owner : Text) (flows : List CallFlow) : Prop where
  own : ∀ flow ∈ flows, flow.owner = owner
  all : ∀ row ∈ table, row.owner = owner → ∃ flow ∈ flows, row.toFlow = .ok flow

theorem concerns_iff (h : table.Confines owner) (hm : row ∈ table) :
    ((filled (some owner)).all fun o => row.owner == o) = true ↔ row.owner = owner := by
  by_cases hnamed : owner = ""
  · have hown : row.owner = owner := h.resolve_left (fun hne => hne hnamed) row hm
    subst hnamed
    simp [filled, hown]
  · simp [filled, Option.filter, hnamed]

theorem mapM_of_list {owner : Option Text} (hl : table.list owner = .ok flows) : (newestFirst FlowRow.createdAt
    (table.filter fun row => (filled owner).all fun o => row.owner == o)).mapM FlowRow.toFlow = .ok flows := by
  obtain ⟨_, -, hl⟩ := Outcome.bind_eq_ok.mp hl
  exact hl

theorem lists_iff_confines (hl : table.list (some owner) = .ok flows) : table.Lists owner flows ↔ table.Confines owner := by
  constructor
  · intro h
    refine or_iff_not_imp_left.mpr fun hnamed row hm => ?_
    have hrow : row ∈ table.filter fun row => (filled (some owner)).all fun o => row.owner == o := by
      rw [not_not.mp hnamed]
      exact List.mem_filter.mpr ⟨hm, rfl⟩
    obtain ⟨flow, hflow, hread⟩ := Outcome.exists_of_mapM_eq_ok (mapM_of_list hl) (mem_newestFirst.mpr hrow)
    rw [← owner_of_toFlow hread]
    exact h.own flow hflow
  · intro h
    constructor
    · intro flow hflow
      obtain ⟨row, hrow, hread⟩ := Outcome.mem_of_mapM_eq_ok (mapM_of_list hl) hflow
      obtain ⟨hm, hown⟩ := List.mem_filter.mp (mem_newestFirst.mp hrow)
      rw [owner_of_toFlow hread]
      exact (concerns_iff h hm).mp hown
    · intro row hm hown
      have hrow : row ∈ table.filter fun row => (filled (some owner)).all fun o => row.owner == o :=
        List.mem_filter.mpr ⟨hm, (concerns_iff h hm).mpr hown⟩
      exact Outcome.exists_of_mapM_eq_ok (mapM_of_list hl) (mem_newestFirst.mpr hrow)

theorem exists_unreadable_of_list {fault : Fault} (h : table.Confines owner) (hplain : owner.isPlain = true)
    (hl : table.list (some owner) = .error fault) : ∃ row ∈ table, row.owner = owner ∧ row.isReadable = false := by
  by_contra hnone
  have hbound : (filled (some owner)).all Text.isPlain = true := by
    rw [filled, Option.filter_some]
    split <;> simp [hplain]
  obtain ⟨flows, hlisted⟩ : ∃ flows, table.list (some owner) = .ok flows := by
    refine list_succeeds_iff.mpr ⟨hbound, fun row hm hown => ?_⟩
    by_contra hread
    exact hnone ⟨row, hm, (concerns_iff h hm).mp hown, Bool.eq_false_iff.mpr hread⟩
  cases hl.symm.trans hlisted

theorem delete_filter_owner (h : table.Confines owner) {id : Text} {found : Bool} {rest : FlowTable}
    (hd : table.delete id (some owner) = .ok (found, rest)) :
    rest.filter (fun row => row.owner != owner) = table.filter fun row => row.owner != owner := by
  obtain ⟨_, -, hd⟩ := Outcome.bind_eq_ok.mp hd
  obtain ⟨-, rfl⟩ := Prod.mk.inj (Outcome.pure_eq_ok.mp hd)
  rw [List.filter_filter]
  refine List.filter_congr fun row hm => ?_
  by_cases hown : row.owner = owner
  · simp [hown]
  · have hkept : matchesOwned id (some owner) row = false := by
      rw [matchesOwned, Bool.eq_false_iff.mpr (mt (concerns_iff h hm).mp hown), Bool.and_false]
    rw [hkept, Bool.not_false, Bool.and_true]

end Store.FlowTable

namespace Store.Database

variable {db after : Database} {owner : Text} {flows : List CallFlow} {id : Value} {found : Bool}

theorem flowsOf_str (db : Database) (owner : Text) :
    db.flowsOf (.str owner) = db.flows?.bind fun table => table.list (some owner) := by
  by_cases hnamed : owner = ""
  · rw [hnamed]
    rfl
  · have htruthy : (Value.str owner).truthy? = some (.str owner) := by
      simp [Value.truthy?, Value.truthy, hnamed]
    rw [flowsOf, htruthy]
    cases owner with
    | plain s => rfl
    | loose symbols hasHalf =>
      -- the list is not asked for, and it would refuse the owner as well
      have hrefused : (filled (some (Text.loose symbols hasHalf))).toList = [.loose symbols hasHalf] := by
        simp [filled, Option.filter]
      simp only [FlowTable.list, hrefused]
      rfl

theorem lists_iff_confines_flowsOf (hl : db.flowsOf (.str owner) = .ok flows) :
    db.flows.Lists owner flows ↔ db.flows.Confines owner := by
  rw [flowsOf_str] at hl
  obtain ⟨table, htable, hl⟩ := Outcome.bind_eq_ok.mp hl
  rw [flows?_eq_ok htable] at hl
  exact FlowTable.lists_iff_confines hl

theorem deleteFlow_filter_owner (h : db.flows.Confines owner) {id : Text}
    (hd : db.deleteFlow id (some owner) = .ok (found, after)) :
    after.flows.filter (fun row => row.owner != owner) = db.flows.filter fun row => row.owner != owner := by
  obtain ⟨table, htable, hd⟩ := Outcome.bind_eq_ok.mp hd
  obtain ⟨_, hdelete, hd⟩ := Outcome.bind_eq_ok.mp hd
  cases hd
  rw [flows?_eq_ok htable] at hdelete
  exact FlowTable.delete_filter_owner h hdelete

/-- A removal for an owner deletes a flow as one of the owner's, or it changes nothing. -/
theorem removeFlow_str_cases (hr : db.removeFlow id (.str owner) = .ok (found, after)) :
    after = db ∨ ∃ idText, db.deleteFlow idText (some owner) = .ok (found, after) := by
  obtain ⟨_, -, hr⟩ := Outcome.bind_eq_ok.mp hr
  obtain ⟨idText, -, hr⟩ := Outcome.bind_eq_ok.mp hr
  obtain ⟨ownerText, hownerText, hr⟩ := Outcome.bind_eq_ok.mp hr
  cases idText with
  | none =>
    cases hr
    exact Or.inl rfl
  | some idText =>
    refine Or.inr ⟨idText, ?_⟩
    by_cases hnamed : owner = ""
    -- an empty owner is dropped, and a deletion for none is one for the empty owner
    · rw [hnamed] at hr ⊢
      exact hr
    · have htruthy : (Value.str owner).truthy = true := by simp [Value.truthy, hnamed]
      rw [Value.orElse, htruthy, if_pos rfl] at hownerText
      cases owner with
      | loose symbols hasHalf => cases hownerText
      | plain s =>
        cases hownerText
        rw [htruthy] at hr
        exact hr

theorem removeFlow_filter_owner (h : db.flows.Confines owner) (hr : db.removeFlow id (.str owner) = .ok (found, after)) :
    after.flows.filter (fun row => row.owner != owner) = db.flows.filter fun row => row.owner != owner := by
  rcases removeFlow_str_cases hr with rfl | ⟨idText, hd⟩
  · rfl
  · exact deleteFlow_filter_owner h hd

end Store.Database

namespace Service
open Http (Request)

variable {db : Database} {settings : Settings} {now : String} {owner : Text} {request : Request}

theorem respond_flows (hpath : request.path = "/api/call-flows/") (hmethod : request.method = .get) :
    respond settings db now request = listFlows db request := by
  have hnamed : Resource.ofPath "/api/call-flows/" = [.flows] := by decide +kernel
  have hknown : (Resource.methods .flows).contains request.method = true := by rw [hmethod]; rfl
  simp only [respond, hpath, hnamed, List.find?_cons, hknown, answerAt]
  rw [if_neg (by rw [hmethod]; decide)]

theorem isPlain_of_readQueryText {name t : Text} (h : readQueryText request name = .done t) : t.isPlain = true := by
  obtain ⟨v, hv, hread⟩ := Reading.field_eq_done.mp (Reading.under_eq_done.mp h)
  obtain ⟨before, after, hentries, -⟩ := List.lookup_eq_some_iff.mp hv
  have hentry : (name, v) ∈ request.queryParameters.toEntries := hentries ▸ List.mem_append_cons_self
  obtain ⟨p, -, hp⟩ := List.mem_map.mp hentry
  cases hp
  cases hread
  rfl

/-- What the service tells as the flows of an owner are those of the owner, unless it cannot be written. The request
fails otherwise only where the table is out of reach or a row of the owner cannot be read. -/
theorem listFlows_cases (h : db.flows.Confines owner) (hread : readQueryText request "owner" = .done owner) :
    (∃ flows, db.flows.Lists owner flows ∧
      listFlows db request = (success (.obj [("flows", .arr (flows.map CallFlow.toValue))]), db)) ∨
    listFlows db request = (failure, db) ∧
      (db.hasFlows = false ∨ ∃ row ∈ db.flows, row.owner = owner ∧ row.isReadable = false) := by
  simp only [listFlows, answering, hread]
  cases hin : db.hasFlows with
  | false =>
    rw [Database.flows?, hin]
    exact Or.inr ⟨rfl, Or.inl rfl⟩
  | true =>
    simp only [Database.flows?, hin, if_pos, bind, Except.bind]
    cases hlist : db.flows.list (some owner) with
    | error fault =>
      exact Or.inr ⟨rfl, Or.inr (FlowTable.exists_unreadable_of_list h (isPlain_of_readQueryText hread) hlist)⟩
    | ok flows => exact Or.inl ⟨flows, (FlowTable.lists_iff_confines hlist).mpr h, rfl⟩

end Service

namespace Session
open Service

variable {s : Session} {owner : Text}

theorem loadFlows_cases (h : s.database.flows.Confines owner) (outage : Outage) :
    (s.loadFlows (.str owner) outage).1 = true ∧
        s.database.flows.Lists owner (s.loadFlows (.str owner) outage).2.editor.flows ∨
      (s.loadFlows (.str owner) outage).1 = false ∧
        (s.loadFlows (.str owner) outage).2.editor.flows = s.editor.flows := by
  unfold loadFlows
  cases hanswer : Outage.orElse outage.list (s.database.flowsOf (.str owner)) with
  | error fault => exact Or.inr ⟨rfl, rfl⟩
  | ok flows =>
    exact Or.inl ⟨rfl, (Database.lists_iff_confines_flowsOf (Outage.eq_ok_of_orElse hanswer)).mpr h⟩

theorem deleteFlow_filter_owner (h : s.database.flows.Confines owner) (id : Value) (outage : Outage) :
    (s.deleteFlow id (.str owner) outage).2.database.flows.filter (fun row => row.owner != owner) =
      s.database.flows.filter fun row => row.owner != owner := by
  unfold deleteFlow
  split
  · rfl
  · rfl
  · rename_i after hremoved
    exact Database.removeFlow_filter_owner h (Outage.eq_ok_of_orElse hremoved)

/-- What is done for an owner stays with the owner. The flows that the store, the service and the editor list are the
owner's, and a removal by the store or the editor leaves the rows of everyone else. -/
theorem within_owner (s : Session) (h : s.database.flows.Confines owner) :
    (∀ flows, s.database.flowsOf (.str owner) = .ok flows → s.database.flows.Lists owner flows) ∧
    (∀ settings now request, request.path = "/api/call-flows/" → request.method = .get →
      readQueryText request "owner" = .done owner →
        (∃ flows, s.database.flows.Lists owner flows ∧ respond settings s.database now request =
          (success (.obj [("flows", .arr (flows.map CallFlow.toValue))]), s.database)) ∨
        respond settings s.database now request = (failure, s.database) ∧ (s.database.hasFlows = false ∨
          ∃ row ∈ s.database.flows, row.owner = owner ∧ row.isReadable = false)) ∧
    (∀ outage, (s.loadFlows (.str owner) outage).1 = true ∧
          s.database.flows.Lists owner (s.loadFlows (.str owner) outage).2.editor.flows ∨
        (s.loadFlows (.str owner) outage).1 = false ∧
          (s.loadFlows (.str owner) outage).2.editor.flows = s.editor.flows) ∧
    (∀ id found after, s.database.removeFlow id (.str owner) = .ok (found, after) →
      after.flows.filter (fun row => row.owner != owner) =
        s.database.flows.filter fun row => row.owner != owner) ∧
    ∀ id outage, (s.deleteFlow id (.str owner) outage).2.database.flows.filter (fun row => row.owner != owner) =
      s.database.flows.filter fun row => row.owner != owner := by
  refine ⟨fun _ hl => (Database.lists_iff_confines_flowsOf hl).mpr h, ?_, loadFlows_cases h, ?_, deleteFlow_filter_owner h⟩
  · intro settings now request hpath hmethod hread
    rw [respond_flows hpath hmethod]
    exact listFlows_cases h hread
  · exact fun _ _ _ hr => Database.removeFlow_filter_owner h hr

def twoDesks : Store.Database :=
  (Database.FlowOperation.save { id := none, owner := "bob", phoneNumber := "+15550002222" } true "t1").apply
    Database.withOneFlow

theorem within_owner_bob :
    let s : Session := { database := twoDesks }
    let ann := Supply.identifier 1
    (twoDesks.flows.map fun row => [row.id, row.owner]) =
      [[(ann : Text), ("ann" : Text)], [(Supply.identifier 2 : Text), ("bob" : Text)]] ∧
    (s.deleteFlow (.str ann) (.str "bob") {}).2.database.flows.filter (fun row => row.owner != ("bob" : Text)) =
      twoDesks.flows.filter (fun row => row.owner != ("bob" : Text)) ∧
    twoDesks.flows.Lists "bob" (s.loadFlows (.str "bob") {}).2.editor.flows := by
  intro s ann
  have hconfines : s.database.flows.Confines "bob" := Or.inl (by decide)
  have hloads : (s.loadFlows (.str "bob") {}).1 = true := by decide +kernel
  obtain ⟨-, -, hlists, -, hleft⟩ := within_owner s hconfines
  refine ⟨by decide +kernel, hleft (.str ann) {}, ?_⟩
  rcases hlists {} with ⟨-, hlisted⟩ | ⟨hfails, -⟩
  · exact hlisted
  · exact absurd (hloads.symm.trans hfails) (by decide)

/-- An owner without a name is shown the flows of everyone, and it removes them. -/
theorem nameless_owner_unconfined :
    let s : Session := { database := twoDesks }
    (∃ flows, s.database.flowsOf (.str "") = .ok flows ∧ ¬ s.database.flows.Lists "" flows) ∧
    s.database.flows.map FlowRow.owner = [("ann" : Text), ("bob" : Text)] ∧
    (s.deleteFlow (.str (Supply.identifier 1)) (.str "") {}).2.database.flows.map FlowRow.owner = [("bob" : Text)] := by
  intro s
  have howners : s.database.flows.map FlowRow.owner = [("ann" : Text), ("bob" : Text)] := by decide +kernel
  refine ⟨?_, howners, by decide +kernel⟩
  have hlists : ∃ flows, s.database.flowsOf (.str "") = .ok flows := by
    rw [Database.flowsOf_str]
    exact FlowTable.list_succeeds_iff.mpr ⟨rfl, by decide +kernel⟩
  obtain ⟨flows, hlist⟩ := hlists
  refine ⟨flows, hlist, fun h => ?_⟩
  have hconfines : s.database.flows.Confines "" := (Database.lists_iff_confines_flowsOf hlist).mp h
  have hnameless : ∀ owner ∈ s.database.flows.map FlowRow.owner, owner = "" :=
    List.forall_mem_map.mpr (hconfines.resolve_left fun hne => hne rfl)
  rw [howners] at hnameless
  exact absurd (hnameless "ann" List.mem_cons_self) (by decide)

end Session
end Switchboard

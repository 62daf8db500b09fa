import Switchboard.Call.Event
import Switchboard.Markup.Script
import Switchboard.Proofs.Http.Parameters
import Switchboard.Proofs.Http.Url
import Switchboard.Proofs.Markup.Script
import Switchboard.Proofs.Number.Numeral
import Switchboard.Proofs.Outcome
import Mathlib.Data.Bool.AllAny
import Mathlib.Data.List.Nodup
import Switchboard.Simulation.Steps

/-! # The place of a call in an address

A script tells the provider where a call goes on by an address, and the next callback is a request to it. The place is
read from its query as it was written, whatever texts the ids are, as long as the numbers do not have too many
digits to be written. What the body of the callback tells besides does not change it.
-/
namespace Switchboard

open Http (Origin Parameters)
open Text (dropTrailingString encodePairs)

variable {c : Continuation} {parameters : Parameters}

theorem CallEvent.countOf_toString {n : Int} (h : n.natAbs < Numeral.leastOversized) :
    countOf (some (toString n : String)) = n := by
  rw [countOf, Option.bind_some, Text.plain?, Option.bind_some, Numeral.readInteger?_toString h, Option.getD_some]

theorem CallEvent.natAbs_countOf_lt (parameter : Option Text) :
    (countOf parameter).natAbs < Numeral.leastOversized := by
  have hzero : 0 < Numeral.leastOversized := by decide +kernel
  unfold countOf
  cases h : parameter.bind fun t => t.plain?.bind Numeral.readInteger? with
  | none => exact hzero
  | some n =>
    obtain ⟨t, -, h⟩ := Option.bind_eq_some_iff.mp h
    obtain ⟨s, -, h⟩ := Option.bind_eq_some_iff.mp h
    exact Numeral.natAbs_lt_of_readInteger? h

namespace Continuation

/-- Whether a place can be told: its block is named, its flow is not without a name, and its parts can be written. -/
structure CanBeTold (c : Continuation) : Prop where
  block : ∃ id : String, c.blockId = id ∧ id ≠ ""
  flow : ∀ id ∈ c.flowId, ∃ s : String, id = s ∧ s ≠ ""
  attempt : c.attempt.natAbs < Numeral.leastOversized
  hops : c.hops.natAbs < Numeral.leastOversized

structure IsHeldBy (c : Continuation) (parameters : List (Text × Text)) : Prop where
  flow : parameters.lookup ("flow" : Text) = c.flowId
  node : parameters.lookup ("node" : Text) = some c.blockId
  attempt : parameters.lookup ("attempt" : Text) = some (Text.plain (toString c.attempt))
  hops : parameters.lookup ("hops" : Text) = some (Text.plain (toString c.hops))

structure IsPlaceOf (c : Continuation) (event : CallEvent) : Prop where
  flowId : event.flowId = c.flowId
  currentBlockId : event.currentBlockId = some c.blockId
  attempt : event.attempt = c.attempt
  hops : event.hops = c.hops

theorem CanBeTold.isPlaceOf {parameters : List (Text × Text)} (h : c.CanBeTold) (hheld : c.IsHeldBy parameters) :
    c.IsPlaceOf (CallEvent.ofParameters parameters) := by
  obtain ⟨id, hblock, hid⟩ := h.block
  constructor
  · exact hheld.flow
  · simp [CallEvent.ofParameters, hheld.node, hblock, hid]
  · exact (congrArg _ hheld.attempt).trans (CallEvent.countOf_toString h.attempt)
  · exact (congrArg _ hheld.hops).trans (CallEvent.countOf_toString h.hops)

theorem CanBeTold.filter_flowId (h : c.CanBeTold) : c.flowId.filter (· != ("" : Text)) = c.flowId := by
  cases hid : c.flowId with
  | none => rfl
  | some id =>
    obtain ⟨s, rfl, hs⟩ := h.flow id hid
    simp [hs]

/-- What can be told is told by parameters. -/
theorem CanBeTold.exists_parameters (h : c.CanBeTold) :
    ∃ parameters, Markup.continuationParameters c = .ok parameters := by
  obtain ⟨node, hnode, -⟩ := h.block
  obtain ⟨flow, hflow⟩ : ∃ flow : List String, c.flowId.toList = flow.map Text.plain := by
    cases hid : c.flowId with
    | none => exact ⟨[], rfl⟩
    | some id =>
      obtain ⟨s, rfl, -⟩ := h.flow id hid
      exact ⟨[s], rfl⟩
  refine ⟨_, Markup.continuationParameters_eq_ok.mpr ⟨h.attempt, h.hops, flow, node, ?_, hnode, rfl⟩⟩
  rw [h.filter_flowId, hflow]

theorem CanBeTold.isHeldBy (h : c.CanBeTold) (hparameters : Markup.continuationParameters c = .ok parameters) :
    c.IsHeldBy parameters.texts := by
  obtain ⟨-, -, flow, node, hflow, hnode, rfl⟩ := Markup.continuationParameters_eq_ok.mp hparameters
  rw [h.filter_flowId] at hflow
  cases hid : c.flowId with
  | none =>
    rw [hid] at hflow
    obtain rfl := List.map_eq_nil_iff.mp hflow.symm
    exact ⟨hid.symm, hnode ▸ rfl, rfl, rfl⟩
  | some id =>
    rw [hid] at hflow
    obtain ⟨s, rest, rfl, hs, hrest⟩ := List.map_eq_cons_iff.mp hflow.symm
    obtain rfl := List.map_eq_nil_iff.mp hrest
    exact ⟨(hid.trans (congrArg some hs.symm)).symm, hnode ▸ rfl, rfl, rfl⟩

theorem parameters_ne_nil (h : Markup.continuationParameters c = .ok parameters) : parameters ≠ [] := by
  obtain ⟨-, -, flow, node, -, -, rfl⟩ := Markup.continuationParameters_eq_ok.mp h
  simp

theorem names_nodup (h : Markup.continuationParameters c = .ok parameters) : (parameters.map Prod.fst).Nodup := by
  obtain ⟨-, -, flow, node, hflow, -, rfl⟩ := Markup.continuationParameters_eq_ok.mp h
  cases hid : c.flowId.filter (· != ("" : Text)) with
  | none =>
    rw [hid] at hflow
    obtain rfl := List.map_eq_nil_iff.mp hflow.symm
    exact (by decide : ["node", "attempt", "hops"].Nodup)
  | some id =>
    rw [hid] at hflow
    obtain ⟨s, rest, rfl, -, hrest⟩ := List.map_eq_cons_iff.mp hflow.symm
    obtain rfl := List.map_eq_nil_iff.mp hrest
    exact (by decide : ["flow", "node", "attempt", "hops"].Nodup)

def parameterNames : List Text := [("flow" : Text), "node", "attempt", "hops"]

theorem map_fst_texts (parameters : Parameters) :
    parameters.texts.map Prod.fst = (parameters.map Prod.fst).map Text.plain := by
  rw [Parameters.texts, List.map_map, List.map_map]
  rfl

/-- What the body of a callback tells besides leaves the place as the query has it. -/
theorem IsHeldBy.above {body : List (Text × Text)} {query : Parameters} (hquery : (query.map Prod.fst).Nodup)
    (h : c.IsHeldBy query.texts) (hbody : ∀ name ∈ parameterNames, body.lookup name = none) :
    c.IsHeldBy (Parameters.above body query) := by
  have hnodup : (query.texts.map Prod.fst).Nodup := by
    rw [map_fst_texts]
    exact List.Nodup.map (fun _ _ h => Text.plain.inj h) hquery
  have hlookup (name : Text) (hname : name ∈ parameterNames) :
      (Parameters.above body query).lookup name = query.texts.lookup name := by
    rw [Parameters.above, Parameters.lookup_settle_append (hbody name hname), Parameters.settle_eq_self hnodup]
  constructor
  · rw [hlookup "flow" (by decide), h.flow]
  · rw [hlookup "node" (by decide), h.node]
  · rw [hlookup "attempt" (by decide), h.attempt]
  · rw [hlookup "hops" (by decide), h.hops]

theorem isShown_encodePairs (pairs : List (String × String)) :
    ∀ c ∈ (encodePairs pairs).toList, c ≠ '#' ∧ Http.isShown c = true := by
  intro c hc
  rcases Http.mem_encodePairs hc with rfl | rfl | hquery
  · decide
  · decide
  · refine ⟨?_, ?_⟩
    · rintro rfl
      exact absurd hquery (by decide)
    · simp only [Text.isQueryChar, Bool.and_eq_true] at hquery
      exact hquery.1.1

theorem voicePath_plain : ∀ c ∈ Markup.voicePath.toList, c ≠ '?' ∧ c ≠ '#' ∧ Http.isShown c = true :=
  List.all_iff_forall_prop.mp (by decide)

theorem ofQuery_encodePairs (h : Markup.continuationParameters c = .ok parameters) :
    Parameters.ofQuery (encodePairs parameters) = parameters :=
  Parameters.ofQuery_encodePairs (parameters_ne_nil h) (names_nodup h)

theorem encodePairs_ne_empty (h : Markup.continuationParameters c = .ok parameters) : encodePairs parameters ≠ "" := by
  intro hempty
  have hread := ofQuery_encodePairs h
  rw [hempty] at hread
  exact parameters_ne_nil h hread.symm

/-- Where the callback goes that parameters are told to. -/
def address (parameters : Parameters) : Http.Url where
  path := Markup.voicePath
  query := encodePairs parameters

theorem isPlain_address (parameters : Parameters) : (address parameters).IsPlain where
  begins := (rfl : Markup.voicePath.toList.head? = some '/')
  path := voicePath_plain
  query := isShown_encodePairs _

theorem target_address (h : Markup.continuationParameters c = .ok parameters) :
    (address parameters).target = Markup.voicePath ++ "?" ++ encodePairs parameters := by
  rw [Http.Url.target, address, if_neg (encodePairs_ne_empty h)]

theorem continuationUrl_eq_ok {base : Text} {short url : String} (hbase : Text.dropTrailing '/' base = short) :
    Markup.continuationUrl base Markup.voicePath c = .ok url ↔
      ∃ parameters, Markup.continuationParameters c = .ok parameters ∧ url = short ++ (address parameters).target := by
  rw [Markup.continuationUrl_eq_ok, hbase]
  constructor
  · rintro ⟨parameters, own, hparameters, hown, rfl⟩
    obtain rfl := Text.plain.inj hown
    exact ⟨parameters, hparameters, by rw [target_address hparameters]; simp only [String.append_assoc]⟩
  · rintro ⟨parameters, hparameters, rfl⟩
    refine ⟨parameters, short, hparameters, rfl, ?_⟩
    rw [target_address hparameters]
    simp only [String.append_assoc]

/-- The place of a call survives the way through the provider. The address that a script gives for it is one of the
service, and its query tells the place, whatever the callback tells besides; its path and query, put behind the address
of the service, are the address again. -/
theorem position_survives (origin : Origin) (slashes : Nat) (hc : c.CanBeTold) :
    let base := origin.text ++ String.ofList (List.replicate slashes '/')
    ∃ url target, Markup.continuationUrl base Markup.voicePath c = .ok url ∧ Http.Url.parse url = .ok target ∧
      target.path = Markup.voicePath ∧
      c.IsPlaceOf (CallEvent.ofParameters (Parameters.ofQuery target.query).texts) ∧
      (∀ body : List (Text × Text), (∀ name ∈ parameterNames, body.lookup name = none) →
        c.IsPlaceOf (CallEvent.ofParameters (Parameters.above body (Parameters.ofQuery target.query)))) ∧
      ∃ path, Simulation.pathOf url = .ok path ∧ dropTrailingString '/' base ++ path = url := by
  intro base
  have hbase : dropTrailingString '/' base = origin.text := origin.dropTrailing_text slashes
  obtain ⟨parameters, hparameters⟩ := hc.exists_parameters
  have htext : Text.dropTrailing '/' base = origin.text := congrArg Text.plain hbase
  have hurl : Markup.continuationUrl base Markup.voicePath c = .ok _ :=
    (continuationUrl_eq_ok htext).mpr ⟨parameters, hparameters, rfl⟩
  have hparse : Http.Url.parse (origin.text ++ (address parameters).target) = .ok (address parameters) := by
    have hkept := Http.Url.keepsTargets_of_origin hbase (address parameters) (isPlain_address parameters)
    rwa [hbase] at hkept
  have hquery : Parameters.ofQuery (address parameters).query = parameters := ofQuery_encodePairs hparameters
  have hheld := hc.isHeldBy hparameters
  refine ⟨_, _, hurl, hparse, rfl, ?_, ?_, ?_⟩
  · rw [hquery]
    exact hc.isPlaceOf hheld
  · intro body hbody
    rw [hquery]
    exact hc.isPlaceOf (hheld.above (names_nodup hparameters) hbody)
  · refine ⟨_, Outcome.map_eq_ok.mpr ⟨_, hparse, rfl⟩, ?_⟩
    rw [hbase]

def localhost : Origin where
  scheme := "http".toList
  host := "localhost:8000".toList
  begins := by decide
  schemeChars := List.all_iff_forall_prop.mp (by decide)
  host_ne_nil := by decide
  hostChars := List.all_iff_forall_prop.mp (by decide)
  accepted := by decide +kernel

theorem position_survives_marks :
    let c : Continuation := { flowId := some "a&b=c", blockId := "grüße #1?", attempt := 2, hops := -3 }
    ∃ url target, Markup.continuationUrl "http://localhost:8000//" Markup.voicePath c = .ok url ∧
      Http.Url.parse url = .ok target ∧
      c.IsPlaceOf (CallEvent.ofParameters (Parameters.ofQuery target.query).texts) := by
  intro c
  have hc : c.CanBeTold := ⟨⟨_, rfl, by decide⟩, by rintro _ ⟨⟩; exact ⟨_, rfl, by decide⟩, by decide +kernel,
    by decide +kernel⟩
  obtain ⟨url, target, hurl, hparse, -, hplace, -⟩ := position_survives localhost 2 hc
  exact ⟨url, target, hurl, hparse, hplace⟩

theorem continuationUrl_oversized (base : Text) (path : String) {flowId : Option String} {blockId : String}
    (hflow : c.flowId = flowId.map Text.plain) (hblock : c.blockId = blockId)
    (h : Numeral.leastOversized ≤ c.attempt.natAbs) : Markup.continuationUrl base path c = .error .oversized := by
  have hids : (c.flowId.filter (· != ("" : Text))).toList.mapM Text.encoded =
      .ok (flowId.filter (· != "")).toList := by
    rw [Text.mapM_encoded_eq_ok, hflow]
    cases flowId with
    | none => rfl
    | some id =>
      rw [Option.map_some, Option.filter_some, Option.filter_some, bne, Text.plain_beq_plain, ← bne]
      split <;> rfl
  have hattempt : Markup.integerText c.attempt = .error .oversized := by
    rw [Markup.integerText, Numeral.text?, if_neg (Nat.not_lt.mpr h)]
    rfl
  rw [Markup.continuationUrl, Markup.continuationParameters, hids, hblock, hattempt]
  rfl

/-- A number with too many digits is not told: there is no address for it, and no parameters tell it either. -/
theorem oversized_attempt_untold : ∃ c : Continuation, c.blockId = "main" ∧ c.flowId = none ∧
    c.attempt = Numeral.leastOversized ∧ c.hops = 0 ∧
    Markup.continuationUrl "http://localhost:8000" Markup.voicePath c = .error .oversized ∧
    ∀ parameters, (CallEvent.ofParameters parameters).attempt ≠ c.attempt := by
  obtain ⟨n, hn⟩ : ∃ n : Int, n = Numeral.leastOversized := ⟨_, rfl⟩
  have hsize : n.natAbs = Numeral.leastOversized := (congrArg Int.natAbs hn).trans (Int.natAbs_natCast _)
  refine ⟨{ blockId := "main", attempt := n }, rfl, rfl, hn, rfl, ?_, ?_⟩
  · have hflow : (none : Option Text) = (none : Option String).map Text.plain := rfl
    exact continuationUrl_oversized _ _ hflow rfl hsize.ge
  · intro parameters htold
    have hread : (CallEvent.ofParameters parameters).attempt.natAbs < Numeral.leastOversized :=
      CallEvent.natAbs_countOf_lt _
    rw [htold, hsize] at hread
    exact Nat.lt_irrefl _ hread

end Continuation
end Switchboard

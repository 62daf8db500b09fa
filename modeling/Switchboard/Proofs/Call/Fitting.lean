import Switchboard.Proofs.Call.Origin
import Switchboard.Proofs.Call.Spoken
import Switchboard.Proofs.Call.Steady
import Switchboard.Proofs.Flow.Closure
import Mathlib.Algebra.Order.BigOperators.Group.List
import Mathlib.Algebra.Order.Ring.Nat

/-! # Calls that fit

Where no block leads back to itself, a call comes to every block at most once, and to a menu again only while this has
attempts left. So the blocks that can be reached and the attempts of the menus among them bound the length of every
call, and where the limit leaves room for them it is never what ends a call.
-/
namespace Switchboard
open Relation (TransGen)

variable {K : Type}

namespace Graph

variable {blocks : List (Block K)} {reached trail : List Text} {id target : Text}

/-- A way through the graph, the latest id first: every id is reached, and can be reached from those before it. -/
structure Trail (blocks : List (Block K)) (reached trail : List Text) : Prop where
  within : trail ⊆ reached
  ordered : trail.Pairwise fun later earlier => TransGen (Leads blocks) earlier later

namespace Trail

theorem single (h : id ∈ reached) : Trail blocks reached [id] :=
  ⟨List.cons_subset.mpr ⟨h, List.nil_subset _⟩, List.pairwise_singleton _ _⟩

theorem tail (h : Trail blocks reached (id :: trail)) : Trail blocks reached trail :=
  ⟨fun _ hmem => h.within (List.mem_cons_of_mem _ hmem), h.ordered.of_cons⟩

theorem extend (h : Trail blocks reached (id :: trail)) (hleads : Leads blocks id target) (htarget : target ∈ reached) :
    Trail blocks reached (target :: id :: trail) := by
  refine ⟨List.cons_subset.mpr ⟨htarget, h.within⟩, List.pairwise_cons.mpr ⟨?_, h.ordered⟩⟩
  intro earlier hmem
  rcases List.mem_cons.mp hmem with rfl | hmem
  · exact .single hleads
  · exact (List.rel_of_pairwise_cons h.ordered hmem).tail hleads

theorem nodup (h : Trail blocks reached trail) (hacyclic : ∀ id ∈ reached, ¬ TransGen (Leads blocks) id id) :
    trail.Nodup := by
  refine h.ordered.imp_of_mem fun hmem _ hpath heq => ?_
  subst heq
  exact hacyclic _ (h.within hmem) hpath

end Trail
end Graph

namespace Interpreter
open Switchboard.Graph (Trail)

/-- How often a block can be offered again: a menu has one attempt less for that than it has in all. -/
def repeats (settings : Settings) (b : Block K) : Nat :=
  if b.type = .menu then ((maxAttempts settings b).toOption.getD 1 - 1).toNat else 0

def repeatsAt (settings : Settings) (blocks : List (Block K)) (id : Text) : Nat :=
  ((Graph.block? blocks id).map (repeats settings)).getD 0

/-- How much of the limit some blocks can take up: each of them once, and the menus as often as they can be offered
again. -/
def load (settings : Settings) (blocks : List (Block K)) (ids : List Text) : Nat :=
  ids.length + (ids.map (repeatsAt settings blocks)).sum

section
variable {settings : Settings} {blocks : List (Block K)} {id : Text} {ids trail reached : List Text}

@[simp] theorem load_cons :
    load settings blocks (id :: ids) = load settings blocks ids + 1 + repeatsAt settings blocks id := by
  simp only [load, List.length_cons, List.map_cons, List.sum_cons]
  omega

theorem load_append : load settings blocks (ids ++ trail) = load settings blocks ids + load settings blocks trail := by
  simp only [load, List.length_append, List.map_append, List.sum_append]
  omega

theorem length_le_load (settings : Settings) (blocks : List (Block K)) (ids : List Text) :
    ids.length ≤ load settings blocks ids := Nat.le_add_right _ _

theorem load_mono (hnodup : ids.Nodup) (hsub : ids ⊆ reached) :
    load settings blocks ids ≤ load settings blocks reached := by
  obtain ⟨part, hperm, hpart⟩ := hnodup.subperm hsub
  have hsum : (part.map (repeatsAt settings blocks)).sum = (ids.map (repeatsAt settings blocks)).sum :=
    (hperm.map _).sum_eq
  have hle : (part.map (repeatsAt settings blocks)).sum ≤ (reached.map (repeatsAt settings blocks)).sum :=
    (hpart.map _).sum_le_sum fun _ _ => Nat.zero_le _
  have hlength := hperm.length_eq
  have hshort := hpart.length_le
  rw [load, load]
  omega

end

/-- Whether calls of a flow that stay with what is reached go one way only: the flow may be saved, no edge leaves what
is reached, and nothing there leads back to itself. -/
structure OneWay (flow : CallFlow K) (reached : List Text) : Prop where
  accepted : Validation.Accepts flow.blocks flow.entryBlockId
  closed : ∀ id ∈ reached, Graph.Looked flow.blocks id ∧ ∀ target, Graph.Leads flow.blocks id target → target ∈ reached
  acyclic : ∀ id ∈ reached, ¬ TransGen (Graph.Leads flow.blocks) id id

variable {settings : Settings} {flow : CallFlow K} {event : CallEvent} {b c : Block K} {hops cap : Int} {v : Value}
  {s : CallScript} {reached trail : List Text}

namespace OneWay

theorem extend (h : OneWay flow reached) (htrail : Trail flow.blocks reached (b.id :: trail))
    (hb : Graph.block? flow.blocks b.id = some b) (hc : Graph.lookup flow.blocks v = .ok (some c))
    (hedge : ∀ ids, b.edgeIds = .ok ids → c.id ∈ ids) : Trail flow.blocks reached (c.id :: b.id :: trail) := by
  obtain ⟨⟨b', ids, hb', hids⟩, hkept⟩ := h.closed b.id (htrail.within List.mem_cons_self)
  obtain rfl : b = b' := Option.some.inj (hb.symm.trans hb')
  have hleads : Graph.Leads flow.blocks b.id c.id :=
    ⟨b, ids, hb, hids, hedge ids hids, Graph.hasBlock_iff.mpr ⟨c, Graph.block?_of_lookup hc⟩⟩
  exact htrail.extend hleads (hkept c.id hleads)

theorem next (h : OneWay flow reached) (htrail : Trail flow.blocks reached (b.id :: trail))
    (hb : Graph.block? flow.blocks b.id = some b) {next : Text} (hnext : b.firstNext? = some next) :
    ∃ c, Graph.lookup flow.blocks (.str next) = .ok (some c) ∧ Trail flow.blocks reached (c.id :: b.id :: trail) := by
  obtain ⟨c, hc⟩ := h.accepted.lookup_next (Graph.mem_distinct_iff.mpr hb) hnext
  refine ⟨c, hc, h.extend htrail hb hc fun ids hids => ?_⟩
  rw [← Value.str.inj (Graph.str_of_lookup hc)]
  exact Block.firstNext_mem_edgeIds hids hnext

theorem heads (h : OneWay flow reached) (htrail : Trail flow.blocks reached (b.id :: trail))
    (hb : Graph.block? flow.blocks b.id = some b) (hwaits : b.type.isLinear = false) (heads : Heads b event v) :
    ∃ c, Graph.lookup flow.blocks v = .ok (some c) ∧ Trail flow.blocks reached (c.id :: b.id :: trail) := by
  obtain ⟨c, hc⟩ := lookup_of_heads h.accepted hb heads
  refine ⟨c, hc, h.extend htrail hb hc fun ids hids => ?_⟩
  obtain rfl := Graph.str_of_lookup hc
  rcases mem_edgeIds_of_heads hids heads with hmem | ⟨hlinear, -⟩
  · exact hmem
  · rw [hwaits] at hlinear
    cases hlinear

theorem load_le (settings : Settings) (h : OneWay flow reached) (htrail : Trail flow.blocks reached trail) :
    load settings flow.blocks trail ≤ load settings flow.blocks reached :=
  load_mono (htrail.nodup h.acyclic) htrail.within

end OneWay

section
variable (h : OneWay flow reached) (hc : Graph.lookup flow.blocks v = .ok (some c))
  (htrail : Trail flow.blocks reached (c.id :: trail))

include h hc htrail

theorem walk_trail {budget : Nat} (hw : walk settings flow event budget hops v = .ok s) :
    Trail flow.blocks reached (s.visited.reverse ++ trail) := by
  induction budget generalizing hops v c trail s with
  | zero =>
    cases hw
    exact htrail.tail
  | succ budget ih =>
    simp only [walk, hc, bind, Except.bind] at hw
    have hb := Graph.block?_of_lookup hc
    cases heffect : execute settings flow event c (hops + 1) with
    | error fault =>
      rw [heffect] at hw
      cases hw
    | ok effect =>
      rw [heffect] at hw
      cases hnext : effect.next with
      | none =>
        simp only [hnext, Outcome.pure_eq_ok] at hw
        exact hw ▸ htrail
      | some next =>
        simp only [hnext] at hw
        obtain ⟨rest, hrest, hw⟩ := Outcome.bind_eq_ok.mp hw
        obtain ⟨d, hd, hon⟩ := h.next htrail hb (firstNext_of_execute heffect hnext)
        rw [← Outcome.pure_eq_ok.mp hw]
        simpa using ih hd hon hrest

/-- A walk whose budget covers what is left of the load goes the same way under every such budget. The induction is on
the budget, of which a block takes one, while it adds at least one to the load of the way. -/
theorem walk_uncut {budget budget' : Nat} (hpaid : hops ≤ load settings flow.blocks trail)
    (hbudget : load settings flow.blocks reached ≤ hops + budget)
    (hbudget' : load settings flow.blocks reached ≤ hops + budget') :
    walk { settings with maxHops := cap } flow event budget' hops v =
      walk settings flow event budget hops v := by
  induction budget generalizing budget' hops v c trail with
  | zero =>
    have hload := h.load_le settings htrail
    rw [load_cons] at hload
    omega
  | succ budget ih =>
    have hload := h.load_le settings htrail
    rw [load_cons] at hload
    cases budget' with
    | zero => omega
    | succ budget' =>
      have hexecute : execute { settings with maxHops := cap } flow event c (hops + 1) =
          execute settings flow event c (hops + 1) := rfl
      simp only [walk, hc, bind, Except.bind, hexecute]
      cases heffect : execute settings flow event c (hops + 1) with
      | error fault => rfl
      | ok effect =>
        cases hnext : effect.next with
        | none => simp only [hnext]
        | some next =>
          obtain ⟨d, hd, hon⟩ := h.next htrail (Graph.block?_of_lookup hc) (firstNext_of_execute heffect hnext)
          have hmore : hops + 1 ≤ load settings flow.blocks (c.id :: trail) := by
            rw [load_cons]
            omega
          have hrest : walk { settings with maxHops := cap } flow event budget' (hops + 1) (.str next) =
              walk settings flow event budget (hops + 1) (.str next) := ih hd hon hmore (by omega) (by omega)
          simp only [hnext, hrest]

end

/-- Where the call of an event stands. It is new, or it is parked at the end of a way, and the blocks that it has gone
through are covered by the load of the way, in which the block where it is parked counts with its failed attempts. -/
inductive Standing (settings : Settings) (flow : CallFlow K) (reached : List Text) (event : CallEvent) : Prop where
  | new (fresh : event.currentBlockId = none) (uncounted : event.hops = 0) : Standing settings flow reached event
  | parked {b : Block K} {trail : List Text} (current : event.currentBlockId = some b.id)
      (found : Graph.block? flow.blocks b.id = some b) (waits : b.type.isLinear = false)
      (way : Trail flow.blocks reached (b.id :: trail))
      (paid : event.hops ≤ load settings flow.blocks trail + 1 + event.attempt)
      (left : event.attempt ≤ repeats settings b) : Standing settings flow reached event

/-- Whether an answer stays within the load, and the call stands well wherever the answer parks it. -/
structure Fits (settings : Settings) (flow : CallFlow K) (reached : List Text) (event : CallEvent) (s : CallScript) :
    Prop where
  within : event.hops + s.visited.length ≤ load settings flow.blocks reached
  stands : ∀ k ∈ s.continuations, ∀ next : CallEvent, next.Returns k → Standing settings flow reached next

theorem Fits.silent (hhops : event.hops ≤ load settings flow.blocks reached) (hvisited : s.visited = [])
    (hnone : s.continuations = []) : Fits settings flow reached event s where
  within := by rwa [hvisited, List.length_nil, Int.natCast_zero, Int.add_zero]
  stands := by simp [hnone]

theorem load_parked (found : Graph.block? flow.blocks b.id = some b) :
    load settings flow.blocks (b.id :: trail) = load settings flow.blocks trail + 1 + repeats settings b := by
  rw [load_cons, repeatsAt, found]
  rfl

theorem OneWay.load_parked_le (settings : Settings) (h : OneWay flow reached)
    (found : Graph.block? flow.blocks b.id = some b) (way : Trail flow.blocks reached (b.id :: trail)) :
    load settings flow.blocks trail + 1 + repeats settings b ≤ load settings flow.blocks reached :=
  load_parked found ▸ h.load_le settings way

/-- What a parked call has gone through is covered by the load of its way. -/
theorem hops_le_of_parked (found : Graph.block? flow.blocks b.id = some b)
    (paid : event.hops ≤ load settings flow.blocks trail + 1 + event.attempt)
    (left : event.attempt ≤ repeats settings b) : event.hops ≤ load settings flow.blocks (b.id :: trail) := by
  rw [load_parked found]
  omega

theorem le_repeats {attempts : Int} (menu : b.type = .menu) (counted : maxAttempts settings b = .ok attempts)
    (more : event.attempt + 1 < attempts) : event.attempt + 1 ≤ repeats settings b := by
  rw [repeats, if_pos menu, counted]
  simp only [Except.toOption, Option.getD_some]
  omega

theorem isLinear_of_parksAt {d : Directive} {type : BlockType} (h : d.parksAt type = true) : type.isLinear = false := by
  cases type <;> cases d <;> simp_all [Directive.parksAt, BlockType.isLinear]

theorem walkFrom_stays_within (h : OneWay flow reached) (hc : Graph.lookup flow.blocks v = .ok (some c))
    (htrail : Trail flow.blocks reached (c.id :: trail)) (hpaid : event.hops ≤ load settings flow.blocks trail)
    (hw : walkFrom settings flow event v = .ok s) :
    Fits settings flow reached event s := by
  have hway := walk_trail h hc htrail hw
  constructor
  · have hload := h.load_le settings hway
    have hlength := length_le_load settings flow.blocks s.visited.reverse
    rw [load_append] at hload
    rw [List.length_reverse] at hlength
    omega
  · rintro k hk next ⟨hcurrent, hattempt, hhops⟩
    obtain ⟨d, parked⟩ := (walkFrom_concluded hw).parked_of_mem hk
    obtain ⟨f, b, hf, -, hb, htype⟩ := parked.placed
    cases hf
    have hid := Graph.id_of_block?_eq_some hb
    obtain ⟨before, hvisited⟩ := List.getLast?_eq_some_iff.mp parked.last
    have hcounted := parked.counted
    have hon : Trail flow.blocks reached (b.id :: (before.reverse ++ trail)) := by
      simpa [hvisited, hid] using hway
    rw [← hid] at hcurrent hb
    have hlength := length_le_load settings flow.blocks before.reverse
    rw [List.length_reverse] at hlength
    rw [hvisited, List.length_append, List.length_singleton] at hcounted
    refine .parked hcurrent hb (isLinear_of_parksAt htype) hon ?_ ?_
    · rw [load_append, hhops, hattempt, attempt_of_walkFrom hw hk]
      omega
    · rw [hattempt, attempt_of_walkFrom hw hk]
      exact Int.natCast_nonneg _

theorem Standing.hops_le (h : OneWay flow reached) (hs : Standing settings flow reached event) :
    event.hops ≤ load settings flow.blocks reached := by
  cases hs with
  | new fresh uncounted =>
    rw [uncounted]
    exact Int.natCast_nonneg _
  | parked current found waits way paid left =>
    exact (hops_le_of_parked found paid left).trans (Int.ofNat_le.mpr (h.load_le settings way))

/-- A menu that is offered again takes one of its attempts, and with it one more of the load. -/
theorem offerAgain_stays_within (h : OneWay flow reached) (found : Graph.block? flow.blocks b.id = some b)
    (waits : b.type.isLinear = false) (way : Trail flow.blocks reached (b.id :: trail))
    (paid : event.hops ≤ load settings flow.blocks trail + 1 + event.attempt)
    (left : event.attempt + 1 ≤ repeats settings b) (hoffers : offerAgain settings flow b event = .ok s) :
    Fits settings flow reached event s := by
  obtain ⟨say, gather, hsay, hgather, rfl⟩ := offerAgain_eq_ok.mp hoffers
  obtain ⟨prompt, voice, digits, timeout, rfl⟩ := offer_gathers hgather
  have hload := h.load_parked_le settings found way
  constructor
  · rw [List.length_singleton]
    omega
  · rintro k hk next ⟨hcurrent, hattempt, hhops⟩
    obtain ⟨d, hd, hdk⟩ := List.mem_filterMap.mp hk
    have hpasses : ∀ d ∈ [say], d.passes = true := by simpa using passes_of_speak hsay
    rw [List.mem_singleton.mp (mem_closing hpasses hd hdk)] at hdk
    cases hdk
    refine .parked hcurrent found waits way ?_ ?_
    · rw [hhops, hattempt]
      dsimp only
      omega
    · rw [hattempt]
      exact left

@[simp] theorem disclaimer_continuations (settings : Settings) (flow : CallFlow K) :
    (disclaimer settings flow).continuations = [] := by
  unfold disclaimer
  split <;> rfl

theorem Fits.disclosed (h : Fits settings flow reached event s) :
    Fits settings flow reached event (disclaimer settings flow ++ s) := by
  have hnone : (disclaimer settings flow).directives.filterMap Directive.continuation? = [] :=
    disclaimer_continuations settings flow
  constructor
  · rw [CallScript.visited_append, disclaimer_visited, List.nil_append]
    exact h.within
  · rw [CallScript.continuations, CallScript.directives_append, List.filterMap_append, hnone, List.nil_append]
    exact h.stands

section
variable {e : Block K} (h : OneWay flow reached)
  (hentry : Graph.entryBlock flow.blocks flow.entryBlockId = .ok (some e)) (he : e.id ∈ reached)
  (hs : Standing settings flow reached event)

include h

theorem Resumed.stays_within (found : Graph.block? flow.blocks b.id = some b) (waits : b.type.isLinear = false)
    (way : Trail flow.blocks reached (b.id :: trail))
    (paid : event.hops ≤ load settings flow.blocks trail + 1 + event.attempt)
    (left : event.attempt ≤ repeats settings b) (hr : Resumed settings flow b event s) :
    Fits settings flow reached event s := by
  have hpaid : event.hops ≤ load settings flow.blocks (b.id :: trail) := hops_le_of_parked found paid left
  have hhops : event.hops ≤ load settings flow.blocks reached :=
    hpaid.trans (Int.ofNat_le.mpr (h.load_le settings way))
  cases hr with
  | walks heads walk =>
    obtain ⟨c, hc, hon⟩ := h.heads way found waits heads
    exact walkFrom_stays_within h hc hon hpaid walk
  | reoffers menu counted more room offers =>
    exact offerAgain_stays_within h found waits way paid (le_repeats menu counted more) offers
  | limited => exact .silent hhops rfl rfl
  | parts said speaks => exact .silent hhops rfl (continuations_of_speakAndEnd speaks)
  | hangsUp => exact .silent hhops rfl rfl

include hentry he hs

theorem Standing.stays_within (ha : Answered settings flow event s) :
    Fits settings flow reached event s := by
  cases ha with
  | @begins e' rest fresh entry walk =>
    obtain rfl : e' = e := Option.some.inj (Except.ok.inj (entry.symm.trans hentry))
    cases hs with
    | new _ uncounted =>
      have hpaid : event.hops ≤ load settings flow.blocks [] := by simp [uncounted]
      exact (walkFrom_stays_within h (Graph.lookup_of_entryBlock hentry) (.single he) hpaid walk).disclosed
    | parked current =>
      rw [fresh] at current
      cases current
  | @resumes b _ current found resumed =>
    cases hs with
    | new fresh =>
      rw [fresh] at current
      cases current
    | @parked b' trail current' found' waits way paid left =>
      obtain rfl : b' = b := by
        rw [current, Option.some.injEq] at current'
        rw [← current', found, Option.some.injEq] at found'
        exact found'.symm
      exact resumed.stays_within h found waits way paid left
  | lost => exact .silent (hs.hops_le h) rfl rfl

theorem Standing.uncut (hmax : load settings flow.blocks reached ≤ settings.maxHops)
    (hcap : load settings flow.blocks reached ≤ cap) :
    answer { settings with maxHops := cap } flow event = answer settings flow event := by
  -- every walk of such an event has a budget that covers what is left of the load, under both limits
  have hwalk {c : Block K} {trail : List Text} {v : Value} (hc : Graph.lookup flow.blocks v = .ok (some c))
      (hon : Trail flow.blocks reached (c.id :: trail)) (hpaid : event.hops ≤ load settings flow.blocks trail) :
      walkFrom { settings with maxHops := cap } flow event v = walkFrom settings flow event v := by
    refine walk_uncut h hc hon hpaid ?_ ?_ <;> simp only [budget] <;> omega
  cases hs with
  | new fresh uncounted =>
    have hbegin := hwalk (Graph.lookup_of_entryBlock hentry) (.single he) (by simp [uncounted])
    simp only [answer, fresh, start, hentry, bind, Except.bind, hbegin]
    rfl
  | @parked b trail current found waits way paid left =>
    have hpaid : event.hops ≤ load settings flow.blocks (b.id :: trail) := hops_le_of_parked found paid left
    have hheads (v : Value) (heads : Heads b event v) :
        walkFrom { settings with maxHops := cap } flow event v = walkFrom settings flow event v := by
      obtain ⟨c, hc, hon⟩ := h.heads way found waits heads
      exact hwalk hc hon hpaid
    have hroom (n : Int) (hmenu : b.type = .menu) (hn : maxAttempts settings b = .ok n)
        (hmore : event.attempt + 1 < n) :
        budget { settings with maxHops := cap } event.hops = 0 ↔ budget settings event.hops = 0 := by
      have hleft := le_repeats hmenu hn hmore
      have hload := h.load_parked_le settings found way
      rw [budget, budget]
      dsimp only
      omega
    simp only [answer, current, found]
    exact resume_congr rfl hheads fun hmenu =>
      resumeMenu_congr rfl hheads hmenu rfl rfl fun n hn hmore => hroom n hmenu hn hmore

end

end Interpreter

namespace Run
open Interpreter

variable {settings : Settings} {flow : CallFlow K} {calls : List (Callback K)} {e : Block K} {reached : List Text}

theorem standing (h : OneWay flow reached)
    (hentry : Graph.entryBlock flow.blocks flow.entryBlockId = .ok (some e)) (he : e.id ∈ reached)
    (run : Run settings calls) (hflow : ∀ cb ∈ calls, cb.flow = some flow) :
    ∀ cb ∈ calls, Standing settings flow reached cb.event := by
  induction run with
  | @start cb fresh uncounted =>
    intro cb' hmem
    rw [List.mem_singleton.mp hmem]
    exact .new (by simpa [CallEvent.isResume] using fresh) uncounted
  | @next cb next earlier c run emitted returned ih =>
    have hall := ih fun cb' hmem => hflow cb' (List.mem_cons_of_mem _ hmem)
    intro cb' hmem
    rcases List.mem_cons.mp hmem with rfl | hmem
    · have hcb : cb.flow = some flow := hflow cb (List.mem_cons_of_mem _ List.mem_cons_self)
      rw [Callback.script, hcb] at emitted
      have hfits := (hall cb List.mem_cons_self).stays_within h hentry he (answered_handle settings flow cb.event)
      exact hfits.stands c emitted _ returned
    · exact hall cb' hmem

/-- The limit is never what ends a call that fits. In a flow that may be saved, let nothing that can be reached from the
entry lead back to itself, and let the limit leave room for the blocks there and the attempts of the menus among them.
Then no call goes through more blocks than these, its answers are the same under every limit that leaves as much room,
and the notice of the limit is said only if it is one of the texts that the service was given. -/
theorem fits (run : Run settings calls) (hflow : ∀ cb ∈ calls, cb.flow = some flow)
    (haccepts : Validation.Accepts flow.blocks flow.entryBlockId)
    (hentry : Graph.entryBlock flow.blocks flow.entryBlockId = .ok (some e))
    (hreached : Graph.reachable flow.blocks e.id = .ok reached)
    (hacyclic : ∀ id ∈ reached, ¬ TransGen (Graph.Leads flow.blocks) id id)
    (hroom : load settings flow.blocks reached ≤ settings.maxHops) :
    ∀ cb ∈ calls,
      cb.event.hops + (cb.script settings).visited.length ≤ load settings flow.blocks reached ∧
      (∀ cap : Int, load settings flow.blocks reached ≤ cap →
        answer { settings with maxHops := cap } flow cb.event = answer settings flow cb.event) ∧
      ∀ voice, .say hopLimitMessage voice ∈ (cb.script settings).directives →
        hopLimitMessage ∈ givenWords settings flow := by
  obtain ⟨he, hclosed⟩ := Graph.closed_of_reachable (Graph.hasBlock_of_entryBlock hentry) hreached
  have h : OneWay flow reached := ⟨haccepts, hclosed, hacyclic⟩
  intro cb hmem
  have hs := run.standing h hentry he hflow cb hmem
  have hscript : cb.script settings = handle settings (some flow) cb.event := by rw [Callback.script, hflow cb hmem]
  rw [hscript]
  have hfits := hs.stays_within h hentry he (answered_handle settings flow cb.event)
  refine ⟨hfits.within, fun cap hcap => hs.uncut h hentry he hroom hcap, fun voice hsay => ?_⟩
  -- under a limit that is one block higher the answer is the same, and does not come to that limit
  have hhandle : handle { settings with maxHops := load settings flow.blocks reached + 1 } (some flow) cb.event =
      handle settings (some flow) cb.event := by
    simp only [handle, hs.uncut h hentry he hroom (Int.le_add_one (Int.le_refl _))]
    rfl
  rw [← hhandle] at hsay
  rcases ((answered_handle _ flow cb.event).origin hsay).said with hown | hgiven | ⟨-, hfull⟩
  · exact absurd hown (by decide)
  · exact hgiven
  · have hwithin := hfits.within
    rw [hhandle] at hfull
    dsimp only at hfull
    omega

theorem fits_exactly :
    let block (id : Text) (type : BlockType) (next : List Text) (config : Entries) : Block Unit := {
      id, type, config, position := ⟨(), ()⟩, next }
    let hello := block "hello" .say ["main"] [("text", .str "Hello")]
    let main := block "main" .menu [] [("prompt", .str "Press 1"), ("max_attempts", .int 2),
      ("options", .obj [("1", .str "desk")]), ("on_fail", .str "bye")]
    let desk := block "desk" .forward [] [("to", .str "+15551230001"), ("on_fail", .str "bye")]
    let bye := block "bye" .hangup [] []
    let flow : CallFlow Unit := {
      id := some "f", owner := "o", phoneNumber := "+15550001111", blocks := [hello, main, desk, bye]
      entryBlockId := some "hello" }
    let settings : Settings := { maxHops := 5 }
    let reached : List Text := [("hello" : Text), "main", "desk", "bye"]
    let first : Callback Unit := { flow := some flow, event := {} }
    let second : Callback Unit := {
      flow := some flow, event := { currentBlockId := some "main", lastInput := some "7", hops := 2 } }
    let third : Callback Unit := {
      flow := some flow
      event := { currentBlockId := some "main", lastInput := some "1", attempt := 1, hops := 3 } }
    let fourth : Callback Unit := {
      flow := some flow, event := { currentBlockId := some "desk", dialStatus := some "busy", hops := 4 } }
    Run settings [fourth, third, second, first] ∧ Validation.Accepts flow.blocks flow.entryBlockId ∧
    Graph.reachable flow.blocks hello.id = .ok reached ∧ load settings flow.blocks reached = 5 ∧
    (∀ id ∈ reached, ¬ TransGen (Graph.Leads flow.blocks) id id) ∧
    (fourth.event.hops + (fourth.script settings).visited.length : Int) = 5 ∧
    (∀ cap : Int, 5 ≤ cap →
      answer { settings with maxHops := cap } flow fourth.event = answer settings flow fourth.event) ∧
    ∀ voice, .say hopLimitMessage voice ∉ (fourth.script settings).directives := by
  intro block hello main desk bye flow settings reached first second third fourth
  have hfirst : { flowId := some "f", blockId := "main", hops := 2 } ∈ (first.script settings).continuations := by
    decide +kernel
  have hsecond : { flowId := some "f", blockId := "main", attempt := 1, hops := 3 } ∈
      (second.script settings).continuations := by decide +kernel
  have hthird : { flowId := some "f", blockId := "desk", hops := 4 } ∈ (third.script settings).continuations := by
    decide +kernel
  have run : Run settings [fourth, third, second, first] :=
    .next (.next (.next (.start rfl rfl) hfirst ⟨rfl, rfl, rfl⟩) hsecond ⟨rfl, rfl, rfl⟩) hthird ⟨rfl, rfl, rfl⟩
  have hflow : ∀ cb ∈ [fourth, third, second, first], cb.flow = some flow := by
    intro cb hmem
    simp only [List.mem_cons, List.not_mem_nil, or_false] at hmem
    rcases hmem with rfl | rfl | rfl | rfl <;> rfl
  have haccepts : Validation.Accepts flow.blocks flow.entryBlockId := by decide +kernel
  have hreached : Graph.reachable flow.blocks hello.id = .ok reached := rfl
  have hacyclic : ∀ id ∈ reached, ¬ TransGen (Graph.Leads flow.blocks) id id := by
    intro id _ hcycle
    refine Nat.lt_irrefl _ (Graph.rank_lt_of_path reached.idxOf ?_ hcycle)
    rintro id target ⟨b, targets, hb, htargets, hmem, -⟩
    have hkept : b ∈ [hello, main, desk, bye] := Graph.mem_of_block? hb
    obtain rfl := Graph.id_of_block?_eq_some hb
    simp only [List.mem_cons, List.not_mem_nil, or_false] at hkept
    rcases hkept with rfl | rfl | rfl | rfl <;> cases htargets
    · rw [List.mem_singleton.mp hmem]
      decide
    · rcases List.mem_pair.mp hmem with rfl | rfl <;> decide
    · rw [List.mem_singleton.mp hmem]
      decide
    · cases hmem
  have hload : load settings flow.blocks reached = 5 := by decide +kernel
  have hroom : load settings flow.blocks reached ≤ settings.maxHops := by
    rw [hload]
    decide
  obtain ⟨-, huncut, hsaid⟩ :=
    fits run hflow haccepts rfl hreached hacyclic hroom fourth List.mem_cons_self
  rw [hload] at huncut
  refine ⟨run, haccepts, hreached, hload, hacyclic, by decide +kernel, huncut, fun voice hsay => ?_⟩
  exact absurd (hsaid voice hsay) (by decide +kernel)

end Run
end Switchboard

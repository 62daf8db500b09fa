import Switchboard.Proofs.Call.Origin
import Switchboard.Proofs.Call.Plain
import Switchboard.Proofs.Number.Whole

/-! # The numbers that calls use

The validation takes a numeric setting for the number that it stands for, and a call uses that number without its
fraction, at least one. Only the limit of attempts is read by a rule of its own, which takes a text for an integer or
not at all; it agrees with the others for the integers that a number holds exactly.
-/
namespace Switchboard

variable {K : Type} {b : Block K} {key : Text} {v : Value} {x : Binary64} {n : Int}

namespace Binary64

theorem not_pos_nan : ¬ ofInt 0 < nan := nofun

theorem eq_of_ofInt? (h : ofInt? n = some x) : x = ofInt n := by
  unfold ofInt? at h
  split at h
  · cases h
  · exact (Option.some.inj h).symm

theorem exists_truncate? (hpos : ofInt 0 < x) (hfinite : ∀ negative, x ≠ .infinite negative) :
    ∃ n, x.truncate? = some n := by
  cases x with
  | nan => exact absurd hpos not_pos_nan
  | infinite negative => exact absurd rfl (hfinite negative)
  | finite negative m e => exact ⟨_, rfl⟩

end Binary64

namespace Value

theorem eq_ofInt_of_toNumber (h : (Value.int n).toNumber = .ok x) : x = .ofInt n := by
  simp only [toNumber, asInt?] at h
  split at h
  · rename_i y hy
    cases h
    exact Binary64.eq_of_ofInt? hy
  · cases h

theorem truthy_of_pos (hmade : Validation.isUnset v = false) (hx : v.toNumber = .ok x) (hpos : Binary64.ofInt 0 < x) :
    v.truthy = true := by
  cases v with
  | null => cases hmade
  | bool made =>
    cases made with
    | true => rfl
    | false =>
      cases hx
      exact absurd hpos (by decide)
  | int n =>
    rw [truthy, bne_iff_ne]
    rintro rfl
    rw [eq_ofInt_of_toNumber hx] at hpos
    exact absurd hpos (by decide)
  | float y =>
    cases hx
    cases x with
    | nan => rfl
    | infinite negative => rfl
    | finite negative m e => simpa [truthy, Binary64.isZero] using (Binary64.pos_iff.mp hpos).2
  | str s =>
    rw [truthy, bne_iff_ne]
    rintro rfl
    exact absurd hmade (by decide)
  | arr items => cases hx
  | obj entries => cases hx

def count? (v : Value) : Option Int :=
  (v.toNumber.toOption.bind Binary64.truncate?).map (max 1)

/-- Whether a value that is an integer, or a text, is an integer that a number holds exactly. -/
def isWhole : Value → Bool
  | .int n => Binary64.truncate? (.ofInt n) == some n
  | .str s => (s.plain?.bind Numeral.readInteger?).any fun n => Binary64.truncate? (.ofInt n) == some n
  | _ => true

def isUnread : Value → Bool
  | .str s => (s.plain?.bind Numeral.readInteger?).isNone
  | _ => false

theorem readInt_of_pos {k : Int} (hx : v.toNumber = .ok x) (hpos : Binary64.ofInt 0 < x)
    (hfinite : ∀ negative, x ≠ .infinite negative)
    (hread : v = .int k ∨ ∃ s, v = .str s ∧ s.plain?.bind Numeral.readInteger? = some k) : x = .ofInt k ∧ 0 < k := by
  have heq : x = .ofInt k := by
    rcases hread with rfl | ⟨s, rfl, hk⟩
    · exact eq_ofInt_of_toNumber hx
    · obtain ⟨s, hs, hk⟩ := Option.bind_eq_some_iff.mp hk
      rw [toNumber, hs, Option.bind_some] at hx
      split at hx
      · rename_i y hy
        cases hx
        exact Numeral.readDecimal?_of_readInteger? hk hy hfinite hpos
      · cases hx
  exact ⟨heq, Binary64.pos_of_ofInt_pos (heq ▸ hpos)⟩

end Value

namespace Binary64

/-- Where a positive integer comes out as the integer of the number nearest to it, at least one, the number holds it. -/
theorem eq_of_max_one {k : Int} (hk : 0 < k) (hn : (ofInt k).truncate? = some n) (h : max 1 k = max 1 n) : n = k := by
  by_cases hone : k = 1
  · subst hone
    have hheld : (ofInt 1).truncate? = some 1 := by decide
    exact Option.some.inj (hn.symm.trans hheld)
  · omega

end Binary64

namespace Block

def numericKeys (b : Block K) : List Text :=
  match b.type with
  | .play => ["loop"]
  | .forward | .multiForward => ["timeout"]
  | .menu => ["timeout", "max_attempts"]
  | _ => []

theorem checkNumber_of_numericKeys (hc : Validation.checkConfig b = .ok []) (hkey : key ∈ b.numericKeys) :
    Validation.checkNumber b key = .ok [] := by
  unfold numericKeys at hkey
  cases htype : b.type with
  | play =>
    rw [htype] at hkey
    rw [List.mem_singleton.mp hkey]
    exact Validation.checkNumber_of_play hc htype
  | forward =>
    rw [htype] at hkey
    rw [List.mem_singleton.mp hkey]
    exact Validation.checkNumber_of_forward hc htype
  | multiForward =>
    rw [htype] at hkey
    rw [List.mem_singleton.mp hkey]
    exact (Validation.checkNumbers_of_multiForward hc htype).2
  | menu =>
    rw [htype] at hkey
    obtain ⟨htimeout, hattempts, -⟩ := Validation.checks_of_menu hc htype
    rcases List.mem_pair.mp hkey with rfl | rfl
    · exact htimeout
    · exact hattempts
  | _ =>
    rw [htype] at hkey
    cases hkey

end Block

def Directive.number? : Directive → Option Int
  | play _ loop => some loop
  | gather _ _ _ timeout _ => some timeout
  | dial _ timeout _ _ _ => some timeout
  | _ => none

namespace Interpreter

variable {settings : Settings} {flow : CallFlow K} {event : CallEvent} {d : Directive} {m : Int}

/-- What a block gives to the answers of calls: the directives of its effect, and its offers as a menu. -/
inductive Gives (settings : Settings) (flow : CallFlow K) (event : CallEvent) (b : Block K) : Directive → Prop where
  | executed {hops : Int} {effect : Effect} {d : Directive} (executes : execute settings flow event b hops = .ok effect)
      (mem : d ∈ effect.directives) : Gives settings flow event b d
  | offered {attempt hops : Int} {d : Directive} (menu : b.type = .menu)
      (offers : offer settings flow b attempt hops = .ok d) : Gives settings flow event b d

theorem number_of_speak {text : Value} (h : speak settings b text = .ok d) : d.number? = none := by
  obtain ⟨_, _, -, -, rfl⟩ := speak_eq_ok.mp h
  rfl

theorem number_of_offer {attempt hops : Int} (h : offer settings flow b attempt hops = .ok d) (hm : d.number? = some m) :
    numericSetting b.config "timeout" settings.menuTimeout = .ok m := by
  obtain ⟨options, timeout, prompt, spoken, -, htimeout, -, -, rfl⟩ := offer_eq_ok.mp h
  cases hm
  exact htimeout

theorem number_of_play {hops : Int} {effect : Effect} (htype : b.type = .play)
    (h : execute settings flow event b hops = .ok effect) (hd : d ∈ effect.directives) (hm : d.number? = some m) :
    numericSetting b.config "loop" 1 = .ok m := by
  simp only [execute, htype] at h
  obtain ⟨ds, hds, rfl⟩ := Outcome.map_eq_ok.mp h
  rcases mem_handOn hd with hd | rfl
  · obtain ⟨url, -, hplay⟩ := Outcome.bind_eq_ok.mp (mem_whenMade hds hd).2
    obtain ⟨loop, hloop, hplay⟩ := Outcome.bind_eq_ok.mp hplay
    rw [← Outcome.pure_eq_ok.mp hplay] at hm
    cases hm
    exact hloop
  · cases hm

theorem number_of_speakAndEnd {message : Text} {ds : List Directive} (h : speakAndEnd settings b message = .ok ds)
    (hd : d ∈ ds) : d.number? = none := by
  obtain ⟨say, hsay, rfl⟩ := speakAndEnd_speaks h
  rcases List.mem_pair.mp hd with rfl | rfl
  · exact number_of_speak hsay
  · rfl

theorem number_of_connect {hops : Int} {ds : List Directive} (h : connect settings flow b hops = .ok ds) (hd : d ∈ ds)
    (hm : d.number? = some m) : numericSetting b.config "timeout" settings.forwardTimeout = .ok m := by
  rcases connect_dials h with hends | ⟨numbers, timeout, caller, recorded, htimeout, rfl⟩
  · rw [number_of_speakAndEnd hends hd] at hm
    cases hm
  · obtain rfl := List.mem_singleton.mp hd
    cases hm
    exact htimeout

theorem Gives.setting (h : Gives settings flow event b d) (hm : d.number? = some m) (hkey : key ∈ b.numericKeys)
    (hother : key ≠ "max_attempts") : ∃ fallback, numericSetting b.config key fallback = .ok m := by
  unfold Block.numericKeys at hkey
  cases htype : b.type with
  | play =>
    simp only [htype, List.mem_singleton] at hkey
    subst hkey
    cases h with
    | executed executes mem => exact ⟨_, number_of_play htype executes mem hm⟩
    | offered menu offers => cases htype.symm.trans menu
  | forward | multiForward =>
    simp only [htype, List.mem_singleton] at hkey
    subst hkey
    cases h with
    | executed executes mem =>
      simp only [execute, htype] at executes
      obtain ⟨ds, hds, rfl⟩ := Outcome.map_eq_ok.mp executes
      exact ⟨_, number_of_connect hds mem hm⟩
    | offered menu offers => cases htype.symm.trans menu
  | menu =>
    simp only [htype, List.mem_pair] at hkey
    obtain rfl := hkey.resolve_right hother
    cases h with
    | executed executes mem =>
      simp only [execute, htype] at executes
      obtain ⟨gather, hgather, executes⟩ := Outcome.bind_eq_ok.mp executes
      rw [← Outcome.pure_eq_ok.mp executes] at mem
      obtain rfl := List.mem_singleton.mp mem
      exact ⟨_, number_of_offer hgather hm⟩
    | offered menu offers => exact ⟨_, number_of_offer offers hm⟩
  | _ =>
    rw [htype] at hkey
    cases hkey

theorem gives_of_handle (hd : d ∈ (handle settings (some flow) event).directives) (hm : d.number? = some m) :
    ∃ c, Graph.block? flow.blocks c.id = some c ∧ Gives settings flow event c d := by
  cases (answered_handle settings flow event).origin hd with
  | @executed c _ _ _ found executes mem => exact ⟨c, found, .executed executes mem⟩
  | @reoffers c _ found menu offers => exact ⟨c, found, .offered menu offers⟩
  | complains found speaks =>
    rw [number_of_speak speaks] at hm
    cases hm
  | parts found said speaks =>
    rw [number_of_speak speaks] at hm
    cases hm
  | discloses mem =>
    unfold disclaimer at mem
    split at mem
    · rw [List.mem_singleton.mp mem] at hm
      cases hm
    · cases mem
  | fails => cases hm
  | limited full => cases hm
  | hangsUp => cases hm

theorem numericSetting_of_pos {config : Entries} (htruthy : (config.get key).truthy = true)
    (hx : (config.get key).toNumber = .ok x) (hn : x.truncate? = some n) (fallback : Int) :
    numericSetting config key fallback = .ok (max 1 n) := by
  have hread : (config.get key).toNumber.bind (Binary64.toIntegerBy Binary64.truncate?) = .ok n := by
    rw [hx, Except.bind, Binary64.toIntegerBy, hn]
  rw [numericSetting, Value.orElse, if_pos htruthy, hread]
  rfl

theorem ok_max_one_iff {k : Int} (hheld : x = .ofInt k ∧ 0 < k) (hn : x.truncate? = some n) :
    (Except.ok (max 1 k) : Outcome Int) = .ok (max 1 n) ↔ (Binary64.truncate? (.ofInt k) == some k) = true := by
  obtain ⟨rfl, hk⟩ := hheld
  rw [hn, beq_iff_eq, Option.some.injEq]
  constructor
  · intro h
    exact Binary64.eq_of_max_one hk hn (Except.ok.inj h)
  · rintro rfl
    rfl

/-- The limit of attempts is the number of the setting for what is no integer and no text, and for an integer, also as a
text, that a number holds; of a text that is no integer nothing is taken. -/
theorem maxAttempts_iff (settings : Settings) (hmade : Validation.isUnset (b.config.get "max_attempts") = false)
    (hx : (b.config.get "max_attempts").toNumber = .ok x) (hpos : Binary64.ofInt 0 < x)
    (hfinite : ∀ negative, x ≠ .infinite negative) (hn : x.truncate? = some n) :
    maxAttempts settings b = .ok (max 1 n) ↔ (b.config.get "max_attempts").isWhole = true ∨
      ((b.config.get "max_attempts").isUnread = true ∧ max 1 settings.menuMaxAttempts = max 1 n) := by
  have htruthy := Value.truthy_of_pos hmade hx hpos
  rw [maxAttempts, Value.orElse, if_pos htruthy]
  generalize b.config.get "max_attempts" = v at *
  cases v with
  | null => cases htruthy
  | bool made =>
    obtain rfl : made = true := htruthy
    cases hx
    have hone : (Binary64.ofInt 1).truncate? = some 1 := by decide
    obtain rfl : n = 1 := Option.some.inj (hn.symm.trans hone)
    exact iff_of_true rfl (Or.inl rfl)
  | int k =>
    have hheld := Value.readInt_of_pos hx hpos hfinite (Or.inl rfl)
    simp only [Value.isUnread, Bool.false_eq_true, false_and, or_false]
    exact ok_max_one_iff hheld hn
  | float y =>
    cases hx
    have hread : (Value.float x).toInteger = .ok n := by
      rw [Value.toInteger, Binary64.toIntegerBy, hn]
    rw [hread]
    exact iff_of_true rfl (Or.inl rfl)
  | str s =>
    cases hk : s.plain?.bind Numeral.readInteger? with
    | none =>
      simp only [Value.toInteger, Value.isWhole, Value.isUnread, hk, Option.any_none, Option.isNone_none, true_and,
        Bool.false_eq_true, false_or, atLeastOne, Except.ok.injEq]
    | some k =>
      have hheld := Value.readInt_of_pos hx hpos hfinite (Or.inr ⟨s, rfl, hk⟩)
      simp only [Value.toInteger, Value.isWhole, Value.isUnread, hk, Option.any_some, Option.isNone_some,
        Bool.false_eq_true, false_and, or_false]
      exact ok_max_one_iff hheld hn
  | arr items => cases hx
  | obj entries => cases hx

/-- A menu that gets no choice it knows is offered again as long as its limit of attempts allows. -/
theorem resumeMenu_of_maxAttempts (hlimit : maxAttempts settings b = .ok n)
    (hnone : b.optionFor event.lastInput = .ok none) :
    (n ≤ event.attempt + 1 → resumeMenu settings flow b event = fallBack settings flow b event goodbyeMessage) ∧
    (event.attempt + 1 < n → budget settings event.hops ≠ 0 →
      resumeMenu settings flow b event = offerAgain settings flow b event) := by
  simp only [resumeMenu, hnone, hlimit, bind, Except.bind]
  constructor
  · intro hlast
    rw [if_neg (Int.not_lt.mpr hlast)]
  · intro hmore hbudget
    rw [if_pos hmore, if_neg hbudget]

/-- A numeric setting that is made, accepted and finite stands for a number, and that number without its fraction, at
least one, is what the block gives to calls. The limit of attempts is it as well for numbers, for truth values and for
integers that a number holds, among them all up to `2 ^ 53`, also as texts; for a text that is no integer the setting of
the service stands in. -/
theorem accepted_number_used (hc : Validation.checkConfig b = .ok []) (hkey : key ∈ b.numericKeys)
    (hmade : Validation.isUnset (b.config.get key) = false) (hfinite : (b.config.get key).countsInfinite = false)
    (settings : Settings) : ∃ n, (b.config.get key).count? = some n ∧
      (key ≠ "max_attempts" → (∀ fallback, numericSetting b.config key fallback = .ok n) ∧
        ∀ (flow : CallFlow K) event d m, Gives settings flow event b d → d.number? = some m → m = n) ∧
      (key = "max_attempts" →
        (maxAttempts settings b = .ok n ↔ (b.config.get key).isWhole = true ∨
          ((b.config.get key).isUnread = true ∧ max 1 settings.menuMaxAttempts = n)) ∧
        (∀ k : Int, k.natAbs ≤ 2 ^ 53 → (b.config.get key = .int k ∨
          ∃ s : String, b.config.get key = .str s ∧ Numeral.readInteger? s = some k) → (b.config.get key).isWhole = true) ∧
        ((b.config.get key).isWhole = true → ∀ (flow : CallFlow K) event, b.optionFor event.lastInput = .ok none →
          (n ≤ event.attempt + 1 → resumeMenu settings flow b event = fallBack settings flow b event goodbyeMessage) ∧
          (event.attempt + 1 < n → budget settings event.hops ≠ 0 →
            resumeMenu settings flow b event = offerAgain settings flow b event))) ∧
      ∀ (flow : CallFlow K) event d m, d ∈ (handle settings (some flow) event).directives → d.number? = some m →
        ∃ c, Graph.block? flow.blocks c.id = some c ∧ Gives settings flow event c d := by
  obtain ⟨x, hx, hpos⟩ := Validation.toNumber_of_made (Block.checkNumber_of_numericKeys hc hkey) hmade
  have hbounded : ∀ negative, x ≠ .infinite negative := fun negative heq =>
    Value.toNumber_ne_infinite hfinite negative (heq ▸ hx)
  obtain ⟨n, hn⟩ := Binary64.exists_truncate? hpos hbounded
  have htruthy := Value.truthy_of_pos hmade hx hpos
  refine ⟨max 1 n, ?_, fun hother => ⟨?_, ?_⟩, ?_, fun flow event d m hd hm => gives_of_handle hd hm⟩
  · rw [Value.count?, hx, Except.toOption, Option.bind_some, hn, Option.map_some]
  · exact numericSetting_of_pos htruthy hx hn
  · intro flow event d m hgives hm
    obtain ⟨fallback, hset⟩ := hgives.setting hm hkey hother
    rw [numericSetting_of_pos htruthy hx hn] at hset
    exact (Except.ok.inj hset).symm
  · rintro rfl
    have hiff := maxAttempts_iff settings hmade hx hpos hbounded hn
    refine ⟨hiff, ?_, fun hwhole flow event hnone => resumeMenu_of_maxAttempts (hiff.mpr (Or.inl hwhole)) hnone⟩
    intro k hk hread
    have hheld := Binary64.truncate?_ofInt hk
    rcases hread with hint | ⟨s, hstr, hs⟩
    · simp [hint, Value.isWhole, hheld]
    · simp [hstr, Value.isWhole, Text.plain?, hs, hheld]

theorem accepted_number_used_menu :
    let main : Block Unit := {
      id := "main", type := .menu, position := ⟨(), ()⟩, next := []
      config := [("prompt", .str "Press 1"), ("options", .obj [("1", .str "bye")]), ("timeout", .str " 2.9e0 "),
        ("max_attempts", .str "+4")] }
    Validation.checkConfig main = .ok [] ∧ (∀ fallback, numericSetting main.config "timeout" fallback = .ok 2) ∧
      maxAttempts {} main = .ok 4 := by
  intro main
  have hc : Validation.checkConfig main = .ok [] := Outcome.eq_ok_of_toOption (by decide +kernel)
  obtain ⟨seconds, hseconds, htimeout, -⟩ :=
    accepted_number_used hc (show ("timeout" : Text) ∈ main.numericKeys by decide) (by decide) (by decide +kernel) {}
  obtain ⟨attempts, hattempts, -, hlimit, -⟩ :=
    accepted_number_used hc (show ("max_attempts" : Text) ∈ main.numericKeys by decide) (by decide) (by decide +kernel) {}
  obtain rfl : seconds = 2 := Option.some.inj (hseconds.symm.trans (by decide +kernel))
  obtain rfl : attempts = 4 := Option.some.inj (hattempts.symm.trans (by decide +kernel))
  exact ⟨hc, (htimeout (by decide)).1, (hlimit rfl).1.mpr (Or.inl (by decide +kernel))⟩

/-- Of an accepted text with a fraction the limit of attempts takes nothing, where the seconds to wait take two. -/
theorem accepted_fraction_unused :
    let main : Block Unit := {
      id := "main", type := .menu, position := ⟨(), ()⟩, next := []
      config := [("prompt", .str "Press 1"), ("options", .obj [("1", .str "bye")]), ("timeout", .str "2.5"),
        ("max_attempts", .str "2.5")] }
    Validation.checkConfig main = .ok [] ∧ (Value.str "2.5").count? = some 2 ∧
      numericSetting main.config "timeout" 5 = .ok 2 ∧ maxAttempts {} main = .ok 3 := by
  intro main
  refine ⟨Outcome.eq_ok_of_toOption ?_, ?_, Outcome.eq_ok_of_toOption ?_, Outcome.eq_ok_of_toOption ?_⟩ <;> decide +kernel

end Interpreter
end Switchboard

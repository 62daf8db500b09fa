import Switchboard.Markup.Script
import Switchboard.Proofs.Markup.Writing
import Switchboard.Proofs.Number.Numeral
import Switchboard.Proofs.Text.Basic

/-! # Scripts are well-formed markup

What a directive is written as is told part by part, once all of its parts can be written. The names in a script are
fixed, and attributes may be missing but are not repeated. So a script is a well-formed document exactly when the texts
that its directives put into it are legal.
-/
namespace Switchboard.Markup

variable {base : Text} {path : String} {c : Continuation} {d : Directive} {e : Element}

theorem integerText_eq_ok {n : Int} {s : String} :
    integerText n = .ok s ↔ n.natAbs < Numeral.leastOversized ∧ s = toString n := by
  rw [← Numeral.text?_eq_some, integerText]
  cases Numeral.text? n <;> simp [Fault.unlessOversized]

theorem continuationParameters_eq_ok {parameters : List (String × String)} :
    continuationParameters c = .ok parameters ↔
      c.attempt.natAbs < Numeral.leastOversized ∧ c.hops.natAbs < Numeral.leastOversized ∧
      ∃ (flow : List String) (node : String), (c.flowId.filter (· != ("" : Text))).toList = flow.map Text.plain ∧
        c.blockId = node ∧ parameters = flow.map (fun id => ("flow", id)) ++
          [("node", node), ("attempt", toString c.attempt), ("hops", toString c.hops)] := by
  simp only [continuationParameters, Outcome.bind_eq_ok, Text.mapM_encoded_eq_ok, Text.encoded_eq_ok, integerText_eq_ok,
    Outcome.pure_eq_ok]
  constructor
  · rintro ⟨flow, hflow, node, hnode, _, ⟨hattempt, rfl⟩, _, ⟨hhops, rfl⟩, rfl⟩
    exact ⟨hattempt, hhops, flow, node, hflow, hnode, rfl⟩
  · rintro ⟨hattempt, hhops, flow, node, hflow, hnode, rfl⟩
    exact ⟨flow, hflow, node, hnode, _, ⟨hattempt, rfl⟩, _, ⟨hhops, rfl⟩, rfl⟩

theorem continuationUrl_eq_ok {url : String} :
    continuationUrl base path c = .ok url ↔
      ∃ (parameters : List (String × String)) (short : String), continuationParameters c = .ok parameters ∧
        Text.dropTrailing '/' base = short ∧ url = short ++ path ++ "?" ++ Text.encodePairs parameters := by
  simp only [continuationUrl, Outcome.bind_eq_ok, Text.encoded_eq_ok, Outcome.pure_eq_ok]
  constructor
  · rintro ⟨parameters, hparameters, short, hshort, rfl⟩
    exact ⟨parameters, short, hparameters, hshort, rfl⟩
  · rintro ⟨parameters, short, hparameters, hshort, rfl⟩
    exact ⟨parameters, hparameters, short, hshort, rfl⟩

theorem spoken_eq_ok {text : Text} {voice : Option Text} : spoken text voice = .ok e ↔
    ∃ (said : String) (named : Option String), text = said ∧ voice = named.map Text.plain ∧
      e = .leaf "Say" (optional "voice" named) said := by
  simp only [spoken, Outcome.bind_eq_ok, Text.optionMapM_encoded_eq_ok, Text.encoded_eq_ok, Outcome.pure_eq_ok]
  constructor
  · rintro ⟨named, hvoice, said, htext, rfl⟩
    exact ⟨said, named, htext, hvoice, rfl⟩
  · rintro ⟨said, named, htext, hvoice, rfl⟩
    exact ⟨named, hvoice, said, htext, rfl⟩

inductive IsElementOf (base : Text) (path : String) : Directive → Element → Prop where
  | say (text : String) (voice : Option String) :
    IsElementOf base path (.say text (voice.map .plain)) (.leaf "Say" (optional "voice" voice) text)
  | play (url : String) (loop : Int) :
    IsElementOf base path (.play url loop) (.leaf "Play" [("loop", toString loop)] url)
  | pause (seconds : Int) : IsElementOf base path (.pause seconds) (.leaf "Pause" [("length", toString seconds)] "")
  | gather (prompt : String) (voice : Option String) (numDigits timeout : Int) {c : Continuation} {action : String}
      (told : continuationUrl base path c = .ok action) :
    IsElementOf base path (.gather prompt (voice.map .plain) numDigits timeout c)
      (.parent "Gather" ([("input", "dtmf"), ("numDigits", toString numDigits), ("timeout", toString timeout)] ++
        callbackAttributes (some action)) [.leaf "Say" (optional "voice" voice) prompt])
  | redirect {prompt : Text} {voice : Option Text} {numDigits timeout : Int} {c : Continuation} {action : String}
      (told : continuationUrl base path c = .ok action) :
    IsElementOf base path (.gather prompt voice numDigits timeout c) (.leaf "Redirect" [("method", "POST")] action)
  | dial (numbers : List String) (timeout : Int) (callerId : Option String) (record : Bool) (c : Option Continuation)
      {action : Option String} (told : ∀ url ∈ action, ∃ c, continuationUrl base path c = .ok url) :
    IsElementOf base path (.dial (numbers.map .plain) timeout (callerId.map .plain) record c)
      (.parent "Dial" ([("timeout", toString timeout)] ++ optional "callerId" callerId ++
        optional "record" (if record then some "record-from-answer" else none) ++ callbackAttributes action)
        (numbers.map fun number => .leaf "Number" [] number))
  | sms (body : String) (recipient sender : Option String) :
    IsElementOf base path (.sms body (recipient.map .plain) (sender.map .plain))
      (.leaf "Sms" (optional "to" recipient ++ optional "from" sender) body)
  | record (maxLength : Int) (playBeep : Bool) (c : Option Continuation) {action : Option String}
      (told : ∀ url ∈ action, ∃ c, continuationUrl base path c = .ok url) :
    IsElementOf base path (.record maxLength playBeep c)
      (.leaf "Record" ([("maxLength", toString maxLength), ("playBeep", if playBeep then "true" else "false")] ++
        callbackAttributes action) "")
  | hangup : IsElementOf base path .hangup (.leaf "Hangup" [] "")

theorem told_of_mapM {continuation : Option Continuation} {action : Option String}
    (h : continuation.mapM (continuationUrl base path) = .ok action) :
    ∀ url ∈ action, ∃ c, continuationUrl base path c = .ok url := by
  cases continuation with
  | none =>
    cases h
    nofun
  | some c =>
    rw [Option.mapM_some] at h
    obtain ⟨url, hurl, rfl⟩ := Outcome.map_eq_ok.mp h
    rintro _ ⟨⟩
    exact ⟨c, hurl⟩

theorem isElementOf_of_mem {elements : List Element} (h : elementsOf base path d = .ok elements) (he : e ∈ elements) :
    IsElementOf base path d e := by
  cases d with
  | say text voice =>
    obtain ⟨say, hsay, rfl⟩ := Outcome.map_eq_ok.mp h
    obtain ⟨said, named, rfl, rfl, rfl⟩ := spoken_eq_ok.mp hsay
    rw [List.mem_singleton.mp he]
    exact .say said named
  | play url loop =>
    simp only [elementsOf, Outcome.bind_eq_ok, integerText_eq_ok, Text.encoded_eq_ok, Outcome.pure_eq_ok] at h
    obtain ⟨_, ⟨-, rfl⟩, url, rfl, rfl⟩ := h
    rw [List.mem_singleton.mp he]
    exact .play url loop
  | pause seconds =>
    simp only [elementsOf, Outcome.bind_eq_ok, integerText_eq_ok, Outcome.pure_eq_ok] at h
    obtain ⟨_, ⟨-, rfl⟩, rfl⟩ := h
    rw [List.mem_singleton.mp he]
    exact .pause seconds
  | gather prompt voice numDigits timeout c =>
    simp only [elementsOf, Outcome.bind_eq_ok, integerText_eq_ok, spoken_eq_ok, Outcome.pure_eq_ok] at h
    obtain ⟨action, haction, _, ⟨-, rfl⟩, _, ⟨-, rfl⟩, _, ⟨prompt, voice, rfl, rfl, rfl⟩, rfl⟩ := h
    rcases List.mem_pair.mp he with rfl | rfl
    · exact .gather prompt voice numDigits timeout haction
    · exact .redirect haction
  | dial numbers timeout callerId record c =>
    simp only [elementsOf, Outcome.bind_eq_ok, integerText_eq_ok, Text.optionMapM_encoded_eq_ok, Text.mapM_encoded_eq_ok,
      Outcome.pure_eq_ok] at h
    obtain ⟨action, haction, _, ⟨-, rfl⟩, callerId, rfl, numbers, rfl, rfl⟩ := h
    rw [List.mem_singleton.mp he]
    exact .dial numbers timeout callerId record c (told_of_mapM haction)
  | sms body recipient sender =>
    simp only [elementsOf, Outcome.bind_eq_ok, Text.optionMapM_encoded_eq_ok, Text.encoded_eq_ok,
      Outcome.pure_eq_ok] at h
    obtain ⟨recipient, rfl, sender, rfl, body, rfl, rfl⟩ := h
    rw [List.mem_singleton.mp he]
    exact .sms body recipient sender
  | record maxLength playBeep c =>
    simp only [elementsOf, Outcome.bind_eq_ok, integerText_eq_ok, Outcome.pure_eq_ok] at h
    obtain ⟨action, haction, _, ⟨-, rfl⟩, rfl⟩ := h
    rw [List.mem_singleton.mp he]
    exact .record maxLength playBeep c (told_of_mapM haction)
  | hangup =>
    cases h
    rw [List.mem_singleton.mp he]
    exact .hangup

/-- The texts that a directive puts into a script. -/
def writtenTexts (base : Text) (path : String) (d : Directive) : List String :=
  ((elementsOf base path d).toOption.getD []).flatMap Element.texts

theorem writtenTexts_of_ok {elements : List Element} (h : elementsOf base path d = .ok elements) :
    writtenTexts base path d = elements.flatMap Element.texts := by
  rw [writtenTexts, h]
  rfl

def AreProper (names : List String) : Prop :=
  (∀ name ∈ names, isName name.toList = true) ∧ names.Nodup

instance (names : List String) : Decidable (AreProper names) :=
  inferInstanceAs (Decidable (_ ∧ _))

theorem names_optional (name : String) (value : Option String) :
    ((optional name value).map Prod.fst).Sublist [name] := by
  cases value <;> simp [optional]

theorem names_callbackAttributes (action : Option String) :
    ((callbackAttributes action).map Prod.fst).Sublist ["action", "method"] := by
  rw [callbackAttributes, List.map_append]
  exact (names_optional "action" _).append (names_optional "method" _)

theorem areNamed_childless_iff {children : List Element} :
    AreNamed (children.map fun child => (child, "")) ↔ ∀ child ∈ children, child.IsNamed := by
  induction children with
  | nil => simp [AreNamed]
  | cons child rest ih => simp [AreNamed, ih]

theorem isNamed_parent (names : List String) {name : String} {attributes : List (String × String)}
    {children : List Element} (hname : isName name.toList = true) (hproper : AreProper names)
    (hsub : (attributes.map Prod.fst).Sublist names) (hchildren : ∀ child ∈ children, child.IsNamed) :
    (Element.parent name attributes children).IsNamed := by
  refine ⟨hname, ?_, hproper.2.sublist hsub, areNamed_childless_iff.mpr hchildren⟩
  intro a ha
  exact hproper.1 a.1 (hsub.subset (List.mem_map_of_mem ha))

theorem isNamed_leaf (names : List String) {name text : String} {attributes : List (String × String)}
    (hname : isName name.toList = true) (hproper : AreProper names)
    (hsub : (attributes.map Prod.fst).Sublist names) : (Element.leaf name attributes text).IsNamed := by
  obtain ⟨-, hattributes, hnodup, -⟩ := @isNamed_parent names name attributes [] hname hproper hsub (by simp)
  exact ⟨hname, hattributes, hnodup, trivial⟩

theorem isNamed_say (text : String) (voice : Option String) :
    (Element.leaf "Say" (optional "voice" voice) text).IsNamed :=
  isNamed_leaf ["voice"] (by decide) (by decide) (names_optional "voice" voice)

theorem IsElementOf.isNamed (h : IsElementOf base path d e) : e.IsNamed := by
  cases h with
  | say text voice => exact isNamed_say text voice
  | play => exact isNamed_leaf ["loop"] (by decide) (by decide) (List.Sublist.refl _)
  | pause => exact isNamed_leaf ["length"] (by decide) (by decide) (List.Sublist.refl _)
  | gather prompt voice =>
    refine isNamed_parent ["input", "numDigits", "timeout", "action", "method"] (by decide) (by decide)
      (List.Sublist.refl _) ?_
    intro child hchild
    rw [List.mem_singleton.mp hchild]
    exact isNamed_say prompt voice
  | redirect => exact isNamed_leaf ["method"] (by decide) (by decide) (List.Sublist.refl _)
  | dial =>
    refine isNamed_parent ["timeout", "callerId", "record", "action", "method"] (by decide) (by decide) ?_ ?_
    · rw [List.map_append, List.map_append, List.map_append]
      exact (((List.Sublist.refl ["timeout"]).append (names_optional "callerId" _)).append
        (names_optional "record" _)).append (names_callbackAttributes _)
    · intro child hchild
      obtain ⟨number, -, rfl⟩ := List.mem_map.mp hchild
      exact isNamed_leaf [] (by decide) (by decide) (List.Sublist.refl _)
  | sms =>
    refine isNamed_leaf ["to", "from"] (by decide) (by decide) ?_
    rw [List.map_append]
    exact (names_optional "to" _).append (names_optional "from" _)
  | record =>
    refine isNamed_leaf ["maxLength", "playBeep", "action", "method"] (by decide) (by decide) ?_
    rw [List.map_append]
    exact (List.Sublist.refl ["maxLength", "playBeep"]).append (names_callbackAttributes _)
  | hangup => exact isNamed_leaf [] (by decide) (by decide) (List.Sublist.refl _)

theorem forall_childless_iff {P : String → Prop} (hempty : P "") {children : List Element} :
    (∀ t ∈ childTexts (children.map fun child => (child, "")), P t) ↔
      ∀ child ∈ children, ∀ t ∈ child.texts, P t := by
  induction children with
  | nil => simp [childTexts]
  | cons child rest ih => simp [forall_childTexts_cons, hempty, ih]

theorem forall_parent_iff {P : String → Prop} (hempty : P "") {name : String}
    {attributes : List (String × String)} {children : List Element} :
    (∀ t ∈ (Element.parent name attributes children).texts, P t) ↔
      (∀ a ∈ attributes, P a.2) ∧ ∀ child ∈ children, ∀ t ∈ child.texts, P t := by
  rw [Element.parent, forall_texts_node, forall_childless_iff hempty]
  exact ⟨fun h => ⟨h.1, h.2.2⟩, fun h => ⟨h.1, hempty, h.2⟩⟩

section
variable {directives : List Directive} {body : String}

theorem render_eq_ok : render base path directives = .ok body ↔ ∃ elements,
    directives.mapM (elementsOf base path) = .ok elements ∧
      body = document (.parent "Response" [] elements.flatten) := by
  rw [render, Outcome.bind_eq_ok]
  exact exists_congr fun elements => and_congr_right fun _ => Outcome.pure_eq_ok.trans eq_comm

theorem exists_of_mem_flatten {elements : List (List Element)} (h : directives.mapM (elementsOf base path) = .ok elements)
    (he : e ∈ elements.flatten) : ∃ d ∈ directives, ∃ own, elementsOf base path d = .ok own ∧ e ∈ own := by
  obtain ⟨own, hown, he⟩ := List.mem_flatten.mp he
  obtain ⟨d, hd, hwritten⟩ := Outcome.mem_of_mapM_eq_ok h hown
  exact ⟨d, hd, own, hwritten, he⟩

/-- A script is a well-formed document exactly when the texts are legal that its directives put into it. -/
theorem isDocument_render_iff (h : render base path directives = .ok body) :
    IsDocument body ↔ ∀ d ∈ directives, ∀ text ∈ writtenTexts base path d, isLegalText text = true := by
  obtain ⟨elements, helements, rfl⟩ := render_eq_ok.mp h
  have hnamed : (Element.parent "Response" [] elements.flatten).IsNamed := by
    refine isNamed_parent [] (by decide) (by decide) (List.Sublist.refl _) ?_
    intro child hchild
    obtain ⟨d, -, own, hown, hchild⟩ := exists_of_mem_flatten helements hchild
    exact (isElementOf_of_mem hown hchild).isNamed
  rw [isDocument_document_iff hnamed, forall_parent_iff (by decide)]
  constructor
  · rintro ⟨-, h⟩ d hd text htext
    obtain ⟨own, hmem, hown⟩ := Outcome.exists_of_mapM_eq_ok helements hd
    rw [writtenTexts_of_ok hown] at htext
    obtain ⟨e, he, htext⟩ := List.mem_flatMap.mp htext
    exact h e (List.mem_flatten.mpr ⟨own, hmem, he⟩) text htext
  · intro h
    refine ⟨by simp, ?_⟩
    intro e he text htext
    obtain ⟨d, hd, own, hown, he⟩ := exists_of_mem_flatten helements he
    refine h d hd text ?_
    rw [writtenTexts_of_ok hown]
    exact List.mem_flatMap.mpr ⟨e, he, htext⟩

end

end Switchboard.Markup

import Switchboard.Proofs.Call.Position
import Switchboard.Proofs.Markup.ReadBack
import Switchboard.Proofs.Markup.Script

/-! # Steps that follow a script

The elements of a script come back as they were written. So the address that a caller is sent to, whether digits are
collected or a redirect is followed, is one that the script tells a call to go on at.
-/
namespace Switchboard

namespace Markup

variable {base : Text} {path body : String} {directives : List Directive}

theorem areUnbound_childless_iff {children : List Element} :
    AreUnbound (children.map fun child => (child, "")) ↔ ∀ child ∈ children, child.IsUnbound := by
  induction children with
  | nil => simp [AreUnbound]
  | cons child rest ih => simp [AreUnbound, ih]

theorem isUnbound_parent {name : String} {attributes : List (String × String)} {children : List Element}
    (hattributes : "xmlns" ∉ attributes.map Prod.fst) (hchildren : ∀ child ∈ children, child.IsUnbound) :
    (Element.parent name attributes children).IsUnbound := by
  refine ⟨fun a ha hname => hattributes ?_, areUnbound_childless_iff.mpr hchildren⟩
  exact hname ▸ List.mem_map_of_mem ha

theorem isUnbound_leaf {name text : String} {attributes : List (String × String)}
    (hattributes : "xmlns" ∉ attributes.map Prod.fst) : (Element.leaf name attributes text).IsUnbound :=
  ⟨fun _ ha hname => hattributes (hname ▸ List.mem_map_of_mem ha), trivial⟩

theorem names_optional_ne {name other : String} (h : other ≠ name) (value : Option String) :
    other ∉ (optional name value).map Prod.fst := fun hmem =>
  h (List.mem_singleton.mp ((names_optional name value).subset hmem))

theorem IsElementOf.isUnbound {d : Directive} {e : Element} (h : IsElementOf base path d e) : e.IsUnbound := by
  cases h with
  | gather prompt voice =>
    refine isUnbound_parent ?_ fun child hchild => ?_
    · simp [callbackAttributes, optional]
    · rw [List.mem_singleton.mp hchild]
      exact isUnbound_leaf (names_optional_ne (by decide) voice)
  | dial numbers =>
    refine isUnbound_parent ?_ fun child hchild => ?_
    · simp [callbackAttributes, names_optional_ne]
    · obtain ⟨number, -, rfl⟩ := List.mem_map.mp hchild
      exact isUnbound_leaf (by simp)
  | _ =>
    refine isUnbound_leaf ?_
    simp [callbackAttributes, names_optional_ne]

theorem childrenAsRead_childless (children : List Element) :
    (childrenAsRead (children.map fun child => (child, ""))).map Prod.fst = children.map Element.asRead := by
  induction children with
  | nil => rfl
  | cons child rest ih => rw [List.map_cons, childrenAsRead, List.map_cons, ih, List.map_cons]

theorem exists_of_render {root : Element} (hrender : render base path directives = .ok body)
    (h : readDocument? body = some root) : ∃ elements, directives.mapM (elementsOf base path) = .ok elements ∧
      root.children = elements.flatten.map Element.asRead := by
  obtain ⟨elements, helements, rfl⟩ := render_eq_ok.mp hrender
  have hmem : ∀ e ∈ elements.flatten, e.IsNamed ∧ e.IsUnbound := by
    intro e he
    obtain ⟨d, -, own, hown, he⟩ := exists_of_mem_flatten helements he
    have helement := isElementOf_of_mem hown he
    exact ⟨helement.isNamed, helement.isUnbound⟩
  have hnamed : (Element.parent "Response" [] elements.flatten).IsNamed :=
    isNamed_parent [] (by decide) (by decide) (List.Sublist.refl _) fun e he => (hmem e he).1
  have hunbound : (Element.parent "Response" [] elements.flatten).IsUnbound :=
    ⟨by simp, areUnbound_childless_iff.mpr fun e he => (hmem e he).2⟩
  obtain rfl := readDocument?_document hnamed hunbound h
  exact ⟨elements, helements, childrenAsRead_childless _⟩

theorem exists_of_child? {root e : Element} {name : String} (hrender : render base path directives = .ok body)
    (h : readDocument? body = some root) (hchild : root.child? name = some e) :
    ∃ d written, IsElementOf base path d written ∧ written.name = name ∧ e = written.asRead := by
  obtain ⟨elements, helements, hchildren⟩ := exists_of_render hrender h
  rw [Element.child?, hchildren] at hchild
  obtain ⟨written, hwritten, rfl⟩ := List.mem_map.mp (List.mem_of_find?_eq_some hchild)
  obtain ⟨d, -, own, hown, hwritten⟩ := exists_of_mem_flatten helements hwritten
  have hname : (written.asRead.name == name) = true :=
    List.find?_some (p := fun child : Element => child.name == name) hchild
  refine ⟨d, written, isElementOf_of_mem hown hwritten, ?_, rfl⟩
  cases written
  exact beq_iff_eq.mp hname

theorem IsElementOf.action_told {d : Directive} {e : Element} (h : IsElementOf base path d e) (hname : e.name = "Gather")
    {url : String} (hurl : ("action", url) ∈ e.attributes) : ∃ c, continuationUrl base path c = .ok url := by
  cases h with
  | @gather prompt voice numDigits timeout c action told =>
    have hsame : url = action := by
      simpa [Element.parent, Element.attributes, callbackAttributes, optional] using hurl
    exact ⟨c, hsame ▸ told⟩
  | _ => simp [Element.leaf, Element.parent, Element.name] at hname

theorem IsElementOf.redirect_told {d : Directive} {e : Element} (h : IsElementOf base path d e)
    (hname : e.name = "Redirect") : ∃ c, continuationUrl base path c = .ok e.text := by
  cases h with
  | @redirect prompt voice numDigits timeout c action told => exact ⟨c, told⟩
  | _ => simp [Element.leaf, Element.parent, Element.name] at hname

end Markup

namespace Simulation

open Markup

variable {base : Text} {path body : String} {directives : List Directive} {action redirect : Option String}

/-- The action and the redirect of a script are addresses where it tells a call to go on; of a redirect it is the text,
with its line ends made uniform and without blanks at its ends. -/
theorem nextStep_render (hrender : render base path directives = .ok body)
    (h : nextStep body = .ok (action, redirect)) :
    (∀ url ∈ action, ∃ c, continuationUrl base path c = .ok url) ∧
      ∀ url ∈ redirect, ∃ c told, continuationUrl base path c = .ok told ∧
        url = Text.trimString (String.ofList (normalLines told.toList)) := by
  rw [nextStep] at h
  cases hread : readDocument? body with
  | none =>
    rw [hread] at h
    cases h
  | some root =>
    rw [hread] at h
    obtain ⟨rfl, rfl⟩ := Prod.mk.inj (Except.ok.inj h)
    constructor
    · intro url hurl
      obtain ⟨e, hchild, hattribute⟩ := Option.bind_eq_some_iff.mp hurl
      obtain ⟨d, written, hwritten, hname, rfl⟩ := exists_of_child? hrender hread hchild
      obtain ⟨name, attributes, text, children⟩ := written
      have hmem : ("action", url) ∈ sortedAttributes attributes := by
        obtain ⟨before, after, hsorted, -⟩ := List.lookup_eq_some_iff.mp hattribute
        have hsorted : sortedAttributes attributes = before ++ ("action", url) :: after := hsorted
        exact hsorted ▸ List.mem_append_right before List.mem_cons_self
      exact hwritten.action_told hname ((sortedAttributes_perm attributes).mem_iff.mp hmem)
    · intro url hurl
      obtain ⟨text, htext, rfl⟩ := Option.map_eq_some_iff.mp hurl
      obtain ⟨e, hchild, rfl⟩ := Option.map_eq_some_iff.mp (Option.filter_eq_some_iff.mp htext).1
      obtain ⟨d, written, hwritten, hname, rfl⟩ := exists_of_child? hrender hread hchild
      obtain ⟨c, htold⟩ := hwritten.redirect_told hname
      refine ⟨c, written.text, htold, ?_⟩
      cases written
      rfl

theorem isBlank_encodePairs (pairs : List (String × String)) :
    ∀ c ∈ (Text.encodePairs pairs).toList, Text.isBlank c = false := by
  intro c hc
  have hascii : c.toNat < 0x80 := by
    rcases Http.mem_encodePairs hc with rfl | rfl | hquery
    · decide
    · decide
    · exact Text.toNat_lt_of_isQueryChar hquery
  exact Text.isBlank_eq_false_of_ascii (of_decide_eq_true (Continuation.isShown_encodePairs pairs c hc).2) hascii

/-- An address below an origin is told as it is: it holds no line end, and begins and ends without a blank. -/
theorem trim_normalLines_address {origin : Http.Origin} {c : Continuation} {url : String}
    (hbase : Text.dropTrailing '/' base = origin.text) (hurl : continuationUrl base voicePath c = .ok url) :
    Text.trimString (String.ofList (normalLines url.toList)) = url := by
  obtain ⟨parameters, short, hparameters, hshort, rfl⟩ := Markup.continuationUrl_eq_ok.mp hurl
  obtain rfl := Text.plain.inj (hbase.symm.trans hshort)
  have hchars : (origin.text ++ voicePath ++ "?" ++ Text.encodePairs parameters).toList =
      origin.chars ++ (voicePath ++ "?").toList ++ (Text.encodePairs parameters).toList := by
    rw [String.toList_append, String.append_assoc, String.toList_append, Http.Origin.text, String.toList_ofList]
  have hpath : ∀ d ∈ (voicePath ++ "?").toList, Http.isShown d = true := List.all_iff_forall_prop.mp (by decide)
  have hquery : (Text.encodePairs parameters).toList ≠ [] := fun hnil =>
    Continuation.encodePairs_ne_empty hparameters (String.toList_eq_nil_iff.mp hnil)
  have hshown : ∀ d ∈ (origin.text ++ voicePath ++ "?" ++ Text.encodePairs parameters).toList, Http.isShown d = true := by
    rw [hchars, List.forall_mem_append, List.forall_mem_append]
    exact ⟨⟨Http.Url.isShown_chars origin, hpath⟩, fun d hd => (Continuation.isShown_encodePairs _ d hd).2⟩
  have hlines : '\r' ∉ (origin.text ++ voicePath ++ "?" ++ Text.encodePairs parameters).toList := fun hmem =>
    absurd (hshown '\r' hmem) (by decide)
  have hfirst : ∀ d, (origin.text ++ voicePath ++ "?" ++ Text.encodePairs parameters).toList.head? = some d →
      Text.isBlank d = false := by
    intro d hd
    have hne : origin.chars ≠ [] := by simp [Http.Origin.chars]
    rw [hchars, List.append_assoc, List.head?_append_of_ne_nil _ hne] at hd
    exact Http.Url.isBlank_of_head? origin hd
  have hlast : ∀ d, (origin.text ++ voicePath ++ "?" ++ Text.encodePairs parameters).toList.getLast? = some d →
      Text.isBlank d = false := by
    intro d hd
    rw [hchars, List.getLast?_append_of_ne_nil _ hquery] at hd
    exact isBlank_encodePairs _ d (List.mem_of_getLast? hd)
  rw [normalLines_eq_self hlines, Text.trimString, String.toList_ofList, Text.trimBy_eq_self hfirst hlast,
    String.ofList_toList]

theorem pathOf_continuationUrl {origin : Http.Origin} {c : Continuation} {url : String}
    (hbase : Text.dropTrailing '/' base = origin.text) (hurl : continuationUrl base voicePath c = .ok url) :
    ∃ parameters, pathOf url = .ok (Continuation.address parameters).target := by
  obtain ⟨parameters, -, rfl⟩ := (Continuation.continuationUrl_eq_ok hbase).mp hurl
  have hkept := Http.Url.keepsTargets_of_origin (origin.dropTrailing_text 0) _ (Continuation.isPlain_address parameters)
  rw [origin.dropTrailing_text] at hkept
  exact ⟨parameters, by rw [pathOf, hkept]; rfl⟩

theorem pathOf_nextStep {origin : Http.Origin} (hbase : Text.dropTrailing '/' base = origin.text)
    (hrender : render base voicePath directives = .ok body) (h : nextStep body = .ok (action, redirect)) {url : String}
    (hurl : url ∈ action ∨ url ∈ redirect) :
    ∃ parameters, pathOf url = .ok (Continuation.address parameters).target := by
  obtain ⟨haction, hredirect⟩ := nextStep_render hrender h
  rcases hurl with hurl | hurl
  · obtain ⟨c, htold⟩ := haction url hurl
    exact pathOf_continuationUrl hbase htold
  · obtain ⟨c, told, htold, rfl⟩ := hredirect url hurl
    rw [trim_normalLines_address hbase htold]
    exact pathOf_continuationUrl hbase htold

end Simulation
end Switchboard

import Switchboard.Proofs.Markup.Grammar

/-! # Writing well-formed markup

An element whose tags and attributes have proper names is written as one, provided that its texts are legal: no mark
of a text is left as it is. Characters that are not legal are written as they are, so that an element with such a
character in one of its texts is no longer well formed.
-/
namespace Switchboard.Markup

def isLegalText (s : String) : Bool :=
  s.toList.all isLegal

mutual

def Element.IsNamed : Element → Prop
  | .node name attributes _ children =>
    isName name.toList = true ∧ (∀ a ∈ attributes, isName a.1.toList = true) ∧
      (attributes.map Prod.fst).Nodup ∧ AreNamed children

def AreNamed : List (Element × String) → Prop
  | [] => True
  | (child, _) :: rest => child.IsNamed ∧ AreNamed rest

end

mutual

def Element.texts : Element → List String
  | .node _ attributes text children => attributes.map Prod.snd ++ text :: childTexts children

def childTexts : List (Element × String) → List String
  | [] => []
  | (child, tail) :: rest => child.texts ++ tail :: childTexts rest

end

/-- The words of the references that are written, each with the character that it stands for. -/
def references : List (List Char × Char) :=
  [("amp".toList, '&'), ("lt".toList, '<'), ("gt".toList, '>'), ("quot".toList, '"'), ("#09".toList, '\t'),
    ("#10".toList, '\n'), ("#13".toList, '\r')]

theorem tellsChar_of_mem {word : List Char} {c : Char} (h : (word, c) ∈ references) : tellsChar word = true := by
  have hall : references.all (fun reference => tellsChar reference.1) = true := by decide
  exact List.all_eq_true.mp hall _ h

theorem escapeText_eq (c : Char) :
    (∃ word, (word, c) ∈ references ∧ escapeText c = '&' :: (word ++ [';'])) ∨
    (escapeText c = [c] ∧ c ≠ '<' ∧ c ≠ '&' ∧ c ≠ '>') := by
  unfold escapeText
  split
  · exact .inl ⟨"amp".toList, by subst c; decide, rfl⟩
  split
  · exact .inl ⟨"lt".toList, by subst c; decide, rfl⟩
  split
  · exact .inl ⟨"gt".toList, by subst c; decide, rfl⟩
  · exact .inr ⟨rfl, ‹_›, ‹_›, ‹_›⟩

theorem escapeAttribute_eq (c : Char) :
    (∃ word, (word, c) ∈ references ∧ escapeAttribute c = '&' :: (word ++ [';'])) ∨
    (escapeAttribute c = [c] ∧ c ≠ '<' ∧ c ≠ '&' ∧ c ≠ '"' ∧ c ∉ ['\t', '\n', '\r']) := by
  unfold escapeAttribute
  split
  · exact .inl ⟨"quot".toList, by subst c; decide, rfl⟩
  split
  · exact .inl ⟨"#09".toList, by subst c; decide, rfl⟩
  split
  · exact .inl ⟨"#10".toList, by subst c; decide, rfl⟩
  split
  · exact .inl ⟨"#13".toList, by subst c; decide, rfl⟩
  · rcases escapeText_eq c with h | ⟨h, hlt, hamp, -⟩
    · exact .inl h
    · exact .inr ⟨h, hlt, hamp, ‹_›, by simp [*]⟩

theorem all_escapeText (c : Char) : (escapeText c).all isLegal = isLegal c := by
  unfold escapeText
  split
  · subst c; decide
  split
  · subst c; decide
  split
  · subst c; decide
  · simp

theorem all_escapeAttribute (c : Char) : (escapeAttribute c).all isLegal = isLegal c := by
  unfold escapeAttribute
  split
  · subst c; decide
  split
  · subst c; decide
  split
  · subst c; decide
  split
  · subst c; decide
  · exact all_escapeText c

theorem isValue_escaped {s : List Char} (h : s.all isLegal = true) : IsValue (s.flatMap escapeAttribute) := by
  induction s with
  | nil => exact .nil
  | cons c rest ih =>
    rw [List.all_cons, Bool.and_eq_true] at h
    rw [List.flatMap_cons]
    rcases escapeAttribute_eq c with ⟨word, hword, hc⟩ | ⟨hc, hlt, hamp, hquote, -⟩
    · rw [hc]
      simpa using IsValue.reference (tellsChar_of_mem hword) (ih h.2)
    · rw [hc]
      exact .char h.1 ⟨hlt, hamp, hquote⟩ (ih h.2)

def attributeText (a : String × String) : List Char :=
  ' ' :: (a.1.toList ++ '=' :: '"' :: (a.2.toList.flatMap escapeAttribute ++ ['"']))

theorem toList_attributesText (attributes : List (String × String)) :
    (attributesText attributes).toList = (sortedAttributes attributes).flatMap attributeText := by
  simp [attributesText, escaped, List.flatMap, funext attributeText.eq_1, Function.comp_def]

theorem sortedAttributes_perm (attributes : List (String × String)) :
    (sortedAttributes attributes).Perm attributes :=
  List.mergeSort_perm _ _

theorem all_attributeText {a : String × String} (hnamed : isName a.1.toList = true) :
    (attributeText a).all isLegal = isLegalText a.2 := by
  have hmarks : isLegal ' ' = true ∧ isLegal '=' = true ∧ isLegal '"' = true := by decide
  simp [attributeText, isLegalText, legal_of_isName hnamed, hmarks, List.all_flatMap, all_escapeAttribute]

theorem legal_attributesText_iff {attributes : List (String × String)}
    (hnamed : ∀ a ∈ attributes, isName a.1.toList = true) :
    (attributesText attributes).toList.all isLegal = true ↔ ∀ a ∈ attributes, isLegalText a.2 = true := by
  have hperm := sortedAttributes_perm attributes
  rw [toList_attributesText, List.all_flatMap, List.all_eq_true]
  constructor
  · intro h a ha
    rw [← all_attributeText (hnamed a ha)]
    exact h a (hperm.mem_iff.mpr ha)
  · intro h a ha
    have ha := hperm.mem_iff.mp ha
    rw [all_attributeText (hnamed a ha)]
    exact h a ha

theorem areAttributes_flatMap {attributes : List (String × String)}
    (hnamed : ∀ a ∈ attributes, isName a.1.toList = true) (hnodup : (attributes.map Prod.fst).Nodup)
    (hlegal : ∀ a ∈ attributes, isLegalText a.2 = true) :
    AreAttributes (attributes.map fun a => a.1.toList) (attributes.flatMap attributeText) := by
  induction attributes with
  | nil => exact .nil
  | cons a rest ih =>
    rw [List.map_cons, List.nodup_cons] at hnodup
    have hothers := ih (fun b hb => hnamed b (List.mem_cons_of_mem _ hb)) hnodup.2
      (fun b hb => hlegal b (List.mem_cons_of_mem _ hb))
    have hfresh : a.1.toList ∉ rest.map fun b => b.1.toList := by
      intro hmem
      obtain ⟨b, hb, hname⟩ := List.mem_map.mp hmem
      exact hnodup.1 (List.mem_map.mpr ⟨b, hb, String.toList_inj.mp hname⟩)
    have hvalue := isValue_escaped (hlegal a List.mem_cons_self)
    simpa [attributeText] using AreAttributes.cons (hnamed a List.mem_cons_self) hfresh hvalue hothers

theorem areAttributes_attributesText {attributes : List (String × String)}
    (hnamed : ∀ a ∈ attributes, isName a.1.toList = true) (hnodup : (attributes.map Prod.fst).Nodup)
    (hlegal : ∀ a ∈ attributes, isLegalText a.2 = true) :
    ∃ names, AreAttributes names (attributesText attributes).toList := by
  have hperm := sortedAttributes_perm attributes
  rw [toList_attributesText]
  exact ⟨_, areAttributes_flatMap (fun a ha => hnamed a (hperm.mem_iff.mp ha))
    ((hperm.map Prod.fst).nodup_iff.mpr hnodup) fun a ha => hlegal a (hperm.mem_iff.mp ha)⟩

/-- Content that may stand after any text, because it does not begin with the end of a marked section. -/
structure IsClear (s : List Char) : Prop where
  content : Derives .content s
  unended : ¬ ['>'] <+: s ∧ ¬ [']', '>'] <+: s

theorem IsClear.nil : IsClear [] where
  content := .nil
  unended := by simp

theorem IsClear.escaped {text rest : List Char} (h : IsClear rest) (hlegal : text.all isLegal = true) :
    IsClear (text.flatMap escapeText ++ rest) := by
  induction text with
  | nil => exact h
  | cons c text ih =>
    rw [List.all_cons, Bool.and_eq_true] at hlegal
    have hrest := ih hlegal.2
    rw [List.flatMap_cons, List.append_assoc]
    rcases escapeText_eq c with ⟨word, hword, hc⟩ | ⟨hc, hlt, hamp, hgt⟩
    · rw [hc]
      refine ⟨by simpa using Derives.reference (tellsChar_of_mem hword) hrest.content, ?_⟩
      simp
    · rw [hc]
      refine ⟨.char hlegal.1 ⟨hlt, hamp⟩ ?_ hrest.content, ?_, ?_⟩
      · exact fun h => hrest.unended.2 (List.cons_prefix_cons.mp h).2
      · exact fun h => hgt (List.cons_prefix_cons.mp h).1.symm
      · exact fun h => hrest.unended.1 (List.cons_prefix_cons.mp h).2

theorem IsClear.child {element rest : List Char} (h : IsClear rest) (helement : Derives .element element) :
    IsClear (element ++ rest) := by
  refine ⟨.child helement h.content, ?_⟩
  cases helement <;> simp

theorem forall_texts_node {P : String → Prop} {name text : String} {attributes : List (String × String)}
    {children : List (Element × String)} : (∀ t ∈ Element.texts (.node name attributes text children), P t) ↔
      (∀ a ∈ attributes, P a.2) ∧ P text ∧ ∀ t ∈ childTexts children, P t := by
  rw [Element.texts, List.forall_mem_append, List.forall_mem_map, List.forall_mem_cons]

theorem forall_childTexts_cons {P : String → Prop} {child : Element} {tail : String}
    {rest : List (Element × String)} : (∀ t ∈ childTexts ((child, tail) :: rest), P t) ↔
      (∀ t ∈ child.texts, P t) ∧ P tail ∧ ∀ t ∈ childTexts rest, P t := by
  rw [childTexts, List.forall_mem_append, List.forall_mem_cons]

theorem all_escaped (text : String) : (escaped escapeText text).toList.all isLegal = isLegalText text := by
  simp [escaped, isLegalText, List.all_flatMap, all_escapeText]

mutual

/-- An element with proper names is legal as it is written exactly when its texts are. -/
theorem Element.legal_print_iff : (e : Element) → e.IsNamed →
    (e.print.toList.all isLegal = true ↔ ∀ text ∈ e.texts, isLegalText text = true)
  | .node name attributes text children, h => by
    obtain ⟨hname, hnamed, -, hchildren⟩ := h
    have hmarks : isLegal '<' = true ∧ isLegal '>' = true ∧ isLegal '/' = true ∧ isLegal ' ' = true := by decide
    have ih := legal_printChildren_iff children hchildren
    have hattributes := legal_attributesText_iff hnamed
    rw [forall_texts_node, ← ih, ← hattributes, ← all_escaped, Element.print]
    split
    · rename_i hempty
      obtain ⟨rfl, hnone⟩ := hempty
      rw [List.isEmpty_iff.mp hnone]
      simp [legal_of_isName hname, hmarks, escaped, printChildren]
    · simp [legal_of_isName hname, hmarks]

theorem legal_printChildren_iff : (children : List (Element × String)) → AreNamed children →
    ((printChildren children).toList.all isLegal = true ↔ ∀ text ∈ childTexts children, isLegalText text = true)
  | [], _ => by simp [printChildren, childTexts]
  | (child, tail) :: rest, h => by
    have ihchild := child.legal_print_iff h.1
    have ihrest := legal_printChildren_iff rest h.2
    rw [forall_childTexts_cons, ← ihchild, ← ihrest, ← all_escaped, printChildren]
    simp

end

mutual

theorem Element.derives_print : (e : Element) → e.IsNamed → (∀ text ∈ e.texts, isLegalText text = true) →
    Derives .element e.print.toList
  | .node name attributes text children, h, hlegal => by
    obtain ⟨hname, hnamed, hnodup, hchildren⟩ := h
    obtain ⟨hvalues, htext, htexts⟩ := forall_texts_node.mp hlegal
    obtain ⟨names, hattributes⟩ := areAttributes_attributesText hnamed hnodup hvalues
    have hinner := (isClear_printChildren children hchildren htexts).escaped htext
    rw [Element.print]
    split
    · have hspace : [' '].all isSpace = true := by decide
      simpa using Derives.empty hname hattributes hspace
    · simpa [escaped] using Derives.full hname hattributes hinner.content

theorem isClear_printChildren : (children : List (Element × String)) → AreNamed children →
    (∀ text ∈ childTexts children, isLegalText text = true) → IsClear (printChildren children).toList
  | [], _, _ => .nil
  | (child, tail) :: rest, h, hlegal => by
    obtain ⟨hchild, htail, hrest⟩ := forall_childTexts_cons.mp hlegal
    have ihrest := isClear_printChildren rest h.2 hrest
    have ihchild := child.derives_print h.1 hchild
    simpa [printChildren, escaped] using (ihrest.escaped htail).child ihchild

end

theorem isDocument_document_iff {root : Element} (h : root.IsNamed) :
    IsDocument (document root) ↔ ∀ text ∈ root.texts, isLegalText text = true := by
  constructor
  · intro hdocument
    have hlegal := hdocument.legal
    rw [document, String.toList_append, List.all_append, Bool.and_eq_true] at hlegal
    exact (root.legal_print_iff h).mp hlegal.2
  · intro hlegal
    exact ⟨root.print.toList, root.derives_print h hlegal, by rw [document, String.toList_append]⟩

end Switchboard.Markup

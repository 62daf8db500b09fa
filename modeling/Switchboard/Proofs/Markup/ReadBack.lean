import Switchboard.Proofs.Markup.Tag

/-! # Markup that is read back

What is read of a document that was written is the element it was written from: the attributes come in the order of
their names, and only the line ends of texts are made uniform. A document with a character that is not legal is not
read at all.
-/
namespace Switchboard.Markup

variable {around : Surroundings} {spaces : Namespaces} {fuel : Nat}

mutual

/-- Whether no attribute in an element binds a namespace. -/
def Element.IsUnbound : Element → Prop
  | .node _ attributes _ children => (∀ a ∈ attributes, a.1 ≠ "xmlns") ∧ AreUnbound children

def AreUnbound : List (Element × String) → Prop
  | [] => True
  | (child, _) :: rest => child.IsUnbound ∧ AreUnbound rest

end

mutual

def Element.asRead : Element → Element
  | .node name attributes text children =>
    .node name (sortedAttributes attributes) (String.ofList (normalLines text.toList)) (childrenAsRead children)

def childrenAsRead : List (Element × String) → List (Element × String)
  | [] => []
  | (child, tail) :: rest => (child.asRead, String.ofList (normalLines tail.toList)) :: childrenAsRead rest

end

theorem normalLines_eq_self {s : List Char} (h : '\r' ∉ s) : normalLines s = s := by
  fun_induction normalLines s with
  | case1 => exact absurd List.mem_cons_self h
  | case2 => exact absurd List.mem_cons_self h
  | case3 c rest _ _ ih => rw [ih (List.not_mem_of_not_mem_cons h)]
  | case4 => rfl

theorem Content.after_append (first second : List Char) (content : Content) :
    (content.after second).after first = content.after (first ++ second) := by
  simp [Content.after]

section
variable {content : Content} {rest : List Char} {after : Option (List Char)}

theorem content?_reference {word : List Char} {c : Char} (hword : (word, c) ∈ references)
    (h : content? around spaces (fuel + 1) ('&' :: (word ++ ';' :: rest)) = some (content, after)) :
    ∃ inner, content? around spaces fuel rest = some (inner, after) ∧ content = inner.after [c] := by
  obtain ⟨piece, hpiece, hchar, hother, -⟩ := reference?_of_mem hword rest
  rw [content?, hpiece, Option.bind_eq_bind, Option.bind_some] at h
  obtain ⟨⟨inner, tail⟩, hinner, hread⟩ := Option.bind_eq_some_iff.mp h
  have hread : (inner.after [c], tail) = (content, after) := by
    cases piece with
    | char d =>
      obtain rfl : d = c := Option.some.inj hchar
      exact absurd rfl hother
    | numbered d =>
      obtain rfl : d = c := Option.some.inj hchar
      exact Option.some.inj hread
    | entity name =>
      have hname : predefined? name = some c := hchar
      simp only [hname] at hread
      exact Option.some.inj hread
  cases hread
  exact ⟨inner, hinner, rfl⟩

theorem content?_plain {c : Char} (hlt : c ≠ '<') (hamp : c ≠ '&') (hreturn : c ≠ '\r')
    (h : content? around spaces (fuel + 1) (c :: rest) = some (content, after)) :
    ∃ inner, content? around spaces fuel rest = some (inner, after) ∧ content = inner.after [c] := by
  by_cases hend : ∃ tail, c = ']' ∧ rest = ']' :: '>' :: tail
  · -- the end of a quoted section is refused
    obtain ⟨tail, rfl, rfl⟩ := hend
    rw [content?] at h
    cases h
  · rw [content?] at h
    rotate_left
    · exact fun _ hc => absurd hc hlt
    · exact fun _ hc => absurd hc hlt
    · exact fun _ hc => absurd hc hlt
    · exact fun _ hc => absurd hc hlt
    · exact hlt
    · exact hamp
    · exact fun tail hc hrest => hend ⟨tail, hc, hrest⟩
    · exact hreturn
    split at h
    · obtain ⟨⟨inner, tail⟩, hinner, hread⟩ := Option.bind_eq_some_iff.mp h
      cases hread
      exact ⟨inner, hinner, rfl⟩
    · cases h

theorem content?_escapeText {c : Char} (hreturn : c ≠ '\r')
    (h : content? around spaces fuel (escapeText c ++ rest) = some (content, after)) :
    ∃ fuel' inner, content? around spaces fuel' rest = some (inner, after) ∧ content = inner.after [c] := by
  cases fuel with
  | zero => simp [content?] at h
  | succ fuel =>
    rcases escapeText_eq c with ⟨word, hword, hc⟩ | ⟨hc, hlt, hamp, -⟩
    · rw [hc, List.cons_append, List.append_assoc, List.singleton_append] at h
      exact ⟨fuel, content?_reference hword h⟩
    · rw [hc, List.singleton_append] at h
      exact ⟨fuel, content?_plain hlt hamp hreturn h⟩

/-- A line end of a text, of one or two characters, is read as a line feed. -/
theorem content?_return (h : content? around spaces fuel ('\r' :: rest) = some (content, after)) :
    ∃ fuel' inner, content? around spaces fuel' (if rest.head? == some '\n' then rest.drop 1 else rest) =
      some (inner, after) ∧ content = inner.after ['\n'] := by
  cases fuel with
  | zero => simp [content?] at h
  | succ fuel =>
    rw [content?] at h
    obtain ⟨⟨inner, tail⟩, hinner, hread⟩ := Option.bind_eq_some_iff.mp h
    cases hread
    exact ⟨fuel, inner, hinner, rfl⟩

theorem head?_escaped_ne {text following : List Char} (hmark : following.head? = some '<')
    (hother : ∀ tail, text ≠ '\n' :: tail) : (text.flatMap escapeText ++ following).head? ≠ some '\n' := by
  cases text with
  | nil => rw [List.flatMap_nil, List.nil_append, hmark]; decide
  | cons c tail =>
    rw [List.flatMap_cons]
    rcases escapeText_eq c with ⟨word, -, hc⟩ | ⟨hc, -⟩
    · rw [hc]
      exact fun h => absurd (Option.some.inj h) (by decide)
    · rw [hc]
      exact fun h => hother tail (by rw [Option.some.inj h])

theorem content?_escaped (text : List Char) {following : List Char} (hmark : following.head? = some '<')
    (h : content? around spaces fuel (text.flatMap escapeText ++ following) = some (content, after)) :
    ∃ fuel' inner, content? around spaces fuel' following = some (inner, after) ∧
      content = inner.after (normalLines text) := by
  fun_induction normalLines text generalizing fuel content with
  | case1 rest ih =>
    obtain ⟨_, line, hline, rfl⟩ := content?_return h
    obtain ⟨_, inner, hinner, rfl⟩ := ih hline
    exact ⟨_, inner, hinner, Content.after_append ['\n'] _ inner⟩
  | case2 rest hother ih =>
    have hnext : ((rest.flatMap escapeText ++ following).head? == some '\n') = false :=
      beq_eq_false_iff_ne.mpr (head?_escaped_ne hmark hother)
    have h : content? around spaces fuel ('\r' :: (rest.flatMap escapeText ++ following)) = some (content, after) := h
    obtain ⟨_, line, hline, rfl⟩ := content?_return h
    rw [hnext, if_neg Bool.false_ne_true] at hline
    obtain ⟨_, inner, hinner, rfl⟩ := ih hline
    exact ⟨_, inner, hinner, Content.after_append ['\n'] _ inner⟩
  | case3 c rest hpair hreturn ih =>
    rw [List.flatMap_cons, List.append_assoc] at h
    obtain ⟨_, line, hline, rfl⟩ := content?_escapeText hreturn h
    obtain ⟨_, inner, hinner, rfl⟩ := ih hline
    exact ⟨_, inner, hinner, Content.after_append [c] _ inner⟩
  | case4 => exact ⟨fuel, content, h, rfl⟩

end

/-- What is written of an element after its first mark: the name, the attributes, and an end of the tag that tells
whether there is more. -/
theorem Element.toList_print (name text : String) (attributes : List (String × String))
    (children : List (Element × String)) : (Element.node name attributes text children).print.toList =
      '<' :: (name.toList ++ ((sortedAttributes attributes).flatMap attributeText ++
        if text = "" ∧ children.isEmpty then tagEnd true
        else tagEnd false ++ (text.toList.flatMap escapeText ++
          ((printChildren children).toList ++ '<' :: '/' :: (name.toList ++ ['>']))))) := by
  rw [Element.print]
  split <;> simp [toList_attributesText, escaped, tagEnd]

theorem Element.exists_print_of_isNamed (e : Element) (h : e.IsNamed) :
    ∃ c s, e.print.toList = '<' :: c :: s ∧ isNameStart c = true := by
  obtain ⟨name, attributes, text, children⟩ := e
  obtain ⟨c, s, hname, hstart⟩ := exists_cons_of_isName h.1
  exact ⟨c, _, by rw [toList_print, hname, List.cons_append], hstart⟩

theorem head?_printChildren (children : List (Element × String)) (rest : List Char) :
    ((printChildren children).toList ++ '<' :: rest).head? = some '<' := by
  match children with
  | [] => rfl
  | (.node name attributes text inner, tail) :: others =>
    rw [printChildren, String.toList_append, String.toList_append, Element.toList_print]
    rfl

theorem content?_child {c : Char} (hstart : isNameStart c = true) {s : List Char}
    {r : Content × Option (List Char)} (h : content? around spaces fuel ('<' :: c :: s) = some r) :
    ∃ fuel' child rest inner after, element? around spaces fuel' (c :: s) = some (child, rest) ∧
      content? around spaces fuel' rest = some (inner, after) ∧ r = (inner.afterChild child, after) := by
  have hmarks : c ≠ '/' ∧ c ≠ '!' ∧ c ≠ '?' := by
    refine ⟨?_, ?_, ?_⟩ <;> (rintro rfl; exact absurd hstart (by decide))
  obtain ⟨hslash, hdeclaration, hinstruction⟩ := hmarks
  cases fuel with
  | zero => simp [content?] at h
  | succ fuel =>
    rw [content?] at h
    rotate_left
    · exact fun _ heq => hslash (List.cons.inj heq).1
    · exact fun _ heq => hdeclaration (List.cons.inj heq).1
    · exact fun _ heq => hdeclaration (List.cons.inj heq).1
    · exact fun _ heq => hinstruction (List.cons.inj heq).1
    obtain ⟨⟨child, rest⟩, hchild, h⟩ := Option.bind_eq_some_iff.mp h
    obtain ⟨⟨inner, after⟩, hinner, hr⟩ := Option.bind_eq_some_iff.mp h
    exact ⟨fuel, child, rest, inner, after, hchild, hinner, (Option.some.inj hr).symm⟩

mutual

/-- What is read of an element that was written, after its first mark, is the element and nothing of what follows. -/
theorem Element.element?_print (hrules : around.doctype.rules = []) : (e : Element) → e.IsNamed → e.IsUnbound →
    ∀ {fuel : Nat} {s rest : List Char} {r : Element × List Char}, e.print.toList = '<' :: s →
      element? around Namespaces.first fuel (s ++ rest) = some r → r = (e.asRead, rest)
  | .node name attributes text children, hnamed, hunbound, fuel, s, rest, r, hs, h => by
    obtain ⟨hname, hattributes, -, hchildren⟩ := hnamed
    have hperm := sortedAttributes_perm attributes
    have hsorted : ∀ a ∈ sortedAttributes attributes, isName a.1.toList = true :=
      fun a ha => hattributes a (hperm.mem_iff.mp ha)
    have hfree : ∀ a ∈ sortedAttributes attributes, a.1 ≠ "xmlns" := fun a ha => hunbound.1 a (hperm.mem_iff.mp ha)
    have hparts := List.cons.inj ((Element.toList_print name text attributes children).symm.trans hs)
    obtain rfl := hparts.2
    cases fuel with
    | zero => simp [element?] at h
    | succ fuel =>
      rw [List.append_assoc, List.append_assoc, element?] at h
      obtain ⟨tag, htag, hrest⟩ := Option.bind_eq_some_iff.mp h
      by_cases hempty : text = "" ∧ children.isEmpty
      · rw [if_pos hempty] at htag
        obtain rfl := tag?_written hrules hname hsorted hfree true htag
        obtain ⟨rfl, hnone⟩ := hempty
        obtain rfl := List.isEmpty_iff.mp hnone
        exact (Option.some.inj hrest).symm
      · rw [if_neg hempty, List.append_assoc] at htag
        obtain rfl := tag?_written hrules hname hsorted hfree false htag
        simp only [Bool.false_eq_true, if_false] at hrest
        obtain ⟨⟨content, after⟩, hcontent, hclosing⟩ := Option.bind_eq_some_iff.mp hrest
        rw [List.append_assoc, List.append_assoc] at hcontent
        obtain ⟨_, inner, hinner, rfl⟩ := content?_escaped text.toList (head?_printChildren children _) hcontent
        obtain ⟨rfl, rfl⟩ := Prod.mk.inj (content?_printChildren hrules children hchildren hunbound.2 hinner)
        obtain ⟨_, htail, hclosing⟩ := Option.bind_eq_some_iff.mp hclosing
        obtain rfl := Option.some.inj htail
        obtain ⟨_, hmark, hclosing⟩ := Option.bind_eq_some_iff.mp hclosing
        have hafter : after? name ((name.toList ++ ['>']) ++ rest) = some ('>' :: rest) := by
          rw [List.append_assoc, after?_append]
          rfl
        obtain rfl := Option.some.inj (hafter.symm.trans hmark)
        obtain ⟨_, hend, hread⟩ := Option.bind_eq_some_iff.mp hclosing
        obtain rfl := Option.some.inj ((after?_append ">" rest).symm.trans hend)
        obtain rfl := Option.some.inj hread
        rw [Element.asRead, Content.after, List.append_nil]

theorem content?_printChildren (hrules : around.doctype.rules = []) : (children : List (Element × String)) →
    AreNamed children → AreUnbound children → ∀ {fuel : Nat} {rest : List Char}
    {r : Content × Option (List Char)},
      content? around Namespaces.first fuel ((printChildren children).toList ++ '<' :: '/' :: rest) = some r →
        r = (⟨[], childrenAsRead children⟩, some rest)
  | [], _, _, fuel, rest, r, h => by
    cases fuel with
    | zero => simp [content?] at h
    | succ fuel => exact (Option.some.inj h).symm
  | (child, tail) :: others, hnamed, hunbound, fuel, rest, r, h => by
    obtain ⟨c, s, hprint, hstart⟩ := child.exists_print_of_isNamed hnamed.1
    rw [printChildren, escaped, String.toList_append, String.toList_append, String.toList_ofList, List.append_assoc,
      List.append_assoc, hprint] at h
    obtain ⟨_, read, after, inner, unread, hchild, hinner, rfl⟩ := content?_child hstart h
    obtain ⟨rfl, rfl⟩ := Prod.mk.inj (child.element?_print hrules hnamed.1 hunbound.1 hprint hchild)
    obtain ⟨_, siblings, hsiblings, rfl⟩ := content?_escaped tail.toList (head?_printChildren others _) hinner
    obtain ⟨rfl, rfl⟩ := Prod.mk.inj (content?_printChildren hrules others hnamed.2 hunbound.2 hsiblings)
    rw [childrenAsRead, Content.after, Content.afterChild, List.append_nil]

end

def versionAndEncoding : String := "version=\"1.0\" encoding=\"UTF-8\""

theorem declaration_eq : declaration.toList = "<?xml".toList ++ (' ' :: versionAndEncoding.toList ++ ['?', '>']) := by
  decide

theorem afterDeclaration?_declaration (s : List Char) : afterDeclaration? (declaration.toList ++ s) = some (false, s) := by
  have hinner : upTo? ['?', '>'] (' ' :: versionAndEncoding.toList ++ ['?', '>'] ++ s) =
      some (' ' :: versionAndEncoding.toList, s) := by
    rw [List.append_assoc]
    exact (upTo?_append (by decide) ['>'] s).trans (if_pos (by decide))
  have hdeclared : declared? (' ' :: versionAndEncoding.toList) = some false := by decide +kernel
  have hblank : isSpace ' ' = true := by decide
  rw [declaration_eq, List.append_assoc, afterDeclaration?, after?_append]
  simp only [List.cons_append] at hinner ⊢
  rw [if_pos hblank, hinner, Option.bind_eq_bind, Option.bind_some, hdeclared]
  rfl

theorem many?_tag {c : Char} (hstart : isNameStart c = true) (s : List Char) :
    Token.many? ('<' :: c :: s) = some ([], '<' :: c :: s) := by
  have hmark : ('<' :: c :: s).dropWhile isSpace = '<' :: c :: s := rfl
  rw [Token.many?, List.length_cons, Token.manyWithin?, hmark]
  exact if_pos hstart

/-- A document that was written is read as what it was written from, if it is read at all. -/
theorem readDocument?_document {root e : Element} (hnamed : root.IsNamed) (hunbound : root.IsUnbound)
    (h : readDocument? (document root) = some e) : e = root.asRead := by
  obtain ⟨c, s, hprint, hstart⟩ := root.exists_print_of_isNamed hnamed
  have hfirst : ((declaration.toList ++ '<' :: c :: s).head? == some '\ufeff') = false := by
    rw [declaration_eq]
    rfl
  rw [readDocument?, document, String.toList_append, hprint, hfirst, if_neg Bool.false_ne_true,
    afterDeclaration?_declaration, Option.bind_eq_bind, Option.bind_some] at h
  dsimp only at h
  rw [many?_tag hstart, Option.bind_eq_bind, Option.bind_some] at h
  obtain ⟨doctype, hdoctype, h⟩ := Option.bind_eq_some_iff.mp h
  have hrules : doctype.rules = [] := by
    rw [← Option.some.inj hdoctype]
  split at h
  · cases h
  · obtain ⟨after, hafter, h⟩ := Option.bind_eq_some_iff.mp h
    obtain ⟨⟨read, rest⟩, hread, h⟩ := Option.bind_eq_some_iff.mp h
    obtain rfl := Option.some.inj ((after?_append "<" (c :: s)).symm.trans hafter)
    rw [← List.append_nil (c :: s)] at hread
    obtain ⟨rfl, rfl⟩ := Prod.mk.inj (root.element?_print hrules hnamed hunbound hprint hread)
    dsimp only at h
    split at h
    · exact (Option.some.inj h).symm
    · cases h

end Switchboard.Markup

import Switchboard.Markup.Reader
import Switchboard.Proofs.Markup.Writing
import Mathlib.Data.List.TakeWhile

/-! # Tags that are read back

A name is read up to the first character that no name holds, and a value up to the quote after it, as quotes and all
other marks in it are written as references. So a tag that was written is read with the name, the attributes and the
values that it was written from. What is shown here is that nothing else can be read of it; where a value has a
character that is not legal nothing is read.
-/
namespace Switchboard.Markup

variable {rest s : List Char}

/-- A stretch without the mark that a stop begins with is what is read up to the stop, if it is legal. -/
theorem upTo?_append {mark : Char} (h : mark ∉ s) (more rest : List Char) :
    upTo? (mark :: more) (s ++ mark :: (more ++ rest)) = if s.all isLegal then some (s, rest) else none := by
  induction s with
  | nil =>
    have hstop : (mark :: more).isPrefixOf (mark :: (more ++ rest)) = true :=
      List.isPrefixOf_iff_prefix.mpr ⟨rest, rfl⟩
    rw [List.nil_append, upTo?, if_pos hstop, List.length_cons, List.drop_succ_cons, List.drop_left, List.all_nil,
      if_pos rfl]
  | cons c s ih =>
    rw [List.mem_cons, not_or] at h
    have hc : (mark :: more).isPrefixOf (c :: (s ++ mark :: (more ++ rest))) = false := by
      rw [List.isPrefixOf_cons_cons, beq_eq_false_iff_ne.mpr h.1]
      rfl
    rw [List.cons_append, upTo?, hc, if_neg Bool.false_ne_true, ih h.2, List.all_cons]
    cases isLegal c <;> cases s.all isLegal <;> rfl

def endsName (s : List Char) : Bool :=
  s.head?.all fun c => !isNameChar c && c != ':'

theorem name?_append {name : List Char} (hname : isName name = true) (hends : endsName rest = true) :
    Token.name? (name ++ rest) = some (String.ofList name, rest) := by
  rw [isName, Bool.and_eq_true, List.all_eq_true] at hname
  have hstart : (name ++ rest).head?.any isNameStart = true := by
    cases name with
    | nil => cases hname.1
    | cons c name => exact hname.1
  have htake : rest.takeWhile isNameChar = [] ∧ rest.dropWhile isNameChar = rest := by
    cases rest with
    | nil => exact ⟨rfl, rfl⟩
    | cons c rest =>
      have hc : isNameChar c = false := by
        simp only [endsName, List.head?_cons, Option.all_some, Bool.and_eq_true, Bool.not_eq_true'] at hends
        exact hends.1
      simp [hc]
  rw [Token.name?, if_pos hstart, List.takeWhile_append_of_pos hname.2, List.dropWhile_append_of_pos hname.2, htake.1,
    htake.2, List.append_nil]

theorem qualifiedName?_append {name : List Char} (hname : isName name = true) (hends : endsName rest = true) :
    qualifiedName? (name ++ rest) = some (String.ofList name, rest) := by
  rw [qualifiedName?, name?_append hname hends]
  cases rest with
  | nil => rfl
  | cons c rest =>
    have hc : c ≠ ':' := by
      simp only [endsName, List.head?_cons, Option.all_some, Bool.and_eq_true, bne_iff_ne] at hends
      exact hends.2
    simp [hc]

def Piece.char? : Piece → Option Char
  | char c | numbered c => some c
  | entity name => predefined? name

theorem reference?_of_mem {word : List Char} {c : Char} (h : (word, c) ∈ references) (rest : List Char) :
    ∃ piece, reference? (word ++ ';' :: rest) = some (piece, rest) ∧ piece.char? = some c ∧
      piece ≠ .char c ∧ piece ≠ .numbered ' ' := by
  have hall : references.all (fun reference => reference.1.all isLegal && !reference.1.contains ';' &&
      (Piece.ofReference? reference.1).any fun piece => decide (piece.char? = some reference.2) &&
        decide (piece ≠ .char reference.2) && decide (piece ≠ .numbered ' ')) = true := by decide
  have hword := List.all_eq_true.mp hall _ h
  simp only [Bool.and_eq_true, Option.any_eq_true, decide_eq_true_eq, Bool.not_eq_true', List.contains_eq_mem,
    decide_eq_false_iff_not] at hword
  obtain ⟨⟨hlegal, hplain⟩, piece, hpiece, ⟨hc, hother⟩, hspace⟩ := hword
  refine ⟨piece, ?_, hc, hother, hspace⟩
  have hword := upTo?_append hplain [] rest
  rw [if_pos hlegal, List.nil_append] at hword
  rw [reference?, hword]
  simp [hpiece]

section
variable {expand : String → List Char → Option (List Char)} {value : List Char} {c : Char}

theorem addPiece_reference {piece : Piece} (hc : piece.char? = some c) (hother : piece ≠ .char c)
    (hspace : piece ≠ .numbered ' ') : Doctype.addPiece expand false value piece = some (c :: value) := by
  cases piece with
  | char d =>
    obtain rfl : d = c := Option.some.inj hc
    exact absurd rfl hother
  | numbered d =>
    obtain rfl : d = c := Option.some.inj hc
    have hd : d ≠ ' ' := fun hd => hspace (by rw [hd])
    rw [Doctype.addPiece, if_neg hd]
  | entity name =>
    have hname : predefined? name = some c := hc
    rw [Doctype.addPiece, hname]

theorem addPiece_char (hlt : c ≠ '<') (hends : c ∉ ['\t', '\n', '\r']) :
    Doctype.addPiece expand false value (.char c) = some (c :: value) := by
  simp only [List.mem_cons, List.not_mem_nil, or_false, not_or] at hends
  by_cases hc : c = ' '
  · subst hc
    rfl
  · have hspace : isSpace c = false := by simp [isSpace, hc, hends]
    rw [Doctype.addPiece, hspace, if_neg Bool.false_ne_true, if_neg hlt]

theorem foldlM_pieces_escaped {bound : Nat} {pieces : List Piece}
    (h : piecesWithin? bound (s.flatMap escapeAttribute) = some pieces) (value : List Char) :
    pieces.foldlM (Doctype.addPiece expand false) value = some (s.reverse ++ value) := by
  induction s generalizing bound pieces value with
  | nil =>
    obtain rfl : [] = pieces := by cases bound <;> exact Option.some.inj h
    rfl
  | cons c s ih =>
    rw [List.flatMap_cons] at h
    rcases escapeAttribute_eq c with ⟨word, hword, hc⟩ | ⟨hc, hlt, hamp, -, hends⟩
    · obtain ⟨piece, hpiece, hchar, hother, hspace⟩ := reference?_of_mem hword (s.flatMap escapeAttribute)
      rw [hc, List.cons_append, List.append_assoc, List.singleton_append] at h
      cases bound with
      | zero => cases h
      | succ bound =>
        rw [piecesWithin?, if_pos rfl, hpiece] at h
        obtain ⟨others, hothers, rfl⟩ : ∃ others, piecesWithin? bound (s.flatMap escapeAttribute) = some others ∧
            piece :: others = pieces := by simpa [Option.bind_eq_some_iff] using h
        rw [List.foldlM_cons, addPiece_reference hchar hother hspace]
        simpa using ih hothers (c :: value)
    · rw [hc, List.singleton_append] at h
      cases bound with
      | zero => cases h
      | succ bound =>
        have hreturn : c ≠ '\r' := fun hreturn => hends (by simp [hreturn])
        rw [piecesWithin?, if_neg hamp, if_neg hreturn] at h
        obtain ⟨others, hothers, rfl⟩ : ∃ others, piecesWithin? bound (s.flatMap escapeAttribute) = some others ∧
            .char c :: others = pieces := by simpa [Option.bind_eq_some_iff] using h
        rw [List.foldlM_cons, addPiece_char hlt hends]
        simpa using ih hothers (c :: value)

theorem value?_escaped {doctype : Doctype} {busy : List String} {text : String} {v : String}
    (h : doctype.value? busy false (text.toList.flatMap escapeAttribute) = some v) : v = text := by
  rw [Doctype.value?, Doctype.addText] at h
  simp only [Option.bind_eq_bind, Option.bind_eq_some_iff] at h
  obtain ⟨value, ⟨pieces, hpieces, hvalue⟩, hv⟩ := h
  rw [foldlM_pieces_escaped hpieces, Option.some.injEq, List.append_nil] at hvalue
  subst hvalue
  simpa [eq_comm] using hv

end

def givenAttribute (a : String × String) : String × List Char :=
  (a.1, a.2.toList.flatMap escapeAttribute)

theorem quote_not_mem_escaped (s : List Char) : '"' ∉ s.flatMap escapeAttribute := by
  intro h
  obtain ⟨c, -, hc⟩ := List.mem_flatMap.mp h
  have hwords : references.all (fun reference => !('&' :: (reference.1 ++ [';'])).contains '"') = true := by decide
  rcases escapeAttribute_eq c with ⟨word, hword, he⟩ | ⟨he, -, -, hquote, -⟩
  · have hplain := List.all_eq_true.mp hwords _ hword
    rw [he] at hc
    simp only [Bool.not_eq_true', List.contains_eq_mem, decide_eq_false_iff_not] at hplain
    exact hplain hc
  · rw [he, List.mem_singleton] at hc
    exact hquote hc.symm

theorem after?_append (part : String) (rest : List Char) : after? part (part.toList ++ rest) = some rest := by
  have hpart : part.toList.isPrefixOf (part.toList ++ rest) = true :=
    List.isPrefixOf_iff_prefix.mpr (List.prefix_append _ _)
  rw [after?, if_pos hpart, ← String.length_toList, List.drop_left]

theorem attribute?_written {a : String × String} (hname : isName a.1.toList = true) {r : (String × List Char) × List Char}
    (h : attribute? (a.1.toList ++ '=' :: '"' :: (a.2.toList.flatMap escapeAttribute ++ '"' :: rest)) = some r) :
    r = (givenAttribute a, rest) := by
  have hends : endsName ('=' :: '"' :: (a.2.toList.flatMap escapeAttribute ++ '"' :: rest)) = true :=
    (by decide : (!isNameChar '=' && '=' != ':') = true)
  rw [attribute?, qualifiedName?_append hname hends, String.ofList_toList, Option.bind_eq_bind, Option.bind_some] at h
  obtain ⟨after, hafter, h⟩ := Option.bind_eq_some_iff.mp h
  obtain rfl := Option.some.inj ((after?_append "=" _).symm.trans hafter)
  obtain ⟨⟨text, tail⟩, htext, h⟩ := Option.bind_eq_some_iff.mp h
  have hvalue := (upTo?_append (quote_not_mem_escaped _) [] rest).symm.trans htext
  split at hvalue
  · cases hvalue
    exact (Option.some.inj h).symm
  · cases hvalue

theorem exists_cons_of_isName {name : List Char} (h : isName name = true) :
    ∃ c tail, name = c :: tail ∧ isNameStart c = true := by
  cases name with
  | nil => cases h
  | cons c tail =>
    rw [isName, Bool.and_eq_true] at h
    exact ⟨c, tail, rfl, h.1⟩

def tagEnd : Bool → List Char
  | true => [' ', '/', '>']
  | false => ['>']

theorem isSpace_of_isNameStart {c : Char} (h : isNameStart c = true) : isSpace c = false := by
  by_contra hc
  simp only [isSpace, Bool.not_eq_false, Bool.or_eq_true, decide_eq_true_eq] at hc
  rcases hc with ((rfl | rfl) | rfl) | rfl <;> exact absurd h (by decide)

/-- After a space the name of an attribute is no end of the tag, so the attribute is read, and then the others. -/
theorem attributesWithin?_name {name : List Char} (hname : isName name = true) (bound : Nat) (rest : List Char) :
    attributesWithin? (bound + 1) (' ' :: (name ++ rest)) = (attribute? (name ++ rest)).bind fun first =>
      (attributesWithin? bound first.2).map fun others => (first.1 :: others.1, others.2) := by
  obtain ⟨c, tail, rfl, hstart⟩ := exists_cons_of_isName hname
  have hends : c ≠ '>' ∧ c ≠ '/' := by
    constructor <;> (rintro rfl; exact absurd hstart (by decide))
  have hinner : (' ' :: (c :: tail ++ rest)).dropWhile isSpace = c :: (tail ++ rest) := by
    have hblank : isSpace ' ' = true := by decide
    rw [List.cons_append, List.dropWhile_cons_of_pos hblank,
      List.dropWhile_cons_of_neg (by simp [isSpace_of_isNameStart hstart])]
  have hspace : (' ' :: (c :: tail ++ rest)).head?.any isSpace = true := rfl
  rw [attributesWithin?, hinner]
  split
  · rename_i heq
    exact absurd (List.cons.inj heq).1 hends.1
  · rename_i heq
    exact absurd (List.cons.inj heq).1 hends.2
  · rw [if_pos hspace]
    simp only [Option.bind_eq_bind, Option.map_eq_bind]
    rfl

theorem attributesWithin?_written {attributes : List (String × String)}
    (hnamed : ∀ a ∈ attributes, isName a.1.toList = true) (ends : Bool) {bound : Nat}
    {r : List (String × List Char) × Bool × List Char}
    (h : attributesWithin? bound (attributes.flatMap attributeText ++ (tagEnd ends ++ rest)) = some r) :
    r = (attributes.map givenAttribute, ends, rest) := by
  induction attributes generalizing bound r with
  | nil =>
    cases bound with
    | zero => cases h
    | succ bound => cases ends <;> exact (Option.some.inj h).symm
  | cons a attributes ih =>
    obtain ⟨ha, hothers⟩ := List.forall_mem_cons.mp hnamed
    cases bound with
    | zero => cases h
    | succ bound =>
      have hwritten : (a :: attributes).flatMap attributeText ++ (tagEnd ends ++ rest) = ' ' :: (a.1.toList ++ '=' :: '"' ::
          (a.2.toList.flatMap escapeAttribute ++ '"' :: (attributes.flatMap attributeText ++ (tagEnd ends ++ rest)))) := by
        simp [attributeText]
      rw [hwritten, attributesWithin?_name ha] at h
      obtain ⟨first, hfirst, h⟩ := Option.bind_eq_some_iff.mp h
      obtain rfl := attribute?_written ha hfirst
      obtain ⟨others, hread, rfl⟩ := Option.map_eq_some_iff.mp h
      obtain rfl := ih hothers hread
      rfl

theorem eq_of_mapM_map {α β : Type} {f : β → Option α} {g : α → β} {as bs : List α}
    (hf : ∀ a ∈ as, ∀ b, f (g a) = some b → b = a) (h : (as.map g).mapM f = some bs) : bs = as := by
  induction as generalizing bs with
  | nil => exact (Option.some.inj h).symm
  | cons a as ih =>
    obtain ⟨ha, has⟩ := List.forall_mem_cons.mp hf
    rw [List.map_cons, List.mapM_cons] at h
    obtain ⟨b, hb, h⟩ := Option.bind_eq_some_iff.mp h
    obtain ⟨others, hothers, h⟩ := Option.bind_eq_some_iff.mp h
    rw [← Option.some.inj h, ha b hb, ih has hothers]

theorem attributeValues?_given {doctype : Doctype} (hrules : doctype.rules = []) {busy : List String} {element : String}
    {attributes values : List (String × String)}
    (h : attributeValues? doctype busy element (attributes.map givenAttribute) = some values) : values = attributes := by
  have hnone : doctype.rulesOf element = [] := by rw [Doctype.rulesOf, hrules, List.filter_nil]
  have htokenized (name : String) : doctype.isTokenized element name = false := by
    rw [Doctype.isTokenized, hnone, List.find?_nil, Option.any_none]
  rw [attributeValues?] at h
  obtain ⟨given, hgiven, hvalues⟩ := Option.bind_eq_some_iff.mp h
  have hsame : given = attributes := by
    refine eq_of_mapM_map (fun a _ b hb => ?_) hgiven
    rw [givenAttribute] at hb
    obtain ⟨value, hvalue, hb⟩ := Option.bind_eq_some_iff.mp hb
    rw [htokenized] at hvalue
    rw [← Option.some.inj hb, value?_escaped hvalue]
  rw [hnone, List.filterMap_nil, hsame] at hvalues
  rw [← Option.some.inj hvalues, List.append_nil]

namespace Namespaces

theorem split_of_isName {name : String} (h : isName name.toList = true) : split name = (none, name) := by
  have hcolon : ∀ c ∈ name.toList, (c != ':') = true := by
    rw [isName, Bool.and_eq_true, List.all_eq_true] at h
    intro c hc
    rw [bne_iff_ne]
    rintro rfl
    exact absurd (h.2 ':' hc) (by decide)
  rw [split, List.takeWhile_eq_self_iff.mpr hcolon, List.drop_length]

theorem bound?_eq_none {name : String} (h : isName name.toList = true) (hother : name ≠ "xmlns") : bound? name = none := by
  rw [bound?, split_of_isName h]
  split
  · rename_i heq
    exact absurd (Prod.mk.inj heq).2 hother
  · rename_i heq
    cases (Prod.mk.inj heq).1
  · rfl

theorem attributeName?_of_isName (spaces : Namespaces) {name : String} (h : isName name.toList = true) :
    spaces.attributeName? name = some name := by
  rw [attributeName?, split_of_isName h]

theorem elementName?_of_isName {name : String} (h : isName name.toList = true) : first.elementName? name = some name := by
  rw [elementName?, split_of_isName h]
  rfl

end Namespaces

theorem foldlM_eq_some_self {α σ : Type} {f : σ → α → Option σ} {as : List α} {state : σ}
    (h : ∀ a ∈ as, f state a = some state) : as.foldlM f state = some state := by
  induction as with
  | nil => rfl
  | cons a as ih =>
    obtain ⟨ha, has⟩ := List.forall_mem_cons.mp h
    rw [List.foldlM_cons, ha]
    exact ih has

/-- The tag that is read is the one that was written. Its names are in no namespace, as none is bound. -/
theorem tag?_written {doctype : Doctype} (hrules : doctype.rules = []) {busy : List String} {name : String}
    {attributes : List (String × String)} (hname : isName name.toList = true)
    (hnamed : ∀ a ∈ attributes, isName a.1.toList = true) (hunbound : ∀ a ∈ attributes, a.1 ≠ "xmlns") (ends : Bool)
    {bound : Nat} {r : Tag × List Char} (h : tag? doctype busy Namespaces.first bound
      (name.toList ++ (attributes.flatMap attributeText ++ (tagEnd ends ++ rest))) = some r) :
    r = ({ written := name, name, attributes, spaces := Namespaces.first, ends }, rest) := by
  have hends : endsName (attributes.flatMap attributeText ++ (tagEnd ends ++ rest)) = true := by
    have hspace : (!isNameChar ' ' && ' ' != ':') = true := by decide
    have hclose : (!isNameChar '>' && '>' != ':') = true := by decide
    cases attributes with
    | nil => cases ends with
      | true => exact hspace
      | false => exact hclose
    | cons a attributes => exact hspace
  have hnone : ∀ a ∈ attributes, Namespaces.bound? a.1 = none := fun a ha =>
    Namespaces.bound?_eq_none (hnamed a ha) (hunbound a ha)
  rw [tag?, qualifiedName?_append hname hends, String.ofList_toList, Option.bind_eq_bind, Option.bind_some] at h
  obtain ⟨given, hgiven, htag⟩ := Option.bind_eq_some_iff.mp h
  obtain rfl := attributesWithin?_written hnamed ends hgiven
  dsimp only at htag
  split at htag
  · cases htag
  obtain ⟨values, hvalues, hbound⟩ := Option.bind_eq_some_iff.mp htag
  obtain rfl : values = attributes := attributeValues?_given hrules hvalues
  obtain ⟨spaces, hspaces, hqualified⟩ := Option.bind_eq_some_iff.mp hbound
  have hfirst : spaces = Namespaces.first := by
    rw [foldlM_eq_some_self fun a ha => by rw [hnone a ha]] at hspaces
    exact (Option.some.inj hspaces).symm
  subst hfirst
  obtain ⟨qualified, hread, helement⟩ := Option.bind_eq_some_iff.mp hqualified
  have hsame : qualified = values := by
    rw [List.filter_eq_self.mpr fun a ha => by rw [hnone a ha]; rfl, ← List.map_id values] at hread
    refine eq_of_mapM_map (fun a ha b hb => ?_) hread
    rw [id_eq, Namespaces.attributeName?_of_isName _ (hnamed a ha)] at hb
    exact (Option.some.inj hb).symm
  subst hsame
  obtain ⟨element, hplain, hdistinct⟩ := Option.bind_eq_some_iff.mp helement
  have hsame : element = name := by
    rw [Namespaces.elementName?_of_isName hname] at hplain
    exact (Option.some.inj hplain).symm
  subst hsame
  split at hdistinct
  · exact (Option.some.inj hdistinct).symm
  · cases hdistinct

end Switchboard.Markup

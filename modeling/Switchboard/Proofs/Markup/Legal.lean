import Switchboard.Fault
import Switchboard.Proofs.Http.Parameters
import Switchboard.Proofs.Markup.Script

/-! # Legal texts

What is written for numbers, in addresses and for values that are no texts is legal, whatever it is written for: a
quoted text shows every character that is not printable by its number, and an address every byte that is not
reserved. So only texts that are taken as they are can bring a character into a script that is not legal.
-/
namespace Switchboard

def Text.isLegal (t : Text) : Bool :=
  t.plain?.any Markup.isLegalText

theorem Text.isLegal_iff {t : Text} : t.isLegal = true ↔ ∃ s : String, t = s ∧ Markup.isLegalText s = true := by
  cases t <;> simp [isLegal, plain?]

theorem Text.isPlain_of_isLegal {t : Text} (h : t.isLegal = true) : t.isPlain = true := by
  obtain ⟨s, rfl, -⟩ := Text.isLegal_iff.mp h
  rfl

namespace Markup

@[simp] theorem isLegalText_append (s t : String) :
    isLegalText (s ++ t) = (isLegalText s && isLegalText t) := by
  simp [isLegalText]

@[simp] theorem isLegalText_ofList (s : List Char) : isLegalText (String.ofList s) = s.all isLegal := by
  simp [isLegalText]

theorem isLegalText_join {texts : List String} (h : ∀ t ∈ texts, isLegalText t = true) :
    isLegalText (String.join texts) = true := by
  simpa [isLegalText, List.all_flatMap] using h

theorem isLegalText_intercalate {s : String} {texts : List String} (hs : isLegalText s = true)
    (h : ∀ t ∈ texts, isLegalText t = true) : isLegalText (String.intercalate s texts) = true := by
  induction texts with
  | nil => rfl
  | cons t rest ih =>
    rw [List.forall_mem_cons] at h
    cases rest with
    | nil => simpa using h.1
    | cons u rest => simp [String.intercalate_cons_cons, hs, h.1, ih h.2]

theorem all_toDigits {b : Nat} (hb : 1 < b) (hle : b ≤ 16) (n : Nat) :
    (Nat.toDigits b n).all isLegal = true := by
  have hdigit : ∀ d < 16, isLegal (Nat.digitChar d) = true := by decide
  induction n using Nat.strongRecOn with
  | ind n ih =>
    rw [Nat.toDigits_eq_if hb]
    split
    · simp [hdigit n (by omega)]
    · have hrest := ih (n / b) (Nat.div_lt_self (by omega) hb)
      have hlast : n % b < 16 := (Nat.mod_lt n (by omega)).trans_le hle
      simp [hrest, hdigit _ hlast]

@[simp] theorem isLegalText_nat (n : Nat) : isLegalText n.repr = true := by
  rw [Nat.repr, isLegalText_ofList]
  exact all_toDigits (by decide) (by decide) n

theorem isLegalText_int (n : Int) : isLegalText (toString n) = true := by
  cases n with
  | ofNat n => exact isLegalText_nat n
  | negSucc n =>
    have htext : toString (Int.negSucc n) = "-" ++ (n + 1).repr := rfl
    rw [htext, isLegalText_append, isLegalText_nat]
    decide

theorem isLegalText_exponentText (e : Int) : isLegalText (Binary64.exponentText e) = true := by
  have hmarks : isLegalText "-" = true ∧ isLegalText "+" = true ∧ isLegalText "0" = true := by decide
  simp only [Binary64.exponentText, isLegalText_append]
  split <;> split <;> simp [hmarks]

theorem isLegalText_decimal (d : Binary64.Decimal) {style : Binary64.Style}
    (hstyle : isLegalText style.loneFraction = true) : isLegalText (d.text style) = true := by
  have hmarks : isLegalText "0." = true ∧ isLegalText "." = true ∧ isLegalText ".0" = true ∧
      isLegalText "e" = true ∧ isLegal '0' = true := by decide
  have hdigits := all_toDigits (by decide : 1 < 10) (by decide) d.digits
  have htake (n : Nat) : ((Nat.toDigits 10 d.digits).take n).all isLegal = true :=
    List.all_eq_true.mpr fun c hc => List.all_eq_true.mp hdigits c (List.mem_of_mem_take hc)
  have hdrop (n : Nat) : ((Nat.toDigits 10 d.digits).drop n).all isLegal = true :=
    List.all_eq_true.mpr fun c hc => List.all_eq_true.mp hdigits c (List.mem_of_mem_drop hc)
  unfold Binary64.Decimal.text
  dsimp only
  split
  · split
    · simp [hmarks, hdigits]
    · split
      · simp [hmarks, htake, hdrop]
      · simp [hmarks, hdigits]
  · split
    · simp [hmarks, htake, hstyle, isLegalText_exponentText]
    · simp only [isLegalText_append, isLegalText_ofList, isLegalText_exponentText, htake, hdrop, hmarks, Bool.and_self]

theorem isLegalText_float (x : Binary64) : isLegalText x.text = true := by
  have hmarks : isLegalText "-" = true ∧ isLegalText "0.0" = true := by decide
  cases x with
  | nan => decide
  | infinite negative => cases negative <;> decide
  | finite negative m e =>
    have hmagnitude : isLegalText (if m = 0 then "0.0" else (Binary64.shortest m e).text) = true := by
      split
      · exact hmarks.2
      · exact isLegalText_decimal _ (by decide)
    cases negative <;> simp [Binary64.text, hmarks, hmagnitude]

theorem isLegal_of_isQueryChar {c : Char} (h : Text.isQueryChar c = true) : isLegal c = true := by
  simp only [Text.isQueryChar, Bool.and_eq_true, decide_eq_true_eq] at h
  obtain ⟨⟨hlow, hhigh⟩, -⟩ := h
  exact isLegal_of_bounds ⟨by omega, by omega⟩

theorem isLegalText_encodePairs (pairs : List (String × String)) : isLegalText (Text.encodePairs pairs) = true := by
  refine List.all_eq_true.mpr fun c hc => ?_
  rcases Http.mem_encodePairs hc with rfl | rfl | hquery
  · decide
  · decide
  · exact isLegal_of_isQueryChar hquery

theorem isLegalText_continuationUrl {base : Text} {path url : String} {c : Continuation} (hbase : base.isLegal = true)
    (hpath : isLegalText path = true) (h : continuationUrl base path c = .ok url) : isLegalText url = true := by
  obtain ⟨parameters, short, -, hshort, rfl⟩ := continuationUrl_eq_ok.mp h
  have hmark : isLegalText "?" = true := by decide
  have hlegal : isLegalText short = true := by
    obtain ⟨base, rfl, hbase⟩ := Text.isLegal_iff.mp hbase
    obtain rfl := Text.plain.inj hshort
    rw [Text.dropTrailingString, isLegalText_ofList]
    refine List.all_eq_true.mpr fun c hc => List.all_eq_true.mp hbase c ?_
    have hc := (List.dropWhile_sublist _).subset (List.mem_reverse.mp hc)
    exact List.mem_reverse.mp hc
  simp [hlegal, hpath, hmark, isLegalText_encodePairs]

theorem isLegal_of_isPrintable {c : Char} (h : Text.isPrintable c = true) : isLegal c = true := by
  have hfirst : (0, 0x1f) ∈ Text.unprintableRanges.toList := by decide +kernel
  have hlast : (0xfffe, 0xffff) ∈ Text.unprintableRanges.toList := by decide +kernel
  have houtside {range : Nat × Nat} (hrange : range ∈ Text.unprintableRanges.toList) :
      ¬ (range.1 ≤ c.toNat ∧ c.toNat ≤ range.2) := by
    rintro ⟨hlow, hhigh⟩
    have hany : Text.unprintableRanges.toList.any (fun r => r.1 ≤ c.toNat && c.toNat ≤ r.2) = true :=
      List.any_eq_true.mpr ⟨range, hrange, by simp [hlow, hhigh]⟩
    rw [Text.isPrintable, ← Array.any_toList, hany] at h
    cases h
  have hcontrol := houtside hfirst
  have hspecial := houtside hlast
  dsimp only at hcontrol hspecial
  exact isLegal_iff.mpr (by omega)

theorem isLegalText_hexText (width n : Nat) : isLegalText (Text.hexText width n) = true := by
  have hzero : isLegal '0' = true := by decide
  have hdigits := all_toDigits (by decide : 1 < 16) (by decide) n
  simp [Text.hexText, hzero, hdigits]

/-- A character inside quotes is written with legal characters, whether it is legal or not. -/
theorem isLegalText_quotedChar {quote : Char} (hquote : isLegal quote = true) (c : Char) :
    isLegalText (Text.quotedChar quote c) = true := by
  have hmarks : isLegalText "\\x" = true ∧ isLegalText "\\u" = true ∧ isLegalText "\\U" = true ∧
      isLegal '\\' = true := by decide
  have hsingle {d : Char} (hd : isLegal d = true) : isLegalText (String.ofList [d]) = true := by
    rw [isLegalText_ofList, List.all_cons, hd, List.all_nil]
    rfl
  unfold Text.quotedChar
  split
  · rename_i hc
    have hlegal : isLegal c = true := by
      rw [Bool.or_eq_true, decide_eq_true_eq, decide_eq_true_eq] at hc
      rcases hc with rfl | rfl
      · exact hquote
      · exact hmarks.2.2.2
    rw [isLegalText_ofList, List.all_cons, hmarks.2.2.2, List.all_cons, hlegal]
    rfl
  repeat' split
  · decide
  · decide
  · decide
  · exact hsingle (isLegal_of_isPrintable ‹_›)
  all_goals simp [hmarks, isLegalText_hexText]

theorem isLegalText_quotedSymbol {quote : Char} (hquote : isLegal quote = true) (symbol : Symbol) :
    isLegalText (Text.quotedSymbol quote symbol) = true := by
  cases symbol with
  | char c => exact isLegalText_quotedChar hquote c
  | half distance =>
    have hmark : isLegalText "\\u" = true := by decide
    simp [Text.quotedSymbol, hmark, isLegalText_hexText]

theorem isLegalText_quoted (t : Text) : isLegalText t.quoted = true := by
  have hbetween {quote : Char} (hquote : isLegal quote = true) :
      isLegalText (String.ofList [quote] ++ String.join (t.symbols.map (Text.quotedSymbol quote)) ++
        String.ofList [quote]) = true := by
    have hinner : ∀ s ∈ t.symbols.map (Text.quotedSymbol quote), isLegalText s = true :=
      List.forall_mem_map.mpr fun symbol _ => isLegalText_quotedSymbol hquote symbol
    simp only [isLegalText_append, isLegalText_ofList, isLegalText_join hinner, List.all_cons, hquote, List.all_nil,
      Bool.and_self]
  refine hbetween ?_
  split <;> decide

mutual

theorem isLegalText_valueQuoted : (v : Value) → ∀ s ∈ v.quoted?, isLegalText s = true
  | .null => by
    intro s h
    rw [Value.quoted?] at h
    obtain rfl := Option.some.inj h
    decide
  | .bool b => by
    intro s h
    rw [Value.quoted?] at h
    obtain rfl := Option.some.inj h
    cases b <;> decide
  | .int n => by
    intro s h
    rw [Value.quoted?] at h
    rw [(Numeral.text?_eq_some.mp h).2]
    exact isLegalText_int n
  | .float x => by
    intro s h
    rw [Value.quoted?] at h
    obtain rfl := Option.some.inj h
    exact isLegalText_float x
  | .str t => by
    intro s h
    rw [Value.quoted?] at h
    obtain rfl := Option.some.inj h
    exact isLegalText_quoted t
  | .arr items => by
    intro s h
    rw [Value.quoted?] at h
    obtain ⟨texts, htexts, rfl⟩ := Option.map_eq_some_iff.mp h
    have hcomma : isLegalText ", " = true := by decide
    have hmarks : isLegalText "[" = true ∧ isLegalText "]" = true := by decide
    simp [hmarks, isLegalText_intercalate hcomma (isLegalText_quotedItems items texts htexts)]
  | .obj entries => by
    intro s h
    rw [Value.quoted?] at h
    obtain ⟨texts, htexts, rfl⟩ := Option.map_eq_some_iff.mp h
    have hcomma : isLegalText ", " = true := by decide
    have hmarks : isLegalText "\x7b" = true ∧ isLegalText "\x7d" = true := by decide
    simp [hmarks, isLegalText_intercalate hcomma (isLegalText_quotedEntries entries texts htexts)]

theorem isLegalText_quotedItems : (items : List Value) → ∀ texts ∈ Value.quotedItems? items,
    ∀ s ∈ texts, isLegalText s = true
  | [] => by
    intro texts h
    rw [Value.quotedItems?] at h
    obtain rfl := Option.some.inj h
    exact List.forall_mem_nil _
  | v :: rest => by
    intro texts h
    rw [Value.quotedItems?] at h
    obtain ⟨first, hfirst, h⟩ := Option.bind_eq_some_iff.mp h
    obtain ⟨others, hothers, h⟩ := Option.bind_eq_some_iff.mp h
    obtain rfl := Option.some.inj h
    exact List.forall_mem_cons.mpr ⟨isLegalText_valueQuoted v first hfirst, isLegalText_quotedItems rest others hothers⟩

theorem isLegalText_quotedEntries : (entries : List (Text × Value)) → ∀ texts ∈ Value.quotedEntries? entries,
    ∀ s ∈ texts, isLegalText s = true
  | [] => by
    intro texts h
    rw [Value.quotedEntries?] at h
    obtain rfl := Option.some.inj h
    exact List.forall_mem_nil _
  | (key, v) :: rest => by
    intro texts h
    rw [Value.quotedEntries?] at h
    obtain ⟨first, hfirst, h⟩ := Option.bind_eq_some_iff.mp h
    obtain ⟨others, hothers, h⟩ := Option.bind_eq_some_iff.mp h
    obtain rfl := Option.some.inj h
    have hcolon : isLegalText ": " = true := by decide
    have hentry : isLegalText (key.quoted ++ ": " ++ first) = true := by
      rw [isLegalText_append, isLegalText_append, isLegalText_quoted, hcolon, isLegalText_valueQuoted v first hfirst]
      rfl
    exact List.forall_mem_cons.mpr ⟨hentry, isLegalText_quotedEntries rest others hothers⟩

end

end Markup

def Directive.isLegal : Directive → Bool
  | .say text voice => text.isLegal && voice.all Text.isLegal
  | .play url _ => url.isLegal
  | .gather prompt voice _ _ _ => prompt.isLegal && voice.all Text.isLegal
  | .dial numbers _ callerId _ _ => numbers.all Text.isLegal && callerId.all Text.isLegal
  | .sms body recipient sender => body.isLegal && recipient.all Text.isLegal && sender.all Text.isLegal
  | _ => true

@[simp] theorem Directive.isLegal_hangup : hangup.isLegal = true := rfl

namespace Markup

theorem legal_optional {name : String} {value : Option String} (h : value.all isLegalText = true) :
    ∀ a ∈ optional name value, isLegalText a.2 = true := by
  intro a ha
  obtain ⟨v, hv, rfl⟩ := List.mem_map.mp ha
  rw [Option.mem_toList] at hv
  rw [hv] at h
  exact h

theorem legal_callbackAttributes {action : Option String} (h : ∀ url ∈ action, isLegalText url = true) :
    ∀ a ∈ callbackAttributes action, isLegalText a.2 = true := by
  have hmethod : (action.map fun _ => "POST").all isLegalText = true := by
    have hpost : isLegalText "POST" = true := by decide
    cases action with
    | none => rfl
    | some url => rw [Option.map_some, Option.all_some, hpost]
  exact List.forall_mem_append.mpr ⟨legal_optional ((Option.all_eq_true _ _).mpr h), legal_optional hmethod⟩

theorem legal_leaf {name text : String} {attributes : List (String × String)}
    (hattributes : ∀ a ∈ attributes, isLegalText a.2 = true) (htext : isLegalText text = true) :
    ∀ t ∈ (Element.leaf name attributes text).texts, isLegalText t = true :=
  forall_texts_node.mpr ⟨hattributes, htext, by simp [childTexts]⟩

theorem legal_parent {name : String} {attributes : List (String × String)} {children : List Element}
    (hattributes : ∀ a ∈ attributes, isLegalText a.2 = true)
    (hchildren : ∀ child ∈ children, ∀ t ∈ child.texts, isLegalText t = true) :
    ∀ t ∈ (Element.parent name attributes children).texts, isLegalText t = true :=
  (forall_parent_iff (by decide)).mpr ⟨hattributes, hchildren⟩

theorem legal_pair {name text : String} (h : isLegalText text = true) :
    ∀ a ∈ [(name, text)], isLegalText a.2 = true := by
  simpa using h

theorem all_isLegal_map_plain (text : Option String) :
    (text.map Text.plain).all Text.isLegal = text.all isLegalText := by
  cases text <;> rfl

theorem IsElementOf.legal {base : Text} {path : String} (hbase : base.isLegal = true) (hpath : isLegalText path = true)
    {d : Directive} {e : Element} (he : IsElementOf base path d e) (h : d.isLegal = true) :
    ∀ text ∈ e.texts, isLegalText text = true := by
  have hempty : isLegalText "" = true := by decide
  have hurl {c : Continuation} {url : String} (told : continuationUrl base path c = .ok url) : isLegalText url = true :=
    isLegalText_continuationUrl hbase hpath told
  have hurls {action : Option String} (told : ∀ url ∈ action, ∃ c, continuationUrl base path c = .ok url) :
      ∀ url ∈ action, isLegalText url = true := by
    intro url hmem
    obtain ⟨c, hc⟩ := told url hmem
    exact hurl hc
  cases he with
  | say text voice =>
    rw [Directive.isLegal, all_isLegal_map_plain, Bool.and_eq_true] at h
    exact legal_leaf (legal_optional h.2) h.1
  | play url loop => exact legal_leaf (legal_pair (isLegalText_int loop)) h
  | pause seconds => exact legal_leaf (legal_pair (isLegalText_int seconds)) hempty
  | gather prompt voice numDigits timeout told =>
    have hinput : isLegalText "dtmf" = true := by decide
    rw [Directive.isLegal, all_isLegal_map_plain, Bool.and_eq_true] at h
    have haction : ∀ a ∈ callbackAttributes (some _), isLegalText a.2 = true :=
      legal_callbackAttributes fun url hsome => Option.some.inj hsome ▸ hurl told
    refine legal_parent (List.forall_mem_append.mpr ⟨?_, haction⟩) ?_
    · simp only [List.forall_mem_cons]
      exact ⟨hinput, isLegalText_int numDigits, isLegalText_int timeout, by simp⟩
    · intro child hchild
      rw [List.mem_singleton.mp hchild]
      exact legal_leaf (legal_optional h.2) h.1
  | redirect told => exact legal_leaf (legal_pair (by decide)) (hurl told)
  | dial numbers timeout callerId record c told =>
    have hrecord : (if record then some "record-from-answer" else none).all isLegalText = true := by
      cases record <;> decide
    rw [Directive.isLegal, all_isLegal_map_plain, Bool.and_eq_true, List.all_map] at h
    refine legal_parent ?_ ?_
    · simp only [List.forall_mem_append]
      exact ⟨⟨⟨legal_pair (isLegalText_int timeout), legal_optional h.2⟩, legal_optional hrecord⟩,
        legal_callbackAttributes (hurls told)⟩
    · intro child hchild
      obtain ⟨number, hnumber, rfl⟩ := List.mem_map.mp hchild
      exact legal_leaf (by simp) (List.all_eq_true.mp h.1 number hnumber)
  | sms body recipient sender =>
    rw [Directive.isLegal, all_isLegal_map_plain, all_isLegal_map_plain, Bool.and_eq_true, Bool.and_eq_true] at h
    exact legal_leaf (List.forall_mem_append.mpr ⟨legal_optional h.1.2, legal_optional h.2⟩) h.1.1
  | record maxLength playBeep c told =>
    have hbeep : isLegalText (if playBeep then "true" else "false") = true := by cases playBeep <;> decide
    refine legal_leaf (List.forall_mem_append.mpr ⟨?_, legal_callbackAttributes (hurls told)⟩) hempty
    exact List.forall_mem_cons.mpr ⟨isLegalText_int maxLength, legal_pair hbeep⟩
  | hangup => exact legal_leaf (by simp) hempty

/-- A legal directive puts legal texts into a script, if the address of the service is legal. -/
theorem legal_writtenTexts {base : Text} {path : String} (hbase : base.isLegal = true) (hpath : isLegalText path = true)
    {d : Directive} (h : d.isLegal = true) : ∀ text ∈ writtenTexts base path d, isLegalText text = true := by
  intro text htext
  unfold writtenTexts at htext
  cases helements : elementsOf base path d with
  | error fault =>
    rw [helements] at htext
    cases htext
  | ok elements =>
    rw [helements] at htext
    obtain ⟨e, he, htext⟩ := List.mem_flatMap.mp htext
    exact (isElementOf_of_mem helements he).legal hbase hpath h text htext

end Markup
end Switchboard

import Switchboard.Http.Url
import Switchboard.Proofs.Text.Blank
import Mathlib.Data.List.TakeWhile

/-! # Addresses of an origin

An origin is a scheme and a host. An address that is put together from an origin, a path and a query falls into these
parts again, if no character of theirs separates others.
-/
namespace Switchboard.Http

def isShown (c : Char) : Bool := 0x20 < c.toNat

structure Origin where
  scheme : List Char
  host : List Char
  begins : scheme.head?.any Char.isAlpha = true
  schemeChars : ∀ c ∈ scheme, Url.isSchemeChar c = true
  host_ne_nil : host ≠ []
  hostChars : ∀ c ∈ host, Url.endsHost c = false ∧ isShown c = true
  accepted : HostName.isAccepted host = true

namespace Origin

def chars (origin : Origin) : List Char := origin.scheme ++ ':' :: '/' :: '/' :: origin.host

def text (origin : Origin) : String := String.ofList origin.chars

theorem dropTrailing_text (origin : Origin) (slashes : Nat) :
    Text.dropTrailingString '/' (origin.text ++ String.ofList (List.replicate slashes '/')) = origin.text := by
  refine Text.dropTrailingString_append_replicate (fun c hc => ?_) slashes
  have hchars : origin.chars = (origin.scheme ++ [':', '/', '/']) ++ origin.host := by
    rw [chars, List.append_assoc]
    rfl
  rw [hchars, List.getLast?_append_of_ne_nil _ origin.host_ne_nil] at hc
  rintro rfl
  exact absurd (origin.hostChars '/' (List.mem_of_getLast? hc)).1 (by decide)

end Origin

namespace Url

variable {origin : Origin} {path query s : List Char} {c : Char}

theorem isShown_of_isSchemeChar (h : isSchemeChar c = true) : isShown c = true ∧ c ≠ ':' := by
  have hcontrols : ∀ n < 0x21, isSchemeChar (Char.ofNat n) = false := by decide
  constructor
  · by_contra hshown
    have hlow : c.toNat < 0x21 := by
      simp only [isShown, decide_eq_true_eq] at hshown
      omega
    have hc := hcontrols c.toNat hlow
    rw [Char.ofNat_toNat, h] at hc
    cases hc
  · rintro rfl
    exact absurd h (by decide)

theorem isShown_chars (origin : Origin) : ∀ c ∈ origin.chars, isShown c = true := by
  simp only [Origin.chars, List.forall_mem_append, List.forall_mem_cons]
  exact ⟨fun c hc => (isShown_of_isSchemeChar (origin.schemeChars c hc)).1, by decide, by decide, by decide,
    fun c hc => (origin.hostChars c hc).2⟩

theorem isBlank_of_isSchemeChar (h : isSchemeChar c = true) : Text.isBlank c = false := by
  have hshown := (isShown_of_isSchemeChar h).1
  simp only [isSchemeChar, Bool.or_eq_true, decide_eq_true_eq] at h
  rcases h with ((halphanum | rfl) | rfl) | rfl
  · replace halphanum : ((decide ('A' ≤ c ∧ c ≤ 'Z') || (decide ('a' ≤ c) && decide (c ≤ 'z'))) ||
        (decide ('0' ≤ c) && decide (c ≤ '9'))) = true := halphanum
    have hhigh : c ≤ 'z' := by
      simp only [Bool.or_eq_true, Bool.and_eq_true, decide_eq_true_eq] at halphanum
      rcases halphanum with (⟨-, hupper⟩ | ⟨-, hlower⟩) | ⟨-, hdigit⟩
      · exact Char.le_trans hupper (by decide)
      · exact hlower
      · exact Char.le_trans hdigit (by decide)
    exact Text.isBlank_eq_false_of_ascii (of_decide_eq_true hshown) (Nat.lt_of_le_of_lt hhigh (by decide))
  · decide
  · decide
  · decide

theorem isBlank_of_head? (origin : Origin) (h : origin.chars.head? = some c) : Text.isBlank c = false := by
  have hne : origin.scheme ≠ [] := by
    intro hnil
    have hbegins := origin.begins
    rw [hnil] at hbegins
    cases hbegins
  rw [Origin.chars, List.head?_append_of_ne_nil _ hne] at h
  exact isBlank_of_isSchemeChar (origin.schemeChars c (List.mem_of_head? h))

theorem dropWhile_eq_self (h : ∀ c ∈ s, isShown c = true) : (s.dropWhile fun c => decide (c.toNat ≤ 0x20)) = s := by
  cases s with
  | nil => rfl
  | cons c s =>
    have hc : 0x20 < c.toNat := of_decide_eq_true (h c List.mem_cons_self)
    rw [List.dropWhile_cons_of_neg (by simpa using hc)]

theorem withoutLineEnds_eq_self (h : ∀ c ∈ s, isShown c = true) : withoutLineEnds s = s := by
  refine List.filter_eq_self.mpr fun c hc => ?_
  have hshown := h c hc
  simp only [Bool.and_eq_true, bne_iff_ne]
  refine ⟨⟨?_, ?_⟩, ?_⟩ <;> (rintro rfl; exact absurd hshown (by decide))

theorem dropScheme_append (origin : Origin) (rest : List Char) :
    dropScheme (origin.scheme ++ ':' :: rest) = rest := by
  have hcolon : ∀ c ∈ origin.scheme, (c != ':') = true := fun c hc =>
    bne_iff_ne.mpr (isShown_of_isSchemeChar (origin.schemeChars c hc)).2
  have hscheme : (origin.scheme ++ ':' :: rest).takeWhile (· != ':') = origin.scheme := by
    rw [List.takeWhile_append_of_pos hcolon]
    simp
  have hall : origin.scheme.all isSchemeChar = true := List.all_eq_true.mpr origin.schemeChars
  simp only [dropScheme, hscheme, List.drop_left, origin.begins, hall, Bool.and_self, if_true]

theorem splitHost_append (hpath : path.head?.any endsHost = true) :
    splitHost ('/' :: '/' :: (origin.host ++ path)) = (origin.host, path) := by
  have hhost : ∀ c ∈ origin.host, (!endsHost c) = true := fun c hc => by rw [(origin.hostChars c hc).1]; rfl
  rw [splitHost, List.takeWhile_append_of_pos hhost, List.dropWhile_append_of_pos hhost]
  cases path with
  | nil => cases hpath
  | cons c path =>
    have hc : endsHost c = true := by simpa using hpath
    simp [hc]

theorem splitPath_append (hpath : ∀ c ∈ path, c ≠ '?' ∧ c ≠ '#') (hquery : '#' ∉ query) :
    splitPath (path ++ '?' :: query) = { path := String.ofList path, query := String.ofList query } := by
  have hwhole : (path ++ '?' :: query).takeWhile (· != '#') = path ++ '?' :: query := by
    refine List.takeWhile_eq_self_iff.mpr fun c hc => bne_iff_ne.mpr ?_
    rintro rfl
    rcases List.mem_append.mp hc with hc | hc
    · exact (hpath '#' hc).2 rfl
    · rcases List.mem_cons.mp hc with hc | hc
      · exact absurd hc (by decide)
      · exact hquery hc
  have hmark : ∀ c ∈ path, (c != '?') = true := fun c hc => bne_iff_ne.mpr (hpath c hc).1
  rw [splitPath]
  simp only [hwhole, List.takeWhile_append_of_pos hmark, List.dropWhile_append_of_pos hmark]
  simp

/-- Behind an origin the rest of an address falls into its path and its query. -/
theorem parse_append (origin : Origin) (hends : s.head?.any endsHost = true) (hs : ∀ c ∈ s, isShown c = true) :
    parse (origin.text ++ String.ofList s) = .ok (splitPath s) := by
  have hchars : (origin.text ++ String.ofList s).toList = origin.scheme ++ ':' :: '/' :: '/' :: (origin.host ++ s) := by
    simp [Origin.text, Origin.chars]
  have hshown : ∀ c ∈ (origin.text ++ String.ofList s).toList, isShown c = true := by
    rw [String.toList_append, Origin.text, String.toList_ofList, String.toList_ofList, List.forall_mem_append]
    exact ⟨isShown_chars origin, hs⟩
  rw [parse, dropWhile_eq_self hshown, withoutLineEnds_eq_self hshown, hchars, dropScheme_append,
    splitHost_append hends]
  simp only [origin.accepted, if_true]

/-- Whether a path and a query are told apart wherever they are written, and nothing of them is left out. -/
structure IsPlain (url : Url) : Prop where
  begins : url.path.toList.head? = some '/'
  path : ∀ c ∈ url.path.toList, c ≠ '?' ∧ c ≠ '#' ∧ isShown c = true
  query : ∀ c ∈ url.query.toList, c ≠ '#' ∧ isShown c = true

/-- Whether requests below an address arrive with the path and the query that they are made with. -/
def KeepsTargets (base : String) : Prop :=
  ∀ url : Url, url.IsPlain → parse (Text.dropTrailingString '/' base ++ url.target) = .ok url

namespace IsPlain

variable {url : Url}

theorem target_begins (h : url.IsPlain) : url.target.toList.head? = some '/' := by
  rw [target]
  split
  · exact h.begins
  · rw [String.toList_append, String.toList_append, List.append_assoc, List.head?_append, h.begins]
    rfl

theorem isShown_target (h : url.IsPlain) : ∀ c ∈ url.target.toList, isShown c = true := by
  rw [target]
  split
  · exact fun c hc => (h.path c hc).2.2
  · simp only [String.toList_append, List.forall_mem_append]
    exact ⟨⟨fun c hc => (h.path c hc).2.2, List.all_eq_true.mp (by decide)⟩, fun c hc => (h.query c hc).2⟩

theorem splitPath_target (h : url.IsPlain) : splitPath url.target.toList = url := by
  have hpath : ∀ c ∈ url.path.toList, c ≠ '?' ∧ c ≠ '#' := fun c hc => ⟨(h.path c hc).1, (h.path c hc).2.1⟩
  rw [target]
  split
  · rename_i hempty
    have hquery : ∀ c ∈ url.path.toList, (c != '?') = true := fun c hc => bne_iff_ne.mpr (hpath c hc).1
    have hfragment : ∀ c ∈ url.path.toList, (c != '#') = true := fun c hc => bne_iff_ne.mpr (hpath c hc).2
    rw [splitPath, List.takeWhile_eq_self_iff.mpr hfragment, List.takeWhile_eq_self_iff.mpr hquery,
      List.dropWhile_eq_nil_iff.mpr hquery, String.ofList_toList]
    exact congrArg (Url.mk url.path) hempty.symm
  · have hparts := splitPath_append hpath fun hc => (h.query '#' hc).1 rfl
    rw [String.ofList_toList, String.ofList_toList] at hparts
    rwa [String.toList_append, String.toList_append, List.append_assoc]

end IsPlain

theorem keepsTargets_of_origin {base : String} (hbase : Text.dropTrailingString '/' base = origin.text) :
    KeepsTargets base := by
  intro url h
  have hends : url.target.toList.head?.any endsHost = true := by
    rw [h.target_begins]
    rfl
  have hparse := parse_append origin hends h.isShown_target
  rwa [String.ofList_toList, h.splitPath_target, ← hbase] at hparse

end Url
end Switchboard.Http

import Switchboard.Fault

/-! # When operations succeed

An operation that is put together from others succeeds exactly when these succeed, and a record is read
exactly when its parts are. The lemmas take a success apart into the successes behind it.
-/
namespace Switchboard

variable {α β : Type}

namespace Outcome

theorem bind_eq_ok {x : Outcome α} {f : α → Outcome β} {b : β} :
    (x >>= f) = .ok b ↔ ∃ a, x = .ok a ∧ f a = .ok b := by
  cases x with
  | ok a => simp [bind, Except.bind]
  | error fault => simp [bind, Except.bind]

theorem map_eq_ok {f : α → β} {x : Outcome α} {b : β} :
    f <$> x = .ok b ↔ ∃ a, x = .ok a ∧ f a = b := by
  cases x with
  | ok a => simp [Functor.map, Except.map]
  | error fault => simp [Functor.map, Except.map]

@[simp] theorem pure_eq_ok {a b : α} : (pure a : Outcome α) = .ok b ↔ a = b := by
  simp [pure, Except.pure]

theorem unlessOversized_eq_ok {x : Option α} {a : α} : Fault.unlessOversized x = .ok a ↔ x = some a := by
  cases x <;> simp [Fault.unlessOversized]

theorem eq_ok_of_toOption {x : Outcome α} {a : α} (h : x.toOption = some a) : x = .ok a := by
  cases x with
  | ok b => exact congrArg Except.ok (Option.some.inj h)
  | error fault => cases h

theorem exists_of_any {x : Outcome (Option α)} {p : α → Bool} (h : x.toOption.any (Option.any p) = true) :
    ∃ a, x = .ok (some a) ∧ p a = true := by
  cases x with
  | error fault => cases h
  | ok found =>
    cases found with
    | none => cases h
    | some a => exact ⟨a, rfl, h⟩

theorem bind_succeeds {x : Outcome α} {f : α → Outcome β} (hx : ∃ a, x = .ok a)
    (hf : ∀ a, x = .ok a → ∃ b, f a = .ok b) : ∃ b, (x >>= f) = .ok b := by
  obtain ⟨a, ha⟩ := hx
  obtain ⟨b, hb⟩ := hf a ha
  exact ⟨b, bind_eq_ok.mpr ⟨a, ha, hb⟩⟩

theorem map_succeeds {x : Outcome α} (hx : ∃ a, x = .ok a) (f : α → β) : ∃ b, f <$> x = .ok b := by
  obtain ⟨a, ha⟩ := hx
  exact ⟨f a, map_eq_ok.mpr ⟨a, ha, rfl⟩⟩

theorem eq_nil_of_append {found : List α} {x : Outcome (List α)} (h : (do return found ++ (← x)) = Except.ok []) :
    x = .ok [] := by
  obtain ⟨last, hlast, h⟩ := bind_eq_ok.mp h
  rw [hlast, (List.append_eq_nil_iff.mp (pure_eq_ok.mp h)).2]

theorem mem_of_mapM_eq_ok {f : α → Outcome β} {as : List α} {bs : List β}
    (h : as.mapM f = .ok bs) {b : β} (hb : b ∈ bs) : ∃ a ∈ as, f a = .ok b := by
  induction as generalizing bs with
  | nil =>
    simp only [List.mapM_nil, pure_eq_ok] at h
    subst h
    simp at hb
  | cons a rest ih =>
    rw [List.mapM_cons] at h
    obtain ⟨first, hfirst, h⟩ := bind_eq_ok.mp h
    obtain ⟨others, hothers, h⟩ := bind_eq_ok.mp h
    simp only [pure_eq_ok] at h
    subst h
    rcases List.mem_cons.mp hb with rfl | hb
    · exact ⟨a, List.mem_cons_self, hfirst⟩
    · obtain ⟨a', ha', hf⟩ := ih hothers hb
      exact ⟨a', List.mem_cons_of_mem _ ha', hf⟩

theorem exists_of_mapM_eq_ok {f : α → Outcome β} {as : List α} {bs : List β}
    (h : as.mapM f = .ok bs) {a : α} (ha : a ∈ as) : ∃ b ∈ bs, f a = .ok b := by
  induction as generalizing bs with
  | nil => simp at ha
  | cons first rest ih =>
    rw [List.mapM_cons] at h
    obtain ⟨b, hb, h⟩ := bind_eq_ok.mp h
    obtain ⟨others, hothers, h⟩ := bind_eq_ok.mp h
    rw [← pure_eq_ok.mp h]
    rcases List.mem_cons.mp ha with rfl | ha
    · exact ⟨b, List.mem_cons_self, hb⟩
    · obtain ⟨b', hb', hf⟩ := ih hothers ha
      exact ⟨b', List.mem_cons_of_mem _ hb', hf⟩

/-- An operation whose results are those of a function yields them in order. -/
theorem eq_map_of_mapM_eq_ok {f : α → Outcome β} {g : α → β} (hf : ∀ a b, f a = .ok b → b = g a)
    {as : List α} {bs : List β} (h : as.mapM f = .ok bs) : bs = as.map g := by
  induction as generalizing bs with
  | nil => exact (pure_eq_ok.mp h).symm
  | cons a rest ih =>
    rw [List.mapM_cons] at h
    obtain ⟨b, hb, h⟩ := bind_eq_ok.mp h
    obtain ⟨others, hothers, h⟩ := bind_eq_ok.mp h
    rw [← pure_eq_ok.mp h, hf a b hb, ih hothers, List.map_cons]

theorem mapM_eq_ok_map {f : α → Outcome β} {g : α → β} {as : List α} (h : ∀ a ∈ as, f a = .ok (g a)) :
    as.mapM f = .ok (as.map g) := by
  induction as with
  | nil => rfl
  | cons a rest ih =>
    rw [List.mapM_cons, h a List.mem_cons_self, ih fun a' ha' => h a' (List.mem_cons_of_mem a ha')]
    rfl

theorem map_eq_map_of_mapM_eq_ok {γ : Type} {f : α → Outcome β} {kept : β → γ} {key : α → γ}
    (hf : ∀ a b, f a = .ok b → kept b = key a) {as : List α} {bs : List β} (h : as.mapM f = .ok bs) :
    bs.map kept = as.map key := by
  induction as generalizing bs with
  | nil =>
    rw [← pure_eq_ok.mp h]
    rfl
  | cons a rest ih =>
    rw [List.mapM_cons] at h
    obtain ⟨b, hb, h⟩ := bind_eq_ok.mp h
    obtain ⟨others, hothers, h⟩ := bind_eq_ok.mp h
    rw [← pure_eq_ok.mp h, List.map_cons, List.map_cons, hf a b hb, ih hothers]

theorem mapM_succeeds {f : α → Outcome β} {as : List α} (h : ∀ a ∈ as, ∃ b, f a = .ok b) :
    ∃ bs, as.mapM f = .ok bs := by
  induction as with
  | nil => exact ⟨[], rfl⟩
  | cons a rest ih =>
    obtain ⟨b, hb⟩ := h a List.mem_cons_self
    obtain ⟨bs, hbs⟩ := ih fun a' ha' => h a' (List.mem_cons_of_mem a ha')
    refine ⟨b :: bs, ?_⟩
    rw [List.mapM_cons, hb, hbs]
    rfl

theorem mapM_succeeds_iff {f : α → Outcome β} {as : List α} :
    (∃ bs, as.mapM f = .ok bs) ↔ ∀ a ∈ as, ∃ b, f a = .ok b := by
  refine ⟨?_, mapM_succeeds⟩
  rintro ⟨bs, hbs⟩ a ha
  obtain ⟨b, -, hb⟩ := exists_of_mapM_eq_ok hbs ha
  exact ⟨b, hb⟩

theorem map_succeeds_iff {f : α → β} {x : Outcome α} : (∃ b, f <$> x = .ok b) ↔ ∃ a, x = .ok a := by
  cases x <;> simp [Functor.map, Except.map]

theorem bind_succeeds_iff {x : Outcome α} {f : α → Outcome β} :
    (∃ b, (x >>= f) = .ok b) ↔ ∃ a, x = .ok a ∧ ∃ b, f a = .ok b := by
  cases x <;> simp [bind, Except.bind]

theorem pure_succeeds {a : α} : (∃ b, (pure a : Outcome α) = .ok b) ↔ True := by
  simp

/-- Where it does not matter what the first operation yields, each of the two has to succeed. -/
theorem bind_succeeds_and {x : Outcome α} {f : α → Outcome β} {p q : Prop} (hx : (∃ a, x = .ok a) ↔ p)
    (hf : ∀ a, (∃ b, f a = .ok b) ↔ q) : (∃ b, (x >>= f) = .ok b) ↔ p ∧ q := by
  rw [bind_succeeds_iff, ← hx]
  simp only [hf, exists_and_right]

end Outcome

namespace Reading

@[simp] theorem outcome_eq_ok {r : Reading α} {a : α} : r.outcome = .ok a ↔ r = .done a := by
  cases r <;> simp [outcome]

theorem map_eq_done {f : α → β} {r : Reading α} {b : β} :
    f <$> r = .done b ↔ ∃ a, r = .done a ∧ f a = b := by
  cases r <;> simp [Functor.map, map]

theorem seq_eq_done {f : Reading (α → β)} {r : Reading α} {b : β} :
    f <*> r = .done b ↔ ∃ g a, f = .done g ∧ r = .done a ∧ g a = b := by
  cases f <;> cases r <;> simp [Seq.seq, apply]

theorem under_eq_done {step : Step} {r : Reading α} {a : α} : under step r = .done a ↔ r = .done a := by
  cases r <;> simp [under]

theorem field_eq_done {entries : Entries} {name : Text} {read : Value → Reading α} {a : α} :
    field entries name read = .done a ↔ ∃ v, entries.get? name = some v ∧ read v = .done a := by
  rw [field, under_eq_done]
  cases entries.get? name with
  | none => simp [fail]
  | some v => simp

theorem outcome_succeeds_iff {r : Reading α} : (∃ a, r.outcome = .ok a) ↔ ∃ a, r = .done a := by
  simp only [outcome_eq_ok]

theorem under_succeeds_iff {step : Step} {r : Reading α} :
    (∃ a, under step r = .done a) ↔ ∃ a, r = .done a := by
  simp only [under_eq_done]

theorem map_succeeds_iff {f : α → β} {r : Reading α} : (∃ b, f <$> r = .done b) ↔ ∃ a, r = .done a := by
  cases r <;> simp [Functor.map, map]

theorem seq_succeeds_iff {f : Reading (α → β)} {r : Reading α} :
    (∃ b, f <*> r = .done b) ↔ (∃ g, f = .done g) ∧ ∃ a, r = .done a := by
  cases f <;> cases r <;> simp [Seq.seq, apply]

theorem items_succeeds_iff {read : Value → Reading α} {index : Nat} {values : List Value} :
    (∃ as, items read index values = .done as) ↔ ∀ v ∈ values, ∃ a, read v = .done a := by
  induction values generalizing index with
  | nil => simp [items]
  | cons v rest ih => simp [items, seq_succeeds_iff, map_succeeds_iff, under_succeeds_iff, ih]

end Reading
end Switchboard

import Mathlib.Data.List.Forall2

namespace LineScript

variable {α β ε : Type}

theorem bind_eq_ok {outcome : Except ε α} {f : α → Except ε β} {value : β} :
    outcome.bind f = .ok value ↔ ∃ first, outcome = .ok first ∧ f first = .ok value := by
  cases outcome <;> simp [Except.bind]

theorem map_eq_ok {outcome : Except ε α} {f : α → β} {value : β} :
    outcome.map f = .ok value ↔ ∃ first, outcome = .ok first ∧ f first = value := by
  cases outcome <;> simp [Except.map]

theorem mapError_eq_ok {ε' : Type} {outcome : Except ε α} {f : ε → ε'} {value : α} :
    outcome.mapError f = .ok value ↔ outcome = .ok value := by
  cases outcome <;> simp [Except.mapError]

theorem toOption_eq_some {outcome : Except ε α} {value : α} :
    outcome.toOption = some value ↔ outcome = .ok value := by
  cases outcome <;> simp [Except.toOption]

theorem toOption_bind (outcome : Except ε α) (f : α → Except ε β) :
    (outcome.bind f).toOption = outcome.toOption.bind fun value => (f value).toOption := by
  cases outcome <;> rfl

theorem toOption_map (outcome : Except ε α) (f : α → β) :
    (outcome.map f).toOption = outcome.toOption.map f := by
  cases outcome <;> rfl

-- Two readings with the same results fail together.
theorem cases_of_toOption {one : Except ε α} {other : Except ε β} {f : β → α}
    (h : one.toOption = other.toOption.map f) :
    (∃ value, other = .ok value ∧ one = .ok (f value)) ∨
      ∃ e e', other = .error e ∧ one = .error e' := by
  cases other with
  | ok value => exact .inl ⟨value, rfl, toOption_eq_some.mp h⟩
  | error e =>
      cases one with
      | ok value => cases h
      | error e' => exact .inr ⟨e, e', rfl, rfl⟩

section Items

variable {f g : α → Except ε β} {items : List α}

theorem mapM_eq_ok_iff {values : List β} :
    items.mapM f = .ok values ↔
      List.Forall₂ (fun item value => f item = .ok value) items values := by
  constructor
  · intro h
    induction items generalizing values with
    | nil =>
        cases h
        exact .nil
    | cons item rest ih =>
        rw [List.mapM_cons] at h
        obtain ⟨first, hfirst, h⟩ := bind_eq_ok.mp h
        obtain ⟨later, hlater, h⟩ := bind_eq_ok.mp h
        cases h
        exact .cons hfirst (ih hlater)
  · intro h
    induction h with
    | nil => rfl
    | cons hitem _ ih =>
        rw [List.mapM_cons, hitem, ih]
        rfl

theorem exists_mem_of_mapM {values : List β} (h : items.mapM f = .ok values) {value : β}
    (hvalue : value ∈ values) : ∃ item ∈ items, f item = .ok value := by
  induction mapM_eq_ok_iff.mp h with
  | nil => cases hvalue
  | cons hitem hrest ih =>
      rcases List.mem_cons.mp hvalue with rfl | hmem
      · exact ⟨_, List.mem_cons_self, hitem⟩
      · obtain ⟨other, hother, hf⟩ := ih (mapM_eq_ok_iff.mpr hrest) hmem
        exact ⟨other, List.mem_cons_of_mem _ hother, hf⟩

theorem mapM_congr (h : ∀ item ∈ items, f item = g item) : items.mapM f = items.mapM g := by
  induction items with
  | nil => rfl
  | cons item rest ih =>
      obtain ⟨hitem, hrest⟩ := List.forall_mem_cons.mp h
      rw [List.mapM_cons, List.mapM_cons, hitem, ih hrest]

-- The first item that fails decides.
theorem mapM_of_first_error {before after : List α} {item : α} {e : ε}
    (hbefore : ∀ other ∈ before, ∃ value, f other = .ok value) (hitem : f item = .error e) :
    (before ++ item :: after).mapM f = .error e := by
  induction before with
  | nil =>
      rw [List.nil_append, List.mapM_cons, hitem]
      rfl
  | cons other rest ih =>
      obtain ⟨⟨value, hvalue⟩, hrest⟩ := List.forall_mem_cons.mp hbefore
      rw [List.cons_append, List.mapM_cons, hvalue, ih hrest]
      rfl

end Items

end LineScript

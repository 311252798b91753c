import LineScript.Proofs.Value.Hereditary

namespace LineScript

variable {allowed : Handle → Prop}

-- All files in a value, at any depth of lists, are allowed.
def Value.Within (allowed : Handle → Prop) (value : Value) : Prop :=
  ∀ handle ∈ value.handles, allowed handle

-- An outcome whose value, if there is one, holds only files that are allowed.
def Supplies (allowed : Handle → Prop) (outcome : Except RuntimeError Value) : Prop :=
  ∀ value, outcome = .ok value → value.Within allowed

namespace Value

theorem within_of_handles {value : Value} (h : value.handles = []) : value.Within allowed := by
  intro handle hmem
  rw [h] at hmem
  cases hmem

@[simp]
theorem within_null : null.Within allowed := within_of_handles rfl

@[simp]
theorem within_integer (n : Int64) : (integer n).Within allowed := within_of_handles rfl

@[simp]
theorem within_float (x : Float) : (float x).Within allowed := within_of_handles rfl

@[simp]
theorem within_string (text : String) : (string text).Within allowed := within_of_handles rfl

@[simp]
theorem within_incomparable : incomparable.Within allowed := within_of_handles rfl

theorem handlesOfItems_eq (items : List Value) : handlesOfItems items = items.flatMap handles := by
  induction items with
  | nil => rfl
  | cons item rest ih => rw [handlesOfItems, List.flatMap_cons, ih]

@[simp]
theorem within_list {items : List Value} :
    (list items).Within allowed ↔ ∀ item ∈ items, item.Within allowed := by
  simp only [Within, handles, handlesOfItems_eq, List.mem_flatMap]
  constructor
  · intro h item hitem handle hmem
    exact h handle ⟨item, hitem, hmem⟩
  · rintro h handle ⟨item, hitem, hmem⟩
    exact h item hitem handle hmem

theorem hereditary_within (allowed : Handle → Prop) : Hereditary (Within allowed) where
  null := within_null
  integer := within_integer
  float := within_float
  string := within_string
  list := within_list

end Value

theorem Supplies.ok {value : Value} (h : value.Within allowed) : Supplies allowed (.ok value) :=
  Yields.ok h

namespace Operation

variable {operation : Operation} {a b : Value}

-- What is computed holds no file that its operands do not hold.
theorem supplies_computed? {opened : Handle → Bool} {room : Nat} {create : Bool}
    {result : Except RuntimeError Value} (ha : a.Within allowed) (hb : b.Within allowed)
    (h : operation.computed? opened room a b = some (create, result)) : Supplies allowed result :=
  (Value.hereditary_within allowed).computed? ha hb h

theorem within_tested? {outcome : Value} (h : operation.tested? a b = some outcome) :
    outcome.Within allowed := by
  rcases (Value.hereditary_within allowed).tested? h with rfl | hwithin
  · exact Value.within_incomparable
  · exact hwithin

end Operation

end LineScript

import LineScript.Machine
import LineScript.Proofs.Outcome
import Mathlib.Data.List.Basic

namespace LineScript

-- A property of values that null, numbers and texts have, and a list exactly if its items have it.
structure Hereditary (p : Value → Prop) : Prop where
  null : p .null
  integer (n : Int64) : p (.integer n)
  float (x : Float) : p (.float x)
  string (text : String) : p (.string text)
  list {items : List Value} : p (.list items) ↔ ∀ item ∈ items, p item

-- An outcome whose value, if there is one, has the property.
def Yields (p : Value → Prop) (outcome : Except RuntimeError Value) : Prop :=
  ∀ value, outcome = .ok value → p value

variable {p : Value → Prop}

namespace Yields

theorem ok {value : Value} (h : p value) : Yields p (.ok value) := by
  intro other hother
  cases hother
  exact h

theorem error (e : RuntimeError) : Yields p (.error e) := by
  intro other hother
  cases hother

theorem map {α : Type} {f : α → Value} (h : ∀ value, p (f value))
    (outcome : Except RuntimeError α) : Yields p (outcome.map f) := by
  cases outcome with
  | ok value => exact ok (h value)
  | error e => exact error e

theorem bind {outcome : Except RuntimeError Value} {f : Value → Except RuntimeError Value}
    (h : Yields p outcome) (hf : ∀ value, p value → Yields p (f value)) :
    Yields p (outcome.bind f) := by
  cases outcome with
  | ok value => exact hf value (h value rfl)
  | error e => exact error e

end Yields

namespace Hereditary

variable (hp : Hereditary p)

include hp

theorem getD {items : List Value} (h : p (.list items)) (i : Nat) : p (items.getD i .null) := by
  rw [List.getD_eq_getElem?_getD]
  cases hitem : items[i]? with
  | none => exact hp.null
  | some item => exact hp.list.mp h item (List.mem_of_getElem? hitem)

theorem ofBool (b : Bool) : p (.ofBool b) := hp.integer _

theorem ofLiteral (literal : Number.Literal) : p (.ofLiteral literal) := by
  cases literal with
  | integer n => exact hp.integer n
  | float x => exact hp.float x

theorem ofLine (line : String) : p (.ofLine line) := by
  unfold Value.ofLine
  split
  · exact hp.ofLiteral _
  · exact hp.string line

theorem element {value : Value} (h : p value) (index : Value) (name : String) :
    Yields p (value.element index name) := by
  unfold Value.element
  split
  · exact .map (hp.getD h) _
  · refine .map (fun i => ?_) _
    split
    · exact hp.string _
    · exact hp.null
  · exact .error _

-- One item is replaced by what the change makes of it.
theorem modifyElement {value : Value} (h : p value) (index : Value) (name : String)
    {change : Value → Except RuntimeError Value}
    (hchange : ∀ item, p item → Yields p (change item)) :
    Yields p (value.modifyElement index name change) := by
  unfold Value.modifyElement
  split
  · rename_i items
    cases Value.checkedIndex index items.length with
    | error e => exact .error e
    | ok i =>
        intro new hnew
        obtain ⟨item, hitem, rfl⟩ := map_eq_ok.mp hnew
        refine hp.list.mpr fun other hother => ?_
        rcases List.mem_or_eq_of_mem_set hother with hmem | rfl
        · exact hp.list.mp h other hmem
        · exact hchange _ (hp.getD h i) _ hitem
  · exact .error _
  · exact .error _

theorem numeric (operator : Operator) (integers : Int64 → Int64 → Except RuntimeError Int64)
    (floats : Float → Float → Float) (a b : Value) :
    Yields p (Value.numeric operator integers floats a b) := by
  unfold Value.numeric
  split
  · exact .map hp.integer _
  · split
    · exact .ok (hp.float _)
    · exact .error _

theorem integral (operator : Operator) (integers : Int64 → Int64 → Except RuntimeError Int64)
    (a b : Value) : Yields p (Value.integral operator integers a b) := by
  unfold Value.integral
  split
  · exact .map hp.integer _
  · exact .error _

theorem floatPower (a b : Value) : Yields p (Value.floatPower a b) := by
  unfold Value.floatPower
  split
  · exact .ok (hp.float _)
  · exact .error _

theorem power (a b : Value) : Yields p (a.power b) := by
  unfold Value.power
  split
  · split
    · exact .ok (hp.integer _)
    · exact hp.floatPower _ _
  · exact hp.floatPower _ _

theorem nulls (room : Nat) (size : Value) : Yields p (Value.nulls room size) := by
  unfold Value.nulls
  split
  · split
    · split_ifs
      · exact .ok (hp.list.mpr fun item hitem => List.eq_of_mem_replicate hitem ▸ hp.null)
      · exact .error _
    · exact .error _
  · exact .error _

theorem append (opened : Handle → Bool) {a b : Value} (ha : p a) (hb : p b) :
    Yields p (a.append opened b) := by
  unfold Value.append
  split
  · exact .ok (hp.string _)
  · refine .ok (hp.list.mpr fun item hitem => ?_)
    rcases List.mem_append.mp hitem with hmem | hmem
    · exact hp.list.mp ha item hmem
    · exact List.mem_singleton.mp hmem ▸ hb
  · exact .error _

-- What is computed has what its operands have.
theorem computed? {operation : Operation} {opened : Handle → Bool} {room : Nat} {a b : Value}
    {create : Bool} {result : Except RuntimeError Value} (ha : p a) (hb : p b)
    (h : operation.computed? opened room a b = some (create, result)) : Yields p result := by
  cases operation <;>
    simp only [Operation.computed?, Option.some.injEq, Prod.mk.injEq, reduceCtorEq] at h
  all_goals obtain ⟨_, rfl⟩ := h
  case set => exact .ok hb
  case type => exact .ok (hp.string _)
  case add | subtract | multiply | divide => exact hp.numeric _ _ _ a b
  case modulus | bitwiseAnd | bitwiseOr | bitwiseXor => exact hp.integral _ _ a b
  case power => exact hp.power a b
  case list => exact hp.nulls room b
  case append => exact hp.append opened ha hb
  case logarithm =>
    unfold Value.logarithm
    split
    · exact .ok (hp.float _)
    · exact .error _
  case bitwiseNegate | round =>
    cases a <;> first | exact .ok (hp.integer _) | exact .error _
  case size =>
    cases b <;> first | exact .ok (hp.integer _) | exact .error _

theorem order (integers : Int64 → Int64 → Bool) (places : Option Int → Option Int → Bool)
    (a b : Value) : Value.order integers places a b = .incomparable ∨
      p (Value.order integers places a b) := by
  unfold Value.order
  split
  · exact .inr (hp.ofBool _)
  · split
    · exact .inr (hp.ofBool _)
    · exact .inl rfl

-- What a TEST finds out is a truth value, unless its operands have no order.
theorem tested? {operation : Operation} {a b outcome : Value}
    (h : operation.tested? a b = some outcome) : outcome = .incomparable ∨ p outcome := by
  cases operation <;> simp only [Operation.tested?, Option.some.injEq, reduceCtorEq] at h
  all_goals subst h
  case testEqual | testNotEqual => exact .inr (hp.ofBool _)
  case testGreaterThan | testLessThan => exact hp.order _ _ a b

end Hereditary

-- A fact about values that a list has as soon as its items have it.
theorem Value.by_items {fact : Value → Prop}
    (h : ∀ value, (∀ items, value = .list items → ∀ item ∈ items, fact item) → fact value)
    (value : Value) : fact value := by
  refine h value fun items hlist item hmem => ?_
  have hless : sizeOf item < sizeOf value := by
    have := List.sizeOf_lt_of_mem hmem
    rw [hlist, Value.list.sizeOf_spec]
    omega
  exact by_items h item
termination_by sizeOf value

-- A value that is another one or stands in it, at any depth of lists.
inductive Value.Occurs (part : Value) : Value → Prop where
  | whole : Occurs part part
  | item {item : Value} {items : List Value} (hmem : item ∈ items) (h : Occurs part item) :
      Occurs part (.list items)

-- The outcome of a comparison that has none is nowhere in the value.
def Value.Comparable (value : Value) : Prop := ¬Value.Occurs .incomparable value

theorem Value.hereditary_comparable : Hereditary Value.Comparable where
  null := nofun
  integer _ := nofun
  float _ := nofun
  string _ := nofun
  list := by
    intro items
    constructor
    · intro h item hmem hitem
      exact h (.item hmem hitem)
    · rintro h (_ | ⟨hmem, hitem⟩)
      exact h _ hmem hitem

theorem Value.comparable_of_handle? {value : Value} {handle : Handle}
    (h : value.handle? = some handle) : value.Comparable := by
  cases value with
  | reader | writer => nofun
  | _ => cases h

end LineScript

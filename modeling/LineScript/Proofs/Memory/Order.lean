import LineScript.Proofs.Memory.Contents
import Mathlib.Data.List.Forall2

namespace LineScript.Memory

-- The same scopes, with the variables of each of them in some other order.
structure Reordered (memory other : Memory) : Prop where
  current : memory.current.Perm other.current
  parents : List.Forall₂ List.Perm memory.parents other.parents

-- The values of some scopes, those of the last one first.
def valuesOf (scopes : List Scope) : List Value :=
  scopes.reverse.flatMap fun scope => scope.map Prod.snd

theorem valuesOf_perm {scopes others : List Scope} (h : List.Forall₂ List.Perm scopes others) :
    (valuesOf scopes).Perm (valuesOf others) := by
  have hreverse := List.rel_reverse h
  unfold valuesOf
  generalize scopes.reverse = first at hreverse ⊢
  generalize others.reverse = second at hreverse ⊢
  induction hreverse with
  | nil => exact .refl _
  | cons hscope _ ih => exact (hscope.map Prod.snd).append ih

theorem arrange_perm (orders : Nat → Scope.Order) (scopes : List Scope) :
    List.Forall₂ List.Perm scopes (scopes.mapIdx fun i scope => (orders i).arrange scope) := by
  rw [List.forall₂_iff_get]
  refine ⟨by simp, fun i hi _ => ?_⟩
  simpa using ((orders i).perm _).symm

theorem values_eq (memory : Memory) :
    memory.values = valuesOf memory.parents ++ memory.current.map Prod.snd := by
  simp [values, valuesOf]

-- The files in scopes, as they are listed for a whole memory.
def handlesOf (scopes : List Scope) : List Handle := (valuesOf scopes).flatMap Value.handles

theorem handles_eq (memory : Memory) :
    memory.handles = handlesOf memory.parents ++ handlesOf [memory.current] := by
  simp [handles, values_eq, handlesOf, valuesOf]

theorem leaving_eq (memory : Memory) :
    memory.leaving = handlesOf [memory.current] ++ handlesOf memory.parents := by
  simp [leaving, handlesOf, valuesOf]

namespace Reordered

variable {memory other : Memory}

theorem refl (memory : Memory) : memory.Reordered memory :=
  ⟨.refl _, List.forall₂_same.mpr fun _ _ => .refl _⟩

theorem reverse (memory : Memory) :
    memory.Reordered { memory with current := memory.current.reverse } :=
  ⟨(List.reverse_perm _).symm, (refl memory).parents⟩

-- Whatever the orders in which the variables are met, they are those that there are.
theorem arranged (memory : Memory) (orders : Nat → Scope.Order) :
    memory.Reordered (memory.arranged orders) where
  current := ((orders 0).perm _).symm
  parents := arrange_perm (fun i => orders (i + 1)) memory.parents

theorem values_perm (h : memory.Reordered other) : memory.values.Perm other.values := by
  rw [values_eq, values_eq]
  exact (valuesOf_perm h.parents).append (h.current.map Prod.snd)

theorem handles_perm (h : memory.Reordered other) : memory.handles.Perm other.handles :=
  h.values_perm.flatMap_right _

end Reordered

theorem leaving_perm (memory : Memory) : memory.leaving.Perm memory.handles := by
  rw [leaving_eq, handles_eq]
  exact List.perm_append_comm

theorem mem_leaving_arranged {memory : Memory} {orders : Nat → Scope.Order} {handle : Handle} :
    handle ∈ (memory.arranged orders).leaving ↔ handle ∈ memory.handles :=
  ((leaving_perm _).trans (Reordered.arranged memory orders).handles_perm.symm).mem_iff

-- The files of what is found in memory are in memory.
theorem mem_handles_of_evaluate {memory : Memory} {token : Token} {value : Value} {handle : Handle}
    (h : memory.evaluate token = .ok value) (hmem : handle ∈ value.handles) :
    handle ∈ memory.handles := by
  have hcurrent : memory.current.Within (· ∈ memory.handles) :=
    (forall_mem_handles.mp fun _ hmem => hmem).1
  exact supplies_evaluate hcurrent token value h handle hmem

theorem mem_handles_of_evaluateOperand {memory : Memory} {operand : Option Token} {value : Value}
    {handle : Handle} (h : memory.evaluateOperand operand = .ok value)
    (hmem : handle ∈ value.handles) : handle ∈ memory.handles := by
  have hcurrent : memory.current.Within (· ∈ memory.handles) :=
    (forall_mem_handles.mp fun _ hmem => hmem).1
  exact supplies_evaluateOperand hcurrent operand value h handle hmem

end LineScript.Memory

namespace LineScript.Machine

-- What a statement can let go of is in memory when it begins.
theorem mem_leaving {m : Machine} {s : Statement} {a b : Value}
    (ha : m.memory.evaluate (s.primary.getD .null) = .ok a)
    (hb : m.memory.evaluateOperand s.secondary = .ok b) {handle : Handle} :
    handle ∈ m.leaving a b ↔ handle ∈ m.memory.handles := by
  unfold leaving met
  rw [List.mem_append, List.mem_append, Memory.mem_leaving_arranged]
  refine or_iff_left_of_imp ?_
  rintro (hmem | hmem)
  · exact Memory.mem_handles_of_evaluateOperand hb hmem
  · exact Memory.mem_handles_of_evaluate ha hmem

-- Without operands there is only memory to let go of.
theorem mem_handles_of_leaving_null {m : Machine} {handle : Handle}
    (h : handle ∈ m.leaving .null .null) : handle ∈ m.memory.handles := by
  unfold leaving met at h
  simpa [Value.handles, Memory.mem_leaving_arranged] using h

end LineScript.Machine

import LineScript.Proofs.Machine.Deed
import LineScript.Proofs.Program.Drive

namespace LineScript

-- The names that every scope binds from its beginning.
def Scope.reserved : List String := [Scope.result, Scope.argument, Scope.returned, "null"]

structure Scope.Sound (scope : Scope) : Prop where
  bound : ∀ name ∈ Scope.reserved, (scope.get? name).isSome = true
  comparable : scope.Each Value.Comparable

namespace Scope

theorem sound_fresh : Scope.fresh.Sound where
  bound := by decide
  comparable := each_fresh Value.hereditary_comparable

theorem Sound.insert {scope : Scope} (h : scope.Sound) (key : String) {value : Value}
    (hvalue : value.Comparable) : (scope.insert key value).Sound where
  bound name hname := isSome_get?_insert (h.bound name hname) key value
  comparable := h.comparable.insert key hvalue

theorem Sound.getD {scope : Scope} (h : scope.Sound) (key : String) :
    ((scope.get? key).getD .null).Comparable :=
  h.comparable.getD Value.hereditary_comparable key

end Scope

namespace Memory

def scopes (memory : Memory) : List Scope := memory.current :: memory.parents

def Sound (memory : Memory) : Prop := ∀ scope ∈ memory.scopes, scope.Sound

namespace Sound

variable {memory next : Memory}

theorem current (h : memory.Sound) : memory.current.Sound := h _ List.mem_cons_self

theorem parent (h : memory.Sound) {scope : Scope} (hscope : scope ∈ memory.parents) :
    scope.Sound :=
  h scope (List.mem_cons_of_mem _ hscope)

theorem store (h : memory.Sound) (name : String) {value : Value} (hvalue : value.Comparable) :
    (memory.store name value).Sound :=
  List.forall_mem_cons.mpr ⟨h.current.insert _ hvalue, fun _ => h.parent⟩

theorem write (h : memory.Sound) {text : String} {value : Value} {create : Bool}
    (hvalue : value.Comparable) (hwrite : memory.write text value create = .ok next) :
    next.Sound := by
  obtain ⟨name, stored, rfl, hstored⟩ := write_effect hwrite
  exact h.store name (hstored _ Value.hereditary_comparable h.current.comparable hvalue)

theorem deliver (h : memory.Sound) {deliveries : List Delivery}
    (hvalues : ∀ delivery ∈ deliveries, delivery.value.Comparable) :
    (memory.deliver deliveries).1.Sound := by
  apply deliver_preserves Sound _ h
  intro delivery hmem memory next hmemory hwrite
  exact hmemory.write (hvalues delivery hmem) hwrite

theorem openScope (h : memory.Sound) : memory.openScope.Sound :=
  List.forall_mem_cons.mpr
    ⟨Scope.sound_fresh.insert Scope.argument (h.current.getD Scope.argument), h⟩

theorem closeScope (h : memory.Sound) (hclose : memory.closeScope = .ok next) : next.Sound := by
  obtain ⟨parent, others, hparents, rfl⟩ := closeScope_eq_ok hclose
  have hall : ∀ scope ∈ parent :: others, scope.Sound := by
    rw [← hparents]
    exact fun _ => h.parent
  obtain ⟨hparent, hothers⟩ := List.forall_mem_cons.mp hall
  exact List.forall_mem_cons.mpr ⟨hparent.insert _ (h.current.getD _), hothers⟩

theorem bindLabel (h : memory.Sound) (name : String) (index : Nat) :
    (memory.bindLabel name index).Sound := by
  have hindex := Value.hereditary_comparable.integer (Number.saturate index)
  unfold Memory.bindLabel
  dsimp only
  split
  · exact List.forall_mem_cons.mpr ⟨h.current.insert _ hindex, fun _ => h.parent⟩
  · rename_i root hroot
    refine List.forall_mem_cons.mpr ⟨h.current, fun scope hscope => ?_⟩
    rcases List.mem_append.mp hscope with hmem | hmem
    · exact h.parent ((List.dropLast_sublist _).subset hmem)
    · rw [List.mem_singleton.mp hmem]
      exact (h.parent (List.mem_of_getLast? hroot)).insert _ hindex

end Sound

end Memory

namespace Machine

variable {m : Machine} {s : Statement} {target : Token} {a b : Value}

-- An outcome without order is reported, and everything else an operation writes comes from its
-- operands, from memory or from outside.
theorem Delivers.comparable {deliveries : List Delivery} (hmemory : m.memory.Sound)
    (ha : a.Comparable) (hb : b.Comparable) (h : m.Delivers s target a b deliveries) :
    ∀ delivery ∈ deliveries, delivery.value.Comparable := by
  have hp := Value.hereditary_comparable
  cases h with
  | computed hcomputed => simpa using hp.computed? ha hb hcomputed _ rfl
  | tested htested hcomparable => simpa using (hp.tested? htested).resolve_left hcomparable
  | drawn _ hvalue =>
      rcases hvalue with ⟨n, rfl⟩ | ⟨x, rfl⟩
      · simpa using hp.integer n
      · simpa using hp.float x
  | opened _ hvalue => simpa using Value.comparable_of_handle? hvalue
  | closed => simpa using hp.null
  | line => simpa using hp.ofLine _
  | ended => simpa using hp.null
  | replied _ hvalue => simpa using hp.replyValue hmemory.current.comparable _ _ hvalue

theorem Deed.sound {after : Own} {outcome : Except Fault Unit} (hmemory : m.memory.Sound)
    (ha : a.Comparable) (hb : b.Comparable) (h : m.Deed s target a b after outcome) :
    after.memory.Sound := by
  cases h with
  | opened => exact hmemory.openScope
  | closed _ hclose => exact hmemory.closeScope hclose
  | delivered hdelivers => exact hmemory.deliver (hdelivers.comparable hmemory ha hb)
  | _ => exact hmemory

theorem sound_execute (s : Statement) (h : m.memory.Sound) : (m.execute s).1.memory.Sound := by
  rcases m.execute_cases s with ⟨e, _, hfail⟩ | ⟨a, b, ha, hb, hdeed⟩
  · rw [hfail]
    exact h
  · have hp := Value.hereditary_comparable
    exact hdeed.sound h (hp.evaluate h.current.comparable _ a ha)
      (hp.evaluateOperand h.current.comparable _ b hb)

theorem memory_step (m : Machine) (s : Statement) :
    (m.step s).1.memory = (m.execute s).1.memory := by
  unfold step
  split
  · rename_i hexecute
    rw [hexecute]
    rfl
  · rfl

theorem sound_step (s : Statement) (h : m.memory.Sound) : (m.step s).1.memory.Sound := by
  rw [memory_step]
  exact sound_execute s h

theorem memory_announce (m : Machine) (s : Statement) : (m.announce s).memory = m.memory := by
  unfold announce
  split <;> rfl

end Machine

namespace Program

theorem sound_load (program : Program) (world : World) :
    (program.load world).memory.Sound := by
  have hlabels (labels : List (String × Nat)) (memory : Memory) (h : memory.Sound) :
      (labels.foldl (fun memory label => memory.bindLabel label.1 label.2) memory).Sound := by
    induction labels generalizing memory with
    | nil => exact h
    | cons label rest ih => exact ih _ (h.bindLabel label.1 label.2)
  have hfresh : Memory.fresh.Sound := by
    refine List.forall_mem_cons.mpr ⟨Scope.sound_fresh, ?_⟩
    simp [Memory.fresh]
  exact hlabels program.labels .fresh hfresh

theorem sound_drive (program : Program) {m : Machine} (h : m.memory.Sound) (n : Nat) :
    (program.drive n m).1.memory.Sound := by
  refine drive_preserves (fun m => m.memory.Sound) (fun m s _ hm => ?_) h n
  refine Machine.sound_step s ?_
  rw [m.memory_announce s]
  exact hm

-- Whatever a program does, memory has a scope; every scope in it binds the reserved names, and no
-- value in it is or holds the outcome of a comparison that has none.
theorem memory_stays_sound (program : Program) (world : World) (n : Nat) :
    let memory := (program.drive n (program.load world)).1.memory
    1 ≤ memory.depth ∧
      ∀ scope ∈ memory.current :: memory.parents,
        (∀ name ∈ ["result", "argument", "return", "null"], (scope.get? name).isSome = true) ∧
        ∀ entry ∈ scope, ¬Value.Occurs .incomparable entry.2 := by
  have hsound := program.sound_drive (program.sound_load world) n
  refine ⟨Nat.le_add_left 1 _, fun scope hscope => ?_⟩
  exact ⟨(hsound scope hscope).bound, (hsound scope hscope).comparable⟩

end Program

end LineScript

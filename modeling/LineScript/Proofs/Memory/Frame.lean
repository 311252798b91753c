import LineScript.Proofs.Memory.Order

namespace LineScript.Memory

-- The same scopes on top of others.
def onto (memory : Memory) (base : List Scope) : Memory :=
  ⟨memory.current, memory.parents ++ base⟩

variable (memory : Memory) (base : List Scope)

@[simp]
theorem onto_nil : memory.onto [] = memory := by
  simp [onto]

@[simp]
theorem current_onto : (memory.onto base).current = memory.current := rfl

theorem depth_onto : (memory.onto base).depth = memory.depth + base.length := by
  simp only [onto, depth, List.length_append]
  omega

-- Nothing that is read depends on the parents.
theorem index_onto (accessor : String) :
    (memory.onto base).index accessor = memory.index accessor := rfl

theorem resolve_onto (indexed : String) (accessors : List String) :
    (memory.onto base).resolve indexed accessors = memory.resolve indexed accessors := by
  induction accessors generalizing indexed with
  | nil => rfl
  | cons accessor rest ih => rw [resolve, resolve, ih, index_onto]

theorem read_onto (text : String) : (memory.onto base).read text = memory.read text := by
  unfold read
  dsimp only
  rw [resolve_onto]
  rfl

theorem evaluate_onto (token : Token) :
    (memory.onto base).evaluate token = memory.evaluate token := by
  by_cases hkind : token.kind = .list
  · rw [evaluate_list hkind, evaluate_list hkind]
    cases hitems : token.items with
    | error e => rfl
    | ok items =>
        have heach : items.mapM (memory.onto base).evaluate = items.mapM memory.evaluate := by
          refine mapM_congr fun item hitem => ?_
          have := Token.length_lt_of_mem_items hitems hitem
          exact evaluate_onto item
        simp only [heach]
  · rw [evaluate.eq_def, evaluate.eq_def]
    cases htoken : token.kind with
    | name => exact read_onto memory base token.text
    | list => exact absurd htoken hkind
    | _ => rfl
termination_by token.text.length

theorem evaluateOperand_onto (operand : Option Token) :
    (memory.onto base).evaluateOperand operand = memory.evaluateOperand operand := by
  cases operand with
  | none => rfl
  | some token => exact evaluate_onto memory base token

-- What is changed lies in the scopes on top.
theorem write_onto (text : String) (value : Value) (create : Bool) :
    (memory.onto base).write text value create =
      (memory.write text value create).map (·.onto base) := by
  unfold write
  dsimp only
  rw [resolve_onto, current_onto]
  by_cases hplain : (Name.ofText text).accessors = []
  · rw [if_pos hplain, if_pos hplain]
    by_cases hbound : create || (memory.current.get? (key (Name.ofText text).base)).isSome
    · rw [if_pos hbound, if_pos hbound]
      rfl
    · rw [if_neg hbound, if_neg hbound]
      rfl
  · rw [if_neg hplain, if_neg hplain]
    cases memory.resolve (Name.ofText text).base (Name.ofText text).accessors with
    | error e => rfl
    | ok path =>
        dsimp only [Except.bind]
        cases memory.current.get? (key (Name.ofText text).base) with
        | none => rfl
        | some old =>
            dsimp only
            cases assign value path old <;> rfl

-- The lowest of the scopes on top has to stay, unless it is the root.
theorem closeScope_onto (h : memory.parents ≠ [] ∨ base = []) :
    (memory.onto base).closeScope = memory.closeScope.map (·.onto base) := by
  rcases h with hparents | rfl
  · obtain ⟨parent, others, hcons⟩ := List.exists_cons_of_ne_nil hparents
    unfold closeScope
    rw [onto, hcons]
    rfl
  · rw [onto_nil]
    cases hclose : memory.closeScope with
    | error e => rfl
    | ok next => simp [Except.map]

theorem handlesOf_append (first second : List Scope) :
    handlesOf (first ++ second) = handlesOf second ++ handlesOf first := by
  simp [handlesOf, valuesOf]

theorem handlesOf_scopes : handlesOf (memory.current :: memory.parents) = memory.handles := by
  rw [handles_eq, ← List.singleton_append, handlesOf_append]

theorem handles_onto : (memory.onto base).handles = handlesOf base ++ memory.handles := by
  rw [← handlesOf_scopes, ← handlesOf_scopes, ← handlesOf_append]
  rfl

-- The scopes on top are let go in the same order, with those below somewhere in between.
theorem leaving_onto (orders : Nat → Scope.Order) :
    ∃ others, (∀ handle ∈ others, handle ∈ handlesOf base) ∧
      ((memory.onto base).arranged orders).leaving =
        handlesOf [(memory.arranged orders).current] ++
          (others ++ handlesOf (memory.arranged orders).parents) := by
  have hperm := valuesOf_perm
    (arrange_perm (fun i => orders (i + memory.parents.length + 1)) base)
  refine ⟨_, fun handle hmem => (hperm.flatMap_right _).mem_iff.mpr hmem, ?_⟩
  rw [leaving_eq]
  simp only [arranged, onto, List.mapIdx_append, handlesOf_append]
  rfl

-- The files that are let go and that a memory does not hold.
def dropped (after : Memory) (leaving : List Handle) : List Handle :=
  leaving.filter fun handle => !after.handles.contains handle

-- A file that a lower scope holds is never dropped.
theorem dropped_onto (before after : Memory) (orders : Nat → Scope.Order) (operands : List Handle) :
    (after.onto base).dropped (((before.onto base).arranged orders).leaving ++ operands) =
      ((before.arranged orders).leaving ++ operands).filter fun handle =>
        !(handlesOf base).contains handle && !after.handles.contains handle := by
  obtain ⟨others, hothers, hleaving⟩ := before.leaving_onto base orders
  have hkept : others.filter (fun handle =>
      !(handlesOf base).contains handle && !after.handles.contains handle) = [] := by
    refine List.filter_eq_nil_iff.mpr fun handle hmem => ?_
    simp [hothers handle hmem]
  unfold dropped
  rw [hleaving, leaving_eq, handles_onto]
  simp only [List.contains_append, Bool.not_or, List.filter_append]
  rw [hkept, List.nil_append]

-- What is dropped depends on the lower scopes only by which of the files on top they hold too.
theorem dropped_congr {before after : Memory} {orders : Nat → Scope.Order} {operands : List Handle}
    {one other : List Scope}
    (h : ∀ handle ∈ (before.arranged orders).leaving ++ operands,
      handle ∈ handlesOf one ↔ handle ∈ handlesOf other) :
    (after.onto one).dropped (((before.onto one).arranged orders).leaving ++ operands) =
      (after.onto other).dropped (((before.onto other).arranged orders).leaving ++ operands) := by
  rw [dropped_onto, dropped_onto]
  refine List.filter_congr fun handle hmem => ?_
  have hcontains : (handlesOf one).contains handle = (handlesOf other).contains handle := by
    rw [Bool.eq_iff_iff, List.contains_iff_mem, List.contains_iff_mem]
    exact h handle hmem
  rw [hcontains]

end LineScript.Memory

import LineScript.Proofs.Memory.Path

namespace LineScript

namespace Scope

variable {scope : Scope} {key : String} {value : Value}

-- The second of two values under one key is the one that stays.
theorem insert_insert (scope : Scope) (key : String) (first second : Value) :
    (scope.insert key first).insert key second = scope.insert key second := by
  induction scope with
  | nil => simp [insert]
  | cons entry rest ih =>
      by_cases hentry : entry.1 = key
      · simp [insert, hentry]
      · simp [insert, hentry, ih]

theorem insert_of_get? (h : scope.get? key = some value) : scope.insert key value = scope := by
  induction scope with
  | nil => cases h
  | cons entry rest ih =>
      rw [get?_cons] at h
      by_cases hentry : entry.1 = key
      · have hvalue : entry.2 = value := by simpa [hentry] using h
        rw [insert, if_pos hentry, ← hentry, ← hvalue]
      · rw [if_neg (Ne.symm hentry)] at h
        rw [insert, if_neg hentry, ih h]

end Scope

-- Two values that differ only in what stands at the end of a way through lists. Each list on the
-- way keeps its length and all of its items but the one that the way goes through.
inductive Value.Replaced (new : Value) : List Nat → Value → Value → Prop where
  | here (old : Value) : Replaced new [] old new
  | item {before after : List Value} {i : Nat} {rest : List Nat} {old changed : Value}
      (hlength : after.length = before.length) (hold : before[i]? = some old)
      (hchanged : after[i]? = some changed) (hothers : ∀ j, j ≠ i → after[j]? = before[j]?)
      (hrest : Replaced new rest old changed) :
      Replaced new (i :: rest) (.list before) (.list after)

namespace Memory

variable {memory next : Memory} {name : String} {path : List (String × Value)}
  {value stored new found : Value} {create : Bool}

-- The position that an accessor stands for.
def PointsTo (memory : Memory) (accessor : String) (i : Nat) : Prop :=
  ∃ n : Int64, memory.index accessor = .ok (.integer n) ∧ n.toInt = i

-- What is put into a list goes to one of its items.
theorem assign_list_eq_ok {items : List Value} {place : String × Value}
    (h : assign new (place :: path) (.list items) = .ok stored) :
    ∃ i changed, Value.checkedIndex place.2 items.length = .ok i ∧ i < items.length ∧
      assign new path (items.getD i .null) = .ok changed ∧
      stored = .list (items.set i changed) := by
  obtain ⟨i, hi, hset⟩ := bind_eq_ok.mp h
  obtain ⟨changed, hchanged, rfl⟩ := map_eq_ok.mp hset
  exact ⟨i, changed, hi, (checkedIndex_eq_ok hi).1, hchanged, rfl⟩

theorem exists_list_of_assign {place : String × Value}
    (h : assign new (place :: path) value = .ok stored) : ∃ items, value = .list items := by
  cases value with
  | list items => exact ⟨items, rfl⟩
  | _ => cases h

-- The induction is along the accessors, so that each position is that of its own accessor.
theorem replaced_of_assign {indexed : String} {accessors : List String}
    (hpath : memory.resolve indexed accessors = .ok path)
    (h : assign new path value = .ok stored) :
    ∃ indices, List.Forall₂ memory.PointsTo accessors indices ∧
      Value.Replaced new indices value stored := by
  induction accessors generalizing indexed path value stored with
  | nil =>
      cases hpath
      cases h
      exact ⟨[], .nil, .here value⟩
  | cons accessor rest ih =>
      obtain ⟨later, hlater, hindexed⟩ := bind_eq_ok.mp hpath
      obtain ⟨index, hindex, rfl⟩ := map_eq_ok.mp hindexed
      obtain ⟨items, rfl⟩ := exists_list_of_assign h
      obtain ⟨i, changed, hi, hlt, hchanged, rfl⟩ := assign_list_eq_ok h
      obtain ⟨n, rfl, hn, -⟩ := Value.checkedIndex_eq_ok_iff.mp hi
      obtain ⟨indices, hpoints, hreplaced⟩ := ih hlater hchanged
      refine ⟨i :: indices, .cons ⟨n, hindex, hn⟩ hpoints, ?_⟩
      apply Value.Replaced.item (by simp) _ _ _ hreplaced
      · simp [List.getD_eq_getElem?_getD, hlt]
      · simp [hlt]
      · intro j hj
        exact List.getElem?_set_ne (Ne.symm hj)

-- A value that is put where another was put before leaves no trace of the first.
theorem assign_assigned {first second : Value} (h : assign first path value = .ok stored) :
    assign second path stored = assign second path value := by
  induction path generalizing value stored with
  | nil => rfl
  | cons place rest ih =>
      obtain ⟨items, rfl⟩ := exists_list_of_assign h
      obtain ⟨i, changed, hi, hlt, hchanged, rfl⟩ := assign_list_eq_ok h
      have hget : (items.set i changed).getD i .null = changed := by
        simp [List.getD_eq_getElem?_getD, hlt]
      simp only [assign, Value.modifyElement, List.length_set, hi, Except.bind, hget,
        ih hchanged, List.set_set]

-- Putting back what was found changes nothing.
theorem assign_found (hfound : descend path value = .ok found)
    (h : assign found path value = .ok stored) : stored = value := by
  induction path generalizing value stored with
  | nil =>
      cases hfound
      cases h
      rfl
  | cons place rest ih =>
      obtain ⟨items, rfl⟩ := exists_list_of_assign h
      obtain ⟨i, changed, hi, hlt, hchanged, rfl⟩ := assign_list_eq_ok h
      have hitem : descend rest (items.getD i .null) = .ok found := by
        simpa [descend, Value.element, hi, Except.map, Except.bind] using hfound
      have hsame : changed = items[i] := by
        rw [ih hitem hchanged]
        simp [List.getD_eq_getElem?_getD, hlt]
      rw [hsame, List.set_getElem_self]

theorem store_store (memory : Memory) (name : String) (first second : Value) :
    (memory.store name first).store name second = memory.store name second := by
  simp [store, Scope.insert_insert]

theorem write_of_plain (hplain : (Name.ofText name).accessors = [])
    (hallowed : create = true ∨ (memory.current.get? (key (Name.ofText name).base)).isSome = true) :
    memory.write name value create = .ok (memory.store (Name.ofText name).base value) := by
  simp [write, hplain, hallowed]

theorem bound_of_write (hindexed : (Name.ofText name).accessors ≠ [])
    (h : memory.write name value create = .ok next) :
    memory.current.get? (key (Name.ofText name).base) =
      some (memory.plain (Name.ofText name).base) := by
  obtain ⟨path, stored, hpath, hassign, _⟩ := write_eq_ok h
  cases hget : memory.current.get? (key (Name.ofText name).base) with
  | some value => rw [plain, hget, Option.getD_some]
  | none =>
      have hnull : memory.plain (Name.ofText name).base = .null := by
        rw [plain, hget, Option.getD_none]
      cases path with
      | nil => exact absurd (List.length_eq_zero_iff.mp (length_resolve hpath).symm) hindexed
      | cons place rest =>
          rw [hnull] at hassign
          cases hassign

theorem get?_store (memory : Memory) (name other : String) (value : Value) :
    (memory.store name value).current.get? other =
      if other = key name then some value else memory.current.get? other :=
  Scope.get?_insert _ _ _ _

-- Of two writes under one name the second is all that is seen.
theorem write_written {other : Value} (h : memory.write name value create = .ok next)
    (again : Bool) : next.write name other again = memory.write name other create := by
  by_cases hplain : (Name.ofText name).accessors = []
  · have hallowed : create = true ∨
        (memory.current.get? (key (Name.ofText name).base)).isSome = true := by
      by_contra hrefused
      simp [write, hplain, hrefused] at h
    rw [write_of_plain hplain hallowed] at h ⊢
    cases h
    rw [write_of_plain hplain (.inr (by simp [get?_store])), store_store]
  · have hbound := bound_of_write hplain h
    obtain ⟨path, stored, hpath, hassign, rfl⟩ := write_eq_ok h
    have hstored : (memory.store (Name.ofText name).base stored).current.get?
        (key (Name.ofText name).base) = some stored := by
      rw [get?_store, if_pos rfl]
    rw [write_of_indexed _ hplain (resolve_written hpath hassign) hstored,
      write_of_indexed _ hplain hpath hbound, assign_assigned hassign]
    cases assign other path (memory.plain (Name.ofText name).base) with
    | error e => rfl
    | ok changed => exact congrArg Except.ok (store_store _ _ _ _)

-- Writing back what was read leaves a variable that is there as it is.
theorem write_read (hread : memory.read name = .ok value)
    (hbound : (memory.current.get? (key (Name.ofText name).base)).isSome = true)
    (h : memory.write name value create = .ok next) : next = memory := by
  obtain ⟨path, stored, hpath, hassign, rfl⟩ := write_eq_ok h
  obtain ⟨path', hpath', hfound⟩ := read_eq_ok hread
  cases hpath.symm.trans hpath'
  have hsame : stored = memory.plain (Name.ofText name).base := assign_found hfound hassign
  have hget : memory.current.get? (key (Name.ofText name).base) = some stored := by
    obtain ⟨old, hold⟩ := Option.isSome_iff_exists.mp hbound
    rw [hsame, plain, hold, Option.getD_some]
  rw [store, Scope.insert_of_get? hget]

-- Assignment is a lens. What was assigned is read, assigning what was read changes nothing, and the
-- last of two assignments counts. All other variables and all other scopes stay, and of a variable
-- that is assigned through accessors all but the item they point to. An assignment that fails
-- leaves the whole machine as it was.
theorem assignment_obeys_lens_laws (memory : Memory) (name : String) (value : Value)
    (create : Bool) :
    (∀ next, memory.write name value create = .ok next →
      next.read name = .ok value ∧
      (memory.read name = .ok value →
        (memory.current.get? (key (Name.ofText name).base)).isSome = true → next = memory) ∧
      (∀ other again, next.write name other again = memory.write name other create) ∧
      next.parents = memory.parents ∧
      (∀ other, other ≠ key (Name.ofText name).base →
        next.current.get? other = memory.current.get? other) ∧
      ((Name.ofText name).accessors ≠ [] →
        ∃ old new indices, memory.current.get? (key (Name.ofText name).base) = some old ∧
          next.current.get? (key (Name.ofText name).base) = some new ∧
          List.Forall₂ memory.PointsTo (Name.ofText name).accessors indices ∧
          Value.Replaced value indices old new)) ∧
    ∀ e, memory.write name value create = .error e →
      ∀ (m : Machine) (target : Token), m.memory = memory → target.text = name →
        m.store target value create = m.fail e := by
  constructor
  · intro next h
    refine ⟨read_written h, fun hread hbound => write_read hread hbound h,
      fun other again => write_written h again, ?_⟩
    have hbound := fun hindexed => bound_of_write hindexed h
    obtain ⟨path, stored, hpath, hassign, rfl⟩ := write_eq_ok h
    refine ⟨rfl, ?_, ?_⟩
    · intro other hother
      rw [get?_store, if_neg hother]
    · intro hindexed
      obtain ⟨indices, hpoints, hreplaced⟩ := replaced_of_assign hpath hassign
      refine ⟨_, stored, indices, hbound hindexed, ?_, hpoints, hreplaced⟩
      rw [get?_store, if_pos rfl]
  · rintro e h m target rfl rfl
    rw [Machine.store, h]

-- A list in a list, a number to point with, and a scope below.
def nestedList : Memory :=
  ⟨[("l", .list [.null, .list [.integer 7, .integer 8]]), ("i", .integer 1)], [Scope.fresh]⟩

def nestedListHolder : Machine where
  memory := nestedList
  ip := 0
  jump := none
  running := true
  world :=
    { console := .ofInput #[], files := .ofDisk .empty, random := ⟨0⟩, log := .upTo none }

-- The first item of the inner list is assigned. An item behind the end cannot be.
theorem nested_item_is_assigned :
    (∃ next, nestedList.write "L@i@0" (.string "x") false = .ok next ∧
      next.read "L@i@0" = .ok (.string "x") ∧ next.parents = [Scope.fresh] ∧
      next.current.get? "i" = some (.integer 1) ∧
      (∀ other again, next.write "L@i@0" other again = nestedList.write "L@i@0" other false) ∧
      ∃ old new indices, nestedList.current.get? "l" = some old ∧
        next.current.get? "l" = some new ∧
        List.Forall₂ nestedList.PointsTo ["i", "0"] indices ∧
        Value.Replaced (.string "x") indices old new) ∧
    nestedListHolder.store ⟨.name, "L@i@2"⟩ .null true =
      nestedListHolder.fail (.outOfRange (.integer 2) .index) := by
  have hname : Name.ofText "L@i@0" = ⟨"L", ["i", "0"]⟩ := by decide
  have hkey : key "L" = "l" := by decide +kernel
  have hwrite : nestedList.write "L@i@0" (.string "x") false =
      .ok (nestedList.store "L" (.list [.null, .list [.string "x", .integer 8]])) := rfl
  have hfail : nestedList.write "L@i@2" .null true = .error (.outOfRange (.integer 2) .index) := rfl
  have hlaws := (assignment_obeys_lens_laws nestedList "L@i@0" (.string "x") false).1 _ hwrite
  rw [hname, hkey] at hlaws
  obtain ⟨hread, _, hagain, hparents, hothers, hitem⟩ := hlaws
  refine ⟨⟨_, hwrite, hread, hparents, hothers "i" (by decide), hagain, hitem (by decide)⟩, ?_⟩
  exact (assignment_obeys_lens_laws nestedList "L@i@2" .null true).2 _ hfail nestedListHolder
    ⟨.name, "L@i@2"⟩ rfl rfl

end Memory

end LineScript

import LineScript.Proofs.Machine.FileActions

namespace LineScript

namespace Files

variable {files : Files} {handle : Handle}

-- A file that is open after an action was open before, unless the action opened it.
theorem isOpen_of_act {action : FileAction} (h : (files.act action).isOpen handle = true)
    (hopens : action.opens = true → handle.id ≠ files.channels.size) :
    files.isOpen handle = true := by
  have hbecomes := becomes_act action hopens
  cases hclosed : files.isOpen handle with
  | true => rfl
  | false =>
      rw [isOpen_eq_false_iff.mp hclosed] at hbecomes
      rw [isOpen_eq_false_iff.mpr hbecomes.eq_closed] at h
      cases h

theorem isOpen_of_actAll {actions : List FileAction}
    (hopens : ∀ action ∈ actions, action.opens = false)
    (h : (files.actAll actions).isOpen handle = true) : files.isOpen handle = true := by
  induction actions generalizing files with
  | nil => exact h
  | cons action rest ih =>
      obtain ⟨haction, hrest⟩ := List.forall_mem_cons.mp hopens
      exact isOpen_of_act (ih hrest h) (by simp [haction])

end Files

namespace Memory

-- What is written can be reached.
theorem mem_handles_of_write {memory next : Memory} {text : String} {value : Value} {create : Bool}
    {handle : Handle} (h : memory.write text value create = .ok next)
    (hmem : handle ∈ value.handles) : handle ∈ next.handles := by
  obtain ⟨path, stored, _, hassign, rfl⟩ := write_eq_ok h
  by_contra hnot
  have hcurrent := (forall_mem_handles.mp fun other hother =>
    (ne_of_mem_of_not_mem hother hnot : other ≠ handle)).1
  have hstored := (Value.hereditary_within (· ≠ handle)).plain hcurrent (Name.ofText text).base
  rw [plain_store, if_pos rfl] at hstored
  have hvalue := (Value.hereditary_within (· ≠ handle)).descend path hstored value
    (descend_assign hassign)
  exact hvalue handle hmem rfl

end Memory

namespace Machine

section Step

variable {m : Machine} {s : Statement} {target : Token} {a b : Value} {handle : Handle}

theorem opens_fileActions (hread : s.operation ≠ .openRead) (hwrite : s.operation ≠ .openWrite) :
    ∀ action ∈ m.fileActions s target a b, action.opens = false := by
  unfold fileActions
  split
  · rename_i hs
    exact absurd hs hread
  · rename_i hs
    exact absurd hs hwrite
  · split <;> simp [FileAction.opens]
  · split
    · unfold reading
      split <;> simp [FileAction.opens]
    · simp
  · split
    · split_ifs <;> simp [FileAction.opens]
    · simp
  · simp

-- A file that is open after an operation was open before, or has just been stored.
theorem isOpen_of_perform
    (h : (m.perform s target a b).1.world.files.isOpen handle = true) :
    m.world.files.isOpen handle = true ∨
      ∃ copy ∈ (m.perform s target a b).1.memory.handles, copy.id = handle.id := by
  by_cases hs : s.operation = .openRead ∨ s.operation = .openWrite
  · rw [perform_opening hs] at h ⊢
    cases b with
    | string name =>
        rcases m.openFile_cases target s.operation name with ⟨e, hopen, _⟩ |
          ⟨next, value, hopen, hvalue, hwrite, hfiles⟩ | ⟨next, e, hopen, hfiles⟩
        · rw [hopen] at h
          exact .inl h
        · rw [hopen] at h ⊢
          change next.world.files.isOpen handle = true at h
          rw [hfiles] at h
          by_cases hid : handle.id = m.channelCount
          · refine .inr ⟨⟨m.channelCount, name⟩, Memory.mem_handles_of_write hwrite ?_, hid.symm⟩
            simp [Value.handles_of_handle? hvalue]
          · exact .inl (Files.isOpen_of_act h fun _ => hid)
        · rw [hopen] at h
          change next.world.files.isOpen handle = true at h
          rw [hfiles, Files.isOpen_close, Bool.and_eq_true, decide_eq_true_eq] at h
          exact .inl (Files.isOpen_of_act h.2 fun _ => h.1)
    | _ => exact .inl h
  · rw [not_or] at hs
    rw [files_perform] at h
    exact .inl (Files.isOpen_of_actAll (opens_fileActions hs.1 hs.2) h)

end Step

-- Every open file with a number from `first` on has a copy in memory.
def Held (first : Nat) (m : Machine) : Prop :=
  ∀ handle : Handle, first ≤ handle.id → m.world.files.isOpen handle = true →
    ∃ copy ∈ m.memory.handles, copy.id = handle.id

theorem held_execute {first : Nat} {m : Machine} (h : m.Held first) (s : Statement) :
    (m.execute s).1.Held first := by
  rcases m.execute_cases s with ⟨e, _, hfail⟩ | ⟨a, b, ha, hb, _⟩
  · rw [hfail]
    exact h
  · rw [m.execute_of_operands s ha hb]
    intro handle hfirst hopen
    rw [files_release, Files.actAll_close, Files.isOpen_release, Bool.and_eq_true,
      decide_eq_true_eq] at hopen
    obtain ⟨hkept, hopen⟩ := hopen
    rw [memory_release]
    rcases isOpen_of_perform hopen with hopen | hcopy
    · -- A copy that was there before is there still, or it was closed.
      obtain ⟨copy, hmem, hid⟩ := h handle hfirst hopen
      by_contra hnone
      have hgone : copy ∉ (m.perform s (s.primary.getD .null) a b).1.memory.handles :=
        fun hstill => hnone ⟨copy, hstill, hid⟩
      have hreleased := mem_released.mpr ⟨(mem_leaving ha hb).mpr hmem, hgone⟩
      exact hkept (List.mem_map.mpr ⟨copy, hreleased, hid⟩)
    · exact hcopy

theorem held_step {first : Nat} {m : Machine} (h : m.Held first) (s : Statement) :
    (m.step s).1.Held first := by
  have hexecute := held_execute h s
  unfold step
  split
  · rename_i next hnext
    rw [hnext] at hexecute
    exact hexecute
  · exact hexecute

end Machine

end LineScript

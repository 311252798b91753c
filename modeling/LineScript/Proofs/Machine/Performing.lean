import LineScript.Machine
import Mathlib.Tactic.SplitIfs

namespace LineScript

namespace Loans

variable {handle : Handle} {handles : List Handle}

-- Where nothing is lent out, everything can be had.
@[simp]
theorem grants_none (access : Access) : none.grants access handles = true := by
  simp [grants, admits, none]

-- A file that is lent out to be changed can be had in no way, and all others can.
theorem grants_lent (access : Access) :
    (none.lend handle .change).grants access handles = !handles.contains handle := by
  rw [Bool.eq_iff_iff, Bool.not_eq_true', grants, List.all_eq_true, ← Bool.not_eq_true,
    List.contains_iff_mem]
  constructor
  · intro h hmem
    simpa [admits, lend, none] using h handle hmem
  · intro h other hmem
    have hother : handle ≠ other := fun hsame => h (hsame ▸ hmem)
    simp [admits, lend, none, hother]

end Loans

namespace Machine

variable (m : Machine)

@[simp]
theorem borrowing_none (access : Access) (handles : List Handle) (result : Result) :
    m.borrowing .none access handles result = result := by
  rw [borrowing, Loans.grants_none, if_pos rfl]

theorem perform_eq_act (s : Statement) (target : Token) (a b : Value) :
    m.perform s target a b = m.act s target a b :=
  m.borrowing_none _ _ _

theorem told_eq (result : Result) : result.told = result := by
  unfold Result.told
  split
  · rfl
  · exact borrowing_none _ _ _ _
  · rfl

theorem execute_eq_attempt (s : Statement) : m.execute s = m.attempt s := told_eq _

-- The one place where a file is borrowed while another one is lent out, or the same one.
theorem writeTo_writer (handle : Handle) (value : Value) :
    m.writeTo (.writer handle) value =
      if value.holds handle then (m, .error .crash)
      else
        match m.world.files.writeLine handle (m.display value) with
        | (files, .ok ()) => (m.withFiles files).done
        | (files, .error e) => (m.withFiles files).fail e := by
  unfold writeTo
  dsimp only
  rw [borrowing_none, borrowing, Loans.grants_lent, ← Value.holds]
  cases value.holds handle <;> rfl

section Operations

variable {m : Machine} {s : Statement} {target : Token} {a b : Value}

-- What is done is up to the operation, which may be replaced by its name.
theorem perform_of_operation {operation : Operation} (hs : s.operation = operation) :
    m.perform s target a b = m.act { s with operation := operation } target a b := by
  subst hs
  exact m.perform_eq_act s target a b

theorem perform_computed {create : Bool} {result : Except RuntimeError Value}
    (h : s.operation.computed? m.world.opened m.world.room a b = some (create, result)) :
    m.perform s target a b = m.storeResult target create result := by
  rw [perform_eq_act, act, h]

theorem perform_set (hs : s.operation = .set) :
    m.perform s target a b = m.store target b true := perform_of_operation hs

theorem perform_opening (hs : s.operation = .openRead ∨ s.operation = .openWrite) :
    m.perform s target a b = m.openFile s.operation target b := by
  rcases hs with hs | hs
  · rw [perform_of_operation hs, hs]
    rfl
  · rw [perform_of_operation hs, hs]
    rfl

theorem perform_close (hs : s.operation = .close) :
    m.perform s target a b = m.closeFile target a := perform_of_operation hs

theorem perform_read (hs : s.operation = .read) :
    m.perform s target a b = m.readFrom target a (s.secondary.getD .null) := by
  rw [perform_eq_act, act, hs]
  rfl

theorem perform_write (hs : s.operation = .write) :
    m.perform s target a b = m.writeTo a b := perform_of_operation hs

theorem perform_input (hs : s.operation = .input) :
    m.perform s target a b = m.ask target b := perform_of_operation hs

theorem perform_print (hs : s.operation = .print) :
    m.perform s target a b = m.say (m.display a ++ "\n") := perform_of_operation hs

theorem perform_label (hs : s.operation = .label) : m.perform s target a b = m.done :=
  perform_of_operation hs

theorem perform_scopeOpen (hs : s.operation = .scopeOpen) :
    m.perform s target a b = done { m with memory := m.memory.openScope } :=
  perform_of_operation hs

theorem perform_goto (hs : s.operation = .goto) : m.perform s target a b = m.goto a b :=
  perform_of_operation hs

theorem perform_exit (hs : s.operation = .exit) :
    m.perform s target a b = done { m with running := false } := perform_of_operation hs

end Operations

end Machine

end LineScript

import LineScript.Proofs.Machine.Performing

namespace LineScript.Machine

def Result.under (result : Result) (change : Machine → Machine) : Result :=
  (change result.1, result.2)

-- A change to a machine that can be made before or after an operation on its variables and files.
structure Unnoticed (change : Machine → Machine) : Prop where
  files : ∀ m, (change m).world.files = m.world.files
  random : ∀ m, (change m).world.random = m.world.random
  room : ∀ m, (change m).world.room = m.world.room
  withFiles : ∀ m files, (change m).withFiles files = change (m.withFiles files)
  withRandom : ∀ m random,
    { change m with world := { (change m).world with random := random } } =
      change { m with world := { m.world with random := random } }
  note : ∀ m record, (change m).note record = change (m.note record)
  store : ∀ m target value create,
    (change m).store target value create = (m.store target value create).under change
  jumping : ∀ m jump, { change m with jump := jump } = change { m with jump := jump }
  stopping : ∀ m, { change m with running := false } = change { m with running := false }

namespace Unnoticed

variable {change : Machine → Machine} (h : Unnoticed change) (m : Machine)

include h

theorem opened : (change m).world.opened = m.world.opened := by
  rw [World.opened, h.files, World.opened]

theorem display (value : Value) : (change m).display value = m.display value := by
  rw [Machine.display, h.opened, Machine.display]

theorem storeResult (target : Token) (create : Bool) (result : Except RuntimeError Value) :
    (change m).storeResult target create result =
      (m.storeResult target create result).under change := by
  cases result with
  | ok value => exact h.store m target value create
  | error e => rfl

theorem test (a b outcome : Value) :
    (change m).test a b outcome = (m.test a b outcome).under change := by
  unfold Machine.test
  split
  · rfl
  · exact h.store m _ outcome true

theorem randomly (target : Token) (bound : Value) :
    (change m).random target bound = (m.random target bound).under change := by
  unfold Machine.random
  dsimp only
  cases bound with
  | integer n =>
      dsimp only
      split
      · rfl
      · exact h.store m target _ true
      · rw [h.random, h.withRandom, h.store]
  | float x =>
      dsimp only
      rw [h.random, h.withRandom, h.store]
  | _ => rfl

theorem openFile (operation : Operation) (target : Token) (name : Value) :
    (change m).openFile operation target name =
      (m.openFile operation target name).under change := by
  cases name with
  | string text =>
      unfold Machine.openFile
      simp only [borrowing_none]
      rw [h.files]
      split
      · rfl
      · rw [h.withFiles, h.display, h.note, h.store]
        generalize Machine.store _ target _ true = result
        obtain ⟨stored, outcome⟩ := result
        cases outcome with
        | ok _ => rfl
        | error fault =>
            dsimp only [Result.under]
            rw [h.withFiles]
  | _ => rfl

theorem closeFile (target : Token) (file : Value) :
    (change m).closeFile target file = (m.closeFile target file).under change := by
  unfold Machine.closeFile
  simp only [borrowing_none]
  split
  · rw [h.files]
    split
    · rw [h.withFiles, h.store]
    · rw [h.withFiles]
      rfl
  · rfl

theorem readFrom (fileToken : Token) (file : Value) (target : Token) :
    (change m).readFrom fileToken file target =
      (m.readFrom fileToken file target).under change := by
  unfold Machine.readFrom
  simp only [borrowing_none]
  split
  · rw [h.files]
    split
    · rw [h.withFiles]
      rfl
    · rw [h.withFiles, h.store]
    · rw [h.withFiles, h.store]
      generalize Machine.store _ fileToken .null false = result
      obtain ⟨closed, outcome⟩ := result
      cases outcome with
      | ok _ => exact h.store closed target .null true
      | error fault => rfl
  · rfl

theorem writeTo (file value : Value) :
    (change m).writeTo file value = (m.writeTo file value).under change := by
  cases file with
  | writer handle =>
      rw [writeTo_writer, writeTo_writer]
      split_ifs
      · rfl
      · rw [h.files, h.display]
        split
        · rw [h.withFiles]
          rfl
        · rw [h.withFiles]
          rfl
  | _ => rfl

theorem goto (target condition : Value) :
    (change m).goto target condition = (m.goto target condition).under change := by
  unfold Machine.goto
  split
  · split
    · rfl
    · split_ifs
      · rfl
      · rfl
      · exact congrArg done (h.jumping m _)
  · rfl

theorem release (hmemory : (change m).memory = m.memory) (leaving : List Handle) :
    (change m).release leaving = change (m.release leaving) := by
  unfold Machine.release
  rw [h.files, hmemory]
  split
  · exact h.withFiles m _
  · rfl

-- The scopes and the console are left to each change of its own.
theorem perform {s : Statement} (target : Token) (a b : Value)
    (hs : s.operation ∉ [.scopeOpen, .scopeClose, .print, .input]) :
    (change m).perform s target a b = (m.perform s target a b).under change := by
  simp only [List.mem_cons, List.not_mem_nil, or_false, not_or] at hs
  obtain ⟨hopen, hclose, hprint, hinput⟩ := hs
  rw [perform_eq_act, perform_eq_act]
  unfold act
  rw [h.opened, h.room]
  split
  · exact h.storeResult m _ _ _
  · split
    · exact h.test m _ _ _
    · split
      · exact h.randomly m _ _
      · exact h.openFile m _ _ _
      · exact h.openFile m _ _ _
      · exact h.closeFile m _ _
      · exact h.readFrom m _ _ _
      · exact h.writeTo m _ _
      · rename_i hs
        exact absurd hs hinput
      · rename_i hs
        exact absurd hs hprint
      · rename_i hs
        exact absurd hs hopen
      · rename_i hs
        exact absurd hs hclose
      · split <;> rfl
      · exact h.goto m _ _
      · exact congrArg done (h.stopping m)
      · rfl
      · rfl

end Unnoticed

end LineScript.Machine

import LineScript.Proofs.Machine.Deed
import LineScript.Proofs.Program.Drive
import LineScript.Proofs.Program.Operands

namespace LineScript

-- The errors that blame an operand for how it is written.
def RuntimeError.isIllFormed : RuntimeError → Bool
  | .notAValue _ | .malformedLiteral _ => true
  | _ => false

theorem RuntimeError.isIllFormed_of_isOperational {e : RuntimeError} (h : e.isOperational = true) :
    e.isIllFormed = false := by
  cases e <;> simp_all [RuntimeError.isOperational, RuntimeError.isIllFormed]

namespace Machine

-- A step that, if it fails, does not blame an operand.
def NoBlame (result : Result) : Prop :=
  ∀ e, result.2 = .error (.error e) → e.isIllFormed = false

theorem noBlame_fail (m : Machine) {e : RuntimeError} (he : e.isOperational = true) :
    NoBlame (m.fail e) := by
  intro e' h
  cases h
  exact RuntimeError.isIllFormed_of_isOperational he

end Machine

-- Both operands of a line that was read, in any memory.
theorem Statement.found_operands {line : String} {s : Statement}
    (h : Statement.read line = .ok s) (memory : Memory) :
    Found (memory.evaluate (s.primary.getD .null)) ∧
      Found (memory.evaluateOperand s.secondary) := by
  constructor
  · cases hprimary : s.primary with
    | none =>
        rw [Option.getD_none, Memory.evaluate_null]
        exact .ok _
    | some token =>
        obtain ⟨tokens, htokens, hmem, hvalue⟩ := Statement.operand_of_read h (.inl hprimary)
        exact Memory.found_evaluate htokens hmem hvalue memory
  · cases hsecondary : s.secondary with
    | none => exact .ok _
    | some token =>
        obtain ⟨tokens, htokens, hmem, hvalue⟩ := Statement.operand_of_read h (.inr hsecondary)
        exact Memory.found_evaluate htokens hmem hvalue memory

theorem Machine.noBlame_execute (m : Machine) {line : String} {s : Statement}
    (h : Statement.read line = .ok s) : NoBlame (m.execute s) := by
  obtain ⟨hprimary, hsecondary⟩ := Statement.found_operands h m.memory
  rcases m.execute_cases s with ⟨e, hoperand, hfail⟩ | ⟨a, b, _, _, hdeed⟩
  · rw [hfail]
    rcases hoperand with he | ⟨_, _, he⟩
    · exact noBlame_fail m (hprimary.operational e he)
    · exact noBlame_fail m (hsecondary.operational e he)
  · intro e he
    rw [he] at hdeed
    rcases hdeed.error_cases with hoperational | hrefused
    · exact RuntimeError.isIllFormed_of_isOperational hoperational
    · cases e <;> simp_all [RuntimeError.isRefusal, RuntimeError.isIllFormed]

theorem Machine.noBlame_step (m : Machine) {line : String} {s : Statement}
    (h : Statement.read line = .ok s) : NoBlame (m.step s) := by
  have hexecute := m.noBlame_execute h
  unfold step
  split
  · intro e he
    cases he
  · exact hexecute

namespace Program

-- An attempt to go on that ends in a runtime error made a failing step on one of the statements.
theorem step_of_advance_failed {program : Program} {m last : Machine} {line : Nat}
    {s : Statement} {e : RuntimeError} {message : String}
    (h : program.advance m = .stopped last (.failed (.runtime line s e message))) :
    s ∈ program.statements ∧ ((m.announce s).step s).2 = .error (.error e) := by
  rcases step_of_stopped h with ⟨_, hfinished⟩ | ⟨statement, fault, hs, hstep, hresult⟩
  · cases hfinished
  · cases fault with
    | crash => cases hresult
    | error cause =>
        cases hresult
        exact ⟨Array.mem_of_getElem? hs, congrArg Prod.snd hstep⟩

theorem step_of_drive_failed {program : Program} {fuel : Nat} {m : Machine} {line : Nat}
    {s : Statement} {e : RuntimeError} {message : String}
    (h : (program.drive fuel m).2 = .failed (.runtime line s e message)) :
    s ∈ program.statements ∧ ∃ before : Machine, (before.step s).2 = .error (.error e) := by
  induction fuel generalizing m with
  | zero => cases h
  | succ fuel ih =>
      cases hadvance : program.advance m with
      | running next =>
          rw [drive_of_running hadvance] at h
          exact ih h
      | stopped last outcome =>
          rw [drive_of_stopped hadvance] at h
          cases h
          obtain ⟨hmem, hstep⟩ := step_of_advance_failed hadvance
          exact ⟨hmem, m.announce s, hstep⟩

end Program

-- What the reader of tokens lets through, evaluation can deal with: it gives a value, or the error
-- of a look-up. So no run of a program blames an operand or a reply for how it is written.
theorem Token.evaluation_agrees_with_reading :
    (∀ (line : String) (tokens : List Token), Token.readAll line = .ok tokens →
      ∀ token ∈ tokens, token.kind ∈ [.number, .string, .list, .name] →
        ∀ memory : Memory, Found (memory.evaluate token)) ∧
    ∀ (source : String) (program : Program), Program.compile source = .ok program →
      (∀ s ∈ program.statements, ∀ m : Machine,
        Found (m.memory.evaluate (s.primary.getD .null)) ∧
        Found (m.memory.evaluateOperand s.secondary) ∧ Machine.NoBlame (m.execute s)) ∧
      ∀ (fuel : Nat) (world : World) (line : Nat) (s : Statement) (e : RuntimeError)
        (message : String),
        (program.run fuel world).2 = .failed (.runtime line s e message) →
          e.isIllFormed = false := by
  refine ⟨?_, ?_⟩
  · intro line tokens hread token hmem hkind memory
    refine Memory.found_evaluate hread hmem ?_ memory
    simp only [List.mem_cons, List.not_mem_nil, or_false] at hkind
    rcases hkind with hkind | hkind | hkind | hkind <;> simp [Grammar.anyValue, hkind]
  · intro source program hcompile
    refine ⟨?_, ?_⟩
    · intro s hs m
      obtain ⟨line, _, hread⟩ := Program.read_of_mem_compile hcompile hs
      obtain ⟨hprimary, hsecondary⟩ := Statement.found_operands hread m.memory
      exact ⟨hprimary, hsecondary, m.noBlame_execute hread⟩
    · intro fuel world line s e message hfailed
      rw [Program.run_outcome] at hfailed
      obtain ⟨hs, before, hstep⟩ := Program.step_of_drive_failed hfailed
      obtain ⟨source, _, hread⟩ := Program.read_of_mem_compile hcompile hs
      exact before.noBlame_step hread e hstep

-- A bracket inside a string, a list inside a list, and a look-up that fails.
theorem Token.evaluation_agrees_on_nested_list :
    Found (Memory.fresh.evaluate ⟨.list, "(1, \"a)\", (y@0, -2.5e3))"⟩) ∧
    ∃ program, Program.compile "INPUT x WITH \"?\"\nPRINT (1, (x@0))" = .ok program ∧
      ∀ (fuel : Nat) (world : World) (line : Nat) (s : Statement) (e : RuntimeError)
        (message : String),
        (program.run fuel world).2 = .failed (.runtime line s e message) →
          e.isIllFormed = false := by
  have hread : Token.readAll "PRINT (1, \"a)\", (y@0, -2.5e3))" =
      .ok [⟨.keyword, "PRINT"⟩, ⟨.list, "(1, \"a)\", (y@0, -2.5e3))"⟩] := by
    decide +kernel
  have hcompile : (Program.compile "INPUT x WITH \"?\"\nPRINT (1, (x@0))").isOk = true := by
    decide +kernel
  refine ⟨Token.evaluation_agrees_with_reading.1 _ _ hread _ (by simp) (by simp) .fresh, ?_⟩
  cases hprogram : Program.compile "INPUT x WITH \"?\"\nPRINT (1, (x@0))" with
  | error e => simp [hprogram, Except.isOk, Except.toBool] at hcompile
  | ok program =>
      exact ⟨program, rfl, (Token.evaluation_agrees_with_reading.2 _ program hprogram).2⟩

end LineScript

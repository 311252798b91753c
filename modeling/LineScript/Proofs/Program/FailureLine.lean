import LineScript.Proofs.Program.Compilation
import LineScript.Proofs.Program.ControlFlow

namespace LineScript

theorem Statement.line_of_read {line : String} {s : Statement} (h : Statement.read line = .ok s) :
    s.line = line := by
  obtain ⟨tokens, _, hs⟩ := bind_eq_ok.mp h
  exact Statement.line_of_ofTokens hs

-- The world in which a program begins: its lines have been read, which the log may tell.
def World.afterReading (world : World) (source : String) : World :=
  if world.log.admits .debug then world.noteAll (Program.compileLog source) else world

namespace Program

variable {program : Program} {m last : Machine} {s : Statement}

theorem runSource_of_ok {source : String} (h : compile source = .ok program) (fuel : Nat)
    (world : World) :
    runSource source fuel world = program.run fuel (world.afterReading source) := by
  unfold runSource
  rw [h]
  rfl

-- The statement of a line is read from that line of the source, unless it is the empty one before
-- the first line.
theorem Holds.source_line {source : String} {k : Nat}
    (h : Holds (sourceLines source) (sourceLines source).length program)
    (hs : program.statements[k]? = some s) :
    (k = 0 ∧ s = .null "") ∨
      1 ≤ k ∧ k ≤ (Text.lines source).length ∧ (Text.lines source)[k - 1]? = some s.line ∧
        Statement.read s.line = .ok s := by
  obtain ⟨line, hline, hread⟩ := h.statement_iff.mp hs
  rw [sourceLines] at hline
  rw [Statement.line_of_read hread]
  cases k with
  | zero =>
      cases hline
      have hempty : Statement.read "" = .ok (.null "") := by decide +kernel
      cases hread.symm.trans hempty
      exact .inl ⟨rfl, rfl⟩
  | succ i =>
      rw [List.getElem?_cons_succ] at hline
      obtain ⟨hi, _⟩ := List.getElem?_eq_some_iff.mp hline
      exact .inr ⟨Nat.le_add_left 1 i, hi, hline, hread⟩

-- The line of a runtime error is where the machine was when the step failed.
theorem step_of_runtime_error {line : Nat} {e : RuntimeError} {message : String}
    (h : program.advance m = .stopped last (.failed (.runtime line s e message))) :
    m.running = true ∧ m.ip = line ∧ program.statements[line]? = some s ∧
      (m.announce s).step s = (last, .error (.error e)) := by
  have hrunning : m.running = true := by
    by_contra hstopped
    rw [Bool.not_eq_true] at hstopped
    rw [advance_of_ended (.inl hstopped)] at h
    cases h
  rcases step_of_stopped h with ⟨_, hfinished⟩ | ⟨statement, fault, hs, hstep, hresult⟩
  · cases hfinished
  · cases fault with
    | crash => cases hresult
    | error cause =>
        cases hresult
        have hplace : last.ip = m.ip :=
          (Machine.ip_of_step_error hstep).trans (congrArg Machine.Own.ip (m.own_announce s))
        rw [hplace]
        exact ⟨hrunning, rfl, hs, hstep⟩

-- A runtime error names the line that failed: it is a line of the source, with its text and its
-- statement, and the run came to it by steps that all succeeded.
theorem runtime_error_names_failed_line {source : String} {fuel : Nat} {world : World} {line : Nat}
    {s : Statement} {e : RuntimeError} {message : String}
    (h : (runSource source fuel world).2 = .failed (.runtime line s e message)) :
    1 ≤ line ∧ line ≤ (Text.lines source).length ∧
    (Text.lines source)[line - 1]? = some s.line ∧ Statement.read s.line = .ok s ∧
    ∃ program n m failed, compile source = .ok program ∧
      program.Reaches (program.load (world.afterReading source)) n m ∧ m.running = true ∧
      m.ip = line ∧ program.statements[line]? = some s ∧
      (m.announce s).step s = (failed, .error (.error e)) := by
  rcases compile_cases source with ⟨program, hcompile, hholds⟩ | ⟨_, _, _, herror, _⟩
  · rw [runSource_of_ok hcompile, run_outcome] at h
    generalize hdrive : program.drive fuel (program.load (world.afterReading source)) = driven at h
    obtain ⟨failed, outcome⟩ := driven
    cases h
    rcases reaches_of_drive hdrive with ⟨hunfinished, _⟩ | ⟨n, m, hreaches, hstopped⟩
    · cases hunfinished
    · obtain ⟨hrunning, hip, hs, hstep⟩ := step_of_runtime_error hstopped
      rcases hholds.source_line hs with ⟨_, rfl⟩ | ⟨hpos, hle, hline, hread⟩
      · -- The empty statement before the first line cannot fail.
        have hreachable := (hreaches.reachable (.load program _)).announce (.null "")
        rw [Machine.step_null _ "" hreachable.jump_eq_none] at hstep
        cases hstep
      · exact ⟨hpos, hle, hline, hread, program, n, m, failed, hcompile, hreaches, hrunning, hip,
          hs, hstep⟩
  · unfold runSource at h
    rw [herror] at h
    cases h

-- A target that is computed, and a failure behind it.
theorem computed_jump_fails_on_its_line :
    ∃ s e message,
      (runSource "SET k TO 3\nADD 1 TO k\nGOTO k IF 1\n  PRINT k@0 # four" 9 .blank).2 =
        .failed (.runtime 4 s e message) ∧
      s.line = "  PRINT k@0 # four" ∧ Statement.read "  PRINT k@0 # four" = .ok s := by
  have hfailed :
      (match (runSource "SET k TO 3\nADD 1 TO k\nGOTO k IF 1\n  PRINT k@0 # four" 9 .blank).2 with
        | .failed (.runtime 4 _ _ _) => true
        | _ => false) = true := by
    decide +kernel
  have hlines : (Text.lines "SET k TO 3\nADD 1 TO k\nGOTO k IF 1\n  PRINT k@0 # four")[3]? =
      some "  PRINT k@0 # four" := by
    decide +kernel
  split at hfailed
  · rename_i s e message hrun
    obtain ⟨_, _, hline, hread, _⟩ := runtime_error_names_failed_line hrun
    have hsame : s.line = "  PRINT k@0 # four" := Option.some.inj (hline.symm.trans hlines)
    rw [hsame] at hread
    exact ⟨s, e, message, hrun, hsame, hread⟩
  · cases hfailed

end Program

end LineScript

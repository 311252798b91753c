import LineScript.Proofs.Machine.Case
import LineScript.Proofs.Program.Drive

namespace LineScript

open Text

namespace Program

def capital (program : Program) : Program :=
  ⟨program.statements.map Statement.capital, program.labels⟩

theorem label?_capital (program : Program) (name : String) :
    program.capital.label? (capitalized name) = program.label? name := by
  rw [label?, Memory.key_of_upper (upper_capitalized name), label?, capital]

theorem labelName?_capital (s : Statement) :
    labelName? s.capital = (labelName? s).map capitalized := by
  unfold labelName?
  rw [show s.capital.operation = s.operation from rfl]
  split_ifs
  · cases hoperand : s.operand1 <;> simp [Statement.capital, hoperand, Token.capital]
  · rfl

theorem addStatement_capital (program : Program) (s : Statement) :
    (program.capital.addStatement s.capital).toOption =
      (program.addStatement s).toOption.map capital := by
  unfold addStatement
  dsimp only
  rw [labelName?_capital]
  cases labelName? s with
  | none => simp [capital, Except.toOption]
  | some name =>
      dsimp only [Option.map_some]
      rw [label?_capital]
      cases program.label? name with
      | some first => rfl
      | none =>
          simp [capital, Except.toOption, Memory.key_of_upper (upper_capitalized name)]

theorem addLine_capital (program : Program) (line : String) :
    (program.capital.addLine (capitalized line)).toOption =
      (program.addLine line).toOption.map capital := by
  rw [addLine, toOption_bind, Statement.read_capitalized, addLine, toOption_bind]
  cases Statement.read line with
  | error e => rfl
  | ok s => exact program.addStatement_capital s

theorem toOption_addLines_cons (program : Program) (line : String) (rest : List String) :
    (program.addLines (line :: rest)).toOption =
      (program.addLine line).toOption.bind fun extended => (extended.addLines rest).toOption := by
  rw [addLines]
  cases program.addLine line <;> rfl

theorem addLines_capital (program : Program) (lines : List String) :
    (program.capital.addLines (lines.map capitalized)).toOption =
      (program.addLines lines).toOption.map capital := by
  induction lines generalizing program with
  | nil => rfl
  | cons line rest ih =>
      rw [List.map_cons, toOption_addLines_cons, addLine_capital, toOption_addLines_cons]
      cases program.addLine line with
      | error e => rfl
      | ok extended => exact ih extended

-- Sources that differ only in case are compiled to programs that do.
theorem exists_compile_of_sameButCase {p q : String} {program : Program} (hcase : SameButCase p q)
    (h : compile p = .ok program) :
    ∃ other, compile q = .ok other ∧ other.capital = program.capital := by
  have hlines : (sourceLines p).map capitalized = (sourceLines q).map capitalized := by
    rw [sourceLines, sourceLines, List.map_cons, List.map_cons, lines_of_sameButCase hcase]
  have hp := empty.addLines_capital (sourceLines p)
  have hq := empty.addLines_capital (sourceLines q)
  rw [hlines, hq, ← compile, ← compile, h] at hp
  obtain ⟨other, hother, hcapital⟩ := Option.map_eq_some_iff.mp hp
  exact ⟨other, toOption_eq_some.mp hother, hcapital⟩

end Program

-- How a run ended, without the texts that an error is told with.
inductive Verdict where
  | finished
  | failed (line : Nat) (kind : RuntimeError.Kind)
  | refused
  | crashed
  | unfinished
deriving DecidableEq, Repr

def Outcome.verdict : Outcome → Verdict
  | .finished => .finished
  | .failed (.runtime line _ cause _) => .failed line cause.kind
  | .failed (.compile ..) | .failed (.unreadable ..) => .refused
  | .crashed => .crashed
  | .unfinished => .unfinished

-- A world without its log.
def World.quiet (world : World) : World := { world with log := .upTo none }

namespace Program

variable {program : Program}

theorem statement_capital (program : Program) (i : Nat) :
    program.capital.statements[i]? = program.statements[i]?.map Statement.capital := by
  simp [capital]

-- The same program in capitals goes the same way, step by step,
theorem advance_capital
    (hread : ∀ s ∈ program.statements, ∃ line, Statement.read line = .ok s) (m : Machine) :
    (∃ next, program.advance m = .running next ∧
        program.capital.advance (m.atop []) = .running (next.atop [])) ∨
      ∃ last outcome outcome', program.advance m = .stopped last outcome ∧
        program.capital.advance (m.atop []) = .stopped (last.atop []) outcome' ∧
        outcome.verdict = outcome'.verdict := by
  have hstatement := program.statement_capital m.ip
  cases hrunning : m.running with
  | false =>
      exact .inr ⟨m, _, _, advance_of_ended (.inl hrunning), advance_of_ended (.inl hrunning), rfl⟩
  | true =>
      cases hs : program.statements[m.ip]? with
      | none =>
          rw [hs] at hstatement
          exact .inr ⟨m, _, _, advance_of_ended (.inr hs), advance_of_ended (.inr hstatement), rfl⟩
      | some s =>
          rw [hs] at hstatement
          obtain ⟨line, hline⟩ := hread s (Array.mem_of_getElem? hs)
          have hquiet : (m.atop []).announce s.capital = m.atop [] := rfl
          have halike := (m.atop []).alike_step hline
          rw [← m.announce_atop [] s, Machine.step_atop_nil, m.announce_atop] at halike
          rw [advance_of_statement hrunning hs,
            advance_of_statement (m := m.atop []) hrunning hstatement, hquiet]
          generalize (m.announce s).step s = result at halike
          generalize (m.atop []).step s.capital = other at halike
          obtain ⟨next, outcome⟩ := result
          cases outcome with
          | ok _ =>
              cases halike
              exact .inl ⟨next, rfl, rfl⟩
          | error fault =>
              cases fault with
              | error e =>
                  cases halike with
                  | fail _ h =>
                      exact .inr ⟨next, _, _, rfl, rfl, congrArg (Verdict.failed next.ip) h⟩
              | crash =>
                  cases halike
                  exact .inr ⟨next, _, _, rfl, rfl, rfl⟩

-- and therefore as a whole.
theorem drive_capital
    (hread : ∀ s ∈ program.statements, ∃ line, Statement.read line = .ok s) (m : Machine)
    (fuel : Nat) :
    (program.capital.drive fuel (m.atop [])).1 = (program.drive fuel m).1.atop [] ∧
      (program.capital.drive fuel (m.atop [])).2.verdict = (program.drive fuel m).2.verdict := by
  induction fuel generalizing m with
  | zero => exact ⟨rfl, rfl⟩
  | succ fuel ih =>
      rcases advance_capital hread m with ⟨next, hnext, hcapital⟩ |
        ⟨last, outcome, outcome', hlast, hcapital, hverdict⟩
      · rw [drive_of_running hnext, drive_of_running hcapital]
        exact ih next
      · rw [drive_of_stopped hlast, drive_of_stopped hcapital]
        exact ⟨rfl, hverdict.symm⟩

theorem load_atop (program : Program) (world : World) :
    (program.load world).atop [] = program.capital.load world.quiet := by
  unfold load Machine.atop
  rw [Memory.onto_nil]
  rfl

theorem closeAllFiles_atop (m : Machine) :
    (m.atop []).closeAllFiles = (m.closeAllFiles.1.atop [], m.closeAllFiles.2) := by
  have hlog (records : List Record) : (Log.upTo none).addAll records = .upTo none := by
    induction records with
    | nil => rfl
    | cons record rest ih => exact ih
  unfold Machine.closeAllFiles Machine.met
  dsimp only
  rw [Machine.files_atop, Machine.memory_atop, Memory.onto_nil]
  refine congrArg (·, _) ?_
  simp only [Machine.atop, Machine.withFiles, Memory.onto_nil, hlog]

theorem finish_atop (m : Machine) : finish (m.atop []) = (finish m).quiet := by
  unfold finish
  rw [closeAllFiles_atop]
  generalize m.closeAllFiles = swept
  dsimp only
  have hclosed (message : String) :
      (if 0 < swept.2 then (swept.1.atop []).note (programNote message) else swept.1.atop []) =
        Machine.atop (if 0 < swept.2 then swept.1.note (programNote message) else swept.1) [] := by
    split_ifs <;> rfl
  rw [hclosed, Machine.flush_atop]
  split <;> rfl

theorem wreck_atop (m : Machine) : wreck (m.atop []) = (wreck m).quiet := by
  unfold wreck Machine.met
  rw [Machine.memory_atop, Memory.onto_nil]
  rfl

-- What a run leaves behind is told by its verdict.
def remainsBy (m : Machine) : Verdict → World
  | .crashed => wreck m
  | .unfinished => m.world
  | .finished | .failed .. | .refused => finish m

theorem remains_eq (m : Machine) (outcome : Outcome) :
    remains m outcome = remainsBy m outcome.verdict := by
  cases outcome with
  | failed error => cases error <;> rfl
  | finished | crashed | unfinished => rfl

theorem remains_of_verdict (m : Machine) {outcome other : Outcome}
    (h : other.verdict = outcome.verdict) : remains m other = remains m outcome := by
  rw [remains_eq, remains_eq, h]

theorem remains_atop (m : Machine) (outcome : Outcome) :
    remains (m.atop []) outcome = (remains m outcome).quiet := by
  cases outcome with
  | crashed => exact wreck_atop m
  | unfinished => rfl
  | finished | failed => exact finish_atop m

theorem run_capital
    (hread : ∀ s ∈ program.statements, ∃ line, Statement.read line = .ok s) (fuel : Nat)
    (world : World) :
    (program.capital.run fuel world.quiet).1 = (program.run fuel world).1.quiet ∧
      (program.capital.run fuel world.quiet).2.verdict = (program.run fuel world).2.verdict := by
  obtain ⟨hlast, hverdict⟩ := drive_capital hread (program.load world) fuel
  rw [load_atop] at hlast hverdict
  rw [run_eq, run_eq]
  dsimp only
  rw [hlast, remains_of_verdict _ hverdict, remains_atop]
  exact ⟨rfl, hverdict⟩

-- The log of a run has nothing to do with how it goes.
theorem runSource_of_compile {source : String} (h : compile source = .ok program) (fuel : Nat)
    (world : World) :
    ∃ noted, noted.quiet = world.quiet ∧ runSource source fuel world = program.run fuel noted := by
  unfold runSource
  dsimp only
  rw [h]
  exact ⟨_, by split_ifs <;> rfl, rfl⟩

end Program

-- What a statement is made of, apart from how it is written.
def Statement.shape (s : Statement) : Operation × Option TokenKind × Option TokenKind :=
  (s.operation, s.operand1.map Token.kind, s.operand2.map Token.kind)

theorem Statement.shape_capital (s : Statement) : s.capital.shape = s.shape := by
  simp [shape, capital, Function.comp_def]

namespace Program

-- Two sources that differ only in the case of letters outside of string literals are one program:
-- they are compiled to the same operations on the same kinds of operands, have the same labels,
-- and do the same in every world, its draws and orders included, up to how an error is told.
theorem case_makes_no_difference {p q : String} {program : Program} (hcase : SameButCase p q)
    (hcompile : compile p = .ok program) :
    ∃ other, compile q = .ok other ∧
      other.statements.map Statement.shape = program.statements.map Statement.shape ∧
      (∀ name, other.label? name = program.label? name) ∧
      ∀ fuel world,
        (runSource q fuel world).1.console = (runSource p fuel world).1.console ∧
        (runSource q fuel world).1.files = (runSource p fuel world).1.files ∧
        (runSource q fuel world).2.verdict = (runSource p fuel world).2.verdict := by
  obtain ⟨other, hother, hcapital⟩ := exists_compile_of_sameButCase hcase hcompile
  have hshape (program : Program) : program.statements.map Statement.shape =
      program.capital.statements.map Statement.shape := by
    simp [capital, Function.comp_def, Statement.shape_capital]
  have hlabels : other.capital.labels = program.capital.labels := by rw [hcapital]
  refine ⟨other, hother, ?_, ?_, ?_⟩
  · rw [hshape other, hcapital, ← hshape]
  · intro name
    exact congrArg (List.lookup (Memory.key name)) hlabels
  · intro fuel world
    have hrun {source : String} {read : Program} (h : compile source = .ok read) :
        (read.capital.run fuel world.quiet).1 = (runSource source fuel world).1.quiet ∧
          (read.capital.run fuel world.quiet).2.verdict =
            (runSource source fuel world).2.verdict := by
      obtain ⟨noted, hnoted, hsource⟩ := runSource_of_compile h fuel world
      rw [← hnoted, hsource]
      refine run_capital (fun s hs => ?_) fuel noted
      obtain ⟨line, _, hline⟩ := read_of_mem_compile h hs
      exact ⟨line, hline⟩
    obtain ⟨hp, hpverdict⟩ := hrun hcompile
    obtain ⟨hq, hqverdict⟩ := hrun hother
    rw [hcapital] at hq hqverdict
    rw [hp] at hq
    have hconsole := congrArg World.console hq
    have hfiles := congrArg World.files hq
    exact ⟨hconsole.symm, hfiles.symm, hqverdict.symm.trans hpverdict⟩

-- The case of a string literal is kept, that of words, names, exponents and comments is not.
def spoken : String := "set Pair to (1e2, \"aB\")\nprint pair@0 # Shown"

def shouted : String := "SET PAIR TO (1E2, \"aB\")\nPRINT PAIR@0 # SHOWN"

theorem shouted_runs_as_spoken :
    ∃ program other, compile spoken = .ok program ∧ compile shouted = .ok other ∧
      other.statements.map Statement.shape = program.statements.map Statement.shape ∧
      (∀ name, other.label? name = program.label? name) ∧
      ∀ fuel world,
        (runSource shouted fuel world).1.console = (runSource spoken fuel world).1.console ∧
        (runSource shouted fuel world).1.files = (runSource spoken fuel world).1.files ∧
        (runSource shouted fuel world).2.verdict = (runSource spoken fuel world).2.verdict := by
  have hcase : SameButCase spoken shouted := by decide +kernel
  have hok : (compile spoken).isOk = true := by decide +kernel
  cases hcompile : compile spoken with
  | error e =>
      rw [hcompile] at hok
      cases hok
  | ok program =>
      obtain ⟨other, hother, hsame⟩ := case_makes_no_difference hcase hcompile
      exact ⟨program, other, rfl, hother, hsame⟩

end Program

end LineScript

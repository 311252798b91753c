import LineScript.Proofs.Machine.Console
import LineScript.Proofs.Machine.Operands
import LineScript.Proofs.Machine.Twin
import LineScript.Proofs.Program.Case

namespace LineScript

-- Nothing is written yet, and the output takes so many bytes, or all of them.
def World.facing (world : World) (limit : Option Nat) : World :=
  { world with console := { world.console with output := #[], limit := limit } }

def World.limited (world : World) (n : Nat) : World :=
  { world with console := world.console.limited n }

namespace Text

variable {bytes : Bytes} {n : Nat}

theorem take_of_size_le (h : bytes.size ≤ n) : bytes.take n = bytes := by
  rw [Array.take_eq_extract, Array.extract_eq_self_of_le h]

theorem take_append (h : n ≤ bytes.size) (added : Bytes) :
    (bytes ++ added).take n = bytes.take n := by
  have hnone : n - bytes.size = 0 := by omega
  simp [Array.take_eq_extract, Array.extract_append, hnone]

end Text

namespace Progression

def machine : Progression → Machine
  | running m => m
  | stopped m _ => m

def limited (n : Nat) : Progression → Progression
  | running m => .running (m.limited n)
  | stopped m outcome => .stopped (m.limited n) outcome

theorem machine_ofResult (s : Statement) (result : Machine.Result) :
    (ofResult s result).machine = result.1 := by
  obtain ⟨next, outcome⟩ := result
  match outcome with
  | .ok () => rfl
  | .error (.error e) => rfl
  | .error .crash => rfl

theorem ofResult_limited (n : Nat) (s : Statement) (result : Machine.Result) :
    ofResult s (result.under (·.limited n)) = (ofResult s result).limited n := by
  obtain ⟨next, outcome⟩ := result
  match outcome with
  | .ok () => rfl
  | .error (.error e) => rfl
  | .error .crash => rfl

end Progression

-- How a statement fails whose text does not fit.
def Outcome.overflow (line : Nat) (s : Statement) : Outcome :=
  .failed (.runtime line s (.console .outputLimit) "Console IO failed: output limit reached.")

namespace Program

variable {program : Program} {m next : Machine} {n : Nat}

theorem announce_limited (m : Machine) (n : Nat) (s : Statement) :
    (m.limited n).announce s = (m.announce s).limited n := by
  unfold Machine.announce
  rw [show (m.limited n).world.log = m.world.log from rfl]
  split <;> rfl

theorem console_announce (m : Machine) (s : Statement) :
    (m.announce s).world.console = m.world.console ∧ (m.announce s).ip = m.ip := by
  obtain ⟨log, hannounce⟩ := m.announce_eq s
  rw [hannounce]
  exact ⟨rfl, rfl⟩

-- One attempt to go on without a limit, and one with it.
structure Truncated (program : Program) (n : Nat) (m : Machine) (free cut : Progression) :
    Prop where
  unlimited : free.machine.world.console.limit = none
  grown : ∃ added, free.machine.output = m.output ++ added
  fits : free.machine.output.size ≤ n → cut = free.limited n
  exceeds : m.output.size ≤ n → n < free.machine.output.size →
    ∃ s last, program.statements[m.ip]? = some s ∧ cut = .stopped last (.overflow m.ip s) ∧
      last.output = free.machine.output.take n

theorem truncated_advance (program : Program) (n : Nat) (hfree : m.world.console.limit = none) :
    program.Truncated n m (program.advance m) (program.advance (m.limited n)) := by
  by_cases hended : m.running = false ∨ program.statements[m.ip]? = none
  · have hcut : program.advance (m.limited n) = .stopped (m.limited n) .finished :=
      advance_of_ended hended
    rw [advance_of_ended hended, hcut]
    constructor
    · exact hfree
    · exact ⟨#[], by simp [Progression.machine]⟩
    · intro _
      rfl
    · intro hbefore hover
      exact absurd hbefore (Nat.not_le.mpr hover)
  · obtain ⟨hrunning, hsome⟩ := not_or.mp hended
    obtain ⟨s, hs⟩ := Option.ne_none_iff_exists'.mp hsome
    have hrunning : m.running = true := by simpa using hrunning
    have hcut : program.advance (m.limited n) =
        .ofResult s (((m.limited n).announce s).step s) := advance_of_statement hrunning hs
    obtain ⟨hconsole, hip⟩ := console_announce m s
    have houtput : (m.announce s).output = m.output := congrArg Console.output hconsole
    have hstep := Machine.truncated_step n ((congrArg Console.limit hconsole).trans hfree) s
    rw [advance_of_statement hrunning hs, hcut, announce_limited]
    constructor
    · rw [Progression.machine_ofResult, hstep.unlimited]
    · rw [Progression.machine_ofResult, ← houtput]
      exact hstep.grown
    · rw [Progression.machine_ofResult]
      intro hfits
      rw [hstep.fits hfits, Progression.ofResult_limited]
    · rw [Progression.machine_ofResult, ← houtput, ← hip]
      intro hbefore hover
      obtain ⟨last, hfail, hline, hlast⟩ := hstep.exceeds hbefore hover
      refine ⟨s, last, hip ▸ hs, ?_, hlast⟩
      rw [hfail, ← hline]
      rfl

-- Without a limit the output only grows.
theorem drive_grows (program : Program) (fuel : Nat) (hfree : m.world.console.limit = none) :
    ∃ added, (program.drive fuel m).1.output = m.output ++ added := by
  induction fuel generalizing m with
  | zero => exact ⟨#[], by simp [drive]⟩
  | succ fuel ih =>
      have hstep := program.truncated_advance 0 hfree
      obtain ⟨first, hfirst⟩ := hstep.grown
      have hunlimited := hstep.unlimited
      cases hadvance : program.advance m with
      | stopped last outcome =>
          rw [hadvance] at hfirst
          exact ⟨first, by rw [drive_of_stopped hadvance, ← hfirst]; rfl⟩
      | running next =>
          rw [hadvance] at hfirst hunlimited
          dsimp only [Progression.machine] at hfirst hunlimited
          obtain ⟨later, hlater⟩ := ih hunlimited
          refine ⟨first ++ later, ?_⟩
          rw [drive_of_running hadvance, hlater, hfirst, Array.append_assoc]

theorem drive_grows_from (program : Program) (fuel more : Nat)
    (hfree : m.world.console.limit = none) :
    ∃ added, (program.drive (fuel + more) m).1.output =
      (program.drive fuel m).1.output ++ added := by
  induction fuel generalizing m with
  | zero =>
      rw [Nat.zero_add]
      exact program.drive_grows more hfree
  | succ fuel ih =>
      rw [Nat.succ_add]
      have hunlimited := (program.truncated_advance 0 hfree).unlimited
      cases hadvance : program.advance m with
      | stopped last outcome =>
          rw [drive_of_stopped hadvance, drive_of_stopped hadvance]
          exact ⟨#[], by simp⟩
      | running next =>
          rw [hadvance] at hunlimited
          rw [drive_of_running hadvance, drive_of_running hadvance]
          exact ih hunlimited

-- A run on a limited console that makes `j` steps like one without a limit and then stops at the
-- statement whose text does not fit.
structure Cut (program : Program) (n : Nat) (m : Machine) (j : Nat) (s : Statement) : Prop where
  unfinished : (program.drive j m).2 = .unfinished
  statement : program.statements[(program.drive j m).1.ip]? = some s
  fits : (program.drive j m).1.output.size ≤ n
  exceeds : n < (program.drive (j + 1) m).1.output.size
  same : ∀ i ≤ j, program.drive i (m.limited n) =
    ((program.drive i m).1.limited n, (program.drive i m).2)
  stops : ∀ fuel, j < fuel → ∃ last : Machine,
    program.drive fuel (m.limited n) = (last, .overflow (program.drive j m).1.ip s) ∧
      last.output = (program.drive (j + 1) m).1.output.take n

theorem Cut.later {j : Nat} {s : Statement} (h : program.Cut n next j s)
    (hadvance : program.advance m = .running next)
    (hcut : program.advance (m.limited n) = .running (next.limited n)) :
    program.Cut n m (j + 1) s := by
  have hdrive (fuel : Nat) : program.drive (fuel + 1) m = program.drive fuel next :=
    drive_of_running hadvance fuel
  have hlimited (fuel : Nat) :
      program.drive (fuel + 1) (m.limited n) = program.drive fuel (next.limited n) :=
    drive_of_running hcut fuel
  constructor
  · rw [hdrive, h.unfinished]
  · rw [hdrive, h.statement]
  · rw [hdrive]
    exact h.fits
  · rw [hdrive]
    exact h.exceeds
  · intro i hi
    cases i with
    | zero => rfl
    | succ i =>
        rw [hlimited, hdrive]
        exact h.same i (Nat.le_of_succ_le_succ hi)
  · intro fuel hfuel
    cases fuel with
    | zero => omega
    | succ fuel =>
        rw [hlimited, hdrive, hdrive]
        exact h.stops fuel (Nat.lt_of_succ_lt_succ hfuel)

-- A run on a limited console is the run without a limit, or it is cut off.
theorem drive_limited (program : Program) (fuel : Nat) (hfree : m.world.console.limit = none)
    (hfits : m.output.size ≤ n) :
    ((program.drive fuel m).1.output.size ≤ n ∧
        program.drive fuel (m.limited n) =
          ((program.drive fuel m).1.limited n, (program.drive fuel m).2)) ∨
      ∃ j < fuel, ∃ s, program.Cut n m j s := by
  induction fuel generalizing m with
  | zero => exact .inl ⟨hfits, rfl⟩
  | succ fuel ih =>
      have hstep := program.truncated_advance n hfree
      by_cases hover : n < (program.advance m).machine.output.size
      · obtain ⟨s, last, hs, hcut, hlast⟩ := hstep.exceeds hfits hover
        have hone : (program.drive 1 m).1 = (program.advance m).machine := by
          rw [drive]
          cases program.advance m <;> rfl
        refine .inr ⟨0, Nat.succ_pos fuel, s, rfl, hs, hfits, ?_, ?_, ?_⟩
        · rwa [hone]
        · intro i hi
          rw [Nat.le_zero.mp hi]
          rfl
        · intro fuel hfuel
          cases fuel with
          | zero => omega
          | succ fuel => exact ⟨last, drive_of_stopped hcut fuel, by rw [hone, hlast]⟩
      · have hle := Nat.not_lt.mp hover
        have hcut := hstep.fits hle
        have hunlimited := hstep.unlimited
        cases hadvance : program.advance m with
        | stopped last outcome =>
            rw [hadvance] at hle hcut
            rw [drive_of_stopped hadvance, drive_of_stopped hcut]
            exact .inl ⟨hle, rfl⟩
        | running next =>
            rw [hadvance] at hle hcut hunlimited
            rcases ih hunlimited hle with ⟨hsize, hsame⟩ | ⟨j, hj, s, hlater⟩
            · rw [drive_of_running hadvance, drive_of_running hcut]
              exact .inl ⟨hsize, hsame⟩
            · exact .inr ⟨j + 1, Nat.succ_lt_succ hj, s, hlater.later hadvance hcut⟩

theorem size_drive_le (program : Program) {fuel later : Nat} (h : fuel ≤ later)
    (hfree : m.world.console.limit = none) :
    (program.drive fuel m).1.output.size ≤ (program.drive later m).1.output.size := by
  obtain ⟨more, rfl⟩ := Nat.exists_eq_add_of_le h
  obtain ⟨added, hadded⟩ := program.drive_grows_from fuel more hfree
  rw [hadded, Array.size_append]
  omega

theorem Cut.not_fits {j fuel : Nat} {s : Statement} (h : program.Cut n m j s) (hj : j < fuel)
    (hfree : m.world.console.limit = none) : n < (program.drive fuel m).1.output.size :=
  Nat.lt_of_lt_of_le h.exceeds (program.size_drive_le hj hfree)

theorem Cut.output {j fuel : Nat} {s : Statement} (h : program.Cut n m j s) (hj : j < fuel)
    (hfree : m.world.console.limit = none) :
    (program.drive fuel (m.limited n)).1.output = (program.drive fuel m).1.output.take n := by
  obtain ⟨last, hdrive, hlast⟩ := h.stops fuel hj
  obtain ⟨more, rfl⟩ := Nat.exists_eq_add_of_le hj
  obtain ⟨added, hadded⟩ := program.drive_grows_from (j + 1) more hfree
  rw [hdrive, hadded]
  exact hlast.trans (Text.take_append (Nat.le_of_lt h.exceeds) added).symm

section Finish

theorem console_finish (m : Machine) : (finish m).console = m.world.console := by
  unfold finish
  dsimp only
  split_ifs <;> split <;> rfl

theorem finish_limited (m : Machine) (n : Nat) : finish (m.limited n) = (finish m).limited n := by
  have hswept : (m.limited n).closeAllFiles =
      (m.closeAllFiles.1.limited n, m.closeAllFiles.2) := rfl
  unfold finish
  rw [hswept]
  generalize m.closeAllFiles = swept
  dsimp only
  have hclosed (message : String) :
      (if 0 < swept.2 then (swept.1.limited n).note (programNote message)
        else swept.1.limited n) =
      Machine.limited (if 0 < swept.2 then swept.1.note (programNote message) else swept.1) n := by
    split_ifs <;> rfl
  rw [hclosed]
  generalize (if 0 < swept.2 then _ else swept.1 : Machine) = closed
  have hflush : (closed.limited n).flush = closed.flush := rfl
  rw [hflush]
  split <;> rfl

-- Whichever way a run ends, nothing is written after it.
theorem console_remains (m : Machine) (outcome : Outcome) :
    (remains m outcome).console = m.world.console := by
  cases outcome with
  | crashed | unfinished => rfl
  | finished | failed => exact console_finish m

theorem remains_limited (m : Machine) (n : Nat) (outcome : Outcome) :
    remains (m.limited n) outcome = (remains m outcome).limited n := by
  cases outcome with
  | crashed | unfinished => rfl
  | finished | failed => exact finish_limited m n

theorem output_run (program : Program) (fuel : Nat) (world : World) :
    (program.run fuel world).1.console.output =
      (program.drive fuel (program.load world)).1.output := by
  rw [run_eq, console_remains]
  rfl

end Finish

-- A console that fails cuts a run short and does nothing else to it, in a world that draws the same
-- and orders the scopes the same. What is written is a beginning of what is written without a
-- limit. As long as that fits, both runs are the same; else the limited one goes the same way up to
-- the statement whose text does not fit, and fails there.
theorem failing_console_truncates_run (program : Program) (world : World) (n : Nat) :
    let free := world.facing none
    let limited := world.facing (some n)
    (∀ fuel more, ∃ added, (program.run (fuel + more) free).1.console.output =
      (program.run fuel free).1.console.output ++ added) ∧
    ∀ fuel,
      (program.run fuel limited).1.console.output =
        (program.run fuel free).1.console.output.take n ∧
      ((program.run fuel free).1.console.output.size ≤ n →
        program.run fuel limited =
          ((program.run fuel free).1.limited n, (program.run fuel free).2)) ∧
      (n < (program.run fuel free).1.console.output.size →
        ∃ j < fuel, ∃ s, program.Cut n (program.load free) j s ∧
          ∀ later, j < later → (program.run later limited).2 =
            .overflow (program.drive j (program.load free)).1.ip s) := by
  intro free limited
  have hfree : (program.load free).world.console.limit = none := rfl
  have hempty : (program.load free).output.size ≤ n := Nat.zero_le n
  have hload : program.load limited = (program.load free).limited n := rfl
  simp only [output_run, hload]
  refine ⟨fun fuel more => program.drive_grows_from fuel more hfree, ?_⟩
  intro fuel
  rcases program.drive_limited fuel hfree hempty with ⟨hsize, hsame⟩ | ⟨j, hj, s, hcut⟩
  · refine ⟨?_, ?_, fun hover => absurd hsize (Nat.not_le.mpr hover)⟩
    · rw [hsame, Text.take_of_size_le hsize]
      rfl
    · intro _
      rw [run_eq, run_eq, hload, hsame, remains_limited]
  · refine ⟨hcut.output hj hfree, ?_, ?_⟩
    · intro hsize
      exact absurd hsize (Nat.not_le.mpr (hcut.not_fits hj hfree))
    · intro _
      refine ⟨j, hj, s, hcut, ?_⟩
      intro later hlater
      obtain ⟨last, hdrive, _⟩ := hcut.stops later hlater
      rw [run_outcome, hload, hdrive]

-- A program that writes for ever, on a console that takes seven bytes.
theorem endless_output_is_cut :
    ∃ program, compile "^top:\nPRINT 12\nGOTO top IF 1" = .ok program ∧
      let free := World.blank.facing none
      let limited := World.blank.facing (some 7)
      7 < (program.run 12 free).1.console.output.size ∧
      (program.run 12 limited).1.console.output = Text.encode "12\n12\n1" ∧
      ∃ j < 12, ∃ s, program.Cut 7 (program.load free) j s ∧
        ∀ later, j < later → (program.run later limited).2 =
          .overflow (program.drive j (program.load free)).1.ip s := by
  have hrun : (compile "^top:\nPRINT 12\nGOTO top IF 1").toOption.any (fun program =>
      7 < (program.run 12 (World.blank.facing none)).1.console.output.size &&
        (program.run 12 (World.blank.facing none)).1.console.output.take 7 =
          Text.encode "12\n12\n1") = true := by
    decide +kernel
  obtain ⟨program, hprogram, hchecked⟩ := (Option.any_eq_true _ _).mp hrun
  simp only [Bool.and_eq_true, decide_eq_true_eq] at hchecked
  obtain ⟨hover, hseven⟩ := hchecked
  obtain ⟨_, hlimited⟩ := failing_console_truncates_run program .blank 7
  obtain ⟨houtput, _, hcut⟩ := hlimited 12
  exact ⟨program, toOption_eq_some.mp hprogram, hover, houtput.trans hseven, hcut hover⟩

end Program

end LineScript

import LineScript.Machine
import LineScript.Program

namespace LineScript

-- `unfinished` is the answer of a run that was cut short.
inductive Outcome where
  | finished
  | failed (error : ProgramError)
  | crashed
  | unfinished

-- What became of one attempt to go on.
inductive Progression where
  | running (m : Machine)
  | stopped (m : Machine) (outcome : Outcome)

namespace Program

-- The labels are variables of the root scope before the first statement runs.
def load (program : Program) (world : World) : Machine :=
  let m := Machine.start world
  { m with memory :=
      program.labels.foldl (fun memory label => memory.bindLabel label.1 label.2) m.memory }

-- One step, unless the program has exited or is past its last statement.
def advance (program : Program) (m : Machine) : Progression :=
  if !m.running then .stopped m .finished
  else
    match program.statements[m.ip]? with
    | none => .stopped m .finished
    | some s =>
        match (m.announce s).step s with
        | (next, .ok ()) => .running next
        | (failed, .error (.error e)) =>
            .stopped failed (.failed (.runtime failed.ip s e (e.message failed.world.opened)))
        | (crashed, .error .crash) => .stopped crashed .crashed

def drive (program : Program) : Nat → Machine → Machine × Outcome
  | 0, m => (m, .unfinished)
  | fuel + 1, m =>
      match program.advance m with
      | .running next => program.drive fuel next
      | .stopped last outcome => (last, outcome)

def programNote (message : String) : Record := ⟨.warn, .program, message⟩

-- However a run ends, the files left open are closed and the output is flushed.
def finish (m : Machine) : World :=
  let swept := m.closeAllFiles
  let closed :=
    if 0 < swept.2 then
      swept.1.note (programNote s!"closed {swept.2} file(s) left open by the program")
    else swept.1
  match closed.flush with
  | .ok () => closed.world
  | .error e =>
      let message := "could not flush output: " ++ e.message closed.world.opened
      (closed.note (programNote message)).world

-- After a crash the memory is lost. What was still open is closed as the last copies of the handles
-- go, and nobody hears of it.
def wreck (m : Machine) : World :=
  (m.withFiles (m.world.files.release (Machine.lastCopies m.met.leaving))).world

-- A run that was cut short stays as it is. Closing the files at the end means borrowing each of
-- them.
def ending (m : Machine) : Outcome → World × Outcome
  | .crashed => (wreck m, .crashed)
  | .unfinished => (m.world, .unfinished)
  | outcome =>
      if Loans.none.grants .change m.met.handles then (finish m, outcome)
      else (wreck m, .crashed)

def run (program : Program) (fuel : Nat) (world : World) : World × Outcome :=
  let driven := program.drive fuel (program.load world)
  ending driven.1 driven.2

end Program

def World.noteAll (world : World) (records : List Record) : World :=
  { world with log := world.log.addAll records }

-- Compiles and runs a source.
def runSource (source : String) (fuel : Nat) (world : World) : World × Outcome :=
  let noted :=
    if world.log.admits .debug then world.noteAll (Program.compileLog source) else world
  match Program.compile source with
  | .error e => (noted, .failed e)
  | .ok program => program.run fuel noted

end LineScript

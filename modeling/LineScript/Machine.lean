import LineScript.Loans
import LineScript.Memory.Evaluation
import LineScript.Statement
import LineScript.Value.Comparison
import LineScript.World

namespace LineScript

-- A program in the middle of its run. `jump` is the target of a taken GOTO until the step is over.
structure Machine where
  memory : Memory
  ip : Nat
  jump : Option Nat
  running : Bool
  world : World

-- A crash is not an error of the program: nothing is reported and the run is gone.
inductive Fault where
  | error (cause : RuntimeError)
  | crash

namespace Machine

-- What was done before a fault stays done.
abbrev Result := Machine × Except Fault Unit

def start (world : World) : Machine := ⟨.fresh, 0, none, true, world⟩

def done (m : Machine) : Result := (m, .ok ())

def fail (m : Machine) (cause : RuntimeError) : Result := (m, .error (.error cause))

def withFiles (m : Machine) (files : Files) : Machine :=
  { m with world := { m.world with files := files } }

def withConsole (m : Machine) (console : Console) : Machine :=
  { m with world := { m.world with console := console } }

def note (m : Machine) (record : Record) : Machine := { m with world := m.world.note record }

def display (m : Machine) (value : Value) : String := value.display m.world.opened

def store (m : Machine) (target : Token) (value : Value) (create : Bool) : Result :=
  match m.memory.write target.text value create with
  | .ok memory => done { m with memory := memory }
  | .error e => m.fail e

def storeResult (m : Machine) (target : Token) (create : Bool) :
    Except RuntimeError Value → Result
  | .ok value => m.store target value create
  | .error e => m.fail e

-- Borrows files, one after the other, for what gives the result. A file that is lent out already
-- cannot be had, and that is a crash.
def borrowing (m : Machine) (loans : Loans) (access : Access) (handles : List Handle)
    (result : Result) : Result :=
  if loans.grants access handles then result else (m, .error .crash)

end Machine

-- The operations that only compute a new value for their target, with whether the target may be a
-- new variable.
def Operation.computed? (opened : Handle → Bool) (room : Nat) (a b : Value) :
    Operation → Option (Bool × Except RuntimeError Value)
  | .set => some (true, .ok b)
  | .add => some (false, a.add b)
  | .subtract => some (false, a.subtract b)
  | .multiply => some (false, a.multiply b)
  | .divide => some (false, a.divide b)
  | .power => some (false, a.power b)
  | .modulus => some (false, a.modulus b)
  | .logarithm => some (false, a.logarithm b)
  | .bitwiseAnd => some (false, a.bitwiseAnd b)
  | .bitwiseOr => some (false, a.bitwiseOr b)
  | .bitwiseXor => some (false, a.bitwiseXor b)
  | .bitwiseNegate => some (false, a.bitwiseNegate)
  | .round => some (false, a.round)
  | .append => some (false, a.append opened b)
  | .list => some (true, Value.nulls room b)
  | .size => some (true, b.size)
  | .type => some (true, .ok (.string b.type.name))
  | _ => none

-- What a TEST finds out.
def Operation.tested? (a b : Value) : Operation → Option Value
  | .testGreaterThan => some (a.greaterThan b)
  | .testLessThan => some (a.lessThan b)
  | .testEqual => some (.ofBool (a.equals b))
  | .testNotEqual => some (.ofBool (!a.equals b))
  | _ => none

-- The files that an operation looks at to show its operands or to compare them.
def Operation.looksAt (a b : Value) : Operation → List Handle
  | .append =>
      match a with
      | .string _ => b.handles
      | _ => []
  | .testEqual | .testNotEqual => a.compared b
  | .goto => b.compared (.integer 0)
  | .print => a.handles
  | _ => []

namespace Machine

def test (m : Machine) (a b outcome : Value) : Result :=
  match outcome with
  | .incomparable => m.fail (.incomparable a.type b.type)
  | _ => m.store ⟨.name, Scope.result⟩ outcome true

-- An integer below an integer bound, which is zero for the bound zero; a fraction of a float
-- bound.
def random (m : Machine) (target : Token) (bound : Value) : Result :=
  let drawn (random : Random) : Machine := { m with world := { m.world with random := random } }
  match bound with
  | .integer n =>
      match Number.toIndex? n with
      | none => m.fail (.outOfRange bound .bound)
      | some 0 => m.store target (.integer 0) true
      | some limit =>
          let draw := m.world.random.below limit
          (drawn draw.2).store target (.integer (Number.saturate draw.1)) true
  | .float x =>
      let draw := m.world.random.unit
      (drawn draw.2).store target (.float (draw.1 * x)) true
  | _ => m.fail (.wrongType .number bound.type)

def openFile (m : Machine) (operation : Operation) (target : Token) (name : Value) : Result :=
  match name with
  | .string text =>
      let opened :=
        if operation = .openRead then
          (m.world.files.openRead text).map fun given => (given.1, given.2, Value.reader given.2)
        else
          (m.world.files.openWrite text).map fun given => (given.1, given.2, Value.writer given.2)
      match opened with
      | .error e => m.fail e
      | .ok (files, handle, value) =>
          let ready := m.withFiles files
          let noted := ready.note ⟨.debug, .fileOpening, "opened " ++ ready.display value⟩
          ready.borrowing .none .look value.handles
            (match noted.store target value true with
            | (stored, .ok ()) => stored.done
            | (unstored, fault) => (unstored.withFiles (files.close handle).1, fault))
  | _ => m.fail (.wrongType .string name.type)

def closeFile (m : Machine) (target : Token) (file : Value) : Result :=
  match file.handle? with
  | some handle =>
      m.borrowing .none .change [handle]
        (match m.world.files.close handle with
        | (files, .ok ()) => (m.withFiles files).store target .null false
        | (files, .error e) => (m.withFiles files).fail e)
  | none => m.fail (.wrongType .file file.type)

-- At the end of the file the handle is closed, and the file variable and the target become null.
-- The file is borrowed once to read the line, and once more to close it.
def readFrom (m : Machine) (fileToken : Token) (file : Value) (target : Token) : Result :=
  match file with
  | .reader handle =>
      m.borrowing .none .change [handle]
        (match m.world.files.readLine handle with
        | (files, .error e) => (m.withFiles files).fail e
        | (files, .ok (some line)) => (m.withFiles files).store target (.ofLine line) true
        | (files, .ok none) =>
            (m.withFiles files).borrowing .none .change [handle]
              (match (m.withFiles (files.close handle).1).store fileToken .null false with
              | (closed, .ok ()) => closed.store target .null true
              | failed => failed))
  | _ => m.fail (.wrongType .reader file.type)

-- The file is borrowed first, and the line is made while it is.
def writeTo (m : Machine) (file value : Value) : Result :=
  match file with
  | .writer handle =>
      m.borrowing .none .change [handle]
        (m.borrowing (Loans.none.lend handle .change) .look value.handles
          (match m.world.files.writeLine handle (m.display value) with
          | (files, .ok ()) => (m.withFiles files).done
          | (files, .error e) => (m.withFiles files).fail e))
  | _ => m.fail (.wrongType .writer file.type)

def say (m : Machine) (text : String) : Result :=
  match m.world.console.write text with
  | (console, .ok ()) => (m.withConsole console).done
  | (console, .error e) => (m.withConsole console).fail (.console e)

-- A reply that is a number or a list is taken as such, and any other as a text.
def replyValue (memory : Memory) (reply : String) : Except RuntimeError Value :=
  match Token.readSingle reply with
  | .ok token =>
      if token.kind = .number ∨ token.kind = .list then memory.evaluate token
      else .ok (.string reply)
  | .error _ => .ok (.string reply)

def flush (m : Machine) : Except RuntimeError Unit :=
  m.world.console.flush.mapError .console

def ask (m : Machine) (target : Token) (prompt : Value) : Result :=
  match prompt with
  | .string text =>
      match m.say text with
      | (asked, .error fault) => (asked, .error fault)
      | (asked, .ok ()) =>
          match asked.flush with
          | .error e => asked.fail e
          | .ok () =>
              match asked.world.console.readLine with
              | (console, .error e) => (asked.withConsole console).fail (.console e)
              | (console, .ok reply) =>
                  let told := asked.withConsole console
                  told.storeResult target true (replyValue told.memory reply)
  | _ => m.fail (.wrongType .string prompt.type)

-- The last statement a GOTO can name.
def lastTarget : Nat := Number.twoTo 31 - 1

-- The jump is only scheduled here, and only if the condition is not zero.
def goto (m : Machine) (target condition : Value) : Result :=
  match target with
  | .integer n =>
      match Number.toIndex? n with
      | none => m.fail (.outOfRange target .statementIndex)
      | some index =>
          if lastTarget < index then m.fail (.outOfRange target .statementIndex)
          else if condition.equals (.integer 0) then m.done
          else done { m with jump := some index }
  | _ => m.fail (.wrongType .integer target.type)

-- How long a WAIT takes. Time itself passes outside the machine.
def waitingTime (seconds : Value) : Except RuntimeError Number.Duration :=
  match seconds.toFloat? with
  | none => .error (.wrongType .number seconds.type)
  | some x =>
      match Number.Duration.ofSeconds? x with
      | some duration => .ok duration
      | none => .error (.outOfRange seconds .seconds)

-- What an operation does with evaluated operands.
def act (m : Machine) (s : Statement) (target : Token) (a b : Value) : Result :=
  match s.operation.computed? m.world.opened m.world.room a b with
  | some (create, result) => m.storeResult target create result
  | none =>
      match s.operation.tested? a b with
      | some outcome => m.test a b outcome
      | none =>
          match s.operation with
          | .random => m.random target b
          | .openRead | .openWrite => m.openFile s.operation target b
          | .close => m.closeFile target a
          | .read => m.readFrom target a (s.secondary.getD .null)
          | .write => m.writeTo a b
          | .input => m.ask target b
          | .print => m.say (m.display a ++ "\n")
          | .scopeOpen => done { m with memory := m.memory.openScope }
          | .scopeClose =>
              match m.memory.closeScope with
              | .ok memory => done { m with memory := memory, world := m.world.pastOrder }
              | .error e => m.fail e
          | .wait =>
              match waitingTime a with
              | .ok _ => m.done
              | .error e => m.fail e
          | .goto => m.goto a b
          | .exit => done { m with running := false }
          | .error => m.fail (.raised a)
          | _ => m.done

def perform (m : Machine) (s : Statement) (target : Token) (a b : Value) : Result :=
  m.borrowing .none .look (s.operation.looksAt a b) (m.act s target a b)

-- Memory with the variables in the order in which they are met.
def met (m : Machine) : Memory := m.memory.arranged m.world.orders

-- Each handle once, where its last copy stands.
def lastCopies (handles : List Handle) : List Handle := handles.reverse.eraseDups.reverse

-- Of the files that are let go, those are closed that memory no longer holds, each as the last copy
-- of its handle goes.
def release (m : Machine) (leaving : List Handle) : Machine :=
  if m.world.files.anyOpen then
    let held := m.memory.handles
    let dropped := leaving.filter fun handle => !held.contains handle
    m.withFiles (m.world.files.release (lastCopies dropped))
  else m

-- What a statement can let go of: the variables it overwrites and the scope it closes, and then the
-- operands, which are copies of their own. A closed scope goes before the old `return` of the scope
-- below.
def leaving (m : Machine) (a b : Value) : List Handle :=
  m.met.leaving ++ (b.handles ++ a.handles)

-- Both operands are evaluated before anything happens; an absent one is null.
def attempt (m : Machine) (s : Statement) : Result :=
  let target := s.primary.getD .null
  match m.memory.evaluate target with
  | .error e => m.fail e
  | .ok a =>
      match m.memory.evaluateOperand s.secondary with
      | .error e => m.fail e
      | .ok b =>
          let result := m.perform s target a b
          (result.1.release (m.leaving a b), result.2)

-- The text of an error shows the values that it names.
def Result.told (result : Result) : Result :=
  match result.2 with
  | .ok () => result
  | .error (.error e) => result.1.borrowing .none .look e.handles result
  | .error .crash => result

def execute (m : Machine) (s : Statement) : Result := (m.attempt s).told

-- A failed statement leaves the machine where it was.
def step (m : Machine) (s : Statement) : Result :=
  match m.execute s with
  | (next, .ok ()) => done { next with ip := next.jump.getD (next.ip + 1), jump := none }
  | failed => failed

def padLeft (width : Nat) (text : String) : String :=
  "".pushn ' ' (width - text.length) ++ text

-- The trace of a step, written before it is made.
def announce (m : Machine) (s : Statement) : Machine :=
  if m.world.log.admits .trace then
    m.note ⟨.trace, .machine, padLeft 4 (toString m.ip) ++ ": " ++ s.display⟩
  else m

-- Closes every file that memory still holds, and tells of what could not be closed.
def closeAllFiles (m : Machine) : Machine × Nat :=
  let sweep := m.world.files.sweep m.met.values
  let warnings := sweep.failures.map fun e =>
    (⟨.warn, .memory, e.message sweep.files.isOpen⟩ : Record)
  let swept := m.withFiles sweep.files
  ({ swept with world := { swept.world with log := swept.world.log.addAll warnings } },
    sweep.closed)

end Machine

end LineScript

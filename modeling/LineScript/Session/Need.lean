import LineScript.Session

namespace LineScript

-- What the next step needs of the outside: another line of input, a look at a file that is about
-- to be opened, or time to pass.
inductive Need where
  | nothing
  | line
  | file (name : String) (create : Bool)
  | pause (duration : Number.Duration)
deriving DecidableEq, Repr

-- A statement whose operands fail needs nothing; it fails.
def Machine.need (m : Machine) (s : Statement) : Need :=
  match s.operation with
  | .input => if m.world.console.input.contains Text.newline then .nothing else .line
  | .openRead | .openWrite =>
      match m.memory.evaluateOperand s.secondary with
      | .ok (.string name) => .file name (s.operation = .openWrite)
      | _ => .nothing
  | .wait =>
      match (m.memory.evaluateOperand s.primary).bind Machine.waitingTime with
      | .ok duration => .pause duration
      | .error _ => .nothing
  | _ => .nothing

namespace Session

def need (session : Session) : Need :=
  match session.stage with
  | .between _ (.file path :: _) => .file path false
  | .running program m _ =>
      match program.statements[m.ip]? with
      | some s => if m.running then m.need s else .nothing
      | none => .nothing
  | _ => .nothing

def world? (session : Session) : Option World :=
  match session.stage with
  | .between world _ | .ended world _ => some world
  | .running _ m _ => some m.world
  | .crashed => session.wreck

def mapWorld (session : Session) (change : World → World) : Session :=
  { session with
    stage :=
      match session.stage with
      | .between world tasks => .between (change world) tasks
      | .running program m tasks => .running program { m with world := change m.world } tasks
      | .ended world code => .ended (change world) code
      | .crashed => .crashed }

def addInput (session : Session) (bytes : Text.Bytes) : Session :=
  session.mapWorld fun world =>
    { world with console := { world.console with input := world.console.input ++ bytes.toList } }

def mapDisk (session : Session) (change : Disk → Disk) : Session :=
  session.mapWorld fun world =>
    { world with files := { world.files with disk := change world.files.disk } }

end Session

end LineScript

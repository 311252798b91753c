import LineScript.Arguments
import LineScript.Run

namespace LineScript

-- Source files carry this extension.
def sourceExtension : String := "bna"

-- The extension of the last component. A leading dot does not start one.
def extension? (path : String) : Option String :=
  let components := (Disk.splitName path).filter fun component => component ≠ "" ∧ component ≠ "."
  match components.getLast? with
  | none => none
  | some component =>
      if component = ".." then none
      else
        let backwards := component.toList.reverse
        let written := backwards.takeWhile (· ≠ '.')
        if written.length + 1 < backwards.length then some (String.ofList written.reverse) else none

-- The text of a source file.
def Disk.readText (disk : Disk) (path : String) : Except IoError String :=
  (disk.find path).bind fun found =>
    if disk.node? found = some .directory then .error .isADirectory
    else
      match Text.decode? (disk.content found) with
      | some text => .ok text
      | none => .error .invalidEncoding

def World.readSource (world : World) (path : String) : World × Except ProgramError String :=
  match world.files.disk.readText path with
  | .ok source => (world.note ⟨.info, .session, "running " ++ path⟩, .ok source)
  | .error e => (world, .error (.unreadable path e))

-- Reads and runs a source file.
def runFile (path : String) (fuel : Nat) (world : World) : World × Outcome :=
  match world.readSource path with
  | (noted, .ok source) => runSource source fuel noted
  | (same, .error e) => (same, .failed e)

-- What is still to be run.
inductive Task where
  | script (source : String)
  | file (path : String)
deriving DecidableEq, Repr

inductive Stage where
  | between (world : World) (tasks : List Task)
  | running (program : Program) (machine : Machine) (tasks : List Task)
  | ended (world : World) (code : Nat)
  | crashed

-- A use of the command line, with what it has printed so far, and with the world that a crash has
-- left behind.
structure Session where
  stage : Stage
  printed : Text.Bytes
  complaints : String
  wreck : Option World := none

namespace Session

def versionText : String := "bna 0.1.0\n"

def usageText : String := "usage"

-- The level of the log: the environment's word for it if it is one, else what the options say.
def threshold (options : Options) (environment : Option String) : Option Level :=
  let byOptions : Option Level := some (if options.verbose then .debug else .warn)
  match environment with
  | none => byOptions
  | some word =>
      if Text.sameIgnoringCase word "off" then none
      else
        match Level.all.find? fun level => Text.sameIgnoringCase level.name word with
        | some level => some level
        | none => byOptions

def tasks (options : Options) : List Task :=
  if options.files then options.contents.map .file
  else [.script ("\n".intercalate options.contents)]

-- `environment` is the log level asked for from outside.
def start (arguments : List String) (environment : Option String) (world : World) : Session :=
  match Command.ofArguments arguments with
  | .run options =>
      let logging := { world with log := .upTo (threshold options environment) }
      { stage := .between logging (tasks options), printed := #[], complaints := "" }
  | .version =>
      { stage := .ended world 0, printed := Text.encode versionText, complaints := "" }
  | .misuse => { stage := .ended world 2, printed := #[], complaints := usageText }

-- Log lines come before the output of the step they belong to.
def printable (world : World) : Text.Bytes × World :=
  let lines := world.log.records.foldl (fun text record => text ++ record.line ++ "\n") ""
  let drained := world.console.drain
  (Text.encode lines ++ drained.1,
    { world with console := drained.2, log := .upTo world.log.threshold })

def goOn (session : Session) (world : World) (stage : World → Stage) : Session :=
  let output := printable world
  { session with stage := stage output.2, printed := session.printed ++ output.1 }

def complain (session : Session) (text : String) : Session :=
  { session with complaints := session.complaints ++ text ++ "\n" }

def stop (session : Session) (world : World) (error : ProgramError) : Session :=
  (session.complain error.display).goOn world (.ended · error.exitCode)

def startSource (session : Session) (world : World) (source : String) (rest : List Task) :
    Session :=
  let noted :=
    if world.log.admits .debug then world.noteAll (Program.compileLog source) else world
  match Program.compile source with
  | .ok program => session.goOn noted fun world => .running program (program.load world) rest
  | .error e => session.stop noted e

def startTask (session : Session) (world : World) (task : Task) (rest : List Task) : Session :=
  match task with
  | .script source => session.startSource world source rest
  | .file path =>
      if extension? path = some sourceExtension then
        match world.readSource path with
        | (noted, .ok source) => session.startSource noted source rest
        | (same, .error e) => session.stop same e
      else
        (session.complain s!"'{path}' is not a .{sourceExtension} file.").goOn world (.ended · 64)

-- One small step: a task is started, or a statement of the running program executed.
def advance (session : Session) : Session :=
  match session.stage with
  | .between world [] => { session with stage := .ended world 0 }
  | .between world (task :: rest) => session.startTask world task rest
  | .running program machine rest =>
      match program.advance machine with
      | .running next =>
          session.goOn next.world fun world => .running program { next with world := world } rest
      | .stopped last outcome =>
          match Program.ending last outcome with
          | (world, .failed error) => session.stop world error
          | (world, .crashed) => { session with stage := .crashed, wreck := some world }
          | (world, .finished) | (world, .unfinished) => session.goOn world (.between · rest)
  | .ended .. | .crashed => session

def run (session : Session) : Nat → Session
  | 0 => session
  | fuel + 1 =>
      match session.stage with
      | .ended .. | .crashed => session
      | _ => session.advance.run fuel

end Session

end LineScript

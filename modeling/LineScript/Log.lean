namespace LineScript

inductive Level where
  | error
  | warn
  | info
  | debug
  | trace
deriving DecidableEq, Repr

namespace Level

def all : List Level := [error, warn, info, debug, trace]

def rank : Level → Nat
  | error => 1
  | warn => 2
  | info => 3
  | debug => 4
  | trace => 5

def name : Level → String
  | error => "ERROR"
  | warn => "WARN"
  | info => "INFO"
  | debug => "DEBUG"
  | trace => "TRACE"

end Level

-- The part of the interpreter a record comes from.
inductive Origin where
  | session
  | compiler
  | machine
  | fileOpening
  | memory
  | program
deriving DecidableEq, Repr

def Origin.path : Origin → String
  | session => "bna"
  | compiler => "bna::interpreter::compiler"
  | machine => "bna::interpreter::instruction::core"
  | fileOpening => "bna::interpreter::instruction::io"
  | memory => "bna::interpreter::memory"
  | program => "bna::interpreter::program"

structure Record where
  level : Level
  origin : Origin
  message : String
deriving DecidableEq, Repr

-- The level is padded so that the paths line up.
def Record.line (record : Record) : String :=
  let name := record.level.name
  name ++ "".pushn ' ' (5 - name.length) ++ " [" ++ record.origin.path ++ "] " ++ record.message

-- The records kept, and the least urgent level that is kept.
structure Log where
  threshold : Option Level
  records : Array Record
deriving Repr

namespace Log

def upTo (threshold : Option Level) : Log := ⟨threshold, #[]⟩

def admits (log : Log) (level : Level) : Bool :=
  match log.threshold with
  | some threshold => level.rank ≤ threshold.rank
  | none => false

def add (log : Log) (record : Record) : Log :=
  if log.admits record.level then { log with records := log.records.push record } else log

def addAll (log : Log) (records : List Record) : Log := records.foldl add log

end Log

end LineScript

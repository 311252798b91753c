import LineScript.Log
import LineScript.Memory
import LineScript.ProgramError
import LineScript.Statement.Reading
import LineScript.Text.Line

namespace LineScript

-- Statement `n` is that of source line `n`; statement 0 is an empty one before the first line.
-- Labels are found by their lower-cased names.
structure Program where
  statements : Array Statement
  labels : List (String × Nat)
deriving Repr

namespace Program

def empty : Program := ⟨#[], []⟩

def label? (program : Program) (name : String) : Option Nat :=
  program.labels.lookup (Memory.key name)

def labelName? (s : Statement) : Option String :=
  if s.operation = .label then s.operand1.map (·.text) else none

-- Adds the statement of the next line, and its label if it declares one.
def addStatement (program : Program) (s : Statement) : Except CompileError Program :=
  let statements := program.statements.push s
  match labelName? s with
  | none => .ok { program with statements := statements }
  | some name =>
      match program.label? name with
      | some first => .error (.duplicateLabel name first)
      | none =>
          .ok ⟨statements, program.labels ++ [(Memory.key name, program.statements.size)]⟩

def addLine (program : Program) (line : String) : Except CompileError Program :=
  (Statement.read line).bind program.addStatement

def addLines (program : Program) : List String → Except ProgramError Program
  | [] => .ok program
  | line :: rest =>
      match program.addLine line with
      | .ok extended => extended.addLines rest
      | .error e => .error (.compile program.statements.size line e)

def sourceLines (source : String) : List String := "" :: Text.lines source

def compile (source : String) : Except ProgramError Program := empty.addLines (sourceLines source)

def compilerNote (message : String) : Record := ⟨.debug, .compiler, message⟩

-- What is logged while a line is read: its tokens if it has them, then its statement.
def lineLog (line : String) : List Record :=
  match Token.readAll line with
  | .error _ => []
  | .ok tokens =>
      compilerNote ("tokens: " ++ " | ".intercalate (tokens.map Token.display)) ::
        match Statement.ofTokens tokens line with
        | .error _ => []
        | .ok s => [compilerNote ("statement: " ++ s.display)]

def linesLog (program : Program) : List String → List Record
  | [] =>
      let statements := program.statements.size
      [compilerNote s!"compiled {statements} statements, {program.labels.length} labels"]
  | line :: rest =>
      lineLog line ++
        match program.addLine line with
        | .ok extended => extended.linesLog rest
        | .error _ => []

def compileLog (source : String) : List Record := empty.linesLog (sourceLines source)

end Program

end LineScript

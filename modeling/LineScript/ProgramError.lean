import LineScript.CompileError
import LineScript.RuntimeError
import LineScript.Statement

namespace LineScript

-- How a run failed, with where it did. The text of a runtime error is the one it had at that
-- moment: files it names may be closed later.
inductive ProgramError where
  | compile (line : Nat) (text : String) (cause : CompileError)
  | runtime (line : Nat) (statement : Statement) (cause : RuntimeError) (message : String)
  | unreadable (path : String) (cause : IoError)

namespace ProgramError

def message : ProgramError → String
  | compile _ _ cause => cause.message
  | runtime _ _ _ message => message
  | unreadable _ cause => cause.message

def display : ProgramError → String
  | compile line text cause =>
      s!"Compile error on line {line}: {cause.message}\n  {line} | {text}"
  | runtime line statement _ message =>
      s!"Runtime error on line {line}: {message}\n  {line} | {statement.line}\n" ++
        s!"  Statement: {statement.display}"
  | unreadable path cause => s!"Failed to read '{path}': {cause.message}"

-- The texts of an error's causes, the nearest first.
def causes : ProgramError → List String
  | compile _ _ cause => [cause.message]
  | runtime _ _ cause message => message :: cause.cause?.toList.map IoError.message
  | unreadable _ cause => [cause.message]

def exitCode : ProgramError → Nat
  | compile .. => 2
  | runtime _ _ (.raised _) _ => 1
  | runtime _ _ .stringAssignment _ => 8
  | runtime .. => 4
  | unreadable .. => 64

end ProgramError

end LineScript

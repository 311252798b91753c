import LineScript.Expectation

namespace LineScript

-- Why a line is no statement, or a source no program.
inductive CompileError where
  | invalidToken (text : String)
  | missingTerminator (terminator : Char)
  | unexpectedSymbol (symbol : Char)
  | illegalToken (text : String)
  | unexpectedToken (found : String) (expected : List Expectation)
  | missingToken (expected : List Expectation)
  | statementNotEnded (extra : String)
  | invalidStart (text : String)
  | duplicateLabel (name : String) (firstLine : Nat)
deriving DecidableEq, Repr

def CompileError.message : CompileError → String
  | invalidToken text => s!"Invalid token: '{text}'."
  | missingTerminator terminator =>
      s!"Missing terminator: expected '{terminator}' before the end of the line."
  | unexpectedSymbol symbol => s!"Unexpected symbol: '{symbol}'."
  | illegalToken text => s!"Illegal token in list: '{text}'."
  | unexpectedToken found expected =>
      s!"Unexpected token: found '{found}', expected {Expectation.describe expected}."
  | missingToken expected =>
      s!"Statement ended too early: expected {Expectation.describe expected}."
  | statementNotEnded extra => s!"Statement did not end correctly: unexpected '{extra}'."
  | invalidStart text => s!"Invalid start of statement: '{text}'."
  | duplicateLabel name firstLine =>
      s!"Label '{name}' is already declared on line {firstLine}."

end LineScript

import LineScript.Grammar
import LineScript.Token.Reading

namespace LineScript

-- A production that has been followed up to `remaining`, and the operands met so far.
structure Progress where
  remaining : List Part
  operation : Operation
  operand1 : Option Token
  operand2 : Option Token

namespace Progress

def start (production : Production) : Progress :=
  ⟨production.parts, production.operation, none, none⟩

def expectations (progress : Progress) : List Expectation :=
  match progress.remaining with
  | [] => []
  | part :: _ => part.expectations

def advance? (progress : Progress) (token : Token) : Option Progress :=
  match progress.remaining with
  | [] => none
  | part :: rest =>
      if part.expectations.any (·.accepts token) then
        some <| match part with
          | .fixed _ => { progress with remaining := rest }
          | .operand1 _ => { progress with remaining := rest, operand1 := some token }
          | .operand2 _ => { progress with remaining := rest, operand2 := some token }
      else none

def complete? (active : List Progress) : Option Progress :=
  active.find? (·.remaining.isEmpty)

-- Everything that could stand next, each once.
def expected (active : List Progress) : List Expectation :=
  (active.flatMap expectations).eraseDups

end Progress

-- After a statement there is nothing, or one comment.
def checkEnd : List Token → Except CompileError Unit
  | [] => .ok ()
  | [token] => if token.kind = .comment then .ok () else .error (.statementNotEnded token.text)
  | token :: extra :: _ =>
      .error (.statementNotEnded (if token.kind = .comment then extra.text else token.text))

-- Follows all productions that still fit, side by side. No production begins with another one, so
-- the first one that is complete is the only one left.
def follow (line : String) (active : List Progress) (tokens : List Token) :
    Except CompileError Statement :=
  match Progress.complete? active with
  | some done =>
      (checkEnd tokens).map fun _ => ⟨done.operation, done.operand1, done.operand2, line⟩
  | none =>
      match tokens with
      | [] => .error (.missingToken (Progress.expected active))
      | token :: rest =>
          match active.filterMap (·.advance? token) with
          | [] => .error (.unexpectedToken token.text (Progress.expected active))
          | advanced => follow line advanced rest

def Statement.ofTokens (tokens : List Token) (line : String) : Except CompileError Statement :=
  match tokens with
  | [] => .ok (.null line)
  | first :: rest =>
      if first.kind = .comment then .ok (.null line)
      else
        match Grammar.productions.filter (·.start.accepts first) with
        | [] => .error (.invalidStart first.text)
        | fitting => follow line (fitting.map Progress.start) rest

def Statement.read (line : String) : Except CompileError Statement :=
  (Token.readAll line).bind (Statement.ofTokens · line)

end LineScript

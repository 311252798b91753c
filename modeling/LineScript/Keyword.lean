import LineScript.Text.Lowercase

namespace LineScript

-- The reserved words. The first ones start a statement, the last eight only stand inside one.
inductive Keyword where
  | SET | ADD | SUBTRACT | MULTIPLY | DIVIDE | WAIT | RANDOM | TEST | GOTO
  | OR | AND | XOR | NEGATE | RAISE | MOD | LOG | ROUND
  | LIST | APPEND | SIZE | OPEN | CLOSE | READ | WRITE | INPUT | PRINT | TYPE
  | EXIT | ERROR | SCOPE
  | TO | BY | FROM | MAX | IF | WITH | OF | AS
deriving DecidableEq, Repr

namespace Keyword

def all : List Keyword :=
  [SET, ADD, SUBTRACT, MULTIPLY, DIVIDE, WAIT, RANDOM, TEST, GOTO,
   OR, AND, XOR, NEGATE, RAISE, MOD, LOG, ROUND,
   LIST, APPEND, SIZE, OPEN, CLOSE, READ, WRITE, INPUT, PRINT, TYPE,
   EXIT, ERROR, SCOPE,
   TO, BY, FROM, MAX, IF, WITH, OF, AS]

def text : Keyword → String
  | SET => "SET"
  | ADD => "ADD"
  | SUBTRACT => "SUBTRACT"
  | MULTIPLY => "MULTIPLY"
  | DIVIDE => "DIVIDE"
  | WAIT => "WAIT"
  | RANDOM => "RANDOM"
  | TEST => "TEST"
  | GOTO => "GOTO"
  | OR => "OR"
  | AND => "AND"
  | XOR => "XOR"
  | NEGATE => "NEGATE"
  | RAISE => "RAISE"
  | MOD => "MOD"
  | LOG => "LOG"
  | ROUND => "ROUND"
  | LIST => "LIST"
  | APPEND => "APPEND"
  | SIZE => "SIZE"
  | OPEN => "OPEN"
  | CLOSE => "CLOSE"
  | READ => "READ"
  | WRITE => "WRITE"
  | INPUT => "INPUT"
  | PRINT => "PRINT"
  | TYPE => "TYPE"
  | EXIT => "EXIT"
  | ERROR => "ERROR"
  | SCOPE => "SCOPE"
  | TO => "TO"
  | BY => "BY"
  | FROM => "FROM"
  | MAX => "MAX"
  | IF => "IF"
  | WITH => "WITH"
  | OF => "OF"
  | AS => "AS"

def ofText? (text : String) : Option Keyword :=
  all.find? fun keyword => Text.sameIgnoringCase keyword.text text

theorem sameIgnoringCase_of_ofText? {text : String} {keyword : Keyword}
    (h : ofText? text = some keyword) : Text.sameIgnoringCase keyword.text text = true := by
  unfold ofText? at h
  exact (List.find?_eq_some_iff_append.mp h).1

end Keyword

end LineScript

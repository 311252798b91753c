import LineScript.Token

namespace LineScript

-- `null` stands for an empty line or one that only holds a comment.
inductive Operation where
  | null | label
  | set | add | subtract | multiply | divide | random
  | bitwiseOr | bitwiseAnd | bitwiseXor | bitwiseNegate
  | power | modulus | logarithm | round
  | list | append | size
  | openRead | openWrite | close | read | write | input | print
  | testGreaterThan | testLessThan | testEqual | testNotEqual
  | scopeOpen | scopeClose | wait | goto | type | exit | error
deriving DecidableEq, Repr

namespace Operation

def all : List Operation :=
  [null, label, set, add, subtract, multiply, divide, random,
   bitwiseOr, bitwiseAnd, bitwiseXor, bitwiseNegate, power, modulus, logarithm, round,
   list, append, size, openRead, openWrite, close, read, write, input, print,
   testGreaterThan, testLessThan, testEqual, testNotEqual,
   scopeOpen, scopeClose, wait, goto, type, exit, error]

def name : Operation → String
  | null => "NULL"
  | label => "LABEL"
  | set => "SET"
  | add => "ADD"
  | subtract => "SUBTRACT"
  | multiply => "MULTIPLY"
  | divide => "DIVIDE"
  | random => "RANDOM"
  | bitwiseOr => "BITWISE_OR"
  | bitwiseAnd => "BITWISE_AND"
  | bitwiseXor => "BITWISE_XOR"
  | bitwiseNegate => "BITWISE_NEGATE"
  | power => "POWER"
  | modulus => "MODULUS"
  | logarithm => "LOGARITHM"
  | round => "ROUND"
  | list => "LIST"
  | append => "APPEND"
  | size => "SIZE"
  | openRead => "OPEN_READ"
  | openWrite => "OPEN_WRITE"
  | close => "CLOSE"
  | read => "READ"
  | write => "WRITE"
  | input => "INPUT"
  | print => "PRINT"
  | testGreaterThan => "TEST_GREATER_THAN"
  | testLessThan => "TEST_LESS_THAN"
  | testEqual => "TEST_EQUAL"
  | testNotEqual => "TEST_NOT_EQUAL"
  | scopeOpen => "SCOPE_OPEN"
  | scopeClose => "SCOPE_CLOSE"
  | wait => "WAIT"
  | goto => "GOTO"
  | type => "TYPE"
  | exit => "EXIT"
  | error => "ERROR"

def ofName? (text : String) : Option Operation :=
  all.find? fun operation => operation.name == text

end Operation

-- One line of a program. The operands are slots of the written form; which of them the operation
-- acts on is told by `primary` and `secondary`.
structure Statement where
  operation : Operation
  operand1 : Option Token
  operand2 : Option Token
  line : String
deriving DecidableEq, Repr

namespace Statement

def null (line : String) : Statement := ⟨.null, none, none, line⟩

-- What the operation acts on.
def primary (s : Statement) : Option Token :=
  match s.operation with
  | .read | .print | .wait | .error => s.operand2
  | _ => s.operand1

-- What it takes as its argument.
def secondary (s : Statement) : Option Token :=
  match s.operation with
  | .read => s.operand1
  | .print | .wait | .error | .round | .close | .bitwiseNegate => none
  | _ => s.operand2

def display (s : Statement) : String :=
  [s.operand1, s.operand2].foldl
    (fun text operand => match operand with
      | some token => text ++ " " ++ token.display
      | none => text)
    ("[" ++ s.operation.name ++ "]")

end Statement

end LineScript

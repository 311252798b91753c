import LineScript.IoError
import LineScript.Token
import LineScript.Value

namespace LineScript

-- What an operation asks of an operand's type.
inductive Requirement where
  | integer
  | number
  | string
  | reader
  | writer
  | file
deriving DecidableEq, Repr

def Requirement.text : Requirement → String
  | integer => "INTEGER"
  | number => "INTEGER or FLOAT"
  | string => "STRING"
  | reader => "READFILE"
  | writer => "WRITEFILE"
  | file => "READFILE or WRITEFILE"

-- What an operation asks of a value that has the right type.
inductive ValueRange where
  | index
  | statementIndex
  | bound
  | size
  | memory
  | seconds
deriving DecidableEq, Repr

def ValueRange.text : ValueRange → String
  | index => "a valid index"
  | statementIndex => "a valid statement index"
  | bound => "a non-negative bound"
  | size => "a non-negative size"
  | memory => "a list size that fits in memory"
  | seconds => "a non-negative number of seconds"

inductive Operator where
  | add | subtract | multiply | divide | modulus | power | logarithm | round
  | and | or | xor | negate | append | size
deriving DecidableEq, Repr

def Operator.text : Operator → String
  | add => "+"
  | subtract => "-"
  | multiply => "*"
  | divide => "/"
  | modulus => "MOD"
  | power => "POW"
  | logarithm => "LOG"
  | round => "ROUND"
  | and => "AND"
  | or => "OR"
  | xor => "XOR"
  | negate => "NEGATE"
  | append => "APPEND"
  | size => "SIZE"

-- Why a statement failed. Values are kept as they are; their text is made by `message`.
inductive RuntimeError where
  | undefined (operator : Operator) (left : ValueType) (right : Option ValueType)
  | wrongType (required : Requirement) (found : ValueType)
  | notAValue (found : TokenKind)
  | malformedLiteral (found : TokenKind)
  | invalidIndex (index : Value)
  | outOfRange (value : Value) (range : ValueRange)
  | notIndexable (name : String)
  | unboundVariable (name : String)
  | finalScope
  | stringAssignment
  | raised (value : Value)
  | incomparable (left right : ValueType)
  | divisionByZero
  | file (name : String) (cause : IoError)
  | fileClosed (name : String)
  | console (cause : IoError)

namespace RuntimeError

def message (opened : Handle → Bool) : RuntimeError → String
  | undefined operator left (some right) =>
      s!"Undefined operation: {left.name} {operator.text} {right.name}."
  | undefined operator left none => s!"Undefined operation: {operator.text} {left.name}."
  | wrongType required found =>
      s!"Incorrect operand type: expected {required.text}, found {found.name}."
  | notAValue found => s!"Incorrect operand type: expected a value, found {found.label}."
  | malformedLiteral found =>
      s!"Incorrect operand type: expected a well-formed literal, found {found.label}."
  | invalidIndex index =>
      s!"Invalid index '{index.display opened}': an index must be an INTEGER."
  | outOfRange value range => s!"Value out of range: {value.display opened} is not {range.text}."
  | notIndexable name => s!"Value of '{name}' cannot be indexed."
  | unboundVariable name => s!"Variable '{name}' does not exist in the current scope."
  | finalScope => "Cannot close the final scope."
  | stringAssignment => "Not implemented: assigning to an index of a STRING."
  | raised value => value.display opened
  | incomparable left right =>
      s!"Could not compare operands of type {left.name} and {right.name}."
  | divisionByZero => "Division by zero."
  | file name cause => s!"File error on '{name}': {cause.message}."
  | fileClosed name => s!"File '{name}' is not open."
  | console cause => s!"Console IO failed: {cause.message}."

-- The files that are shown in the text of an error.
def handles : RuntimeError → List Handle
  | invalidIndex value | outOfRange value _ | raised value => value.handles
  | _ => []

-- The failure of the outside world behind an error, if there is one.
def cause? : RuntimeError → Option IoError
  | file _ cause | console cause => some cause
  | _ => none

end RuntimeError

end LineScript

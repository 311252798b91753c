import LineScript.Expectation
import LineScript.Statement

namespace LineScript

-- One position of a production: a fixed word or symbol, or a token kept as an operand.
inductive Part where
  | fixed (expectation : Expectation)
  | operand1 (kinds : List TokenKind)
  | operand2 (kinds : List TokenKind)
deriving DecidableEq, Repr

def Part.expectations : Part → List Expectation
  | .fixed expectation => [expectation]
  | .operand1 kinds | .operand2 kinds => kinds.map .kind

structure Production where
  start : Expectation
  parts : List Part
  operation : Operation
deriving DecidableEq, Repr

namespace Grammar

open TokenKind Keyword

def anyValue : List TokenKind := [name, number, string, TokenKind.list]
def scalar : List TokenKind := [name, number, string]
def sized : List TokenKind := [name, string, TokenKind.list]
def numeric : List TokenKind := [name, number]
def textual : List TokenKind := [name, string]

-- `START first MIDDLE second`
def pair (start : Keyword) (first : List TokenKind) (middle : Keyword) (second : List TokenKind)
    (operation : Operation) : Production :=
  ⟨.keyword start, [.operand1 first, .fixed (.keyword middle), .operand2 second], operation⟩

-- The same form where the target is written last; it still fills the first slot.
def reversed (start : Keyword) (first : List TokenKind) (middle : Keyword)
    (second : List TokenKind) (operation : Operation) : Production :=
  ⟨.keyword start, [.operand2 first, .fixed (.keyword middle), .operand1 second], operation⟩

def unary (start : Keyword) (operation : Operation) : Production :=
  ⟨.keyword start, [.operand1 [name]], operation⟩

def output (start : Keyword) (value : List TokenKind) (operation : Operation) : Production :=
  ⟨.keyword start, [.operand2 value], operation⟩

def comparison (comparator : Char) (right : List TokenKind) (operation : Operation) : Production :=
  ⟨.keyword TEST, [.operand1 [name], .fixed (.symbol comparator), .operand2 right], operation⟩

def opening (mode : Keyword) (operation : Operation) : Production :=
  ⟨.keyword OPEN,
    [.operand2 textual, .fixed (.keyword AS), .fixed (.keyword mode), .operand1 [name]], operation⟩

def bare (start : Keyword) (words : List Keyword) (operation : Operation) : Production :=
  ⟨.keyword start, words.map fun word => .fixed (.keyword word), operation⟩

def productions : List Production :=
  [pair SET [name] TO anyValue .set,
   reversed ADD numeric TO [name] .add,
   reversed SUBTRACT numeric FROM [name] .subtract,
   pair MULTIPLY [name] BY numeric .multiply,
   pair DIVIDE [name] BY numeric .divide,
   pair AND [name] WITH numeric .bitwiseAnd,
   pair OR [name] WITH numeric .bitwiseOr,
   pair XOR [name] WITH numeric .bitwiseXor,
   unary NEGATE .bitwiseNegate,
   reversed MOD numeric OF [name] .modulus,
   reversed LOG numeric OF [name] .logarithm,
   pair RAISE [name] TO numeric .power,
   unary ROUND .round,
   pair RANDOM [name] MAX numeric .random,
   pair LIST [name] SIZE numeric .list,
   reversed APPEND anyValue TO [name] .append,
   pair SIZE [name] OF sized .size,
   pair TYPE [name] OF anyValue .type,
   opening READ .openRead,
   opening WRITE .openWrite,
   unary CLOSE .close,
   pair READ [name] FROM [name] .read,
   reversed WRITE anyValue TO [name] .write,
   pair INPUT [name] WITH textual .input,
   output PRINT anyValue .print,
   comparison '>' scalar .testGreaterThan,
   comparison '<' scalar .testLessThan,
   comparison '=' anyValue .testEqual,
   comparison '!' anyValue .testNotEqual,
   bare SCOPE [OPEN] .scopeOpen,
   bare SCOPE [CLOSE] .scopeClose,
   output WAIT numeric .wait,
   pair GOTO [name] IF numeric .goto,
   bare EXIT [] .exit,
   output ERROR textual .error,
   ⟨.symbol '^', [.operand1 [name], .fixed (.symbol ':')], .label⟩]

end Grammar

end LineScript

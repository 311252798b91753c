import LineScript.Statement.Reading
import Mathlib.Data.List.Basic

namespace LineScript

-- One place of a written statement: a fixed word or mark, what the operation acts on, or what it
-- takes as its argument.
inductive Slot where
  | fixed (expectation : Expectation)
  | primary (kinds : List TokenKind)
  | secondary (kinds : List TokenKind)
deriving DecidableEq, Repr

namespace Slot

def word (keyword : Keyword) : Slot := .fixed (.keyword keyword)

def mark (symbol : Char) : Slot := .fixed (.symbol symbol)

def accepts (token : Token) : Slot → Bool
  | .fixed expectation => expectation.accepts token
  | .primary kinds | .secondary kinds => token.kind ∈ kinds

def primary? (token : Token) : Slot → Option Token
  | .primary _ => some token
  | _ => none

def secondary? (token : Token) : Slot → Option Token
  | .secondary _ => some token
  | _ => none

end Slot

section Forms

open Slot Keyword

-- How each operation is written. An empty line has no form of its own.
def Operation.form : Operation → List Slot
  | .null => []
  | .label => [mark '^', primary [.name], mark ':']
  | .set => [word SET, primary [.name], word TO, secondary [.name, .number, .string, .list]]
  | .add => [word ADD, secondary [.name, .number], word TO, primary [.name]]
  | .subtract => [word SUBTRACT, secondary [.name, .number], word FROM, primary [.name]]
  | .multiply => [word MULTIPLY, primary [.name], word BY, secondary [.name, .number]]
  | .divide => [word DIVIDE, primary [.name], word BY, secondary [.name, .number]]
  | .random => [word RANDOM, primary [.name], word MAX, secondary [.name, .number]]
  | .bitwiseOr => [word OR, primary [.name], word WITH, secondary [.name, .number]]
  | .bitwiseAnd => [word AND, primary [.name], word WITH, secondary [.name, .number]]
  | .bitwiseXor => [word XOR, primary [.name], word WITH, secondary [.name, .number]]
  | .bitwiseNegate => [word NEGATE, primary [.name]]
  | .power => [word RAISE, primary [.name], word TO, secondary [.name, .number]]
  | .modulus => [word MOD, secondary [.name, .number], word OF, primary [.name]]
  | .logarithm => [word LOG, secondary [.name, .number], word OF, primary [.name]]
  | .round => [word ROUND, primary [.name]]
  | .list => [word LIST, primary [.name], word SIZE, secondary [.name, .number]]
  | .append => [word APPEND, secondary [.name, .number, .string, .list], word TO, primary [.name]]
  | .size => [word SIZE, primary [.name], word OF, secondary [.name, .string, .list]]
  | .openRead => [word OPEN, secondary [.name, .string], word AS, word READ, primary [.name]]
  | .openWrite => [word OPEN, secondary [.name, .string], word AS, word WRITE, primary [.name]]
  | .close => [word CLOSE, primary [.name]]
  | .read => [word READ, secondary [.name], word FROM, primary [.name]]
  | .write => [word WRITE, secondary [.name, .number, .string, .list], word TO, primary [.name]]
  | .input => [word INPUT, primary [.name], word WITH, secondary [.name, .string]]
  | .print => [word PRINT, primary [.name, .number, .string, .list]]
  | .testGreaterThan => [word TEST, primary [.name], mark '>', secondary [.name, .number, .string]]
  | .testLessThan => [word TEST, primary [.name], mark '<', secondary [.name, .number, .string]]
  | .testEqual =>
      [word TEST, primary [.name], mark '=', secondary [.name, .number, .string, .list]]
  | .testNotEqual =>
      [word TEST, primary [.name], mark '!', secondary [.name, .number, .string, .list]]
  | .scopeOpen => [word SCOPE, word OPEN]
  | .scopeClose => [word SCOPE, word CLOSE]
  | .wait => [word WAIT, primary [.name, .number]]
  | .goto => [word GOTO, primary [.name], word IF, secondary [.name, .number]]
  | .type => [word TYPE, primary [.name], word OF, secondary [.name, .number, .string, .list]]
  | .exit => [word EXIT]
  | .error => [word ERROR, primary [.name, .string]]

end Forms

-- Tokens that fill a form, with those that came to stand in its two roles.
inductive Filled : List Slot → List Token → Option Token → Option Token → Prop where
  | done : Filled [] [] none none
  | fixed {expectation : Expectation} {token : Token} {slots : List Slot} {tokens : List Token}
      {first second : Option Token} (haccepts : expectation.accepts token = true)
      (hrest : Filled slots tokens first second) :
      Filled (.fixed expectation :: slots) (token :: tokens) first second
  | primary {kinds : List TokenKind} {token : Token} {slots : List Slot} {tokens : List Token}
      {second : Option Token} (hkind : token.kind ∈ kinds)
      (hrest : Filled slots tokens none second) :
      Filled (.primary kinds :: slots) (token :: tokens) (some token) second
  | secondary {kinds : List TokenKind} {token : Token} {slots : List Slot} {tokens : List Token}
      {first : Option Token} (hkind : token.kind ∈ kinds)
      (hrest : Filled slots tokens first none) :
      Filled (.secondary kinds :: slots) (token :: tokens) first (some token)

-- The lines of a program: nothing, a comment with whatever follows it, or a filled form with at
-- most one comment behind it.
inductive Sentence : List Token → Operation → Option Token → Option Token → Prop where
  | empty : Sentence [] .null none none
  | comment {first : Token} {rest : List Token} (hcomment : first.kind = .comment) :
      Sentence (first :: rest) .null none none
  | plain {operation : Operation} {tokens : List Token} {first second : Option Token}
      (hoperation : operation ≠ .null) (hfilled : Filled operation.form tokens first second) :
      Sentence tokens operation first second
  | commented {operation : Operation} {tokens : List Token} {last : Token}
      {first second : Option Token} (hoperation : operation ≠ .null)
      (hfilled : Filled operation.form tokens first second) (hcomment : last.kind = .comment) :
      Sentence (tokens ++ [last]) operation first second

namespace Filled

-- A role is filled once at most.
theorem cons {slot : Slot} {slots : List Slot} {token : Token} {tokens : List Token}
    {first second : Option Token} (haccepts : slot.accepts token = true)
    (hfirst : slot.primary? token = none ∨ first = none)
    (hsecond : slot.secondary? token = none ∨ second = none)
    (h : Filled slots tokens first second) :
    Filled (slot :: slots) (token :: tokens) ((slot.primary? token).or first)
      ((slot.secondary? token).or second) := by
  cases slot with
  | fixed expectation => exact .fixed haccepts h
  | primary kinds =>
      have hnone : first = none := by simpa [Slot.primary?] using hfirst
      subst hnone
      exact .primary (by simpa [Slot.accepts] using haccepts) h
  | secondary kinds =>
      have hnone : second = none := by simpa [Slot.secondary?] using hsecond
      subst hnone
      exact .secondary (by simpa [Slot.accepts] using haccepts) h

theorem of_cons {slot : Slot} {slots : List Slot} {tokens : List Token}
    {first second : Option Token} (h : Filled (slot :: slots) tokens first second) :
    ∃ token rest first' second', tokens = token :: rest ∧ slot.accepts token = true ∧
      (slot.primary? token = none ∨ first' = none) ∧
      (slot.secondary? token = none ∨ second' = none) ∧
      Filled slots rest first' second' ∧ first = (slot.primary? token).or first' ∧
      second = (slot.secondary? token).or second' := by
  cases h with
  | fixed haccepts hrest => exact ⟨_, _, _, _, rfl, haccepts, .inl rfl, .inl rfl, hrest, rfl, rfl⟩
  | primary hkind hrest =>
      exact ⟨_, _, _, _, rfl, by simpa [Slot.accepts] using hkind, .inr rfl, .inl rfl, hrest, rfl,
        rfl⟩
  | secondary hkind hrest =>
      exact ⟨_, _, _, _, rfl, by simpa [Slot.accepts] using hkind, .inl rfl, .inr rfl, hrest, rfl,
        rfl⟩

theorem primary_eq_none {slots : List Slot} {tokens : List Token} {first second : Option Token}
    (h : Filled slots tokens first second) (hno : ∀ kinds, Slot.primary kinds ∉ slots) :
    first = none := by
  induction h with
  | done => rfl
  | fixed _ _ ih => exact ih fun kinds hmem => hno kinds (List.mem_cons_of_mem _ hmem)
  | primary => exact absurd List.mem_cons_self (hno _)
  | secondary _ _ ih => exact ih fun kinds hmem => hno kinds (List.mem_cons_of_mem _ hmem)

theorem secondary_eq_none {slots : List Slot} {tokens : List Token} {first second : Option Token}
    (h : Filled slots tokens first second) (hno : ∀ kinds, Slot.secondary kinds ∉ slots) :
    second = none := by
  induction h with
  | done => rfl
  | fixed _ _ ih => exact ih fun kinds hmem => hno kinds (List.mem_cons_of_mem _ hmem)
  | primary _ _ ih => exact ih fun kinds hmem => hno kinds (List.mem_cons_of_mem _ hmem)
  | secondary => exact absurd List.mem_cons_self (hno _)

end Filled

end LineScript

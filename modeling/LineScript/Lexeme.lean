import LineScript.Text.Letter
import LineScript.Text.CodeRange

namespace LineScript

inductive LexemeKind where
  | number
  | word
  | string (closed : Bool)
  | comment
  | opening
  | closing
  | comma
  | symbol
  | blank
  | stray (c : Char)
deriving DecidableEq, Repr

-- A maximal piece of a line, before it is checked and before lists are put together.
structure Lexeme where
  kind : LexemeKind
  chars : List Char
deriving DecidableEq, Repr

namespace Lexeme

def isBlankChar (c : Char) : Bool := c == ' ' || c == '\t'

def startsNumber (c : Char) : Bool := c.isDigit || c == '.' || c == '-'

-- Letters may follow, so that a word glued to a number is part of it.
def continuesNumber (c : Char) : Bool := c.isAlphanum || c == '.' || c == '+' || c == '-'

def startsWord (c : Char) : Bool := Text.isLetter c || c == '_'

def continuesWord (c : Char) : Bool :=
  Text.isLetter c || Text.isNumeral c || c == '_' || c == '@'

def isSymbolChar (c : Char) : Bool :=
  c == '>' || c == '<' || c == '=' || c == '!' || c == '^' || c == ':'

-- The part of a string literal after its opening quote, whether a closing quote was met, and the
-- rest. A backslash takes the next character along, except a newline, where the literal breaks off.
def scanString : List Char → List Char × Bool × List Char
  | [] => ([], false, [])
  | '"' :: rest => (['"'], true, rest)
  | ['\\'] => (['\\'], false, [])
  | '\\' :: '\n' :: rest => (['\\'], false, '\n' :: rest)
  | '\\' :: c :: rest =>
      let tail := scanString rest
      ('\\' :: c :: tail.1, tail.2)
  | c :: rest =>
      let tail := scanString rest
      (c :: tail.1, tail.2)

theorem scanString_plain {c : Char} (hquote : c ≠ '"') (hslash : c ≠ '\\') (rest : List Char) :
    scanString (c :: rest) = (c :: (scanString rest).1, (scanString rest).2) := by
  rw [scanString]
  · exact hquote
  all_goals simp [hslash]

theorem scanString_pair {c : Char} (hend : c ≠ '\n') (rest : List Char) :
    scanString ('\\' :: c :: rest) = ('\\' :: c :: (scanString rest).1, (scanString rest).2) := by
  rw [scanString]
  exact hend

-- Along the scanner, with the backslash told apart from a character that stands for itself.
@[elab_as_elim]
theorem scanString_induction {motive : List Char → Prop} (nil : motive [])
    (quote : ∀ rest, motive ('"' :: rest)) (slash : motive ['\\'])
    (newline : ∀ rest, motive ('\\' :: '\n' :: rest))
    (pair : ∀ c rest, c ≠ '\n' → motive rest → motive ('\\' :: c :: rest))
    (plain : ∀ c rest, c ≠ '"' → c ≠ '\\' → motive rest → motive (c :: rest))
    (cs : List Char) : motive cs := by
  fun_induction scanString cs with
  | case1 => exact nil
  | case2 rest => exact quote rest
  | case3 => exact slash
  | case4 rest => exact newline rest
  | case5 c rest hend _ ih => exact pair c rest hend ih
  | case6 c rest hquote hend _ hpair _ ih =>
      refine plain c rest hquote ?_ ih
      rintro rfl
      cases rest with
      | nil => exact hend rfl rfl
      | cons a rest => exact hpair a rest rfl rfl

-- The lexeme that starts with `c`, and what follows it.
def next (c : Char) (rest : List Char) : Lexeme × List Char :=
  if isBlankChar c then (⟨.blank, c :: rest.takeWhile isBlankChar⟩, rest.dropWhile isBlankChar)
  else if startsNumber c then
    (⟨.number, c :: rest.takeWhile continuesNumber⟩, rest.dropWhile continuesNumber)
  else if startsWord c then
    (⟨.word, c :: rest.takeWhile continuesWord⟩, rest.dropWhile continuesWord)
  else if c == '"' then
    let literal := scanString rest
    (⟨.string literal.2.1, c :: literal.1⟩, literal.2.2)
  else if c == '#' then (⟨.comment, c :: rest.takeWhile (· != '\n')⟩, rest.dropWhile (· != '\n'))
  else if c == '(' then (⟨.opening, [c]⟩, rest)
  else if c == ')' then (⟨.closing, [c]⟩, rest)
  else if c == ',' then (⟨.comma, [c]⟩, rest)
  else if isSymbolChar c then (⟨.symbol, [c]⟩, rest)
  else (⟨.stray c, [c]⟩, rest)

theorem scanString_chars (cs : List Char) :
    (scanString cs).1 ++ (scanString cs).2.2 = cs := by
  fun_induction scanString cs <;> simp_all +zetaDelta

-- A lexeme and what follows it are together what there was.
theorem next_chars (c : Char) (rest : List Char) :
    (next c rest).1.chars ++ (next c rest).2 = c :: rest := by
  fun_cases next c rest <;> simp +zetaDelta [List.takeWhile_append_dropWhile, scanString_chars]

theorem next_chars_ne_nil (c : Char) (rest : List Char) : (next c rest).1.chars ≠ [] := by
  fun_cases next c rest <;> simp

theorem length_next_lt (c : Char) (rest : List Char) :
    (next c rest).2.length < (c :: rest).length := by
  have hchars := congrArg List.length (next_chars c rest)
  have hpos := List.length_pos_iff.mpr (next_chars_ne_nil c rest)
  rw [List.length_append] at hchars
  omega

-- Every line splits into lexemes; what cannot start a token is a stray of one character.
def scan : List Char → List Lexeme
  | [] => []
  | c :: rest => (next c rest).1 :: scan (next c rest).2
termination_by cs => cs.length
decreasing_by exact length_next_lt c rest

-- Scanning loses nothing.
theorem flatMap_chars_scan (cs : List Char) : (scan cs).flatMap chars = cs := by
  fun_induction scan cs with
  | case1 => rfl
  | case2 c rest ih => rw [List.flatMap_cons, ih, next_chars]

end Lexeme

end LineScript

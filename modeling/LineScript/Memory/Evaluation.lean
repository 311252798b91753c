import LineScript.Memory
import LineScript.Text.Quoted
import LineScript.Token.Extent

namespace LineScript

def Token.innerChars (token : Token) : List Char := Text.inner token.text.toList

-- The tokens between the delimiters of a list, separators left out.
def Token.items (token : Token) : Except CompileError (List Token) :=
  (Token.readChars token.innerChars).map (·.filter fun item => item.kind ≠ .symbol)

theorem Token.length_lt_of_mem_items {token item : Token} {items : List Token}
    (h : token.items = .ok items) (hmem : item ∈ items) :
    item.text.length < token.text.length := by
  unfold Token.items at h
  cases hread : Token.readChars token.innerChars with
  | error e => simp [hread, Except.map] at h
  | ok tokens =>
      simp only [hread, Except.map, Except.ok.injEq] at h
      subst h
      have hmem' := (List.mem_filter.mp hmem).1
      have hle := Token.length_le_of_mem_readChars hread hmem'
      have hinner : token.innerChars.length = token.text.length - 1 - 1 := by
        simp [Token.innerChars, Text.inner, String.length_toList]
      cases hlen : token.text.length with
      | zero =>
          have hnil : token.innerChars = [] := List.length_eq_zero_iff.mp (by omega)
          rw [hnil] at hread
          have hempty : tokens = [] := by
            simpa [Token.readChars, Lexeme.scan, tokensOf] using hread.symm
          simp [hempty] at hmem'
      | succ n => omega

namespace Memory

-- The value of an operand. A list is read again from its text, item by item; each item is shorter
-- than the list.
def evaluate (memory : Memory) (token : Token) : Except RuntimeError Value :=
  match token.kind with
  | .null => .ok .null
  | .number =>
      match Value.readNumber? token.text with
      | some value => .ok value
      | none => .error (.malformedLiteral .number)
  | .string => .ok (.string (String.ofList (Text.unescape token.innerChars)))
  | .name => memory.read token.text
  | .list =>
      match _hitems : token.items with
      | .error _ => .error (.malformedLiteral .list)
      | .ok items =>
          (items.attach.mapM fun item => memory.evaluate item.1).map .list
  | .keyword | .symbol | .comment => .error (.notAValue token.kind)
termination_by token.text.length
decreasing_by exact Token.length_lt_of_mem_items _hitems item.2

-- A list is the list of the values of its items.
theorem evaluate_list {memory : Memory} {token : Token} (hkind : token.kind = .list) :
    memory.evaluate token =
      match token.items with
      | .error _ => .error (.malformedLiteral .list)
      | .ok items => (items.mapM memory.evaluate).map .list := by
  rw [evaluate, hkind]
  dsimp only
  split
  · rename_i hitems
    rw [hitems]
  · rename_i items hitems
    rw [hitems]
    congr 1
    rw [List.mapM_subtype (fun _ _ => rfl), List.unattach_attach]

-- An absent operand is null.
def evaluateOperand (memory : Memory) (operand : Option Token) : Except RuntimeError Value :=
  match operand with
  | some token => memory.evaluate token
  | none => .ok .null

end Memory

end LineScript

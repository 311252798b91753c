import LineScript.Memory.Evaluation
import LineScript.Proofs.Token.Recursion

namespace LineScript

-- The items of a list, read by calls.
def Token.itemsWithin (calls : Nat) (token : Token) : Bounded CompileError (List Token) :=
  (·.filter fun item => item.kind ≠ .symbol) <$> readWithin calls token.innerChars

theorem Token.length_innerChars_le (token : Token) :
    token.innerChars.length ≤ token.text.length := by
  rw [innerChars, Text.inner, List.length_dropLast, List.length_tail, String.length_toList]
  omega

theorem Token.itemsWithin_eq {token : Token} {calls : Nat} (hcalls : token.text.length < calls) :
    token.itemsWithin calls = .of token.items := by
  have hinner := token.length_innerChars_le
  exact Bounded.map_eq_of (readWithin_eq (by omega)) _

namespace Memory

-- The value of an operand, where each list in it is a call of its own. The text of a list may be
-- any: nothing but its first and last character is taken off.
def evaluateWithin (memory : Memory) : Nat → Token → Bounded RuntimeError Value
  | 0, _ => .spent
  | calls + 1, token =>
      if token.kind = .list then do
        let items ← (token.itemsWithin (calls + 1)).adapt fun _ => .malformedLiteral .list
        .list <$> items.mapM (memory.evaluateWithin calls)
      else .of (memory.evaluate token)

theorem evaluate_list_eq_bind {memory : Memory} {token : Token} (hkind : token.kind = .list) :
    memory.evaluate token =
      (token.items.mapError fun _ => .malformedLiteral .list).bind fun items =>
        (items.mapM memory.evaluate).map .list := by
  rw [evaluate_list hkind]
  cases token.items <;> rfl

-- As many calls as a token has characters, and one more, are enough: the items of a list are
-- shorter than the list.
theorem evaluateWithin_eq {memory : Memory} {token : Token} {calls : Nat}
    (hcalls : token.text.length < calls) :
    memory.evaluateWithin calls token = .of (memory.evaluate token) := by
  induction calls generalizing token with
  | zero => omega
  | succ calls ih =>
      rw [evaluateWithin]
      split_ifs with hkind
      · rw [evaluate_list_eq_bind hkind]
        apply Bounded.bind_eq_of (Bounded.adapt_eq_of (Token.itemsWithin_eq hcalls) _)
        intro items hitems
        apply Bounded.map_eq_of
        apply Bounded.mapM_eq_of
        intro item hitem
        have hshorter := Token.length_lt_of_mem_items (mapError_eq_ok.mp hitems) hitem
        exact ih (by omega)
      · rfl

-- Reading and evaluation end on every text and every token. Each lexeme that is drawn takes at
-- least one character, no token is longer than its text, and every item of a list is shorter than
-- the list, so that a bound on the calls is never reached.
theorem reading_and_evaluation_end (line : String) (memory : Memory) (token : Token) :
    (∀ (cs rest : List Char) (lexeme : Lexeme), draw cs = some (lexeme, rest) →
      lexeme.chars ≠ [] ∧ cs = cs.takeWhile Lexeme.isBlankChar ++ (lexeme.chars ++ rest)) ∧
    (∀ calls, line.length < calls →
      readWithin calls line.toList = .of (Token.readAll line)) ∧
    (∀ tokens, Token.readAll line = .ok tokens →
      ∀ read ∈ tokens, read.text.length ≤ line.length) ∧
    (∀ calls, token.text.length < calls →
      memory.evaluateWithin calls token = .of (memory.evaluate token)) ∧
    (∀ items, token.items = .ok items →
      ∀ item ∈ items, item.text.length < token.text.length) := by
  refine ⟨fun cs rest lexeme => chars_of_draw, fun calls hcalls => ?_, fun tokens htokens => ?_,
    fun calls => evaluateWithin_eq, fun items hitems item => Token.length_lt_of_mem_items hitems⟩
  · apply readWithin_eq
    rwa [String.length_toList]
  · intro read hread
    rw [← String.length_toList]
    exact Token.length_le_of_mem_readChars htokens hread

-- A list with other characters in the place of its brackets.
def bareList : Token := ⟨.list, "x(7)y"⟩

theorem bare_list_is_evaluated :
    readWithin 4 "(7)".toList = .of (.ok [⟨.list, "(7)"⟩]) ∧
    bareList.items = .ok [⟨.list, "(7)"⟩] ∧ "(7)".length < bareList.text.length ∧
    Memory.fresh.evaluateWithin 6 bareList = .of (.ok (.list [.list [.integer 7]])) := by
  obtain ⟨-, hread, -, hends, hshorter⟩ := reading_and_evaluation_end "(7)" Memory.fresh bareList
  have hline : Token.readAll "(7)" = .ok [⟨.list, "(7)"⟩] := by decide +kernel
  have hitems : bareList.items = .ok [⟨.list, "(7)"⟩] := by decide +kernel
  have hinner : Token.items ⟨.list, "(7)"⟩ = .ok [⟨.number, "7"⟩] := by decide +kernel
  have hseven : Memory.fresh.evaluate ⟨.number, "7"⟩ = .ok (.integer 7) := by
    rw [evaluate]
    rfl
  have hlist : Memory.fresh.evaluate ⟨.list, "(7)"⟩ = .ok (.list [.integer 7]) := by
    rw [evaluate_list rfl, hinner]
    dsimp only
    rw [List.mapM_cons, hseven]
    rfl
  have hvalue : Memory.fresh.evaluate bareList = .ok (.list [.list [.integer 7]]) := by
    rw [evaluate_list rfl, hitems]
    dsimp only
    rw [List.mapM_cons, hlist]
    rfl
  refine ⟨hline ▸ hread 4 (by decide), hitems, hshorter _ hitems ⟨.list, "(7)"⟩ (by simp), ?_⟩
  rw [hends 6 (by decide), hvalue]

end Memory

end LineScript

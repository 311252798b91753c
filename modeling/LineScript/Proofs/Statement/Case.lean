import LineScript.Proofs.Statement.Productions
import LineScript.Proofs.Token.Case

namespace LineScript

open Text

theorem Token.keyword?_capital (token : Token) : token.capital.keyword? = token.keyword? := by
  rw [keyword?, keyword?, kind_capital, capital, Keyword.ofText?_capitalized]

theorem Token.isSymbol_capital {token : Token} (hread : token.IsRead) (c : Char) :
    token.capital.isSymbol c = token.isSymbol c := by
  by_cases hkind : token.kind = .symbol
  · rw [capital_eq_self hread (.inr hkind)]
  · simp [isSymbol, hkind]

theorem Expectation.accepts_capital {token : Token} (hread : token.IsRead)
    (expectation : Expectation) :
    expectation.accepts token.capital = expectation.accepts token := by
  cases expectation with
  | kind k => rfl
  | keyword k => rw [accepts, accepts, token.keyword?_capital]
  | symbol c => exact token.isSymbol_capital hread c

namespace Progress

def capital (progress : Progress) : Progress :=
  ⟨progress.remaining, progress.operation, progress.operand1.map Token.capital,
    progress.operand2.map Token.capital⟩

theorem advance?_capital {token : Token} (hread : token.IsRead) (progress : Progress) :
    progress.capital.advance? token.capital = (progress.advance? token).map capital := by
  obtain ⟨remaining, operation, operand1, operand2⟩ := progress
  cases remaining with
  | nil => rfl
  | cons part rest =>
      have hany : (part.expectations.any fun expectation => expectation.accepts token.capital) =
          part.expectations.any fun expectation => expectation.accepts token :=
        congrArg _ (funext (Expectation.accepts_capital hread))
      simp only [capital, advance?, hany]
      split_ifs
      · cases part <;> rfl
      · rfl

theorem complete?_capital (active : List Progress) :
    complete? (active.map capital) = (complete? active).map capital := by
  rw [complete?, List.find?_map]
  rfl

end Progress

theorem checkEnd_capital (tokens : List Token) :
    (checkEnd (tokens.map Token.capital)).toOption = (checkEnd tokens).toOption := by
  fun_cases checkEnd tokens with
  | case1 => rfl
  | case2 token hcomment => simp [checkEnd, hcomment]
  | case3 token hcomment => simp [checkEnd, hcomment, Except.toOption]
  | case4 token extra rest => rfl

def Statement.capital (s : Statement) : Statement :=
  ⟨s.operation, s.operand1.map Token.capital, s.operand2.map Token.capital, capitalized s.line⟩

theorem toOption_follow_cons {line : String} {active : List Progress} {token : Token}
    {rest : List Token} (h : Progress.complete? active = none) :
    (follow line active (token :: rest)).toOption =
      (follow line (active.filterMap (·.advance? token)) rest).toOption := by
  refine Option.ext fun s => ?_
  rw [toOption_eq_some, toOption_eq_some, follow_cons h]

theorem filterMap_advance?_capital {token : Token} (hread : token.IsRead)
    (active : List Progress) :
    (active.map Progress.capital).filterMap (·.advance? token.capital) =
      (active.filterMap (·.advance? token)).map Progress.capital := by
  rw [List.filterMap_map, List.map_filterMap]
  exact congrArg (List.filterMap · active) (funext (Progress.advance?_capital hread))

theorem follow_capital_of_complete {active : List Progress} {done : Progress}
    (h : Progress.complete? active = some done) (line : String) (tokens : List Token) :
    (follow (capitalized line) (active.map Progress.capital) (tokens.map Token.capital)).toOption =
      (follow line active tokens).toOption.map Statement.capital := by
  have hsame := Progress.complete?_capital active
  rw [h] at hsame
  rw [follow_complete h, follow_complete hsame, toOption_map, toOption_map, checkEnd_capital,
    Option.map_map]
  rfl

-- The same productions are followed in either case.
theorem follow_capital {tokens : List Token} (hread : ∀ token ∈ tokens, token.IsRead)
    (line : String) (active : List Progress) :
    (follow (capitalized line) (active.map Progress.capital) (tokens.map Token.capital)).toOption =
      (follow line active tokens).toOption.map Statement.capital := by
  induction tokens generalizing active with
  | nil =>
      cases hcomplete : Progress.complete? active with
      | some done => exact follow_capital_of_complete hcomplete line []
      | none =>
          have hsame := Progress.complete?_capital active
          rw [hcomplete] at hsame
          rw [List.map_nil, follow_nil hcomplete, follow_nil hsame]
          rfl
  | cons token rest ih =>
      obtain ⟨htoken, hrest⟩ := List.forall_mem_cons.mp hread
      cases hcomplete : Progress.complete? active with
      | some done => exact follow_capital_of_complete hcomplete line (token :: rest)
      | none =>
          have hsame := Progress.complete?_capital active
          rw [hcomplete] at hsame
          rw [List.map_cons, toOption_follow_cons hcomplete, toOption_follow_cons hsame,
            filterMap_advance?_capital htoken]
          exact ih hrest _

theorem Statement.ofTokens_capital {tokens : List Token} (hread : ∀ token ∈ tokens, token.IsRead)
    (line : String) :
    (Statement.ofTokens (tokens.map Token.capital) (capitalized line)).toOption =
      (Statement.ofTokens tokens line).toOption.map Statement.capital := by
  cases tokens with
  | nil => rfl
  | cons first rest =>
      obtain ⟨hfirst, hrest⟩ := List.forall_mem_cons.mp hread
      have hfitting : Grammar.productions.filter (fun production =>
          production.start.accepts first.capital) =
            Grammar.productions.filter fun production => production.start.accepts first :=
        congrArg (List.filter · _)
          (funext fun production => Expectation.accepts_capital hfirst production.start)
      rw [List.map_cons, Statement.ofTokens, Statement.ofTokens, Token.kind_capital, hfitting]
      split_ifs
      · rfl
      · split
        · rfl
        · rename_i fitting _
          rw [← follow_capital hrest line, List.map_map]
          rfl

theorem Token.isRead_of_mem_readAll {line : String} {tokens : List Token}
    (h : Token.readAll line = .ok tokens) : ∀ token ∈ tokens, token.IsRead :=
  fun _ hmem => ⟨line.toList, tokens, h, hmem⟩

-- A line is the same statement in either case.
theorem Statement.read_capitalized (line : String) :
    (Statement.read (capitalized line)).toOption =
      (Statement.read line).toOption.map Statement.capital := by
  rw [Statement.read, toOption_bind, Token.readAll, toList_capitalized, Token.readChars_capitals,
    Statement.read, toOption_bind, Token.readAll]
  cases htokens : Token.readChars line.toList with
  | error e => rfl
  | ok tokens => exact Statement.ofTokens_capital (Token.isRead_of_mem_readAll htokens) line

theorem Statement.primary_capital (s : Statement) :
    s.capital.primary = s.primary.map Token.capital := by
  unfold primary
  rw [show s.capital.operation = s.operation from rfl]
  split <;> rfl

theorem Statement.secondary_capital (s : Statement) :
    s.capital.secondary = s.secondary.map Token.capital := by
  unfold secondary
  rw [show s.capital.operation = s.operation from rfl]
  split <;> rfl

end LineScript

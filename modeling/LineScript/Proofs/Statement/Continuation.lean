import LineScript.Proofs.Statement.Acceptance
import LineScript.Proofs.Token.Case
import LineScript.Proofs.Token.Continuation

namespace LineScript

-- A comment may follow where there is none.
theorem Statement.ofTokens_concat_comment {tokens : List Token} {line : String} {s : Statement}
    {comment : Token} (hkind : comment.kind = .comment)
    (hcomment : ∀ token ∈ tokens, token.kind ≠ .comment)
    (h : Statement.ofTokens tokens line = .ok s) (other : String) :
    Statement.ofTokens (tokens ++ [comment]) other = .ok { s with line := other } := by
  cases tokens with
  | nil =>
      cases h
      rw [List.nil_append, Statement.ofTokens, if_pos hkind]
      rfl
  | cons first rest =>
      obtain ⟨hfirst, hrest⟩ := List.forall_mem_cons.mp hcomment
      rw [Statement.ofTokens_cons hfirst] at h
      obtain ⟨p, hp, body, behind, last, rfl, htaken, hend, rfl⟩ := h
      have hbehind : behind = [] := by
        rcases checkEnd_eq_ok_iff.mp hend with hnone | ⟨second, hsecond, rfl⟩
        · exact hnone
        · exact absurd hsecond (hrest second (by simp))
      subst hbehind
      rw [List.append_nil, List.cons_append, Statement.ofTokens_cons hfirst]
      have hend : checkEnd [comment] = .ok () :=
        checkEnd_eq_ok_iff.mpr (.inr ⟨comment, hkind, rfl⟩)
      exact ⟨p, hp, body, [comment], last, rfl, htaken, hend, rfl⟩

-- What comes behind a text without comments adds its own tokens, or fails by itself, if it does
-- not go on with a name or a number. So a comment can be added to any line.
theorem Statement.reading_is_compositional (s t : String) {tokens : List Token}
    (htokens : Token.readAll s = .ok tokens)
    (hcomment : ∀ token ∈ tokens, token.kind ≠ .comment) :
    ((∀ c ∈ t.toList.head?, Text.isLetter c = false ∧ Text.isNumeral c = false ∧
        c ∉ ['_', '@', '.', '+', '-']) →
      (∀ others, Token.readAll t = .ok others →
        Token.readAll (s ++ t) = .ok (tokens ++ others)) ∧
      ∀ e, Token.readAll t = .error e → Token.readAll (s ++ t) = .error e) ∧
    ∀ statement, Statement.read s = .ok statement → ∀ text : String, '\n' ∉ text.toList →
      Statement.read (s ++ "#" ++ text) =
        .ok { statement with line := s ++ "#" ++ text } := by
  constructor
  · intro hhead
    have hstop : ∀ c ∈ t.toList.head?,
        Lexeme.continuesWord c = false ∧ Lexeme.continuesNumber c = false := by
      intro c hc
      obtain ⟨hletter, hnumeral, hmark⟩ := hhead c hc
      simp only [List.mem_cons, List.not_mem_nil, or_false, not_or] at hmark
      obtain ⟨hunderscore, haccessor, hdot, hplus, hminus⟩ := hmark
      have hword : Lexeme.continuesWord c = false := by
        simp [Lexeme.continuesWord, hletter, hnumeral, hunderscore, haccessor]
      exact ⟨hword, Lexeme.continuesNumber_eq_false hword hdot hplus hminus⟩
    have hread : Token.readAll (s ++ t) = (Token.readAll t).map (tokens ++ ·) := by
      rw [Token.readAll, String.toList_append]
      exact Token.readChars_append htokens hcomment hstop
    refine ⟨fun others hothers => ?_, fun e he => ?_⟩
    · rw [hread, hothers]
      rfl
    · rw [hread, he]
      rfl
  · intro statement hstatement text htext
    have hhash : ∀ c ∈ ('#' :: text.toList).head?,
        Lexeme.continuesWord c = false ∧ Lexeme.continuesNumber c = false := by
      rintro c ⟨⟩
      decide
    have hread : Token.readAll (s ++ "#" ++ text) =
        .ok (tokens ++ [⟨.comment, String.ofList ('#' :: text.toList)⟩]) := by
      have hline : (s ++ "#" ++ text).toList = s.toList ++ '#' :: text.toList := by simp
      rw [Token.readAll, hline, Token.readChars_append htokens hcomment hhash,
        Token.readChars_comment htext]
      rfl
    rw [Statement.read, htokens] at hstatement
    rw [Statement.read, hread]
    exact Statement.ofTokens_concat_comment rfl hcomment hstatement _

-- A line that ends in a list and a blank. The mark of a comment in it stands in a string.
def listLine : String := "SET x TO (\"a\\\"#\", (1)) "

theorem Statement.list_line_is_continued :
    ∃ tokens statement, Token.readAll listLine = .ok tokens ∧
      Statement.read listLine = .ok statement ∧ statement.operation = .set ∧
      Token.readAll (listLine ++ "\t=b") = .ok (tokens ++ [⟨.symbol, "="⟩, ⟨.name, "b"⟩]) ∧
      Token.readAll (listLine ++ "?") = .error (.unexpectedSymbol '?') ∧
      Statement.read (listLine ++ "#" ++ "(") =
        .ok { statement with line := listLine ++ "#" ++ "(" } := by
  have hchecked : (Token.readAll listLine).toOption.any (fun tokens =>
      tokens.all (·.kind ≠ .comment) &&
        (Statement.read listLine).toOption.any (·.operation = .set)) = true := by
    decide +kernel
  have hrest : Token.readAll "\t=b" = .ok [⟨.symbol, "="⟩, ⟨.name, "b"⟩] := by decide +kernel
  have hstray : Token.readAll "?" = .error (.unexpectedSymbol '?') := by decide +kernel
  obtain ⟨tokens, htokens, hline⟩ := (Option.any_eq_true _ _).mp hchecked
  simp only [Bool.and_eq_true, List.all_eq_true, decide_eq_true_eq] at hline
  obtain ⟨hcomment, hstatement⟩ := hline
  obtain ⟨statement, hstatement, hset⟩ := (Option.any_eq_true _ _).mp hstatement
  have htokens := toOption_eq_some.mp htokens
  have hstatement := toOption_eq_some.mp hstatement
  have hcontinued := Statement.reading_is_compositional _ "\t=b" htokens hcomment
  have hfailed := Statement.reading_is_compositional _ "?" htokens hcomment
  refine ⟨tokens, statement, htokens, hstatement, of_decide_eq_true hset, ?_, ?_, ?_⟩
  · refine (hcontinued.1 ?_).1 _ hrest
    rintro c ⟨⟩
    decide +kernel
  · refine (hfailed.1 ?_).2 _ hstray
    rintro c ⟨⟩
    decide +kernel
  · exact hcontinued.2 statement hstatement "(" (by decide)

end LineScript

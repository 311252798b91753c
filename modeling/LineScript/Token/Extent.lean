import LineScript.Token.Reading

namespace LineScript

-- A keyword is spelled anew, but no longer than it was.
theorem Lexeme.length_token {lexeme : Lexeme} {token : Token} (h : lexeme.token = .ok token) :
    token.text.length = lexeme.chars.length := by
  cases token_eq_ok_iff.mp h with
  | keyword _ _ _ hkeyword =>
      have hlength := Text.length_of_sameIgnoringCase (Keyword.sameIgnoringCase_of_ofText? hkeyword)
      simpa [Token.ofKeyword, Lexeme.text] using hlength
  | _ => simp [Lexeme.text]

theorem closeList_chars {state : ListState} {lexemes : List Lexeme} {chars : List Char}
    {rest : List Lexeme} (h : closeList state lexemes = .ok (chars, rest)) :
    chars ++ rest.flatMap Lexeme.chars = lexemes.flatMap Lexeme.chars := by
  induction lexemes generalizing state chars with
  | nil => simp [closeList] at h
  | cons lexeme others ih =>
      rw [closeList] at h
      split at h
      · simp at h
      · simp only [Except.ok.injEq, Prod.mk.injEq] at h
        simp [h.1, h.2]
      · rename_i following _
        cases hread : closeList following others with
        | error e => simp [hread, Except.map] at h
        | ok read =>
            simp only [hread, Except.map, Except.ok.injEq, Prod.mk.injEq] at h
            have := @ih following read.1 (by rw [hread, ← h.2])
            rw [← h.1, List.append_assoc, this, List.flatMap_cons]

theorem length_le_of_mem_tokensOf {lexemes : List Lexeme} {tokens : List Token} {token : Token}
    (h : tokensOf lexemes = .ok tokens) (hmem : token ∈ tokens) :
    token.text.length ≤ (lexemes.flatMap Lexeme.chars).length := by
  fun_induction tokensOf lexemes generalizing tokens with
  | case1 => cases h; simp at hmem
  | case2 lexeme rest _ ih =>
      have := ih h hmem
      simp only [List.flatMap_cons, List.length_append]
      omega
  | case3 => simp at h
  | case4 lexeme rest _ chars after hread ih =>
      cases hafter : tokensOf after with
      | error e => simp [hafter, Except.map] at h
      | ok others =>
          simp only [hafter, Except.map, Except.ok.injEq] at h
          subst h
          have hchars := congrArg List.length (closeList_chars hread)
          simp only [List.length_append] at hchars
          simp only [List.flatMap_cons, List.length_append]
          rcases List.mem_cons.mp hmem with rfl | hmem
          · simp only [String.length_ofList, List.length_append]
            omega
          · have := ih hafter hmem
            omega
  | case5 lexeme rest _ _ ih =>
      cases htoken : lexeme.token with
      | error e => simp [htoken, Except.bind] at h
      | ok first =>
          cases hrest : tokensOf rest with
          | error e => simp [htoken, hrest, Except.bind, Except.map] at h
          | ok others =>
              simp only [htoken, hrest, Except.bind, Except.map, Except.ok.injEq] at h
              subst h
              simp only [List.flatMap_cons, List.length_append]
              rcases List.mem_cons.mp hmem with rfl | hmem
              · have := Lexeme.length_token htoken
                omega
              · have := ih hrest hmem
                omega

-- No token is longer than the text it was read from.
theorem Token.length_le_of_mem_readChars {cs : List Char} {tokens : List Token} {token : Token}
    (h : Token.readChars cs = .ok tokens) (hmem : token ∈ tokens) :
    token.text.length ≤ cs.length := by
  have := length_le_of_mem_tokensOf h hmem
  rwa [Lexeme.flatMap_chars_scan] at this

end LineScript

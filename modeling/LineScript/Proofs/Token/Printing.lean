import LineScript.Proofs.Token.Continuation
import LineScript.Proofs.Token.Slices

namespace LineScript

-- A reserved word in capitals is read as itself.
theorem Keyword.readAll_text (keyword : Keyword) :
    Token.readAll keyword.text = .ok [.ofKeyword keyword] := by
  have hall : ∀ keyword ∈ Keyword.all,
      Token.readAll keyword.text = .ok [.ofKeyword keyword] := by
    decide +kernel
  exact hall keyword (by cases keyword <;> decide)

-- A token is read again from its own text, for which its lexemes must be those of their own text.
theorem Spells.readAll_text {own : List Lexeme} {token : Token} (h : Spells own token)
    (hscan : Lexeme.scan (own.flatMap Lexeme.chars) = own) :
    Token.readAll token.text = .ok [token] := by
  rcases h.text_eq with ⟨_, htoken⟩ | ⟨keyword, _, rfl⟩
  · rw [htoken, Token.readAll, String.toList_ofList, Token.readChars, hscan, h.tokensOf_eq,
      ← htoken]
  · exact Keyword.readAll_text keyword

namespace Token

theorem readAll_text_of_mem {line : String} {tokens : List Token}
    (h : readAll line = .ok tokens) {token : Token} (hmem : token ∈ tokens) :
    readAll token.text = .ok [token] := by
  obtain ⟨own, hrun, hspells⟩ := (reading_of_tokensOf h).exists_of_mem hmem
  exact hspells.readAll_text (Lexeme.scan_flatMap_of_run hrun)

-- One blank is enough to keep two texts apart, unless a comment takes it in.
theorem readAll_append_blank {s : String} {tokens : List Token} (h : readAll s = .ok tokens)
    (hcomment : ∀ token ∈ tokens, token.kind ≠ .comment) (t : String) :
    readAll (s ++ " " ++ t) = (readAll t).map (tokens ++ ·) := by
  have hstop : ∀ c ∈ (' ' :: t.toList).head?,
      Lexeme.continuesWord c = false ∧ Lexeme.continuesNumber c = false := by
    rintro c ⟨⟩
    decide
  have htext : (s ++ " " ++ t).toList = s.toList ++ ' ' :: t.toList := by simp
  have hdrop : (' ' :: t.toList).dropWhile Lexeme.isBlankChar =
      t.toList.dropWhile Lexeme.isBlankChar :=
    List.dropWhile_cons_of_pos (by decide)
  rw [readAll, htext, readChars_append h hcomment hstop, ← readChars_dropWhile, hdrop,
    readChars_dropWhile, readAll]

theorem readAll_intercalate {tokens : List Token}
    (hread : ∀ token ∈ tokens, readAll token.text = .ok [token])
    (hlast : ∀ before token after, tokens = before ++ token :: after →
      token.kind = .comment → after = []) :
    readAll (" ".intercalate (tokens.map Token.text)) = .ok tokens := by
  induction tokens with
  | nil => decide +kernel
  | cons token rest ih =>
      obtain ⟨hfirst, hread⟩ := List.forall_mem_cons.mp hread
      cases rest with
      | nil => simpa using hfirst
      | cons second later =>
          have hkind : ∀ t ∈ [token], t.kind ≠ .comment := by
            simpa using fun hkind => nomatch hlast [] token _ rfl hkind
          have hrest := ih hread fun before token after hsplit =>
            hlast (_ :: before) token after (congrArg _ hsplit)
          rw [List.map_cons, List.map_cons, String.intercalate_cons_cons,
            readAll_append_blank hfirst hkind, ← List.map_cons, hrest]
          rfl

-- The texts of the tokens of a line, one blank between them, are read as the same tokens, and each
-- text for itself as its token.
theorem printed_tokens_read_back {line : String} {tokens : List Token}
    (h : readAll line = .ok tokens) :
    readAll (" ".intercalate (tokens.map Token.text)) = .ok tokens ∧
      ∀ token ∈ tokens, readSingle token.text = .ok token := by
  have hread : ∀ token ∈ tokens, readAll token.text = .ok [token] :=
    fun token => readAll_text_of_mem h
  constructor
  · exact readAll_intercalate hread fun _ _ _ => comment_is_last h
  · exact fun token hmem => readSingle_eq_ok_iff.mpr (hread token hmem)

-- Tokens that stand close together, a name with a reserved word in it, and a comment.
def closeLine : String := "tEst list@to=-1.e5(( ),\"a b\" )TO#\t SET"

def closeTokens : List Token :=
  [.ofKeyword .TEST, ⟨.name, "list@to"⟩, ⟨.symbol, "="⟩, ⟨.number, "-1.e5"⟩,
    ⟨.list, "(( ),\"a b\" )"⟩, .ofKeyword .TO, ⟨.comment, "#\t SET"⟩]

theorem close_tokens_read_back :
    readAll closeLine = .ok closeTokens ∧
      readAll "TEST list@to = -1.e5 (( ),\"a b\" ) TO #\t SET" = .ok closeTokens ∧
      readSingle "(( ),\"a b\" )" = .ok ⟨.list, "(( ),\"a b\" )"⟩ := by
  have hread : readAll closeLine = .ok closeTokens := by decide +kernel
  obtain ⟨hprinted, hsingle⟩ := printed_tokens_read_back hread
  exact ⟨hread, hprinted, hsingle ⟨.list, "(( ),\"a b\" )"⟩ (by simp [closeTokens])⟩

end Token

end LineScript

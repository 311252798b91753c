import LineScript.Proofs.Lexeme.Continuation
import LineScript.Proofs.Program.Operands
import LineScript.Proofs.Token.Spelling
import Mathlib.Data.List.Infix

namespace LineScript

namespace Lexeme

-- A word begins with no blank, and ends where a character comes that no word has.
theorem next_word_append {word : List Char} (h : scan word = [⟨.word, word⟩]) :
    ∃ c w, word = c :: w ∧ isBlankChar c = false ∧
      ∀ rest, (∀ d ∈ rest.head?, continuesWord d = false) →
        next c (w ++ rest) = (⟨.word, word⟩, rest) := by
  cases word with
  | nil => simp [scan] at h
  | cons c w =>
      rw [scan, List.cons.injEq] at h
      obtain ⟨hfirst, _⟩ := h
      have hend : (next c w).2 = [] := by
        have hchars := next_chars c w
        rw [hfirst] at hchars
        simpa using hchars
      refine ⟨c, w, rfl, ?_, fun rest hstop => ?_⟩
      · by_contra hblank
        have hkind : (next c w).1.kind = .blank := by
          rw [kind_next_eq_blank]
          simpa using hblank
        rw [hfirst] at hkind
        cases hkind
      · have hstops : ∀ d ∈ rest.head?, (next c w).1.stopsBefore d = true := by
          intro d hd
          simp [stopsBefore, hfirst, hstop d hd]
        rw [next_append (.inr hstops), hfirst, hend, List.nil_append]

theorem scan_word_append {word rest : List Char} (h : scan word = [⟨.word, word⟩])
    (hstop : ∀ c ∈ rest.head?, continuesWord c = false) :
    scan (word ++ rest) = ⟨.word, word⟩ :: scan rest := by
  obtain ⟨c, w, rfl, _, hnext⟩ := next_word_append h
  rw [List.cons_append, scan, hnext rest hstop]

theorem scan_space_word {word rest : List Char} (h : scan word = [⟨.word, word⟩]) :
    scan (' ' :: (word ++ rest)) = ⟨.blank, [' ']⟩ :: scan (word ++ rest) := by
  obtain ⟨c, w, rfl, hblank, _⟩ := next_word_append h
  have hspace : isBlankChar ' ' = true := rfl
  have hnext : next ' ' (c :: (w ++ rest)) = (⟨.blank, [' ']⟩, c :: (w ++ rest)) := by
    simp [next, hspace, hblank]
  rw [List.cons_append, scan, hnext]

theorem word_of_token_name {lexeme : Lexeme} {token : Token} (h : lexeme.token = .ok token)
    (hkind : token.kind = .name) : lexeme.kind = .word ∧ token.text = lexeme.text := by
  cases token_eq_ok_iff.mp h with
  | name hword => exact ⟨hword, rfl⟩
  | _ => cases hkind

end Lexeme

-- A name of a line is a word that makes the same name in every other line.
theorem Token.word_of_name {cs : List Char} {tokens : List Token} {token : Token}
    (h : Token.readChars cs = .ok tokens) (hmem : token ∈ tokens) (hkind : token.kind = .name) :
    Lexeme.scan token.text.toList = [⟨.word, token.text.toList⟩] ∧
      Lexeme.token ⟨.word, token.text.toList⟩ = .ok token := by
  rcases origin_of_mem_tokensOf h hmem with ⟨lexeme, hlexeme, htoken⟩ | hlist
  · obtain ⟨hword, htext⟩ := Lexeme.word_of_token_name htoken hkind
    have hsame : (⟨.word, token.text.toList⟩ : Lexeme) = lexeme := by
      rw [htext, Lexeme.text, String.toList_ofList, ← hword]
    have hrun := Lexeme.scan_flatMap_of_run ((List.singleton_infix_iff _ _).mpr hlexeme)
    rw [List.flatMap_singleton] at hrun
    rw [hsame, htext, Lexeme.text, String.toList_ofList]
    exact ⟨hrun, htoken⟩
  · obtain ⟨_, _, _, _, _, _, _, _, rfl⟩ := hlist
    cases hkind

-- `GOTO name IF 1`
def jumpLine (name : String) : String := "GOTO " ++ name ++ " IF 1"

theorem scan_jumpLine {name : String}
    (h : Lexeme.scan name.toList = [⟨.word, name.toList⟩]) :
    Lexeme.scan (jumpLine name).toList =
      [⟨.word, "GOTO".toList⟩, ⟨.blank, [' ']⟩, ⟨.word, name.toList⟩, ⟨.blank, [' ']⟩,
        ⟨.word, "IF".toList⟩, ⟨.blank, [' ']⟩, ⟨.number, ['1']⟩] := by
  have hline : (jumpLine name).toList =
      "GOTO".toList ++ ' ' :: (name.toList ++ ' ' :: "IF 1".toList) := by
    simp [jumpLine]
  have hgoto : Lexeme.scan "GOTO".toList = [⟨.word, "GOTO".toList⟩] := by decide +kernel
  have hcondition : Lexeme.scan (' ' :: "IF 1".toList) =
      [⟨.blank, [' ']⟩, ⟨.word, "IF".toList⟩, ⟨.blank, [' ']⟩, ⟨.number, ['1']⟩] := by
    decide +kernel
  have hstop (cs : List Char) : ∀ c ∈ (' ' :: cs).head?, Lexeme.continuesWord c = false := by
    rintro c ⟨⟩
    decide
  rw [hline, Lexeme.scan_word_append hgoto (hstop _), Lexeme.scan_space_word h,
    Lexeme.scan_word_append h (hstop _), hcondition]

theorem readAll_jumpLine {token : Token}
    (hscan : Lexeme.scan token.text.toList = [⟨.word, token.text.toList⟩])
    (htoken : Lexeme.token ⟨.word, token.text.toList⟩ = .ok token) :
    Token.readAll (jumpLine token.text) =
      .ok [.ofKeyword .GOTO, token, .ofKeyword .IF, ⟨.number, "1"⟩] := by
  have hgoto : Lexeme.token ⟨.word, "GOTO".toList⟩ = .ok (.ofKeyword .GOTO) := by decide +kernel
  have hif : Lexeme.token ⟨.word, "IF".toList⟩ = .ok (.ofKeyword .IF) := by decide +kernel
  have hone : Lexeme.token ⟨.number, ['1']⟩ = .ok ⟨.number, "1"⟩ := by decide +kernel
  rw [Token.readAll, Token.readChars, scan_jumpLine hscan]
  rw [tokensOf_single (by simp) (by simp), hgoto, tokensOf_blank rfl,
    tokensOf_single (by simp) (by simp), htoken, tokensOf_blank rfl,
    tokensOf_single (by simp) (by simp), hif, tokensOf_blank rfl,
    tokensOf_single (by simp) (by simp), hone, tokensOf]
  rfl

-- Any name of a program can be written as the target of a jump.
theorem Statement.read_jumpLine {line : String} {tokens : List Token} {token : Token}
    (h : Token.readAll line = .ok tokens) (hmem : token ∈ tokens) (hkind : token.kind = .name) :
    ∃ jump, Statement.read (jumpLine token.text) = .ok jump ∧ jump.operation = .goto ∧
      jump.primary = some token ∧ jump.secondary = some ⟨.number, "1"⟩ := by
  obtain ⟨hscan, htoken⟩ := Token.word_of_name h hmem hkind
  have hsentence : Sentence [.ofKeyword .GOTO, token, .ofKeyword .IF, ⟨.number, "1"⟩] .goto
      (some token) (some ⟨.number, "1"⟩) := by
    refine .plain (by decide) (.fixed (by decide) (.primary ?_ (.fixed (by decide) ?_)))
    · simp [hkind]
    · exact .secondary (by decide) .done
  obtain ⟨jump, hjump, hroles⟩ := ofTokens_of_sentence (jumpLine token.text) hsentence
  refine ⟨jump, ?_, hroles⟩
  rw [Statement.read, readAll_jumpLine hscan htoken]
  exact hjump

end LineScript

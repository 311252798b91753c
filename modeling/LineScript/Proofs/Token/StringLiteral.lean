import LineScript.Proofs.Lexeme.StringLiteral
import LineScript.Proofs.Token.Continuation

namespace LineScript

open Lexeme (LiteralBody)

theorem Lexeme.next_quote (rest : List Char) :
    next '"' rest =
      (⟨.string (scanString rest).2.1, '"' :: (scanString rest).1⟩, (scanString rest).2.2) := by
  have hother : isBlankChar '"' = false ∧ startsNumber '"' = false ∧ startsWord '"' = false := by
    decide
  simp [next, hother]

theorem Lexeme.scan_quote {body : List Char} (hbody : LiteralBody body) (rest : List Char) :
    scan ('"' :: (body ++ '"' :: rest)) =
      ⟨.string true, '"' :: (body ++ ['"'])⟩ :: scan rest := by
  rw [scan, next_quote, scanString_of_body hbody]

theorem Lexeme.scan_unclosed {cs : List Char}
    (h : ∀ body rest, LiteralBody body → cs ≠ body ++ '"' :: rest) :
    ∃ chars rest, scan ('"' :: cs) = ⟨.string false, chars⟩ :: rest := by
  have hopen : (scanString cs).2.1 = false := by
    by_contra hclosed
    obtain ⟨body, hbody, hcs⟩ := exists_body_of_closed (by simpa using hclosed)
    exact h _ _ hbody hcs
  exact ⟨_, _, by rw [scan, next_quote, hopen]⟩

namespace Token

variable {cs : List Char}

theorem readChars_quote {body : List Char} (hbody : LiteralBody body) (rest : List Char) :
    readChars ('"' :: (body ++ '"' :: rest)) =
      (readChars rest).map (⟨.string, String.ofList ('"' :: (body ++ ['"']))⟩ :: ·) := by
  rw [readChars, Lexeme.scan_quote hbody, tokensOf_single (by simp) (by simp)]
  rfl

theorem readChars_unclosed (h : ∀ body rest, LiteralBody body → cs ≠ body ++ '"' :: rest) :
    readChars ('"' :: cs) = .error (.missingTerminator '"') := by
  obtain ⟨chars, rest, hscan⟩ := Lexeme.scan_unclosed h
  rw [readChars, hscan, tokensOf_single (by simp) (by simp)]
  rfl

end Token

section

variable {state : ListState} (hposition : state.position ≠ .item)

include hposition

theorem closeList_quote {body : List Char} (hbody : LiteralBody body) (rest : List Char) :
    closeList state (Lexeme.scan ('"' :: (body ++ '"' :: rest))) =
      (closeList ⟨state.depth, .item⟩ (Lexeme.scan rest)).map fun read =>
        ('"' :: (body ++ ['"']) ++ read.1, read.2) := by
  rw [Lexeme.scan_quote hbody, closeList_eq_of_next]
  rw [ListState.next_scalar rfl, if_neg hposition]
  rfl

theorem closeList_unclosed {cs : List Char}
    (h : ∀ body rest, LiteralBody body → cs ≠ body ++ '"' :: rest) :
    closeList state (Lexeme.scan ('"' :: cs)) = .error (.missingTerminator '"') := by
  obtain ⟨chars, rest, hscan⟩ := Lexeme.scan_unclosed h
  have hnext : state.next ⟨.string false, chars⟩ = .error (.missingTerminator '"') := by
    rw [ListState.next_scalar rfl, if_neg hposition]
    rfl
  rw [hscan, closeList, hnext]

end

-- A string literal goes from its opening quote to the first quote that no backslash takes along.
-- Reading goes on right behind it, outside of lists and where a list takes an item. If the text
-- ends before that, or a backslash stands before a newline, reading fails there.
theorem Token.string_ends_at_first_quote (r : String) :
    (∀ body rest : String, LiteralBody body.toList → r = body ++ "\"" ++ rest →
      (∀ before tokens, Token.readAll before = .ok tokens →
        (∀ token ∈ tokens, token.kind ≠ .comment) →
        Token.readAll (before ++ "\"" ++ r) =
          (Token.readAll rest).map (tokens ++ ⟨.string, "\"" ++ body ++ "\""⟩ :: ·)) ∧
      ∀ state : ListState, state.position ≠ .item →
        closeList state (Lexeme.scan ("\"" ++ r).toList) =
          (closeList ⟨state.depth, .item⟩ (Lexeme.scan rest.toList)).map fun read =>
            (("\"" ++ body ++ "\"").toList ++ read.1, read.2)) ∧
    ((∀ body rest : String, LiteralBody body.toList → r ≠ body ++ "\"" ++ rest) →
      (∀ before tokens, Token.readAll before = .ok tokens →
        (∀ token ∈ tokens, token.kind ≠ .comment) →
        Token.readAll (before ++ "\"" ++ r) = .error (.missingTerminator '"')) ∧
      ∀ state : ListState, state.position ≠ .item →
        closeList state (Lexeme.scan ("\"" ++ r).toList) = .error (.missingTerminator '"')) := by
  have hstop : ∀ c ∈ ('"' :: r.toList).head?,
      Lexeme.continuesWord c = false ∧ Lexeme.continuesNumber c = false := by
    rintro c ⟨⟩
    decide
  have hread (before : String) {tokens : List Token} (htokens : Token.readAll before = .ok tokens)
      (hcomment : ∀ token ∈ tokens, token.kind ≠ .comment) :
      Token.readAll (before ++ "\"" ++ r) =
        (Token.readChars ('"' :: r.toList)).map (tokens ++ ·) := by
    rw [Token.readAll, show (before ++ "\"" ++ r).toList = before.toList ++ '"' :: r.toList by simp]
    exact Token.readChars_append htokens hcomment hstop
  have hquoted : ("\"" ++ r).toList = '"' :: r.toList := by simp
  constructor
  · intro body rest hbody hr
    have htext : r.toList = body.toList ++ '"' :: rest.toList := by simp [hr]
    have hliteral : ("\"" ++ body ++ "\"").toList = '"' :: (body.toList ++ ['"']) := by simp
    constructor
    · intro before tokens htokens hcomment
      rw [hread before htokens hcomment, htext, Token.readChars_quote hbody, ← hliteral,
        String.ofList_toList, Token.readAll]
      cases Token.readChars rest.toList <;> rfl
    · intro state hposition
      rw [hquoted, htext, closeList_quote hposition hbody, hliteral]
  · intro hunclosed
    have hunclosed : ∀ body rest, LiteralBody body → r.toList ≠ body ++ '"' :: rest := by
      intro body rest hbody htext
      refine hunclosed (String.ofList body) (String.ofList rest) (by simpa using hbody) ?_
      rw [← String.ofList_toList (s := r), htext]
      simp [String.ext_iff]
    constructor
    · intro before tokens htokens hcomment
      rw [hread before htokens hcomment, Token.readChars_unclosed hunclosed]
      rfl
    · intro state hposition
      rw [hquoted, closeList_unclosed hposition hunclosed]

-- The quote behind the first backslash is taken along, the one behind two of them is not.
def literalRest : String := "a\\\"(\\\\\", 1) # b"

theorem Token.string_goes_past_taken_quote :
    (∃ tokens, Token.readAll "SET x TO " = .ok tokens ∧
      Token.readAll ("SET x TO " ++ "\"" ++ literalRest) =
        (Token.readAll ", 1) # b").map (tokens ++ ⟨.string, "\"" ++ "a\\\"(\\\\" ++ "\""⟩ :: ·) ∧
      Token.readAll ("SET x TO " ++ "\"" ++ "a\\\n\"") = .error (.missingTerminator '"')) ∧
    closeList ⟨1, .separator⟩ (Lexeme.scan ("\"" ++ literalRest).toList) =
      ((closeList ⟨1, .item⟩ (Lexeme.scan ", 1) # b".toList)).map fun read =>
        (("\"" ++ "a\\\"(\\\\" ++ "\"").toList ++ read.1, read.2)) ∧
    closeList ⟨0, .start⟩ (Lexeme.scan ("\"" ++ "a\\\n\"").toList) =
      .error (.missingTerminator '"') := by
  have hbefore : Token.readAll "SET x TO " =
      .ok [.ofKeyword .SET, ⟨.name, "x"⟩, .ofKeyword .TO] := by
    decide +kernel
  have hbody : LiteralBody "a\\\"(\\\\".toList :=
    .plain (by decide) (by decide) (.pair (by decide) (.plain (by decide) (by decide)
      (.pair (by decide) .nil)))
  have hunclosed : ∀ body rest : String, LiteralBody body.toList →
      "a\\\n\"" ≠ body ++ "\"" ++ rest := by
    intro body rest hbody htext
    have hclosed : (Lexeme.scanString "a\\\n\"".toList).2.1 = true := by
      rw [htext, show (body ++ "\"" ++ rest).toList = body.toList ++ '"' :: rest.toList by simp,
        Lexeme.scanString_of_body hbody]
    exact absurd hclosed (by decide)
  have hread := (Token.string_ends_at_first_quote literalRest).1 _ ", 1) # b" hbody (by decide)
  have hbroken := (Token.string_ends_at_first_quote "a\\\n\"").2 hunclosed
  exact ⟨⟨_, hbefore, hread.1 _ _ hbefore (by decide), hbroken.1 _ _ hbefore (by decide)⟩,
    hread.2 _ (by decide), hbroken.2 _ (by decide)⟩

end LineScript

import LineScript.Proofs.Number.Literal
import LineScript.Proofs.Token.Slices
import LineScript.Proofs.Token.Continuation
import LineScript.Proofs.Value.Line

namespace LineScript

namespace Lexeme

theorem isBlankChar_of_startsNumber {c : Char} (h : startsNumber c = true) :
    isBlankChar c = false := by
  by_contra hblank
  have hc : c = ' ' ∨ c = '\t' := by
    simpa only [isBlankChar, Bool.or_eq_true, beq_iff_eq, Bool.not_eq_false] using hblank
  rcases hc with rfl | rfl <;> simp [startsNumber] at h

theorem isBlank_of_continuesNumber {c : Char} (h : continuesNumber c = true) :
    Text.isBlank c = false := by
  have hall : ∀ n < 128, continuesNumber (Char.ofNat n) = true →
      Text.isBlank (Char.ofNat n) = false := by
    decide +kernel
  have hascii : c.toNat < 128 := by
    simp only [continuesNumber, Bool.or_eq_true, beq_iff_eq] at h
    rcases h with ((halphanum | rfl) | rfl) | rfl
    · exact toNat_lt_of_isAlphanum halphanum
    all_goals decide
  have hc := hall c.toNat hascii
  rw [Char.ofNat_toNat] at hc
  exact hc h

theorem scan_number {c : Char} {rest : List Char} (hc : startsNumber c = true)
    (hrest : ∀ d ∈ rest, continuesNumber d = true) :
    scan (c :: rest) = [⟨.number, c :: rest⟩] := by
  have hnone : rest.dropWhile continuesNumber = [] := List.dropWhile_eq_nil_iff.mpr hrest
  have hall : rest.takeWhile continuesNumber = rest := List.takeWhile_eq_self_iff.mpr hrest
  rw [scan]
  simp [next, isBlankChar_of_startsNumber hc, hc, hnone, hall, scan]

-- Every number of a line begins with a digit, a point or a minus.
theorem exists_run_of_number {cs : List Char} {lexeme : Lexeme} (h : lexeme ∈ scan cs)
    (hkind : lexeme.kind = .number) :
    ∃ c rest, lexeme.chars = c :: rest ∧ startsNumber c = true ∧
      ∀ d ∈ rest, continuesNumber d = true := by
  obtain ⟨c, rest, rfl⟩ := exists_next_of_mem_scan h
  revert hkind
  fun_cases next c rest with
  | case2 _ hnumber => exact fun _ => ⟨c, _, rfl, hnumber, fun d hd => List.mem_takeWhile_imp hd⟩
  | _ => simp

end Lexeme

namespace Token

theorem exists_lexeme_of_number {line : String} {tokens : List Token} {token : Token}
    (h : readAll line = .ok tokens) (hmem : token ∈ tokens) (hkind : token.kind = .number) :
    ∃ lexeme ∈ Lexeme.scan line.toList, lexeme.kind = .number ∧
      (Number.Literal.read? lexeme.chars).isSome = true ∧ token = ⟨.number, lexeme.text⟩ := by
  obtain ⟨own, hrun, hspells⟩ := (reading_of_tokensOf h).exists_of_mem hmem
  cases hspells with
  | @single lexeme _ _ _ htoken =>
      have hscan := hrun.subset List.mem_cons_self
      cases Lexeme.token_eq_ok_iff.mp htoken with
      | number hnumber hread => exact ⟨lexeme, hscan, hnumber, hread, rfl⟩
      | _ => cases hkind
  | list => cases hkind

-- A literal is a number that does not begin with a plus.
theorem readSingle_number_iff {text : String} :
    readSingle text = .ok ⟨.number, text⟩ ↔
      (Number.Literal.read? text.toList).isSome = true ∧ text.toList.head? ≠ some '+' := by
  constructor
  · intro h
    obtain ⟨lexeme, hmem, hkind, hread, htoken⟩ :=
      exists_lexeme_of_number (readSingle_eq_ok_iff.mp h) (List.mem_singleton_self _) rfl
    obtain ⟨c, rest, hchars, hc, _⟩ := Lexeme.exists_run_of_number hmem hkind
    obtain rfl : text = lexeme.text := congrArg Token.text htoken
    rw [Lexeme.text, String.toList_ofList]
    refine ⟨hread, ?_⟩
    rw [hchars]
    rintro ⟨⟩
    simp [Lexeme.startsNumber] at hc
  · rintro ⟨hread, hplus⟩
    obtain ⟨c, rest, htext, hc, hrest⟩ := Number.run_of_read? hread hplus
    have htoken : (⟨.number, text.toList⟩ : Lexeme).token = .ok ⟨.number, text⟩ := by
      simp [Lexeme.token, hread, Lexeme.text]
    rw [readSingle_eq_ok_iff, readAll, readChars, htext, Lexeme.scan_number hc hrest, ← htext]
    exact (Spells.single (by simp) (by simp) htoken).tokensOf_eq

-- What is read as one token is its text between blanks.
theorem exists_padding {line : String} {token : Token} (h : readSingle line = .ok token)
    (hkind : token.kind ≠ .keyword) :
    ∃ front behind : List Char, line.toList = front ++ (token.text.toList ++ behind) ∧
      (∀ c ∈ front, c = ' ' ∨ c = '\t') ∧ ∀ c ∈ behind, c = ' ' ∨ c = '\t' := by
  obtain ⟨front, slices, hline, hfront, hslices, hfaithful, _⟩ :=
    (reading_of_tokensOf (readSingle_eq_ok_iff.mp h)).exists_slices (Lexeme.scan_flatMap_scan _)
  obtain ⟨slice, rfl, rfl⟩ := List.map_eq_singleton_iff.mp hslices
  have hslice := hfaithful slice (List.mem_singleton_self slice)
  refine ⟨front, slice.behind, ?_, hfront, hslice.blanks⟩
  rw [Lexeme.flatMap_chars_scan] at hline
  rw [hline, hslice.exact hkind]
  simp

end Token

namespace Value

theorem evaluate_number_iff {memory : Memory} {text : String} {value : Value} :
    memory.evaluate ⟨.number, text⟩ = .ok value ↔ readNumber? text = some value := by
  rw [Memory.evaluate]
  dsimp only
  cases readNumber? text <;> simp

theorem type_of_readNumber? {text : String} {value : Value} (h : readNumber? text = some value) :
    value.type = .integer ∨ value.type = .float := by
  obtain ⟨literal, _, rfl⟩ := Option.map_eq_some_iff.mp h
  cases literal with
  | integer n => exact .inl rfl
  | float x => exact .inr rfl

-- A text that stands for a number is a literal, or one with a plus in front.
theorem readNumber?_eq_some_iff {text : String} {value : Value} (memory : Memory) :
    readNumber? text = some value ↔
      (Token.readSingle text = .ok ⟨.number, text⟩ ∧
        memory.evaluate ⟨.number, text⟩ = .ok value) ∨
      ∃ unsigned : String, text = "+" ++ unsigned ∧
        (∃ c ∈ unsigned.toList.head?, c.isDigit = true ∨ c = '.') ∧
        Token.readSingle unsigned = .ok ⟨.number, unsigned⟩ ∧
        memory.evaluate ⟨.number, unsigned⟩ = .ok value := by
  simp only [Token.readSingle_number_iff, evaluate_number_iff]
  constructor
  · intro h
    have hread : (Number.Literal.read? text.toList).isSome = true := by
      obtain ⟨literal, hliteral, _⟩ := Option.map_eq_some_iff.mp h
      rw [hliteral]
      rfl
    by_cases hplus : text.toList.head? = some '+'
    · obtain ⟨rest, htext⟩ := List.head?_eq_some_iff.mp hplus
      have hbegins : ∃ c ∈ rest.head?, c.isDigit = true ∨ c = '.' := by
        have := (Number.unsigned_of_read? hread).begins
        rwa [htext] at this
      have hsame := Number.read?_plus hbegins
      rw [htext, hsame] at hread
      rw [readNumber?, htext, hsame] at h
      refine .inr ⟨String.ofList rest, ?_, ?_⟩
      · rw [← String.toList_inj, htext]
        simp
      · rw [readNumber?, String.toList_ofList]
        exact ⟨hbegins, ⟨hread, Number.head?_ne_plus hbegins⟩, h⟩
    · exact .inl ⟨⟨hread, hplus⟩, h⟩
  · rintro (⟨_, h⟩ | ⟨unsigned, rfl, hbegins, _, h⟩)
    · exact h
    · rw [readNumber?, String.toList_append]
      exact (congrArg _ (Number.read?_plus hbegins)).trans h

-- A line with nothing but a literal on it has the value of the literal.
theorem ofLine_of_number {line : String} {token : Token}
    (h : Token.readSingle line = .ok token) (hkind : token.kind = .number) (memory : Memory) :
    memory.evaluate token = .ok (ofLine line) := by
  obtain ⟨front, behind, hline, hfront, hbehind⟩ := Token.exists_padding h (by simp [hkind])
  obtain ⟨lexeme, hmem, hnumber, hread, rfl⟩ := Token.exists_lexeme_of_number
    (Token.readSingle_eq_ok_iff.mp h) (List.mem_singleton_self _) hkind
  obtain ⟨c, rest, hchars, hc, hrest⟩ := Lexeme.exists_run_of_number hmem hnumber
  have hblank {blanks : List Char} (h : ∀ c ∈ blanks, c = ' ' ∨ c = '\t') :
      ∀ c ∈ blanks, Text.isBlank c = true := by
    intro c hc
    rcases h c hc with rfl | rfl <;> decide
  have hnone : ∀ c ∈ lexeme.chars, Text.isBlank c = false := by
    rw [hchars]
    exact List.forall_mem_cons.mpr
      ⟨Lexeme.isBlank_of_continuesNumber (Number.continuesNumber_of_startsNumber hc),
        fun d hd => Lexeme.isBlank_of_continuesNumber (hrest d hd)⟩
  have htrim : Text.trimBlanks line.toList = lexeme.chars := by
    rw [hline, Lexeme.text, String.toList_ofList,
      Text.trimBlanks_padded (hblank hfront) hnone (hblank hbehind)]
  obtain ⟨literal, hliteral⟩ := Option.isSome_iff_exists.mp hread
  rw [evaluate_number_iff, readNumber?, ofLine, htrim, Lexeme.text, String.toList_ofList, hliteral]
  rfl

end Value

end LineScript

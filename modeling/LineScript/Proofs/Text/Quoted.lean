import LineScript.Text.Quoted

namespace LineScript.Text

theorem unescape_plain {c : Char} (hslash : c ≠ '\\') (rest : List Char) :
    unescape (c :: rest) = c :: unescape rest := by
  rw [unescape]
  all_goals simp [hslash]

-- A character is written behind a backslash, and means itself again there, or as it stands.
theorem escapeChar_cases (c : Char) :
    (∃ mark, mark ≠ '\n' ∧ escapeChar c = ['\\', mark] ∧
      ∀ rest, unescape ('\\' :: mark :: rest) = c :: unescape rest) ∨
    (c ≠ '\\' ∧ c ≠ '"' ∧ c ≠ '\n' ∧ escapeChar c = [c]) := by
  unfold escapeChar
  split
  · exact .inl ⟨'\\', by decide, rfl, fun rest => by simp [unescape]⟩
  · exact .inl ⟨'"', by decide, rfl, fun rest => by simp [unescape]⟩
  · exact .inl ⟨'n', by decide, rfl, fun rest => by simp [unescape]⟩
  · exact .inl ⟨'t', by decide, rfl, fun rest => by simp [unescape]⟩
  · exact .inr ⟨‹_›, ‹_›, ‹_›, rfl⟩

-- What is escaped comes back.
theorem unescape_escape (cs : List Char) : unescape (cs.flatMap escapeChar) = cs := by
  induction cs with
  | nil => rfl
  | cons c cs ih =>
      rw [List.flatMap_cons]
      rcases escapeChar_cases c with ⟨mark, _, hc, hback⟩ | ⟨hslash, _, _, hc⟩
      · rw [hc, List.cons_append, List.singleton_append, hback, ih]
      · rw [hc, List.singleton_append, unescape_plain hslash, ih]

theorem newline_not_mem_escapeChar (c : Char) : '\n' ∉ escapeChar c := by
  rcases escapeChar_cases c with ⟨mark, hmark, hc, _⟩ | ⟨_, _, hend, hc⟩
  · rw [hc]
    simpa using Ne.symm hmark
  · rw [hc]
    simpa using Ne.symm hend

-- A literal stays on one line, whatever text it denotes.
theorem newline_not_mem_quote (cs : List Char) : '\n' ∉ quote cs := by
  have hbody : '\n' ∉ cs.flatMap escapeChar := by
    rw [List.mem_flatMap]
    rintro ⟨c, _, hc⟩
    exact newline_not_mem_escapeChar c hc
  simpa [quote] using hbody

end LineScript.Text

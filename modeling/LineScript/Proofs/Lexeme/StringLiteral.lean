import LineScript.Lexeme

namespace LineScript.Lexeme

-- What may stand before the quote that ends a string literal, read from the left: a backslash and
-- the character it takes along, which takes nothing itself and is no newline, or a character that
-- is neither a backslash nor a quote.
inductive LiteralBody : List Char → Prop where
  | nil : LiteralBody []
  | plain {c : Char} {rest : List Char} (hquote : c ≠ '"') (hslash : c ≠ '\\')
      (hrest : LiteralBody rest) : LiteralBody (c :: rest)
  | pair {c : Char} {rest : List Char} (hend : c ≠ '\n') (hrest : LiteralBody rest) :
      LiteralBody ('\\' :: c :: rest)

theorem scanString_of_body {body : List Char} (h : LiteralBody body) (rest : List Char) :
    scanString (body ++ '"' :: rest) = (body ++ ['"'], true, rest) := by
  induction h with
  | nil => rw [List.nil_append, scanString, List.nil_append]
  | plain hquote hslash _ ih =>
      rw [List.cons_append, scanString_plain hquote hslash, ih, List.cons_append]
  | pair hend _ ih =>
      rw [List.cons_append, List.cons_append, scanString_pair hend, ih, List.cons_append,
        List.cons_append]

-- The scanner goes through a body, and then there are four things it may meet: the quote, the end
-- of the text, a backslash before the end, or one before a newline.
theorem exists_body_of_scanString (cs : List Char) :
    ∃ body, LiteralBody body ∧
      (((scanString cs).1 = body ++ ['"'] ∧ (scanString cs).2.1 = true) ∨
        ((scanString cs).2.1 = false ∧
          (((scanString cs).1 = body ∧ (scanString cs).2.2 = []) ∨
            ((scanString cs).1 = body ++ ['\\'] ∧
              ((scanString cs).2.2 = [] ∨ (scanString cs).2.2.head? = some '\n'))))) := by
  induction cs using scanString_induction with
  | nil => exact ⟨[], .nil, by simp [scanString]⟩
  | quote rest => exact ⟨[], .nil, by simp [scanString]⟩
  | slash => exact ⟨[], .nil, by simp [scanString]⟩
  | newline rest => exact ⟨[], .nil, by simp [scanString]⟩
  | pair c rest hend ih =>
      obtain ⟨body, hbody, hcases⟩ := ih
      exact ⟨'\\' :: c :: body, .pair hend hbody, by simpa [scanString_pair hend] using hcases⟩
  | plain c rest hquote hslash ih =>
      obtain ⟨body, hbody, hcases⟩ := ih
      exact ⟨c :: body, .plain hquote hslash hbody,
        by simpa [scanString_plain hquote hslash] using hcases⟩

theorem exists_body_of_closed {cs : List Char} (h : (scanString cs).2.1 = true) :
    ∃ body, LiteralBody body ∧ cs = body ++ '"' :: (scanString cs).2.2 := by
  obtain ⟨body, hbody, ⟨hchars, _⟩ | ⟨hopen, _⟩⟩ := exists_body_of_scanString cs
  · refine ⟨body, hbody, ?_⟩
    have hall := scanString_chars cs
    rw [hchars] at hall
    simpa using hall.symm
  · rw [h] at hopen
    cases hopen

-- The pattern of string literals, `([^"\\]|\\.)*\\?"?` behind the quote that opens them. It also
-- takes in what breaks off, and a quote that ends a literal may be read as one of its last two
-- options.
def LiteralMatch (cs : List Char) : Prop :=
  ∃ body ending, LiteralBody body ∧ ending ∈ [[], ['\\'], ['"'], ['\\', '"']] ∧ cs = body ++ ending

-- Whether a second look at what the pattern took in finds a quote that ends it. Here a backslash
-- takes any character along.
def hasEnd : List Char → Bool
  | [] => false
  | '"' :: _ => true
  | ['\\'] => false
  | '\\' :: _ :: rest => hasEnd rest
  | _ :: rest => hasEnd rest

theorem hasEnd_plain {c : Char} (hquote : c ≠ '"') (hslash : c ≠ '\\') (rest : List Char) :
    hasEnd (c :: rest) = hasEnd rest := by
  rw [hasEnd]
  · exact hquote
  all_goals simp [hslash]

theorem hasEnd_append {body : List Char} (h : LiteralBody body) (ending : List Char) :
    hasEnd (body ++ ending) = hasEnd ending := by
  induction h with
  | nil => rfl
  | plain hquote hslash _ ih => rw [List.cons_append, hasEnd_plain hquote hslash, ih]
  | pair _ _ ih => rw [List.cons_append, List.cons_append, hasEnd, ih]

theorem length_scanString_pos (c : Char) (rest : List Char) :
    0 < (scanString (c :: rest)).1.length := by
  unfold scanString
  split <;> simp_all

theorem length_le_of_match {cs p : List Char} (hmatch : LiteralMatch p) (hp : p <+: cs) :
    p.length ≤ (scanString cs).1.length := by
  obtain ⟨body, ending, hbody, hending, rfl⟩ := hmatch
  obtain ⟨rest, rfl⟩ := hp
  rw [List.append_assoc]
  induction hbody with
  | nil =>
      simp only [List.mem_cons, List.not_mem_nil, or_false] at hending
      rcases hending with rfl | rfl | rfl | rfl
      · simp
      · exact length_scanString_pos '\\' rest
      · simp [scanString]
      · simp [scanString_pair]
  | plain hquote hslash _ ih =>
      simp only [List.cons_append, scanString_plain hquote hslash, List.length_cons]
      omega
  | pair hend _ ih =>
      simp only [List.cons_append, scanString_pair hend, List.length_cons]
      omega

-- The scanner does in one pass what a longest match of the pattern and a second look would do.
theorem scanString_is_longest_match (cs : List Char) :
    LiteralMatch (scanString cs).1 ∧ (scanString cs).1 <+: cs ∧
      (∀ p, LiteralMatch p → p <+: cs → p.length ≤ (scanString cs).1.length) ∧
      hasEnd (scanString cs).1 = (scanString cs).2.1 := by
  refine ⟨?_, ⟨_, scanString_chars cs⟩, fun p => length_le_of_match, ?_⟩
  all_goals
    obtain ⟨body, hbody, ⟨hchars, hclosed⟩ | ⟨hopen, ⟨hchars, _⟩ | ⟨hchars, _⟩⟩⟩ :=
      exists_body_of_scanString cs
  · exact ⟨body, _, hbody, by simp, hchars⟩
  · exact ⟨body, [], hbody, by simp, by simpa using hchars⟩
  · exact ⟨body, _, hbody, by simp, hchars⟩
  · rw [hchars, hclosed, hasEnd_append hbody, hasEnd]
  · rw [hchars, hopen, ← List.append_nil body, hasEnd_append hbody, hasEnd]
  · rw [hchars, hopen, hasEnd_append hbody, hasEnd]

end LineScript.Lexeme

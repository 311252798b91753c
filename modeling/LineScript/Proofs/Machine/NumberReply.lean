import LineScript.Proofs.Machine.Reply
import LineScript.Proofs.Token.NumberLiteral

namespace LineScript.Machine

-- A reply is taken for a number just if it is read as one, and then it is the number of its line.
theorem replyValue_cases {memory : Memory} {reply : String} {value : Value}
    (h : replyValue memory reply = .ok value) :
    (∃ token, Token.readSingle reply = .ok token ∧ token.kind = .number ∧
        value = .ofLine reply ∧ (value.type = .integer ∨ value.type = .float)) ∨
      (∀ token, Token.readSingle reply = .ok token → token.kind ≠ .number) ∧
        (value.type = .list ∨ value.type = .string) := by
  unfold replyValue at h
  split at h
  · rename_i token hread
    have hsame {other : Token} (hother : Token.readSingle reply = .ok other) : token = other :=
      Except.ok.inj (hread.symm.trans hother)
    split_ifs at h with hkind
    · rcases hkind with hnumber | hlist
      · have hline := Value.ofLine_of_number hread hnumber memory
        rw [h, Except.ok.injEq] at hline
        obtain ⟨kind, text⟩ := token
        obtain rfl : kind = .number := hnumber
        have htype := Value.type_of_readNumber? (Value.evaluate_number_iff.mp h)
        exact .inl ⟨_, hread, rfl, hline, htype⟩
      · refine .inr ⟨fun other hother => by simp [← hsame hother, hlist], ?_⟩
        rw [Memory.evaluate_list hlist] at h
        split at h
        · cases h
        · obtain ⟨_, _, rfl⟩ := map_eq_ok.mp h
          exact .inl rfl
    · cases h
      refine .inr ⟨fun other hother hnumber => hkind (.inl ?_), .inr rfl⟩
      rw [hsame hother, hnumber]
  · rename_i e hread
    cases h
    refine .inr ⟨fun other hother => ?_, .inr rfl⟩
    rw [hread] at hother
    cases hother

-- A text of a number is a number literal, or one with a plus in front of it that has no sign of its
-- own. So an INPUT stores a number just for the lines that are a literal between blanks, and the
-- number is what such a line in a file stands for.
theorem numbers_on_lines_are_literals :
    (∀ (memory : Memory) (text : String) (value : Value),
      Value.readNumber? text = some value ↔
        (Token.readSingle text = .ok ⟨.number, text⟩ ∧
          memory.evaluate ⟨.number, text⟩ = .ok value) ∨
        ∃ unsigned : String, text = "+" ++ unsigned ∧
          (∃ c ∈ unsigned.toList.head?, c.isDigit = true ∨ c = '.') ∧
          Token.readSingle unsigned = .ok ⟨.number, unsigned⟩ ∧
          memory.evaluate ⟨.number, unsigned⟩ = .ok value) ∧
    ∀ (m : Machine) (s : Statement) (line : String), s.operation = .input →
      m.world.console.readLine.2 = .ok line → (m.step s).2 = .ok () →
      ∃ value,
        (m.step s).1.memory.read (s.primary.getD .null).text = .ok value ∧
        ((value.type = .integer ∨ value.type = .float) ↔
          ∃ token, Token.readSingle line = .ok token ∧ token.kind = .number) ∧
        ((value.type = .integer ∨ value.type = .float) → Value.ofLine line = value) := by
  refine ⟨fun memory text value => Value.readNumber?_eq_some_iff memory, ?_⟩
  intro m s line hs hline hok
  obtain ⟨value, hvalue, hwrite⟩ := stored_of_input hs hline hok
  refine ⟨value, Memory.read_written hwrite, ?_⟩
  rcases replyValue_cases hvalue with ⟨token, hread, hkind, rfl, htype⟩ | ⟨hnone, htype⟩
  · exact ⟨⟨fun _ => ⟨token, hread, hkind⟩, fun _ => htype⟩, fun _ => rfl⟩
  · have hother : ¬(value.type = .integer ∨ value.type = .float) := by
      rcases htype with htype | htype <;> simp [htype]
    refine ⟨⟨fun h => absurd h hother, ?_⟩, fun h => absurd h hother⟩
    rintro ⟨token, hread, hkind⟩
    exact absurd hkind (hnone token hread)

-- An INPUT of the least integer, with blanks around it.
def leastReply : Machine :=
  .start { World.blank with
    console := .ofInput (Text.encode "\t -9223372036854775808 \t\r\nrest") }

def leastInput : Statement :=
  ⟨.input, some ⟨.name, "x"⟩, some ⟨.string, "\"?\""⟩, "INPUT x WITH \"?\""⟩

theorem least_integer_is_stored :
    Value.readNumber? "+007" = some (.integer 7) ∧
    (leastReply.step leastInput).2 = .ok () ∧
    (leastReply.step leastInput).1.memory.read "x" = .ok (.integer Int64.minValue) ∧
    Value.ofLine "\t -9223372036854775808 \t" = .integer Int64.minValue := by
  obtain ⟨hliterals, hlines⟩ := numbers_on_lines_are_literals
  have hplus : Value.readNumber? "+007" = some (.integer 7) := by
    refine (hliterals .fresh _ _).mpr (.inr ⟨"007", by decide, ⟨'0', rfl, .inl rfl⟩, ?_, ?_⟩)
    · decide +kernel
    · rw [Memory.evaluate]
      rfl
  have hline : leastReply.world.console.readLine.2 = .ok "\t -9223372036854775808 \t" := by
    decide +kernel
  have hread : Token.readSingle "\t -9223372036854775808 \t" =
      .ok ⟨.number, "-9223372036854775808"⟩ := by
    decide +kernel
  have hleast : Memory.fresh.evaluate ⟨.number, "-9223372036854775808"⟩ =
      .ok (.integer Int64.minValue) := by
    have hinteger : Number.readInteger? "-9223372036854775808".toList = some Int64.minValue := by
      decide +kernel
    rw [Value.evaluate_number_iff, Value.readNumber?, Number.Literal.read?, hinteger]
    rfl
  have hreply : replyValue Memory.fresh "\t -9223372036854775808 \t" =
      .ok (.integer Int64.minValue) := by
    unfold replyValue
    rw [hread]
    exact hleast
  have hfound : Memory.fresh.evaluate ⟨.name, "x"⟩ = .ok .null := by
    rw [Memory.evaluate]
    rfl
  have hprompt : Memory.fresh.evaluate ⟨.string, "\"?\""⟩ = .ok (.string "?") := by
    rw [Memory.evaluate]
    rfl
  obtain ⟨hok, _⟩ := step_of_input (m := leastReply) (s := leastInput) rfl ⟨_, hfound⟩ hprompt rfl
    rfl hline hreply rfl
  obtain ⟨value, hstored, hnumber, hsame⟩ := hlines leastReply leastInput _ rfl hline hok
  obtain rfl := hsame (hnumber.mpr ⟨_, hread, rfl⟩)
  have hvalue : Value.ofLine "\t -9223372036854775808 \t" = .integer Int64.minValue := by
    have := Value.ofLine_of_number hread rfl .fresh
    rw [hleast, Except.ok.injEq] at this
    exact this.symm
  rw [hvalue] at hstored
  exact ⟨hplus, hok, hstored, hvalue⟩

end LineScript.Machine

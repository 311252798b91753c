import LineScript.Proofs.Machine.FileCourse
import LineScript.Proofs.Machine.Reply
import LineScript.Proofs.Token.Displayed

namespace LineScript

namespace Console

theorem takeLine_of_newline {front : List UInt8} (h : Text.newline ∉ front) (rest : List UInt8) :
    takeLine (front ++ Text.newline :: rest) = (front ++ [Text.newline], rest) := by
  induction front with
  | nil => simp [takeLine]
  | cons byte front ih =>
      obtain ⟨hbyte, hfront⟩ := not_or.mp (mt List.mem_cons.mpr h)
      rw [List.cons_append, takeLine, if_neg (Ne.symm hbyte), ih hfront]
      rfl

-- A line comes in as it was written.
theorem readLine_of_line {console : Console} {text : String} {rest : List UInt8}
    (htext : Text.IsLine text) (h : console.input = Text.lineBytes text ++ rest) :
    console.readLine.2 = .ok text := by
  have htaken : takeLine console.input = (Text.lineBytes text, rest) := by
    rw [h, Text.lineBytes, List.append_assoc]
    exact takeLine_of_newline (Text.newline_not_mem_encode htext.1) rest
  rw [readLine, htaken, Text.lineBytes_eq]
  dsimp only
  rw [Array.toArray_toList, Text.decode?_encode]
  exact congrArg Except.ok (Text.trimLineEnd_of_line htext)

end Console

namespace Machine

variable {m : Machine} {s : Statement} {target : Token} {prompt : String}

-- An INPUT into a variable, on a console that does not fail.
structure Asks (m : Machine) (s : Statement) (target : Token) (prompt : String) : Prop where
  operation : s.operation = .input
  primary : s.primary = some target
  kind : target.kind = .name
  plain : (Name.ofText target.text).accessors = []
  prompted : m.memory.evaluateOperand s.secondary = .ok (.string prompt)
  written : (m.world.console.write prompt).2 = .ok ()
  flushed : m.world.console.flush = .ok ()

-- What a bare value is displayed as is taken for the value when it is typed in, but `null` by
-- itself is taken for a text.
theorem replyValue_display {memory : Memory} {value : Value} (h : value.Bare)
    (hshape : value.type = .integer ∨ value.type = .list)
    (hnull : memory.read "null" = .ok .null) (opened : Handle → Bool) :
    replyValue memory (value.display opened) = .ok value := by
  unfold replyValue
  rw [h.readSingle]
  dsimp only
  rw [if_pos, h.evaluate hnull]
  cases h with
  | null => simp [Value.type] at hshape
  | integer n => exact .inl rfl
  | list => exact .inr rfl

-- A line that PRINT has written for an integer, or for a list of integers, nulls and such lists, is
-- a line for INPUT, and INPUT stores the value that was printed, with all its lists and nulls.
theorem printed_values_are_read_back (m : Machine) (s : Statement) (target : Token)
    (prompt : String) (value : Value) (opened : Handle → Bool) (hasks : m.Asks s target prompt)
    (hbare : value.Bare) (hshape : value.type = .integer ∨ value.type = .list)
    (hnull : m.memory.read "null" = .ok .null) :
    (∀ rest, m.world.console.input = (Text.encode (value.display opened ++ "\n")).toList ++ rest →
      m.world.console.readLine.2 = .ok (value.display opened)) ∧
    (m.world.console.readLine.2 = .ok (value.display opened) →
      (m.step s).2 = .ok () ∧ (m.step s).1.memory.read target.text = .ok value) := by
  constructor
  · intro rest hinput
    rw [← Text.lineBytes_eq] at hinput
    exact Console.readLine_of_line hbare.isLine_display hinput
  · intro hline
    have htakes := Memory.takes_of_plain hasks.kind hasks.plain m.memory
    have htarget : s.primary.getD .null = target := by rw [hasks.primary]; rfl
    obtain ⟨next, hwrite⟩ := htakes.write value
    have hreply := replyValue_display hbare hshape hnull opened
    obtain ⟨hok, hmemory⟩ := step_of_input hasks.operation (by rw [htarget]; exact htakes.evaluate)
      hasks.prompted hasks.written hasks.flushed hline hreply (by rw [htarget]; exact hwrite)
    rw [hmemory]
    exact ⟨hok, Memory.read_written hwrite⟩

-- Both ends of the integers, an empty list and a null in one list.
def nestedValue : Value :=
  .list [.integer Int64.minValue, .list [], .list [.null, .integer Int64.maxValue]]

def nestedReply : Machine :=
  .start { World.blank with
    console := .ofInput (Text.encode
      "( -9223372036854775808, (  ), ( null, 9223372036854775807 ) )\n12\n") }

theorem nested_list_is_read_back :
    let s : Statement :=
      ⟨.input, some ⟨.name, "x"⟩, some ⟨.string, "\"?\""⟩, "INPUT x WITH \"?\""⟩
    (nestedReply.step s).2 = .ok () ∧
      (nestedReply.step s).1.memory.read "x" = .ok nestedValue := by
  intro s
  have hdisplay : nestedValue.display World.blank.opened =
      "( -9223372036854775808, (  ), ( null, 9223372036854775807 ) )" := by
    decide +kernel
  have hprompt : Memory.fresh.evaluate ⟨.string, "\"?\""⟩ = .ok (.string "?") := by
    rw [Memory.evaluate]
    rfl
  have hinner : (Value.list [.null, .integer Int64.maxValue]).Bare :=
    .list (List.forall_mem_cons.mpr ⟨.null, List.forall_mem_singleton.mpr (.integer _)⟩)
  have hbare : nestedValue.Bare :=
    .list (List.forall_mem_cons.mpr ⟨.integer _,
      List.forall_mem_cons.mpr ⟨.list (by simp), List.forall_mem_singleton.mpr hinner⟩⟩)
  have hasks : nestedReply.Asks s ⟨.name, "x"⟩ "?" :=
    ⟨rfl, rfl, rfl, by decide +kernel, hprompt, rfl, rfl⟩
  obtain ⟨hprinted, hread⟩ := printed_values_are_read_back nestedReply s ⟨.name, "x"⟩ "?"
    nestedValue World.blank.opened hasks hbare (.inr rfl) rfl
  refine hread (hprinted (Text.encode "12\n").toList ?_)
  rw [hdisplay]
  decide +kernel

end Machine

end LineScript

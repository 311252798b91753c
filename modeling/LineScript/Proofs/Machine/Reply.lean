import LineScript.Proofs.Machine.Console
import LineScript.Proofs.Machine.ControlFlow
import LineScript.Proofs.Program.ClosedFile

namespace LineScript

-- A write to the console takes nothing from what is still to be read.
theorem Console.exists_output_of_write (console : Console) (text : String) :
    ∃ output, (console.write text).1 = { console with output := output } := by
  unfold write
  dsimp only
  split
  · exact ⟨_, rfl⟩
  · split_ifs
    · exact ⟨_, rfl⟩
    · exact ⟨_, rfl⟩

namespace Machine

variable {m : Machine} {s : Statement} {target : Token} {prompt reply : String} {value : Value}

-- An INPUT that gets as far as to have a reply stores what the reply is taken for.
theorem ask_of_reply (target : Token) (hwritten : (m.world.console.write prompt).2 = .ok ())
    (hflushed : m.world.console.flush = .ok ())
    (hreply : m.world.console.readLine.2 = .ok reply) :
    ∃ console, m.ask target (.string prompt) =
      (m.withConsole console).storeResult target true (replyValue m.memory reply) := by
  obtain ⟨output, houtput⟩ := m.world.console.exists_output_of_write prompt
  have hwrite : m.world.console.write prompt =
      ({ m.world.console with output := output }, .ok ()) := Prod.ext houtput hwritten
  have hread : (m.withConsole { m.world.console with output := output }).world.console.readLine =
      ({ m.world.console.readLine.1 with output := output }, .ok reply) := Prod.ext rfl hreply
  have hflush : (m.withConsole { m.world.console with output := output }).flush = .ok () :=
    congrArg (Except.mapError RuntimeError.console) hflushed
  refine ⟨{ m.world.console.readLine.1 with output := output }, ?_⟩
  rw [ask_eq, say, hwrite]
  change (m.withConsole _).hear target = _
  rw [hear, hflush]
  dsimp only
  rw [hread]
  rfl

theorem ask_eq_ok {b : Value} (h : (m.ask target b).2 = .ok ()) :
    ∃ prompt, b = .string prompt ∧ (m.world.console.write prompt).2 = .ok () ∧
      m.world.console.flush = .ok () := by
  cases b with
  | string prompt =>
      refine ⟨prompt, rfl, ?_⟩
      obtain ⟨output, houtput⟩ := m.world.console.exists_output_of_write prompt
      rw [ask_eq, say] at h
      generalize hwrite : m.world.console.write prompt = written at h houtput ⊢
      obtain ⟨console, outcome⟩ := written
      cases outcome with
      | error e => cases h
      | ok _ =>
          refine ⟨rfl, ?_⟩
          obtain rfl : console = { m.world.console with output := output } := houtput
          cases hflushed : m.world.console.flush with
          | ok _ => rfl
          | error e =>
              have hflush : (m.withConsole { m.world.console with output := output }).flush =
                  .error (.console e) := congrArg (Except.mapError RuntimeError.console) hflushed
              change ((m.withConsole _).hear target).2 = .ok () at h
              rw [hear, hflush] at h
              cases h
  | _ => cases h

-- What an INPUT stores.
theorem stored_of_input (hs : s.operation = .input)
    (hreply : m.world.console.readLine.2 = .ok reply) (h : (m.step s).2 = .ok ()) :
    ∃ value, replyValue m.memory reply = .ok value ∧
      m.memory.write (s.primary.getD .null).text value true = .ok (m.step s).1.memory := by
  obtain ⟨a, b, _, _, hok, hmemory⟩ := perform_of_step_ok h
  rw [perform_input hs] at hok hmemory
  obtain ⟨prompt, rfl, hwritten, hflushed⟩ := ask_eq_ok hok
  obtain ⟨console, hask⟩ := ask_of_reply (s.primary.getD .null) hwritten hflushed hreply
  rw [hask] at hok hmemory
  rw [← hmemory]
  cases hvalue : replyValue m.memory reply with
  | error e =>
      rw [hvalue] at hok
      cases hok
  | ok value =>
      rw [hvalue] at hok
      exact ⟨value, rfl, write_of_store_ok hok⟩

theorem step_of_input {next : Memory} (hs : s.operation = .input)
    (hfound : ∃ old, m.memory.evaluate (s.primary.getD .null) = .ok old)
    (hprompt : m.memory.evaluateOperand s.secondary = .ok (.string prompt))
    (hwritten : (m.world.console.write prompt).2 = .ok ())
    (hflushed : m.world.console.flush = .ok ())
    (hreply : m.world.console.readLine.2 = .ok reply)
    (hvalue : replyValue m.memory reply = .ok value)
    (hwrite : m.memory.write (s.primary.getD .null).text value true = .ok next) :
    (m.step s).2 = .ok () ∧ (m.step s).1.memory = next := by
  obtain ⟨old, hold⟩ := hfound
  obtain ⟨console, hask⟩ := ask_of_reply (s.primary.getD .null) hwritten hflushed hreply
  have hperform : m.perform s (s.primary.getD .null) old (.string prompt) =
      done { m.withConsole console with memory := next } := by
    have hstored : (m.withConsole console).memory.write (s.primary.getD .null).text value true =
        .ok next := hwrite
    rw [perform_input hs, hask, hvalue, storeResult, store, hstored]
  obtain ⟨hok, hmemory, _⟩ := step_of_perform_done hold hprompt hperform
  exact ⟨hok, hmemory⟩

end Machine

end LineScript

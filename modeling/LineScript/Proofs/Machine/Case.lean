import LineScript.Proofs.Machine.Deed
import LineScript.Proofs.Machine.Frame
import LineScript.Proofs.Memory.Case
import LineScript.Proofs.Program.Operands
import LineScript.Proofs.Statement.Case

namespace LineScript.Machine

open Text

-- The same machine, and the same outcome but for how an error is told.
inductive Result.Alike : Result → Result → Prop where
  | done (m : Machine) : Alike m.done m.done
  | fail (m : Machine) {e e' : RuntimeError} (h : e.kind = e'.kind) : Alike (m.fail e) (m.fail e')
  | crash (m : Machine) : Alike (m, .error .crash) (m, .error .crash)

theorem Result.Alike.refl (result : Result) : result.Alike result := by
  obtain ⟨m, outcome⟩ := result
  cases outcome with
  | ok _ => exact .done m
  | error fault =>
      cases fault with
      | error e => exact .fail m rfl
      | crash => exact .crash m

-- What is done to the machine afterwards is done on both sides.
theorem Result.Alike.congr {one other : Result} (h : one.Alike other) (f : Machine → Machine) :
    Result.Alike (f one.1, one.2) (f other.1, other.2) := by
  cases h with
  | done m => exact .done (f m)
  | fail m h => exact .fail (f m) h
  | crash m => exact .crash (f m)

variable (m : Machine) {target target' : Token}

theorem alike_store (h : upper target.text = upper target'.text) (value : Value) (create : Bool) :
    (m.store target value create).Alike (m.store target' value create) := by
  have hwrite := m.memory.alike_write h value create
  unfold store
  generalize m.memory.write target.text value create = one at hwrite
  generalize m.memory.write target'.text value create = other at hwrite
  cases hwrite with
  | @ok memory _ h =>
      subst h
      exact .done _
  | error h => exact .fail m h

theorem alike_storeResult (h : upper target.text = upper target'.text) (create : Bool)
    (result : Except RuntimeError Value) :
    (m.storeResult target create result).Alike (m.storeResult target' create result) := by
  cases result with
  | ok value => exact m.alike_store h value create
  | error e => exact .refl _

theorem alike_random (h : upper target.text = upper target'.text) (bound : Value) :
    (m.random target bound).Alike (m.random target' bound) := by
  unfold random
  dsimp only
  split
  · split
    · exact .refl _
    · exact m.alike_store h _ true
    · exact alike_store _ h _ true
  · exact alike_store _ h _ true
  · exact .refl _

theorem alike_openFile (h : upper target.text = upper target'.text) (operation : Operation)
    (name : Value) :
    (m.openFile operation target name).Alike (m.openFile operation target' name) := by
  unfold openFile
  simp only [borrowing_none]
  split
  · split
    · exact .refl _
    · rename_i files handle value _
      have hstore := alike_store ((m.withFiles files).note
        ⟨.debug, .fileOpening, "opened " ++ (m.withFiles files).display value⟩) h value true
      generalize Machine.store _ target value true = one at hstore
      generalize Machine.store _ target' value true = other at hstore
      cases hstore with
      | done stored => exact .refl _
      | fail unstored h => exact .fail _ h
      | crash unstored => exact .refl _
  · exact .refl _

theorem alike_closeFile (h : upper target.text = upper target'.text) (file : Value) :
    (m.closeFile target file).Alike (m.closeFile target' file) := by
  unfold closeFile
  simp only [borrowing_none]
  split
  · split
    · exact alike_store _ h .null false
    · exact .refl _
  · exact .refl _

theorem alike_readFrom {fileToken fileToken' : Token}
    (hfile : upper fileToken.text = upper fileToken'.text)
    (h : upper target.text = upper target'.text) (file : Value) :
    (m.readFrom fileToken file target).Alike (m.readFrom fileToken' file target') := by
  unfold readFrom
  simp only [borrowing_none]
  split
  · rename_i handle
    split
    · exact .refl _
    · exact alike_store _ h _ true
    · rename_i files _
      have hstore := alike_store (m.withFiles (files.close handle).1) hfile .null false
      generalize Machine.store _ fileToken .null false = one at hstore
      generalize Machine.store _ fileToken' .null false = other at hstore
      cases hstore with
      | done closed => exact closed.alike_store h .null true
      | fail unclosed h => exact .fail unclosed h
      | crash unclosed => exact .crash unclosed
  · exact .refl _

theorem alike_ask (h : upper target.text = upper target'.text) (prompt : Value) :
    (m.ask target prompt).Alike (m.ask target' prompt) := by
  unfold ask
  split
  · split
    · exact .refl _
    · split
      · exact .refl _
      · split
        · exact .refl _
        · exact alike_storeResult _ h true _
  · exact .refl _

theorem upper_text_getD (operand : Option Token) :
    upper (operand.getD .null).text = upper ((operand.map Token.capital).getD .null).text := by
  cases operand with
  | none => rfl
  | some token => exact (upper_capitalized token.text).symm

-- Every operation does the same to a target in either case.
theorem alike_perform (s : Statement) (h : upper target.text = upper target'.text) (a b : Value) :
    (m.perform s target a b).Alike (m.perform s.capital target' a b) := by
  have hsecondary : upper (s.secondary.getD .null).text =
      upper (s.capital.secondary.getD .null).text := by
    rw [s.secondary_capital]
    exact upper_text_getD s.secondary
  rw [perform_eq_act, perform_eq_act]
  unfold act
  rw [show s.capital.operation = s.operation from rfl]
  split
  · exact m.alike_storeResult h _ _
  · split
    · exact .refl _
    · split
      case h_1 => exact m.alike_random h b
      case h_2 | h_3 => exact m.alike_openFile h _ b
      case h_4 => exact m.alike_closeFile h a
      case h_5 => exact m.alike_readFrom h hsecondary a
      case h_7 => exact m.alike_ask h b
      all_goals exact .refl _

theorem alike_operands {line : String} {s : Statement} (hread : Statement.read line = .ok s)
    (memory : Memory) :
    Alike Eq (memory.evaluate (s.primary.getD .null))
        (memory.evaluate (s.capital.primary.getD .null)) ∧
      Alike Eq (memory.evaluateOperand s.secondary)
        (memory.evaluateOperand s.capital.secondary) := by
  have hoperand (token : Token) (hrole : s.primary = some token ∨ s.secondary = some token) :
      token.IsRead := by
    obtain ⟨tokens, htokens, hmem, _⟩ := Statement.operand_of_read hread hrole
    exact Token.isRead_of_mem_readAll htokens token hmem
  rw [s.primary_capital, s.secondary_capital]
  constructor
  · cases hs : s.primary with
    | none => exact .refl _
    | some token => exact memory.alike_evaluate (hoperand token (.inl hs))
  · exact memory.alike_evaluateOperand fun token hs => hoperand token (.inr hs)

-- A statement does the same in either case.
theorem alike_execute {line : String} {s : Statement} (hread : Statement.read line = .ok s) :
    (m.execute s).Alike (m.execute s.capital) := by
  have htarget : upper (s.primary.getD .null).text = upper (s.capital.primary.getD .null).text := by
    rw [s.primary_capital]
    exact upper_text_getD s.primary
  obtain ⟨hprimary, hsecondary⟩ := alike_operands hread m.memory
  generalize ha : m.memory.evaluate (s.primary.getD .null) = one at hprimary
  generalize ha' : m.memory.evaluate (s.capital.primary.getD .null) = other at hprimary
  generalize hb : m.memory.evaluateOperand s.secondary = given at hsecondary
  generalize hb' : m.memory.evaluateOperand s.capital.secondary = given' at hsecondary
  cases hprimary with
  | error h =>
      rw [m.execute_of_primary_error s ha, m.execute_of_primary_error s.capital ha']
      exact .fail m h
  | @ok a _ h =>
      subst h
      cases hsecondary with
      | error h =>
          rw [m.execute_of_secondary_error s ha hb, m.execute_of_secondary_error s.capital ha' hb']
          exact .fail m h
      | @ok b _ h =>
          subst h
          rw [m.execute_of_operands s ha hb, m.execute_of_operands s.capital ha' hb']
          exact (m.alike_perform s htarget a b).congr (·.release (m.leaving a b))

theorem alike_step {line : String} {s : Statement} (hread : Statement.read line = .ok s) :
    (m.step s).Alike (m.step s.capital) := by
  have hexecute := m.alike_execute hread
  rw [step_eq_settle, step_eq_settle]
  generalize m.execute s = one at hexecute
  generalize m.execute s.capital = other at hexecute
  cases hexecute with
  | done next => exact .done _
  | fail next h => exact .fail next h
  | crash next => exact .crash next

end LineScript.Machine

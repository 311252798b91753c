import LineScript.Proofs.Machine.Lending
import LineScript.Proofs.Machine.Operands
import LineScript.Proofs.Program.Steps
import LineScript.Proofs.Token.Spelling

namespace LineScript

namespace Value

variable {value index : Value} {name : String}

-- What is found at an index is there: a list or a text is never reached past its end.
theorem element_eq_ok {item : Value} (h : value.element index name = .ok item) :
    ∃ i : Nat,
      (∃ items, value = .list items ∧ items[i]? = some item) ∨
        ∃ text c, value = .string text ∧ text.toList[i]? = some c ∧
          item = .string (String.singleton c) := by
  cases value with
  | list items =>
      obtain ⟨i, hindex, rfl⟩ := map_eq_ok.mp h
      have hlt := (Memory.checkedIndex_eq_ok hindex).1
      exact ⟨i, .inl ⟨items, rfl, by simp [hlt]⟩⟩
  | string text =>
      obtain ⟨i, hindex, rfl⟩ := map_eq_ok.mp h
      have hlt := (Memory.checkedIndex_eq_ok hindex).1
      rw [← String.length_toList] at hlt
      exact ⟨i, .inr ⟨text, text.toList[i], rfl, by simp [hlt], by simp [hlt]⟩⟩
  | _ => cases h

theorem modifyElement_eq_ok {change : Value → Except RuntimeError Value} {new : Value}
    (h : value.modifyElement index name change = .ok new) :
    ∃ (i : Nat) (items : List Value) (old item : Value), value = .list items ∧
      items[i]? = some old ∧ change old = .ok item ∧ new = .list (items.set i item) := by
  cases value with
  | list items =>
      obtain ⟨i, hindex, hchange⟩ := bind_eq_ok.mp h
      obtain ⟨item, hitem, rfl⟩ := map_eq_ok.mp hchange
      have hlt := (Memory.checkedIndex_eq_ok hindex).1
      have hold : items[i]? = some (items.getD i .null) := by simp [hlt]
      exact ⟨i, items, _, item, rfl, hold, hitem, rfl⟩
  | _ => cases h

end Value

-- The text of a list is cut out of the text it stands in.
theorem Token.slice_of_list {cs : List Char} {tokens : List Token} {token : Token}
    (h : Token.readChars cs = .ok tokens) (hmem : token ∈ tokens) (hlist : token.kind = .list) :
    ∃ start stop, start ≤ stop ∧ stop ≤ cs.length ∧
      token.text.toList = (cs.take stop).drop start := by
  rcases origin_of_mem_tokensOf h hmem with ⟨lexeme, _, htoken⟩ | hliteral
  · exact absurd hlist (Lexeme.token_kind_ne_list htoken)
  · obtain ⟨opening, body, _, closing, ⟨before, after, hrun⟩, _, _, _, rfl⟩ := hliteral
    have hchars : before.flatMap Lexeme.chars ++
        (opening.chars ++ (body.flatMap Lexeme.chars ++ closing.chars)) ++
          after.flatMap Lexeme.chars = cs := by
      rw [← Lexeme.flatMap_chars_scan cs, ← hrun]
      simp
    generalize before.flatMap Lexeme.chars = front at hchars
    generalize opening.chars ++ (body.flatMap Lexeme.chars ++ closing.chars) = text at hchars
    generalize after.flatMap Lexeme.chars = back at hchars
    subst hchars
    refine ⟨front.length, (front ++ text).length, by simp, by simp, ?_⟩
    rw [String.toList_ofList, List.take_left, List.drop_left]

namespace Program

-- A run crashes with the statement that writes a file to itself, and with no other.
theorem crashes_drive (program : Program) (fuel : Nat) (m : Machine) :
    (program.drive fuel m).2 = .crashed ↔
      ∃ step ∈ program.steps fuel m, step.1.WritesToItself step.2 := by
  induction fuel generalizing m with
  | zero => simp [drive, steps]
  | succ fuel ih =>
      rcases program.steps_cases fuel m with ⟨hsteps, hdrive⟩ |
        ⟨s, ⟨next, hstep, hsteps, hdrive⟩ | ⟨last, fault, outcome, hstep, hsteps, hresult, hdrive⟩⟩
      · simp [hsteps, hdrive]
      · have hfine : ¬(m.announce s).WritesToItself s := by
          rw [← Machine.crashes_step, hstep]
          simp
        simp [hsteps, hdrive, ih, hfine]
      · have hcrash : outcome = .crashed ↔ (m.announce s).WritesToItself s := by
          rw [← Machine.crashes_step, hstep]
          cases fault <;> cases hresult <;> simp
        simp [hsteps, hdrive, hcrash]

-- There is one way to crash. Nothing else does: no other operation, no source that is compiled, no
-- closing of files at the end, no index into a list or a text and no cut out of a line. A value
-- can be shown or compared, file by file, as long as none of the files it takes is lent out.
theorem only_writing_to_itself_crashes :
    (∀ (m : Machine) (s : Statement),
      (m.execute s).2 = .error .crash ↔
        s.operation = .write ∧ ∃ handle value file,
          m.memory.evaluate (s.primary.getD .null) = .ok (.writer handle) ∧
            m.memory.evaluateOperand s.secondary = .ok value ∧
            Value.handle? file = some handle ∧ Value.Occurs file value) ∧
    (∀ (program : Program) (fuel : Nat) (world : World),
      (program.run fuel world).2 = .crashed ↔
        ∃ step ∈ program.steps fuel (program.load world),
          (step.1.execute step.2).2 = .error .crash) ∧
    (∀ source fuel world, (runSource source fuel world).2 = .crashed →
      ∃ program noted, compile source = .ok program ∧ (program.run fuel noted).2 = .crashed) ∧
    (∀ (loans : Loans) (opened : Handle → Bool) (value other : Value),
      value.shown? loans opened =
          (if loans.grants .look value.handles then some (value.display opened) else none) ∧
        value.equals? loans other =
          (if loans.grants .look (value.compared other) then some (value.equals other)
          else none)) ∧
    (∀ cs tokens token, Token.readChars cs = .ok tokens → token ∈ tokens → token.kind = .list →
      ∃ start stop, start ≤ stop ∧ stop ≤ cs.length ∧
        token.text.toList = (cs.take stop).drop start) ∧
    (∀ (value index : Value) (name : String) (item : Value),
      value.element index name = .ok item →
        ∃ i : Nat,
          (∃ items, value = .list items ∧ items[i]? = some item) ∨
            ∃ text c, value = .string text ∧ text.toList[i]? = some c ∧
              item = .string (String.singleton c)) ∧
    ∀ (value index : Value) (name : String) (change : Value → Except RuntimeError Value)
      (new : Value), value.modifyElement index name change = .ok new →
        ∃ (i : Nat) (items : List Value) (old item : Value), value = .list items ∧
          items[i]? = some old ∧ change old = .ok item ∧ new = .list (items.set i item) := by
  refine ⟨Machine.crashes_execute, fun program fuel world => ?_, fun source fuel world h => ?_,
    fun loans opened value other => ⟨value.shown?_eq loans opened, value.equals?_eq loans other⟩,
    fun cs tokens token => Token.slice_of_list, fun value index name item => Value.element_eq_ok,
    fun value index name change new => Value.modifyElement_eq_ok⟩
  · rw [run_outcome, crashes_drive]
    simp only [Machine.crashes_execute]
  · unfold runSource at h
    dsimp only at h
    split at h
    · cases h
    · rename_i program hcompile
      exact ⟨program, _, hcompile, h⟩

-- A file that is closed already, in a list within a list.
theorem closed_file_written_to_itself_crashes :
    ∃ program, (compile ("OPEN \"x\" AS WRITE f\nSET g TO f\nCLOSE f\n" ++
        "WRITE (1, (g, 2)) TO g")).toOption = some program ∧
      (program.run 5 .blank).2 = .crashed ∧
      ∃ step ∈ program.steps 5 (program.load .blank), step.2.operation = .write ∧
        ∃ handle value file,
          step.1.memory.evaluate (step.2.primary.getD .null) = .ok (.writer handle) ∧
            step.1.memory.evaluateOperand step.2.secondary = .ok value ∧
            Value.handle? file = some handle ∧ Value.Occurs file value := by
  have hrun : (compile ("OPEN \"x\" AS WRITE f\nSET g TO f\nCLOSE f\n" ++
      "WRITE (1, (g, 2)) TO g")).toOption.any (fun program =>
        match (program.run 5 .blank).2 with
        | .crashed => true
        | _ => false) = true := by
    decide +kernel
  obtain ⟨program, hprogram, hcrashed⟩ := (Option.any_eq_true _ _).mp hrun
  split at hcrashed
  · rename_i houtcome
    obtain ⟨hexecute, hruns, _⟩ := only_writing_to_itself_crashes
    obtain ⟨step, hstep, hcrash⟩ := (hruns program 5 .blank).mp houtcome
    exact ⟨program, hprogram, houtcome, step, hstep, (hexecute step.1 step.2).mp hcrash⟩
  · cases hcrashed

end Program

end LineScript

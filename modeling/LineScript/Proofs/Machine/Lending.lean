import LineScript.Proofs.Memory.Sweep

namespace LineScript

namespace Loans

variable {loans : Loans} {handle : Handle}

-- What borrowing a file to look at it gives, if it can be had.
def seen? (loans : Loans) (handle : Handle) (text : String) : Option String :=
  if loans.admits .look handle then some text else Option.none

theorem grants_append {access : Access} {first second : List Handle} :
    loans.grants access (first ++ second) =
      (loans.grants access first && loans.grants access second) := by
  rw [grants, List.all_append, grants, grants]

end Loans

namespace Value

mutual

-- The text of a value, made file by file: each is borrowed for its own part of the text.
def shown? (loans : Loans) (opened : Handle → Bool) : Value → Option String
  | list items => (shownItems? loans opened items).map fun text => "( " ++ text ++ " )"
  | reader handle => loans.seen? handle (fileText "READ" (opened handle) handle.name)
  | writer handle => loans.seen? handle (fileText "WRITE" (opened handle) handle.name)
  | value => some (value.display opened)

def shownItems? (loans : Loans) (opened : Handle → Bool) : List Value → Option String
  | [] => some ""
  | [item] => shown? loans opened item
  | item :: rest =>
      (shown? loans opened item).bind fun first =>
        (shownItems? loans opened rest).map fun others => first ++ ", " ++ others

end

mutual

-- To make the text is to borrow the files of the value, one after the other.
theorem shown?_eq (loans : Loans) (opened : Handle → Bool) (value : Value) :
    value.shown? loans opened =
      if loans.grants .look value.handles then some (value.display opened) else none := by
  cases value with
  | list items =>
      rw [shown?, shownItems?_eq loans opened items, handles, display]
      split_ifs <;> rfl
  | reader handle | writer handle =>
      simp [shown?, handles, display, Loans.seen?, Loans.grants]
  | _ => rfl

theorem shownItems?_eq (loans : Loans) (opened : Handle → Bool) (items : List Value) :
    shownItems? loans opened items =
      if loans.grants .look (handlesOfItems items) then some (displayItems opened items)
      else none := by
  match items with
  | [] => rfl
  | [item] =>
      rw [shownItems?, shown?_eq loans opened item, handlesOfItems, handlesOfItems, List.append_nil,
        displayItems]
  | item :: next :: rest =>
      have hshown : shownItems? loans opened (item :: next :: rest) =
          (shown? loans opened item).bind fun first =>
            (shownItems? loans opened (next :: rest)).map fun others =>
              first ++ ", " ++ others := by
        rw [shownItems?]
        nofun
      have hhandles : handlesOfItems (item :: next :: rest) =
          item.handles ++ handlesOfItems (next :: rest) := rfl
      rw [hshown, hhandles, Loans.grants_append, shown?_eq loans opened item,
        shownItems?_eq loans opened (next :: rest)]
      cases loans.grants .look item.handles <;>
        cases loans.grants .look (handlesOfItems (next :: rest)) <;> rfl

end

mutual

-- Equality of two values, found out file by file: each is borrowed for its name.
def equals? (loans : Loans) : Value → Value → Option Bool
  | string a, reader b | string a, writer b => (loans.seen? b b.name).map (a == ·)
  | reader a, string b | writer a, string b => (loans.seen? a a.name).map (· == b)
  | reader a, reader b | reader a, writer b
  | writer a, reader b | writer a, writer b =>
      (loans.seen? a a.name).bind fun name => (loans.seen? b b.name).map (name == ·)
  | list a, list b => if a.length = b.length then equalsItems? loans a b else some false
  | a, b => some (a.equals b)

def equalsItems? (loans : Loans) : List Value → List Value → Option Bool
  | a :: as, b :: bs =>
      (equals? loans a b).bind fun same => if same then equalsItems? loans as bs else some false
  | _, _ => some true

end

theorem length_of_equalsItems {as bs : List Value} (h : equalsItems as bs = true) :
    as.length = bs.length := by
  induction as generalizing bs with
  | nil =>
      cases bs with
      | nil => rfl
      | cons b bs => cases h
  | cons a as ih =>
      cases bs with
      | nil => cases h
      | cons b bs =>
          rw [equalsItems, Bool.and_eq_true] at h
          rw [List.length_cons, List.length_cons, ih h.2]

mutual

-- To compare two values is to borrow the files whose names decide, one after the other.
theorem equals?_eq (loans : Loans) (a b : Value) :
    a.equals? loans b =
      if loans.grants .look (a.compared b) then some (a.equals b) else none := by
  cases a <;> cases b
  case list.list a b =>
      rw [equals?, compared, equals]
      by_cases hlength : a.length = b.length
      · rw [if_pos hlength, if_pos hlength, equalsItems?_eq loans a b hlength]
      · have hdiffer : equalsItems a b = false := by
          rw [← Bool.not_eq_true]
          exact mt length_of_equalsItems hlength
        rw [if_neg hlength, if_neg hlength, hdiffer]
        rfl
  case string.reader | string.writer | reader.string | writer.string =>
      simp [equals?, compared, equals, Loans.grants, Loans.seen?]
  case reader.reader | reader.writer | writer.reader | writer.writer =>
      simp only [equals?, compared, equals, Loans.grants, Loans.seen?, List.all_cons, List.all_nil,
        Bool.and_true, Bool.and_eq_true]
      split_ifs <;> simp_all
  all_goals rfl

theorem equalsItems?_eq (loans : Loans) (as bs : List Value) (h : as.length = bs.length) :
    equalsItems? loans as bs =
      if loans.grants .look (comparedItems as bs) then some (equalsItems as bs) else none := by
  match as, bs with
  | [], [] => rfl
  | a :: as, b :: bs =>
      rw [equalsItems?, comparedItems, equalsItems, equals?_eq loans a b, Loans.grants_append]
      cases hsame : a.equals b with
      | true =>
          rw [if_pos rfl, Bool.true_and]
          have := equalsItems?_eq loans as bs (Nat.succ.inj h)
          cases loans.grants .look (a.compared b) <;> simp [this]
      | false => cases loans.grants .look (a.compared b) <;> simp [Loans.grants]

end

end Value

namespace Machine

variable {m : Machine} {s : Statement}

-- A WRITE to a file in which the file itself stands, or which it is.
def WritesToItself (m : Machine) (s : Statement) : Prop :=
  s.operation = .write ∧ ∃ handle value file,
    m.memory.evaluate (s.primary.getD .null) = .ok (.writer handle) ∧
      m.memory.evaluateOperand s.secondary = .ok value ∧
      Value.handle? file = some handle ∧ Value.Occurs file value

theorem crashes_writeTo (m : Machine) (a b : Value) :
    (m.writeTo a b).2 = .error .crash ↔
      ∃ handle file, a = .writer handle ∧ Value.handle? file = some handle ∧
        Value.Occurs file b := by
  cases a with
  | writer handle =>
      rw [writeTo_writer]
      have hholds : b.holds handle = true ↔
          ∃ file : Value, file.handle? = some handle ∧ Value.Occurs file b := by
        rw [Value.holds, List.contains_iff_mem, Value.mem_handles_iff]
      split_ifs with hmem
      · obtain ⟨file, hfile, hoccurs⟩ := hholds.mp hmem
        exact iff_of_true rfl ⟨handle, file, rfl, hfile, hoccurs⟩
      · refine iff_of_false ?_ ?_
        · split <;> simp [done, fail]
        · rintro ⟨_, file, hsame, hfile, hoccurs⟩
          cases hsame
          exact hmem (hholds.mpr ⟨file, hfile, hoccurs⟩)
  | _ => simp [writeTo, fail]

-- No other operation crashes: whatever it does to the machine, it succeeds or fails with an error.
theorem write_of_crash {target : Token} {a b : Value} {after : Own}
    (h : m.Deed s target a b after (.error .crash)) : s.operation = .write := by
  generalize houtcome : (.error .crash : Except Fault Unit) = outcome at h
  cases h with
  | crashed hs => exact hs
  | delivered _ =>
      obtain ⟨e, he, _⟩ := Memory.error_of_deliver houtcome.symm
      cases he
  | _ => cases houtcome

theorem crashes_execute (m : Machine) (s : Statement) :
    (m.execute s).2 = .error .crash ↔ m.WritesToItself s := by
  constructor
  · intro hcrash
    rcases m.execute_cases s with ⟨e, _, hfail⟩ | ⟨a, b, ha, hb, hdeed⟩
    · rw [hfail] at hcrash
      cases hcrash
    · rw [hcrash] at hdeed
      have hs := write_of_crash hdeed
      rw [m.execute_of_operands s ha hb, perform_write hs] at hcrash
      obtain ⟨handle, file, rfl, hfile, hoccurs⟩ := (m.crashes_writeTo a b).mp hcrash
      exact ⟨hs, handle, b, file, ha, hb, hfile, hoccurs⟩
  · rintro ⟨hs, handle, value, file, ha, hb, hfile, hoccurs⟩
    rw [m.execute_of_operands s ha hb, perform_write hs]
    exact (m.crashes_writeTo _ _).mpr ⟨handle, file, rfl, hfile, hoccurs⟩

theorem crashes_step (m : Machine) (s : Statement) :
    (m.step s).2 = .error .crash ↔ m.WritesToItself s := by
  rw [← crashes_execute]
  unfold step
  split
  · rename_i hexecute
    simp [hexecute, done]
  · rfl

end Machine

end LineScript

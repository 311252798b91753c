import LineScript.Proofs.Machine.Operands

namespace LineScript

theorem Memory.evaluate_name {token : Token} (h : token.kind = .name) (memory : Memory) :
    memory.evaluate token = memory.read token.text := by
  rw [Memory.evaluate, h]

-- An operation on the value of a variable that is not there.
def RuntimeError.isOfNull : RuntimeError → Bool
  | .undefined _ .null _ | .wrongType _ .null => true
  | _ => false

namespace Operation

variable {operation : Operation} {opened : Handle → Bool} {room : Nat} {a b : Value} {create : Bool}
  {result : Except RuntimeError Value}

theorem primary_of_computed (h : operation.computed? opened room a b = some (create, result)) :
    Slot.primary [.name] ∈ operation.form := by
  cases operation <;> simp only [computed?, reduceCtorEq] at h <;> decide

-- An operation that needs its target makes nothing of null.
theorem computed_null (h : operation.computed? opened room .null b = some (false, result)) :
    ∃ e, result = .error e ∧ e.isOfNull = true := by
  cases operation <;>
    simp only [computed?, Option.some.injEq, Prod.mk.injEq, reduceCtorEq, Bool.true_eq_false,
      false_and, true_and] at h
  all_goals
    subst h
    exact ⟨_, rfl, rfl⟩

end Operation

namespace Memory

variable {memory : Memory}

-- A character of a text is a text.
theorem exists_string_of_descend {path : List (String × Value)} {text : String} {found : Value}
    (h : descend path (.string text) = .ok found) : ∃ inner, found = .string inner := by
  induction path generalizing text with
  | nil => exact ⟨text, (Except.ok.inj h).symm⟩
  | cons place rest ih =>
      obtain ⟨item, hitem, hrest⟩ := bind_eq_ok.mp h
      obtain ⟨i, hi, hchar⟩ := map_eq_ok.mp hitem
      have hlt : i < text.toList.length := by
        rw [String.length_toList]
        exact (checkedIndex_eq_ok hi).1
      rw [List.getElem?_eq_getElem hlt] at hchar
      rw [← hchar] at hrest
      exact ih hrest

theorem exists_string_of_crossesText {path : List (String × Value)} {value found : Value}
    (hcrosses : CrossesText path value) (h : descend path value = .ok found) :
    ∃ text, found = .string text := by
  induction path generalizing value with
  | nil => exact absurd hcrosses (not_crossesText_nil value)
  | cons place rest ih =>
      rcases crossesText_cons.mp hcrosses with ⟨text, rfl⟩ | ⟨item, hitem, hlater⟩
      · exact exists_string_of_descend h
      · rw [descend, hitem] at h
        exact ih hlater h

-- A name that leads through a text leads to a text, and so not to a file.
theorem not_passesText_of_file {name : String} {file : Value} {handle : Handle}
    (h : memory.read name = .ok file) (hfile : file.handle? = some handle) :
    ¬memory.PassesText name := by
  intro hpasses
  obtain ⟨path, hpath, hfound⟩ := read_eq_ok h
  obtain ⟨text, rfl⟩ := exists_string_of_crossesText ((passesText_iff hpath).mp hpasses) hfound
  cases hfile

-- So a variable or an item that is a file can be cleared.
theorem exists_cleared {name : String} {file : Value} {handle : Handle}
    (h : memory.read name = .ok file) (hfile : file.handle? = some handle) :
    ∃ cleared, memory.write name .null false = .ok cleared := by
  have hne : file ≠ .null := by
    rintro rfl
    cases hfile
  rcases write_of_read .null h (.inr hne) with ⟨_, hok⟩ | ⟨hpasses, _⟩
  · exact hok
  · exact absurd hpasses (not_passesText_of_file h hfile)

-- One write after a look-up succeeds, or is refused by a text and leaves memory as it is.
theorem deliver_of_read {target : Token} {found : Value} {create : Bool} (value : Value)
    (h : memory.read target.text = .ok found) (hfound : create = true ∨ found ≠ .null) :
    (memory.deliver [⟨target, value, create⟩]).2 = .ok () ∨
      memory.deliver [⟨target, value, create⟩] = (memory, .error (.error .stringAssignment)) := by
  rw [deliver]
  rcases write_of_read value h hfound with ⟨_, next, hnext⟩ | ⟨_, hrefused⟩
  · rw [hnext]
    exact .inl rfl
  · rw [hrefused]
    exact .inr rfl

-- Of the two writes at the end of a file the first one succeeds, and has no influence on the
-- second.
theorem deliver_at_end {file target : Token} {handle : Handle} {found : Value}
    (hfile : memory.read file.text = .ok (.reader handle))
    (htarget : memory.read target.text = .ok found) :
    ∃ cleared, memory.write file.text .null false = .ok cleared ∧
      cleared.read file.text = .ok .null ∧
      ((¬memory.PassesText target.text ∧
          (memory.deliver [⟨file, .null, false⟩, ⟨target, .null, true⟩]).2 = .ok ()) ∨
        (memory.PassesText target.text ∧
          memory.deliver [⟨file, .null, false⟩, ⟨target, .null, true⟩] =
            (cleared, .error (.error .stringAssignment)))) := by
  obtain ⟨cleared, hcleared⟩ := exists_cleared hfile rfl
  have hread := read_written hcleared
  obtain ⟨⟨other, hother⟩, hpasses⟩ :=
    read_of_write (by simp [Value.element]) (by simp) hfile hcleared htarget
  refine ⟨cleared, hcleared, hread, ?_⟩
  rw [deliver, hcleared]
  dsimp only
  rw [deliver, ← hpasses]
  rcases write_of_read .null hother (.inl rfl) with ⟨hclear, next, hnext⟩ | ⟨htext, hrefused⟩
  · rw [hnext]
    exact .inl ⟨hclear, rfl⟩
  · rw [hrefused]
    exact .inr ⟨htext, rfl⟩

end Memory

namespace Machine

variable {m : Machine} {s : Statement} {line : String}

-- A READ at the end of its file, with a target that passes through a text.
structure EndsInText (m : Machine) (s : Statement) (file target : Token) (handle : Handle) :
    Prop where
  operation : s.operation = .read
  primary : s.primary = some file
  secondary : s.secondary = some target
  reader : m.memory.evaluate file = .ok (.reader handle)
  found : ∃ value, m.memory.evaluate target = .ok value
  ended : (m.world.files.readLine handle).2 = .ok none
  text : m.memory.PassesText target.text

section

variable (hline : Statement.read line = .ok s) {a b : Value}
  (ha : m.memory.evaluate (s.primary.getD .null) = .ok a)
  (hb : m.memory.evaluateOperand s.secondary = .ok b)

include hline

theorem read_primary (ha : m.memory.evaluate (s.primary.getD .null) = .ok a)
    (hslot : Slot.primary [.name] ∈ s.operation.form) :
    m.memory.read (s.primary.getD .null).text = .ok a := by
  obtain ⟨token, htoken, hkind⟩ := Statement.primary_of_read hline hslot
  rw [htoken] at ha ⊢
  rw [← ha]
  exact (Memory.evaluate_name hkind m.memory).symm

theorem read_secondary (hb : m.memory.evaluateOperand s.secondary = .ok b)
    (hslot : Slot.secondary [.name] ∈ s.operation.form) :
    m.memory.read (s.secondary.getD .null).text = .ok b := by
  obtain ⟨token, htoken, hkind⟩ := Statement.secondary_of_read hline hslot
  rw [htoken] at hb ⊢
  rw [← hb]
  exact (Memory.evaluate_name hkind m.memory).symm

include ha hb

-- What a statement writes is refused in one way only, and then memory is as before, but for a READ
-- at the end of its file.
theorem Delivers.outcome {deliveries : List Delivery}
    (h : m.Delivers s (s.primary.getD .null) a b deliveries) :
    (m.memory.deliver deliveries).2 = .ok () ∨
      (m.memory.deliver deliveries).2 = .error (.error .stringAssignment) ∧
        ((m.memory.deliver deliveries).1 = m.memory ∨
          ∃ file target handle, m.EndsInText s file target handle) := by
  have hsingle {target : Token} {value found : Value} {create : Bool}
      (hfound : m.memory.read target.text = .ok found)
      (hcreate : create = true ∨ found ≠ .null) :
      (m.memory.deliver [⟨target, value, create⟩]).2 = .ok () ∨
        (m.memory.deliver [⟨target, value, create⟩]).2 = .error (.error .stringAssignment) ∧
          ((m.memory.deliver [⟨target, value, create⟩]).1 = m.memory ∨
            ∃ file target handle, m.EndsInText s file target handle) := by
    rcases Memory.deliver_of_read value hfound hcreate with hok | hrefused
    · exact .inl hok
    · rw [hrefused]
      exact .inr ⟨rfl, .inl rfl⟩
  cases h with
  | @computed create value hcomputed =>
      refine hsingle (read_primary hline ha (Operation.primary_of_computed hcomputed)) ?_
      cases create with
      | true => exact .inl rfl
      | false =>
          refine .inr ?_
          rintro rfl
          obtain ⟨e, he, _⟩ := Operation.computed_null hcomputed
          cases he
  | tested =>
      have hresult : m.memory.read Scope.result = .ok (m.memory.plain Scope.result) := rfl
      exact hsingle hresult (.inl rfl)
  | drawn hs => exact hsingle (read_primary hline ha (by rw [hs]; decide)) (.inl rfl)
  | opened hs =>
      have hslot : Slot.primary [.name] ∈ s.operation.form := by
        rcases hs with hs | hs <;> rw [hs] <;> decide
      exact hsingle (read_primary hline ha hslot) (.inl rfl)
  | closed hs hfile =>
      refine hsingle (read_primary hline ha (by rw [hs]; decide)) (.inr ?_)
      rintro rfl
      cases hfile
  | line hs => exact hsingle (read_secondary hline hb (by rw [hs]; decide)) (.inl rfl)
  | replied hs => exact hsingle (read_primary hline ha (by rw [hs]; decide)) (.inl rfl)
  | @ended handle hs hfile hend =>
      subst hfile
      obtain ⟨file, hfile, _⟩ := Statement.primary_of_read hline (by rw [hs]; decide)
      obtain ⟨target, htarget, _⟩ := Statement.secondary_of_read hline (by rw [hs]; decide)
      have hreader := read_primary hline ha (by rw [hs]; decide)
      have hfound := read_secondary hline hb (by rw [hs]; decide)
      obtain ⟨cleared, _, _, hdelivered⟩ := Memory.deliver_at_end hreader hfound
      rcases hdelivered with ⟨_, hok⟩ | ⟨htext, hrefused⟩
      · exact .inl hok
      · rw [hrefused]
        refine .inr ⟨rfl, .inr ⟨file, target, handle, hs, hfile, htarget, ?_, ⟨b, ?_⟩, hend, ?_⟩⟩
        · rw [hfile] at ha
          exact ha
        · rw [htarget] at hb
          exact hb
        · rw [htarget] at htext
          exact htext

end

-- A statement that was read fails in looking up an operand, in its operation, or because a text
-- does not take a value.
theorem execute_error {e : RuntimeError} (hline : Statement.read line = .ok s)
    (h : (m.execute s).2 = .error (.error e)) :
    e.isOperational = true ∨ e = .stringAssignment := by
  obtain ⟨hprimary, hsecondary⟩ := Statement.found_operands hline m.memory
  rcases m.execute_cases s with ⟨e', hoperand, hfail⟩ | ⟨a, b, ha, hb, hdeed⟩
  · rw [hfail] at h
    cases h
    rcases hoperand with he | ⟨_, _, he⟩
    · exact .inl (hprimary.operational e he)
    · exact .inl (hsecondary.operational e he)
  · generalize (m.execute s).1.own = after at hdeed
    generalize (m.execute s).2 = outcome at h hdeed
    cases hdeed with
    | failed he =>
        cases h
        exact .inl he
    | delivered hdelivers =>
        rcases hdelivers.outcome hline ha hb with hok | ⟨hrefused, _⟩
        · rw [hok] at h
          cases h
        · rw [hrefused] at h
          cases h
          exact .inr rfl
    | _ => cases h

-- A step that fails leaves the machine as it was.
theorem own_of_execute_error {fault : Fault} (hline : Statement.read line = .ok s)
    (h : (m.execute s).2 = .error fault) :
    (m.execute s).1.own = m.own ∨ ∃ file target handle, m.EndsInText s file target handle := by
  rcases m.execute_cases s with ⟨e, _, hfail⟩ | ⟨a, b, ha, hb, hdeed⟩
  · rw [hfail]
    exact .inl rfl
  · generalize (m.execute s).1.own = after at hdeed ⊢
    generalize (m.execute s).2 = outcome at h hdeed
    cases hdeed with
    | failed | crashed => exact .inl rfl
    | delivered hdelivers =>
        rcases hdelivers.outcome hline ha hb with hok | ⟨_, hmemory | hends⟩
        · rw [hok] at h
          cases h
        · rw [hmemory]
          exact .inl rfl
        · exact .inr hends
    | _ => cases h

theorem execute_of_endsInText {file target : Token} {handle : Handle}
    (hline : Statement.read line = .ok s) (h : m.EndsInText s file target handle) :
    ∃ cleared, m.memory.write file.text .null false = .ok cleared ∧
      cleared.read file.text = .ok .null ∧
      (m.execute s).1.own = { m.own with memory := cleared } ∧
      (m.execute s).2 = .error (.error .stringAssignment) := by
  obtain ⟨b, hb⟩ := h.found
  have hprimary : s.primary.getD .null = file := by rw [h.primary, Option.getD_some]
  have hsecondary : s.secondary.getD .null = target := by rw [h.secondary, Option.getD_some]
  have ha : m.memory.evaluate (s.primary.getD .null) = .ok (.reader handle) := by
    rw [hprimary, h.reader]
  have hoperand : m.memory.evaluateOperand s.secondary = .ok b := by
    rw [h.secondary]
    exact hb
  have hreader := read_primary hline ha (by rw [h.operation]; decide)
  have hfound := read_secondary hline hoperand (by rw [h.operation]; decide)
  rw [hprimary] at hreader
  rw [hsecondary] at hfound
  obtain ⟨cleared, hcleared, hnull, hdelivered⟩ := Memory.deliver_at_end hreader hfound
  have hrefused := (hdelivered.resolve_left fun hclear => hclear.1 h.text).2
  obtain ⟨hown, houtcome⟩ := m.readFrom_of_end target h.ended file
  refine ⟨cleared, hcleared, hnull, ?_⟩
  have hperform : m.perform s file (.reader handle) b =
      m.readFrom file (.reader handle) target := by
    rw [perform_read h.operation, hsecondary]
  rw [m.execute_of_operands s ha hoperand, own_release, hprimary, hperform, hown, houtcome,
    hrefused]
  exact ⟨rfl, rfl⟩

theorem step_of_error {fault : Fault} (h : (m.execute s).2 = .error fault) :
    m.step s = m.execute s := by
  unfold step
  split
  · rename_i hok
    rw [hok] at h
    cases h
  · rfl

theorem execute_of_step_error {next : Machine} {fault : Fault}
    (h : m.step s = (next, .error fault)) : m.execute s = (next, .error fault) := by
  unfold step at h
  split at h
  · cases h
  · exact h

-- A statement that fails leaves memory, the place in the program, the jump and the running flag as
-- they were. The one exception is a READ that ends its file and has a target in a text: it fails
-- after the variable of the file has become null.
theorem failed_step_keeps_own (m : Machine) {line : String} {s : Statement}
    (hline : Statement.read line = .ok s) :
    (∀ (next : Machine) (fault : Fault), m.step s = (next, .error fault) →
      (¬∃ file target handle, m.EndsInText s file target handle) → next.own = m.own) ∧
    ∀ file target handle, m.EndsInText s file target handle →
      ∃ next cleared, m.step s = (next, .error (.error .stringAssignment)) ∧
        m.memory.write file.text .null false = .ok cleared ∧
        cleared.read file.text = .ok .null ∧ next.own = { m.own with memory := cleared } := by
  constructor
  · intro next fault hstep hno
    have hexecute := execute_of_step_error hstep
    have hown := own_of_execute_error hline (congrArg Prod.snd hexecute)
    rw [hexecute] at hown
    exact hown.resolve_right hno
  · intro file target handle hends
    obtain ⟨cleared, hcleared, hnull, hown, houtcome⟩ := execute_of_endsInText hline hends
    refine ⟨(m.execute s).1, cleared, ?_, hcleared, hnull, hown⟩
    rw [step_of_error houtcome, ← houtcome]

-- An empty file, open, and a text.
def endedFile : Machine where
  memory := ⟨[("t", .string "x"), ("f", .reader ⟨0, "/dev/null"⟩)], []⟩
  ip := 0
  jump := none
  running := true
  world :=
    { console := .ofInput #[]
      files := ⟨.empty, #[.reading ["dev", "null"] 0]⟩
      random := ⟨0⟩
      log := .upTo none }

theorem failed_read_clears_file :
    ∃ s, Statement.read "READ t@0 FROM f" = .ok s ∧
      ∃ next cleared, endedFile.step s = (next, .error (.error .stringAssignment)) ∧
        endedFile.memory.write "f" .null false = .ok cleared ∧
        cleared.read "f" = .ok .null ∧ next.own = { endedFile.own with memory := cleared } := by
  have hline : Statement.read "READ t@0 FROM f" =
      .ok ⟨.read, some ⟨.name, "t@0"⟩, some ⟨.name, "f"⟩, "READ t@0 FROM f"⟩ := by
    decide +kernel
  have hends : endedFile.EndsInText
      ⟨.read, some ⟨.name, "t@0"⟩, some ⟨.name, "f"⟩, "READ t@0 FROM f"⟩
      ⟨.name, "f"⟩ ⟨.name, "t@0"⟩ ⟨0, "/dev/null"⟩ := by
    refine ⟨rfl, rfl, rfl, ?_, ⟨.string "x", ?_⟩, ?_, "t", "0", "x", ?_, ?_⟩
    · rw [Memory.evaluate_name rfl]
      rfl
    · rw [Memory.evaluate_name rfl]
      rfl
    · have hend : Text.lineEnd #[] 0 = 0 := by simp [Text.lineEnd]
      change (if Text.lineEnd #[] 0 ≤ 0 then _ else _ : Files × _).2 = _
      rw [hend]
      rfl
    · decide
    · rfl
  have hfails := (endedFile.failed_step_keeps_own hline).2 _ _ _ hends
  exact ⟨_, hline, hfails⟩

end Machine

end LineScript

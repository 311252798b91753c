import LineScript.Proofs.Memory.Path
import LineScript.Proofs.Program.Operands

namespace LineScript

-- The statement `^name:`.
def Statement.IsLabel (s : Statement) (name : String) : Prop :=
  s.operation = .label ∧ ∃ token, s.operand1 = some token ∧ token.text = name

namespace Program

theorem labelName?_eq_some {s : Statement} {name : String} :
    labelName? s = some name ↔ s.IsLabel name := by
  unfold labelName? Statement.IsLabel
  split_ifs with hlabel <;> simp [hlabel]

-- Line `k`, read by itself, is a label of this name.
def Declares (lines : List String) (k : Nat) (name : String) : Prop :=
  ∃ line s, lines[k]? = some line ∧ Statement.read line = .ok s ∧ s.IsLabel name

-- What stands against line `k` after the lines before it: it is no statement, or its label is
-- declared already.
inductive Objection (lines : List String) (k : Nat) : CompileError → Prop where
  | unreadable {line : String} {e : CompileError} (hline : lines[k]? = some line)
      (hread : Statement.read line = .error e) : Objection lines k e
  | redeclared {first : Nat} {old name : String} (hfirst : first < k)
      (hold : Declares lines first old) (hname : Declares lines k name)
      (hkey : Memory.key old = Memory.key name) : Objection lines k (.duplicateLabel name first)

-- The program of the first `n` lines.
structure Holds (lines : List String) (n : Nat) (program : Program) : Prop where
  size : program.statements.size = n
  statement : ∀ i < n, ∃ line s, lines[i]? = some line ∧ Statement.read line = .ok s ∧
    program.statements[i]? = some s
  label : ∀ key k, (key, k) ∈ program.labels ↔
    k < n ∧ ∃ name, Declares lines k name ∧ Memory.key name = key
  unopposed : ∀ k < n, ∀ e, ¬Objection lines k e

section

variable {lines : List String} {n : Nat} {line : String} {s : Statement} {program : Program}

theorem declares_iff {k : Nat} {name : String} (hline : lines[k]? = some line)
    (hread : Statement.read line = .ok s) : Declares lines k name ↔ labelName? s = some name := by
  rw [labelName?_eq_some]
  constructor
  · rintro ⟨line', s', hline', hread', hlabel⟩
    cases hline.symm.trans hline'
    cases hread.symm.trans hread'
    exact hlabel
  · intro hlabel
    exact ⟨line, s, hline, hread, hlabel⟩

theorem holds_empty (lines : List String) : Holds lines 0 empty where
  size := rfl
  statement := nofun
  label := by
    intro key k
    simp [empty]
  unopposed := nofun

-- A line that is a statement meets no objection but that of its label.
theorem redeclared_of_objection {k : Nat} {e : CompileError} (hline : lines[k]? = some line)
    (hread : Statement.read line = .ok s) (h : Objection lines k e) :
    ∃ first old name, first < k ∧ Declares lines first old ∧ labelName? s = some name ∧
      Memory.key old = Memory.key name ∧ e = .duplicateLabel name first := by
  cases h with
  | unreadable hline' hread' =>
      cases hline.symm.trans hline'
      cases hread.symm.trans hread'
  | redeclared hfirst hold hname hkey =>
      exact ⟨_, _, _, hfirst, hold, (declares_iff hline hread).mp hname, hkey, rfl⟩

-- What the labels of a program lead to is settled by their names.
theorem Holds.declared_once (h : Holds lines n program) {i j : Nat} {one other : String}
    (hi : i < n) (hj : j < n) (hone : Declares lines i one) (hother : Declares lines j other)
    (hkey : Memory.key one = Memory.key other) : i = j := by
  rcases Nat.lt_trichotomy i j with hlt | heq | hgt
  · exact absurd (.redeclared hlt hone hother hkey) (h.unopposed j hj _)
  · exact heq
  · exact absurd (.redeclared hgt hother hone hkey.symm) (h.unopposed i hi _)

theorem Holds.lookup_iff (h : Holds lines n program) {key : String} {k : Nat} :
    program.labels.lookup key = some k ↔
      k < n ∧ ∃ name, Declares lines k name ∧ Memory.key name = key := by
  rw [← h.label]
  constructor
  · intro hlookup
    obtain ⟨before, after, hlabels, _⟩ := List.lookup_eq_some_iff.mp hlookup
    simp [hlabels]
  · intro hmem
    cases hlookup : program.labels.lookup key with
    | none => simpa using List.lookup_eq_none_iff.mp hlookup _ hmem
    | some first =>
        obtain ⟨before, after, hlabels, _⟩ := List.lookup_eq_some_iff.mp hlookup
        have hfirst : (key, first) ∈ program.labels := by simp [hlabels]
        obtain ⟨hlt, name, hname, hkey⟩ := (h.label key k).mp hmem
        obtain ⟨hlt', name', hname', hkey'⟩ := (h.label key first).mp hfirst
        rw [h.declared_once hlt hlt' hname hname' (hkey.trans hkey'.symm)]

-- One more line, with the label it declares if it declares one.
theorem Holds.push (h : Holds lines n program) (hline : lines[n]? = some line)
    (hread : Statement.read line = .ok s) {labels : List (String × Nat)}
    (hlabels : ∀ key k, (key, k) ∈ labels ↔ (key, k) ∈ program.labels ∨
      k = n ∧ ∃ name, labelName? s = some name ∧ Memory.key name = key)
    (hunopposed : ∀ e, ¬Objection lines n e) :
    Holds lines (n + 1) ⟨program.statements.push s, labels⟩ where
  size := by rw [Array.size_push, h.size]
  statement := by
    intro i hi
    rcases Nat.lt_succ_iff_lt_or_eq.mp hi with hlt | rfl
    · obtain ⟨line', s', hline', hread', hs'⟩ := h.statement i hlt
      refine ⟨line', s', hline', hread', ?_⟩
      rw [Array.getElem?_push_lt (h.size.symm ▸ hlt), ← hs', Array.getElem?_eq_getElem]
    · refine ⟨line, s, hline, hread, ?_⟩
      rw [← h.size]
      exact Array.getElem?_push_size
  label := by
    intro key k
    have hdeclares (name : String) : Declares lines n name ↔ labelName? s = some name :=
      declares_iff hline hread
    rw [hlabels, h.label]
    constructor
    · rintro (⟨hk, hname⟩ | ⟨rfl, name, hname, hkey⟩)
      · exact ⟨Nat.lt_succ_of_lt hk, hname⟩
      · exact ⟨Nat.lt_succ_self _, name, (hdeclares name).mpr hname, hkey⟩
    · rintro ⟨hk, name, hname, hkey⟩
      rcases Nat.lt_succ_iff_lt_or_eq.mp hk with hlt | rfl
      · exact .inl ⟨hlt, name, hname, hkey⟩
      · exact .inr ⟨rfl, name, (hdeclares name).mp hname, hkey⟩
  unopposed := by
    intro k hk
    rcases Nat.lt_succ_iff_lt_or_eq.mp hk with hlt | rfl
    · exact h.unopposed k hlt
    · exact hunopposed

-- A statement is taken in, unless its label is there already.
theorem Holds.addStatement (h : Holds lines n program) (hline : lines[n]? = some line)
    (hread : Statement.read line = .ok s) :
    (∃ extended, program.addStatement s = .ok extended ∧ Holds lines (n + 1) extended) ∨
      ∃ cause, program.addStatement s = .error cause ∧ Objection lines n cause ∧
        ∀ other, Objection lines n other → other = cause := by
  unfold Program.addStatement
  cases hname : labelName? s with
  | none =>
      refine .inl ⟨_, rfl, h.push hline hread ?_ ?_⟩
      · simp [hname]
      · intro e he
        obtain ⟨_, _, _, _, _, hsome, _⟩ := redeclared_of_objection hline hread he
        cases hname.symm.trans hsome
  | some name =>
      dsimp only
      cases hlookup : program.label? name with
      | some first =>
          obtain ⟨hfirst, old, hold, hkey⟩ := h.lookup_iff.mp hlookup
          have hdeclared := (declares_iff hline hread).mpr hname
          refine .inr ⟨_, rfl, .redeclared hfirst hold hdeclared hkey, ?_⟩
          intro other hother
          obtain ⟨first', old', name', hfirst', hold', hname', hkey', rfl⟩ :=
            redeclared_of_objection hline hread hother
          cases hname.symm.trans hname'
          cases hlookup.symm.trans (h.lookup_iff.mpr ⟨hfirst', old', hold', hkey'⟩)
          rfl
      | none =>
          refine .inl ⟨_, rfl, h.push hline hread ?_ ?_⟩
          · intro key k
            rw [h.size]
            simp [hname, and_comm, eq_comm]
          · intro e he
            obtain ⟨first, old, name', hfirst, hold, hname', hkey, _⟩ :=
              redeclared_of_objection hline hread he
            cases hname.symm.trans hname'
            cases hlookup.symm.trans (h.lookup_iff.mpr ⟨hfirst, old, hold, hkey⟩)

-- The next line is taken in, or there is one objection to it, which is the error.
theorem Holds.addLine (h : Holds lines n program) (hline : lines[n]? = some line) :
    (∃ extended, program.addLine line = .ok extended ∧ Holds lines (n + 1) extended) ∨
      ∃ cause, program.addLine line = .error cause ∧ Objection lines n cause ∧
        ∀ other, Objection lines n other → other = cause := by
  unfold Program.addLine
  cases hread : Statement.read line with
  | ok s => exact h.addStatement hline hread
  | error e =>
      refine .inr ⟨e, rfl, .unreadable hline hread, ?_⟩
      intro other hother
      cases hother with
      | unreadable hline' hread' =>
          cases hline.symm.trans hline'
          cases hread.symm.trans hread'
          rfl
      | redeclared _ _ hname _ =>
          obtain ⟨line', s', hline', hread', _⟩ := hname
          cases hline.symm.trans hline'
          cases hread.symm.trans hread'

-- Where and why the lines are no program: at the first line there is an objection to.
structure Rejected (lines : List String) (k : Nat) (line : String) (cause : CompileError) :
    Prop where
  line : lines[k]? = some line
  objection : Objection lines k cause
  only : ∀ other, Objection lines k other → other = cause
  first : ∀ j < k, ∀ other, ¬Objection lines j other

-- The lines still to come are `rest`.
theorem Holds.addLines {done rest : List String} (hlines : done ++ rest = lines)
    (h : Holds lines done.length program) :
    (∃ last, program.addLines rest = .ok last ∧ Holds lines lines.length last) ∨
      ∃ k line cause, program.addLines rest = .error (.compile k line cause) ∧
        Rejected lines k line cause := by
  induction rest generalizing done program with
  | nil =>
      rw [List.append_nil] at hlines
      subst hlines
      exact .inl ⟨program, rfl, h⟩
  | cons line rest ih =>
      have hline : lines[done.length]? = some line := by simp [← hlines]
      rw [Program.addLines]
      rcases h.addLine hline with ⟨extended, hok, hextended⟩ | ⟨cause, herror, hobjection, honly⟩
      · rw [hok]
        have hdone : (done ++ [line]) ++ rest = lines := by
          rw [List.append_assoc]
          exact hlines
        refine ih hdone ?_
        rw [List.length_append]
        exact hextended
      · rw [herror, h.size]
        exact .inr ⟨_, _, _, rfl, hline, hobjection, honly, h.unopposed⟩

theorem Declares.lt_length {k : Nat} {name : String} (h : Declares lines k name) :
    k < lines.length := by
  obtain ⟨_, _, hline, _⟩ := h
  exact (List.getElem?_eq_some_iff.mp hline).1

-- Line by line, a program is what its lines are.
theorem Holds.statement_iff (h : Holds lines lines.length program) {i : Nat} :
    program.statements[i]? = some s ↔
      ∃ line, lines[i]? = some line ∧ Statement.read line = .ok s := by
  constructor
  · intro hs
    obtain ⟨hi, _⟩ := Array.getElem?_eq_some_iff.mp hs
    obtain ⟨line, s', hline, hread, hs'⟩ := h.statement i (h.size ▸ hi)
    cases hs.symm.trans hs'
    exact ⟨line, hline, hread⟩
  · rintro ⟨line, hline, hread⟩
    obtain ⟨hi, _⟩ := List.getElem?_eq_some_iff.mp hline
    obtain ⟨line', s', hline', hread', hs'⟩ := h.statement i hi
    cases hline.symm.trans hline'
    cases hread.symm.trans hread'
    exact hs'

theorem Holds.read_of_mem (h : Holds lines lines.length program) (hmem : line ∈ lines) :
    ∃ s, Statement.read line = .ok s := by
  obtain ⟨i, hi, hget⟩ := List.mem_iff_getElem.mp hmem
  obtain ⟨line', s, hline, hread, _⟩ := h.statement i hi
  rw [List.getElem?_eq_getElem hi, hget] at hline
  cases hline
  exact ⟨s, hread⟩

theorem Holds.label?_iff (h : Holds lines lines.length program) {name : String} {k : Nat} :
    program.label? name = some k ↔
      ∃ s declared, program.statements[k]? = some s ∧ s.IsLabel declared ∧
        Memory.key declared = Memory.key name := by
  rw [label?, h.lookup_iff]
  constructor
  · rintro ⟨_, declared, ⟨line, s, hline, hread, hlabel⟩, hkey⟩
    exact ⟨s, declared, h.statement_iff.mpr ⟨line, hline, hread⟩, hlabel, hkey⟩
  · rintro ⟨s, declared, hs, hlabel, hkey⟩
    obtain ⟨line, hline, hread⟩ := h.statement_iff.mp hs
    have hdeclares : Declares lines k declared := ⟨line, s, hline, hread, hlabel⟩
    exact ⟨hdeclares.lt_length, declared, hdeclares, hkey⟩

-- Lines that are all statements, with no label twice, meet no objection.
theorem not_objection {k : Nat} {e : CompileError}
    (hread : ∀ line ∈ lines, ∃ s, Statement.read line = .ok s)
    (honce : ∀ i j one other, Declares lines i one → Declares lines j other →
      Memory.key one = Memory.key other → i = j) : ¬Objection lines k e := by
  intro h
  cases h with
  | unreadable hline herror =>
      obtain ⟨s, hs⟩ := hread _ (List.mem_of_getElem? hline)
      cases hs.symm.trans herror
  | redeclared hfirst hold hname hkey =>
      exact absurd (honce _ _ _ _ hold hname hkey) (Nat.ne_of_lt hfirst)

end

theorem compile_cases (source : String) :
    (∃ program, compile source = .ok program ∧
        Holds (sourceLines source) (sourceLines source).length program) ∨
      ∃ k line cause, compile source = .error (.compile k line cause) ∧
        Rejected (sourceLines source) k line cause :=
  Holds.addLines (List.nil_append _) (holds_empty (sourceLines source))

theorem holds_of_compile {source : String} {program : Program}
    (h : compile source = .ok program) :
    Holds (sourceLines source) (sourceLines source).length program := by
  rcases compile_cases source with ⟨program', hok, hholds⟩ | ⟨_, _, _, herror, _⟩
  · cases h.symm.trans hok
    exact hholds
  · cases h.symm.trans herror

-- A source is a program exactly if each of its lines is a statement and no two of them are labels
-- of one name, and the program consists of these statements. Otherwise the error is the one
-- objection to the first line that cannot follow those before it.
theorem compile_is_line_by_line (source : String) :
    let lines : List String := "" :: Text.lines source
    ((∃ program, compile source = .ok program) ↔
      (∀ line ∈ lines, ∃ s, Statement.read line = .ok s) ∧
        ∀ i j one other, Declares lines i one → Declares lines j other →
          Text.lowercase one = Text.lowercase other → i = j) ∧
    (∀ program, compile source = .ok program →
      program.statements.size = (Text.lines source).length + 1 ∧
      (∀ (i : Nat) (line : String), lines[i]? = some line →
        ∃ s, program.statements[i]? = some s ∧ Statement.read line = .ok s) ∧
      ∀ name k, program.label? name = some k ↔
        ∃ s declared, program.statements[k]? = some s ∧ s.IsLabel declared ∧
          Text.lowercase declared = Text.lowercase name) ∧
    ∀ e, compile source = .error e →
      ∃ k line cause, e = .compile k line cause ∧ lines[k]? = some line ∧
        Objection lines k cause ∧ (∀ other, Objection lines k other → other = cause) ∧
        ∀ j < k, ∀ other, ¬Objection lines j other := by
  intro lines
  refine ⟨⟨?_, ?_⟩, ?_, ?_⟩
  · rintro ⟨program, hok⟩
    have hholds := holds_of_compile hok
    exact ⟨fun line hmem => hholds.read_of_mem hmem,
      fun i j one other hone hother hkey =>
        hholds.declared_once hone.lt_length hother.lt_length hone hother hkey⟩
  · rintro ⟨hread, honce⟩
    rcases compile_cases source with ⟨program, hok, _⟩ | ⟨_, _, _, _, hrejected⟩
    · exact ⟨program, hok⟩
    · exact absurd hrejected.objection (not_objection hread honce)
  · intro program hok
    have hholds := holds_of_compile hok
    refine ⟨hholds.size, ?_, fun name k => hholds.label?_iff⟩
    intro i line hline
    obtain ⟨s, hread⟩ := hholds.read_of_mem (List.mem_of_getElem? hline)
    exact ⟨s, hholds.statement_iff.mpr ⟨line, hline, hread⟩, hread⟩
  · intro e herror
    rcases compile_cases source with ⟨_, hok, _⟩ | ⟨k, line, cause, hrejected, hwhere⟩
    · cases herror.symm.trans hok
    · cases herror.symm.trans hrejected
      exact ⟨k, line, cause, rfl, hwhere.line, hwhere.objection, hwhere.only, hwhere.first⟩

-- A label that comes back in other letters, before a line that is no statement.
theorem compile_rejects_second_label :
    compile "^a:\n^b:\n^A:\nSET" = .error (.compile 3 "^A:" (.duplicateLabel "A" 1)) ∧
    Objection ["", "^a:", "^b:", "^A:", "SET"] 3 (.duplicateLabel "A" 1) ∧
    (∀ j < 3, ∀ other, ¬Objection ["", "^a:", "^b:", "^A:", "SET"] j other) ∧
    ∃ program, compile "^a:\n^b:" = .ok program ∧ program.statements.size = 3 := by
  have hrejected :
      (match compile "^a:\n^b:\n^A:\nSET" with
        | .error (.compile 3 "^A:" (.duplicateLabel "A" 1)) => true
        | _ => false) = true := by
    decide +kernel
  have hlines : Text.lines "^a:\n^b:\n^A:\nSET" = ["^a:", "^b:", "^A:", "SET"] := by
    decide +kernel
  have hshort : Text.lines "^a:\n^b:" = ["^a:", "^b:"] := by
    decide +kernel
  have hok : (compile "^a:\n^b:").isOk = true := by
    decide +kernel
  split at hrejected
  · rename_i herror
    obtain ⟨_, _, hwhere⟩ := compile_is_line_by_line "^a:\n^b:\n^A:\nSET"
    obtain ⟨k, line, cause, he, _, hobjection, _, hfirst⟩ := hwhere _ herror
    cases he
    rw [hlines] at hobjection hfirst
    refine ⟨herror, hobjection, hfirst, ?_⟩
    cases hprogram : compile "^a:\n^b:" with
    | error e => simp [hprogram, Except.isOk, Except.toBool] at hok
    | ok program =>
        have hsize := ((compile_is_line_by_line "^a:\n^b:").2.1 program hprogram).1
        rw [hshort] at hsize
        exact ⟨program, rfl, hsize⟩
  · cases hrejected

end Program

end LineScript

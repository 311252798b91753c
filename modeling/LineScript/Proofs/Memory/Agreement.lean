import LineScript.Proofs.Memory.Path

namespace LineScript

theorem Name.accessors_ne_nil {name : String} (h : '@' ∈ name.toList) :
    (Name.ofText name).accessors ≠ [] := by
  obtain ⟨front, back, hname⟩ := List.append_of_mem h
  simp [Name.ofText, hname, Text.splitOn_append]

namespace Memory

variable {memory : Memory} {name : String} {path : List (String × Value)} {value old : Value}
  {create : Bool} {e : RuntimeError}

-- Accessors can be followed if each of them can be evaluated.
theorem exists_path_of_indices (indexed : String) {accessors : List String}
    (h : ∀ accessor ∈ accessors, ∃ index, memory.index accessor = .ok index) :
    ∃ path, memory.resolve indexed accessors = .ok path := by
  induction accessors generalizing indexed with
  | nil => exact ⟨[], rfl⟩
  | cons accessor rest ih =>
      obtain ⟨⟨index, hindex⟩, hrest⟩ := List.forall_mem_cons.mp h
      obtain ⟨later, hlater⟩ := ih (indexed ++ "@" ++ accessor) hrest
      refine ⟨(indexed, index) :: later, ?_⟩
      simp [resolve, hlater, hindex, Except.bind, Except.map]

theorem write_of_unresolved (hindexed : (Name.ofText name).accessors ≠ [])
    (h : memory.resolve (Name.ofText name).base (Name.ofText name).accessors = .error e) :
    memory.write name value create = .error e := by
  simp [write, hindexed, h, Except.bind]

theorem write_of_unbound (hindexed : (Name.ofText name).accessors ≠ [])
    (hpath : memory.resolve (Name.ofText name).base (Name.ofText name).accessors = .ok path)
    (hunbound : memory.current.get? (key (Name.ofText name).base) = none) :
    memory.write name value create = .error (.unboundVariable (Name.ofText name).base) := by
  simp [write, hindexed, hpath, hunbound, Except.bind]

-- Nothing is found in a variable that is not there, and no text either.
theorem not_passesText_of_unbound
    (hpath : memory.resolve (Name.ofText name).base (Name.ofText name).accessors = .ok path)
    (hunbound : memory.current.get? (key (Name.ofText name).base) = none) :
    ¬memory.PassesText name := by
  have hnull : memory.plain (Name.ofText name).base = .null := by
    rw [plain, hunbound, Option.getD_none]
  rw [passesText_iff hpath, hnull]
  cases path with
  | nil => exact not_crossesText_nil .null
  | cons place rest =>
      rw [crossesText_cons]
      rintro (⟨text, htext⟩ | ⟨item, hitem, _⟩)
      · cases htext
      · cases hitem

-- Where nothing is found nothing is put, and for the same reason if it is not for a text.
theorem write_of_failed_descent (value : Value) (create : Bool)
    (hindexed : (Name.ofText name).accessors ≠ [])
    (hpath : memory.resolve (Name.ofText name).base (Name.ofText name).accessors = .ok path)
    (hbound : memory.current.get? (key (Name.ofText name).base) = some old)
    (h : descend path old = .error e) :
    (memory.PassesText name ∧ memory.write name value create = .error .stringAssignment) ∨
      (¬memory.PassesText name ∧ memory.write name value create = .error e) := by
  have hplain : memory.plain (Name.ofText name).base = old := by
    rw [plain, hbound, Option.getD_some]
  rw [passesText_iff hpath, hplain, write_of_indexed value hindexed hpath hbound]
  by_cases htext : CrossesText path old
  · rw [assign_of_crossesText value htext]
    exact .inl ⟨htext, rfl⟩
  · have houtcome := outcome_of_assign value htext
    rw [h] at houtcome
    refine .inr ⟨htext, ?_⟩
    cases hassign : assign value path old with
    | error other =>
        rw [hassign] at houtcome
        cases houtcome
        rfl
    | ok stored =>
        rw [hassign] at houtcome
        cases houtcome

-- The ways in which reading under an indexed name can fail, with what writing does there. An
-- accessor that is no number comes first, before any variable is looked at.
theorem write_of_failed_read (value : Value) (create : Bool)
    (hindexed : (Name.ofText name).accessors ≠ []) (h : memory.read name = .error e) :
    (memory.resolve (Name.ofText name).base (Name.ofText name).accessors = .error e ∧
      memory.write name value create = .error e) ∨
    ∃ path, memory.resolve (Name.ofText name).base (Name.ofText name).accessors = .ok path ∧
      ((memory.current.get? (key (Name.ofText name).base) = none ∧
        (∃ indexed, e = .notIndexable indexed) ∧
        memory.write name value create = .error (.unboundVariable (Name.ofText name).base)) ∨
      (memory.current.get? (key (Name.ofText name).base) ≠ none ∧
        ((memory.PassesText name ∧ memory.write name value create = .error .stringAssignment) ∨
          (¬memory.PassesText name ∧ memory.write name value create = .error e)))) := by
  cases hpath : memory.resolve (Name.ofText name).base (Name.ofText name).accessors with
  | error cause =>
      have hsame : cause = e := by
        simpa [read, hpath, Except.bind] using h
      subst hsame
      exact .inl ⟨rfl, write_of_unresolved hindexed hpath⟩
  | ok path =>
      refine .inr ⟨path, rfl, ?_⟩
      have hdescend : descend path (memory.plain (Name.ofText name).base) = .error e := by
        simpa [read, hpath, Except.bind] using h
      cases hget : memory.current.get? (key (Name.ofText name).base) with
      | none =>
          refine .inl ⟨rfl, ?_, write_of_unbound hindexed hpath hget⟩
          rw [plain, hget, Option.getD_none] at hdescend
          cases path with
          | nil => cases hdescend
          | cons place rest =>
              cases hdescend
              exact ⟨place.1, rfl⟩
      | some old =>
          rw [plain, hget, Option.getD_some] at hdescend
          exact .inr ⟨Option.some_ne_none old,
            write_of_failed_descent value create hindexed hpath hget hdescend⟩

-- Reading and writing under an indexed name agree. Where a value is read another can be written,
-- unless a text is on the way; and where the reading fails the writing fails in the same way, but
-- for a variable that is not there and for a text on the way.
theorem reading_and_writing_agree (memory : Memory) {name : String} (value : Value) (create : Bool)
    (hname : '@' ∈ name.toList) :
    (∀ found, memory.read name = .ok found →
      ((∃ next, memory.write name value create = .ok next) ∨
        memory.write name value create = .error .stringAssignment) ∧
      (memory.write name value create = .error .stringAssignment ↔ memory.PassesText name)) ∧
    ∀ e, memory.read name = .error e →
      let unbound := (∃ indexed, e = .notIndexable indexed) ∧
        memory.current.get? (key (Name.ofText name).base) = none
      let passing := (∀ accessor ∈ (Name.ofText name).accessors,
        ∃ index, memory.index accessor = .ok index) ∧ memory.PassesText name
      (unbound →
        memory.write name value create = .error (.unboundVariable (Name.ofText name).base)) ∧
      (passing → memory.write name value create = .error .stringAssignment) ∧
      (¬unbound → ¬passing → memory.write name value create = .error e) := by
  have hindexed := Name.accessors_ne_nil hname
  constructor
  · intro found hread
    rcases write_of_indexed_read value create hindexed hread with
      ⟨hclear, next, hnext⟩ | ⟨htext, hrefused⟩
    · exact ⟨.inl ⟨next, hnext⟩, by simp [hnext, hclear]⟩
    · exact ⟨.inr hrefused, by simp [hrefused, htext]⟩
  · intro e hread unbound passing
    rcases write_of_failed_read value create hindexed hread with
      ⟨hpath, hwrite⟩ | ⟨path, hpath, ⟨hnone, hnot, hwrite⟩ | ⟨hsome, hdescent⟩⟩
    · refine ⟨?_, ?_, fun _ _ => hwrite⟩
      · rintro ⟨⟨indexed, rfl⟩, _⟩
        obtain ⟨index, hinvalid⟩ := exists_invalidIndex_of_resolve hpath
        cases hinvalid
      · rintro ⟨hindices, _⟩
        obtain ⟨path, hresolved⟩ := exists_path_of_indices (Name.ofText name).base hindices
        rw [hpath] at hresolved
        cases hresolved
    · refine ⟨fun _ => hwrite, fun hpassing => ?_, fun hbound => absurd ⟨hnot, hnone⟩ hbound⟩
      exact absurd hpassing.2 (not_passesText_of_unbound hpath hnone)
    · refine ⟨fun hunbound => absurd hunbound.2 hsome, ?_⟩
      have hindices : ∀ accessor ∈ (Name.ofText name).accessors,
          ∃ index, memory.index accessor = .ok index := by
        intro accessor haccessor
        obtain ⟨place, _, hindex⟩ := exists_index_of_resolve hpath accessor haccessor
        exact ⟨place.2, hindex⟩
      rcases hdescent with ⟨htext, hwrite⟩ | ⟨hclear, hwrite⟩
      · exact ⟨fun _ => hwrite, fun _ hnot => absurd ⟨hindices, htext⟩ hnot⟩
      · exact ⟨fun hpassing => absurd hpassing.2 hclear, fun _ _ => hwrite⟩

-- A list with a text in it.
def listOfText : Memory := ⟨[("l", .list [.string "ab", .null])], []⟩

-- A character of the text is read and cannot be written, one behind its end is not read either; a
-- variable that is not there; and an item behind the end of the list.
theorem texts_are_read_only :
    ((∃ found, listOfText.read "l@0@1" = .ok found) ∧
      listOfText.write "l@0@1" .null true = .error .stringAssignment) ∧
    (listOfText.read "l@0@5" = .error (.outOfRange (.integer 5) .index) ∧
      listOfText.write "l@0@5" .null true = .error .stringAssignment) ∧
    (listOfText.read "x@0@1" = .error (.notIndexable "x") ∧
      listOfText.write "x@0@1" .null true = .error (.unboundVariable "x")) ∧
    (listOfText.read "l@9@0" = .error (.outOfRange (.integer 9) .index) ∧
      listOfText.write "l@9@0" .null true = .error (.outOfRange (.integer 9) .index)) := by
  have hread : listOfText.read "l@0@1" = .ok (.string "b") := rfl
  have hbehind : listOfText.read "l@0@5" = .error (.outOfRange (.integer 5) .index) := rfl
  have hunbound : listOfText.read "x@0@1" = .error (.notIndexable "x") := rfl
  have hout : listOfText.read "l@9@0" = .error (.outOfRange (.integer 9) .index) := rfl
  have hname : Name.ofText "l@0@5" = ⟨"l", ["0", "5"]⟩ := by decide
  have hnine : Name.ofText "l@9@0" = ⟨"l", ["9", "0"]⟩ := by decide
  have hpath : listOfText.resolve (Name.ofText "l@9@0").base (Name.ofText "l@9@0").accessors =
      .ok [("l", .integer 9), ("l@9", .integer 0)] := by
    rw [hnine]
    rfl
  have hclear : ¬listOfText.PassesText "l@9@0" := by
    rw [passesText_iff hpath, crossesText_cons, hnine]
    rintro (⟨text, htext⟩ | ⟨item, hitem, _⟩)
    · cases htext
    · cases hitem
  refine ⟨⟨⟨_, hread⟩, ?_⟩, ⟨hbehind, ?_⟩, ⟨hunbound, ?_⟩, ⟨hout, ?_⟩⟩
  · have hagree := (reading_and_writing_agree listOfText .null true (by decide)).1 _ hread
    exact hagree.2.mpr ⟨"l@0", "1", "ab", by decide, rfl⟩
  · have hagree := (reading_and_writing_agree listOfText .null true (by decide)).2 _ hbehind
    refine hagree.2.1 ⟨?_, "l@0", "5", "ab", by decide, rfl⟩
    rw [hname]
    exact List.forall_mem_cons.mpr ⟨⟨_, rfl⟩, List.forall_mem_singleton.mpr ⟨_, rfl⟩⟩
  · have hagree := (reading_and_writing_agree listOfText .null true (by decide)).2 _ hunbound
    exact hagree.1 ⟨⟨_, rfl⟩, rfl⟩
  · have hagree := (reading_and_writing_agree listOfText .null true (by decide)).2 _ hout
    exact hagree.2.2 (fun hunbound => by cases hunbound.2) fun hpassing => hclear hpassing.2

end Memory

end LineScript

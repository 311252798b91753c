import LineScript.Proofs.Machine.FileCourse
import LineScript.Proofs.Value.Line

namespace LineScript.Machine

-- What is written to a new file is read from it again, line by line. All statements on the way
-- succeed: the file is opened, the values are written, the file is closed and opened once more, and
-- each READ stores what the line of its value stands for. The READ after the last line stores null,
-- in the variable of the file, too, and closes the handle. So an integer comes back as it was, and
-- so does a text, unless it is that of a number.
theorem files_round_trip {program : Program} {world : World} {m : Machine} {opening : Statement}
    {file : Token} {name : String} {disk : Disk} {path : Path}
    (hworld : world.files.channels = #[]) (hm : (program.load world).Onward m)
    (hfound : m.world.files.disk.findOrCreate name = .ok (disk, path))
    (hnew : m.world.files.disk.node? path = none)
    (hopening : m.Opens opening .openWrite file name) :
    let opened := (m.step opening).1
    (m.step opening).2 = .ok () ∧
    ∀ (values : List Value) (writes : Nat → Statement),
      (∀ k value, values[k]? = some value →
        opened.Writes (writes k) file value ∧ value.holds ⟨m.channelCount, name⟩ = false ∧
          Text.IsLine (opened.display value)) →
      let written := opened.course writes values.length
      (∀ k < values.length, ((opened.course writes k).step (writes k)).2 = .ok ()) ∧
      ∀ closing : Statement, closing.operation = .close → closing.primary = some file →
        let closed := (written.step closing).1
        (written.step closing).2 = .ok () ∧
        ∀ (reopening : Statement) (again : Token), closed.Opens reopening .openRead again name →
          let reopened := (closed.step reopening).1
          let reader : Handle := ⟨closed.channelCount, name⟩
          (closed.step reopening).2 = .ok () ∧
          ∀ (reads : Nat → Statement) (targets : Nat → Token),
            (∀ k ≤ values.length, (reopened.course reads k).Reads (reads k) again (targets k)) →
            let stored k := (reopened.course reads (k + 1)).memory.read (targets k).text
            (∀ k ≤ values.length, ((reopened.course reads k).step (reads k)).2 = .ok ()) ∧
            (∀ k value, values[k]? = some value →
              stored k = .ok (.ofLine (opened.display value))) ∧
            (∀ k n, values[k]? = some (.integer n) → stored k = .ok (.integer n)) ∧
            (∀ k text, values[k]? = some (.string text) →
              (stored k = .ok (.string text) ↔
                Value.readNumber? (String.ofList (Text.trimBlanks text.toList)) = none)) ∧
            stored values.length = .ok .null ∧
            (reopened.course reads (values.length + 1)).memory.read again.text = .ok .null ∧
            (reopened.course reads values.length).world.files.isOpen reader = true ∧
            (reopened.course reads (values.length + 1)).world.files.isOpen reader = false := by
  intro opened
  have hreachable := hm.reachable (.load program world)
  have hanchored := hm.anchored (Files.anchored_of_none hworld)
  obtain ⟨hok, hwriting, hfind⟩ := hopening.step_new hreachable hanchored hfound hnew
  refine ⟨hok, ?_⟩
  intro values writes hwrites written
  have hcourse := hwriting.course fun k value hk => by
    obtain ⟨hstatement, hholds, _⟩ := hwrites k value hk
    exact ⟨hstatement, hholds⟩
  refine ⟨?_, ?_⟩
  · intro k hk
    obtain ⟨hnow, hmemory, _⟩ := hcourse k (Nat.le_of_lt hk)
    obtain ⟨hstatement, hholds, _⟩ := hwrites k _ (List.getElem?_eq_getElem hk)
    exact (hnow.executes (hstatement.congr hmemory) hholds).1
  intro closing hclosing hprimary closed
  have hwritten : written.Reachable := (hreachable.step opening).course writes _
  obtain ⟨hall, _, _⟩ := hcourse values.length (Nat.le_refl _)
  obtain ⟨hok, hgathers, hshut⟩ :=
    hall.step_close hwritten hopening.takes.kind hclosing hprimary
  refine ⟨hok, ?_⟩
  intro reopening again hreopening reopened reader
  have hfindAgain : closed.world.files.disk.find name = .ok path :=
    Disk.find_of_enduresIn ((opened.endures_course writes _).trans (endures_step _ _)) hfind
  generalize hlines : values.map opened.display = lines at hgathers
  have hlength : lines.length = values.length := by rw [← hlines, List.length_map]
  rw [List.take_of_length_le (Nat.le_of_eq hlength)] at hgathers
  obtain ⟨hok, hreading⟩ :=
    hreopening.step_again (hwritten.step closing) hfindAgain hgathers hshut
  refine ⟨hok, ?_⟩
  intro reads targets hreads stored
  rw [← hlength] at hreads ⊢
  have hfit : ∀ line ∈ lines, Text.IsLine line := by
    intro line hline
    rw [← hlines] at hline
    obtain ⟨value, hvalue, rfl⟩ := List.mem_map.mp hline
    obtain ⟨k, hk⟩ := List.getElem?_of_mem hvalue
    exact (hwrites k value hk).2.2
  have hstored {k : Nat} {value : Value} (hk : values[k]? = some value) :
      stored k = .ok (.ofLine (opened.display value)) := by
    have hline : lines[k]? = some (opened.display value) := by
      rw [← hlines, List.getElem?_map, hk]
      rfl
    exact (hreading.course_line hfit hreads hline).2
  obtain ⟨hok, hend⟩ := hreading.course_end hfit hreads
  refine ⟨?_, fun k value => hstored, ?_, ?_, hend⟩
  · intro k hk
    rcases Nat.lt_or_eq_of_le hk with hlt | rfl
    · exact (hreading.course_line hfit hreads (List.getElem?_eq_getElem hlt)).1
    · exact hok
  · intro k n hk
    rw [hstored hk]
    exact congrArg Except.ok (Value.ofLine_integer _ n)
  · intro k text hk
    rw [hstored hk, Except.ok.injEq]
    exact Value.ofLine_eq_string_iff text

-- The new file takes the variable of one that is open. Of the texts an empty one comes back, and
-- one with a number in it does not.
theorem lines_come_back :
    ∃ program, Program.compile "OPEN \"y\" AS WRITE f\nWRITE 1 TO f" = .ok program ∧
      let m := (program.drive 3 (program.load .blank)).1
      let f : Token := ⟨.name, "f"⟩
      let x : Token := ⟨.name, "x"⟩
      let literals : List Token :=
        [⟨.number, "-7"⟩, ⟨.string, "\"\""⟩, ⟨.string, "\"a b\""⟩, ⟨.string, "\" 8 \""⟩]
      let writes k : Statement := ⟨.write, some f, literals[k]?, "WRITE"⟩
      let opened := (m.step ⟨.openWrite, some f, some ⟨.string, "\"new\""⟩, "OPEN"⟩).1
      let closed := ((opened.course writes 4).step ⟨.close, some f, none, "CLOSE f"⟩).1
      let reopened := (closed.step ⟨.openRead, some f, some ⟨.string, "\"new\""⟩, "OPEN"⟩).1
      let reads (_ : Nat) : Statement := ⟨.read, some x, some f, "READ x FROM f"⟩
      let stored k := (reopened.course reads (k + 1)).memory.read "x"
      m.channelCount = 1 ∧ stored 0 = .ok (.integer (-7)) ∧ stored 1 = .ok (.string "") ∧
        stored 2 = .ok (.string "a b") ∧ stored 3 ≠ .ok (.string " 8 ") ∧ stored 4 = .ok .null ∧
        (reopened.course reads 5).memory.read "f" = .ok .null := by
  have hrun : (Program.compile "OPEN \"y\" AS WRITE f\nWRITE 1 TO f").toOption.any (fun program =>
      let m := (program.drive 3 (program.load .blank)).1
      (m.world.files.disk.findOrCreate "new").toOption.any (fun found =>
        (m.world.files.disk.node? found.2).isNone) && m.channelCount = 1) = true := by
    decide +kernel
  obtain ⟨program, hprogram, hchecked⟩ := (Option.any_eq_true _ _).mp hrun
  simp only [Bool.and_eq_true, decide_eq_true_eq] at hchecked
  obtain ⟨hplace, hcount⟩ := hchecked
  obtain ⟨⟨disk, path⟩, hfound, hnew⟩ := (Option.any_eq_true _ _).mp hplace
  refine ⟨program, toOption_eq_some.mp hprogram, ?_⟩
  intro m f x literals writes opened closed reopened reads stored
  have htakes (memory : Memory) : memory.Takes ⟨.name, "f"⟩ ∧ memory.Takes ⟨.name, "x"⟩ := by
    have hplain : (Name.ofText (Token.text ⟨.name, "f"⟩)).accessors = [] ∧
        (Name.ofText (Token.text ⟨.name, "x"⟩)).accessors = [] := by decide +kernel
    exact ⟨Memory.takes_of_plain rfl hplain.1 memory, Memory.takes_of_plain rfl hplain.2 memory⟩
  have hname (memory : Memory) : memory.evaluate ⟨.string, "\"new\""⟩ = .ok (.string "new") := by
    rw [Memory.evaluate]
    rfl
  have hopening : m.Opens ⟨.openWrite, some f, some ⟨.string, "\"new\""⟩, "OPEN"⟩ .openWrite f
      "new" := ⟨rfl, rfl, (htakes _).1, hname _⟩
  have hreopening : closed.Opens ⟨.openRead, some f, some ⟨.string, "\"new\""⟩, "OPEN"⟩ .openRead f
      "new" := ⟨rfl, rfl, (htakes _).1, hname _⟩
  have hwrites : ∀ k value,
      [Value.integer (-7), .string "", .string "a b", .string " 8 "][k]? = some value →
        opened.Writes (writes k) f value ∧ value.holds ⟨m.channelCount, "new"⟩ = false ∧
          Text.IsLine (opened.display value) := by
    intro k value hk
    rcases k with _ | _ | _ | _ | k
    on_goal 5 => cases hk
    all_goals
      cases hk
      refine ⟨⟨rfl, rfl, ?_⟩, rfl, ?_⟩
      · change opened.memory.evaluate _ = _
        rw [Memory.evaluate]
        rfl
    · exact (by decide +kernel : Text.IsLine (Number.integerText (-7)))
    · exact (by decide +kernel : Text.IsLine "")
    · exact (by decide +kernel : Text.IsLine "a b")
    · exact (by decide +kernel : Text.IsLine " 8 ")
  have hreads : ∀ k ≤ 4, (reopened.course reads k).Reads (reads k) f x := fun k _ =>
    ⟨rfl, rfl, rfl, (htakes _).2, Memory.apart_of_keys (by decide +kernel) (by decide +kernel)⟩
  obtain ⟨_, hwritten⟩ := files_round_trip rfl (Onward.drive program (program.load .blank) 3)
    (toOption_eq_some.mp hfound) (Option.isNone_iff_eq_none.mp hnew) hopening
  obtain ⟨_, hclosed⟩ := hwritten _ writes hwrites
  obtain ⟨_, hreopened⟩ := hclosed ⟨.close, some f, none, "CLOSE f"⟩ rfl rfl
  obtain ⟨_, hread⟩ := hreopened _ f hreopening
  obtain ⟨_, _, hinteger, hstring, hnull, hcleared, _⟩ := hread reads (fun _ => x) hreads
  have hnumber : Value.readNumber? (String.ofList (Text.trimBlanks " 8 ".toList)) ≠ none :=
    Option.isSome_iff_ne_none.mp (by decide +kernel)
  refine ⟨hcount, hinteger 0 _ rfl, (hstring 1 _ rfl).mpr ?_, (hstring 2 _ rfl).mpr ?_, ?_, hnull,
    hcleared⟩
  · exact Option.isNone_iff_eq_none.mp (by decide +kernel)
  · exact Option.isNone_iff_eq_none.mp (by decide +kernel)
  · exact fun hsame => hnumber ((hstring 3 _ rfl).mp hsame)

end LineScript.Machine

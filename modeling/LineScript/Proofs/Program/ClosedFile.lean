import LineScript.Proofs.Machine.Failure
import LineScript.Proofs.Program.BufferedWriting
import LineScript.Proofs.Program.Labels
import LineScript.Proofs.Token.Case

namespace LineScript

namespace Memory

-- Of all tokens only a name stands for a file.
theorem read_of_evaluate_file {memory : Memory} {token : Token} {file : Value} {handle : Handle}
    (h : memory.evaluate token = .ok file) (hfile : file.handle? = some handle) :
    memory.read token.text = .ok file := by
  cases hkind : token.kind with
  | name => rwa [evaluate_name hkind] at h
  | list =>
      rw [evaluate_list hkind] at h
      split at h
      · cases h
      · obtain ⟨values, _, rfl⟩ := map_eq_ok.mp h
        cases hfile
  | number =>
      rw [evaluate, hkind] at h
      dsimp only at h
      split at h
      · rename_i value hnumber
        cases h
        obtain ⟨literal, _, rfl⟩ := Option.map_eq_some_iff.mp hnumber
        cases literal <;> cases hfile
      · cases h
  | _ =>
      rw [evaluate, hkind] at h
      cases h <;> cases hfile

-- The kind and the handle of the file that a name stands for.
def fileAt? (memory : Memory) (name : String) : Option (ValueType × Handle) :=
  (memory.evaluate ⟨.name, name⟩).toOption.bind fun file => file.handle?.map (file.type, ·)

theorem evaluate_of_fileAt? {memory : Memory} {name : String} (file : Value) {handle : Handle}
    (hfile : file.handle? = some handle) (h : memory.fileAt? name = some (file.type, handle)) :
    memory.evaluate ⟨.name, name⟩ = .ok file := by
  obtain ⟨found, hfound, hkind⟩ := Option.bind_eq_some_iff.mp h
  obtain ⟨other, hother, hsame⟩ := Option.map_eq_some_iff.mp hkind
  have hvalue : found = file := by
    cases found <;> cases hother <;> cases file <;> simp_all [Value.type, Value.handle?]
  rw [toOption_eq_some.mp hfound, hvalue]

end Memory

namespace Files

variable {files : Files} {handle : Handle}

theorem readLine_of_closed (h : files.isOpen handle = false) :
    files.readLine handle = (files, .error (.fileClosed handle.name)) := by
  rw [readLine, isOpen_eq_false_iff.mp h]

theorem writeLine_of_closed (h : files.isOpen handle = false) (text : String) :
    files.writeLine handle text = (files, .error (.fileClosed handle.name)) := by
  rw [writeLine, isOpen_eq_false_iff.mp h]

theorem handed_of_closed (h : files.isOpen handle = false) (action : FileAction) :
    Piece.through handle.id (files.handed action) = [] := by
  have hclosed {target : Handle} (hid : target.id = handle.id) :
      files.channel target = .closed := by
    rw [files.channel_congr hid, isOpen_eq_false_iff.mp h]
  cases action with
  | writeLine target text =>
      by_cases hid : target.id = handle.id
      · rw [handed, linePushedOut, hclosed hid, Piece.through_nil]
      · exact (files.served_writeLine target text).through_of_other (Ne.symm hid)
  | close target =>
      by_cases hid : target.id = handle.id
      · rw [handed, flushed, hclosed hid, Piece.through_nil]
      · exact (files.served_close target).through_of_other (Ne.symm hid)
  | _ => rfl

-- Whatever is done to the files, a handle that was given out and is closed stays so, and hands
-- nothing over.
theorem actAll_of_closed (hgiven : handle.id < files.channels.size)
    (h : files.isOpen handle = false) (actions : List FileAction) :
    handle.id < (files.actAll actions).channels.size ∧
      (files.actAll actions).isOpen handle = false ∧
      Piece.through handle.id (files.handedAll actions) = [] := by
  induction actions generalizing files with
  | nil => exact ⟨hgiven, h, rfl⟩
  | cons action rest ih =>
      have hlater : (files.act action).isOpen handle = false := by
        by_contra hopen
        have hbefore := isOpen_of_act (by simpa using hopen) fun _ => Nat.ne_of_lt hgiven
        simp [h] at hbefore
      obtain ⟨hcount, hclosed, hthrough⟩ :=
        ih (Nat.lt_of_lt_of_le hgiven (files.size_act action)) hlater
      rw [actAll_cons, handedAll, Piece.through_append, handed_of_closed h action]
      exact ⟨hcount, hclosed, hthrough⟩

end Files

namespace Machine

-- The states that a run can come to from a given one, failed steps included.
inductive Onward (m : Machine) : Machine → Prop where
  | here : Onward m m
  | outside {later : Machine} (console : Console) (log : Log) (h : Onward m later) :
      Onward m { later with world := { later.world with console := console, log := log } }
  | step {later : Machine} (s : Statement) (h : Onward m later) : Onward m (later.step s).1

-- A statement that closes a file: a CLOSE, even if the file refuses what was held back, or a READ
-- that finds the end of the file.
inductive Closes (m : Machine) (s : Statement) (handle : Handle) : Prop where
  | close {file other : Value} (hs : s.operation = .close)
      (hfile : m.memory.evaluate (s.primary.getD .null) = .ok file)
      (hhandle : file.handle? = some handle)
      (hother : m.memory.evaluateOperand s.secondary = .ok other)
  | ended {other : Value} (hs : s.operation = .read)
      (hfile : m.memory.evaluate (s.primary.getD .null) = .ok (.reader handle))
      (hother : m.memory.evaluateOperand s.secondary = .ok other)
      (hend : (m.world.files.readLine handle).2 = .ok none)

-- A handle that was given out and is closed.
structure Shut (m : Machine) (handle : Handle) : Prop where
  given : handle.id < m.channelCount
  closed : m.world.files.isOpen handle = false

variable {m later : Machine} {s : Statement} {handle : Handle}

theorem Onward.announce (h : m.Onward later) (s : Statement) : m.Onward (later.announce s) := by
  obtain ⟨log, hannounce⟩ := later.announce_eq s
  rw [hannounce]
  exact h.outside later.world.console log

theorem Onward.reachable (hm : m.Reachable) (h : m.Onward later) : later.Reachable := by
  induction h with
  | here => exact hm
  | outside console log _ ih => exact ih.outside console log
  | step s _ ih => exact ih.step s

theorem Onward.drive (program : Program) (m : Machine) (fuel : Nat) :
    m.Onward (program.drive fuel m).1 := by
  apply Program.drive_preserves m.Onward
  · intro later s _ h
    exact (h.announce s).step s
  · exact .here

theorem Closes.mem_handles (h : m.Closes s handle) : handle ∈ m.memory.handles := by
  cases h with
  | close _ hfile hhandle _ =>
      refine Memory.mem_handles_of_evaluate hfile ?_
      simp [Value.handles_of_handle? hhandle]
  | ended _ hfile _ _ =>
      exact Memory.mem_handles_of_evaluate hfile (List.mem_singleton_self _)

theorem Closes.isOpen_step (h : m.Closes s handle) :
    (m.step s).1.world.files.isOpen handle = false := by
  cases h with
  | close hs hfile hhandle hother =>
      exact isOpen_of_close hs hfile hhandle rfl (by rw [hother]; rfl)
  | @ended other hs hfile hother hend =>
      have hactions : m.actions s =
          .readLine handle :: (handle :: released (m.execute s).1.memory
            (m.leaving (.reader handle) other)).map FileAction.close := by
        simp [actions, fileActions, reading, hfile, hother, hs, hend]
      rw [files_step, hactions, Files.actAll_cons, Files.actAll_close, Files.isOpen_release]
      simp

namespace Shut

theorem of_closes (hm : m.Reachable) (h : m.Closes s handle) : (m.step s).1.Shut handle where
  given := by
    have hgiven := hm.handles_lt handle h.mem_handles
    exact Nat.lt_of_lt_of_le hgiven (m.effect_step s).count_le
  closed := h.isOpen_step

theorem step (h : m.Shut handle) (s : Statement) : (m.step s).1.Shut handle := by
  obtain ⟨hgiven, hclosed, _⟩ := Files.actAll_of_closed h.given h.closed (m.actions s)
  rw [← files_step] at hgiven hclosed
  exact ⟨hgiven, hclosed⟩

theorem onward (h : m.Shut handle) (hlater : m.Onward later) : later.Shut handle := by
  induction hlater with
  | here => exact h
  | outside console log _ ih => exact ⟨ih.given, ih.closed⟩
  | step s _ ih => exact ih.step s

end Shut

section Statements

variable {t : Statement} {a b : Value} (ha : m.memory.evaluate (t.primary.getD .null) = .ok a)
  (hb : m.memory.evaluateOperand t.secondary = .ok b)

include ha hb

-- An operation that fails and leaves all as it was drops no file.
theorem step_of_perform_fail {e : RuntimeError}
    (h : m.perform t (t.primary.getD .null) a b = m.fail e) : m.step t = m.fail e := by
  have hexecute : m.execute t = m.fail e := by
    rw [m.execute_of_operands t ha hb, h]
    exact congrArg (·, _) (m.release_of_held fun _ hmem => (mem_leaving ha hb).mp hmem)
  rw [step_eq_settle, hexecute]
  rfl

theorem step_of_perform_done {next : Machine}
    (h : m.perform t (t.primary.getD .null) a b = next.done) :
    (m.step t).2 = .ok () ∧ (m.step t).1.memory = next.memory ∧
      (m.step t).1.world.files =
        next.world.files.release (released next.memory (m.leaving a b)) := by
  rw [step_eq_settle, m.execute_of_operands t ha hb, h]
  refine ⟨rfl, memory_release next _, ?_⟩
  rw [← Files.actAll_close]
  exact files_release next _

theorem Shut.step_read (h : m.Shut handle) (ht : t.operation = .read) (hfile : a = .reader handle) :
    m.step t = m.fail (.fileClosed handle.name) := by
  apply step_of_perform_fail ha hb
  rw [perform_read ht, hfile]
  simp only [readFrom, borrowing_none, Files.readLine_of_closed h.closed]
  rfl

theorem Shut.step_write (h : m.Shut handle) (ht : t.operation = .write)
    (hfile : a = .writer handle) (hvalue : b.holds handle = false) :
    m.step t = m.fail (.fileClosed handle.name) := by
  apply step_of_perform_fail ha hb
  rw [perform_write ht, hfile, writeTo_writer, hvalue, Files.writeLine_of_closed h.closed]
  rfl

-- There is nothing left to hand over, so only the variable is cleared.
theorem Shut.step_close (h : m.Shut handle) (ht : t.operation = .close)
    (hfile : a.handle? = some handle) :
    (m.step t).2 = .ok () ∧ (m.step t).1.memory.read (t.primary.getD .null).text = .ok .null := by
  have hread := Memory.read_of_evaluate_file ha hfile
  obtain ⟨cleared, hcleared⟩ := Memory.exists_cleared hread hfile
  have hnull := Memory.read_written hcleared
  have hchannel := Files.isOpen_eq_false_iff.mp h.closed
  have hclose : m.world.files.close handle = (m.world.files, .ok ()) := by
    refine Prod.ext (Files.close_of_closed hchannel) ?_
    simp [Files.close, Files.flush, hchannel, Except.mapError]
  have hperform : m.perform t (t.primary.getD .null) a b =
      done { m with memory := cleared } := by
    rw [perform_close ht]
    simp only [closeFile, hfile, borrowing_none, hclose, store, withFiles, hcleared]
  obtain ⟨hok, hmemory, _⟩ := step_of_perform_done ha hb hperform
  exact ⟨hok, by rw [hmemory, hnull]⟩

end Statements

-- A file that was closed stays closed, for every copy of its handle. Nothing is read from it or
-- handed over through it by any later statement, nor when the run ends; a READ or a WRITE through a
-- copy fails and changes nothing, and a CLOSE clears the variable or the item that it names.
theorem closed_file_stays_closed {m later : Machine} {s : Statement} {handle : Handle}
    (hm : m.Reachable) (hcloses : m.Closes s handle) (hlater : (m.step s).1.Onward later) :
    later.world.files.isOpen handle = false ∧
    later.world.files.readLine handle =
      (later.world.files, .error (.fileClosed handle.name)) ∧
    (∀ handles, Piece.through handle.id (later.world.files.sweptOut handles) = []) ∧
    ∀ t : Statement,
      later.world.files.disk.Grown (later.world.files.handedAll (later.actions t))
        (later.step t).1.world.files.disk ∧
      Piece.through handle.id (later.world.files.handedAll (later.actions t)) = [] ∧
      ∀ a b, later.memory.evaluate (t.primary.getD .null) = .ok a →
        later.memory.evaluateOperand t.secondary = .ok b →
        (t.operation = .read → a = .reader handle →
          later.step t = later.fail (.fileClosed handle.name)) ∧
        (t.operation = .write → a = .writer handle → b.holds handle = false →
          later.step t = later.fail (.fileClosed handle.name)) ∧
        (t.operation = .close → a.handle? = some handle →
          (later.step t).2 = .ok () ∧
            (later.step t).1.memory.read (t.primary.getD .null).text = .ok .null) := by
  have hshut := (Shut.of_closes hm hcloses).onward hlater
  have hsilent (actions : List FileAction) :=
    (Files.actAll_of_closed hshut.given hshut.closed actions).2.2
  refine ⟨hshut.closed, Files.readLine_of_closed hshut.closed, fun _ => hsilent _, ?_⟩
  intro t
  refine ⟨?_, hsilent _, ?_⟩
  · rw [files_step]
    exact Files.grown_actAll _ _
  · intro a b ha hb
    exact ⟨hshut.step_read ha hb, hshut.step_write ha hb, hshut.step_close ha hb⟩

-- The copy in a list of a file that refused its last line, and of one that was read to its end.
theorem copies_of_closed_files_fail :
    (∃ program, Program.compile "OPEN \"/dev/full\" AS WRITE f\nSET g TO (f, 0)\nWRITE 1 TO f" =
        .ok program ∧
      let m := (program.drive 4 (program.load .blank)).1
      let s : Statement := ⟨.close, some ⟨.name, "f"⟩, none, "CLOSE f"⟩
      let t : Statement :=
        ⟨.write, some ⟨.name, "g@0"⟩, some ⟨.string, "\"x\""⟩, "WRITE \"x\" TO g@0"⟩
      m.Reachable ∧ m.Closes s ⟨0, "/dev/full"⟩ ∧ (m.step s).2.isOk = false ∧
        (m.step s).1.step t = (m.step s).1.fail (.fileClosed "/dev/full")) ∧
    ∃ program, Program.compile "OPEN \"/dev/null\" AS READ f\nSET g TO (f, 0)" = .ok program ∧
      let m := (program.drive 3 (program.load .blank)).1
      let s : Statement := ⟨.read, some ⟨.name, "x"⟩, some ⟨.name, "f"⟩, "READ x FROM f"⟩
      let t : Statement := ⟨.read, some ⟨.name, "x"⟩, some ⟨.name, "g@0"⟩, "READ x FROM g@0"⟩
      let u : Statement := ⟨.close, some ⟨.name, "g@0"⟩, none, "CLOSE g@0"⟩
      m.Reachable ∧ m.Closes s ⟨0, "/dev/null"⟩ ∧
        (m.step s).1.step t = (m.step s).1.fail (.fileClosed "/dev/null") ∧
        ((m.step s).1.step u).2 = .ok () ∧
        ((m.step s).1.step u).1.memory.read "g@0" = .ok .null := by
  have hreachable (program : Program) (n : Nat) :
      (program.drive n (program.load .blank)).1.Reachable :=
    (Onward.drive program (program.load .blank) n).reachable (.load program .blank)
  constructor
  · have hrun : (Program.compile
        "OPEN \"/dev/full\" AS WRITE f\nSET g TO (f, 0)\nWRITE 1 TO f").toOption.any (fun program =>
          let m := (program.drive 4 (program.load .blank)).1
          let closed := m.step ⟨.close, some ⟨.name, "f"⟩, none, "CLOSE f"⟩
          m.memory.fileAt? "f" = some (.writer, ⟨0, "/dev/full"⟩) && !closed.2.isOk &&
            closed.1.memory.fileAt? "g@0" = some (.writer, ⟨0, "/dev/full"⟩)) = true := by
      decide +kernel
    obtain ⟨program, hprogram, hchecked⟩ := (Option.any_eq_true _ _).mp hrun
    simp only [Bool.and_eq_true, Bool.not_eq_true', decide_eq_true_eq] at hchecked
    obtain ⟨⟨hfile, hrefused⟩, hcopy⟩ := hchecked
    have hcloses : (program.drive 4 (program.load .blank)).1.Closes
        ⟨.close, some ⟨.name, "f"⟩, none, "CLOSE f"⟩ ⟨0, "/dev/full"⟩ :=
      .close rfl (Memory.evaluate_of_fileAt? (.writer _) rfl hfile) rfl rfl
    refine ⟨program, toOption_eq_some.mp hprogram, hreachable program 4, hcloses, hrefused, ?_⟩
    obtain ⟨_, _, _, hlater⟩ := closed_file_stays_closed (hreachable program 4) hcloses .here
    have hvalue (memory : Memory) : memory.evaluate ⟨.string, "\"x\""⟩ = .ok (.string "x") := by
      rw [Memory.evaluate]
      rfl
    obtain ⟨_, _, hstatement⟩ := hlater
      ⟨.write, some ⟨.name, "g@0"⟩, some ⟨.string, "\"x\""⟩, "WRITE \"x\" TO g@0"⟩
    have hwriter := Memory.evaluate_of_fileAt? (.writer _) rfl hcopy
    exact (hstatement _ _ hwriter (hvalue _)).2.1 rfl rfl rfl
  · have hrun : (Program.compile
        "OPEN \"/dev/null\" AS READ f\nSET g TO (f, 0)").toOption.any (fun program =>
          let m := (program.drive 3 (program.load .blank)).1
          let ended := m.step ⟨.read, some ⟨.name, "x"⟩, some ⟨.name, "f"⟩, "READ x FROM f"⟩
          m.memory.fileAt? "f" = some (.reader, ⟨0, "/dev/null"⟩) &&
            (m.world.files.readLine ⟨0, "/dev/null"⟩).2.toOption = some none &&
            ended.1.memory.fileAt? "g@0" = some (.reader, ⟨0, "/dev/null"⟩)) = true := by
      decide +kernel
    obtain ⟨program, hprogram, hchecked⟩ := (Option.any_eq_true _ _).mp hrun
    simp only [Bool.and_eq_true, decide_eq_true_eq] at hchecked
    obtain ⟨⟨hfile, hend⟩, hcopy⟩ := hchecked
    have htarget (memory : Memory) : memory.evaluate ⟨.name, "x"⟩ = .ok (memory.plain "x") :=
      Memory.evaluate_of_plain rfl (by decide +kernel)
    have hcloses : (program.drive 3 (program.load .blank)).1.Closes
        ⟨.read, some ⟨.name, "x"⟩, some ⟨.name, "f"⟩, "READ x FROM f"⟩ ⟨0, "/dev/null"⟩ :=
      .ended rfl (Memory.evaluate_of_fileAt? (.reader _) rfl hfile) (htarget _)
        (toOption_eq_some.mp hend)
    refine ⟨program, toOption_eq_some.mp hprogram, hreachable program 3, hcloses, ?_⟩
    obtain ⟨_, _, _, hlater⟩ := closed_file_stays_closed (hreachable program 3) hcloses .here
    have hreader := Memory.evaluate_of_fileAt? (.reader _) rfl hcopy
    obtain ⟨_, _, hread⟩ := hlater
      ⟨.read, some ⟨.name, "x"⟩, some ⟨.name, "g@0"⟩, "READ x FROM g@0"⟩
    obtain ⟨_, _, hclose⟩ := hlater ⟨.close, some ⟨.name, "g@0"⟩, none, "CLOSE g@0"⟩
    exact ⟨(hread _ _ hreader (htarget _)).1 rfl rfl, (hclose _ .null hreader rfl).2.2 rfl rfl⟩

end Machine

end LineScript

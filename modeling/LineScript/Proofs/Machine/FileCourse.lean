import LineScript.Proofs.Files.Gathering
import LineScript.Proofs.Program.ClosedFile

namespace LineScript

namespace Memory

variable {memory next : Memory} {target : Token}

-- A name under which a value can be stored.
structure Takes (memory : Memory) (target : Token) : Prop where
  kind : target.kind = .name
  found : ∃ value, memory.read target.text = .ok value
  noText : ¬memory.PassesText target.text

-- To store a value under the one name leaves what stands under the other.
def Apart (target file : String) : Prop :=
  ∀ memory value create next, Memory.write memory target value create = .ok next →
    next.read file = memory.read file

theorem Takes.evaluate (h : memory.Takes target) : ∃ value, memory.evaluate target = .ok value := by
  obtain ⟨value, hvalue⟩ := h.found
  exact ⟨value, by rw [evaluate_name h.kind, hvalue]⟩

theorem Takes.write (h : memory.Takes target) (value : Value) :
    ∃ next, memory.write target.text value true = .ok next := by
  obtain ⟨found, hfound⟩ := h.found
  rcases write_of_read value hfound (.inl rfl) with ⟨_, hok⟩ | ⟨hpasses, _⟩
  · exact hok
  · exact absurd hpasses h.noText

-- A variable can always be stored to.
theorem takes_of_plain (hkind : target.kind = .name)
    (h : (Name.ofText target.text).accessors = []) (memory : Memory) : memory.Takes target where
  kind := hkind
  found := ⟨_, read_of_plain h⟩
  noText := by
    rintro ⟨before, after, text, hname, _⟩
    rw [hname, Name.ofText_append] at h
    simp at h

-- Another variable than those that the name of the file is made of.
theorem apart_of_keys {target file : String}
    (hbase : key (Name.ofText file).base ≠ key (Name.ofText target).base)
    (haccessors : ∀ accessor ∈ (Name.ofText file).accessors,
      key accessor ≠ key (Name.ofText target).base) : Apart target file := by
  intro memory value create next h
  obtain ⟨path, stored, _, _, rfl⟩ := write_eq_ok h
  have hresolve : (memory.store (Name.ofText target).base stored).resolve (Name.ofText file).base
      (Name.ofText file).accessors =
        memory.resolve (Name.ofText file).base (Name.ofText file).accessors := by
    refine resolve_congr fun accessor haccessor => ?_
    rw [index, index, plain_store, if_neg (haccessors accessor haccessor)]
  rw [read, read, hresolve, plain_store, if_neg hbase]

-- The files in memory after a write are among those that were there and those that were written.
theorem handles_of_write {allowed : Handle → Prop} {text : String} {value : Value} {create : Bool}
    (h : memory.write text value create = .ok next)
    (hmemory : ∀ handle ∈ memory.handles, allowed handle) (hvalue : value.Within allowed) :
    ∀ handle ∈ next.handles, allowed handle := by
  obtain ⟨hcurrent, hparents⟩ := forall_mem_handles.mp hmemory
  obtain ⟨name, stored, rfl, hstored⟩ := write_effect h
  have hnew := hstored _ (Value.hereditary_within allowed) hcurrent hvalue
  exact forall_mem_handles.mpr ⟨hcurrent.insert _ hnew, hparents⟩

end Memory

namespace Machine

variable {m : Machine} {s : Statement} {file target : Token} {name : String}
  {handle writer : Handle} {path : Path} {bytes : List UInt8} {value : Value}

-- The states that statements lead through, one after the other.
def course (m : Machine) (statements : Nat → Statement) : Nat → Machine
  | 0 => m
  | k + 1 => ((m.course statements k).step (statements k)).1

-- An OPEN, for reading or for writing, that names a file and a variable for it.
structure Opens (m : Machine) (s : Statement) (operation : Operation) (file : Token)
    (name : String) : Prop where
  operation : s.operation = operation
  primary : s.primary = some file
  takes : m.memory.Takes file
  name : m.memory.evaluateOperand s.secondary = .ok (.string name)

-- A WRITE of a value.
structure Writes (m : Machine) (s : Statement) (file : Token) (value : Value) : Prop where
  operation : s.operation = .write
  primary : s.primary = some file
  value : m.memory.evaluateOperand s.secondary = .ok value

-- A READ with a target that has nothing to do with the variable of the file.
structure Reads (m : Machine) (s : Statement) (file target : Token) : Prop where
  operation : s.operation = .read
  primary : s.primary = some file
  secondary : s.secondary = some target
  takes : m.memory.Takes target
  apart : Memory.Apart target.text file.text

-- Nothing is given up as long as memory stays as it is.
theorem released_of_same {a b : Value} (ha : m.memory.evaluate (s.primary.getD .null) = .ok a)
    (hb : m.memory.evaluateOperand s.secondary = .ok b) :
    released m.memory (m.leaving a b) = [] := by
  refine List.eq_nil_iff_forall_not_mem.mpr fun handle hmem => ?_
  obtain ⟨hleaving, hdropped⟩ := mem_released.mp hmem
  exact hdropped ((mem_leaving ha hb).mp hleaving)

-- A handle that is given out now is none of those that memory drops.
theorem new_not_released {a b : Value} (hm : m.Reachable)
    (ha : m.memory.evaluate (s.primary.getD .null) = .ok a)
    (hb : m.memory.evaluateOperand s.secondary = .ok b) (next : Memory) :
    m.channelCount ∉ (released next (m.leaving a b)).map (·.id) := by
  intro hmem
  obtain ⟨other, hother, hid⟩ := List.mem_map.mp hmem
  have hlt := hm.handles_lt other ((mem_leaving ha hb).mp (mem_released.mp hother).1)
  omega

section Gathering

theorem creates_fileActions {a b : Value} (hs : s.operation ≠ .openWrite) :
    ∀ action ∈ m.fileActions s target a b, action.creates = false := by
  unfold fileActions
  split
  · rename_i hread
    split
    · unfold opening
      rw [hread]
      split_ifs <;> simp [openingOf, FileAction.creates]
    · simp
  · rename_i hwrite
    exact absurd hwrite hs
  · split <;> simp [FileAction.creates]
  · split
    · unfold reading
      split <;> simp [FileAction.creates]
    · simp
  · split
    · split_ifs <;> simp [FileAction.creates]
    · simp
  · simp

theorem creates_actions (hs : s.operation ≠ .openWrite) :
    ∀ action ∈ m.actions s, action.creates = false := by
  unfold actions
  split
  · refine List.forall_mem_append.mpr ⟨creates_fileActions hs, ?_⟩
    simp [FileAction.creates]
  · exact List.forall_mem_nil _

-- A statement adds to a file that has one writer what it writes through that handle.
theorem gathers_step (h : m.world.files.Gathers handle path bytes)
    (hs : s.operation ≠ .openWrite) :
    (m.step s).1.world.files.Gathers handle path (bytes ++ m.written s handle) := by
  rw [files_step, ← loggedAll_actions]
  exact h.actAll (creates_actions hs)

theorem written_of_other (hs : s.operation ≠ .write) : m.written s handle = [] := by
  unfold written
  split
  · rw [if_neg fun h => hs h.1]
  · rfl

theorem gathers_of_silent (h : m.world.files.Gathers handle path bytes)
    (hopen : s.operation ≠ .openWrite) (hwrite : s.operation ≠ .write) :
    (m.step s).1.world.files.Gathers handle path bytes := by
  have hnext := gathers_step h hopen
  rwa [written_of_other hwrite, List.append_nil] at hnext

theorem anchored_step (h : m.world.files.Anchored) (s : Statement) :
    (m.step s).1.world.files.Anchored := by
  rw [files_step]
  exact h.actAll _

theorem endures_step (m : Machine) (s : Statement) :
    m.world.files.disk.EnduresIn (m.step s).1.world.files.disk := by
  rw [files_step]
  exact m.world.files.endures_actAll _

theorem endures_course (m : Machine) (statements : Nat → Statement) (k : Nat) :
    m.world.files.disk.EnduresIn (m.course statements k).world.files.disk := by
  induction k with
  | zero => exact .refl _
  | succ k ih => exact ih.trans (endures_step _ _)

theorem Reachable.course (h : m.Reachable) (statements : Nat → Statement) (k : Nat) :
    (m.course statements k).Reachable := by
  induction k with
  | zero => exact h
  | succ k ih => exact ih.step _

theorem Onward.anchored {later : Machine} (h : m.Onward later) (hm : m.world.files.Anchored) :
    later.world.files.Anchored := by
  induction h with
  | here => exact hm
  | outside _ _ _ ih => exact ih
  | step s _ ih => exact anchored_step ih s

end Gathering

section Opening

variable {operation : Operation} {given : Files × Handle}

-- What a file that was just opened is stored as.
def openedAs (operation : Operation) (handle : Handle) : Value :=
  if operation = .openRead then .reader handle else .writer handle

-- A file that can be opened is stored, if the variable takes it.
theorem openFile_of_given {memory : Memory}
    (hread : operation = .openRead → m.world.files.openRead name = .ok given)
    (hwrite : operation ≠ .openRead → m.world.files.openWrite name = .ok given)
    (hstore : m.memory.write file.text (openedAs operation given.2) true = .ok memory) :
    ∃ next : Machine, m.openFile operation file (.string name) = next.done ∧ next.memory = memory ∧
      next.world.files = given.1 := by
  unfold openedAs at hstore
  unfold openFile
  simp only [borrowing_none]
  split_ifs at hstore ⊢ with hoperation
  · rw [hread hoperation]
    dsimp only [Except.map, store, withFiles, note]
    rw [hstore]
    exact ⟨_, rfl, rfl, rfl⟩
  · rw [hwrite hoperation]
    dsimp only [Except.map, store, withFiles, note]
    rw [hstore]
    exact ⟨_, rfl, rfl, rfl⟩

theorem Opens.step (h : m.Opens s operation file name)
    (hopens : operation = .openRead ∨ operation = .openWrite)
    (hread : operation = .openRead → m.world.files.openRead name = .ok given)
    (hwrite : operation ≠ .openRead → m.world.files.openWrite name = .ok given) :
    (m.step s).2 = .ok () ∧
      m.memory.write file.text (openedAs operation given.2) true = .ok (m.step s).1.memory ∧
      ∃ found, m.memory.evaluate (s.primary.getD .null) = .ok found ∧
        (m.step s).1.world.files = given.1.release
          (released (m.step s).1.memory (m.leaving found (.string name))) := by
  have hfile : s.primary.getD .null = file := by rw [h.primary, Option.getD_some]
  obtain ⟨found, hfound⟩ := h.takes.evaluate
  obtain ⟨memory, hmemory⟩ := h.takes.write (openedAs operation given.2)
  obtain ⟨next, hopened, hnext, hfiles⟩ := openFile_of_given hread hwrite hmemory
  have hperform : m.perform s (s.primary.getD .null) found (.string name) = next.done := by
    rw [perform_opening (by rwa [h.operation]), h.operation, hfile, hopened]
  rw [← hfile] at hfound
  obtain ⟨hok, hstored, hreleased⟩ := step_of_perform_done hfound h.name hperform
  rw [hstored, hreleased, hnext, hfiles]
  exact ⟨hok, hmemory, found, hfound, rfl⟩

end Opening

section Writing

-- In the middle of writing: the variable stands for the one handle through which the file is
-- written.
structure Writing (m : Machine) (file : Token) (handle : Handle) (path : Path)
    (bytes : List UInt8) : Prop where
  stands : m.memory.evaluate file = .ok (.writer handle)
  channel : ∃ buffer, m.world.files.channel handle = .writing path buffer
  gathers : m.world.files.Gathers handle path bytes

theorem Writes.congr {later : Machine} (h : m.Writes s file value)
    (hmemory : later.memory = m.memory) : later.Writes s file value :=
  ⟨h.operation, h.primary, by rw [hmemory, h.value]⟩

-- A WRITE of a value that does not hold the handle succeeds, and does nothing but that.
theorem Writing.executes (h : m.Writing file handle path bytes) (hwrites : m.Writes s file value)
    (hholds : value.holds handle = false) :
    (m.step s).2 = .ok () ∧ m.written s handle = Text.lineBytes (m.display value) ∧
      (m.step s).1.memory = m.memory ∧
      (m.step s).1.world.files = (m.world.files.writeLine handle (m.display value)).1 := by
  have hstands : m.memory.evaluate (s.primary.getD .null) = .ok (.writer handle) := by
    rw [hwrites.primary, Option.getD_some, h.stands]
  obtain ⟨buffer, hchannel⟩ := h.channel
  have hwritten := (Files.writeLine_of_takes hchannel h.gathers.takes (m.display value)).1
  have hperform : m.perform s (s.primary.getD .null) (.writer handle) value =
      (m.withFiles (m.world.files.writeLine handle (m.display value)).1).done := by
    rw [perform_write hwrites.operation, writeTo_writer, hholds]
    generalize m.world.files.writeLine handle (m.display value) = result at hwritten
    obtain ⟨files, outcome⟩ := result
    subst hwritten
    rfl
  obtain ⟨hok, hmemory, hfiles⟩ := step_of_perform_done hstands hwrites.value hperform
  refine ⟨hok, ?_, hmemory, ?_⟩
  · have hexecuted : (m.execute s).2.isOk = true := by
      rw [m.execute_of_operands s hstands hwrites.value, hperform]
      rfl
    rw [written, hstands, hwrites.value]
    exact if_pos ⟨hwrites.operation, rfl, hexecuted⟩
  · rw [hfiles]
    exact congrArg _ (released_of_same hstands hwrites.value)

-- It leaves memory and the other files as they are, and the file longer by a line.
theorem Writing.step (h : m.Writing file handle path bytes) (hwrites : m.Writes s file value)
    (hholds : value.holds handle = false) :
    (m.step s).1.Writing file handle path (bytes ++ Text.lineBytes (m.display value)) ∧
      (m.step s).1.memory = m.memory ∧ (m.step s).1.world.opened = m.world.opened := by
  obtain ⟨_, hsaid, hmemory, hfiles⟩ := h.executes hwrites hholds
  obtain ⟨buffer, hchannel⟩ := h.channel
  obtain ⟨_, hrest, _⟩ := Files.writeLine_of_takes hchannel h.gathers.takes (m.display value)
  have hgathers := gathers_step h.gathers (s := s) (by simp [hwrites.operation])
  rw [hsaid] at hgathers
  refine ⟨⟨by rw [hmemory, h.stands], by rwa [hfiles], hgathers⟩, hmemory, ?_⟩
  funext other
  rw [World.opened, World.opened, hfiles]
  exact Files.isOpen_writeLine hchannel h.gathers.takes (m.display value) other

-- A new file is opened for writing.
theorem Opens.step_new {disk : Disk} (h : m.Opens s .openWrite file name) (hm : m.Reachable)
    (hanchored : m.world.files.Anchored)
    (hfound : m.world.files.disk.findOrCreate name = .ok (disk, path))
    (hnew : m.world.files.disk.node? path = none) :
    (m.step s).2 = .ok () ∧ (m.step s).1.Writing file ⟨m.channelCount, name⟩ path [] ∧
      (m.step s).1.world.files.disk.find name = .ok path := by
  obtain ⟨hok, hmemory, found, hvalue, hfiles⟩ :=
    h.step (.inr rfl) (by simp) fun _ => Files.openWrite_of_found hfound
  have hkept := new_not_released hm hvalue h.name (m.step s).1.memory
  have hgathers := Files.Gathers.created hanchored hfound hnew
  refine ⟨hok, ⟨?_, ⟨#[], ?_⟩, ?_⟩, ?_⟩
  · rw [Memory.evaluate_name h.takes.kind, Memory.read_written hmemory]
    rfl
  · rw [hfiles, Files.channel_release, if_neg hkept, Files.channel_give]
    exact if_pos rfl
  · rw [hfiles]
    exact hgathers.release _
  · have hendures := Files.endures_release
      ({ m.world.files with disk := disk }.give name (.writing path #[])).1
      (released (m.step s).1.memory (m.leaving found (.string name)))
    rw [hfiles]
    exact Disk.find_of_enduresIn hendures (Disk.find_of_findOrCreate hfound)

-- The lines of the values, one behind the other, come to the file.
theorem Writing.course {values : List Value} {writes : Nat → Statement}
    (h : m.Writing file handle path [])
    (hwrites : ∀ k value, values[k]? = some value →
      m.Writes (writes k) file value ∧ value.holds handle = false) (k : Nat)
    (hk : k ≤ values.length) :
    (m.course writes k).Writing file handle path
        (((values.map m.display).take k).flatMap Text.lineBytes) ∧
      (m.course writes k).memory = m.memory ∧
      (m.course writes k).world.opened = m.world.opened := by
  induction k with
  | zero => exact ⟨h, rfl, rfl⟩
  | succ k ih =>
      obtain ⟨hwriting, hmemory, hopened⟩ := ih (by omega)
      have hvalue : values[k]? = some values[k] := List.getElem?_eq_getElem hk
      obtain ⟨hstatement, hholds⟩ := hwrites k _ hvalue
      obtain ⟨hnext, hkept, hsame⟩ := hwriting.step (hstatement.congr hmemory) hholds
      refine ⟨?_, hkept.trans hmemory, hsame.trans hopened⟩
      have hdisplay : (m.course writes k).display values[k] = m.display values[k] := by
        rw [display, display, hopened]
      have hlines : (values.map m.display).take (k + 1) =
          (values.map m.display).take k ++ [m.display values[k]] := by
        rw [List.take_add_one, List.getElem?_map, hvalue]
        rfl
      rw [hdisplay] at hnext
      rw [hlines, List.flatMap_append]
      simpa [Machine.course] using hnext

-- A CLOSE succeeds, and then the file holds all that was written.
theorem Writing.step_close (h : m.Writing file handle path bytes) (hm : m.Reachable)
    (hkind : file.kind = .name) (hs : s.operation = .close) (hprimary : s.primary = some file) :
    (m.step s).2 = .ok () ∧ (m.step s).1.world.files.Gathers handle path bytes ∧
      (m.step s).1.Shut handle := by
  have hfile : s.primary.getD .null = file := by rw [hprimary, Option.getD_some]
  have hstands : m.memory.evaluate (s.primary.getD .null) = .ok (.writer handle) := by
    rw [hfile, h.stands]
  have hoperand : m.memory.evaluateOperand s.secondary = .ok .null := by
    simp [Statement.secondary, hs, Memory.evaluateOperand]
  have hread : m.memory.read file.text = .ok (.writer handle) := by
    rw [← Memory.evaluate_name hkind, h.stands]
  obtain ⟨cleared, hcleared⟩ := Memory.exists_cleared hread rfl
  have hclosed : (m.world.files.close handle).2 = .ok () := by
    have hisOk := m.world.files.isOk_close handle
    rw [Files.refused_of_reliable h.gathers.reliable] at hisOk
    cases hclose : (m.world.files.close handle).2 with
    | ok _ => rfl
    | error e => simp [hclose, Except.isOk, Except.toBool] at hisOk
  have hperform : m.perform s (s.primary.getD .null) (.writer handle) .null =
      done { m.withFiles (m.world.files.close handle).1 with memory := cleared } := by
    rw [perform_close hs, hfile]
    simp only [closeFile, borrowing_none, Value.handle?]
    generalize m.world.files.close handle = result at hclosed
    obtain ⟨files, outcome⟩ := result
    subst hclosed
    simp only [store, withFiles, hcleared]
  obtain ⟨hok, _, _⟩ := step_of_perform_done hstands hoperand hperform
  refine ⟨hok, ?_, .of_closes hm (.close hs hstands rfl hoperand)⟩
  exact gathers_of_silent h.gathers (by simp [hs]) (by simp [hs])

end Writing

section Reading

-- In the middle of reading: the variable stands for a handle, of which there are no copies by
-- another name, with some lines before it. Nobody writes to the file any more.
structure Reading (m : Machine) (file : Token) (handle writer : Handle) (path : Path)
    (bytes : List UInt8) (lines : List String) : Prop where
  stands : m.memory.read file.text = .ok (.reader handle)
  kind : file.kind = .name
  lone : ∀ other ∈ m.memory.handles, other.id = handle.id → other = handle
  gathers : m.world.files.Gathers writer path bytes
  shut : m.Shut writer
  ahead : ∃ offset, m.world.files.channel handle = .reading path offset ∧
    bytes.drop offset = lines.flatMap Text.lineBytes

variable {line : String} {lines : List String}

-- The handle is not dropped, as the variable of the file still stands for it.
theorem Reading.not_released {next : Machine} {a b : Value}
    (h : m.Reading file handle writer path bytes lines)
    (ha : m.memory.evaluate (s.primary.getD .null) = .ok a)
    (hb : m.memory.evaluateOperand s.secondary = .ok b)
    (hstands : next.memory.read file.text = .ok (.reader handle)) :
    handle.id ∉ (released next.memory (m.leaving a b)).map (·.id) := by
  intro hmem
  obtain ⟨other, hother, hid⟩ := List.mem_map.mp hmem
  obtain ⟨hleaving, hdropped⟩ := mem_released.mp hother
  rw [h.lone other ((mem_leaving ha hb).mp hleaving) hid] at hdropped
  have hevaluate : next.memory.evaluate file = .ok (.reader handle) := by
    rw [Memory.evaluate_name h.kind, hstands]
  exact hdropped (Memory.mem_handles_of_evaluate hevaluate (List.mem_singleton_self _))

theorem Reading.content (h : m.Reading file handle writer path bytes lines) :
    (m.world.files.disk.content path).toList = bytes :=
  h.gathers.content_of_closed h.shut.closed

theorem Reads.perform_eq (h : m.Reads s file target) (a b : Value) :
    m.perform s (s.primary.getD .null) a b = m.readFrom file a target := by
  have hfile : s.primary.getD .null = file := by rw [h.primary, Option.getD_some]
  have htarget : s.secondary.getD .null = target := by rw [h.secondary, Option.getD_some]
  rw [perform_read h.operation, hfile, htarget]

-- Both operands of a READ can be evaluated.
theorem Reading.operands (h : m.Reading file handle writer path bytes lines)
    (hreads : m.Reads s file target) :
    m.memory.evaluate (s.primary.getD .null) = .ok (.reader handle) ∧
      ∃ found, m.memory.evaluateOperand s.secondary = .ok found ∧
        m.memory.read target.text = .ok found := by
  obtain ⟨found, hfound⟩ := hreads.takes.found
  rw [hreads.primary, hreads.secondary]
  refine ⟨(Memory.evaluate_name h.kind _).trans h.stands, found, ?_, hfound⟩
  exact (Memory.evaluate_name hreads.takes.kind _).trans hfound

-- A READ stores the next line.
theorem Reading.step (h : m.Reading file handle writer path bytes (line :: lines))
    (hline : Text.IsLine line) (hreads : m.Reads s file target) :
    (m.step s).2 = .ok () ∧
      (m.step s).1.memory.read target.text = .ok (.ofLine line) ∧
      (m.step s).1.Reading file handle writer path bytes lines := by
  obtain ⟨hstands, found, hoperand, _⟩ := h.operands hreads
  obtain ⟨offset, hchannel, hahead⟩ := h.ahead
  rw [← h.content, List.flatMap_cons] at hahead
  obtain ⟨stop, hread, hrest⟩ :=
    Files.readLine_of_line hchannel h.gathers.takes hline hahead
  obtain ⟨memory, hmemory⟩ := hreads.takes.write (.ofLine line)
  have hperform : m.perform s (s.primary.getD .null) (.reader handle) found =
      done { m.withFiles (m.world.files.setChannel handle (.reading path stop)) with
        memory := memory } := by
    rw [hreads.perform_eq]
    simp only [readFrom, borrowing_none, hread, store, withFiles, hmemory]
  obtain ⟨hok, hstored, hfiles⟩ := step_of_perform_done hstands hoperand hperform
  have hnext : (m.step s).1.memory = memory := hstored
  have hstill : (m.step s).1.memory.read file.text = .ok (.reader handle) := by
    rw [hnext, hreads.apart _ _ _ _ hmemory, h.stands]
  have hkept := h.not_released hstands hoperand hstill
  refine ⟨hok, by rw [hnext, Memory.read_written hmemory], hstill, h.kind, ?_, ?_,
    h.shut.step s, stop, ?_, ?_⟩
  · rw [hnext]
    exact Memory.handles_of_write hmemory h.lone ((Value.hereditary_within _).ofLine line)
  · exact gathers_of_silent h.gathers (by simp [hreads.operation]) (by simp [hreads.operation])
  · rw [hnext] at hkept
    have hopen : m.world.files.channel handle ≠ .closed := by simp [hchannel]
    have hgiven := m.world.files.id_lt_of_channel hopen
    rw [hfiles]
    change (Files.release (m.world.files.setChannel handle (.reading path stop))
      (released memory (m.leaving (.reader handle) found))).channel handle = _
    rw [Files.channel_release, if_neg hkept, Files.channel_setChannel, if_pos ⟨rfl, hgiven⟩]
  · rw [← h.content, hrest]

-- A file to which nobody writes is opened for reading.
theorem Opens.step_again (h : m.Opens s .openRead file name) (hm : m.Reachable)
    (hfind : m.world.files.disk.find name = .ok path)
    (hgathers : m.world.files.Gathers writer path (lines.flatMap Text.lineBytes))
    (hshut : m.Shut writer) :
    (m.step s).2 = .ok () ∧
      (m.step s).1.Reading file ⟨m.channelCount, name⟩ writer path
        (lines.flatMap Text.lineBytes) lines := by
  obtain ⟨hok, hmemory, found, hvalue, hfiles⟩ :=
    h.step (.inl rfl) (fun _ => Files.openRead_of_found hfind) (by simp)
  have hkept := new_not_released hm hvalue h.name (m.step s).1.memory
  refine ⟨hok, Memory.read_written hmemory, h.takes.kind, ?_, ?_, hshut.step s, 0, ?_, rfl⟩
  · refine Memory.handles_of_write hmemory ?_ ?_
    · intro other hmem hid
      have hlt := hm.handles_lt other hmem
      exact absurd hid (Nat.ne_of_lt hlt)
    · intro other hmem _
      exact List.mem_singleton.mp hmem
  · exact gathers_of_silent hgathers (by simp [h.operation]) (by simp [h.operation])
  · rw [hfiles, Files.channel_release, if_neg hkept, Files.channel_give]
    exact if_pos rfl

-- With no line left a READ closes the handle, and both variables become null.
theorem Reading.step_at_end (h : m.Reading file handle writer path bytes [])
    (hreads : m.Reads s file target) :
    (m.step s).2 = .ok () ∧ (m.step s).1.memory.read target.text = .ok .null ∧
      (m.step s).1.memory.read file.text = .ok .null ∧
      (m.step s).1.world.files.isOpen handle = false := by
  obtain ⟨hstands, found, hoperand, hfound⟩ := h.operands hreads
  obtain ⟨offset, hchannel, hahead⟩ := h.ahead
  rw [← h.content] at hahead
  have hend : (m.world.files.readLine handle).2 = .ok none := by
    rw [Files.readLine_at_end hchannel h.gathers.takes hahead]
  obtain ⟨cleared, hcleared, hnull, hdelivered⟩ := Memory.deliver_at_end h.stands hfound
  have hdone := (hdelivered.resolve_right fun htext => hreads.takes.noText htext.1).2
  obtain ⟨hown, houtcome⟩ := m.readFrom_of_end target hend file
  have hperform : m.perform s (s.primary.getD .null) (.reader handle) found =
      (m.readFrom file (.reader handle) target).1.done := by
    rw [hdone] at houtcome
    rw [hreads.perform_eq]
    exact Prod.ext rfl houtcome
  obtain ⟨hok, hstored, _⟩ := step_of_perform_done hstands hoperand hperform
  obtain ⟨next, hnext⟩ : ∃ next, cleared.write target.text .null true = .ok next := by
    rw [Memory.deliver, hcleared] at hdone
    cases hwrite : cleared.write target.text .null true with
    | ok next => exact ⟨next, rfl⟩
    | error e => simp [Memory.deliver, hwrite] at hdone
  have hmemory : (m.step s).1.memory = next := by
    have hmemory := congrArg Own.memory hown
    simp only [Memory.deliver, hcleared, hnext] at hmemory
    exact hstored.trans hmemory
  refine ⟨hok, ?_, ?_, ?_⟩
  · rw [hmemory, Memory.read_written hnext]
  · rw [hmemory, hreads.apart _ _ _ _ hnext, hnull]
  · exact (Closes.ended hreads.operation hstands hoperand hend).isOpen_step

section Course

variable {reads : Nat → Statement} {targets : Nat → Token}
  (h : m.Reading file handle writer path bytes lines)
  (hlines : ∀ line ∈ lines, Text.IsLine line)
  (hreads : ∀ k ≤ lines.length, (m.course reads k).Reads (reads k) file (targets k))

include h hlines hreads

-- After some READs so many lines less are left.
theorem Reading.course (k : Nat) (hk : k ≤ lines.length) :
    (m.course reads k).Reading file handle writer path bytes (lines.drop k) := by
  induction k with
  | zero => exact h
  | succ k ih =>
      have hreading := ih (by omega)
      rw [List.drop_eq_getElem_cons hk] at hreading
      exact (hreading.step (hlines _ (List.getElem_mem hk)) (hreads k (by omega))).2.2

theorem Reading.course_line {k : Nat} (hk : lines[k]? = some line) :
    ((m.course reads k).step (reads k)).2 = .ok () ∧
      (m.course reads (k + 1)).memory.read (targets k).text = .ok (.ofLine line) := by
  have hlt : k < lines.length := (List.getElem?_eq_some_iff.mp hk).1
  have hreading := h.course hlines hreads k (by omega)
  rw [List.drop_eq_getElem?_toList_append, hk] at hreading
  obtain ⟨hok, hstored, _⟩ :=
    hreading.step (hlines _ (List.mem_of_getElem? hk)) (hreads k (by omega))
  exact ⟨hok, hstored⟩

theorem Reading.course_end :
    ((m.course reads lines.length).step (reads lines.length)).2 = .ok () ∧
      (m.course reads (lines.length + 1)).memory.read (targets lines.length).text = .ok .null ∧
      (m.course reads (lines.length + 1)).memory.read file.text = .ok .null ∧
      (m.course reads lines.length).world.files.isOpen handle = true ∧
      (m.course reads (lines.length + 1)).world.files.isOpen handle = false := by
  have hreading := h.course hlines hreads lines.length (Nat.le_refl _)
  rw [List.drop_length] at hreading
  obtain ⟨offset, hchannel, _⟩ := hreading.ahead
  obtain ⟨hok, htarget, hfile, hclosed⟩ := hreading.step_at_end (hreads _ (Nat.le_refl _))
  exact ⟨hok, htarget, hfile, by rw [Files.isOpen, hchannel], hclosed⟩

end Course

end Reading

end Machine

end LineScript

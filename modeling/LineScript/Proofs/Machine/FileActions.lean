import LineScript.Proofs.Machine.Lending
import LineScript.Proofs.Machine.Twin

namespace LineScript

namespace Files

variable {files : Files} {handle : Handle}

-- Closing what is closed already, or was never given out, changes nothing.
theorem close_of_closed (h : files.channel handle = .closed) : (files.close handle).1 = files := by
  have hflush : (files.flush handle).1 = files := by
    unfold flush
    rw [h]
  obtain ⟨disk, channels⟩ := files
  unfold close
  dsimp only
  rw [hflush, setChannel]
  congr 1
  refine Array.ext_getElem? fun i => ?_
  rw [Array.getElem?_setIfInBounds]
  split_ifs with hid hlt
  · subst hid
    unfold Files.channel at h
    rw [Array.getD_eq_getD_getElem?] at h
    simpa [hlt] using h.symm
  · subst hid
    simp [hlt]
  · rfl

theorem channel_of_not_given (h : files.channels.size ≤ handle.id) :
    files.channel handle = .closed := by
  by_contra hopen
  have hlt := files.id_lt_of_channel hopen
  omega

theorem pending_of_not_given (h : files.channels.size ≤ handle.id) : files.pending handle = [] :=
  pending_of_closed (isOpen_eq_false_iff.mpr (channel_of_not_given h))

theorem channel_of_none_open (h : files.anyOpen = false) (handle : Handle) :
    files.channel handle = .closed := by
  unfold Files.channel
  rw [Array.getD_eq_getD_getElem?]
  cases hchannel : files.channels[handle.id]? with
  | none => rfl
  | some channel =>
      have hclosed := Array.any_eq_false'.mp h channel (Array.mem_of_getElem? hchannel)
      cases channel with
      | closed => rfl
      | _ => simp at hclosed

theorem release_of_none_open (h : files.anyOpen = false) (handles : List Handle) :
    files.release handles = files := by
  induction handles with
  | nil => rfl
  | cons handle rest ih => rw [release_cons, close_of_closed (channel_of_none_open h handle), ih]

end Files

def Operation.isOnFiles : Operation → Bool
  | .openRead | .openWrite | .close | .read | .write => true
  | _ => false

namespace Machine

-- The handles that are left without a copy, in the order in which they are closed.
def released (after : Memory) (leaving : List Handle) : List Handle :=
  lastCopies (after.dropped leaving)

theorem mem_lastCopies {handles : List Handle} {handle : Handle} :
    handle ∈ lastCopies handles ↔ handle ∈ handles := by
  simp [lastCopies]

theorem mem_released {after : Memory} {leaving : List Handle} {handle : Handle} :
    handle ∈ released after leaving ↔ handle ∈ leaving ∧ handle ∉ after.handles := by
  simp [released, mem_lastCopies, Memory.dropped]

theorem files_release (m : Machine) (leaving : List Handle) :
    (m.release leaving).world.files =
      m.world.files.actAll ((released m.memory leaving).map .close) := by
  rw [release_eq, Files.actAll_close]
  split
  · rfl
  · rename_i hopen
    exact (Files.release_of_none_open (by simpa using hopen) _).symm

def openingOf (operation : Operation) (name : String) : FileAction :=
  if operation = .openRead then .openRead name else .openWrite name

-- A file that cannot be stored is closed again.
def opening (m : Machine) (operation : Operation) (target : Token) (name : String) :
    List FileAction :=
  if (m.openFile operation target (.string name)).2.isOk then [openingOf operation name]
  else [openingOf operation name, .close ⟨m.channelCount, name⟩]

-- At its end the file is closed.
def reading (m : Machine) (handle : Handle) : List FileAction :=
  match (m.world.files.readLine handle).2 with
  | .ok none => [.readLine handle, .close handle]
  | _ => [.readLine handle]

-- What an operation does to files.
def fileActions (m : Machine) (s : Statement) (target : Token) (a b : Value) : List FileAction :=
  match s.operation with
  | .openRead | .openWrite =>
      match b with
      | .string name => m.opening s.operation target name
      | _ => []
  | .close =>
      match a.handle? with
      | some handle => [.close handle]
      | none => []
  | .read =>
      match a with
      | .reader handle => m.reading handle
      | _ => []
  | .write =>
      match a with
      | .writer handle => if b.holds handle then [] else [.writeLine handle (m.display b)]
      | _ => []
  | _ => []

-- The same for a statement, with the files of which it drops the last copies.
def actions (m : Machine) (s : Statement) : List FileAction :=
  match m.memory.evaluate (s.primary.getD .null), m.memory.evaluateOperand s.secondary with
  | .ok a, .ok b =>
      m.fileActions s (s.primary.getD .null) a b ++
        (released (m.execute s).1.memory (m.leaving a b)).map .close
  | _, _ => []

section Operations

variable (m : Machine) (target : Token)

-- What opening a file can do: nothing, give out a handle and store it, or take it back.
theorem openFile_cases (operation : Operation) (name : String) :
    (∃ e, m.openFile operation target (.string name) = m.fail e ∧
        m.world.files.act (openingOf operation name) = m.world.files) ∨
      (∃ (next : Machine) (value : Value),
        m.openFile operation target (.string name) = next.done ∧
        value.handle? = some ⟨m.channelCount, name⟩ ∧
        m.memory.write target.text value true = .ok next.memory ∧
        next.world.files = m.world.files.act (openingOf operation name)) ∨
      ∃ (next : Machine) (e : RuntimeError),
        m.openFile operation target (.string name) = next.fail e ∧
        next.world.files =
          ((m.world.files.act (openingOf operation name)).close ⟨m.channelCount, name⟩).1 := by
  unfold openFile
  dsimp only
  split
  · rename_i e hopened
    refine .inl ⟨e, rfl, ?_⟩
    unfold openingOf
    split_ifs at hopened ⊢
    · unfold Files.act
      dsimp only
      cases hgiven : m.world.files.openRead name with
      | error e => rfl
      | ok given => simp [hgiven, Except.map] at hopened
    · unfold Files.act
      dsimp only
      cases hgiven : m.world.files.openWrite name with
      | error e => rfl
      | ok given => simp [hgiven, Except.map] at hopened
  · rename_i files handle value hopened
    have hnew : handle = ⟨m.channelCount, name⟩ ∧ value.handle? = some handle ∧
        files = m.world.files.act (openingOf operation name) := by
      unfold openingOf
      split_ifs at hopened ⊢
      · obtain ⟨given, hgiven, hsame⟩ := map_eq_ok.mp hopened
        cases hsame
        unfold Files.act
        dsimp only
        rw [hgiven]
        exact ⟨(Files.openRead_eq_ok hgiven).1, rfl, rfl⟩
      · obtain ⟨given, hgiven, hsame⟩ := map_eq_ok.mp hopened
        cases hsame
        unfold Files.act
        dsimp only
        rw [hgiven]
        exact ⟨(Files.openWrite_eq_ok hgiven).1, rfl, rfl⟩
    obtain ⟨rfl, hvalue, rfl⟩ := hnew
    rw [borrowing_none]
    generalize hnoted : (m.withFiles _).note _ = noted
    have hmemory : noted.memory = m.memory := by
      rw [← hnoted]
      rfl
    have hfiles : noted.world.files = m.world.files.act (openingOf operation name) := by
      rw [← hnoted]
      rfl
    rw [store, hmemory]
    cases hwrite : m.memory.write target.text value true with
    | ok memory => exact .inr (.inl ⟨_, value, rfl, hvalue, hwrite, hfiles⟩)
    | error e => exact .inr (.inr ⟨_, e, rfl, rfl⟩)

theorem files_openFile (operation : Operation) (name : String) :
    (m.openFile operation target (.string name)).1.world.files =
      m.world.files.actAll (m.opening operation target name) := by
  unfold opening
  rcases m.openFile_cases target operation name with ⟨e, hopen, hact⟩ |
    ⟨next, value, hopen, _, _, hfiles⟩ | ⟨next, e, hopen, hfiles⟩
  · rw [hopen]
    change m.world.files = (m.world.files.act (openingOf operation name)).actAll [.close _]
    rw [hact]
    exact (Files.close_of_closed (Files.channel_of_not_given (Nat.le_refl _))).symm
  · rw [hopen]
    exact hfiles
  · rw [hopen]
    exact hfiles

theorem files_closeFile {file : Value} {handle : Handle} (h : file.handle? = some handle) :
    (m.closeFile target file).1.world.files = (m.world.files.close handle).1 := by
  unfold closeFile
  rw [h]
  simp only [borrowing_none]
  split
  · rename_i files hclose
    rw [world_store, hclose]
    rfl
  · rename_i files e hclose
    rw [hclose]
    rfl

theorem files_readFrom (fileToken : Token) (handle : Handle) :
    (m.readFrom fileToken (.reader handle) target).1.world.files =
      m.world.files.actAll (m.reading handle) := by
  unfold readFrom reading
  simp only [borrowing_none]
  split
  · rename_i files e hread
    rw [hread]
    exact (congrArg Prod.fst hread).symm
  · rename_i files line hread
    rw [world_store, hread]
    exact (congrArg Prod.fst hread).symm
  · rename_i files hread
    have hfiles : (m.world.files.readLine handle).1 = files := by rw [hread]
    have hclosed := world_store (m.withFiles (files.close handle).1) fileToken .null false
    rw [hread]
    dsimp only
    rw [Files.actAll_cons, Files.actAll_cons, Files.actAll_nil, Files.act, Files.act, hfiles]
    split
    · rename_i closed hstore
      rw [hstore] at hclosed
      rw [world_store, hclosed]
      rfl
    · rw [hclosed]
      rfl

theorem files_writeTo (handle : Handle) (value : Value) :
    (m.writeTo (.writer handle) value).1.world.files =
      if value.holds handle then m.world.files
      else (m.world.files.writeLine handle (m.display value)).1 := by
  rw [writeTo_writer]
  split_ifs
  · rfl
  · split
    · rename_i files hwrite
      rw [hwrite]
      rfl
    · rename_i files e hwrite
      rw [hwrite]
      rfl

theorem files_storeResult (create : Bool) (result : Except RuntimeError Value) :
    (m.storeResult target create result).1.world.files = m.world.files := by
  cases result with
  | ok value => exact congrArg World.files (m.world_store target value create)
  | error e => rfl

theorem files_test (a b outcome : Value) : (m.test a b outcome).1.world.files = m.world.files := by
  unfold test
  split
  · rfl
  · rw [world_store]

theorem files_random (bound : Value) :
    (m.random target bound).1.world.files = m.world.files := by
  have hdrawn (random : Random) (value : Value) :
      (store { m with world := { m.world with random := random } } target value
        true).1.world.files = m.world.files := by
    rw [world_store]
  unfold random
  dsimp only
  split
  · split
    · rfl
    · exact congrArg World.files (world_store m target _ true)
    · exact hdrawn _ _
  · exact hdrawn _ _
  · rfl

theorem files_say (text : String) : (m.say text).1.world.files = m.world.files := by
  unfold say
  split <;> rfl

theorem files_ask (prompt : Value) : (m.ask target prompt).1.world.files = m.world.files := by
  unfold ask
  split
  · rename_i text
    have hsay := m.files_say text
    split
    · rename_i hsaid
      rwa [hsaid] at hsay
    · rename_i asked hsaid
      rw [hsaid] at hsay
      split
      · exact hsay
      · split
        · exact hsay
        · rw [files_storeResult]
          exact hsay
  · rfl

theorem files_goto (a b : Value) : (m.goto a b).1.world.files = m.world.files := by
  unfold goto
  split
  · split
    · rfl
    · split_ifs <;> rfl
  · rfl

end Operations

section Statements

variable (m : Machine) (s : Statement) (target : Token) (a b : Value)

theorem fileActions_of_other (h : s.operation.isOnFiles = false) :
    m.fileActions s target a b = [] := by
  unfold fileActions
  split <;> rename_i hs <;> first | rfl | (rw [hs] at h; cases h)

-- What an operation does to files are its actions.
theorem files_perform :
    (m.perform s target a b).1.world.files =
      m.world.files.actAll (m.fileActions s target a b) := by
  by_cases hfiles : s.operation.isOnFiles = true
  · rw [perform_eq_act]
    unfold act fileActions
    cases hs : s.operation <;> simp only [hs, Operation.isOnFiles, Bool.false_eq_true] at hfiles
    case openRead | openWrite =>
      dsimp only [Operation.computed?, Operation.tested?]
      cases b with
      | string name => exact m.files_openFile target _ name
      | _ => rfl
    case close =>
      dsimp only [Operation.computed?, Operation.tested?]
      cases hhandle : a.handle? with
      | some handle => exact m.files_closeFile target hhandle
      | none =>
          unfold closeFile
          rw [hhandle]
          rfl
    case read =>
      cases a with
      | reader handle => exact m.files_readFrom _ target handle
      | _ => rfl
    case write =>
      cases a with
      | writer handle =>
          dsimp only [Operation.computed?, Operation.tested?]
          rw [files_writeTo]
          split_ifs <;> rfl
      | _ => rfl
  · rw [fileActions_of_other m s target a b (by simpa using hfiles)]
    rw [perform_eq_act]
    unfold act
    split
    · exact m.files_storeResult target _ _
    · split
      · exact m.files_test a b _
      · split
        case h_1 => exact m.files_random target b
        case h_2 hs | h_3 hs | h_4 hs | h_5 hs | h_6 hs =>
          simp [hs, Operation.isOnFiles] at hfiles
        case h_7 => exact m.files_ask target b
        case h_8 => exact m.files_say _
        case h_10 | h_11 => split <;> rfl
        case h_12 => exact m.files_goto a b
        all_goals rfl

theorem files_execute : (m.execute s).1.world.files = m.world.files.actAll (m.actions s) := by
  unfold actions
  cases ha : m.memory.evaluate (s.primary.getD .null) with
  | error e => rw [m.execute_of_primary_error s ha]; rfl
  | ok a =>
      cases hb : m.memory.evaluateOperand s.secondary with
      | error e => rw [m.execute_of_secondary_error s ha hb]; rfl
      | ok b =>
          dsimp only
          rw [m.execute_of_operands s ha hb, files_release, files_perform, Files.actAll_append,
            memory_release]

theorem files_step : (m.step s).1.world.files = m.world.files.actAll (m.actions s) := by
  rw [← files_execute]
  unfold step
  split
  · rename_i next hexecute
    rw [hexecute]
    rfl
  · rfl

end Statements

-- The line that a statement writes through a handle: it is a WRITE through some copy of the handle
-- and succeeds.
def written (m : Machine) (s : Statement) (handle : Handle) : List UInt8 :=
  match m.memory.evaluate (s.primary.getD .null), m.memory.evaluateOperand s.secondary with
  | .ok (.writer copy), .ok value =>
      if s.operation = .write ∧ copy.id = handle.id ∧ (m.execute s).2.isOk then
        (Text.encode (m.display value)).toList ++ [Text.newline]
      else []
  | _, _ => []

section Ledger

variable {m : Machine} {s : Statement} {handle : Handle}

theorem silent_fileActions {target : Token} {a b : Value}
    (h : s.operation = .write → ∀ copy, a = .writer copy → copy.id ≠ handle.id) :
    ∀ action ∈ m.fileActions s target a b, action.writesThrough handle = false := by
  unfold fileActions
  split
  · split
    · unfold opening openingOf
      split_ifs <;> simp [FileAction.writesThrough]
    · simp
  · split
    · unfold opening openingOf
      split_ifs <;> simp [FileAction.writesThrough]
    · simp
  · split <;> simp [FileAction.writesThrough]
  · split
    · unfold reading
      split <;> simp [FileAction.writesThrough]
    · simp
  · rename_i hs
    split
    · rename_i copy
      split_ifs
      · simp
      · simpa [FileAction.writesThrough] using h hs copy rfl
    · simp
  · simp

theorem silent_closes (handle : Handle) (handles : List Handle) :
    ∀ action ∈ handles.map FileAction.close, action.writesThrough handle = false := by
  simp [FileAction.writesThrough]

theorem isOk_writeTo (m : Machine) (copy : Handle) (value : Value) :
    (m.writeTo (.writer copy) value).2.isOk =
      (!value.holds copy && (m.world.files.writeLine copy (m.display value)).2.isOk) := by
  rw [writeTo_writer]
  split_ifs with hholds
  · simp [hholds, Except.isOk, Except.toBool]
  · split
    · rename_i hwrite
      simp [hwrite, hholds, done, Except.isOk, Except.toBool]
    · rename_i hwrite
      simp [hwrite, fail, Except.isOk, Except.toBool]

theorem loggedAll_writing {target : Token} {copy : Handle} {value : Value}
    (hs : s.operation = .write) :
    m.world.files.loggedAll handle (m.fileActions s target (.writer copy) value) =
      if copy.id = handle.id ∧ (m.writeTo (.writer copy) value).2.isOk then
        (Text.encode (m.display value)).toList ++ [Text.newline]
      else [] := by
  unfold fileActions
  rw [hs]
  dsimp only
  rw [isOk_writeTo]
  by_cases hholds : value.holds copy = true
  · simp [hholds, Files.loggedAll]
  · simp [hholds, Files.loggedAll, Files.logged]

-- The log of a statement is the line that it writes.
theorem loggedAll_actions (m : Machine) (s : Statement) (handle : Handle) :
    m.world.files.loggedAll handle (m.actions s) = m.written s handle := by
  unfold actions written
  cases ha : m.memory.evaluate (s.primary.getD .null) with
  | error e => rfl
  | ok a =>
      cases hb : m.memory.evaluateOperand s.secondary with
      | error e => cases a <;> rfl
      | ok b =>
          dsimp only
          rw [Files.loggedAll_append, Files.loggedAll_of_silent (silent_closes _ _),
            List.append_nil]
          by_cases hs : s.operation = .write
          · cases a with
            | writer copy =>
                rw [loggedAll_writing hs, m.execute_of_operands s ha hb, perform_write hs]
                simp [hs]
            | _ => exact Files.loggedAll_of_silent (silent_fileActions nofun)
          · rw [Files.loggedAll_of_silent (silent_fileActions fun h => absurd h hs)]
            cases a <;> simp [hs]

-- What a statement hands over through a handle and what is then held back are together what was
-- held back before and the line that it writes.
theorem ledger_step (hreachable : m.Reachable) (h : m.world.files.reliable handle = true)
    (s : Statement) :
    Piece.through handle.id (m.world.files.handedAll (m.actions s)) ++
        (m.step s).1.world.files.pending handle =
      m.world.files.pending handle ++ m.written s handle := by
  rw [files_step, ← loggedAll_actions]
  by_cases hgiven : handle.id < m.channelCount
  · exact Files.ledger_actAll hgiven h _
  · have hpending := Files.pending_of_not_given (Nat.le_of_not_lt hgiven)
    refine Files.ledger_of_silent hpending ?_
    unfold actions
    split
    · rename_i a b ha hb
      refine List.forall_mem_append.mpr ⟨silent_fileActions ?_, silent_closes _ _⟩
      rintro _ copy rfl hid
      have hlt := hreachable.handles_lt copy
        (Memory.mem_handles_of_evaluate ha (List.mem_singleton_self _))
      omega
    · exact List.forall_mem_nil _

end Ledger

end Machine

end LineScript

import LineScript.Proofs.Files.Handover
import LineScript.Proofs.Machine.Effect

namespace LineScript

-- What is done to files in one go.
inductive FileAction where
  | openRead (name : String)
  | openWrite (name : String)
  | readLine (handle : Handle)
  | writeLine (handle : Handle) (text : String)
  | close (handle : Handle)
deriving DecidableEq, Repr

def FileAction.writesThrough (handle : Handle) : FileAction → Bool
  | .writeLine target _ => target.id = handle.id
  | _ => false

def FileAction.opens : FileAction → Bool
  | .openRead _ | .openWrite _ => true
  | _ => false

namespace Files

def act (files : Files) : FileAction → Files
  | .openRead name =>
      match files.openRead name with
      | .ok given => given.1
      | .error _ => files
  | .openWrite name =>
      match files.openWrite name with
      | .ok given => given.1
      | .error _ => files
  | .readLine handle => (files.readLine handle).1
  | .writeLine handle text => (files.writeLine handle text).1
  | .close handle => (files.close handle).1

def actAll (files : Files) (actions : List FileAction) : Files := actions.foldl act files

def handed (files : Files) : FileAction → List Piece
  | .writeLine handle text => files.linePushedOut handle text
  | .close handle => files.flushed handle
  | _ => []

-- All that is handed over, in order.
def handedAll (files : Files) : List FileAction → List Piece
  | [] => []
  | action :: rest => files.handed action ++ (files.act action).handedAll rest

-- What an action writes through a handle, if it succeeds.
def logged (files : Files) (handle : Handle) : FileAction → List UInt8
  | .writeLine target text =>
      if target.id = handle.id ∧ (files.writeLine target text).2.isOk then
        (Text.encode text).toList ++ [Text.newline]
      else []
  | _ => []

-- Plain appending: the lines written through a handle, one behind the other.
def loggedAll (files : Files) (handle : Handle) : List FileAction → List UInt8
  | [] => []
  | action :: rest => files.logged handle action ++ (files.act action).loggedAll handle rest

-- A file that is written through the handle takes it.
def reliable (files : Files) (handle : Handle) : Bool :=
  match files.channel handle with
  | .writing path _ => files.disk.takes path
  | _ => true

@[simp]
theorem actAll_nil (files : Files) : files.actAll [] = files := rfl

@[simp]
theorem actAll_cons (files : Files) (action : FileAction) (rest : List FileAction) :
    files.actAll (action :: rest) = (files.act action).actAll rest := rfl

theorem actAll_append (files : Files) (first second : List FileAction) :
    files.actAll (first ++ second) = (files.actAll first).actAll second := by
  rw [actAll, actAll, actAll, List.foldl_append]

theorem handedAll_append (files : Files) (first second : List FileAction) :
    files.handedAll (first ++ second) =
      files.handedAll first ++ (files.actAll first).handedAll second := by
  induction first generalizing files with
  | nil => rfl
  | cons action rest ih =>
      rw [List.cons_append, handedAll, ih, handedAll, actAll_cons, List.append_assoc]

theorem loggedAll_append (files : Files) (handle : Handle) (first second : List FileAction) :
    files.loggedAll handle (first ++ second) =
      files.loggedAll handle first ++ (files.actAll first).loggedAll handle second := by
  induction first generalizing files with
  | nil => rfl
  | cons action rest ih =>
      rw [List.cons_append, loggedAll, ih, loggedAll, actAll_cons, List.append_assoc]

section Opening

variable {files opened : Files} {name : String} {handle : Handle}

theorem channel_give (files : Files) (name : String) (channel : Channel) (other : Handle) :
    (files.give name channel).1.channel other =
      if other.id = files.channels.size then channel else files.channel other := by
  unfold give Files.channel
  dsimp only
  rw [Array.getD_eq_getD_getElem?, Array.getD_eq_getD_getElem?, Array.getElem?_push]
  split_ifs <;> rfl

-- A new handle has the next number. It holds nothing back, and no other handle notices.
theorem openRead_eq_ok (h : files.openRead name = .ok (opened, handle)) :
    handle = ⟨files.channels.size, name⟩ ∧ opened.disk = files.disk ∧
      ∃ path, ∀ other : Handle, opened.channel other =
        if other.id = files.channels.size then .reading path 0 else files.channel other := by
  unfold openRead at h
  split at h
  · rename_i path _
    cases h
    exact ⟨rfl, rfl, path, files.channel_give name _⟩
  · cases h

theorem openWrite_eq_ok (h : files.openWrite name = .ok (opened, handle)) :
    handle = ⟨files.channels.size, name⟩ ∧ files.disk.Grown [] opened.disk ∧
      ∃ path, ∀ other : Handle, opened.channel other =
        if other.id = files.channels.size then .writing path #[] else files.channel other := by
  unfold openWrite at h
  split at h
  · rename_i disk path hfound
    cases h
    exact ⟨rfl, .findOrCreate hfound, path, channel_give { files with disk := disk } name _⟩
  · cases h

theorem pending_of_opened {channel : Channel}
    (hchannel : ∀ other : Handle, opened.channel other =
      if other.id = files.channels.size then channel else files.channel other)
    (hempty : ∀ path buffer, channel = .writing path buffer → buffer = #[]) (other : Handle) :
    opened.pending other = files.pending other := by
  by_cases hid : other.id = files.channels.size
  · have hclosed : files.channel other = .closed := by
      by_contra hopen
      have hlt := files.id_lt_of_channel hopen
      omega
    rw [pending, pending, hchannel, if_pos hid, hclosed]
    split
    · rename_i path buffer
      rw [hempty path buffer rfl]
    · rfl
  · exact pending_congr _ _ (by rw [hchannel, if_neg hid])

end Opening

-- Every action leaves a disk that has grown by what was handed over.
theorem grown_act (files : Files) (action : FileAction) :
    files.disk.Grown (files.handed action) (files.act action).disk := by
  cases action with
  | openRead name =>
      unfold act
      dsimp only
      split
      · rename_i given hopen
        rw [(openRead_eq_ok hopen).2.1]
        exact .refl _
      · exact .refl _
  | openWrite name =>
      unfold act
      dsimp only
      split
      · rename_i given hopen
        exact (openWrite_eq_ok hopen).2.1
      · exact .refl _
  | readLine handle => exact (files.served_readLine handle).grown
  | writeLine handle text => exact (files.served_writeLine handle text).grown
  | close handle => exact (files.served_close handle).grown

theorem grown_actAll (files : Files) (actions : List FileAction) :
    files.disk.Grown (files.handedAll actions) (files.actAll actions).disk := by
  induction actions generalizing files with
  | nil => exact .refl _
  | cons action rest ih => exact (files.grown_act action).trans (ih _)

section Writing

variable {files : Files} {handle : Handle} {path : Path} {buffer : Text.Bytes}
  (hchannel : files.channel handle = .writing path buffer) (htakes : files.disk.takes path = true)

include hchannel htakes

theorem flush_of_takes :
    (files.flush handle).2 = .ok () ∧
      (files.flush handle).1.channel handle = .writing path #[] ∧
      Piece.through handle.id (files.flushed handle) = buffer.toList := by
  rcases files.flush_cases handle with ⟨hflush, hflushed, hpending⟩ |
    ⟨path', buffer', disk, hchannel', _, _, hflush, hflushed⟩ |
    ⟨path', buffer', e, hchannel', _, hrefuses, _⟩
  · rw [pending_of_writing hchannel] at hpending
    rw [hflush, hflushed]
    refine ⟨rfl, ?_, hpending.symm⟩
    rw [hchannel, Array.toList_eq_nil_iff.mp hpending]
  · rw [hchannel] at hchannel'
    cases hchannel'
    have hlt := files.id_lt_of_channel (by rw [hchannel]; nofun)
    rw [hflush, hflushed]
    exact ⟨rfl, by rw [channel_setChannel, if_pos ⟨rfl, hlt⟩], Piece.through_singleton _⟩
  · rw [hchannel] at hchannel'
    cases hchannel'
    rw [htakes] at hrefuses
    cases hrefuses

-- Bytes may pass an empty buffer only: what is held back comes first.
theorem store_of_takes {bytes : Text.Bytes} (hempty : bufferSize ≤ bytes.size → buffer = #[]) :
    (files.store handle bytes).2 = .ok () ∧
      ∃ rest, (files.store handle bytes).1.channel handle = .writing path rest ∧
        Piece.through handle.id (files.passed handle bytes) ++ rest.toList =
          buffer.toList ++ bytes.toList := by
  rcases files.store_cases handle bytes hchannel with ⟨_, hpassed, hstore⟩ |
    ⟨disk, hlarge, _, hpassed, hstore⟩ | ⟨e, hrefuses, _⟩
  · have hlt := files.id_lt_of_channel (by rw [hchannel]; nofun)
    rw [hstore, hpassed]
    refine ⟨rfl, buffer ++ bytes, ?_, by simp⟩
    rw [channel_setChannel, if_pos ⟨rfl, hlt⟩]
  · rw [hstore, hpassed]
    refine ⟨rfl, buffer, hchannel, ?_⟩
    rw [hempty hlarge, Piece.through_singleton]
    simp
  · rw [htakes] at hrefuses
    cases hrefuses

theorem put_of_takes (bytes : Text.Bytes) :
    (files.put handle bytes).2 = .ok () ∧
      ∃ rest, (files.put handle bytes).1.channel handle = .writing path rest ∧
        Piece.through handle.id (files.pushedOut handle bytes) ++ rest.toList =
          buffer.toList ++ bytes.toList := by
  unfold put pushedOut
  split_ifs with hfits
  · refine store_of_takes hchannel htakes fun hlarge => ?_
    rw [spare, hchannel] at hfits
    have hsize : buffer.size = 0 := by
      simp only [bufferSize] at hfits hlarge
      omega
    exact Array.size_eq_zero_iff.mp hsize
  · obtain ⟨houtcome, hflushed, hthrough⟩ := flush_of_takes hchannel htakes
    have hgrown := (files.served_flush handle).grown
    generalize files.flush handle = result at houtcome hflushed hgrown ⊢
    obtain ⟨flushed, outcome⟩ := result
    dsimp only at houtcome
    subst houtcome
    have hempty : bufferSize ≤ bytes.size → (#[] : Text.Bytes) = #[] := fun _ => rfl
    obtain ⟨hok, rest, hrest, hbytes⟩ :=
      store_of_takes hflushed (hgrown.takes path htakes) hempty
    refine ⟨hok, rest, hrest, ?_⟩
    rw [Piece.through_append, hthrough, List.append_assoc, hbytes]
    rfl

-- A line that is written is split between the file and the buffer, and nothing of it is lost.
theorem writeLine_of_takes (text : String) :
    (files.writeLine handle text).2 = .ok () ∧
      (∃ rest, (files.writeLine handle text).1.channel handle = .writing path rest) ∧
      Piece.through handle.id (files.linePushedOut handle text) ++
          (files.writeLine handle text).1.pending handle =
        files.pending handle ++ ((Text.encode text).toList ++ [Text.newline]) := by
  obtain ⟨houtcome, rest, hrest, hbytes⟩ := put_of_takes hchannel htakes (Text.encode text)
  have hgrown := (files.served_put handle (Text.encode text)).grown
  rw [pending_of_writing hchannel]
  unfold writeLine linePushedOut
  rw [hchannel]
  dsimp only
  generalize files.put handle (Text.encode text) = result at houtcome hrest hgrown ⊢
  obtain ⟨written, outcome⟩ := result
  dsimp only at houtcome
  subst houtcome
  obtain ⟨hok, last, hlast, hnewline⟩ :=
    put_of_takes hrest (hgrown.takes path htakes) #[Text.newline]
  dsimp only
  rw [hok]
  refine ⟨rfl, ⟨last, hlast⟩, ?_⟩
  rw [pending_of_writing hlast, Piece.through_append, List.append_assoc, hnewline,
    ← List.append_assoc, hbytes, List.append_assoc]

theorem isOpen_writeLine (text : String) (other : Handle) :
    (files.writeLine handle text).1.isOpen other = files.isOpen other := by
  obtain ⟨_, ⟨rest, hrest⟩, _⟩ := writeLine_of_takes hchannel htakes text
  unfold isOpen
  by_cases hid : other.id = handle.id
  · rw [channel_congr _ hid, channel_congr _ hid, hrest, hchannel]
  · rw [(files.served_writeLine handle text).others other hid]

end Writing

section Ledger

variable {files : Files} {handle : Handle} {action : FileAction} {actions : List FileAction}

theorem takes_of_reliable {path : Path} {buffer : Text.Bytes} (h : files.reliable handle = true)
    (hchannel : files.channel handle = .writing path buffer) : files.disk.takes path = true := by
  rwa [reliable, hchannel] at h

theorem refused_of_reliable (h : files.reliable handle = true) : files.refused handle = false := by
  unfold refused
  split
  · rename_i path buffer hchannel
    rw [takes_of_reliable h hchannel, Bool.not_true, Bool.and_false]
  · rfl

theorem refused_of_pending (h : files.pending handle = []) : files.refused handle = false := by
  unfold pending at h
  unfold refused
  split
  · rename_i path buffer hchannel
    rw [hchannel] at h
    simp [Array.toList_eq_nil_iff.mp h]
  · rfl

theorem ledger_writeLine (h : files.reliable handle = true) (text : String) :
    Piece.through handle.id (files.linePushedOut handle text) ++
        (files.writeLine handle text).1.pending handle =
      files.pending handle ++
        if (files.writeLine handle text).2.isOk then (Text.encode text).toList ++ [Text.newline]
        else [] := by
  cases hchannel : files.channel handle with
  | writing path buffer =>
      obtain ⟨hok, _, hbytes⟩ := writeLine_of_takes hchannel (takes_of_reliable h hchannel) text
      rw [hbytes, hok]
      rfl
  | _ =>
      have hwrite : files.writeLine handle text = (files, .error (.fileClosed handle.name)) := by
        rw [writeLine, hchannel]
      rw [hwrite, linePushedOut, hchannel]
      simp [Except.isOk, Except.toBool]

theorem ledger_close (h : files.refused handle = false) :
    Piece.through handle.id (files.flushed handle) = files.pending handle := by
  unfold refused at h
  unfold flushed pending
  split
  · rename_i path buffer hchannel
    rw [hchannel] at h
    by_cases hempty : buffer = #[]
    · simp [hempty]
    · have htakes : files.disk.takes path = true := by simpa [hempty] using h
      simp [hempty, htakes, Piece.through_singleton]
  · rfl

-- What an action hands over and what is then held back are together what was held back before and
-- the line that the action writes, as long as the file does not refuse it.
theorem ledger_act (action : FileAction)
    (hwrite : action.writesThrough handle = true → files.reliable handle = true)
    (hclose : files.refused handle = false) :
    Piece.through handle.id (files.handed action) ++ (files.act action).pending handle =
      files.pending handle ++ files.logged handle action := by
  cases action with
  | openRead name =>
      simp only [handed, logged, Piece.through_nil, List.nil_append, List.append_nil]
      unfold act
      dsimp only
      split
      · rename_i given hopen
        obtain ⟨_, _, path, hchannel⟩ := openRead_eq_ok hopen
        exact pending_of_opened hchannel nofun handle
      · rfl
  | openWrite name =>
      simp only [handed, logged, Piece.through_nil, List.nil_append, List.append_nil]
      unfold act
      dsimp only
      split
      · rename_i given hopen
        obtain ⟨_, _, path, hchannel⟩ := openWrite_eq_ok hopen
        refine pending_of_opened hchannel ?_ handle
        rintro _ _ ⟨⟩
        rfl
      · rfl
  | readLine target =>
      simp only [handed, logged, Piece.through_nil, List.nil_append, List.append_nil, act]
      exact pending_readLine files target handle
  | writeLine target text =>
      simp only [handed, logged, act]
      by_cases hid : target.id = handle.id
      · have hreliable : files.reliable target = true := by
          rw [reliable, files.channel_congr hid]
          exact hwrite (by simpa [FileAction.writesThrough] using hid)
        rw [pending_of_id _ hid.symm, pending_of_id _ hid.symm, ← hid]
        simpa using ledger_writeLine hreliable text
      · have hserved := files.served_writeLine target text
        rw [hserved.pending_of_other (Ne.symm hid), hserved.through_of_other (Ne.symm hid),
          if_neg fun h => hid h.1, List.nil_append, List.append_nil]
  | close target =>
      simp only [handed, logged, act, List.append_nil]
      by_cases hid : target.id = handle.id
      · have hclosed : (files.close target).1.isOpen target = false := by
          rw [isOpen_eq_false_iff, channel_close, if_pos rfl]
        rw [refused, ← files.channel_congr hid] at hclose
        rw [pending_of_id _ hid.symm, pending_of_id _ hid.symm, ← hid,
          pending_of_closed hclosed, List.append_nil]
        exact ledger_close hclose
      · have hserved := files.served_close target
        rw [hserved.pending_of_other (Ne.symm hid), hserved.through_of_other (Ne.symm hid),
          List.nil_append]

theorem size_act (files : Files) (action : FileAction) :
    files.channels.size ≤ (files.act action).channels.size := by
  cases action with
  | openRead name =>
      unfold act
      dsimp only
      split
      · rename_i given hopen
        have hsize := (openRead_effect hopen).2
        omega
      · exact Nat.le_refl _
  | openWrite name =>
      unfold act
      dsimp only
      split
      · rename_i given hopen
        have hsize := (openWrite_effect hopen).2
        omega
      · exact Nat.le_refl _
  | readLine target => exact Nat.le_of_eq (files.size_readLine target).symm
  | writeLine target text => exact Nat.le_of_eq (files.size_writeLine target text).symm
  | close target => exact Nat.le_of_eq (files.size_close target).symm

-- A handle that is not given out just now never comes to stand for another file.
theorem becomes_act (action : FileAction)
    (h : action.opens = true → handle.id ≠ files.channels.size) :
    (files.channel handle).Becomes ((files.act action).channel handle) := by
  have hserved {target : Handle} {pieces : List Piece} {after : Files}
      (hserved : files.Served target pieces after) :
      (files.channel handle).Becomes (after.channel handle) := by
    by_cases hid : handle.id = target.id
    · rw [files.channel_congr hid, after.channel_congr hid]
      exact hserved.same
    · rw [hserved.others handle hid]
      exact .refl _
  cases action with
  | openRead name =>
      unfold act
      dsimp only
      split
      · rename_i given hopen
        obtain ⟨_, _, _, hchannel⟩ := openRead_eq_ok hopen
        rw [hchannel, if_neg (h rfl)]
        exact .refl _
      · exact .refl _
  | openWrite name =>
      unfold act
      dsimp only
      split
      · rename_i given hopen
        obtain ⟨_, _, _, hchannel⟩ := openWrite_eq_ok hopen
        rw [hchannel, if_neg (h rfl)]
        exact .refl _
      · exact .refl _
  | readLine target => exact hserved (files.served_readLine target)
  | writeLine target text => exact hserved (files.served_writeLine target text)
  | close target => exact hserved (files.served_close target)

theorem reliable_act (hgiven : handle.id < files.channels.size)
    (h : files.reliable handle = true) (action : FileAction) :
    (files.act action).reliable handle = true := by
  have hbecomes := becomes_act action fun _ => Nat.ne_of_lt hgiven
  have htakes := (files.grown_act action).takes
  unfold reliable at h ⊢
  generalize files.channel handle = before at hbecomes h
  generalize (files.act action).channel handle = after at hbecomes
  cases hbecomes with
  | closed | reading => rfl
  | writing path held buffer => exact htakes path h

-- So it is for a whole course of actions, if the handle was given out before and its file takes
-- what is written.
theorem ledger_actAll (hgiven : handle.id < files.channels.size)
    (h : files.reliable handle = true) (actions : List FileAction) :
    Piece.through handle.id (files.handedAll actions) ++ (files.actAll actions).pending handle =
      files.pending handle ++ files.loggedAll handle actions := by
  induction actions generalizing files with
  | nil => simp [handedAll, loggedAll]
  | cons action rest ih =>
      have hnow := ledger_act action (fun _ => h) (refused_of_reliable h)
      have hlater := ih (Nat.lt_of_lt_of_le hgiven (files.size_act action))
        (reliable_act hgiven h action)
      rw [handedAll, loggedAll, Piece.through_append, actAll_cons, List.append_assoc, hlater,
        ← List.append_assoc, hnow, List.append_assoc]

theorem logged_of_silent (h : action.writesThrough handle = false) :
    files.logged handle action = [] := by
  cases action with
  | writeLine target text =>
      have hid : target.id ≠ handle.id := by simpa [FileAction.writesThrough] using h
      rw [logged, if_neg fun hsame => hid hsame.1]
  | _ => rfl

theorem loggedAll_of_silent (h : ∀ action ∈ actions, action.writesThrough handle = false) :
    files.loggedAll handle actions = [] := by
  induction actions generalizing files with
  | nil => rfl
  | cons action rest ih =>
      obtain ⟨haction, hrest⟩ := List.forall_mem_cons.mp h
      rw [loggedAll, logged_of_silent haction, ih hrest, List.append_nil]

-- A handle that holds nothing back, and through which nothing is written, hands nothing over.
theorem ledger_of_silent (hpending : files.pending handle = [])
    (hsilent : ∀ action ∈ actions, action.writesThrough handle = false) :
    Piece.through handle.id (files.handedAll actions) ++ (files.actAll actions).pending handle =
      files.pending handle ++ files.loggedAll handle actions := by
  induction actions generalizing files with
  | nil => simp [handedAll, loggedAll]
  | cons action rest ih =>
      obtain ⟨haction, hrest⟩ := List.forall_mem_cons.mp hsilent
      have hnow := ledger_act action (by simp [haction]) (refused_of_pending hpending)
      have hnothing : files.logged handle action = [] := logged_of_silent haction
      rw [hpending, hnothing, List.append_nil] at hnow
      obtain ⟨hhanded, hafter⟩ := List.append_eq_nil_iff.mp hnow
      rw [handedAll, loggedAll, Piece.through_append, hhanded, hnothing, actAll_cons, hpending,
        List.nil_append, List.nil_append, ih hafter hrest, hafter]

end Ledger

end Files

end LineScript

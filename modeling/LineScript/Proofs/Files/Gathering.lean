import LineScript.Proofs.Disk.Find
import LineScript.Proofs.Files.Sweep
import LineScript.Proofs.Text.LineBytes

namespace LineScript

-- Whether an action may give a file one more handle to be written through.
def FileAction.creates : FileAction → Bool
  | .openWrite _ => true
  | _ => false

namespace Files

variable {files : Files} {handle : Handle} {path : Path} {bytes : List UInt8}
  {action : FileAction} {actions : List FileAction}

-- Every file that is written through some handle is there.
def Anchored (files : Files) : Prop :=
  ∀ handle path buffer, files.channel handle = .writing path buffer →
    (files.disk.node? path).isSome = true

-- At most one handle writes to the file. What the file holds and what the handle holds back are,
-- one behind the other, these bytes.
structure Gathers (files : Files) (handle : Handle) (path : Path) (bytes : List UInt8) : Prop where
  takes : files.disk.takes path = true
  keeps : files.disk.keeps path = true
  sole : ∀ other buffer, files.channel other = .writing path buffer → other.id = handle.id
  own : ∀ target buffer, files.channel handle = .writing target buffer → target = path
  total : (files.disk.content path).toList ++ files.pending handle = bytes

theorem openWrite_of_found {name : String} {disk : Disk}
    (h : files.disk.findOrCreate name = .ok (disk, path)) :
    files.openWrite name = .ok ({ files with disk := disk }.give name (.writing path #[])) := by
  rw [openWrite, h]

theorem openRead_of_found {name : String} (h : files.disk.find name = .ok path) :
    files.openRead name = .ok (files.give name (.reading path 0)) := by
  rw [openRead, h]

theorem act_openWrite (files : Files) (name : String) :
    files.act (.openWrite name) =
      match files.disk.findOrCreate name with
      | .ok (disk, path) => ({ files with disk := disk }.give name (.writing path #[])).1
      | .error _ => files := by
  cases hfound : files.disk.findOrCreate name with
  | ok found => simp [act, openWrite, hfound]
  | error e => simp [act, openWrite, hfound]

theorem act_openRead (files : Files) (name : String) :
    files.act (.openRead name) =
      match files.disk.find name with
      | .ok path => (files.give name (.reading path 0)).1
      | .error _ => files := by
  cases hfound : files.disk.find name with
  | ok found => simp [act, openRead, hfound]
  | error e => simp [act, openRead, hfound]

section Enduring

-- No action takes anything away from the disk.
theorem endures_act (files : Files) (action : FileAction) :
    files.disk.EnduresIn (files.act action).disk := by
  cases action with
  | openRead name =>
      rw [act_openRead]
      split <;> exact .refl _
  | openWrite name =>
      rw [act_openWrite]
      split
      · rename_i hfound
        exact .findOrCreate hfound
      · exact .refl _
  | readLine target => exact (files.served_readLine target).endures
  | writeLine target text => exact (files.served_writeLine target text).endures
  | close target => exact (files.served_close target).endures

theorem endures_actAll (files : Files) (actions : List FileAction) :
    files.disk.EnduresIn (files.actAll actions).disk := by
  induction actions generalizing files with
  | nil => exact .refl _
  | cons action rest ih => exact (files.endures_act action).trans (ih _)

theorem endures_release (files : Files) (handles : List Handle) :
    files.disk.EnduresIn (files.release handles).disk := by
  rw [← actAll_close]
  exact files.endures_actAll _

-- A handle that writes after an action is one that wrote to the same file before, or has just been
-- given out.
theorem writing_of_act {buffer : Text.Bytes}
    (h : (files.act action).channel handle = .writing path buffer) :
    (∃ held, files.channel handle = .writing path held) ∨
      ∃ name disk, action = .openWrite name ∧ handle.id = files.channels.size ∧
        files.disk.findOrCreate name = .ok (disk, path) ∧ (files.act action).disk = disk := by
  by_cases hnew : action.opens = true ∧ handle.id = files.channels.size
  · obtain ⟨hopens, hid⟩ := hnew
    cases action with
    | openRead name =>
        rw [act_openRead] at h
        split at h
        · rw [channel_give, if_pos hid] at h
          cases h
        · exact .inl ⟨buffer, h⟩
    | openWrite name =>
        rw [act_openWrite] at h ⊢
        split at h
        · rename_i disk target hfound
          rw [channel_give, if_pos hid] at h
          cases h
          exact .inr ⟨name, disk, rfl, hid, hfound, rfl⟩
        · exact .inl ⟨buffer, h⟩
    | _ => cases hopens
  · have hbecomes := becomes_act action fun hopens hid => hnew ⟨hopens, hid⟩
    rw [h] at hbecomes
    exact .inl hbecomes.exists_writing

theorem Anchored.act (h : files.Anchored) (action : FileAction) : (files.act action).Anchored := by
  intro handle path buffer hchannel
  rcases writing_of_act hchannel with ⟨held, hbefore⟩ | ⟨name, disk, _, _, hfound, hdisk⟩
  · exact (files.endures_act action).present path (h handle path held hbefore)
  · rw [hdisk]
    exact Disk.present_of_findOrCreate hfound

theorem Anchored.actAll (h : files.Anchored) (actions : List FileAction) :
    (files.actAll actions).Anchored := by
  induction actions generalizing files with
  | nil => exact h
  | cons action rest ih => exact ih (h.act action)

theorem anchored_of_none (h : files.channels = #[]) : files.Anchored := by
  intro handle path buffer hchannel
  simp [Files.channel, h] at hchannel

end Enduring

-- What is handed over to a file comes through a handle that writes to it.
theorem origin_handed {piece : Piece} (h : piece ∈ files.handed action) :
    ∃ target : Handle, target.id = piece.id ∧
      ∃ buffer, files.channel target = .writing piece.path buffer := by
  cases action with
  | writeLine target text =>
      have hserved := files.served_writeLine target text
      exact ⟨target, (hserved.own piece h).symm, hserved.origin piece h⟩
  | close target =>
      have hserved := files.served_close target
      exact ⟨target, (hserved.own piece h).symm, hserved.origin piece h⟩
  | _ => cases h

namespace Gathers

theorem reliable (h : files.Gathers handle path bytes) : files.reliable handle = true := by
  unfold Files.reliable
  split
  · rename_i target buffer hchannel
    rw [h.own target buffer hchannel]
    exact h.takes
  · rfl

-- All that comes to the file comes through the handle, and all that comes through the handle comes
-- to the file.
theorem arrivals (h : files.Gathers handle path bytes) (action : FileAction) :
    Piece.arrivals path (files.handed action) = Piece.through handle.id (files.handed action) := by
  have hsame : (files.handed action).filter (·.path = path) =
      (files.handed action).filter (·.id = handle.id) := by
    refine List.filter_congr fun piece hpiece => ?_
    obtain ⟨target, hid, buffer, hchannel⟩ := origin_handed hpiece
    rw [decide_eq_decide]
    constructor
    · intro hpath
      rw [hpath] at hchannel
      rw [← hid]
      exact h.sole target buffer hchannel
    · intro hown
      rw [files.channel_congr (hid.trans hown)] at hchannel
      exact h.own piece.path buffer hchannel
  rw [Piece.arrivals, Piece.through, hsame]

-- An action adds to the bytes the line that it writes through the handle.
theorem act (h : files.Gathers handle path bytes) (hcreates : action.creates = false) :
    (files.act action).Gathers handle path (bytes ++ files.logged handle action) := by
  have hgrown := files.grown_act action
  have hwriting {other : Handle} {target : Path} {buffer : Text.Bytes}
      (hchannel : (files.act action).channel other = .writing target buffer) :
      ∃ held, files.channel other = .writing target held := by
    refine (writing_of_act hchannel).resolve_right ?_
    rintro ⟨name, disk, rfl, _⟩
    cases hcreates
  refine ⟨hgrown.takes path h.takes, (hgrown.keeps path).trans h.keeps, ?_, ?_, ?_⟩
  · intro other buffer hchannel
    obtain ⟨held, hbefore⟩ := hwriting hchannel
    exact h.sole other held hbefore
  · intro target buffer hchannel
    obtain ⟨held, hbefore⟩ := hwriting hchannel
    exact h.own target held hbefore
  · have hledger := ledger_act action (fun _ => h.reliable) (refused_of_reliable h.reliable)
    rw [hgrown.content path h.keeps, h.arrivals, List.append_assoc, hledger, ← List.append_assoc,
      h.total]

theorem actAll (h : files.Gathers handle path bytes)
    (hcreates : ∀ action ∈ actions, action.creates = false) :
    (files.actAll actions).Gathers handle path (bytes ++ files.loggedAll handle actions) := by
  induction actions generalizing files bytes with
  | nil => simpa [loggedAll] using h
  | cons action rest ih =>
      obtain ⟨haction, hrest⟩ := List.forall_mem_cons.mp hcreates
      rw [actAll_cons, loggedAll, ← List.append_assoc]
      exact ih (h.act haction) hrest

-- Handles that are let go write no lines.
theorem release (h : files.Gathers handle path bytes) (handles : List Handle) :
    (files.release handles).Gathers handle path bytes := by
  have hcreates : ∀ action ∈ handles.map FileAction.close, action.creates = false := by
    simp [FileAction.creates]
  have hclosed := h.actAll hcreates
  have hsilent : files.loggedAll handle (handles.map .close) = [] :=
    loggedAll_of_silent (by simp [FileAction.writesThrough])
  rwa [hsilent, List.append_nil, actAll_close] at hclosed

theorem content_of_closed (h : files.Gathers handle path bytes)
    (hclosed : files.isOpen handle = false) : (files.disk.content path).toList = bytes := by
  rw [← h.total, pending_of_closed hclosed, List.append_nil]

-- A new file is empty, and nobody else writes to it.
theorem created {name : String} {disk : Disk} (hanchored : files.Anchored)
    (hfound : files.disk.findOrCreate name = .ok (disk, path))
    (hnew : files.disk.node? path = none) :
    ({ files with disk := disk }.give name (.writing path #[])).1.Gathers
      ⟨files.channels.size, name⟩ path [] := by
  have hnode : disk.node? path = some (.file #[]) := by
    rcases Disk.findOrCreate_eq_ok hfound with rfl | ⟨hpath, _, rfl⟩
    · have hpresent := Disk.present_of_findOrCreate hfound
      rw [hnew] at hpresent
      cases hpresent
    · rw [Disk.node?_insert hpath, if_pos rfl]
  have hchannel := channel_give { files with disk := disk } name (.writing path #[])
  refine ⟨by simp [give, Disk.takes, hnode], by simp [give, Disk.keeps, hnode], ?_, ?_, ?_⟩
  · intro other buffer hother
    by_contra hid
    rw [hchannel, if_neg hid] at hother
    have hpresent := hanchored other path buffer hother
    rw [hnew] at hpresent
    cases hpresent
  · intro target buffer hown
    rw [hchannel, if_pos rfl] at hown
    cases hown
    rfl
  · have hpending : ({ files with disk := disk }.give name (.writing path #[])).1.pending
        ⟨files.channels.size, name⟩ = [] := by
      rw [pending, hchannel, if_pos rfl]
    rw [hpending]
    simp [give, Disk.content, hnode]

end Gathers

theorem channel_release (files : Files) (handles : List Handle) (other : Handle) :
    (files.release handles).channel other =
      if other.id ∈ handles.map (·.id) then .closed else files.channel other := by
  induction handles generalizing files with
  | nil => simp
  | cons handle rest ih =>
      rw [release_cons, ih, channel_close]
      by_cases hid : other.id = handle.id
      · simp [hid]
      · simp [hid]

section Reading

variable {offset : Nat} (hchannel : files.channel handle = .reading path offset)
  (htakes : files.disk.takes path = true)

include hchannel htakes

theorem readLine_of_line {text : String} {rest : List UInt8} (htext : Text.IsLine text)
    (hahead : (files.disk.content path).toList.drop offset = Text.lineBytes text ++ rest) :
    ∃ stop, files.readLine handle =
        (files.setChannel handle (.reading path stop), .ok (some text)) ∧
      (files.disk.content path).toList.drop stop = rest := by
  have hnode : ¬files.disk.node? path = some .directory := by
    intro hnode
    simp [Disk.takes, hnode] at htakes
  obtain ⟨hlt, hdecode, hrest⟩ := Text.lineEnd_of_line htext hahead
  refine ⟨Text.lineEnd (files.disk.content path) offset, ?_, hrest⟩
  rw [readLine, hchannel]
  dsimp only
  rw [if_neg hnode, if_neg (Nat.not_le.mpr hlt), hdecode]
  dsimp only
  rw [Text.trimLineEnd_of_line htext]

theorem readLine_at_end (hahead : (files.disk.content path).toList.drop offset = []) :
    files.readLine handle = (files, .ok none) := by
  have hnode : ¬files.disk.node? path = some .directory := by
    intro hnode
    simp [Disk.takes, hnode] at htakes
  have hsize : (files.disk.content path).size ≤ offset := by
    simpa using List.drop_eq_nil_iff.mp hahead
  rw [readLine, hchannel]
  dsimp only
  rw [if_neg hnode, Text.lineEnd_of_size_le hsize, if_pos hsize]

end Reading

end Files

end LineScript

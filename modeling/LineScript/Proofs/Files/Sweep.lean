import LineScript.Proofs.Files.Buffering
import Mathlib.Data.Finset.Card

namespace LineScript

theorem eraseDups_filter {α : Type} [BEq α] [LawfulBEq α] (p : α → Bool) (l : List α) :
    (l.filter p).eraseDups = l.eraseDups.filter p := by
  match l with
  | [] => rfl
  | a :: as =>
      have hrest := eraseDups_filter p (as.filter fun b => !b == a)
      rw [List.filter_filter] at hrest
      rw [List.eraseDups_cons]
      cases ha : p a with
      | true =>
          rw [List.filter_cons_of_pos ha, List.filter_cons_of_pos ha, List.eraseDups_cons,
            List.filter_filter, ← hrest]
          simp only [Bool.and_comm]
      | false =>
          have hother : (as.filter fun b => p b && !b == a) = as.filter p := by
            refine List.filter_congr fun b _ => ?_
            cases hb : p b with
            | false => rfl
            | true =>
                have hne : b ≠ a := fun hsame => by simp [hsame, ha] at hb
                simp [hne]
          rw [List.filter_cons_of_neg (by simp [ha]), List.filter_cons_of_neg (by simp [ha]),
            ← hrest, hother]
termination_by l.length
decreasing_by exact Nat.lt_succ_of_le (List.length_filter_le _ _)

namespace Files

-- Bytes that wait behind an open handle.
def HoldsBack (files : Files) (piece : Piece) : Prop :=
  files.channels[piece.id]? = some (.writing piece.path piece.bytes) ∧ piece.bytes ≠ #[]

-- The numbers of the handles that are open and can be closed without a failure.
def closable (files : Files) (handles : List Handle) : Finset Nat :=
  ((handles.filter fun handle => files.isOpen handle && !files.refused handle).map (·.id)).toFinset

-- What closing handles one after the other hands over.
def sweptOut (files : Files) (handles : List Handle) : List Piece :=
  files.handedAll (handles.map .close)

section Handle

variable (files : Files) (handle other : Handle)

theorem isOpen_congr {handle other : Handle} (h : handle.id = other.id) :
    files.isOpen handle = files.isOpen other := by
  rw [isOpen, isOpen, files.channel_congr h]

theorem refused_congr {handle other : Handle} (h : handle.id = other.id) :
    files.refused handle = files.refused other := by
  rw [refused, refused, files.channel_congr h]

theorem channel_eq_writing_iff {path : Path} {buffer : Text.Bytes} :
    files.channel handle = .writing path buffer ↔
      files.channels[handle.id]? = some (.writing path buffer) := by
  unfold Files.channel
  rw [Array.getD_eq_getD_getElem?]
  cases files.channels[handle.id]? with
  | none => simp
  | some channel => simp

theorem refused_eq_false_iff :
    files.refused handle = false ↔
      ∀ piece : Piece, piece.id = handle.id → files.HoldsBack piece →
        files.disk.takes piece.path = true := by
  constructor
  · rintro h ⟨id, path, bytes⟩ rfl ⟨hchannel, hbytes⟩
    rw [refused, (files.channel_eq_writing_iff handle).mpr hchannel] at h
    simpa [hbytes] using h
  · intro h
    unfold refused
    split
    · rename_i path buffer hchannel
      by_cases hempty : buffer = #[]
      · simp [hempty]
      · have hholds := (files.channel_eq_writing_iff handle).mp hchannel
        simp [h ⟨handle.id, path, buffer⟩ rfl ⟨hholds, hempty⟩]
    · rfl

theorem mem_flushed {piece : Piece} :
    piece ∈ files.flushed handle ↔
      piece.id = handle.id ∧ files.HoldsBack piece ∧ files.disk.takes piece.path = true := by
  obtain ⟨id, path, bytes⟩ := piece
  unfold flushed HoldsBack
  constructor
  · intro h
    split at h
    · rename_i hchannel
      split_ifs at h with hkept
      · cases h
      · cases List.mem_singleton.mp h
        simp only [Bool.or_eq_true, Bool.not_eq_true', not_or, Bool.not_eq_false] at hkept
        exact ⟨rfl, ⟨(files.channel_eq_writing_iff handle).mp hchannel, by simpa using hkept.1⟩,
          hkept.2⟩
    · cases h
  · rintro ⟨rfl, ⟨hchannel, hbytes⟩, htakes⟩
    dsimp only at htakes hbytes
    rw [(files.channel_eq_writing_iff handle).mpr hchannel]
    simp [hbytes, htakes]

theorem isOk_flush : (files.flush handle).2.isOk = !files.refused handle := by
  rcases files.flush_cases handle with ⟨hflush, _, hpending⟩ |
    ⟨path, buffer, disk, hchannel, _, happend, hflush, _⟩ |
    ⟨path, buffer, e, hchannel, hbuffer, hrefuses, hflush, _⟩
  · rw [hflush, refused_of_pending hpending]
    rfl
  · rw [hflush, refused, hchannel]
    simp [(Disk.append_eq_ok happend).1, Except.isOk, Except.toBool]
  · rw [hflush, refused, hchannel]
    simp [hbuffer, hrefuses, Except.isOk, Except.toBool]

theorem isOk_close : (files.close handle).2.isOk = !files.refused handle := by
  rw [← isOk_flush]
  unfold close
  dsimp only
  cases (files.flush handle).2 <;> rfl

theorem isOpen_close :
    (files.close handle).1.isOpen other = (other.id ≠ handle.id && files.isOpen other) := by
  unfold isOpen
  rw [channel_close]
  by_cases hid : other.id = handle.id
  · simp [hid]
  · simp [hid]

theorem takes_close (path : Path) :
    (files.close handle).1.disk.takes path = files.disk.takes path := by
  unfold close setChannel
  rcases files.flush_cases handle with ⟨hflush, _⟩ | ⟨_, _, _, _, _, happend, hflush, _⟩ |
    ⟨_, _, _, _, _, _, hflush, _⟩
  · rw [hflush]
  · rw [hflush]
    exact Disk.takes_of_append happend
  · rw [hflush]

theorem refused_close :
    (files.close handle).1.refused other = (other.id ≠ handle.id && files.refused other) := by
  unfold refused
  rw [channel_close]
  by_cases hid : other.id = handle.id
  · simp [hid]
  · simp [hid, takes_close]

-- What waits behind a handle goes on waiting until that handle is closed.
theorem holdsBack_close {piece : Piece} :
    (files.close handle).1.HoldsBack piece ↔ piece.id ≠ handle.id ∧ files.HoldsBack piece := by
  obtain ⟨id, path, bytes⟩ := piece
  unfold HoldsBack
  rw [← channel_eq_writing_iff _ ⟨id, ""⟩, ← channel_eq_writing_iff _ ⟨id, ""⟩, channel_close]
  by_cases hid : id = handle.id
  · simp [hid]
  · simp [hid]

end Handle

section Handles

variable {files : Files} {handles first second : List Handle}

@[simp]
theorem release_nil (files : Files) : files.release [] = files := rfl

@[simp]
theorem release_cons (files : Files) (handle : Handle) (rest : List Handle) :
    files.release (handle :: rest) = (files.close handle).1.release rest := rfl

theorem release_append (files : Files) (first second : List Handle) :
    files.release (first ++ second) = (files.release first).release second := by
  rw [release, release, release, List.foldl_append]

-- To let handles go is to close them one after the other.
theorem actAll_close (files : Files) (handles : List Handle) :
    files.actAll (handles.map .close) = files.release handles := by
  rw [actAll, release, List.foldl_map]
  rfl

theorem closeAll_files (files : Files) (handles : List Handle) :
    (files.closeAll handles).1 = files.release handles := by
  induction handles generalizing files with
  | nil => rfl
  | cons handle rest ih => exact ih _

theorem isOpen_release (files : Files) (handles : List Handle) (other : Handle) :
    (files.release handles).isOpen other =
      (other.id ∉ handles.map (·.id) && files.isOpen other) := by
  induction handles generalizing files with
  | nil => simp
  | cons handle rest ih =>
      rw [release_cons, ih, isOpen_close]
      by_cases hid : other.id = handle.id <;> simp [hid]

theorem refused_release (files : Files) (handles : List Handle) (other : Handle) :
    (files.release handles).refused other =
      (other.id ∉ handles.map (·.id) && files.refused other) := by
  induction handles generalizing files with
  | nil => simp
  | cons handle rest ih =>
      rw [release_cons, ih, refused_close]
      by_cases hid : other.id = handle.id <;> simp [hid]

theorem isOpen_of_released (files : Files) {handle : Handle} (h : handle ∈ handles) :
    (files.release handles).isOpen handle = false := by
  have hid : handle.id ∈ handles.map (·.id) := List.mem_map_of_mem h
  simp [isOpen_release, hid]

-- A course of closings succeeds exactly if no file refuses, and the order has no say in it.
theorem isOk_closeAll (files : Files) (handles : List Handle) :
    (files.closeAll handles).2.isOk = true ↔ ∀ handle ∈ handles, files.refused handle = false := by
  induction handles generalizing files with
  | nil => simp [closeAll, Except.isOk, Except.toBool]
  | cons handle rest ih =>
      have hcons : (files.closeAll (handle :: rest)).2.isOk =
          ((files.close handle).2.isOk && ((files.close handle).1.closeAll rest).2.isOk) := by
        rw [closeAll]
        cases (files.close handle).2 with
        | error e => rfl
        | ok _ => cases ((files.close handle).1.closeAll rest).2 <;> rfl
      rw [hcons, Bool.and_eq_true, ih, isOk_close, List.forall_mem_cons, Bool.not_eq_true']
      refine and_congr_right fun hhandle => forall₂_congr fun other hother => ?_
      rw [refused_close]
      by_cases hid : other.id = handle.id
      · simp [hid, files.refused_congr hid, hhandle]
      · simp [hid]

theorem mem_closable {id : Nat} :
    id ∈ files.closable handles ↔
      ∃ handle ∈ handles, handle.id = id ∧ files.isOpen handle = true ∧
        files.refused handle = false := by
  simp only [closable, List.mem_toFinset, List.mem_map, List.mem_filter, Bool.and_eq_true,
    Bool.not_eq_true']
  constructor
  · rintro ⟨handle, ⟨hmem, hopen, hrefused⟩, hid⟩
    exact ⟨handle, hmem, hid, hopen, hrefused⟩
  · rintro ⟨handle, hmem, hid, hopen, hrefused⟩
    exact ⟨handle, ⟨hmem, hopen, hrefused⟩, hid⟩

-- A handle is closed once, however often it is met.
theorem card_closable_append (files : Files) (first second : List Handle) :
    (files.closable (first ++ second)).card =
      (files.closable first).card + ((files.release first).closable second).card := by
  have hsplit : files.closable (first ++ second) =
      files.closable first ∪ (files.release first).closable second := by
    ext id
    simp only [Finset.mem_union, mem_closable, List.mem_append, isOpen_release, refused_release]
    constructor
    · rintro ⟨handle, hfirst | hsecond, hid, hopen, hrefused⟩
      · exact .inl ⟨handle, hfirst, hid, hopen, hrefused⟩
      · by_cases hmet : handle.id ∈ first.map (·.id)
        · obtain ⟨other, hother, hsame⟩ := List.mem_map.mp hmet
          rw [← files.isOpen_congr hsame] at hopen
          rw [← files.refused_congr hsame] at hrefused
          exact .inl ⟨other, hother, hsame.trans hid, hopen, hrefused⟩
        · exact .inr ⟨handle, hsecond, hid, by simpa [hopen] using hmet, by simp [hrefused]⟩
    · rintro (⟨handle, hfirst, hid, hopen, hrefused⟩ | ⟨handle, hsecond, hid, hopen, hrefused⟩)
      · exact ⟨handle, .inl hfirst, hid, hopen, hrefused⟩
      · obtain ⟨hnew, hopen⟩ := Bool.and_eq_true_iff.mp hopen
        rw [hnew, Bool.true_and] at hrefused
        exact ⟨handle, .inr hsecond, hid, hopen, hrefused⟩
  rw [hsplit, Finset.card_union_of_disjoint]
  refine Finset.disjoint_left.mpr fun id hfirst hsecond => ?_
  obtain ⟨handle, hmem, hid, _, _⟩ := mem_closable.mp hfirst
  obtain ⟨other, _, hsame, hopen, _⟩ := mem_closable.mp hsecond
  have hmet : other.id ∈ first.map (·.id) := by
    rw [hsame, ← hid]
    exact List.mem_map_of_mem hmem
  simp [isOpen_release, hmet] at hopen

theorem card_closable_singleton (files : Files) (handle : Handle) :
    (files.closable [handle]).card =
      if files.isOpen handle && !files.refused handle then 1 else 0 := by
  unfold closable
  rw [List.filter_singleton]
  cases files.isOpen handle && !files.refused handle <;> rfl

-- The count that closing gives is that of the numbers that were open.
theorem closeAll_of_accepted (h : ∀ handle ∈ handles, files.refused handle = false) :
    (files.closeAll handles).2 = .ok (files.closable handles).card := by
  induction handles generalizing files with
  | nil => rfl
  | cons handle rest ih =>
      obtain ⟨hhandle, hrest⟩ := List.forall_mem_cons.mp h
      have hlater : ∀ other ∈ rest, (files.close handle).1.refused other = false := by
        intro other hother
        rw [refused_close, hrest other hother, Bool.and_false]
      have hok : (files.close handle).2 = .ok () := by
        have hisOk := files.isOk_close handle
        rw [hhandle] at hisOk
        cases hclose : (files.close handle).2 with
        | ok _ => rfl
        | error e =>
            rw [hclose] at hisOk
            cases hisOk
      rw [closeAll, hok, ih hlater]
      have hcard := files.card_closable_append [handle] rest
      rw [List.singleton_append, card_closable_singleton, hhandle, Bool.not_false, Bool.and_true,
        release_cons, release_nil] at hcard
      rw [hcard, Nat.add_comm]
      rfl

theorem sweptOut_cons (files : Files) (handle : Handle) (rest : List Handle) :
    files.sweptOut (handle :: rest) =
      files.flushed handle ++ (files.close handle).1.sweptOut rest := rfl

-- The disk after the handles were let go.
theorem grown_release (files : Files) (handles : List Handle) :
    files.disk.Grown (files.sweptOut handles) (files.release handles).disk := by
  rw [← actAll_close]
  exact files.grown_actAll _

-- Closing hands over what was held back behind the handles and is not refused.
theorem mem_sweptOut {piece : Piece} :
    piece ∈ files.sweptOut handles ↔
      piece.id ∈ handles.map (·.id) ∧ files.HoldsBack piece ∧
        files.disk.takes piece.path = true := by
  induction handles generalizing files with
  | nil => simp [sweptOut, handedAll]
  | cons handle rest ih =>
      rw [sweptOut_cons, List.mem_append, mem_flushed, ih, holdsBack_close, takes_close,
        List.map_cons, List.mem_cons]
      by_cases hid : piece.id = handle.id
      · simp [hid]
      · simp [hid]

theorem nodup_sweptOut (files : Files) (handles : List Handle) :
    ((files.sweptOut handles).map (·.id)).Nodup := by
  induction handles generalizing files with
  | nil => exact List.nodup_nil
  | cons handle rest ih =>
      rw [sweptOut_cons, List.map_append]
      refine List.nodup_append.mpr ⟨?_, ih _, ?_⟩
      · unfold flushed
        split
        · split_ifs
          · exact List.nodup_nil
          · exact List.nodup_singleton _
        · exact List.nodup_nil
      · intro id hid other hother
        obtain ⟨piece, hpiece, rfl⟩ := List.mem_map.mp hid
        obtain ⟨later, hlater, rfl⟩ := List.mem_map.mp hother
        have hown := (mem_flushed files handle).mp hpiece
        have hother := (holdsBack_close files handle).mp (mem_sweptOut.mp hlater).2.1
        rw [hown.1]
        exact Ne.symm hother.1

-- The pieces follow one another as their handles are first met.
theorem ids_sweptOut (files : Files) (handles : List Handle) :
    ((files.sweptOut handles).map (·.id)).Sublist (handles.map (·.id)).eraseDups := by
  induction handles generalizing files with
  | nil => exact .slnil
  | cons handle rest ih =>
      have hown : ((files.flushed handle).map (·.id)).Sublist [handle.id] := by
        unfold flushed
        split
        · split_ifs
          · exact List.nil_sublist _
          · exact .refl _
        · exact List.nil_sublist _
      have hlater := (ih (files.close handle).1).filter (fun id => !id == handle.id)
      rw [← eraseDups_filter, List.filter_eq_self.mpr] at hlater
      · rw [sweptOut_cons, List.map_append, List.map_cons, List.eraseDups_cons]
        exact hown.append hlater
      · intro id hid
        obtain ⟨piece, hpiece, rfl⟩ := List.mem_map.mp hid
        simpa using ((holdsBack_close files handle).mp (mem_sweptOut.mp hpiece).2.1).1

-- The same handles in another order hand over the same pieces, but in another order.
theorem sweptOut_perm (files : Files) (h : first.Perm second) :
    (files.sweptOut first).Perm (files.sweptOut second) := by
  refine (List.perm_ext_iff_of_nodup (files.nodup_sweptOut first).of_map
    (files.nodup_sweptOut second).of_map).mpr fun piece => ?_
  rw [mem_sweptOut, mem_sweptOut, (h.map (·.id)).mem_iff]

end Handles

end Files

end LineScript

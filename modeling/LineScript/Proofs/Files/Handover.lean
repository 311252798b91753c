import LineScript.Files
import LineScript.Proofs.Disk.Append
import Mathlib.Data.List.Basic

namespace LineScript

-- Bytes that were handed over to a file, with the number of the handle they came through.
structure Piece where
  id : Nat
  path : Path
  bytes : Text.Bytes
deriving DecidableEq, Repr

namespace Piece

-- What came through one handle, in the order in which it was handed over.
def through (id : Nat) (pieces : List Piece) : List UInt8 :=
  (pieces.filter (·.id = id)).flatMap (·.bytes.toList)

-- What came to one file.
def arrivals (path : Path) (pieces : List Piece) : List UInt8 :=
  (pieces.filter (·.path = path)).flatMap (·.bytes.toList)

variable {id : Nat} {path : Path} {pieces : List Piece}

@[simp]
theorem through_nil : through id [] = [] := rfl

@[simp]
theorem arrivals_nil : arrivals path [] = [] := rfl

@[simp]
theorem through_append (first second : List Piece) :
    through id (first ++ second) = through id first ++ through id second := by
  simp [through]

@[simp]
theorem arrivals_append (first second : List Piece) :
    arrivals path (first ++ second) = arrivals path first ++ arrivals path second := by
  simp [arrivals]

theorem through_singleton (bytes : Text.Bytes) :
    through id [⟨id, path, bytes⟩] = bytes.toList := by
  simp [through]

theorem arrivals_singleton (other : Path) (bytes : Text.Bytes) :
    arrivals path [⟨id, other, bytes⟩] = if path = other then bytes.toList else [] := by
  by_cases h : path = other
  · simp [arrivals, h]
  · simp [arrivals, h, Ne.symm h]

theorem through_of_others (h : ∀ piece ∈ pieces, piece.id ≠ id) : through id pieces = [] := by
  have hnone : pieces.filter (·.id = id) = [] := by
    refine List.filter_eq_nil_iff.mpr fun piece hpiece => ?_
    simpa using h piece hpiece
  rw [through, hnone, List.flatMap_nil]

-- Pieces may change places if no two of them come to the file.
theorem arrivals_perm {others : List Piece} (h : pieces.Perm others)
    (hone : ∀ piece ∈ pieces, ∀ later ∈ pieces, piece.path = path → later.path = path →
      piece = later) : arrivals path pieces = arrivals path others := by
  have hsame : pieces.filter (·.path = path) = others.filter (·.path = path) := by
    have hany (list : List Piece) : list.Pairwise fun _ _ => True :=
      List.pairwise_of_forall fun _ _ => trivial
    refine (h.filter _).eq_of_pairwise ?_ (hany _) (hany _)
    intro piece later hpiece hlater _ _
    obtain ⟨hmem, hpath⟩ := List.mem_filter.mp hpiece
    obtain ⟨hother, hlast⟩ := List.mem_filter.mp hlater
    exact hone piece hmem later (h.mem_iff.mpr hother) (by simpa using hpath) (by simpa using hlast)
  rw [arrivals, arrivals, hsame]

end Piece

-- What has become of a disk to which these pieces were handed over.
structure Disk.Grown (before : Disk) (pieces : List Piece) (after : Disk) : Prop where
  content : ∀ path, before.keeps path = true →
    (after.content path).toList = (before.content path).toList ++ Piece.arrivals path pieces
  keeps : ∀ path, after.keeps path = before.keeps path
  takes : ∀ path, before.takes path = true → after.takes path = true

namespace Disk.Grown

variable {before middle after : Disk} {first second : List Piece}

theorem refl (disk : Disk) : disk.Grown [] disk where
  content _ _ := by simp
  keeps _ := rfl
  takes _ h := h

theorem trans (hfirst : before.Grown first middle) (hsecond : middle.Grown second after) :
    before.Grown (first ++ second) after where
  content path hkeeps := by
    rw [hsecond.content path ((hfirst.keeps path).trans hkeeps), hfirst.content path hkeeps,
      Piece.arrivals_append, List.append_assoc]
  keeps path := (hsecond.keeps path).trans (hfirst.keeps path)
  takes path h := hsecond.takes path (hfirst.takes path h)

theorem append {path : Path} {bytes : Text.Bytes} (h : before.append path bytes = .ok after)
    (id : Nat) : before.Grown [⟨id, path, bytes⟩] after where
  content other hkeeps := by
    rw [content_of_append h hkeeps, Piece.arrivals_singleton, Array.toList_append]
    split_ifs <;> rfl
  keeps _ := keeps_of_append h
  takes _ htakes := (takes_of_append h).trans htakes

theorem findOrCreate {name : String} {path : Path}
    (h : before.findOrCreate name = .ok (after, path)) :
    before.Grown [] after where
  content other _ := by rw [content_of_findOrCreate h, Piece.arrivals_nil, List.append_nil]
  keeps _ := keeps_of_findOrCreate h
  takes _ htakes := takes_of_findOrCreate h htakes

end Disk.Grown

-- What a channel can become once its handle was given out: closed, or the same file further on.
inductive Channel.Becomes : Channel → Channel → Prop where
  | closed (channel : Channel) : Becomes channel .closed
  | reading (path : Path) (offset next : Nat) : Becomes (.reading path offset) (.reading path next)
  | writing (path : Path) (held buffer : Text.Bytes) :
      Becomes (.writing path held) (.writing path buffer)

namespace Channel.Becomes

variable {first second third : Channel}

theorem refl (channel : Channel) : channel.Becomes channel := by
  cases channel with
  | closed => exact .closed _
  | reading path offset => exact .reading path offset offset
  | writing path buffer => exact .writing path buffer buffer

theorem trans (hfirst : first.Becomes second) (hsecond : second.Becomes third) :
    first.Becomes third := by
  cases hsecond with
  | closed => exact .closed _
  | reading path offset next =>
      cases hfirst
      exact .reading path _ next
  | writing path held buffer =>
      cases hfirst
      exact .writing path _ buffer

theorem eq_closed (h : Becomes .closed second) : second = .closed := by
  cases h
  rfl

theorem exists_writing {path : Path} {buffer : Text.Bytes}
    (h : first.Becomes (.writing path buffer)) : ∃ held, first = .writing path held := by
  cases h
  exact ⟨_, rfl⟩

end Channel.Becomes

namespace Files

section Channels

variable (files : Files) (handle other : Handle) (channel : Channel)

theorem channel_congr {handle other : Handle} (h : handle.id = other.id) :
    files.channel handle = files.channel other := by
  rw [Files.channel, Files.channel, h]

theorem id_lt_of_channel {handle : Handle} (h : files.channel handle ≠ .closed) :
    handle.id < files.channels.size := by
  by_contra hge
  exact h (by simp [Files.channel, Array.getD, hge])

theorem channel_setChannel :
    (files.setChannel handle channel).channel other =
      if other.id = handle.id ∧ handle.id < files.channels.size then channel
      else files.channel other := by
  unfold Files.channel setChannel
  dsimp only
  rw [Array.getD_eq_getD_getElem?, Array.getD_eq_getD_getElem?, Array.getElem?_setIfInBounds]
  by_cases hid : other.id = handle.id
  · rw [hid]
    by_cases hlt : handle.id < files.channels.size
    · simp [hlt]
    · simp [hlt]
  · simp [hid, Ne.symm hid]

-- A handle that was never given out counts as closed.
theorem channel_setChannel_closed :
    (files.setChannel handle .closed).channel other =
      if other.id = handle.id then .closed else files.channel other := by
  rw [channel_setChannel]
  by_cases hid : other.id = handle.id
  · rw [if_pos hid]
    split_ifs with hgiven
    · rfl
    · by_contra hopen
      have hlt := files.id_lt_of_channel hopen
      exact hgiven ⟨hid, hid ▸ hlt⟩
  · rw [if_neg hid, if_neg fun h => hid h.1]

-- The bytes that a handle holds back.
def pending : List UInt8 :=
  match files.channel handle with
  | .writing _ buffer => buffer.toList
  | _ => []

theorem pending_of_id {handle other : Handle} (h : handle.id = other.id) :
    files.pending handle = files.pending other := by
  rw [pending, pending, files.channel_congr h]

theorem pending_congr {after : Files} (h : after.channel handle = files.channel handle) :
    after.pending handle = files.pending handle := by
  rw [pending, pending, h]

theorem pending_of_writing {files : Files} {handle : Handle} {path : Path} {buffer : Text.Bytes}
    (h : files.channel handle = .writing path buffer) : files.pending handle = buffer.toList := by
  rw [pending, h]

theorem isOpen_eq_false_iff {files : Files} {handle : Handle} :
    files.isOpen handle = false ↔ files.channel handle = .closed := by
  unfold isOpen
  cases files.channel handle <;> simp

theorem pending_of_closed {files : Files} {handle : Handle} (h : files.isOpen handle = false) :
    files.pending handle = [] := by
  rw [pending, isOpen_eq_false_iff.mp h]

end Channels

-- Whether the file refuses what the handle holds back.
def refused (files : Files) (handle : Handle) : Bool :=
  match files.channel handle with
  | .writing path buffer => !buffer.isEmpty && !files.disk.takes path
  | _ => false

-- What a flush hands over.
def flushed (files : Files) (handle : Handle) : List Piece :=
  match files.channel handle with
  | .writing path buffer =>
      if buffer.isEmpty || !files.disk.takes path then [] else [⟨handle.id, path, buffer⟩]
  | _ => []

-- What goes past the buffer.
def passed (files : Files) (handle : Handle) (bytes : Text.Bytes) : List Piece :=
  match files.channel handle with
  | .writing path _ =>
      if bufferSize ≤ bytes.size && files.disk.takes path then [⟨handle.id, path, bytes⟩] else []
  | _ => []

-- What bytes put behind others hand over, those others included.
def pushedOut (files : Files) (handle : Handle) (bytes : Text.Bytes) : List Piece :=
  if bytes.size ≤ files.spare handle then files.passed handle bytes
  else
    files.flushed handle ++
      match files.flush handle with
      | (flushed, .ok ()) => flushed.passed handle bytes
      | _ => []

-- The same for a line, which is put there in two parts.
def linePushedOut (files : Files) (handle : Handle) (text : String) : List Piece :=
  match files.channel handle with
  | .writing _ _ =>
      files.pushedOut handle (Text.encode text) ++
        match files.put handle (Text.encode text) with
        | (written, .ok ()) => written.pushedOut handle #[Text.newline]
        | _ => []
  | _ => []

section Cases

variable (files : Files) (handle : Handle)

-- What a flush can do: nothing, as there is nothing to hand over; hand over the buffer; or be
-- refused.
theorem flush_cases :
    (files.flush handle = (files, .ok ()) ∧ files.flushed handle = [] ∧
        files.pending handle = []) ∨
      (∃ path buffer disk, files.channel handle = .writing path buffer ∧ buffer ≠ #[] ∧
        files.disk.append path buffer = .ok disk ∧
        files.flush handle =
          ({ files with disk := disk }.setChannel handle (.writing path #[]), .ok ()) ∧
        files.flushed handle = [⟨handle.id, path, buffer⟩]) ∨
      ∃ path buffer e, files.channel handle = .writing path buffer ∧ buffer ≠ #[] ∧
        files.disk.takes path = false ∧ files.flush handle = (files, .error e) ∧
        files.flushed handle = [] := by
  unfold flush flushed pending
  cases hchannel : files.channel handle with
  | closed | reading => exact .inl ⟨rfl, rfl, rfl⟩
  | writing path buffer =>
      dsimp only
      by_cases hempty : buffer = #[]
      · subst hempty
        exact .inl ⟨rfl, rfl, rfl⟩
      · have hne : buffer.isEmpty = false := by simpa using hempty
        rw [hne]
        cases happend : files.disk.append path buffer with
        | ok disk =>
            refine .inr (.inl ⟨path, buffer, disk, rfl, hempty, happend, rfl, ?_⟩)
            simp [(Disk.append_eq_ok happend).1]
        | error e =>
            have hrefuses := Disk.append_eq_error happend
            refine .inr (.inr ⟨path, buffer, e, rfl, hempty, hrefuses, rfl, ?_⟩)
            simp [hrefuses]

-- Bytes go into the buffer, unless they are too many for it.
theorem store_cases {path : Path} {buffer : Text.Bytes} (bytes : Text.Bytes)
    (hchannel : files.channel handle = .writing path buffer) :
    (bytes.size < bufferSize ∧ files.passed handle bytes = [] ∧
        files.store handle bytes =
          (files.setChannel handle (.writing path (buffer ++ bytes)), .ok ())) ∨
      (∃ disk, bufferSize ≤ bytes.size ∧ files.disk.append path bytes = .ok disk ∧
        files.passed handle bytes = [⟨handle.id, path, bytes⟩] ∧
        files.store handle bytes = ({ files with disk := disk }, .ok ())) ∨
      ∃ e, files.disk.takes path = false ∧ files.passed handle bytes = [] ∧
        files.store handle bytes = (files, .error e) := by
  unfold store passed
  rw [hchannel]
  dsimp only
  by_cases hlarge : bufferSize ≤ bytes.size
  · rw [if_pos hlarge]
    cases happend : files.disk.append path bytes with
    | ok disk =>
        refine .inr (.inl ⟨disk, hlarge, rfl, ?_, rfl⟩)
        simp [hlarge, (Disk.append_eq_ok happend).1]
    | error e =>
        refine .inr (.inr ⟨e, Disk.append_eq_error happend, ?_, rfl⟩)
        simp [Disk.append_eq_error happend]
  · rw [if_neg hlarge]
    refine .inl ⟨by omega, ?_, rfl⟩
    simp [hlarge]

end Cases

-- What was done to files through one handle: pieces were handed over to its file, nothing was taken
-- away, no other handle noticed, and the handle does not come to stand for another file.
structure Served (before : Files) (handle : Handle) (pieces : List Piece) (after : Files) :
    Prop where
  grown : before.disk.Grown pieces after.disk
  endures : before.disk.EnduresIn after.disk
  others : ∀ other : Handle, other.id ≠ handle.id → after.channel other = before.channel other
  same : (before.channel handle).Becomes (after.channel handle)
  own : ∀ piece ∈ pieces, piece.id = handle.id
  origin : ∀ piece ∈ pieces, ∃ buffer, before.channel handle = .writing piece.path buffer

namespace Served

variable {before middle after : Files} {handle : Handle} {first second : List Piece}

theorem refl (files : Files) (handle : Handle) : files.Served handle [] files where
  grown := .refl _
  endures := .refl _
  others _ _ := rfl
  same := .refl _
  own := List.forall_mem_nil _
  origin := List.forall_mem_nil _

theorem trans (hfirst : before.Served handle first middle)
    (hsecond : middle.Served handle second after) :
    before.Served handle (first ++ second) after where
  grown := hfirst.grown.trans hsecond.grown
  endures := hfirst.endures.trans hsecond.endures
  others other h := (hsecond.others other h).trans (hfirst.others other h)
  same := hfirst.same.trans hsecond.same
  own piece h := (List.mem_append.mp h).elim (hfirst.own piece) (hsecond.own piece)
  origin piece h := by
    rcases List.mem_append.mp h with hmem | hmem
    · exact hfirst.origin piece hmem
    · obtain ⟨buffer, hchannel⟩ := hsecond.origin piece hmem
      exact (hchannel ▸ hfirst.same).exists_writing

theorem setChannel (files : Files) (handle : Handle) {channel : Channel}
    (h : (files.channel handle).Becomes channel) :
    files.Served handle [] (files.setChannel handle channel) where
  grown := .refl _
  endures := .refl _
  others other hother := by rw [channel_setChannel, if_neg fun hsame => hother hsame.1]
  same := by
    rw [channel_setChannel]
    split_ifs
    · exact h
    · exact .refl _
  own := List.forall_mem_nil _
  origin := List.forall_mem_nil _

theorem rewrite {files : Files} {path : Path} {held : Text.Bytes}
    (h : files.channel handle = .writing path held) (buffer : Text.Bytes) :
    files.Served handle [] (files.setChannel handle (.writing path buffer)) :=
  .setChannel files handle (by rw [h]; exact .writing path held buffer)

theorem append {files : Files} {path : Path} {held bytes : Text.Bytes} {disk : Disk}
    (hchannel : files.channel handle = .writing path held)
    (h : files.disk.append path bytes = .ok disk) :
    files.Served handle [⟨handle.id, path, bytes⟩] { files with disk := disk } where
  grown := .append h handle.id
  endures := .append h
  others _ _ := rfl
  same := .refl _
  own := by simp
  origin := by simpa using ⟨held, hchannel⟩

-- Handles other than the one that was used hold back what they held back.
theorem pending_of_other {other : Handle} (h : before.Served handle first after)
    (hother : other.id ≠ handle.id) : after.pending other = before.pending other :=
  pending_congr _ _ (h.others other hother)

theorem through_of_other {other : Handle} (h : before.Served handle first after)
    (hother : other.id ≠ handle.id) : Piece.through other.id first = [] :=
  Piece.through_of_others fun piece hpiece hsame => hother (hsame.symm.trans (h.own piece hpiece))

end Served

section Serving

variable (files : Files) (handle : Handle)

theorem served_flush :
    files.Served handle (files.flushed handle) (files.flush handle).1 := by
  rcases files.flush_cases handle with ⟨hflush, hflushed, _⟩ |
    ⟨path, buffer, disk, hchannel, _, happend, hflush, hflushed⟩ |
    ⟨_, _, _, _, _, _, hflush, hflushed⟩
  · rw [hflush, hflushed]
    exact .refl files handle
  · rw [hflush, hflushed]
    have hmoved : { files with disk := disk }.channel handle = .writing path buffer := hchannel
    exact (Served.append hchannel happend).trans (Served.rewrite hmoved _)
  · rw [hflush, hflushed]
    exact .refl files handle

theorem served_store (bytes : Text.Bytes) :
    files.Served handle (files.passed handle bytes) (files.store handle bytes).1 := by
  cases hchannel : files.channel handle with
  | writing path buffer =>
      rcases files.store_cases handle bytes hchannel with ⟨_, hpassed, hstore⟩ |
        ⟨disk, _, happend, hpassed, hstore⟩ | ⟨_, _, hpassed, hstore⟩
      · rw [hstore, hpassed]
        exact .rewrite hchannel _
      · rw [hstore, hpassed]
        exact .append hchannel happend
      · rw [hstore, hpassed]
        exact .refl files handle
  | _ =>
      unfold store passed
      rw [hchannel]
      exact .refl files handle

theorem served_put (bytes : Text.Bytes) :
    files.Served handle (files.pushedOut handle bytes) (files.put handle bytes).1 := by
  have hflush := files.served_flush handle
  unfold put pushedOut
  split_ifs
  · exact files.served_store handle bytes
  · generalize files.flush handle = result at hflush ⊢
    obtain ⟨flushed, outcome⟩ := result
    cases outcome with
    | ok _ => exact hflush.trans (flushed.served_store handle bytes)
    | error e => simpa using hflush

theorem served_writeLine (text : String) :
    files.Served handle (files.linePushedOut handle text) (files.writeLine handle text).1 := by
  have hput := files.served_put handle (Text.encode text)
  unfold writeLine linePushedOut
  cases files.channel handle with
  | writing path buffer =>
      dsimp only
      generalize files.put handle (Text.encode text) = result at hput ⊢
      obtain ⟨written, outcome⟩ := result
      cases outcome with
      | ok _ => exact hput.trans (written.served_put handle #[Text.newline])
      | error e => simpa using hput
  | _ => exact .refl files handle

theorem served_close :
    files.Served handle (files.flushed handle) (files.close handle).1 := by
  have hset : (files.flush handle).1.Served handle []
      ((files.flush handle).1.setChannel handle .closed) := .setChannel _ handle (.closed _)
  have hclosed := (files.served_flush handle).trans hset
  rwa [List.append_nil] at hclosed

theorem served_readLine : files.Served handle [] (files.readLine handle).1 := by
  unfold readLine
  split
  · rename_i path offset hchannel
    have hmoved (stop : Nat) :
        files.Served handle [] (files.setChannel handle (.reading path stop)) :=
      .setChannel files handle (by rw [hchannel]; exact .reading path offset stop)
    dsimp only
    split_ifs
    · exact .refl files handle
    · exact .refl files handle
    · split <;> exact hmoved _
  · exact .refl files handle

theorem pending_readLine (other : Handle) :
    (files.readLine handle).1.pending other = files.pending other := by
  by_cases hid : other.id = handle.id
  · rw [pending_of_id _ hid, pending_of_id _ hid]
    unfold readLine
    split
    · rename_i path offset hchannel
      have hmoved (stop : Nat) :
          (files.setChannel handle (.reading path stop)).pending handle = files.pending handle := by
        rw [pending, pending, channel_setChannel, hchannel]
        split_ifs <;> rfl
      dsimp only
      split_ifs
      · rfl
      · rfl
      · split <;> exact hmoved _
    · rfl
  · exact (files.served_readLine handle).pending_of_other hid

theorem channel_close (other : Handle) :
    (files.close handle).1.channel other =
      if other.id = handle.id then .closed else files.channel other := by
  unfold close
  dsimp only
  rw [channel_setChannel_closed]
  split_ifs with hid
  · rfl
  · exact (files.served_flush handle).others other hid

end Serving

end Files

end LineScript

import LineScript.Proofs.Files.Sweep
import LineScript.Proofs.Memory.Order
import LineScript.Proofs.Program.MemoryInvariant

namespace LineScript

namespace Value

variable {value : Value} {handle : Handle}

theorem handles_of_handle? (h : value.handle? = some handle) : value.handles = [handle] := by
  cases value with
  | reader | writer =>
      cases h
      rfl
  | _ => cases h

theorem mem_handles_of_occurs {file : Value} (hfile : file.handle? = some handle)
    (h : Occurs file value) : handle ∈ value.handles := by
  induction h with
  | whole =>
      rw [handles_of_handle? hfile]
      exact List.mem_singleton_self _
  | item hmem _ ih =>
      rw [handles, handlesOfItems_eq]
      exact List.mem_flatMap.mpr ⟨_, hmem, ih⟩

theorem occurs_of_mem_handles {value : Value} (h : handle ∈ value.handles) :
    ∃ file : Value, file.handle? = some handle ∧ Occurs file value := by
  induction value using by_items with
  | h value ih =>
      cases value with
      | reader | writer =>
          cases List.mem_singleton.mp h
          exact ⟨_, rfl, .whole⟩
      | list items =>
          rw [handles, handlesOfItems_eq] at h
          obtain ⟨item, hitem, hmem⟩ := List.mem_flatMap.mp h
          obtain ⟨file, hfile, hoccurs⟩ := ih items rfl item hitem hmem
          exact ⟨file, hfile, .item hitem hoccurs⟩
      | _ => cases h

-- The handles of a value are those of the files that stand in it.
theorem mem_handles_iff :
    handle ∈ value.handles ↔ ∃ file : Value, file.handle? = some handle ∧ Occurs file value :=
  ⟨occurs_of_mem_handles, fun ⟨_, hfile, h⟩ => mem_handles_of_occurs hfile h⟩

end Value

namespace Memory

-- Some variable of some scope is a file with this handle, or such a file stands in it.
def Holds (memory : Memory) (handle : Handle) : Prop :=
  ∃ scope ∈ memory.scopes, ∃ entry ∈ scope, ∃ file : Value,
    file.handle? = some handle ∧ Value.Occurs file entry.2

-- Bytes that wait behind a handle that can be reached.
def Awaits (memory : Memory) (files : Files) (piece : Piece) : Prop :=
  (∃ handle, memory.Holds handle ∧ handle.id = piece.id) ∧ files.HoldsBack piece

theorem mem_handles_iff {memory : Memory} {handle : Handle} :
    handle ∈ memory.handles ↔ memory.Holds handle := by
  simp only [Holds, scopes, handles, values, List.mem_flatMap, List.mem_append, List.mem_reverse,
    List.mem_map, List.mem_cons, List.not_mem_nil, or_false, Value.mem_handles_iff]
  constructor
  · rintro ⟨_, ⟨scope, hscope, entry, hentry, rfl⟩, hoccurs⟩
    exact ⟨scope, hscope.symm, entry, hentry, hoccurs⟩
  · rintro ⟨scope, hscope, entry, hentry, hoccurs⟩
    exact ⟨entry.2, ⟨scope, hscope.symm, entry, hentry, rfl⟩, hoccurs⟩

namespace Reordered

variable {memory other : Memory}

theorem mem_handles (h : memory.Reordered other) {handle : Handle} :
    handle ∈ other.handles ↔ memory.Holds handle := by
  rw [← h.handles_perm.mem_iff, mem_handles_iff]

theorem mem_ids (h : memory.Reordered other) {id : Nat} :
    id ∈ other.handles.map (·.id) ↔ ∃ handle, memory.Holds handle ∧ handle.id = id := by
  simp only [List.mem_map, h.mem_handles]

end Reordered

end Memory

namespace Sweep

-- What closing the files of one value does to a sweep.
def visit (sweep : Sweep) (value : Value) : Sweep :=
  match sweep.files.closeAll value.handles with
  | (closed, .ok count) => { sweep with files := closed, closed := sweep.closed + count }
  | (closed, .error e) => { sweep with files := closed, failures := sweep.failures ++ [e] }

theorem files_visit (sweep : Sweep) (value : Value) :
    (sweep.visit value).files = sweep.files.release value.handles := by
  have hfiles := sweep.files.closeAll_files value.handles
  unfold visit
  split <;> rename_i hclose <;> rw [hclose] at hfiles <;> exact hfiles

theorem failures_visit (sweep : Sweep) (value : Value) :
    (sweep.visit value).failures = [] ↔
      sweep.failures = [] ∧ ∀ handle ∈ value.handles, sweep.files.refused handle = false := by
  have hok := sweep.files.isOk_closeAll value.handles
  unfold visit
  split <;> rename_i hclose <;> rw [hclose] at hok <;> rw [← hok] <;>
    simp [Except.isOk, Except.toBool]

-- A file on its own that is refused was not to be counted. Of a list, one refused file would take
-- the others with it.
theorem closed_visit {sweep : Sweep} {value : Value}
    (h : value.handle? = none → ∀ handle ∈ value.handles, sweep.files.refused handle = false) :
    (sweep.visit value).closed = sweep.closed + (sweep.files.closable value.handles).card := by
  by_cases haccepted : ∀ handle ∈ value.handles, sweep.files.refused handle = false
  · have hclose := Files.closeAll_of_accepted haccepted
    unfold visit
    split <;> rename_i hresult <;> rw [hresult] at hclose <;> cases hclose
    rfl
  · cases hfile : value.handle? with
    | none => exact absurd (h hfile) haccepted
    | some handle =>
        have hhandles := Value.handles_of_handle? hfile
        have hrefused : sweep.files.refused handle = true := by simpa [hhandles] using haccepted
        have herror := mt (sweep.files.isOk_closeAll value.handles).mp haccepted
        rw [hhandles, Files.card_closable_singleton, hrefused, Bool.not_true, Bool.and_false]
        unfold visit
        split
        · rename_i hresult
          rw [hresult] at herror
          exact absurd rfl herror
        · rfl

-- The same for one value after the other. Files that were closed on the way are closed for all
-- that follow.
theorem files_visits (sweep : Sweep) (values : List Value) :
    (values.foldl visit sweep).files = sweep.files.release (values.flatMap Value.handles) := by
  induction values generalizing sweep with
  | nil => rfl
  | cons value rest ih =>
      rw [List.foldl_cons, ih, files_visit, List.flatMap_cons, Files.release_append]

theorem failures_visits (sweep : Sweep) (values : List Value) :
    (values.foldl visit sweep).failures = [] ↔
      sweep.failures = [] ∧
        ∀ handle ∈ values.flatMap Value.handles, sweep.files.refused handle = false := by
  induction values generalizing sweep with
  | nil => simp
  | cons value rest ih =>
      rw [List.foldl_cons, ih, failures_visit, files_visit, List.flatMap_cons,
        List.forall_mem_append, and_assoc]
      refine and_congr_right fun _ => and_congr_right fun hvalue => forall₂_congr fun other _ => ?_
      rw [Files.refused_release]
      by_cases hmet : other.id ∈ value.handles.map (·.id)
      · obtain ⟨handle, hmem, hid⟩ := List.mem_map.mp hmet
        simp [hmet, ← sweep.files.refused_congr hid, hvalue handle hmem]
      · simp [hmet]

theorem closed_visits {sweep : Sweep} {values : List Value}
    (h : ∀ value ∈ values, value.handle? = none →
      ∀ handle ∈ value.handles, sweep.files.refused handle = false) :
    (values.foldl visit sweep).closed =
      sweep.closed + (sweep.files.closable (values.flatMap Value.handles)).card := by
  induction values generalizing sweep with
  | nil => rfl
  | cons value rest ih =>
      obtain ⟨hvalue, hrest⟩ := List.forall_mem_cons.mp h
      rw [List.foldl_cons, ih, closed_visit hvalue, files_visit, List.flatMap_cons,
        Files.card_closable_append, Nat.add_assoc]
      intro other hother hlist handle hmem
      rw [files_visit, Files.refused_release, hrest other hother hlist handle hmem, Bool.and_false]

end Sweep

namespace Files

variable (files : Files) (values : List Value)

theorem files_sweep :
    (files.sweep values).files = files.release (values.flatMap Value.handles) :=
  Sweep.files_visits ⟨files, 0, []⟩ values

theorem grown_sweep :
    files.disk.Grown (files.sweptOut (values.flatMap Value.handles))
      (files.sweep values).files.disk := by
  rw [files_sweep]
  exact files.grown_release _

theorem failures_sweep :
    (files.sweep values).failures = [] ↔
      ∀ handle ∈ values.flatMap Value.handles, files.refused handle = false :=
  (Sweep.failures_visits ⟨files, 0, []⟩ values).trans (and_iff_right rfl)

theorem closed_sweep {values : List Value}
    (h : ∀ value ∈ values, value.handle? = none →
      ∀ handle ∈ value.handles, files.refused handle = false) :
    (files.sweep values).closed = (files.closable (values.flatMap Value.handles)).card :=
  (Sweep.closed_visits h).trans (Nat.zero_add _)

end Files

-- Where a source is after some steps in an empty world.
def Program.stateAfter (source : String) (steps : Nat) : Option Machine :=
  (Program.compile source).toOption.map fun program =>
    (program.drive steps (program.load .blank)).1

namespace Memory

namespace Reordered

variable {memory listed : Memory} (files : Files) (h : memory.Reordered listed)

include h

-- A sweep closes every file that can be reached, whether or not it is refused.
theorem isOpen_sweep {handle : Handle} (hholds : memory.Holds handle) :
    (files.sweep listed.values).files.isOpen handle = false := by
  rw [files.files_sweep]
  exact files.isOpen_of_released (h.mem_handles.mpr hholds)

theorem failures_sweep :
    (files.sweep listed.values).failures = [] ↔
      ∀ handle, memory.Holds handle → files.refused handle = false :=
  (files.failures_sweep listed.values).trans
    (forall_congr' fun _ => imp_congr_left h.mem_handles)

-- Where no file is refused, each one that was open counts once.
theorem closed_sweep (haccepted : ∀ handle, memory.Holds handle → files.refused handle = false) :
    (files.sweep listed.values).closed = (files.closable listed.handles).card ∧
      ∀ id, id ∈ files.closable listed.handles ↔
        ∃ handle, memory.Holds handle ∧ handle.id = id ∧ files.isOpen handle = true := by
  constructor
  · refine files.closed_sweep fun value hvalue _ handle hmem => haccepted handle ?_
    exact h.mem_handles.mp (List.mem_flatMap.mpr ⟨value, hvalue, hmem⟩)
  · intro id
    rw [Files.mem_closable]
    constructor
    · rintro ⟨handle, hmem, hid, hopen, _⟩
      exact ⟨handle, h.mem_handles.mp hmem, hid, hopen⟩
    · rintro ⟨handle, hholds, hid, hopen⟩
      exact ⟨handle, h.mem_handles.mpr hholds, hid, hopen, haccepted handle hholds⟩

-- Where all files are closed already, there is nothing to do.
theorem sweep_of_closed (hclosed : ∀ handle, memory.Holds handle → files.isOpen handle = false) :
    (files.sweep listed.values).closed = 0 ∧ (files.sweep listed.values).failures = [] := by
  have haccepted (handle : Handle) (hholds : memory.Holds handle) :
      files.refused handle = false := by
    rw [Files.refused, Files.isOpen_eq_false_iff.mp (hclosed handle hholds)]
  obtain ⟨hcount, hids⟩ := h.closed_sweep files haccepted
  refine ⟨?_, (h.failures_sweep files).mpr haccepted⟩
  rw [hcount, Finset.card_eq_zero, Finset.eq_empty_iff_forall_notMem]
  intro id hid
  obtain ⟨handle, hholds, _, hopen⟩ := (hids id).mp hid
  rw [hclosed handle hholds] at hopen
  cases hopen

-- What a sweep hands over is what waits, up to what is refused.
theorem mem_sweptOut {piece : Piece} :
    piece ∈ files.sweptOut listed.handles ↔
      memory.Awaits files piece ∧ files.disk.takes piece.path = true := by
  rw [Files.mem_sweptOut, h.mem_ids, Awaits, and_assoc]

end Reordered

variable {memory listed : Memory}

-- Whatever the order in which the variables are met, a sweep closes every file that can be reached,
-- and a second one finds nothing to do. Nothing fails if no flush does. Then each file that was
-- open is counted once, and what waited behind it is in its file, in one piece.
theorem sweep_closes_every_file (files : Files) (h : memory.Reordered listed) :
    let sweep := files.sweep listed.values
    (∀ handle, memory.Holds handle → sweep.files.isOpen handle = false) ∧
    (∀ again, memory.Reordered again →
      (sweep.files.sweep again.values).closed = 0 ∧
        (sweep.files.sweep again.values).failures = []) ∧
    (sweep.failures = [] ↔
      ∀ handle, memory.Holds handle → (files.flush handle).2.isOk = true) ∧
    (sweep.failures = [] →
      (∃ ids : Finset Nat,
        (∀ id, id ∈ ids ↔
          ∃ handle, memory.Holds handle ∧ handle.id = id ∧ files.isOpen handle = true) ∧
        sweep.closed = ids.card) ∧
      ∃ pieces : List Piece,
        (pieces.map (·.id)).Nodup ∧ (∀ piece, piece ∈ pieces ↔ memory.Awaits files piece) ∧
        ∀ path, files.disk.keeps path = true →
          (sweep.files.disk.content path).toList =
            (files.disk.content path).toList ++ Piece.arrivals path pieces) := by
  intro sweep
  have hclosed (handle : Handle) (hholds : memory.Holds handle) :
      sweep.files.isOpen handle = false := h.isOpen_sweep files hholds
  have hfailures := h.failures_sweep files
  refine ⟨hclosed, fun again hagain => hagain.sweep_of_closed _ hclosed, ?_, fun hnone => ⟨?_, ?_⟩⟩
  · simpa only [Files.isOk_flush, Bool.not_eq_true'] using hfailures
  · obtain ⟨hcount, hids⟩ := h.closed_sweep files (hfailures.mp hnone)
    exact ⟨_, hids, hcount⟩
  · refine ⟨_, files.nodup_sweptOut _, fun piece => ?_, (files.grown_sweep _).content⟩
    refine (h.mem_sweptOut files).trans (and_iff_left_of_imp ?_)
    rintro ⟨⟨handle, hholds, hid⟩, hwaits⟩
    exact (files.refused_eq_false_iff handle).mp (hfailures.mp hnone handle hholds) piece
      hid.symm hwaits

-- One file in a list within a list, in the scope above and in a variable, and two others.
theorem nested_files_are_swept :
    ∃ m, Program.stateAfter ("OPEN \"x\" AS WRITE a\nOPEN \"y\" AS WRITE b\nWRITE 7 TO a\n" ++
        "SET argument TO (1, (a, 2))\nSCOPE OPEN\nOPEN \"x\" AS READ c") 7 = some m ∧
      let listed : Memory := { m.memory with current := m.memory.current.reverse }
      m.memory.Reordered listed ∧ (m.world.files.sweep listed.values).failures = [] ∧
        ∃ ids : Finset Nat, ids.card = 3 ∧ ∀ id, id ∈ ids ↔ ∃ handle,
          m.memory.Holds handle ∧ handle.id = id ∧ m.world.files.isOpen handle = true := by
  have hrun : (Program.stateAfter
      ("OPEN \"x\" AS WRITE a\nOPEN \"y\" AS WRITE b\nWRITE 7 TO a\n" ++
        "SET argument TO (1, (a, 2))\nSCOPE OPEN\nOPEN \"x\" AS READ c") 7).any (fun m =>
        let listed : Memory := { m.memory with current := m.memory.current.reverse }
        let sweep := m.world.files.sweep listed.values
        sweep.failures.isEmpty && sweep.closed = 3) = true := by
    decide +kernel
  obtain ⟨m, hm, hswept⟩ := (Option.any_eq_true _ _).mp hrun
  simp only [Bool.and_eq_true, List.isEmpty_iff, decide_eq_true_eq] at hswept
  have hreordered := Reordered.reverse m.memory
  obtain ⟨_, _, _, hcounted⟩ := sweep_closes_every_file m.world.files hreordered
  obtain ⟨⟨ids, hids, hcard⟩, _⟩ := hcounted hswept.1
  exact ⟨m, hm, hreordered, hswept.1, ids, hcard.symm.trans hswept.2, hids⟩

-- The order has a say only in two ways. Where several handles hold back bytes for one file, their
-- pieces come there one behind the other as they are first met. And a list is counted as a whole
-- or, if one of its files is refused, not at all.
theorem sweep_almost_orderless (files : Files) (h : memory.Reordered listed) :
    (∀ met ∈ [memory, listed],
      let pieces := files.sweptOut met.handles
      (pieces.map (·.id)).Nodup ∧
      (pieces.map (·.id)).Sublist (met.handles.map (·.id)).eraseDups ∧
      (∀ piece, piece ∈ pieces ↔ memory.Awaits files piece ∧ files.disk.takes piece.path = true) ∧
      ∀ path, files.disk.keeps path = true →
        ((files.sweep met.values).files.disk.content path).toList =
          (files.disk.content path).toList ++ Piece.arrivals path pieces) ∧
    (files.sweptOut memory.handles).Perm (files.sweptOut listed.handles) ∧
    (∀ path,
      (∀ piece later, memory.Awaits files piece → memory.Awaits files later →
        piece.path = path → later.path = path → piece.id = later.id) →
      (files.sweep memory.values).files.disk.content path =
        (files.sweep listed.values).files.disk.content path) ∧
    ((∀ value ∈ memory.values, value.handle? = none →
        ∀ handle ∈ value.handles, (files.flush handle).2.isOk = true) →
      (files.sweep memory.values).closed = (files.sweep listed.values).closed) := by
  have hpieces := files.sweptOut_perm h.handles_perm
  have hawaits (piece : Piece) (hpiece : piece ∈ files.sweptOut memory.handles) :
      memory.Awaits files piece := ((Reordered.refl memory).mem_sweptOut files |>.mp hpiece).1
  refine ⟨fun met hmet => ?_, hpieces, fun path hone => ?_, fun haccepted => ?_⟩
  · have hreordered : memory.Reordered met := by
      rcases List.mem_pair.mp hmet with rfl | rfl
      · exact .refl _
      · exact h
    exact ⟨files.nodup_sweptOut _, files.ids_sweptOut _, fun _ => hreordered.mem_sweptOut files,
      (files.grown_sweep _).content⟩
  · cases hkeeps : files.disk.keeps path with
    | true =>
        have harrivals := Piece.arrivals_perm hpieces fun piece hpiece later hlater hpath hsame =>
          List.inj_on_of_nodup_map (files.nodup_sweptOut _) hpiece hlater
            (hone piece later (hawaits piece hpiece) (hawaits later hlater) hpath hsame)
        refine Array.toList_inj.mp ?_
        rw [(files.grown_sweep _).content path hkeeps, (files.grown_sweep _).content path hkeeps]
        exact congrArg _ harrivals
    | false =>
        rw [Disk.content_of_sink (((files.grown_sweep _).keeps path).trans hkeeps),
          Disk.content_of_sink (((files.grown_sweep _).keeps path).trans hkeeps)]
  · simp only [Files.isOk_flush, Bool.not_eq_true'] at haccepted
    rw [files.closed_sweep haccepted, files.closed_sweep fun value hvalue =>
      haccepted value (h.values_perm.mem_iff.mpr hvalue)]
    refine congrArg Finset.card (Finset.ext fun id => ?_)
    simp only [Files.mem_closable]
    exact exists_congr fun handle => and_congr_left' h.handles_perm.mem_iff

-- Two files that are written through one handle each, one of which refuses.
theorem lone_writers_are_swept_alike :
    let written : Path := ["tmp", "work", "x"]
    let files : Files := ⟨Disk.empty.insert written (.file #[]),
      #[.writing written #[49, 10], .writing ["dev", "full"] #[48, 10]]⟩
    let memory : Memory := ⟨[("a", .list [.writer ⟨0, "x"⟩]), ("b", .writer ⟨1, "/dev/full"⟩),
      ("c", .writer ⟨0, "x"⟩)], []⟩
    let listed : Memory := { memory with current := memory.current.reverse }
    memory.Reordered listed ∧
      (files.sweep memory.values).files.disk.content written =
        (files.sweep listed.values).files.disk.content written ∧
      (files.sweep memory.values).closed = (files.sweep listed.values).closed := by
  intro written files memory listed
  have hreordered : memory.Reordered listed := .reverse memory
  obtain ⟨_, _, hcontent, hclosed⟩ := sweep_almost_orderless files hreordered
  have hfirst (piece : Piece) (h : files.HoldsBack piece) (hpath : piece.path = written) :
      piece.id = 0 := by
    obtain ⟨_ | _ | _, path, bytes⟩ := piece
    · rfl
    · cases h.1
      exact absurd hpath (by decide)
    · cases h.1
  refine ⟨hreordered, hcontent written ?_, hclosed ?_⟩
  · intro piece later hpiece hlater hpath hsame
    rw [hfirst piece hpiece.2 hpath, hfirst later hlater.2 hsame]
  · decide +kernel

-- Two handles hold back a line each for one file, and a list holds a file that refuses beside one
-- that stands elsewhere, too.
theorem sweep_depends_on_order :
    ∃ m, Program.stateAfter ("OPEN \"x\" AS WRITE a\nOPEN \"x\" AS WRITE b\nWRITE 1 TO a\n" ++
        "WRITE 2 TO b\nOPEN \"/dev/full\" AS WRITE f\nWRITE 0 TO f\nOPEN \"g\" AS WRITE d\n" ++
        "SET c TO (f, d)\nSET f TO 0") 10 = some m ∧
      ∃ listed, m.memory.Reordered listed ∧
        (m.world.files.sweep m.memory.values).closed ≠ (m.world.files.sweep listed.values).closed ∧
        (m.world.files.sweep m.memory.values).files.disk.content ["tmp", "work", "x"] ≠
          (m.world.files.sweep listed.values).files.disk.content ["tmp", "work", "x"] := by
  have hrun : (Program.stateAfter
      ("OPEN \"x\" AS WRITE a\nOPEN \"x\" AS WRITE b\nWRITE 1 TO a\n" ++
        "WRITE 2 TO b\nOPEN \"/dev/full\" AS WRITE f\nWRITE 0 TO f\nOPEN \"g\" AS WRITE d\n" ++
        "SET c TO (f, d)\nSET f TO 0") 10).any (fun m =>
        let one := m.world.files.sweep m.memory.values
        let other := m.world.files.sweep
          ({ m.memory with current := m.memory.current.reverse } : Memory).values
        one.closed ≠ other.closed && one.files.disk.content ["tmp", "work", "x"] ≠
          other.files.disk.content ["tmp", "work", "x"]) = true := by
    decide +kernel
  obtain ⟨m, hm, hdiffer⟩ := (Option.any_eq_true _ _).mp hrun
  simp only [Bool.and_eq_true, decide_eq_true_eq] at hdiffer
  exact ⟨m, hm, _, .reverse m.memory, hdiffer⟩

end Memory

end LineScript

import LineScript.Proofs.Machine.Holding
import LineScript.Proofs.Program.ControlFlow
import LineScript.Proofs.Program.Steps

namespace LineScript

-- Closing handles hands over what a handle holds back, or leaves it there.
theorem Files.ledger_closes {files : Files} {handle : Handle} (h : files.reliable handle = true)
    (handles : List Handle) :
    Piece.through handle.id (files.sweptOut handles) ++ (files.release handles).pending handle =
      files.pending handle := by
  have hsilent := Machine.silent_closes handle handles
  have hledger : Piece.through handle.id (files.sweptOut handles) ++
      (files.actAll (handles.map .close)).pending handle =
        files.pending handle ++ files.loggedAll handle (handles.map .close) := by
    by_cases hgiven : handle.id < files.channels.size
    · exact ledger_actAll hgiven h _
    · exact ledger_of_silent (pending_of_not_given (Nat.le_of_not_lt hgiven)) hsilent
  rwa [actAll_close, loggedAll_of_silent hsilent, List.append_nil] at hledger

namespace Machine

theorem files_announce (m : Machine) (s : Statement) :
    (m.announce s).world.files = m.world.files := by
  obtain ⟨log, hannounce⟩ := m.announce_eq s
  rw [hannounce]

theorem Held.announce {first : Nat} {m : Machine} (h : m.Held first) (s : Statement) :
    (m.announce s).Held first := by
  obtain ⟨log, hannounce⟩ := m.announce_eq s
  rw [hannounce]
  exact h

-- A CLOSE closes the file for all copies of its handle.
theorem isOpen_of_close {m : Machine} {s : Statement} {file : Value} {copy handle : Handle}
    (hs : s.operation = .close) (hfile : m.memory.evaluate (s.primary.getD .null) = .ok file)
    (hcopy : file.handle? = some copy) (hid : copy.id = handle.id)
    (hother : (m.memory.evaluateOperand s.secondary).isOk = true) :
    (m.step s).1.world.files.isOpen handle = false := by
  cases hb : m.memory.evaluateOperand s.secondary with
  | error e =>
      rw [hb] at hother
      cases hother
  | ok b =>
      have hactions : m.actions s =
          (copy :: released (m.execute s).1.memory (m.leaving file b)).map FileAction.close := by
        unfold actions fileActions
        rw [hfile, hb, hs]
        dsimp only
        rw [hcopy]
        rfl
      rw [files_step, hactions, Files.actAll_close, Files.isOpen_release]
      simp [hid]

end Machine

namespace Program

variable {program : Program} {m : Machine} {handle : Handle}

def actions (program : Program) (fuel : Nat) (m : Machine) : List FileAction :=
  (program.steps fuel m).flatMap fun step => step.1.actions step.2

-- All that a run hands over to files, in order.
def handed (program : Program) (fuel : Nat) (m : Machine) : List Piece :=
  m.world.files.handedAll (program.actions fuel m)

-- The lines that the statements of a run write through one handle, one behind the other.
def written (program : Program) (fuel : Nat) (m : Machine) (handle : Handle) : List UInt8 :=
  (program.steps fuel m).flatMap fun step => step.1.written step.2 handle

theorem files_drive (program : Program) (fuel : Nat) (m : Machine) :
    (program.drive fuel m).1.world.files = m.world.files.actAll (program.actions fuel m) := by
  induction fuel generalizing m with
  | zero => rfl
  | succ fuel ih =>
      unfold actions
      rcases program.steps_cases fuel m with ⟨hsteps, hdrive⟩ |
        ⟨s, ⟨next, hstep, hsteps, hdrive⟩ | ⟨last, fault, outcome, hstep, hsteps, _, hdrive⟩⟩
      · rw [hsteps, hdrive]
        rfl
      · have hnext := (m.announce s).files_step s
        rw [hstep, Machine.files_announce] at hnext
        rw [hsteps, hdrive, List.flatMap_cons, Files.actAll_append, ih, ← hnext]
        rfl
      · have hlast := (m.announce s).files_step s
        rw [hstep, Machine.files_announce] at hlast
        rw [hsteps, hdrive]
        simpa using hlast

-- What a run hands over through a handle and what is held back at its end are together what was
-- held back at its beginning and the lines that it writes.
theorem ledger_drive {fuel : Nat} (hreachable : m.Reachable)
    (h : ∀ n ≤ fuel, (program.drive n m).1.world.files.reliable handle = true) :
    Piece.through handle.id (program.handed fuel m) ++
        (program.drive fuel m).1.world.files.pending handle =
      m.world.files.pending handle ++ program.written fuel m handle := by
  induction fuel generalizing m with
  | zero => simp [handed, actions, written, steps, drive, Files.handedAll]
  | succ fuel ih =>
      unfold handed actions written
      rcases program.steps_cases fuel m with ⟨hsteps, hdrive⟩ |
        ⟨s, ⟨next, hstep, hsteps, hdrive⟩ | ⟨last, fault, outcome, hstep, hsteps, _, hdrive⟩⟩
      · rw [hsteps, hdrive]
        simp [Files.handedAll]
      all_goals
        have hreliable : (m.announce s).world.files.reliable handle = true := by
          rw [Machine.files_announce]
          exact h 0 (Nat.zero_le _)
        have hledger := Machine.ledger_step (hreachable.announce s) hreliable s
        rw [Machine.files_announce] at hledger
      · have hnext := (m.announce s).files_step s
        have hreached := (hreachable.announce s).step s
        rw [hstep] at hledger hnext hreached
        rw [Machine.files_announce] at hnext
        have hlater := ih hreached fun n hn => by
          rw [← hdrive n]
          exact h (n + 1) (Nat.succ_le_succ hn)
        unfold handed actions written at hlater
        rw [hsteps, hdrive, List.flatMap_cons, List.flatMap_cons, Files.handedAll_append, ← hnext,
          Piece.through_append, List.append_assoc, hlater, ← List.append_assoc, hledger,
          List.append_assoc]
      · rw [hstep] at hledger
        rw [hsteps, hdrive]
        simpa using hledger

theorem files_finish (m : Machine) :
    (finish m).files = m.world.files.release m.met.handles := by
  have hswept : m.closeAllFiles.1.world.files = m.world.files.release m.met.handles :=
    m.world.files.files_sweep m.met.values
  unfold finish
  dsimp only
  split_ifs <;> split <;> exact hswept

-- The handles that are closed as a run ends, in that order: by the sweep, or after a crash as their
-- last copies go.
def closedAtEnd (m : Machine) : Outcome → List Handle
  | .crashed => Machine.lastCopies m.met.leaving
  | .unfinished => []
  | .finished | .failed _ => m.met.handles

theorem files_run (program : Program) (fuel : Nat) (world : World) :
    (program.run fuel world).1.files =
      (program.drive fuel (program.load world)).1.world.files.release
        (closedAtEnd (program.drive fuel (program.load world)).1
          (program.run fuel world).2) := by
  rw [run_eq]
  generalize program.drive fuel (program.load world) = driven
  obtain ⟨m, outcome⟩ := driven
  cases outcome with
  | crashed | unfinished => rfl
  | finished | failed => exact files_finish m

-- Every file in memory is closed, whichever way a run ends.
theorem mem_closedAtEnd {outcome : Outcome} (h : outcome ≠ .unfinished) {copy : Handle} :
    copy ∈ closedAtEnd m outcome ↔ copy ∈ m.memory.handles := by
  cases outcome with
  | unfinished => exact absurd rfl h
  | crashed =>
      rw [closedAtEnd, Machine.mem_lastCopies]
      exact Memory.mem_leaving_arranged
  | finished | failed => exact (Memory.Reordered.arranged _ _).handles_perm.symm.mem_iff

theorem held_drive (program : Program) (world : World) (fuel : Nat) :
    (program.drive fuel (program.load world)).1.Held world.files.channels.size := by
  refine drive_preserves _ (fun m s _ hm => Machine.held_step (hm.announce s) s) ?_ fuel
  intro handle hnew hopen
  have hclosed : world.files.isOpen handle = false :=
    Files.isOpen_eq_false_iff.mpr (Files.channel_of_not_given hnew)
  rw [show (program.load world).world = world from rfl, hclosed] at hopen
  cases hopen

-- Writing through a buffer is appending. The bytes that a handle has handed over are, at all times,
-- a beginning of the lines written through it, and all of them once it is closed. It is closed by a
-- CLOSE through any copy, when no copy of it is left, and at the end of a run, even of one that
-- crashes; and the files hold just what was handed over to them. The order in which the variables
-- of a scope are met is up to the world.
theorem buffered_writing_is_appending (program : Program) (world : World) (fuel : Nat)
    (handle : Handle) (hnew : world.files.channels.size ≤ handle.id)
    (hreliable : ∀ n ≤ fuel,
      (program.drive n (program.load world)).1.world.files.reliable handle = true) :
    let m := (program.drive fuel (program.load world)).1
    let pieces := program.handed fuel (program.load world)
    let all := pieces ++ m.world.files.sweptOut (closedAtEnd m (program.run fuel world).2)
    let lines := program.written fuel (program.load world) handle
    (Piece.through handle.id pieces <+: lines ∧
      (m.world.files.isOpen handle = false → Piece.through handle.id pieces = lines) ∧
      ∀ path, world.files.disk.keeps path = true →
        (m.world.files.disk.content path).toList =
          (world.files.disk.content path).toList ++ Piece.arrivals path pieces) ∧
    ((∀ s file copy, s.operation = .close → m.memory.evaluate (s.primary.getD .null) = .ok file →
        file.handle? = some copy → copy.id = handle.id →
        (m.memory.evaluateOperand s.secondary).isOk = true →
        (m.step s).1.world.files.isOpen handle = false) ∧
      ((∀ copy, m.memory.Holds copy → copy.id ≠ handle.id) →
        m.world.files.isOpen handle = false)) ∧
    ((program.run fuel world).2 ≠ .unfinished →
      (program.run fuel world).1.files.isOpen handle = false ∧
        Piece.through handle.id all = lines ∧
        ∀ path, world.files.disk.keeps path = true →
          ((program.run fuel world).1.files.disk.content path).toList =
            (world.files.disk.content path).toList ++ Piece.arrivals path all) := by
  intro m pieces all lines
  have hheld := program.held_drive world fuel
  have hgrown : world.files.disk.Grown pieces m.world.files.disk := by
    rw [show m.world.files = _ from program.files_drive fuel (program.load world)]
    exact Files.grown_actAll _ _
  have hledger : Piece.through handle.id pieces ++ m.world.files.pending handle = lines := by
    have hstart := Files.pending_of_not_given hnew
    have hrun := ledger_drive (.load program world) hreliable
    rwa [show (program.load world).world = world from rfl, hstart, List.nil_append] at hrun
  refine ⟨⟨⟨_, hledger⟩, fun hclosed => ?_, hgrown.content⟩, ⟨?_, fun hnone => ?_⟩,
    fun hended => ?_⟩
  · rw [← hledger, Files.pending_of_closed hclosed, List.append_nil]
  · intro s file copy hs hfile hcopy hid hother
    exact Machine.isOpen_of_close hs hfile hcopy hid hother
  · by_contra hopen
    obtain ⟨copy, hmem, hid⟩ := hheld handle hnew (by simpa using hopen)
    exact hnone copy (Memory.mem_handles_iff.mp hmem) hid
  · rw [files_run]
    have hclosed : (m.world.files.release (closedAtEnd m (program.run fuel world).2)).isOpen
        handle = false := by
      rw [Files.isOpen_release]
      cases hopen : m.world.files.isOpen handle with
      | false => exact Bool.and_false _
      | true =>
          obtain ⟨copy, hmem, hid⟩ := hheld handle hnew hopen
          have hids : handle.id ∈ (closedAtEnd m (program.run fuel world).2).map (·.id) :=
            List.mem_map.mpr ⟨copy, (mem_closedAtEnd hended).mpr hmem, hid⟩
          simp [hids]
    have hswept := Files.ledger_closes (hreliable fuel (Nat.le_refl _))
      (closedAtEnd m (program.run fuel world).2)
    rw [Files.pending_of_closed hclosed, List.append_nil] at hswept
    refine ⟨hclosed, ?_, (hgrown.trans (m.world.files.grown_release _)).content⟩
    rw [Piece.through_append, hswept]
    exact hledger

-- Two lines through two copies, one of which is lost on the way, in a run that fails.
theorem copies_write_one_file :
    ∃ program, (compile ("OPEN \"x\" AS WRITE f\nSET g TO (f, 0)\nWRITE 1 TO f\nSET f TO 0\n" ++
        "WRITE (2, 3) TO g@0\nERROR \"end\"")).toOption = some program ∧
      let handle : Handle := ⟨0, "x"⟩
      let m := (program.drive 7 (program.load .blank)).1
      World.blank.files.channels.size ≤ handle.id ∧
      (∀ n ≤ 7, (program.drive n (program.load .blank)).1.world.files.reliable handle = true) ∧
      (program.run 7 .blank).1.files.isOpen handle = false ∧
      Piece.through handle.id (program.handed 7 (program.load .blank) ++
          m.world.files.sweptOut (closedAtEnd m (program.run 7 .blank).2)) =
        (Text.encode "1\n( 2, 3 )\n").toList := by
  have hrun : (compile ("OPEN \"x\" AS WRITE f\nSET g TO (f, 0)\nWRITE 1 TO f\nSET f TO 0\n" ++
      "WRITE (2, 3) TO g@0\nERROR \"end\"")).toOption.any (fun program =>
        (List.range 8).all (fun n =>
          (program.drive n (program.load .blank)).1.world.files.reliable ⟨0, "x"⟩) &&
        (match (program.run 7 .blank).2 with
          | .failed _ => true
          | _ => false) &&
        program.written 7 (program.load .blank) ⟨0, "x"⟩ =
          (Text.encode "1\n( 2, 3 )\n").toList) = true := by
    decide +kernel
  obtain ⟨program, hprogram, hchecked⟩ := (Option.any_eq_true _ _).mp hrun
  simp only [Bool.and_eq_true, decide_eq_true_eq, List.all_eq_true, List.mem_range,
    Nat.lt_succ_iff] at hchecked
  obtain ⟨⟨hreliable, hfailed⟩, hwritten⟩ := hchecked
  split at hfailed
  · rename_i e houtcome
    obtain ⟨_, _, hends⟩ :=
      buffered_writing_is_appending program .blank 7 ⟨0, "x"⟩ (Nat.le_refl 0) hreliable
    obtain ⟨hclosed, hthrough, _⟩ := hends (by simp [houtcome])
    exact ⟨program, hprogram, Nat.le_refl 0, hreliable, hclosed, hthrough.trans hwritten⟩
  · cases hfailed

end Program

end LineScript

import LineScript.Proofs.Machine.ControlFlow
import LineScript.Proofs.Machine.Operands

namespace LineScript

namespace Machine

theorem own_announce (m : Machine) (s : Statement) : (m.announce s).own = m.own := by
  unfold announce
  split <;> rfl

theorem Reachable.announce {m : Machine} (h : m.Reachable) (s : Statement) :
    (m.announce s).Reachable := by
  unfold Machine.announce
  split
  · exact h.outside m.world.console _
  · exact h

end Machine

namespace Program

variable {program : Program} {start m next last : Machine} {s : Statement} {n : Nat}

-- A step of a run that succeeds.
structure Succeeds (program : Program) (m : Machine) (s : Statement) (next : Machine) : Prop where
  running : m.running = true
  statement : program.statements[m.ip]? = some s
  step : (m.announce s).step s = (next, .ok ())

-- What a run is at after `n` steps, all of which succeed.
inductive Reaches (program : Program) (start : Machine) : Nat → Machine → Prop where
  | start : Reaches program start 0 start
  | step {n : Nat} {m next : Machine} {s : Statement} (h : Reaches program start n m)
      (hstep : program.Succeeds m s next) : Reaches program start (n + 1) next

theorem exists_succeeds_of_running (h : program.advance m = .running next) :
    ∃ s, program.Succeeds m s next := by
  rcases program.advance_cases m with hended | ⟨s, hrunning, hs, hresult⟩
  · rw [hended] at h
    cases h
  · rw [hresult] at h
    unfold Progression.ofResult at h
    split at h
    · rename_i hstep
      cases h
      exact ⟨s, hrunning, hs, hstep⟩
    · cases h
    · cases h

theorem Reaches.head (hstep : program.Succeeds m s next) (h : program.Reaches next n last) :
    program.Reaches m (n + 1) last := by
  induction h with
  | start => exact .step .start hstep
  | step _ hlater ih => exact .step ih hlater

-- A run makes all the steps it may, or stops where one of them is not to be made.
theorem reaches_of_drive {fuel : Nat} {outcome : Outcome}
    (h : program.drive fuel m = (last, outcome)) :
    (outcome = .unfinished ∧ program.Reaches m fuel last) ∨
      ∃ n mid, program.Reaches m n mid ∧ program.advance mid = .stopped last outcome := by
  induction fuel generalizing m with
  | zero =>
      cases h
      exact .inl ⟨rfl, .start⟩
  | succ fuel ih =>
      cases hadvance : program.advance m with
      | running next =>
          obtain ⟨s, hstep⟩ := exists_succeeds_of_running hadvance
          rw [drive_of_running hadvance] at h
          rcases ih h with ⟨houtcome, hreaches⟩ | ⟨n, mid, hreaches, hstopped⟩
          · exact .inl ⟨houtcome, hreaches.head hstep⟩
          · exact .inr ⟨n + 1, mid, hreaches.head hstep, hstopped⟩
      | stopped _ _ =>
          rw [drive_of_stopped hadvance] at h
          cases h
          exact .inr ⟨0, m, .start, hadvance⟩

theorem reaches_of_unfinished (h : (program.drive n m).2 = .unfinished) :
    program.Reaches m n (program.drive n m).1 := by
  rcases reaches_of_drive (Prod.eta (program.drive n m)).symm with
    ⟨_, hreaches⟩ | ⟨_, _, _, hstopped⟩
  · exact hreaches
  · exact absurd h (outcome_of_stopped hstopped)

theorem Reaches.reachable (h : program.Reaches start n m) (hstart : start.Reachable) :
    m.Reachable := by
  induction h with
  | start => exact hstart
  | @step n m next s _ hstep ih =>
      have hnext := (ih.announce s).step s
      rw [hstep.step] at hnext
      exact hnext

-- Where a step of a run leads. Writing the trace does not change what the statement finds.
theorem Succeeds.control (h : program.Succeeds m s next) (hjump : m.jump = none) :
    (m.Taken s → ∃ target : Int64,
      m.memory.evaluate (s.primary.getD .null) = .ok (.integer target) ∧
        0 ≤ target.toInt ∧ target.toInt ≤ Int32.maxValue.toInt ∧ (next.ip : Int) = target.toInt) ∧
    (¬m.Taken s → next.ip = m.ip + 1) ∧ (next.running = false ↔ s.operation = .exit) := by
  obtain ⟨hmemory, hip, hpending, hrunning⟩ := Machine.Own.mk.inj (m.own_announce s)
  have hcontrol := Machine.step_control (hpending.trans hjump) (hrunning.trans h.running) h.step
  unfold Machine.Taken at hcontrol ⊢
  rwa [hmemory, hip] at hcontrol

-- Without a GOTO the steps are those of the statements in their order.
theorem Reaches.ip_eq {world : World} (hgoto : ∀ s ∈ program.statements, s.operation ≠ .goto)
    (h : program.Reaches (program.load world) n m) :
    m.ip = n ∧ n ≤ program.statements.size := by
  induction h with
  | start => exact ⟨rfl, Nat.zero_le _⟩
  | @step n m next s hreaches hstep ih =>
      have hjump := (hreaches.reachable (.load program world)).jump_eq_none
      have hnot : ¬m.Taken s := fun htaken =>
        hgoto s (Array.mem_of_getElem? hstep.statement) htaken.1
      have hnext := (hstep.control hjump).2.1 hnot
      obtain ⟨hlt, _⟩ := Array.getElem?_eq_some_iff.mp hstep.statement
      exact ⟨by omega, by omega⟩

-- Between two steps of a run no jump is pending. So a step leads to the target of its GOTO, if
-- the condition holds, and else to the next statement; and only EXIT stops the machine. A program
-- without a GOTO goes through its statements once.
theorem run_control_flow (program : Program) (world : World) :
    (∀ n m, program.Reaches (program.load world) n m →
      m.jump = none ∧
      ∀ s next, program.Succeeds m s next →
        (m.Taken s → ∃ target : Int64,
          m.memory.evaluate (s.primary.getD .null) = .ok (.integer target) ∧
            0 ≤ target.toInt ∧ target.toInt ≤ Int32.maxValue.toInt ∧
            (next.ip : Int) = target.toInt) ∧
        (¬m.Taken s → next.ip = m.ip + 1) ∧ (next.running = false ↔ s.operation = .exit)) ∧
    ((∀ s ∈ program.statements, s.operation ≠ .goto) →
      (∀ n m, program.Reaches (program.load world) n m →
        m.ip = n ∧ n ≤ program.statements.size) ∧
      ∀ fuel, program.statements.size < fuel → (program.run fuel world).2 ≠ .unfinished) := by
  constructor
  · intro n m hreaches
    have hjump := (hreaches.reachable (.load program world)).jump_eq_none
    exact ⟨hjump, fun s next hstep => hstep.control hjump⟩
  · intro hgoto
    refine ⟨fun n m hreaches => hreaches.ip_eq hgoto, ?_⟩
    intro fuel hfuel hunfinished
    rw [run_outcome] at hunfinished
    have hle := ((reaches_of_unfinished hunfinished).ip_eq hgoto).2
    omega

-- A label that is jumped back to for ever.
def endlessLoop : Program where
  statements := #[
    .null "",
    ⟨.label, some ⟨.name, "top"⟩, none, "^top:"⟩,
    ⟨.goto, some ⟨.name, "top"⟩, some ⟨.number, "1"⟩, "GOTO top IF 1"⟩]
  labels := [("top", 1)]

theorem endless_loop_goes_back :
    (∃ m s next, endlessLoop.Reaches (endlessLoop.load .blank) 2 m ∧
      endlessLoop.Succeeds m s next ∧ m.Taken s ∧ m.jump = none ∧
      ∃ target : Int64, m.memory.evaluate (s.primary.getD .null) = .ok (.integer target) ∧
        (next.ip : Int) = target.toInt) ∧
    ∃ program, compile "PRINT 1\nEXIT" = .ok program ∧
      (∀ s ∈ program.statements, s.operation ≠ .goto) ∧
      (program.run 4 .blank).2 ≠ .unfinished := by
  have hunfinished (n : Nat) (h : (match (endlessLoop.drive n (endlessLoop.load .blank)).2 with
      | .unfinished => true
      | _ => false) = true) : (endlessLoop.drive n (endlessLoop.load .blank)).2 = .unfinished := by
    split at h
    · assumption
    · cases h
  have htwo := hunfinished 2 (by decide +kernel)
  have hthree := hunfinished 3 (by decide +kernel)
  have hip : (endlessLoop.drive 2 (endlessLoop.load .blank)).1.ip = 2 := by
    decide +kernel
  have hstraight : (match compile "PRINT 1\nEXIT" with
      | .ok program =>
          program.statements.size == 3 &&
            program.statements.all fun s => decide (s.operation ≠ .goto)
      | .error _ => false) = true := by
    decide +kernel
  constructor
  · have hreaches := reaches_of_unfinished htwo
    obtain ⟨s, hstep⟩ := exists_succeeds_of_running (running_of_drive hthree)
    have hs := hstep.statement
    rw [hip] at hs
    cases hs
    obtain ⟨hjump, hcontrol⟩ := (run_control_flow endlessLoop .blank).1 _ _ hreaches
    generalize (endlessLoop.drive 2 (endlessLoop.load .blank)).1 = m
      at hreaches hstep hjump hcontrol
    have htaken : m.Taken ⟨.goto, some ⟨.name, "top"⟩, some ⟨.number, "1"⟩, "GOTO top IF 1"⟩ := by
      refine ⟨rfl, .integer 1, ?_, by decide⟩
      change m.memory.evaluate ⟨.number, "1"⟩ = _
      rw [Memory.evaluate]
      rfl
    obtain ⟨target, htarget, _, _, hnext⟩ := (hcontrol _ _ hstep).1 htaken
    exact ⟨m, _, _, hreaches, hstep, htaken, hjump, target, htarget, hnext⟩
  · split at hstraight
    · rename_i program hcompile
      simp only [Bool.and_eq_true, beq_iff_eq, Array.all_eq_true', decide_eq_true_eq] at hstraight
      obtain ⟨hsize, hgoto⟩ := hstraight
      refine ⟨program, hcompile, hgoto, ?_⟩
      exact ((run_control_flow program .blank).2 hgoto).2 4 (by rw [hsize]; decide)
    · cases hstraight

end Program

end LineScript

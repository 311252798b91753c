import LineScript.Proofs.Program.Drive

namespace LineScript.Program

-- The statements of a run, each with the machine that finds it. The last one may fail.
def steps (program : Program) : Nat → Machine → List (Machine × Statement)
  | 0, _ => []
  | fuel + 1, m =>
      match program.statements[m.ip]?, m.running with
      | some s, true =>
          (m.announce s, s) ::
            match (m.announce s).step s with
            | (next, .ok ()) => program.steps fuel next
            | _ => []
      | _, _ => []

-- A run is over before a step, goes on after it, or ends with it.
theorem steps_cases (program : Program) (fuel : Nat) (m : Machine) :
    (program.steps (fuel + 1) m = [] ∧ program.drive (fuel + 1) m = (m, .finished)) ∨
      ∃ s,
        (∃ next, (m.announce s).step s = (next, .ok ()) ∧
          program.steps (fuel + 1) m = (m.announce s, s) :: program.steps fuel next ∧
          ∀ n, program.drive (n + 1) m = program.drive n next) ∨
        ∃ last fault outcome, (m.announce s).step s = (last, .error fault) ∧
          program.steps (fuel + 1) m = [(m.announce s, s)] ∧
          Progression.ofResult s (last, .error fault) = .stopped last outcome ∧
          program.drive (fuel + 1) m = (last, outcome) := by
  rw [steps]
  cases hs : program.statements[m.ip]? with
  | none => exact .inl ⟨rfl, drive_of_stopped (advance_of_ended (.inr hs)) fuel⟩
  | some s =>
      cases hrunning : m.running with
      | false => exact .inl ⟨rfl, drive_of_stopped (advance_of_ended (.inl hrunning)) fuel⟩
      | true =>
          have hadvance := advance_of_statement hrunning hs
          refine .inr ⟨s, ?_⟩
          dsimp only
          generalize (m.announce s).step s = result at hadvance ⊢
          obtain ⟨next, outcome⟩ := result
          cases outcome with
          | ok _ => exact .inl ⟨next, rfl, rfl, drive_of_running hadvance⟩
          | error fault =>
              refine .inr ⟨next, fault, ?_⟩
              cases fault with
              | error e => exact ⟨_, rfl, rfl, rfl, drive_of_stopped hadvance fuel⟩
              | crash => exact ⟨_, rfl, rfl, rfl, drive_of_stopped hadvance fuel⟩

-- What every statement that a run executes preserves, the run preserves.
theorem steps_preserve {program : Program} {fuel : Nat} {m : Machine} (inv : Machine → Prop)
    (hannounce : ∀ (m : Machine) (s : Statement), inv m → inv (m.announce s))
    (hstep : ∀ step ∈ program.steps fuel m, inv step.1 → inv (step.1.step step.2).1)
    (h : inv m) : inv (program.drive fuel m).1 := by
  induction fuel generalizing m with
  | zero => exact h
  | succ fuel ih =>
      rcases program.steps_cases fuel m with ⟨_, hdrive⟩ |
        ⟨s, ⟨next, hnext, hsteps, hdrive⟩ | ⟨last, fault, outcome, hlast, hsteps, _, hdrive⟩⟩
      · rw [hdrive]
        exact h
      · rw [hsteps] at hstep
        obtain ⟨hfirst, hrest⟩ := List.forall_mem_cons.mp hstep
        have hinv := hfirst (hannounce m s h)
        rw [hnext] at hinv
        rw [hdrive]
        exact ih hrest hinv
      · rw [hsteps] at hstep
        have hinv := hstep _ List.mem_cons_self (hannounce m s h)
        rw [hlast] at hinv
        rw [hdrive]
        exact hinv

end LineScript.Program

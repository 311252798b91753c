import LineScript.Run
import LineScript.Proofs.Machine.Effect

namespace LineScript

-- Nothing to read, no files and no log.
def World.blank : World where
  console := .ofInput #[]
  files := .ofDisk .empty
  random := ⟨0⟩
  log := .upTo none

-- What a program makes of a step.
def Progression.ofResult (s : Statement) : Machine.Result → Progression
  | (next, .ok ()) => .running next
  | (failed, .error (.error e)) =>
      .stopped failed (.failed (.runtime failed.ip s e (e.message failed.world.opened)))
  | (crashed, .error .crash) => .stopped crashed .crashed

namespace Program

variable {program : Program} {m next last : Machine} {outcome : Outcome}

-- What a run leaves behind. It is tidied up unless it has crashed or was cut short.
def remains (m : Machine) : Outcome → World
  | .crashed => wreck m
  | .unfinished => m.world
  | _ => finish m

-- At the end nothing is lent out, so every file can be borrowed to be closed.
theorem run_eq (program : Program) (fuel : Nat) (world : World) :
    program.run fuel world =
      (remains (program.drive fuel (program.load world)).1
        (program.drive fuel (program.load world)).2,
        (program.drive fuel (program.load world)).2) := by
  unfold run
  generalize program.drive fuel (program.load world) = driven
  obtain ⟨m, outcome⟩ := driven
  cases outcome with
  | crashed | unfinished => rfl
  | finished | failed => simp [ending, remains]

theorem run_outcome (program : Program) (fuel : Nat) (world : World) :
    (program.run fuel world).2 = (program.drive fuel (program.load world)).2 := by
  rw [run_eq]

theorem advance_of_ended (h : m.running = false ∨ program.statements[m.ip]? = none) :
    program.advance m = .stopped m .finished := by
  unfold advance
  rcases h with hrunning | hstatement
  · rw [if_pos (by simp [hrunning])]
  · split_ifs
    · rfl
    · rw [hstatement]

theorem advance_of_statement {s : Statement} (hrunning : m.running = true)
    (hs : program.statements[m.ip]? = some s) :
    program.advance m = .ofResult s ((m.announce s).step s) := by
  unfold advance
  rw [if_neg (by simp [hrunning]), hs]
  rfl

theorem advance_cases (program : Program) (m : Machine) :
    program.advance m = .stopped m .finished ∨
      ∃ s, m.running = true ∧ program.statements[m.ip]? = some s ∧
        program.advance m = .ofResult s ((m.announce s).step s) := by
  cases hrunning : m.running with
  | false => exact .inl (advance_of_ended (.inl hrunning))
  | true =>
      cases hs : program.statements[m.ip]? with
      | none => exact .inl (advance_of_ended (.inr hs))
      | some s => exact .inr ⟨s, rfl, rfl, advance_of_statement hrunning hs⟩

theorem effect_announce {s : Statement} {result : Machine.Result}
    (h : (m.announce s).Effect s result) : m.Effect s result := by
  unfold Machine.announce at h
  split at h
  · cases h with
    | opened hs hmemory hcount => exact .opened hs hmemory hcount
    | closed hs hmemory hcount => exact .closed hs hmemory hcount
    | kept hkept hs => exact .kept ⟨hkept.parents, hkept.bound, hkept.count, hkept.current⟩ hs
  · exact h

theorem effect_of_running (h : program.advance m = .running next) :
    ∃ s, program.statements[m.ip]? = some s ∧ m.Effect s (next, .ok ()) := by
  rcases program.advance_cases m with hended | ⟨s, _, hs, hresult⟩
  · rw [hended] at h
    cases h
  · have heffect := effect_announce ((m.announce s).effect_step s)
    rw [hresult] at h
    unfold Progression.ofResult at h
    split at h
    · rename_i hstep
      cases h
      rw [hstep] at heffect
      exact ⟨s, hs, heffect⟩
    · cases h
    · cases h

-- A run stops by itself or with a statement that fails.
theorem step_of_stopped (h : program.advance m = .stopped last outcome) :
    last = m ∧ outcome = .finished ∨
      ∃ s fault, program.statements[m.ip]? = some s ∧
        (m.announce s).step s = (last, .error fault) ∧
        Progression.ofResult s (last, .error fault) = .stopped last outcome := by
  rcases program.advance_cases m with hended | ⟨s, _, hs, hresult⟩
  · rw [hended] at h
    cases h
    exact .inl ⟨rfl, rfl⟩
  · rw [hresult] at h
    generalize hstep : (m.announce s).step s = result at h
    obtain ⟨next, result⟩ := result
    cases result with
    | ok _ => cases h
    | error fault =>
        have hlast : next = last := by
          cases fault <;> cases h <;> rfl
        subst hlast
        exact .inr ⟨s, fault, hs, hstep, h⟩

theorem effect_of_stopped (h : program.advance m = .stopped last outcome) :
    last = m ∨ ∃ s fault, m.Effect s (last, .error fault) := by
  rcases step_of_stopped h with ⟨rfl, _⟩ | ⟨s, fault, _, hstep, _⟩
  · exact .inl rfl
  · have heffect := effect_announce ((m.announce s).effect_step s)
    rw [hstep] at heffect
    exact .inr ⟨s, fault, heffect⟩

theorem outcome_of_stopped (h : program.advance m = .stopped last outcome) :
    outcome ≠ .unfinished := by
  rcases step_of_stopped h with ⟨_, rfl⟩ | ⟨s, fault, _, _, hresult⟩
  · nofun
  · cases fault <;> cases hresult <;> nofun

theorem drive_of_running (h : program.advance m = .running next) (fuel : Nat) :
    program.drive (fuel + 1) m = program.drive fuel next := by
  rw [drive, h]

theorem drive_of_stopped (h : program.advance m = .stopped last outcome) (fuel : Nat) :
    program.drive (fuel + 1) m = (last, outcome) := by
  rw [drive, h]

theorem drive_one {s : Statement} (hrunning : m.running = true)
    (hs : program.statements[m.ip]? = some s) :
    (program.drive 1 m).1 = ((m.announce s).step s).1 := by
  rw [drive, advance_of_statement hrunning hs]
  generalize (m.announce s).step s = result
  obtain ⟨next, outcome⟩ := result
  cases outcome with
  | ok _ => rfl
  | error fault => cases fault <;> rfl

-- A run that is not over made every one of its steps: the first one,
theorem exists_running_of_drive {n : Nat} (h : (program.drive (n + 1) m).2 = .unfinished) :
    ∃ next, program.advance m = .running next := by
  cases hadvance : program.advance m with
  | running next => exact ⟨next, rfl⟩
  | stopped last outcome =>
      rw [drive_of_stopped hadvance] at h
      exact absurd h (outcome_of_stopped hadvance)

-- and the last one, from where it stood before.
theorem running_of_drive {n : Nat} (h : (program.drive (n + 1) m).2 = .unfinished) :
    program.advance (program.drive n m).1 = .running (program.drive (n + 1) m).1 := by
  induction n generalizing m with
  | zero =>
      obtain ⟨next, hadvance⟩ := exists_running_of_drive h
      rw [drive_of_running hadvance]
      exact hadvance
  | succ n ih =>
      obtain ⟨next, hadvance⟩ := exists_running_of_drive h
      rw [drive_of_running hadvance] at h ⊢
      rw [drive_of_running hadvance]
      exact ih h

-- What every statement of a program preserves, the program preserves.
theorem drive_preserves (inv : Machine → Prop)
    (hstep : ∀ (m : Machine), ∀ s ∈ program.statements, inv m → inv ((m.announce s).step s).1)
    (h : inv m) (n : Nat) : inv (program.drive n m).1 := by
  induction n generalizing m with
  | zero => exact h
  | succ n ih =>
      rcases program.advance_cases m with hended | ⟨s, _, hs, hresult⟩
      · rw [drive_of_stopped hended]
        exact h
      · have hnext := hstep m s (Array.mem_of_getElem? hs) h
        generalize (m.announce s).step s = result at hresult hnext
        obtain ⟨next, outcome⟩ := result
        cases outcome with
        | ok _ =>
            rw [drive_of_running hresult]
            exact ih hnext
        | error fault =>
            cases fault with
            | error e =>
                rw [drive_of_stopped hresult]
                exact hnext
            | crash =>
                rw [drive_of_stopped hresult]
                exact hnext

-- A program starts in its root scope, with numbers for its labels and no files.
theorem load_memory (program : Program) (world : World) :
    (program.load world).memory.parents = [] ∧
      ∀ allowed, (program.load world).memory.current.Within allowed := by
  have hlabels (labels : List (String × Nat)) (memory : Memory) (hparents : memory.parents = [])
      (hcurrent : ∀ allowed, memory.current.Within allowed) :
      (labels.foldl (fun memory label => memory.bindLabel label.1 label.2) memory).parents = [] ∧
        ∀ allowed, (labels.foldl (fun memory label => memory.bindLabel label.1 label.2)
          memory).current.Within allowed := by
    induction labels generalizing memory with
    | nil => exact ⟨hparents, hcurrent⟩
    | cons label rest ih =>
        rw [List.foldl_cons, Memory.bindLabel_of_root hparents]
        refine ih _ hparents fun allowed => ?_
        exact (hcurrent allowed).insert _ (Value.within_integer _)
  exact hlabels program.labels .fresh rfl fun allowed => Scope.within_fresh

theorem depth_load (program : Program) (world : World) :
    (program.load world).memory.depth = 1 := by
  rw [Memory.depth, (program.load_memory world).1]
  rfl

end Program

end LineScript

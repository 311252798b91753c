import LineScript.Proofs.Program.Drive
import LineScript.Proofs.Program.Operands

namespace LineScript

namespace Memory

theorem openScope_parents (memory : Memory) :
    memory.openScope.parents = memory.current :: memory.parents := rfl

theorem depth_openScope (memory : Memory) : memory.openScope.depth = memory.depth + 1 := rfl

theorem depth_of_closeScope {memory next : Memory} (h : memory.closeScope = .ok next) :
    next.depth + 1 = memory.depth := by
  obtain ⟨parent, others, hparents, rfl⟩ := closeScope_eq_ok h
  simp [depth, hparents]

end Memory

namespace Machine

variable {m next : Machine} {s : Statement} {outcome : Except Fault Unit}

-- The scopes of `base` lie below the current one, and `return` is bound there.
structure Above (base : List Scope) (m : Machine) : Prop where
  base : base <:+ m.memory.parents
  returned : (m.memory.current.get? Scope.returned).isSome

theorem Effect.above {base : List Scope} (h : m.Effect s (next, outcome)) (hm : m.Above base)
    (hdepth : base.length < next.memory.depth) : next.Above base := by
  cases h with
  | opened _ hmemory _ =>
      constructor
      · rw [hmemory, Memory.openScope_parents]
        exact hm.base.trans (List.suffix_cons _ _)
      · rw [hmemory]
        exact Scope.isSome_get?_insert rfl _ _
  | closed _ hmemory _ =>
      obtain ⟨parent, others, hparents, hnext⟩ := Memory.closeScope_eq_ok hmemory
      have hsuffix := hm.base
      rw [hnext] at hdepth
      rw [hparents, List.suffix_cons_iff] at hsuffix
      constructor
      · rw [hnext]
        rcases hsuffix with rfl | hsuffix
        · simp [Memory.depth] at hdepth
        · exact hsuffix
      · rw [hnext, Scope.get?_insert, if_pos rfl]
        rfl
  | kept hkept _ =>
      constructor
      · rw [hkept.parents]
        exact hm.base
      · exact hkept.bound _ hm.returned

theorem Effect.depth_of_ok (h : m.Effect s (next, .ok ())) :
    next.memory.depth + [s.operation].count .scopeClose =
      m.memory.depth + [s.operation].count .scopeOpen := by
  cases h with
  | opened hs hmemory _ => simp [hs, hmemory, Memory.depth_openScope]
  | closed hs hmemory _ => simp [hs, Memory.depth_of_closeScope hmemory]
  | kept hkept hs =>
      obtain ⟨hopen, hclose⟩ := hs rfl
      simp [hopen, hclose, Memory.depth, hkept.parents]

theorem Effect.depth_of_error {fault : Fault} (h : m.Effect s (next, .error fault)) :
    next.memory.depth = m.memory.depth := by
  cases h with
  | kept hkept _ => simp [Memory.depth, hkept.parents]

-- Without operands nothing can fail before the scope is closed.
theorem step_scopeClose (m : Machine) (hs : s.operation = .scopeClose) (hprimary : s.primary = none)
    (hsecondary : s.secondary = none) :
    (m.step s).2 = if m.memory.depth = 1 then .error (.error .finalScope) else .ok () := by
  have hperform : (m.perform s .null .null .null).2 =
      if m.memory.depth = 1 then .error (.error .finalScope) else .ok () := by
    obtain ⟨⟨current, parents⟩, ip, jump, running, world⟩ := m
    rw [perform_of_operation hs]
    cases parents with
    | nil => rfl
    | cons parent others => rfl
  rw [← hperform]
  unfold step
  rw [execute_of_no_operands m hprimary hsecondary]
  split
  · rename_i hok
    exact (congrArg Prod.snd hok).symm
  · rfl

end Machine

namespace Program

variable {program : Program}

-- The operations that succeed within some number of steps.
def succeeded (program : Program) : Nat → Machine → List Operation
  | 0, _ => []
  | fuel + 1, m =>
      match program.advance m with
      | .running next =>
          (program.statements[m.ip]?.map (·.operation)).toList ++ program.succeeded fuel next
      | .stopped .. => []

theorem depth_drive (program : Program) (n : Nat) (m : Machine) :
    (program.drive n m).1.memory.depth + (program.succeeded n m).count .scopeClose =
      m.memory.depth + (program.succeeded n m).count .scopeOpen := by
  induction n generalizing m with
  | zero => rfl
  | succ n ih =>
      cases hadvance : program.advance m with
      | running next =>
          obtain ⟨s, hs, heffect⟩ := effect_of_running hadvance
          have hstep := heffect.depth_of_ok
          have hrest := ih next
          rw [drive_of_running hadvance, succeeded, hadvance, hs]
          simp only [Option.map_some, Option.toList_some, List.count_append]
          omega
      | stopped last outcome =>
          rw [drive_of_stopped hadvance, succeeded, hadvance]
          rcases effect_of_stopped hadvance with rfl | ⟨s, fault, heffect⟩
          · rfl
          · exact heffect.depth_of_error

-- The scopes below stay as they are for as long as the run stays above them.
theorem above_drive {base : List Scope} {n : Nat} {m : Machine} (h : m.Above base)
    (hdepth : ∀ k ≤ n, base.length < (program.drive k m).1.memory.depth) :
    (program.drive n m).1.Above base := by
  induction n generalizing m with
  | zero => exact h
  | succ n ih =>
      have hfirst := hdepth 1 (by omega)
      cases hadvance : program.advance m with
      | running next =>
          rw [drive_of_running hadvance] at hfirst ⊢
          obtain ⟨s, _, heffect⟩ := effect_of_running hadvance
          refine ih (heffect.above h hfirst) fun k hk => ?_
          rw [← drive_of_running hadvance]
          exact hdepth (k + 1) (by omega)
      | stopped last outcome =>
          rw [drive_of_stopped hadvance] at hfirst ⊢
          rcases effect_of_stopped hadvance with rfl | ⟨s, fault, heffect⟩
          · exact h
          · exact heffect.above h hfirst

-- A run of `n + 1` steps that opens a scope with the first, stays within it, and closes it with
-- the last.
structure Visit (program : Program) (m : Machine) (n : Nat) : Prop where
  opens : program.statements[m.ip]?.map (·.operation) = some .scopeOpen
  within : ∀ k, 1 ≤ k → k ≤ n → m.memory.depth < (program.drive k m).1.memory.depth
  closes : program.statements[(program.drive n m).1.ip]?.map (·.operation) = some .scopeClose
  back : (program.drive (n + 1) m).1.memory.depth = m.memory.depth
  succeeds : (program.drive (n + 1) m).2 = .unfinished

-- What the run comes back to is what it left, but for `return`.
theorem Visit.memory_eq {m : Machine} {n : Nat} (h : program.Visit m n) :
    ∃ returned, (program.drive n m).1.memory.current.get? Scope.returned = some returned ∧
      (program.drive (n + 1) m).1.memory =
        ⟨m.memory.current.insert Scope.returned returned, m.memory.parents⟩ := by
  obtain ⟨first, hfirst, hopen⟩ := Option.map_eq_some_iff.mp h.opens
  obtain ⟨final, hfinal, hclose⟩ := Option.map_eq_some_iff.mp h.closes
  have hpos : n ≠ 0 := by
    rintro rfl
    rw [drive, hfirst] at hfinal
    cases hfinal
    rw [hopen] at hclose
    cases hclose
  obtain ⟨k, rfl⟩ := Nat.exists_eq_succ_of_ne_zero hpos
  -- The first step puts the scopes there are below a new one,
  obtain ⟨opened, hadvance⟩ := exists_running_of_drive h.succeeds
  have hopened : opened.Above (m.memory.current :: m.memory.parents) := by
    obtain ⟨s, hs, heffect⟩ := effect_of_running hadvance
    cases hs.symm.trans hfirst
    have hmemory := heffect.memory_of_scopeOpen hopen
    constructor
    · rw [hmemory]
      exact List.suffix_refl _
    · rw [hmemory]
      exact Scope.isSome_get?_insert rfl _ _
  -- where they still are when the last step closes it.
  have habove : (program.drive (k + 1) m).1.Above (m.memory.current :: m.memory.parents) := by
    rw [drive_of_running hadvance]
    refine above_drive hopened fun j hj => ?_
    rw [← drive_of_running hadvance]
    exact h.within (j + 1) (by omega) (by omega)
  obtain ⟨s, hs, heffect⟩ := effect_of_running (running_of_drive h.succeeds)
  cases hs.symm.trans hfinal
  obtain ⟨parent, others, hparents, hmemory⟩ :=
    Memory.closeScope_eq_ok (heffect.memory_of_scopeClose hclose)
  obtain ⟨returned, hreturned⟩ := Option.isSome_iff_exists.mp habove.returned
  have hback := h.back
  have hsuffix := habove.base
  rw [hmemory] at hback
  rw [hparents] at hsuffix
  have hlength : (m.memory.current :: m.memory.parents).length = (parent :: others).length :=
    hback.symm
  cases hsuffix.eq_of_length hlength
  refine ⟨returned, hreturned, ?_⟩
  rw [hmemory, hreturned]
  rfl

-- A scope that is closed hands back `return` and nothing else; only the root scope cannot be
-- closed; and the depth is the balance of the scopes opened and closed.
theorem closed_scope_hands_back_return :
    (∀ (program : Program) (m : Machine) (n : Nat), program.Visit m n →
      ∃ returned, (program.drive n m).1.memory.current.get? Scope.returned = some returned ∧
        (program.drive (n + 1) m).1.memory.parents = m.memory.parents ∧
        ∀ key, (program.drive (n + 1) m).1.memory.current.get? key =
          if key = Scope.returned then some returned else m.memory.current.get? key) ∧
    (∀ (source : String) (program : Program), Program.compile source = .ok program →
      ∀ s ∈ program.statements, s.operation = .scopeClose → ∀ m : Machine,
        (m.step s).2 = if m.memory.depth = 1 then .error (.error .finalScope) else .ok ()) ∧
    ∀ (program : Program) (world : World) (n : Nat),
      (program.drive n (program.load world)).1.memory.depth +
          (program.succeeded n (program.load world)).count .scopeClose =
        1 + (program.succeeded n (program.load world)).count .scopeOpen := by
  refine ⟨?_, ?_, ?_⟩
  · intro program m n hvisit
    obtain ⟨returned, hreturned, hmemory⟩ := hvisit.memory_eq
    refine ⟨returned, hreturned, ?_, ?_⟩
    · rw [hmemory]
    · intro key
      rw [hmemory, Scope.get?_insert]
  · intro source program hcompile s hs hclose m
    obtain ⟨hprimary, hsecondary⟩ := no_operands_of_compile hcompile hs (.inr hclose)
    exact m.step_scopeClose hclose hprimary hsecondary
  · intro program world n
    rw [depth_drive, depth_load]

-- A scope within a scope, which returns to it first.
def nestedScopes : Program where
  statements := #[
    ⟨.scopeOpen, none, none, "SCOPE OPEN"⟩,
    ⟨.scopeOpen, none, none, "SCOPE OPEN"⟩,
    ⟨.set, some ⟨.name, "return"⟩, some ⟨.number, "2"⟩, "SET return TO 2"⟩,
    ⟨.scopeClose, none, none, "SCOPE CLOSE"⟩,
    ⟨.add, some ⟨.name, "return"⟩, some ⟨.number, "3"⟩, "ADD 3 TO return"⟩,
    ⟨.scopeClose, none, none, "SCOPE CLOSE"⟩]
  labels := [("end", 6)]

theorem closed_scope_hands_back_sum :
    nestedScopes.Visit (nestedScopes.load .blank) 5 ∧
    (nestedScopes.drive 6 (nestedScopes.load .blank)).1.memory.current.get? "end" =
      (nestedScopes.load .blank).memory.current.get? "end" ∧
    ∃ program, Program.compile "SCOPE CLOSE" = .ok program ∧
      ∀ s ∈ program.statements, s.operation = .scopeClose →
        ((program.load .blank).step s).2 = .error (.error .finalScope) := by
  have hvisit : nestedScopes.Visit (nestedScopes.load .blank) 5 := by
    have hwithin : ∀ k ≤ 5, 1 ≤ k → (nestedScopes.load .blank).memory.depth <
        (nestedScopes.drive k (nestedScopes.load .blank)).1.memory.depth := by
      decide +kernel
    refine ⟨by decide +kernel, fun k hpos hk => hwithin k hk hpos, by decide +kernel,
      by decide +kernel, ?_⟩
    have hrun : (match (nestedScopes.drive 6 (nestedScopes.load .blank)).2 with
        | .unfinished => true
        | _ => false) = true := by
      decide +kernel
    split at hrun
    · assumption
    · cases hrun
  have hcompile : (Program.compile "SCOPE CLOSE").isOk = true := by
    decide +kernel
  refine ⟨hvisit, ?_, ?_⟩
  · obtain ⟨_, _, _, hkeys⟩ := closed_scope_hands_back_return.1 _ _ _ hvisit
    exact hkeys "end"
  · cases hprogram : Program.compile "SCOPE CLOSE" with
    | error e => simp [hprogram, Except.isOk, Except.toBool] at hcompile
    | ok program =>
        refine ⟨program, rfl, fun s hs hclose => ?_⟩
        rw [closed_scope_hands_back_return.2.1 _ program hprogram s hs hclose, depth_load]
        rfl

end Program

end LineScript

import LineScript.Proofs.Machine.Twin
import LineScript.Proofs.Program.ScopeReturn

namespace LineScript

namespace Program

variable {source : String} {program : Program} {one other : List Scope}
  {inner first second : Machine}

-- A scope that is closed without leaving those on top is not the last of them.
theorem parents_ne_nil_of_close (hcompile : Program.compile source = .ok program) {s : Statement}
    (hs : s ∈ program.statements) (hclose : s.operation = .scopeClose) (hone : one ≠ [])
    (hmemory : first.memory = inner.memory.onto one)
    (hdepth : one.length < (first.step s).1.memory.depth) : inner.memory.parents ≠ [] := by
  intro hnil
  obtain ⟨hprimary, hsecondary⟩ := no_operands_of_compile hcompile hs (.inr hclose)
  have hlength := List.length_pos_iff.mpr hone
  have hbefore : first.memory.depth = one.length + 1 := by
    rw [hmemory, Memory.depth_onto, Memory.depth, hnil, List.length_nil]
    omega
  have houtcome := first.step_scopeClose hclose hprimary hsecondary
  rw [if_neg (by omega)] at houtcome
  have heffect := first.effect_step s
  generalize first.step s = result at heffect houtcome hdepth
  obtain ⟨next, outcome⟩ := result
  cases houtcome
  have hafter := Memory.depth_of_closeScope (heffect.memory_of_scopeClose hclose)
  dsimp only at hdepth
  omega

-- Both go on, or both stop for the same reason.
theorem advance_twin (hcompile : Program.compile source = .ok program) (hone : one ≠ [])
    (h : Machine.Twin one other inner first second)
    (hdepth : one.length < (program.drive 1 first).1.memory.depth) :
    (∃ next first' second', program.advance first = .running first' ∧
      program.advance second = .running second' ∧ Machine.Twin one other next first' second') ∨
    ∃ last first' second' outcome, program.advance first = .stopped first' outcome ∧
      program.advance second = .stopped second' outcome ∧
      Machine.Twin one other last first' second' := by
  obtain ⟨hip, _, hrunning⟩ := h.control
  by_cases hended : first.running = false ∨ program.statements[first.ip]? = none
  · have hsecond : second.running = false ∨ program.statements[second.ip]? = none := by
      rwa [← hrunning, ← hip]
    exact .inr ⟨inner, first, second, .finished, advance_of_ended hended,
      advance_of_ended hsecond, h⟩
  · obtain ⟨hfirst, hsome⟩ := not_or.mp hended
    obtain ⟨s, hs⟩ := Option.ne_none_iff_exists'.mp hsome
    have hfirst : first.running = true := by simpa using hfirst
    rw [drive_one hfirst hs] at hdepth
    have hannounced := h.announce s
    obtain ⟨next, htwin, houtcome⟩ := hannounced.step fun hclose =>
      parents_ne_nil_of_close hcompile (Array.mem_of_getElem? hs) hclose hone
        (Machine.memory_of_atop_nil hannounced.first) hdepth
    rw [advance_of_statement hfirst hs,
      advance_of_statement (hrunning ▸ hfirst) (hip ▸ hs)]
    generalize (first.announce s).step s = result at htwin houtcome
    generalize (second.announce s).step s = result' at htwin houtcome
    obtain ⟨first', outcome⟩ := result
    obtain ⟨second', outcome'⟩ := result'
    cases houtcome
    cases outcome with
    | ok _ => exact .inl ⟨next, first', second', rfl, rfl, htwin⟩
    | error fault =>
        cases fault with
        | crash => exact .inr ⟨next, first', second', .crashed, rfl, rfl, htwin⟩
        | error e =>
            obtain ⟨hip', _, _⟩ := htwin.control
            obtain ⟨_, hfiles, _, _⟩ := htwin.world
            refine .inr ⟨next, first', second', _, rfl, ?_, htwin⟩
            dsimp only [Progression.ofResult, World.opened]
            rw [hip', hfiles]

theorem drive_twin (hcompile : Program.compile source = .ok program) (hone : one ≠ []) {n : Nat}
    (h : Machine.Twin one other inner first second)
    (hdepth : ∀ k ≤ n, one.length < (program.drive k first).1.memory.depth) :
    ∃ last, Machine.Twin one other last (program.drive n first).1 (program.drive n second).1 ∧
      (program.drive n first).2 = (program.drive n second).2 := by
  induction n generalizing inner first second with
  | zero => exact ⟨inner, h, rfl⟩
  | succ n ih =>
      rcases advance_twin hcompile hone h (hdepth 1 (by omega)) with
        ⟨next, first', second', hfirst, hsecond, htwin⟩ |
        ⟨last, first', second', outcome, hfirst, hsecond, htwin⟩
      · rw [drive_of_running hfirst, drive_of_running hsecond]
        refine ih htwin fun k hk => ?_
        rw [← drive_of_running hfirst]
        exact hdepth (k + 1) (by omega)
      · rw [drive_of_stopped hfirst, drive_of_stopped hsecond]
        exact ⟨last, htwin, rfl⟩

end Program

-- The scopes above the given depth, the current one first.
def Memory.above (memory : Memory) (depth : Nat) : List Scope :=
  (memory.current :: memory.parents).take (memory.depth - depth)

-- Two runs that have come as far as each other, and that nothing tells apart but what lies below
-- the scopes they started from.
structure SameRun (firstDepth secondDepth : Nat) (first second : Machine × Outcome) : Prop where
  outcome : first.2 = second.2
  ip : first.1.ip = second.1.ip
  jump : first.1.jump = second.1.jump
  running : first.1.running = second.1.running
  depth : first.1.memory.depth + secondDepth = second.1.memory.depth + firstDepth
  scopes : first.1.memory.above firstDepth = second.1.memory.above secondDepth
  console : first.1.world.console = second.1.world.console
  files : first.1.world.files = second.1.world.files
  random : first.1.world.random = second.1.world.random
  orders : first.1.world.orders = second.1.world.orders

theorem Memory.above_onto (memory : Memory) (base : List Scope) :
    (memory.onto base).above base.length = memory.current :: memory.parents := by
  unfold above
  have hscopes : (memory.onto base).current :: (memory.onto base).parents =
      (memory.current :: memory.parents) ++ base := rfl
  rw [depth_onto, Nat.add_sub_cancel, hscopes]
  exact List.take_left' rfl

theorem Machine.Twin.sameRun {one other : List Scope} {inner : Machine}
    {first second : Machine × Outcome} (h : Twin one other inner first.1 second.1)
    (houtcome : first.2 = second.2) : SameRun one.length other.length first second := by
  obtain ⟨hip, hjump, hrunning⟩ := h.control
  obtain ⟨hconsole, hfiles, hrandom, horders⟩ := h.world
  refine ⟨houtcome, hip, hjump, hrunning, ?_, ?_, hconsole, hfiles, hrandom, horders⟩
  · rw [memory_of_atop_nil h.first, memory_of_atop_nil h.second, Memory.depth_onto,
      Memory.depth_onto]
    omega
  · rw [memory_of_atop_nil h.first, memory_of_atop_nil h.second, Memory.above_onto,
      Memory.above_onto]

namespace Program

theorem advance_scopeOpen {source : String} {program : Program}
    (hcompile : Program.compile source = .ok program) {m : Machine} {s : Statement}
    (hrunning : m.running = true) (hs : program.statements[m.ip]? = some s)
    (hopen : s.operation = .scopeOpen) (hjump : m.jump = none) :
    program.advance m = .running (m.announce s).opened := by
  obtain ⟨hprimary, hsecondary⟩ :=
    no_operands_of_compile hcompile (Array.mem_of_getElem? hs) (.inl hopen)
  obtain ⟨log, hannounce⟩ := m.announce_eq s
  rw [advance_of_statement hrunning hs, (m.announce s).step_scopeOpen hopen hprimary hsecondary]
  · rfl
  · rw [hannounce]
    exact hjump

-- A scope sees only `argument`: whatever else differs in two machines when they open it, they run
-- alike until it is closed, if their worlds draw the same and order the scopes the same.
theorem scope_sees_only_argument {source : String} {program : Program}
    (hcompile : Program.compile source = .ok program) {first second : Machine}
    (hfirst : first.Reachable) (hsecond : second.Reachable) (hagree : first.Agree second)
    (hopens : program.statements[first.ip]?.map (·.operation) = some .scopeOpen) (n : Nat)
    (hwithin : ∀ k, 1 ≤ k → k ≤ n →
      first.memory.depth < (program.drive k first).1.memory.depth) :
    SameRun first.memory.depth second.memory.depth (program.drive n first)
      (program.drive n second) := by
  cases n with
  | zero =>
      refine ⟨rfl, hagree.ip, hagree.jump.1.trans hagree.jump.2.symm, hagree.running,
        Nat.add_comm _ _, ?_, hagree.console, hagree.files, hagree.random, hagree.orders⟩
      simp [drive, Memory.above]
  | succ n =>
      obtain ⟨s, hs, hopen⟩ := Option.map_eq_some_iff.mp hopens
      have hrunning : first.running = true := by
        by_contra hended
        have hstopped : program.advance first = .stopped first .finished :=
          advance_of_ended (.inl (by simpa using hended))
        have hdepth := hwithin 1 (by omega) (by omega)
        rw [drive_of_stopped hstopped] at hdepth
        exact Nat.lt_irrefl _ hdepth
      have hopened := advance_scopeOpen hcompile hrunning hs hopen hagree.jump.1
      have hopened' := advance_scopeOpen hcompile (hagree.running ▸ hrunning) (hagree.ip ▸ hs)
        hopen hagree.jump.2
      have htwin := hagree.announce_twin s hfirst hsecond
      have hdepth : ∀ k ≤ n, (first.memory.current :: first.memory.parents).length <
          (program.drive k (first.announce s).opened).1.memory.depth := by
        intro k hk
        rw [← drive_of_running hopened]
        exact hwithin (k + 1) (by omega) (by omega)
      obtain ⟨last, hlast, houtcome⟩ := drive_twin hcompile (List.cons_ne_nil _ _) htwin hdepth
      rw [drive_of_running hopened, drive_of_running hopened']
      exact hlast.sameRun houtcome

-- A label that only one of two machines has bound, and that the scope they open names.
theorem scope_sees_no_label :
    ∃ program, Program.compile "SCOPE OPEN\nPRINT secret" = .ok program ∧
      SameRun 1 1
        (program.drive 2 ((Program.empty.load .blank).step (.null "")).1)
        (program.drive 2 ((Program.load ⟨#[], [("secret", 7)]⟩ .blank).step (.null "")).1) := by
  have hrun : (match Program.compile "SCOPE OPEN\nPRINT secret" with
      | .ok program =>
          decide (program.statements[1]?.map (·.operation) = some .scopeOpen ∧
            (program.drive 1 ((Program.empty.load .blank).step (.null "")).1).1.memory.depth = 2 ∧
            (program.drive 2 ((Program.empty.load .blank).step (.null "")).1).1.memory.depth = 2)
      | .error _ => false) = true := by
    decide +kernel
  cases hcompile : Program.compile "SCOPE OPEN\nPRINT secret" with
  | error e => simp [hcompile] at hrun
  | ok program =>
      rw [hcompile] at hrun
      obtain ⟨hopens, hone, htwo⟩ := of_decide_eq_true hrun
      have hfirst := (Machine.Reachable.load .empty .blank).step (.null "")
      have hsecond := (Machine.Reachable.load ⟨#[], [("secret", 7)]⟩ .blank).step (.null "")
      rw [Machine.step_null _ "" rfl] at hfirst hsecond hone htwo ⊢
      rw [Machine.step_null _ "" rfl]
      refine ⟨program, rfl, ?_⟩
      refine scope_sees_only_argument hcompile hfirst hsecond
        ⟨rfl, ⟨rfl, rfl⟩, rfl, rfl, rfl, rfl, rfl, rfl, rfl⟩ hopens 2 fun k hlow hhigh => ?_
      obtain rfl | rfl : k = 1 ∨ k = 2 := by omega
      · rw [hone]
        decide
      · rw [htwo]
        decide

end Program

end LineScript

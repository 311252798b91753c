import LineScript.Proofs.Machine.Frame
import LineScript.Proofs.Program.Drive

namespace LineScript.Machine

-- The states of a program, step by step, failed steps included. Between steps the console may be
-- used from outside and the log taken away.
inductive Reachable : Machine → Prop where
  | load (program : Program) (world : World) : Reachable (program.load world)
  | outside {m : Machine} (console : Console) (log : Log) (h : Reachable m) :
      Reachable { m with world := { m.world with console := console, log := log } }
  | step {m : Machine} (s : Statement) (h : Reachable m) : Reachable (m.step s).1

-- Every file in memory was given out.
theorem Reachable.handles_lt {m : Machine} (h : m.Reachable) :
    ∀ handle ∈ m.memory.handles, handle.id < m.channelCount := by
  induction h with
  | load program world =>
      obtain ⟨hparents, hcurrent⟩ := program.load_memory world
      refine Memory.forall_mem_handles.mpr ⟨hcurrent _, ?_⟩
      rw [hparents]
      exact List.forall_mem_nil _
  | outside console log _ ih => exact ih
  | @step m s _ ih =>
      have heffect := m.effect_step s
      generalize m.step s = result at heffect ⊢
      obtain ⟨next, outcome⟩ := result
      have hcount := heffect.count_le
      refine heffect.handles ?_ ?_
      · intro handle hmem
        exact Nat.lt_of_lt_of_le (ih handle hmem) hcount
      · intro handle _ hhigh
        exact hhigh

-- Two machines that run as one on top of different scopes. Of the files they reach, those scopes
-- hold the same, and none that is yet to be opened.
structure Twin (one other : List Scope) (inner first second : Machine) : Prop where
  first : first.atop [] = inner.atop one
  second : second.atop [] = inner.atop other
  shared : ∀ handle ∈ inner.memory.handles,
    handle ∈ Memory.handlesOf one ↔ handle ∈ Memory.handlesOf other
  givenOne : ∀ handle ∈ Memory.handlesOf one, handle.id < inner.channelCount
  givenOther : ∀ handle ∈ Memory.handlesOf other, handle.id < inner.channelCount

theorem memory_of_atop_nil {m inner : Machine} {base : List Scope}
    (h : m.atop [] = inner.atop base) : m.memory = inner.memory.onto base := by
  have hmemory := congrArg Machine.memory h
  rwa [memory_atop, memory_atop, Memory.onto_nil] at hmemory

namespace Twin

variable {one other : List Scope} {inner first second : Machine}

theorem control (h : Twin one other inner first second) :
    first.ip = second.ip ∧ first.jump = second.jump ∧ first.running = second.running := by
  have hip := (congrArg Machine.ip h.first).trans (congrArg Machine.ip h.second).symm
  have hjump := (congrArg Machine.jump h.first).trans (congrArg Machine.jump h.second).symm
  have hrunning := (congrArg Machine.running h.first).trans (congrArg Machine.running h.second).symm
  exact ⟨hip, hjump, hrunning⟩

theorem world (h : Twin one other inner first second) :
    first.world.console = second.world.console ∧ first.world.files = second.world.files ∧
      first.world.random = second.world.random ∧ first.world.orders = second.world.orders := by
  have hworld := (congrArg Machine.world h.first).trans (congrArg Machine.world h.second).symm
  have hconsole := congrArg World.console hworld
  have hfiles := congrArg World.files hworld
  have hrandom := congrArg World.random hworld
  have horders := congrArg World.orders hworld
  exact ⟨hconsole, hfiles, hrandom, horders⟩

theorem announce (h : Twin one other inner first second) (s : Statement) :
    Twin one other inner (first.announce s) (second.announce s) where
  first := by rw [announce_atop, h.first]
  second := by rw [announce_atop, h.second]
  shared := h.shared
  givenOne := h.givenOne
  givenOther := h.givenOther

theorem step (h : Twin one other inner first second) {s : Statement}
    (hclose : s.operation = .scopeClose → inner.memory.parents ≠ []) :
    ∃ next, Twin one other next (first.step s).1 (second.step s).1 ∧
      (first.step s).2 = (second.step s).2 := by
  obtain ⟨⟨next, outcome⟩, heffect, hone, hother⟩ := inner.step_atop h.shared hclose
  rw [← h.first, step_atop_nil] at hone
  rw [← h.second, step_atop_nil] at hother
  have hcount := heffect.count_le
  refine ⟨next, ?_, (congrArg Prod.snd hone).trans (congrArg Prod.snd hother).symm⟩
  constructor
  · exact congrArg Prod.fst hone
  · exact congrArg Prod.fst hother
  · -- A file opened by this step is in neither of the scopes below.
    refine heffect.handles h.shared ?_
    intro handle hlow _
    constructor
    · intro hmem
      have hlt := h.givenOne handle hmem
      omega
    · intro hmem
      have hlt := h.givenOther handle hmem
      omega
  · intro handle hmem
    have hlt := h.givenOne handle hmem
    omega
  · intro handle hmem
    have hlt := h.givenOther handle hmem
    omega

end Twin

def opened (m : Machine) : Machine :=
  { m with memory := m.memory.openScope, ip := m.ip + 1 }

theorem release_of_held (m : Machine) {leaving : List Handle}
    (h : ∀ handle ∈ leaving, handle ∈ m.memory.handles) : m.release leaving = m := by
  have hdropped : m.memory.dropped leaving = [] := by
    refine List.filter_eq_nil_iff.mpr fun handle hmem => ?_
    simp [h handle hmem]
  rw [release_eq, hdropped]
  split <;> rfl

theorem step_null (m : Machine) (line : String) (hjump : m.jump = none) :
    m.step (.null line) = done { m with ip := m.ip + 1 } := by
  have hperform : m.perform (.null line) .null .null .null = m.done := rfl
  rw [step_eq_settle, execute_of_no_operands m rfl rfl, hperform]
  dsimp only [done]
  rw [release_of_held m fun _ hmem => mem_handles_of_leaving_null hmem]
  dsimp only [Result.settle, done]
  rw [hjump]
  rfl

-- Nothing is given up when a scope is opened.
theorem step_scopeOpen (m : Machine) {s : Statement} (hs : s.operation = .scopeOpen)
    (hprimary : s.primary = none) (hsecondary : s.secondary = none) (hjump : m.jump = none) :
    m.step s = m.opened.done := by
  have hheld : ∀ handle ∈ m.memory.handles, handle ∈ m.memory.openScope.handles := by
    have hopen : m.memory.openScope.handles = m.memory.handles ++
        (⟨m.memory.openScope.current, []⟩ : Memory).handles := by
      rw [← m.memory.handlesOf_scopes, ← Memory.handles_onto]
      rfl
    intro handle hmem
    rw [hopen]
    exact List.mem_append_left _ hmem
  rw [step_eq_settle, execute_of_no_operands m hprimary hsecondary, perform_scopeOpen hs]
  dsimp only [done]
  rw [release_of_held { m with memory := m.memory.openScope } fun handle hmem =>
    hheld handle (mem_handles_of_leaving_null hmem)]
  dsimp only [Result.settle, done, opened]
  rw [hjump]
  rfl

-- The machine as it is within a scope just opened, with nothing below.
def within (m : Machine) : Machine :=
  { m with memory := ⟨m.memory.openScope.current, []⟩, ip := m.ip + 1 }

theorem opened_eq_within (m : Machine) :
    m.opened.atop [] = m.within.atop (m.memory.current :: m.memory.parents) := by
  unfold atop opened within
  rw [Memory.onto_nil]
  rfl

-- The one thing a new scope shares with those below is `argument`.
theorem handles_within (m : Machine) :
    ∀ handle ∈ m.within.memory.handles,
      handle ∈ ((m.memory.current.get? Scope.argument).getD .null).handles := by
  refine Memory.forall_mem_handles.mpr ⟨?_, List.forall_mem_nil _⟩
  exact Scope.within_fresh.insert Scope.argument fun handle hmem => hmem

theorem argument_handles (m : Machine) :
    ∀ handle ∈ ((m.memory.current.get? Scope.argument).getD .null).handles,
      handle ∈ Memory.handlesOf (m.memory.current :: m.memory.parents) := by
  rw [Memory.handlesOf_scopes]
  have hcurrent : m.memory.current.Within (· ∈ m.memory.handles) :=
    (Memory.forall_mem_handles.mp fun handle hmem => hmem).1
  exact hcurrent.getD Scope.argument

-- What two machines have to agree on for a scope they open to be the same.
structure Agree (first second : Machine) : Prop where
  ip : first.ip = second.ip
  jump : first.jump = none ∧ second.jump = none
  running : first.running = second.running
  console : first.world.console = second.world.console
  files : first.world.files = second.world.files
  random : first.world.random = second.world.random
  orders : first.world.orders = second.world.orders
  room : first.world.room = second.world.room
  argument : first.memory.current.get? Scope.argument = second.memory.current.get? Scope.argument

theorem Agree.within_atop {first second : Machine} (h : Agree first second) (base : List Scope) :
    second.within.atop base = first.within.atop base := by
  obtain ⟨⟨current, parents⟩, ip, jump, running,
    ⟨console, files, random, log, orders, room⟩⟩ := first
  obtain ⟨⟨current', parents'⟩, ip', jump', running',
    ⟨console', files', random', log', orders', room'⟩⟩ := second
  obtain ⟨hip, ⟨hjump, hjump'⟩, hrunning, hconsole, hfiles, hrandom, horders, hroom, hargument⟩ := h
  dsimp only at hip hjump hjump' hrunning hconsole hfiles hrandom horders hroom hargument
  subst hip hjump hjump' hrunning hconsole hfiles hrandom horders hroom
  simp only [within, atop, Memory.openScope, hargument]

-- A step is announced to the log and to nothing else.
theorem announce_eq (m : Machine) (s : Statement) :
    ∃ log, m.announce s = { m with world := { m.world with log := log } } := by
  unfold announce
  split
  · exact ⟨_, rfl⟩
  · exact ⟨m.world.log, rfl⟩

theorem Agree.twin {first second : Machine} (h : Agree first second) (hfirst : first.Reachable)
    (hsecond : second.Reachable) :
    Twin (first.memory.current :: first.memory.parents)
      (second.memory.current :: second.memory.parents) first.within first.opened
      second.opened where
  first := first.opened_eq_within
  second := by rw [opened_eq_within, h.within_atop]
  shared := by
    intro handle hmem
    have hargument := first.handles_within handle hmem
    have hone := first.argument_handles handle hargument
    rw [h.argument] at hargument
    exact iff_of_true hone (second.argument_handles handle hargument)
  givenOne := by
    rw [Memory.handlesOf_scopes]
    exact hfirst.handles_lt
  givenOther := by
    rw [Memory.handlesOf_scopes, show first.within.channelCount = second.channelCount from
      congrArg (·.channels.size) h.files]
    exact hsecond.handles_lt

theorem Agree.announce_twin {first second : Machine} (h : Agree first second) (s : Statement)
    (hfirst : first.Reachable) (hsecond : second.Reachable) :
    Twin (first.memory.current :: first.memory.parents)
      (second.memory.current :: second.memory.parents) (first.announce s).within
      (first.announce s).opened (second.announce s).opened := by
  obtain ⟨log, hannounce⟩ := first.announce_eq s
  obtain ⟨log', hannounce'⟩ := second.announce_eq s
  rw [hannounce, hannounce']
  have hagree : Agree { first with world := { first.world with log := log } }
      { second with world := { second.world with log := log' } } :=
    ⟨h.ip, h.jump, h.running, h.console, h.files, h.random, h.orders, h.room,
      h.argument⟩
  exact hagree.twin (hfirst.outside first.world.console log)
    (hsecond.outside second.world.console log')

end LineScript.Machine

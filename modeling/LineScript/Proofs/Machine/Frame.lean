import LineScript.Proofs.Machine.Effect
import LineScript.Proofs.Machine.Unnoticed
import LineScript.Proofs.Memory.Frame

namespace LineScript.Machine

-- The same machine with its scopes on top of others, and without its log.
def atop (m : Machine) (base : List Scope) : Machine :=
  { m with memory := m.memory.onto base, world := { m.world with log := .upTo none } }

def Result.atop (result : Result) (base : List Scope) : Result := (result.1.atop base, result.2)

variable (m : Machine) (base : List Scope)

theorem memory_atop : (m.atop base).memory = m.memory.onto base := rfl

theorem files_atop : (m.atop base).world.files = m.world.files := rfl

theorem console_atop : (m.atop base).world.console = m.world.console := rfl

theorem flush_atop : (m.atop base).flush = m.flush := rfl

theorem announce_atop (s : Statement) : (m.announce s).atop base = m.atop base := by
  unfold announce
  split <;> rfl

theorem store_atop (target : Token) (value : Value) (create : Bool) :
    (m.atop base).store target value create = (m.store target value create).atop base := by
  unfold store
  rw [memory_atop, Memory.write_onto]
  cases m.memory.write target.text value create <;> rfl

-- Neither the scopes below nor the log have a part in an operation on variables and files.
theorem unnoticed_atop : Unnoticed (·.atop base) where
  files _ := rfl
  random _ := rfl
  room _ := rfl
  withFiles _ _ := rfl
  withRandom _ _ := rfl
  note _ _ := rfl
  store m := store_atop m base
  jumping _ _ := rfl
  stopping _ := rfl

theorem say_atop (text : String) : (m.atop base).say text = (m.say text).atop base := by
  unfold say
  rw [console_atop]
  split <;> rfl

theorem replyValue_onto (memory : Memory) (reply : String) :
    replyValue (memory.onto base) reply = replyValue memory reply := by
  unfold replyValue
  split
  · rw [Memory.evaluate_onto]
  · rfl

theorem ask_atop (target : Token) (prompt : Value) :
    (m.atop base).ask target prompt = (m.ask target prompt).atop base := by
  cases prompt with
  | string text =>
      unfold ask
      dsimp only
      rw [say_atop]
      generalize m.say text = result
      obtain ⟨asked, outcome⟩ := result
      cases outcome with
      | error fault => rfl
      | ok _ =>
          dsimp only [Result.atop]
          rw [flush_atop, console_atop]
          split
          · rfl
          · split
            · rfl
            · rename_i console reply _
              have htold : (asked.atop base).withConsole console =
                  (asked.withConsole console).atop base := rfl
              have hreply : replyValue ((asked.withConsole console).atop base).memory reply =
                  replyValue (asked.withConsole console).memory reply :=
                replyValue_onto base asked.memory reply
              rw [htold, hreply]
              exact (unnoticed_atop base).storeResult _ target true _
  | _ => rfl

-- No operation reads or changes a lower scope. Only closing the last scope on top would.
theorem perform_atop (s : Statement) (target : Token) (a b : Value)
    (hclose : s.operation = .scopeClose → m.memory.parents ≠ [] ∨ base = []) :
    (m.atop base).perform s target a b = (m.perform s target a b).atop base := by
  by_cases hs : s.operation ∈ [.scopeOpen, .scopeClose, .print, .input]
  · simp only [List.mem_cons, List.not_mem_nil, or_false] at hs
    rcases hs with hs | hs | hs | hs
    · rw [perform_scopeOpen hs, perform_scopeOpen hs]
      rfl
    · rw [perform_of_operation hs, perform_of_operation hs]
      dsimp only [act, Operation.computed?, Operation.tested?]
      rw [memory_atop, m.memory.closeScope_onto base (hclose hs)]
      cases m.memory.closeScope <;> rfl
    · rw [perform_print hs, perform_print hs]
      exact say_atop m base _
    · rw [perform_input hs, perform_input hs]
      exact ask_atop m base _ _
  · exact (unnoticed_atop base).perform m target a b hs

theorem release_eq (m : Machine) (leaving : List Handle) :
    m.release leaving =
      if m.world.files.anyOpen then
        m.withFiles (m.world.files.release (lastCopies (m.memory.dropped leaving)))
      else m := rfl

-- Two machines that stand on different scopes give up the same files, if those scopes hold the
-- same ones of the files on top.
theorem release_atop (m before : Machine) {a b : Value} {one other : List Scope}
    (h : ∀ handle ∈ before.leaving a b, handle ∈ Memory.handlesOf one ↔
      handle ∈ Memory.handlesOf other) :
    ∃ files, files.channels.size = m.channelCount ∧
      (m.atop one).release ((before.atop one).leaving a b) = (m.withFiles files).atop one ∧
      (m.atop other).release ((before.atop other).leaving a b) =
        (m.withFiles files).atop other := by
  have hdropped : (m.atop one).memory.dropped ((before.atop one).leaving a b) =
      (m.atop other).memory.dropped ((before.atop other).leaving a b) := Memory.dropped_congr h
  simp only [release_eq, hdropped, files_atop]
  by_cases hopen : m.world.files.anyOpen
  · simp only [hopen, if_true]
    exact ⟨_, Files.size_release _ _, rfl, rfl⟩
  · simp only [hopen]
    exact ⟨m.world.files, rfl, rfl, rfl⟩

theorem release_atop_nil (m : Machine) (leaving : List Handle) :
    (m.atop []).release leaving = (m.release leaving).atop [] := by
  apply (unnoticed_atop []).release
  rw [memory_atop, Memory.onto_nil]

-- Moves on after an operation that succeeded.
def Result.settle : Result → Result
  | (next, .ok ()) => done { next with ip := next.jump.getD (next.ip + 1), jump := none }
  | failed => failed

theorem step_eq_settle (m : Machine) (s : Statement) : m.step s = (m.execute s).settle := rfl

theorem settle_atop (result : Result) (base : List Scope) :
    (result.atop base).settle = result.settle.atop base := by
  obtain ⟨next, outcome⟩ := result
  cases outcome <;> rfl

theorem Effect.settle {m : Machine} {s : Statement} {result : Result} (h : m.Effect s result) :
    m.Effect s result.settle := by
  obtain ⟨next, outcome⟩ := result
  cases outcome with
  | ok _ => exact h.congr rfl rfl rfl
  | error fault => exact h

-- The log makes no difference to what a step does.
theorem step_atop_nil (m : Machine) (s : Statement) :
    (m.atop []).step s = (m.step s).atop [] := by
  rw [step_eq_settle, step_eq_settle, ← settle_atop]
  congr 1
  have hleaving (a b : Value) : (m.atop []).leaving a b = m.leaving a b := by
    unfold leaving met
    rw [memory_atop, Memory.onto_nil]
    rfl
  rw [execute_eq_attempt, execute_eq_attempt]
  unfold attempt
  dsimp only
  rw [memory_atop, Memory.evaluate_onto, Memory.evaluateOperand_onto]
  cases m.memory.evaluate (s.primary.getD .null) with
  | error e => rfl
  | ok a =>
      cases m.memory.evaluateOperand s.secondary with
      | error e => rfl
      | ok b =>
          dsimp only
          rw [perform_atop m [] s _ a b fun _ => .inr rfl, hleaving]
          exact congrArg (·, _) (release_atop_nil _ _)

-- A step on top of either scopes is the same step, if they hold the same ones of the files on top.
theorem step_atop (m : Machine) {s : Statement} {one other : List Scope}
    (hshared : ∀ handle ∈ m.memory.handles,
      handle ∈ Memory.handlesOf one ↔ handle ∈ Memory.handlesOf other)
    (hclose : s.operation = .scopeClose → m.memory.parents ≠ []) :
    ∃ result, m.Effect s result ∧ (m.atop one).step s = result.atop one ∧
      (m.atop other).step s = result.atop other := by
  have hexecute : ∃ result, m.Effect s result ∧ (m.atop one).execute s = result.atop one ∧
      (m.atop other).execute s = result.atop other := by
    have hcurrent := m.within_met_current m.channelCount
    simp only [execute_eq_attempt]
    unfold attempt
    simp only [memory_atop, Memory.evaluate_onto, Memory.evaluateOperand_onto]
    cases ha : m.memory.evaluate (s.primary.getD .null) with
    | error e => exact ⟨m.fail e, .kept (.refl m) nofun, rfl, rfl⟩
    | ok a =>
        cases hb : m.memory.evaluateOperand s.secondary with
        | error e => exact ⟨m.fail e, .kept (.refl m) nofun, rfl, rfl⟩
        | ok b =>
            have heffect := m.effect_perform s (s.primary.getD .null)
              (Memory.supplies_evaluate hcurrent _ a ha)
              (Memory.supplies_evaluateOperand hcurrent _ b hb)
            have hperform (base : List Scope) := perform_atop m base s (s.primary.getD .null) a b
              fun hs => .inl (hclose hs)
            dsimp only
            rw [hperform one, hperform other]
            generalize m.perform s (s.primary.getD .null) a b = result at heffect
            obtain ⟨files, hcount, hone, hother⟩ := release_atop result.1 m fun handle hmem =>
              hshared handle ((mem_leaving ha hb).mp hmem)
            refine ⟨(result.1.withFiles files, result.2), ?_, ?_, ?_⟩
            · exact heffect.congr rfl hcount rfl
            · exact congrArg (·, result.2) hone
            · exact congrArg (·, result.2) hother
  obtain ⟨result, heffect, hone, hother⟩ := hexecute
  refine ⟨result.settle, heffect.settle, ?_, ?_⟩
  · rw [step_eq_settle, hone, settle_atop]
  · rw [step_eq_settle, hother, settle_atop]

end LineScript.Machine

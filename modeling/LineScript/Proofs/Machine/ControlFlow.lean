import LineScript.Proofs.Machine.Deed
import LineScript.Proofs.Machine.Twin

namespace LineScript.Machine

variable {m next : Machine} {s : Statement}

-- A GOTO of which the condition does not equal zero.
def Taken (m : Machine) (s : Statement) : Prop :=
  s.operation = .goto ∧ ∃ condition, m.memory.evaluateOperand s.secondary = .ok condition ∧
    condition.equals (.integer 0) = false

theorem lastTarget_eq : (lastTarget : Int) = Int32.maxValue.toInt := by decide

section

variable {target : Token} {a b : Value}

-- No operation moves the machine; only a GOTO schedules a jump, and only an EXIT stops.
theorem Deed.control {after : Own} {outcome : Except Fault Unit}
    (h : m.Deed s target a b after outcome) :
    after.ip = m.ip ∧ (s.operation ≠ .goto ∨ outcome ≠ .ok () → after.jump = m.jump) ∧
      (s.operation ≠ .exit → after.running = m.running) := by
  cases h with
  | jumped hs => exact ⟨rfl, fun hother => by simp [hs] at hother, fun _ => rfl⟩
  | exited hs => exact ⟨rfl, fun _ => rfl, fun hother => absurd hs hother⟩
  | _ => exact ⟨rfl, fun _ => rfl, fun _ => rfl⟩

-- A GOTO that succeeds has a target, whether it is taken or not.
theorem goto_eq_ok (h : m.goto a b = (next, .ok ())) :
    ∃ n : Int64, a = .integer n ∧ 0 ≤ n.toInt ∧ n.toInt.toNat ≤ lastTarget ∧
      next = { m with jump := if b.equals (.integer 0) then m.jump else some n.toInt.toNat } := by
  unfold goto at h
  split at h
  · rename_i n
    refine ⟨n, rfl, ?_⟩
    split at h
    · cases h
    · rename_i index hindex
      obtain ⟨hpos, hnat⟩ := Option.ite_none_right_eq_some.mp hindex
      cases hnat
      split_ifs at h with hfar hzero
      · cases h
      · cases h
        exact ⟨hpos, Nat.le_of_not_lt hfar, by rw [if_pos hzero]⟩
      · cases h
        exact ⟨hpos, Nat.le_of_not_lt hfar, by rw [if_neg hzero]⟩
  · cases h

end

theorem write_of_store_ok {target : Token} {value : Value} {create : Bool}
    (h : (m.store target value create).2 = .ok ()) :
    m.memory.write target.text value create = .ok (m.store target value create).1.memory := by
  rw [store] at h ⊢
  cases hwrite : m.memory.write target.text value create with
  | ok memory => rfl
  | error e =>
      rw [hwrite] at h
      cases h

-- A statement that succeeds has evaluated both operands and performed its operation.
theorem execute_eq_ok (h : m.execute s = (next, .ok ())) :
    ∃ a b performed, m.memory.evaluate (s.primary.getD .null) = .ok a ∧
      m.memory.evaluateOperand s.secondary = .ok b ∧
      m.perform s (s.primary.getD .null) a b = (performed, .ok ()) ∧
      performed.own = next.own := by
  cases ha : m.memory.evaluate (s.primary.getD .null) with
  | error e =>
      rw [m.execute_of_primary_error s ha] at h
      cases h
  | ok a =>
      cases hb : m.memory.evaluateOperand s.secondary with
      | error e =>
          rw [m.execute_of_secondary_error s ha hb] at h
          cases h
      | ok b =>
          rw [m.execute_of_operands s ha hb] at h
          obtain ⟨hnext, hok⟩ := Prod.mk.inj h
          refine ⟨a, b, (m.perform s (s.primary.getD .null) a b).1, rfl, rfl, ?_, ?_⟩
          · rw [← hok]
          · rw [← hnext, own_release]

theorem step_eq_ok (h : m.step s = (next, .ok ())) :
    ∃ executed, m.execute s = (executed, .ok ()) ∧
      next.ip = executed.jump.getD (executed.ip + 1) ∧ next.running = executed.running := by
  unfold step at h
  split at h
  · rename_i executed hexecute
    cases h
    exact ⟨executed, hexecute, rfl, rfl⟩
  · rename_i hfailed
    exact absurd h (hfailed next)

theorem perform_of_step_ok (h : (m.step s).2 = .ok ()) :
    ∃ a b, m.memory.evaluate (s.primary.getD .null) = .ok a ∧
      m.memory.evaluateOperand s.secondary = .ok b ∧
      (m.perform s (s.primary.getD .null) a b).2 = .ok () ∧
      (m.perform s (s.primary.getD .null) a b).1.memory = (m.step s).1.memory := by
  cases hexecute : m.execute s with
  | mk executed outcome =>
      rw [step, hexecute] at h ⊢
      cases outcome with
      | error fault => cases h
      | ok _ =>
          obtain ⟨a, b, performed, ha, hb, hperform, hown⟩ := execute_eq_ok hexecute
          refine ⟨a, b, ha, hb, by rw [hperform], ?_⟩
          rw [hperform]
          exact congrArg Own.memory hown

-- Only a GOTO that is taken schedules a jump.
theorem jump_of_execute_ok (hjump : m.jump = none) (h : m.execute s = (next, .ok ())) :
    (m.Taken s ∧ ∃ n : Int64, m.memory.evaluate (s.primary.getD .null) = .ok (.integer n) ∧
        0 ≤ n.toInt ∧ n.toInt.toNat ≤ lastTarget ∧ next.jump = some n.toInt.toNat) ∨
      ¬m.Taken s ∧ next.jump = none := by
  obtain ⟨a, b, performed, ha, hb, hperform, hown⟩ := execute_eq_ok h
  have hnext : next.jump = performed.jump := congrArg Own.jump hown.symm
  by_cases hs : s.operation = .goto
  · rw [perform_goto hs] at hperform
    obtain ⟨n, rfl, hpos, hle, hperformed⟩ := goto_eq_ok hperform
    have hjumped : next.jump = if b.equals (.integer 0) then none else some n.toInt.toNat := by
      rw [hnext, hperformed, hjump]
    cases hzero : b.equals (.integer 0) with
    | false =>
        refine .inl ⟨⟨hs, b, hb, hzero⟩, n, ha, hpos, hle, ?_⟩
        rw [hjumped, hzero]
        rfl
    | true =>
        refine .inr ⟨?_, ?_⟩
        · rintro ⟨_, condition, hcondition, hother⟩
          cases hb.symm.trans hcondition
          cases hzero.symm.trans hother
        · rw [hjumped, hzero]
          rfl
  · have hdeed := m.deed_perform s (s.primary.getD .null) a b
    rw [hperform] at hdeed
    refine .inr ⟨fun htaken => hs htaken.1, ?_⟩
    exact hnext.trans ((hdeed.control.2.1 (.inl hs)).trans hjump)

theorem place_of_execute_ok (h : m.execute s = (next, .ok ())) :
    next.ip = m.ip ∧ next.running = (m.running && decide (s.operation ≠ .exit)) := by
  obtain ⟨a, b, performed, _, _, hperform, hown⟩ := execute_eq_ok h
  have hdeed := m.deed_perform s (s.primary.getD .null) a b
  rw [hperform, hown] at hdeed
  obtain ⟨hip, _, hrunning⟩ := hdeed.control
  refine ⟨hip, ?_⟩
  by_cases hs : s.operation = .exit
  · rw [perform_exit hs] at hperform
    cases hperform
    rw [show next.running = false from congrArg Own.running hown.symm]
    simp [hs]
  · rw [show next.running = m.running from hrunning hs]
    simp [hs]

-- Where a statement that succeeds leads, and whether the machine still runs.
theorem step_control (hjump : m.jump = none) (hrunning : m.running = true)
    (h : m.step s = (next, .ok ())) :
    (m.Taken s → ∃ n : Int64, m.memory.evaluate (s.primary.getD .null) = .ok (.integer n) ∧
      0 ≤ n.toInt ∧ n.toInt ≤ Int32.maxValue.toInt ∧ (next.ip : Int) = n.toInt) ∧
    (¬m.Taken s → next.ip = m.ip + 1) ∧ (next.running = false ↔ s.operation = .exit) := by
  obtain ⟨executed, hexecute, hip, hrun⟩ := step_eq_ok h
  obtain ⟨hplace, hgoing⟩ := place_of_execute_ok hexecute
  refine ⟨?_, ?_, ?_⟩
  · intro htaken
    obtain ⟨_, n, ha, hpos, hle, hjumped⟩ :=
      (jump_of_execute_ok hjump hexecute).resolve_right fun hother => hother.1 htaken
    have hlast := lastTarget_eq
    rw [hjumped, Option.getD_some] at hip
    exact ⟨n, ha, hpos, by omega, by omega⟩
  · intro hnot
    have hnone := ((jump_of_execute_ok hjump hexecute).resolve_left fun hother => hnot hother.1).2
    rw [hip, hnone, Option.getD_none, hplace]
  · rw [hrun, hgoing, hrunning]
    simp

-- An operation that touches neither memory nor files gives up nothing.
theorem execute_of_idle {a b : Value} {performed : Machine}
    (ha : m.memory.evaluate (s.primary.getD .null) = .ok a)
    (hb : m.memory.evaluateOperand s.secondary = .ok b)
    (hperform : m.perform s (s.primary.getD .null) a b = performed.done)
    (hmemory : performed.memory = m.memory) : m.execute s = performed.done := by
  rw [m.execute_of_operands s ha hb, hperform]
  dsimp only [done]
  rw [release_of_held performed fun handle hmem => hmemory ▸ (mem_leaving ha hb).mp hmem]

theorem step_of_primary_error {e : RuntimeError}
    (h : m.memory.evaluate (s.primary.getD .null) = .error e) : m.step s = m.fail e := by
  rw [step, m.execute_of_primary_error s h]
  rfl

-- A label does nothing, if only its name can be looked up.
theorem step_label {a : Value} (hs : s.operation = .label) (hjump : m.jump = none)
    (ha : m.memory.evaluate (s.primary.getD .null) = .ok a) (hsecondary : s.secondary = none) :
    m.step s = done { m with ip := m.ip + 1 } := by
  have hb : m.memory.evaluateOperand s.secondary = .ok .null := by
    rw [hsecondary]
    rfl
  rw [step, execute_of_idle ha hb (perform_label hs) rfl]
  dsimp only [done]
  rw [hjump]
  rfl

theorem step_goto {b : Value} {n : Int64} {k : Nat} (hs : s.operation = .goto)
    (hjump : m.jump = none)
    (ha : m.memory.evaluate (s.primary.getD .null) = .ok (.integer n)) (hn : n.toInt = k)
    (hk : k ≤ lastTarget) (hb : m.memory.evaluateOperand s.secondary = .ok b)
    (hnonzero : b.equals (.integer 0) = false) : m.step s = done { m with ip := k } := by
  have hindex : Number.toIndex? n = some k := by
    rw [Number.toIndex?, hn, if_pos (Int.natCast_nonneg k), Int.toNat_natCast]
  have hperform : m.perform s (s.primary.getD .null) (.integer n) b =
      done { m with jump := some k } := by
    rw [perform_goto hs, goto, hindex]
    simp [Nat.not_lt.mpr hk, hnonzero]
  rw [step, execute_of_idle ha hb hperform rfl]
  dsimp only [done]
  rw [hjump]
  rfl

theorem ip_of_step_error {fault : Fault} (h : m.step s = (next, .error fault)) :
    next.ip = m.ip := by
  unfold step at h
  split at h
  · cases h
  · rcases m.execute_cases s with ⟨e, _, hfail⟩ | ⟨a, b, _, _, hdeed⟩
    · rw [hfail] at h
      cases h
      rfl
    · rw [h] at hdeed
      exact hdeed.control.1

-- A step leaves no jump behind.
theorem jump_step (hjump : m.jump = none) (s : Statement) : (m.step s).1.jump = none := by
  unfold step
  split
  · rfl
  · rename_i hfailed
    rcases m.execute_cases s with ⟨e, _, hfail⟩ | ⟨a, b, _, _, hdeed⟩
    · rw [hfail]
      exact hjump
    · have houtcome : (m.execute s).2 ≠ .ok () := fun hok => hfailed (m.execute s).1 (by rw [← hok])
      exact (hdeed.control.2.1 (.inr houtcome)).trans hjump

theorem Reachable.jump_eq_none (h : m.Reachable) : m.jump = none := by
  induction h with
  | load program world => rfl
  | outside console log _ ih => exact ih
  | step s _ ih => exact jump_step ih s

end LineScript.Machine

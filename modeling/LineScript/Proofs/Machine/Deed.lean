import LineScript.Proofs.Machine.Performing
import LineScript.Proofs.Machine.Operational
import LineScript.Proofs.Memory.Path

namespace LineScript

-- The errors of a variable that does not take a value.
def RuntimeError.isRefusal : RuntimeError → Bool
  | .unboundVariable _ | .stringAssignment => true
  | _ => false

-- A value on its way into a variable.
structure Delivery where
  target : Token
  value : Value
  create : Bool

-- Writes one after the other, up to the first that is refused.
def Memory.deliver (memory : Memory) : List Delivery → Memory × Except Fault Unit
  | [] => (memory, .ok ())
  | delivery :: rest =>
      match memory.write delivery.target.text delivery.value delivery.create with
      | .ok next => next.deliver rest
      | .error e => (memory, .error (.error e))

namespace Memory

variable {memory : Memory} {e : RuntimeError}

theorem error_of_assign {new value : Value} {path : List (String × Value)}
    (h : assign new path value = .error e) : e.isLookup = true ∨ e.isRefusal = true := by
  induction path generalizing value with
  | nil => cases h
  | cons place rest ih =>
      rw [assign] at h
      cases value with
      | list items =>
          rw [Value.modifyElement] at h
          rcases Value.found_checkedIndex place.2 items.length with ⟨i, hi⟩ | ⟨e', he', hlookup⟩
          · rw [hi, Except.bind] at h
            cases hrest : assign new rest (items.getD i .null) with
            | ok item =>
                rw [hrest] at h
                cases h
            | error e' =>
                rw [hrest] at h
                cases h
                exact ih hrest
          · rw [he'] at h
            cases h
            exact .inl hlookup
      | string text =>
          cases h
          exact .inr rfl
      | _ =>
          cases h
          exact .inl rfl

-- A write fails in following its accessors or because the variable does not take the value.
theorem error_of_write {text : String} {value : Value} {create : Bool}
    (h : memory.write text value create = .error e) : e.isLookup = true ∨ e.isRefusal = true := by
  unfold write at h
  dsimp only at h
  split_ifs at h
  · cases h
    exact .inr rfl
  · rcases memory.found_resolve (Name.ofText text).base (Name.ofText text).accessors with
      ⟨path, hpath⟩ | ⟨e', he', hlookup⟩
    · rw [hpath, Except.bind] at h
      split at h
      · cases h
        exact .inr rfl
      · rename_i old hold
        cases hassign : assign value path old with
        | ok stored => simp [hassign, Except.map] at h
        | error e' =>
            rw [hassign] at h
            cases h
            exact error_of_assign hassign
    · rw [he'] at h
      cases h
      exact .inl hlookup

-- What each of the writes preserves, they preserve together.
theorem deliver_preserves {deliveries : List Delivery} (inv : Memory → Prop)
    (hwrite : ∀ delivery ∈ deliveries, ∀ memory next, inv memory →
      memory.write delivery.target.text delivery.value delivery.create = .ok next → inv next)
    (h : inv memory) : inv (memory.deliver deliveries).1 := by
  induction deliveries generalizing memory with
  | nil => exact h
  | cons delivery rest ih =>
      obtain ⟨hfirst, hrest⟩ := List.forall_mem_cons.mp hwrite
      rw [deliver]
      split
      · rename_i next hnext
        exact ih hrest (hfirst memory next h hnext)
      · exact h

theorem error_of_deliver {deliveries : List Delivery} {fault : Fault}
    (h : (memory.deliver deliveries).2 = .error fault) :
    ∃ e, fault = .error e ∧ (e.isLookup = true ∨ e.isRefusal = true) := by
  induction deliveries generalizing memory with
  | nil => cases h
  | cons delivery rest ih =>
      rw [deliver] at h
      split at h
      · exact ih h
      · rename_i e hwrite
        cases h
        exact ⟨e, rfl, error_of_write hwrite⟩

end Memory

namespace Machine

-- All of a machine but the world outside.
structure Own where
  memory : Memory
  ip : Nat
  jump : Option Nat
  running : Bool

def own (m : Machine) : Own := ⟨m.memory, m.ip, m.jump, m.running⟩

-- What an operation writes once its operands are evaluated and its own work is done. Only a READ
-- at the end of its file writes twice.
inductive Delivers (m : Machine) (s : Statement) (target : Token) (a b : Value) :
    List Delivery → Prop where
  | computed {create : Bool} {value : Value}
      (hcomputed : s.operation.computed? m.world.opened m.world.room a b =
        some (create, .ok value)) :
      Delivers m s target a b [⟨target, value, create⟩]
  | tested {outcome : Value} (htested : s.operation.tested? a b = some outcome)
      (hcomparable : outcome ≠ .incomparable) :
      Delivers m s target a b [⟨⟨.name, Scope.result⟩, outcome, true⟩]
  | drawn {value : Value} (hs : s.operation = .random)
      (hvalue : (∃ n, value = .integer n) ∨ ∃ x, value = .float x) :
      Delivers m s target a b [⟨target, value, true⟩]
  | opened {value : Value} {handle : Handle}
      (hs : s.operation = .openRead ∨ s.operation = .openWrite)
      (hvalue : value.handle? = some handle) : Delivers m s target a b [⟨target, value, true⟩]
  | closed {handle : Handle} (hs : s.operation = .close) (hfile : a.handle? = some handle) :
      Delivers m s target a b [⟨target, .null, false⟩]
  | line {handle : Handle} {line : String} (hs : s.operation = .read) (hfile : a = .reader handle)
      (hline : (m.world.files.readLine handle).2 = .ok (some line)) :
      Delivers m s target a b [⟨s.secondary.getD .null, .ofLine line, true⟩]
  | ended {handle : Handle} (hs : s.operation = .read) (hfile : a = .reader handle)
      (hend : (m.world.files.readLine handle).2 = .ok none) :
      Delivers m s target a b
        [⟨target, .null, false⟩, ⟨s.secondary.getD .null, .null, true⟩]
  | replied {reply : String} {value : Value} (hs : s.operation = .input)
      (hvalue : replyValue m.memory reply = .ok value) :
      Delivers m s target a b [⟨target, value, true⟩]

-- All that an operation can do to the machine itself, and how it then ends.
inductive Deed (m : Machine) (s : Statement) (target : Token) (a b : Value) :
    Own → Except Fault Unit → Prop where
  | failed {e : RuntimeError} (he : e.isOperational = true) :
      Deed m s target a b m.own (.error (.error e))
  | crashed (hs : s.operation = .write) : Deed m s target a b m.own (.error .crash)
  | idle : Deed m s target a b m.own (.ok ())
  | jumped {index : Nat} (hs : s.operation = .goto) :
      Deed m s target a b { m.own with jump := some index } (.ok ())
  | exited (hs : s.operation = .exit) :
      Deed m s target a b { m.own with running := false } (.ok ())
  | opened (hs : s.operation = .scopeOpen) :
      Deed m s target a b { m.own with memory := m.memory.openScope } (.ok ())
  | closed {memory : Memory} (hs : s.operation = .scopeClose)
      (hclose : m.memory.closeScope = .ok memory) :
      Deed m s target a b { m.own with memory := memory } (.ok ())
  | delivered {deliveries : List Delivery} (h : m.Delivers s target a b deliveries) :
      Deed m s target a b { m.own with memory := (m.memory.deliver deliveries).1 }
        (m.memory.deliver deliveries).2

theorem store_eq (m : Machine) (target : Token) (value : Value) (create : Bool) :
    m.store target value create =
      ({ m with memory := (m.memory.deliver [⟨target, value, create⟩]).1 },
        (m.memory.deliver [⟨target, value, create⟩]).2) := by
  rw [Memory.deliver]
  unfold store
  cases m.memory.write target.text value create <;> rfl

theorem own_store (m : Machine) (target : Token) (value : Value) (create : Bool) :
    (m.store target value create).1.own =
      { m.own with memory := (m.memory.deliver [⟨target, value, create⟩]).1 } := by
  rw [store_eq]
  rfl

theorem outcome_store (m : Machine) (target : Token) (value : Value) (create : Bool) :
    (m.store target value create).2 = (m.memory.deliver [⟨target, value, create⟩]).2 := by
  rw [store_eq]

namespace Deed

variable {m : Machine} {s : Statement} {target : Token} {a b : Value}

-- A failure in a changed world.
theorem fail {other : Machine} {e : RuntimeError} (hown : other.own = m.own)
    (he : e.isOperational = true) :
    m.Deed s target a b (other.fail e).1.own (other.fail e).2 := by
  change m.Deed s target a b other.own _
  rw [hown]
  exact .failed he

theorem done {other : Machine} (hown : other.own = m.own) :
    m.Deed s target a b other.done.1.own other.done.2 := by
  change m.Deed s target a b other.own _
  rw [hown]
  exact .idle

theorem store {other : Machine} {token : Token} {value : Value} {create : Bool}
    (hown : other.own = m.own) (h : m.Delivers s target a b [⟨token, value, create⟩]) :
    m.Deed s target a b (other.store token value create).1.own
      (other.store token value create).2 := by
  have hmemory : other.memory = m.memory := congrArg Own.memory hown
  rw [own_store, outcome_store, hown, hmemory]
  exact .delivered h

theorem storeResult {other : Machine} {token : Token} {create : Bool}
    {result : Except RuntimeError Value} (hown : other.own = m.own) (hresult : Operational result)
    (h : ∀ value, result = .ok value → m.Delivers s target a b [⟨token, value, create⟩]) :
    m.Deed s target a b (other.storeResult token create result).1.own
      (other.storeResult token create result).2 := by
  cases result with
  | ok value => exact .store hown (h value rfl)
  | error e => exact .fail hown (hresult e rfl)

end Deed

section

variable (m : Machine) {s : Statement} (target : Token) (a b : Value)

theorem deed_test {outcome : Value} (htested : s.operation.tested? a b = some outcome) :
    m.Deed s target a b (m.test a b outcome).1.own (m.test a b outcome).2 := by
  unfold test
  split
  · exact .fail rfl rfl
  · rename_i hcomparable
    exact .store rfl (.tested htested hcomparable)

theorem deed_random (hs : s.operation = .random) :
    m.Deed s target a b (m.random target b).1.own (m.random target b).2 := by
  have hdrawn (random : Random) :
      { m with world := { m.world with random := random } }.own = m.own := rfl
  unfold random
  dsimp only
  split
  · split
    · exact .fail rfl rfl
    · exact .store rfl (.drawn hs (.inl ⟨0, rfl⟩))
    · exact .store (hdrawn _) (.drawn hs (.inl ⟨_, rfl⟩))
  · exact .store (hdrawn _) (.drawn hs (.inr ⟨_, rfl⟩))
  · exact .fail rfl rfl

theorem deed_openFile (hs : s.operation = .openRead ∨ s.operation = .openWrite) :
    m.Deed s target a b (m.openFile s.operation target b).1.own
      (m.openFile s.operation target b).2 := by
  unfold openFile
  simp only [borrowing_none]
  split
  · rename_i text
    split
    · rename_i e hopened
      refine .fail rfl ?_
      split_ifs at hopened
      · exact (Files.operational_openRead _ _).map _ e hopened
      · exact (Files.operational_openWrite _ _).map _ e hopened
    · rename_i files handle value hopened
      have hvalue : value.handle? = some handle := by
        split_ifs at hopened
        · obtain ⟨given, _, hgiven⟩ := map_eq_ok.mp hopened
          cases hgiven
          rfl
        · obtain ⟨given, _, hgiven⟩ := map_eq_ok.mp hopened
          cases hgiven
          rfl
      generalize hnoted : (m.withFiles files).note _ = noted
      have hown : noted.own = m.own := by
        rw [← hnoted]
        rfl
      have hstored : m.Deed s target a (.string text) (noted.store target value true).1.own
          (noted.store target value true).2 := .store hown (.opened hs hvalue)
      split
      · rename_i stored hstore
        rw [hstore] at hstored
        exact hstored
      · rename_i unstored fault _ hstore
        rw [hstore] at hstored
        exact hstored
  · exact .fail rfl rfl

theorem deed_closeFile (hs : s.operation = .close) :
    m.Deed s target a b (m.closeFile target a).1.own (m.closeFile target a).2 := by
  unfold closeFile
  simp only [borrowing_none]
  split
  · rename_i handle hfile
    split
    · exact .store rfl (.closed hs hfile)
    · rename_i files e hclose
      exact .fail rfl (Files.operational_close _ _ e (by rw [hclose]))
  · exact .fail rfl rfl

-- At the end of the file the variable of the file is cleared first, and then the target.
theorem readFrom_of_end {handle : Handle} (hend : (m.world.files.readLine handle).2 = .ok none)
    (fileToken : Token) :
    (m.readFrom fileToken (.reader handle) target).1.own =
        { m.own with memory :=
            (m.memory.deliver [⟨fileToken, .null, false⟩, ⟨target, .null, true⟩]).1 } ∧
      (m.readFrom fileToken (.reader handle) target).2 =
        (m.memory.deliver [⟨fileToken, .null, false⟩, ⟨target, .null, true⟩]).2 := by
  unfold readFrom
  simp only [borrowing_none]
  split
  · rename_i hread
    rw [hread] at hend
    cases hend
  · rename_i hread
    rw [hread] at hend
    cases hend
  · rename_i files hread
    generalize hclosed : m.withFiles (files.close handle).1 = closed
    have hmemory : closed.memory = m.memory := by
      rw [← hclosed]
      rfl
    have hown : closed.own = m.own := by
      rw [← hclosed]
      rfl
    rw [Memory.deliver, store, hmemory]
    cases m.memory.write fileToken.text .null false with
    | error e => exact ⟨hown, rfl⟩
    | ok memory =>
        refine ⟨(own_store _ target .null true).trans ?_, outcome_store _ target .null true⟩
        rw [← hown]
        rfl

theorem deed_readFrom (hs : s.operation = .read) :
    m.Deed s target a b (m.readFrom target a (s.secondary.getD .null)).1.own
      (m.readFrom target a (s.secondary.getD .null)).2 := by
  cases a with
  | reader handle =>
      by_cases hend : (m.world.files.readLine handle).2 = .ok none
      · obtain ⟨hown, houtcome⟩ := m.readFrom_of_end (s.secondary.getD .null) hend target
        rw [hown, houtcome]
        exact .delivered (.ended hs rfl hend)
      · unfold readFrom
        simp only [borrowing_none]
        split
        · rename_i files e hread
          exact .fail rfl (Files.operational_readLine _ _ e (by rw [hread]))
        · rename_i files line hread
          exact .store rfl (.line hs rfl (by rw [hread]))
        · rename_i files hread
          rw [hread] at hend
          exact absurd rfl hend
  | _ => exact .fail rfl rfl

theorem deed_writeTo (hs : s.operation = .write) :
    m.Deed s target a b (m.writeTo a b).1.own (m.writeTo a b).2 := by
  cases a with
  | writer handle =>
      rw [writeTo_writer]
      split_ifs
      · exact .crashed hs
      · split
        · exact .done rfl
        · rename_i files e hwrite
          exact .fail rfl (Files.operational_writeLine _ _ _ e (by rw [hwrite]))
  | _ => exact .fail rfl rfl

theorem deed_say (text : String) :
    m.Deed s target a b (m.say text).1.own (m.say text).2 := by
  unfold say
  split
  · exact .done rfl
  · exact .fail rfl rfl

theorem own_say (text : String) : (m.say text).1.own = m.own := by
  unfold say
  split <;> rfl

theorem deed_ask (hs : s.operation = .input) :
    m.Deed s target a b (m.ask target b).1.own (m.ask target b).2 := by
  unfold ask
  split
  · rename_i text
    have hown := m.own_say text
    have hsay : m.Deed s target a (.string text) (m.say text).1.own (m.say text).2 :=
      m.deed_say target a _ text
    split
    · rename_i asked fault hsaid
      rw [hsaid] at hsay
      exact hsay
    · rename_i asked hsaid
      rw [hsaid] at hown
      have hmemory : asked.memory = m.memory := congrArg Own.memory hown
      split
      · rename_i e hflush
        exact .fail hown (operational_flush _ e hflush)
      · split
        · exact .fail hown rfl
        · rename_i console reply _
          refine .storeResult hown (found_replyValue _ reply).operational ?_
          intro value hvalue
          rw [show (asked.withConsole console).memory = m.memory from hmemory] at hvalue
          exact .replied hs hvalue
  · exact .fail rfl rfl

theorem deed_goto (hs : s.operation = .goto) :
    m.Deed s target a b (m.goto a b).1.own (m.goto a b).2 := by
  unfold goto
  split
  · split
    · exact .fail rfl rfl
    · split_ifs
      · exact .fail rfl rfl
      · exact .done rfl
      · exact .jumped hs
  · exact .fail rfl rfl

end

theorem deed_perform (m : Machine) (s : Statement) (target : Token) (a b : Value) :
    m.Deed s target a b (m.perform s target a b).1.own (m.perform s target a b).2 := by
  rw [perform_eq_act]
  unfold act
  split
  · rename_i create result hcomputed
    refine .storeResult rfl (Operation.operational_computed? hcomputed) ?_
    rintro value rfl
    exact .computed hcomputed
  · split
    · rename_i outcome htested
      exact m.deed_test target a b htested
    · split
      · rename_i hs
        exact m.deed_random target a b hs
      · rename_i hs
        exact m.deed_openFile target a b (.inl hs)
      · rename_i hs
        exact m.deed_openFile target a b (.inr hs)
      · rename_i hs
        exact m.deed_closeFile target a b hs
      · rename_i hs
        exact m.deed_readFrom target a b hs
      · rename_i hs
        exact m.deed_writeTo target a b hs
      · rename_i hs
        exact m.deed_ask target a b hs
      · exact m.deed_say target a b _
      · rename_i hs
        exact .opened hs
      · rename_i hs
        split
        · rename_i memory hclose
          exact .closed hs hclose
        · rename_i e hclose
          refine .fail rfl ?_
          unfold Memory.closeScope at hclose
          split at hclose <;> cases hclose
          rfl
      · split
        · exact .idle
        · rename_i e hwait
          exact .fail rfl (operational_waitingTime _ e hwait)
      · rename_i hs
        exact m.deed_goto target a b hs
      · rename_i hs
        exact .exited hs
      · exact .fail rfl rfl
      · exact .idle

theorem Deed.error_cases {m : Machine} {s : Statement} {target : Token} {a b : Value} {after : Own}
    {e : RuntimeError} (h : m.Deed s target a b after (.error (.error e))) :
    e.isOperational = true ∨ e.isRefusal = true := by
  generalize houtcome : (.error (.error e) : Except Fault Unit) = outcome at h
  cases h with
  | failed he =>
      cases houtcome
      exact .inl he
  | delivered _ =>
      obtain ⟨e', he', hcause⟩ := Memory.error_of_deliver houtcome.symm
      cases he'
      exact hcause.imp_left RuntimeError.isOperational_of_isLookup
  | _ => cases houtcome

theorem own_release (m : Machine) (leaving : List Handle) : (m.release leaving).own = m.own := by
  unfold release
  split <;> rfl

section

variable (m : Machine) (s : Statement) {a b : Value} {e : RuntimeError}

theorem execute_of_primary_error (h : m.memory.evaluate (s.primary.getD .null) = .error e) :
    m.execute s = m.fail e := by
  rw [execute_eq_attempt]
  unfold attempt
  dsimp only
  rw [h]

theorem execute_of_secondary_error (ha : m.memory.evaluate (s.primary.getD .null) = .ok a)
    (h : m.memory.evaluateOperand s.secondary = .error e) : m.execute s = m.fail e := by
  rw [execute_eq_attempt]
  unfold attempt
  dsimp only
  rw [ha, h]

theorem execute_of_operands (ha : m.memory.evaluate (s.primary.getD .null) = .ok a)
    (hb : m.memory.evaluateOperand s.secondary = .ok b) :
    m.execute s = ((m.perform s (s.primary.getD .null) a b).1.release (m.leaving a b),
      (m.perform s (s.primary.getD .null) a b).2) := by
  rw [execute_eq_attempt]
  unfold attempt
  dsimp only
  rw [ha, hb]

-- A statement fails in looking up an operand, or does what its operation can do.
theorem execute_cases :
    (∃ e, (m.memory.evaluate (s.primary.getD .null) = .error e ∨
        ∃ a, m.memory.evaluate (s.primary.getD .null) = .ok a ∧
          m.memory.evaluateOperand s.secondary = .error e) ∧ m.execute s = m.fail e) ∨
      ∃ a b, m.memory.evaluate (s.primary.getD .null) = .ok a ∧
        m.memory.evaluateOperand s.secondary = .ok b ∧
        m.Deed s (s.primary.getD .null) a b (m.execute s).1.own (m.execute s).2 := by
  cases ha : m.memory.evaluate (s.primary.getD .null) with
  | error e => exact .inl ⟨e, .inl rfl, m.execute_of_primary_error s ha⟩
  | ok a =>
      cases hb : m.memory.evaluateOperand s.secondary with
      | error e => exact .inl ⟨e, .inr ⟨a, rfl, rfl⟩, m.execute_of_secondary_error s ha hb⟩
      | ok b =>
          refine .inr ⟨a, b, rfl, rfl, ?_⟩
          rw [m.execute_of_operands s ha hb, own_release]
          exact m.deed_perform s _ a b

end

end Machine

end LineScript

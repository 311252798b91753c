import LineScript.Proofs.Memory.Lookup
import LineScript.Machine

namespace LineScript

-- The errors an operation can end in by itself: all but the refusals of a variable to take a value
-- and those that blame an operand for how it is written.
def RuntimeError.isOperational : RuntimeError → Bool
  | .unboundVariable _ | .stringAssignment | .notAValue _ | .malformedLiteral _ => false
  | _ => true

-- An outcome that fails, if it does, with such an error.
def Operational {α : Type} (outcome : Except RuntimeError α) : Prop :=
  ∀ e, outcome = .error e → e.isOperational = true

namespace Operational

variable {α β : Type}

theorem ok (value : α) : Operational (.ok value) := by
  intro e h
  cases h

theorem error {e : RuntimeError} (he : e.isOperational = true) :
    Operational (.error e : Except _ α) := by
  intro e' h
  cases h
  exact he

theorem map {outcome : Except RuntimeError α} (h : Operational outcome) (f : α → β) :
    Operational (outcome.map f) := by
  cases outcome with
  | ok value => exact ok (f value)
  | error e => exact error (h e rfl)

end Operational

theorem RuntimeError.isOperational_of_isLookup {e : RuntimeError} (h : e.isLookup = true) :
    e.isOperational = true := by
  cases e <;> simp_all [RuntimeError.isLookup, RuntimeError.isOperational]

theorem Found.operational {α : Type} {outcome : Except RuntimeError α} (h : Found outcome) :
    Operational outcome := by
  rcases h with ⟨value, rfl⟩ | ⟨e, rfl, he⟩
  · exact .ok value
  · exact .error (RuntimeError.isOperational_of_isLookup he)

namespace Value

theorem operational_numeric {operator : Operator}
    {integers : Int64 → Int64 → Except RuntimeError Int64} {floats : Float → Float → Float}
    (h : ∀ m n, Operational (integers m n)) (a b : Value) :
    Operational (numeric operator integers floats a b) := by
  unfold numeric
  split
  · exact (h _ _).map _
  · split
    · exact .ok _
    · exact .error rfl

theorem operational_integral {operator : Operator}
    {integers : Int64 → Int64 → Except RuntimeError Int64}
    (h : ∀ m n, Operational (integers m n)) (a b : Value) :
    Operational (integral operator integers a b) := by
  unfold integral
  split
  · exact (h _ _).map _
  · exact .error rfl

theorem operational_unlessZero (divide : Int64 → Int64 → Int64) (m n : Int64) :
    Operational (if n = 0 then .error .divisionByZero else .ok (divide m n)) := by
  split_ifs
  · exact .error rfl
  · exact .ok _

theorem operational_floatPower (a b : Value) : Operational (floatPower a b) := by
  unfold floatPower
  split
  · exact .ok _
  · exact .error rfl

theorem operational_power (a b : Value) : Operational (power a b) := by
  unfold power
  split
  · split
    · exact .ok _
    · exact operational_floatPower _ _
  · exact operational_floatPower _ _

theorem operational_nulls (room : Nat) (size : Value) : Operational (nulls room size) := by
  unfold nulls
  split
  · split
    · split_ifs
      · exact .ok _
      · exact .error rfl
    · exact .error rfl
  · exact .error rfl

end Value

theorem Operation.operational_computed? {operation : Operation} {opened : Handle → Bool}
    {room : Nat} {a b : Value} {create : Bool} {result : Except RuntimeError Value}
    (h : operation.computed? opened room a b = some (create, result)) : Operational result := by
  cases operation <;> simp only [Operation.computed?, Option.some.injEq, Prod.mk.injEq,
    reduceCtorEq] at h
  all_goals obtain ⟨_, rfl⟩ := h
  case set | type => exact .ok _
  case add | subtract | multiply => exact Value.operational_numeric (fun m n => .ok _) a b
  case divide => exact Value.operational_numeric (Value.operational_unlessZero _) a b
  case modulus => exact Value.operational_integral (Value.operational_unlessZero _) a b
  case bitwiseAnd | bitwiseOr | bitwiseXor =>
    exact Value.operational_integral (fun m n => .ok _) a b
  case power => exact Value.operational_power a b
  case list => exact Value.operational_nulls room b
  case logarithm =>
    unfold Value.logarithm
    split
    · exact .ok _
    · exact .error rfl
  case bitwiseNegate | round | append | size =>
    cases a <;> cases b <;> first | exact .ok _ | exact .error rfl

namespace Files

theorem operational_openRead (files : Files) (name : String) :
    Operational (files.openRead name) := by
  unfold openRead
  split
  · exact .ok _
  · exact .error rfl

theorem operational_openWrite (files : Files) (name : String) :
    Operational (files.openWrite name) := by
  unfold openWrite
  split
  · exact .ok _
  · exact .error rfl

theorem operational_readLine (files : Files) (handle : Handle) :
    Operational (files.readLine handle).2 := by
  unfold readLine
  split
  · dsimp only
    split_ifs
    · exact .error rfl
    · exact .ok _
    · split
      · exact .ok _
      · exact .error rfl
  · exact .error rfl

theorem operational_mapError (name : String) (outcome : Except IoError Unit) :
    Operational (outcome.mapError (.file name)) := by
  cases outcome with
  | ok value => exact .ok value
  | error e => exact .error rfl

theorem operational_writeLine (files : Files) (handle : Handle) (text : String) :
    Operational (files.writeLine handle text).2 := by
  unfold writeLine
  split
  · exact operational_mapError _ _
  · exact .error rfl

theorem operational_close (files : Files) (handle : Handle) :
    Operational (files.close handle).2 :=
  operational_mapError _ _

end Files

namespace Machine

-- A reply is evaluated only if it was read as a token.
theorem found_replyValue (memory : Memory) (reply : String) : Found (replyValue memory reply) := by
  unfold replyValue
  split
  · rename_i token hread
    split_ifs with hkind
    · have htokens := Token.readSingle_eq_ok_iff.mp hread
      refine Memory.found_evaluate htokens (List.mem_singleton_self token) ?_ memory
      rcases hkind with hkind | hkind <;> simp [Grammar.anyValue, hkind]
    · exact .ok _
  · exact .ok _

theorem operational_flush (m : Machine) : Operational m.flush := by
  unfold flush
  cases m.world.console.flush with
  | ok value => exact .ok value
  | error e => exact .error rfl

theorem operational_waitingTime (seconds : Value) : Operational (waitingTime seconds) := by
  unfold waitingTime
  split
  · exact .error rfl
  · split
    · exact .ok _
    · exact .error rfl

end Machine

end LineScript

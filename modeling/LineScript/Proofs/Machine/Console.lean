import LineScript.Proofs.Machine.Frame

namespace LineScript

namespace Console

-- The same console with an output that takes so many bytes.
def limited (console : Console) (n : Nat) : Console := { console with limit := some n }

variable {console : Console} {n : Nat} {text : String}

theorem write_of_free (hfree : console.limit = none) (text : String) :
    console.write text =
      ({ console with output := console.output ++ Text.encode text }, .ok ()) := by
  simp [write, hfree]

theorem write_limited_of_fits (h : (console.output ++ Text.encode text).size ≤ n) :
    (console.limited n).write text =
      ({ console.limited n with output := console.output ++ Text.encode text }, .ok ()) :=
  if_pos h

theorem write_limited_of_over (h : n < (console.output ++ Text.encode text).size) :
    (console.limited n).write text =
      ({ console.limited n with output := (console.output ++ Text.encode text).take n },
        .error .outputLimit) :=
  if_neg (Nat.not_le.mpr h)

end Console

namespace Machine

def output (m : Machine) : Text.Bytes := m.world.console.output

def limited (m : Machine) (n : Nat) : Machine := m.withConsole (m.world.console.limited n)

theorem store_withConsole (m : Machine) (console : Console) (target : Token) (value : Value)
    (create : Bool) :
    (m.withConsole console).store target value create =
      (m.store target value create).under (·.withConsole console) := by
  unfold store
  rw [show (m.withConsole console).memory = m.memory from rfl]
  cases m.memory.write target.text value create <;> rfl

-- The console has no part in an operation on variables and files,
theorem unnoticed_withConsole (console : Console) : Unnoticed (·.withConsole console) where
  files _ := rfl
  random _ := rfl
  room _ := rfl
  withFiles _ _ := rfl
  withRandom _ _ := rfl
  note _ _ := rfl
  store m := m.store_withConsole console
  jumping _ _ := rfl
  stopping _ := rfl

-- and so a limit to its output has none.
theorem unnoticed_limited (n : Nat) : Unnoticed (·.limited n) where
  files _ := rfl
  random _ := rfl
  room _ := rfl
  withFiles _ _ := rfl
  withRandom _ _ := rfl
  note _ _ := rfl
  store m target value create := by
    have hworld := m.world_store target value create
    rw [limited, store_withConsole, Result.under, Result.under, limited, hworld]
  jumping _ _ := rfl
  stopping _ := rfl

theorem console_of_unnoticed {m : Machine} {result : Result}
    (h : result = result.under (·.withConsole m.world.console)) :
    result.1.world.console = m.world.console := by
  rw [h]
  rfl

theorem console_storeResult (m : Machine) (target : Token) (create : Bool)
    (result : Except RuntimeError Value) :
    (m.storeResult target create result).1.world.console = m.world.console :=
  console_of_unnoticed ((unnoticed_withConsole m.world.console).storeResult m target create result)

theorem console_release (m : Machine) (leaving : List Handle) :
    (m.release leaving).world.console = m.world.console := by
  unfold release
  split <;> rfl

-- One result on a console that takes everything, and one on a console with a limit. They differ in
-- the limit only as long as the output fits; after that the limited one is a failure.
structure Truncated (n : Nat) (m : Machine) (free cut : Result) : Prop where
  unlimited : free.1.world.console.limit = none
  grown : ∃ added, free.1.output = m.output ++ added
  fits : free.1.output.size ≤ n → cut = free.under (·.limited n)
  exceeds : m.output.size ≤ n → n < free.1.output.size →
    ∃ last : Machine, cut = last.fail (.console .outputLimit) ∧ last.ip = m.ip ∧
      last.output = free.1.output.take n

namespace Truncated

variable {n : Nat} {m : Machine} {free cut : Result}

-- Nothing is written.
theorem of_silent (hfree : m.world.console.limit = none)
    (hconsole : free.1.world.console = m.world.console) (h : cut = free.under (·.limited n)) :
    Truncated n m free cut where
  unlimited := by rw [hconsole, hfree]
  grown := ⟨#[], by simp [output, hconsole]⟩
  fits _ := h
  exceeds hbefore hover := by
    have hsame : free.1.output = m.output := by rw [output, hconsole, output]
    rw [hsame] at hover
    omega

theorem release (h : Truncated n m free cut) (leaving : List Handle) :
    Truncated n m (free.1.release leaving, free.2) (cut.1.release leaving, cut.2) where
  unlimited := by rw [console_release, h.unlimited]
  grown := by
    rw [output, console_release]
    exact h.grown
  fits hfits := by
    rw [output, console_release] at hfits
    rw [h.fits hfits]
    exact congrArg (·, free.2) ((unnoticed_limited n).release free.1 rfl leaving)
  exceeds hbefore hover := by
    rw [output, console_release] at hover
    obtain ⟨last, hcut, hip, houtput⟩ := h.exceeds hbefore hover
    refine ⟨last.release leaving, by rw [hcut]; rfl, ?_, ?_⟩
    · rw [← hip]
      unfold Machine.release
      split <;> rfl
    · rw [output, console_release, output, console_release]
      exact houtput

theorem settle (h : Truncated n m free cut) : Truncated n m free.settle cut.settle := by
  have hconsole : free.settle.1.world.console = free.1.world.console := by
    obtain ⟨next, outcome⟩ := free
    cases outcome <;> rfl
  have houtput : free.settle.1.output = free.1.output := congrArg Console.output hconsole
  constructor
  · rw [hconsole, h.unlimited]
  · rw [houtput]
    exact h.grown
  · intro hfits
    rw [houtput] at hfits
    rw [h.fits hfits]
    obtain ⟨next, outcome⟩ := free
    cases outcome <;> rfl
  · intro hbefore hover
    rw [houtput] at hover
    obtain ⟨last, hcut, hip, hlast⟩ := h.exceeds hbefore hover
    refine ⟨last, ?_, hip, ?_⟩
    · rw [hcut]
      rfl
    · rw [houtput, hlast]

end Truncated

-- What follows a prompt.
def hear (asked : Machine) (target : Token) : Result :=
  match asked.flush with
  | .error e => asked.fail e
  | .ok () =>
      match asked.world.console.readLine with
      | (console, .error e) => (asked.withConsole console).fail (.console e)
      | (console, .ok reply) =>
          (asked.withConsole console).storeResult target true (replyValue asked.memory reply)

theorem ask_eq (m : Machine) (target : Token) (text : String) :
    m.ask target (.string text) =
      match m.say text with
      | (asked, .error fault) => (asked, .error fault)
      | (asked, .ok ()) => asked.hear target := rfl

-- Listening writes nothing.
theorem console_hear (asked : Machine) (target : Token) :
    (asked.hear target).1.output = asked.output ∧
      (asked.hear target).1.world.console.limit = asked.world.console.limit := by
  have hread : asked.world.console.readLine.1.output = asked.output ∧
      asked.world.console.readLine.1.limit = asked.world.console.limit := ⟨rfl, rfl⟩
  unfold hear
  split
  · exact ⟨rfl, rfl⟩
  · generalize asked.world.console.readLine = heard at hread ⊢
    obtain ⟨console, reply⟩ := heard
    cases reply with
    | error e => exact hread
    | ok reply =>
        have hstored := (asked.withConsole console).console_storeResult target true
          (replyValue asked.memory reply)
        dsimp only
        rw [output, hstored]
        exact hread

theorem hear_limited (asked : Machine) (n : Nat) (target : Token) :
    (asked.limited n).hear target = (asked.hear target).under (·.limited n) := by
  have hflush : (asked.limited n).flush = asked.flush := rfl
  have hread : (asked.limited n).world.console.readLine =
      (asked.world.console.readLine.1.limited n, asked.world.console.readLine.2) := rfl
  unfold hear
  rw [hflush, hread]
  split
  · rfl
  · generalize asked.world.console.readLine = heard
    obtain ⟨console, reply⟩ := heard
    cases reply with
    | error e => rfl
    | ok reply =>
        exact (unnoticed_limited n).storeResult (asked.withConsole console) target true _

section Operations

variable {m : Machine} (n : Nat) (hfree : m.world.console.limit = none)

include hfree

theorem say_of_free (text : String) :
    m.say text = done (m.withConsole
      { m.world.console with output := m.output ++ Text.encode text }) := by
  simp only [say, Console.write_of_free hfree, output]

theorem truncated_say (text : String) : Truncated n m (m.say text) ((m.limited n).say text) := by
  rw [say_of_free hfree]
  constructor
  · exact hfree
  · exact ⟨Text.encode text, rfl⟩
  · intro hfits
    have hwrite := Console.write_limited_of_fits hfits
    simp only [say, limited, withConsole, hwrite]
    rfl
  · intro _ hover
    have hwrite := Console.write_limited_of_over hover
    simp only [say, limited, withConsole, hwrite]
    exact ⟨_, rfl, rfl, rfl⟩

theorem truncated_ask (target : Token) (prompt : Value) :
    Truncated n m (m.ask target prompt) ((m.limited n).ask target prompt) := by
  cases prompt with
  | string text =>
      have hsay := truncated_say n hfree text
      rw [ask_eq, ask_eq]
      rw [say_of_free hfree] at hsay ⊢
      generalize m.withConsole _ = asked at hsay ⊢
      obtain ⟨houtput, hlimit⟩ := asked.console_hear target
      constructor
      · exact hlimit.trans hsay.unlimited
      · exact houtput ▸ hsay.grown
      · intro hfits
        rw [hsay.fits (houtput ▸ hfits)]
        exact asked.hear_limited n target
      · intro hbefore hover
        obtain ⟨last, hcut, hip, hlast⟩ := hsay.exceeds hbefore (houtput ▸ hover)
        refine ⟨last, ?_, hip, hlast.trans (congrArg (·.take n) houtput.symm)⟩
        rw [hcut]
        rfl
  | _ => exact .of_silent hfree rfl rfl

theorem truncated_perform (s : Statement) (target : Token) (a b : Value) :
    Truncated n m (m.perform s target a b) ((m.limited n).perform s target a b) := by
  by_cases hs : s.operation ∈ [.scopeOpen, .scopeClose, .print, .input]
  · simp only [List.mem_cons, List.not_mem_nil, or_false] at hs
    rcases hs with hs | hs | hs | hs
    · rw [perform_scopeOpen hs, perform_scopeOpen hs]
      exact .of_silent hfree rfl rfl
    · rw [perform_of_operation hs, perform_of_operation hs]
      dsimp only [act, Operation.computed?, Operation.tested?]
      rw [show (m.limited n).memory = m.memory from rfl]
      cases m.memory.closeScope with
      | ok memory => exact .of_silent hfree rfl rfl
      | error e => exact .of_silent hfree rfl rfl
    · rw [perform_print hs, perform_print hs]
      exact truncated_say n hfree _
    · rw [perform_input hs, perform_input hs]
      exact truncated_ask n hfree target b
  · have hsame := (unnoticed_withConsole m.world.console).perform m target a b hs
    exact .of_silent hfree (console_of_unnoticed hsame)
      ((unnoticed_limited n).perform m target a b hs)

theorem truncated_execute (s : Statement) :
    Truncated n m (m.execute s) ((m.limited n).execute s) := by
  rw [execute_eq_attempt, execute_eq_attempt]
  unfold attempt
  dsimp only
  rw [show (m.limited n).memory = m.memory from rfl]
  split
  · exact .of_silent hfree rfl rfl
  · split
    · exact .of_silent hfree rfl rfl
    · exact (truncated_perform n hfree s _ _ _).release (m.leaving _ _)

-- A step on a limited console is that on a console without a limit, or it fails in writing what
-- does not fit.
theorem truncated_step (s : Statement) : Truncated n m (m.step s) ((m.limited n).step s) := by
  rw [step_eq_settle, step_eq_settle]
  exact (truncated_execute n hfree s).settle

end Operations

end Machine

end LineScript

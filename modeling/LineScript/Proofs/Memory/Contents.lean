import LineScript.Proofs.Outcome
import LineScript.Proofs.Value.Handles

namespace LineScript

variable {p : Value → Prop} {allowed : Handle → Prop}

-- Every value of a scope has the property.
def Scope.Each (p : Value → Prop) (scope : Scope) : Prop := ∀ entry ∈ scope, p entry.2

def Scope.Within (allowed : Handle → Prop) (scope : Scope) : Prop :=
  ∀ entry ∈ scope, entry.2.Within allowed

namespace Scope

theorem Each.get? {scope : Scope} (h : scope.Each p) {key : String} {value : Value}
    (hget : scope.get? key = some value) : p value := by
  obtain ⟨before, after, rfl, _⟩ := List.lookup_eq_some_iff.mp hget
  exact h (key, value) (by simp)

theorem Each.getD (hp : Hereditary p) {scope : Scope} (h : scope.Each p) (key : String) :
    p ((scope.get? key).getD .null) := by
  cases hget : scope.get? key with
  | none => exact hp.null
  | some value => exact h.get? hget

theorem get?_cons (entry : String × Value) (rest : Scope) (key : String) :
    Scope.get? (entry :: rest) key = if key = entry.1 then some entry.2 else rest.get? key := by
  unfold get?
  rw [List.lookup_cons]
  by_cases hkey : key = entry.1
  · simp [hkey]
  · have hne : (key == entry.1) = false := beq_eq_false_iff_ne.mpr hkey
    simp [hkey, hne]

theorem get?_insert (scope : Scope) (key other : String) (value : Value) :
    (scope.insert key value).get? other = if other = key then some value else scope.get? other := by
  induction scope with
  | nil => exact get?_cons (key, value) [] other
  | cons entry rest ih =>
      unfold insert
      by_cases hentry : entry.1 = key
      · rw [if_pos hentry, get?_cons, get?_cons, hentry]
        split_ifs <;> rfl
      · rw [if_neg hentry, get?_cons, get?_cons, ih]
        by_cases hkey : other = key
        · have hne : ¬other = entry.1 := fun h => hentry (h.symm.trans hkey)
          rw [if_neg hne, if_pos hkey, if_pos hkey]
        · rw [if_neg hkey, if_neg hkey]

-- No insertion unbinds a variable.
theorem isSome_get?_insert {scope : Scope} {other : String} (h : (scope.get? other).isSome)
    (key : String) (value : Value) : ((scope.insert key value).get? other).isSome := by
  rw [get?_insert]
  split_ifs
  · rfl
  · exact h

theorem Each.insert {scope : Scope} (h : scope.Each p) (key : String) {value : Value}
    (hvalue : p value) : (scope.insert key value).Each p := by
  induction scope with
  | nil => simpa [Scope.insert, Scope.Each] using hvalue
  | cons entry rest ih =>
      obtain ⟨hentry, hrest⟩ := List.forall_mem_cons.mp h
      unfold Scope.insert
      split_ifs
      · exact List.forall_mem_cons.mpr ⟨hvalue, hrest⟩
      · exact List.forall_mem_cons.mpr ⟨hentry, ih hrest⟩

theorem each_fresh (hp : Hereditary p) : Scope.fresh.Each p := by
  intro entry hentry
  simp only [fresh, List.mem_cons, List.not_mem_nil, or_false] at hentry
  rcases hentry with rfl | rfl | rfl | rfl
  · exact hp.integer 0
  · exact hp.null
  · exact hp.null
  · exact hp.null

theorem Within.getD {scope : Scope} (h : scope.Within allowed) (key : String) :
    ((scope.get? key).getD .null).Within allowed :=
  Each.getD (Value.hereditary_within allowed) h key

theorem Within.insert {scope : Scope} (h : scope.Within allowed) (key : String) {value : Value}
    (hvalue : value.Within allowed) : (scope.insert key value).Within allowed :=
  Each.insert h key hvalue

theorem within_fresh : Scope.fresh.Within allowed := each_fresh (Value.hereditary_within allowed)

end Scope

namespace Memory

theorem forall_mem_handles {memory : Memory} :
    (∀ handle ∈ memory.handles, allowed handle) ↔
      memory.current.Within allowed ∧ ∀ scope ∈ memory.parents, scope.Within allowed := by
  simp only [handles, values, List.mem_flatMap, List.mem_append, List.mem_reverse,
    List.mem_singleton, List.mem_map]
  constructor
  · intro h
    constructor
    · intro entry hentry handle hmem
      exact h handle ⟨entry.2, ⟨memory.current, .inr rfl, entry, hentry, rfl⟩, hmem⟩
    · intro scope hscope entry hentry handle hmem
      exact h handle ⟨entry.2, ⟨scope, .inl hscope, entry, hentry, rfl⟩, hmem⟩
  · rintro ⟨hcurrent, hparents⟩ handle ⟨_, ⟨scope, hscope, entry, hentry, rfl⟩, hmem⟩
    rcases hscope with hscope | rfl
    · exact hparents scope hscope entry hentry handle hmem
    · exact hcurrent entry hentry handle hmem

-- A write puts one value in the place of the variable it names. The value is made from what is
-- there by following the accessors of the name.
theorem write_eq_ok {memory next : Memory} {text : String} {value : Value} {create : Bool}
    (h : memory.write text value create = .ok next) :
    ∃ path stored,
      memory.resolve (Name.ofText text).base (Name.ofText text).accessors = .ok path ∧
      assign value path (memory.plain (Name.ofText text).base) = .ok stored ∧
      next = memory.store (Name.ofText text).base stored := by
  unfold write at h
  dsimp only at h
  split_ifs at h with hplain
  · cases h
    exact ⟨[], value, by rw [hplain]; rfl, rfl, rfl⟩
  · obtain ⟨path, hpath, h⟩ := bind_eq_ok.mp h
    split at h
    · cases h
    · rename_i old hold
      obtain ⟨new, hnew, rfl⟩ := map_eq_ok.mp h
      refine ⟨path, new, hpath, ?_, rfl⟩
      rw [plain, hold, Option.getD_some, hnew]

end Memory

namespace Hereditary

variable (hp : Hereditary p)

include hp

theorem descend (path : List (String × Value)) {value : Value} (h : p value) :
    Yields p (Memory.descend path value) := by
  induction path generalizing value with
  | nil => exact .ok h
  | cons place rest ih => exact (hp.element h _ _).bind fun item hitem => ih hitem

theorem assign {new : Value} (hnew : p new) (path : List (String × Value)) {value : Value}
    (h : p value) : Yields p (Memory.assign new path value) := by
  induction path generalizing value with
  | nil => exact .ok hnew
  | cons place rest ih => exact hp.modifyElement h _ _ fun item hitem => ih hitem

variable {memory : Memory} (h : memory.current.Each p)

include h

-- Only the current scope can be reached.
theorem plain (name : String) : p (memory.plain name) := h.getD hp _

theorem read (text : String) : Yields p (memory.read text) := by
  unfold Memory.read
  dsimp only
  cases memory.resolve (Name.ofText text).base (Name.ofText text).accessors with
  | error e => exact .error e
  | ok path => exact hp.descend path (hp.plain h _)

-- By the length of the text, as a list is evaluated from shorter items.
theorem evaluate (token : Token) : Yields p (memory.evaluate token) := by
  by_cases hkind : token.kind = .list
  · rw [Memory.evaluate_list hkind]
    cases hitems : token.items with
    | error e => exact .error _
    | ok items =>
        intro value hvalue
        obtain ⟨values, hvalues, rfl⟩ := map_eq_ok.mp hvalue
        refine hp.list.mpr fun value hmem => ?_
        obtain ⟨item, hitem, hvalue⟩ := exists_mem_of_mapM hvalues hmem
        have := Token.length_lt_of_mem_items hitems hitem
        exact evaluate item value hvalue
  · rw [Memory.evaluate.eq_def]
    cases htoken : token.kind with
    | null => exact .ok hp.null
    | number =>
        dsimp only
        cases hnumber : Value.readNumber? token.text with
        | none => exact .error _
        | some value =>
            obtain ⟨literal, _, rfl⟩ := Option.map_eq_some_iff.mp hnumber
            exact .ok (hp.ofLiteral literal)
    | string => exact .ok (hp.string _)
    | name => exact hp.read h token.text
    | list => exact absurd htoken hkind
    | keyword => exact .error _
    | symbol => exact .error _
    | comment => exact .error _
termination_by token.text.length

theorem evaluateOperand (operand : Option Token) : Yields p (memory.evaluateOperand operand) := by
  cases operand with
  | none => exact .ok hp.null
  | some token => exact hp.evaluate h token

-- A reply is evaluated in the current scope.
theorem replyValue (reply : String) : Yields p (Machine.replyValue memory reply) := by
  unfold Machine.replyValue
  split
  · split_ifs
    · exact hp.evaluate h _
    · exact .ok (hp.string _)
  · exact .ok (hp.string _)

end Hereditary

namespace Memory

theorem supplies_evaluate {memory : Memory} (h : memory.current.Within allowed) (token : Token) :
    Supplies allowed (memory.evaluate token) :=
  (Value.hereditary_within allowed).evaluate h token

theorem supplies_evaluateOperand {memory : Memory} (h : memory.current.Within allowed)
    (operand : Option Token) : Supplies allowed (memory.evaluateOperand operand) :=
  (Value.hereditary_within allowed).evaluateOperand h operand

-- What is stored is made from what is there and the value written.
theorem write_effect {memory next : Memory} {text : String} {value : Value} {create : Bool}
    (h : memory.write text value create = .ok next) :
    ∃ name stored, next = memory.store name stored ∧
      ∀ p, Hereditary p → memory.current.Each p → p value → p stored := by
  obtain ⟨path, stored, _, hassign, rfl⟩ := write_eq_ok h
  refine ⟨_, stored, rfl, fun p hp hcurrent hvalue => ?_⟩
  exact hp.assign hvalue path (hp.plain hcurrent _) stored hassign

theorem closeScope_eq_ok {memory next : Memory} (h : memory.closeScope = .ok next) :
    ∃ parent others, memory.parents = parent :: others ∧
      next = ⟨parent.insert Scope.returned ((memory.current.get? Scope.returned).getD .null),
        others⟩ := by
  unfold closeScope at h
  split at h
  · cases h
  · rename_i parent others hparents
    cases h
    exact ⟨parent, others, hparents, rfl⟩

theorem bindLabel_of_root {memory : Memory} (h : memory.parents = []) (name : String)
    (index : Nat) :
    memory.bindLabel name index = memory.store name (.integer (Number.saturate index)) := by
  obtain ⟨current, parents⟩ := memory
  cases h
  rfl

end Memory

end LineScript

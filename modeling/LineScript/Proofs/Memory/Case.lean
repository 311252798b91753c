import LineScript.Proofs.Memory.Path
import LineScript.Proofs.Token.Case

namespace LineScript

open Text

namespace RuntimeError

-- What went wrong, without the names, values and types that were involved.
inductive Kind where
  | undefinedOperation
  | incorrectOperandType
  | invalidIndex
  | valueOutOfRange
  | nonIndexable
  | nonExistentVariable
  | closeFinalScope
  | notImplemented
  | userError
  | couldNotCompare
  | divisionByZero
  | file
  | fileClosed
  | io
deriving DecidableEq, Repr

def kind : RuntimeError → Kind
  | undefined .. => .undefinedOperation
  | wrongType .. | notAValue _ | malformedLiteral _ => .incorrectOperandType
  | invalidIndex _ => .invalidIndex
  | outOfRange .. => .valueOutOfRange
  | notIndexable _ => .nonIndexable
  | unboundVariable _ => .nonExistentVariable
  | finalScope => .closeFinalScope
  | stringAssignment => .notImplemented
  | raised _ => .userError
  | incomparable .. => .couldNotCompare
  | divisionByZero => .divisionByZero
  | file .. => .file
  | fileClosed _ => .fileClosed
  | console _ => .io

end RuntimeError

-- Both give related results, or both fail in the same way.
inductive Alike {α β : Type} (related : α → β → Prop) :
    Except RuntimeError α → Except RuntimeError β → Prop where
  | ok {a : α} {b : β} (h : related a b) : Alike related (.ok a) (.ok b)
  | error {e e' : RuntimeError} (h : e.kind = e'.kind) : Alike related (.error e) (.error e')

namespace Alike

variable {α β γ δ : Type} {related : α → β → Prop} {further : γ → δ → Prop}
  {one : Except RuntimeError α} {other : Except RuntimeError β}

theorem refl (outcome : Except RuntimeError α) : Alike Eq outcome outcome := by
  cases outcome with
  | ok value => exact .ok rfl
  | error e => exact .error rfl

theorem map {f : α → γ} {g : β → δ} (h : Alike related one other)
    (hfg : ∀ a b, related a b → further (f a) (g b)) :
    Alike further (one.map f) (other.map g) := by
  cases h with
  | ok h => exact .ok (hfg _ _ h)
  | error h => exact .error h

theorem bind {f : α → Except RuntimeError γ} {g : β → Except RuntimeError δ}
    (h : Alike related one other) (hfg : ∀ a b, related a b → Alike further (f a) (g b)) :
    Alike further (one.bind f) (other.bind g) := by
  cases h with
  | ok h => exact hfg _ _ h
  | error h => exact .error h

theorem mapM {f g : α → Except RuntimeError γ} {items : List α}
    (h : ∀ item ∈ items, Alike Eq (f item) (g item)) :
    Alike Eq (items.mapM f) (items.mapM g) := by
  induction items with
  | nil => exact .ok rfl
  | cons item items ih =>
      obtain ⟨hitem, hitems⟩ := List.forall_mem_cons.mp h
      rw [List.mapM_cons, List.mapM_cons]
      refine hitem.bind ?_
      rintro value _ rfl
      refine (ih hitems).bind ?_
      rintro values _ rfl
      exact .ok rfl

end Alike

namespace Value

theorem alike_element (value index : Value) (name name' : String) :
    Alike Eq (value.element index name) (value.element index name') := by
  unfold element
  split
  · exact .refl _
  · exact .refl _
  · exact .error rfl

theorem alike_modifyElement (value index : Value) (name name' : String)
    {change change' : Value → Except RuntimeError Value}
    (h : ∀ item, Alike Eq (change item) (change' item)) :
    Alike Eq (value.modifyElement index name change) (value.modifyElement index name' change') := by
  unfold modifyElement
  split
  · refine (Alike.refl _).bind ?_
    rintro i _ rfl
    refine (h _).map ?_
    rintro item _ rfl
    rfl
  · exact .error rfl
  · exact .error rfl

end Value

-- A name is cut into the same pieces in either case.
theorem Name.ofText_upper (text : String) :
    Name.ofText (upper text) =
      ⟨upper (Name.ofText text).base, (Name.ofText text).accessors.map upper⟩ := by
  rw [Name.ofText, toList_upper, splitOn_toUpper (by decide)]
  simp [Name.ofText, upper]

theorem Name.upper_of_upper {text text' : String} (h : upper text = upper text') :
    upper (Name.ofText text).base = upper (Name.ofText text').base ∧
      (Name.ofText text).accessors.map upper = (Name.ofText text').accessors.map upper := by
  have hname := congrArg Name.ofText h
  rw [Name.ofText_upper, Name.ofText_upper] at hname
  exact Name.mk.injEq .. ▸ hname

namespace Memory

variable {name name' : String}

theorem key_of_upper (h : upper name = upper name') : key name = key name' := by
  rw [key, ← lowercase_upper, h, lowercase_upper, key]

theorem plain_of_upper (memory : Memory) (h : upper name = upper name') :
    memory.plain name = memory.plain name' := by
  rw [plain, key_of_upper h, plain]

theorem startsWithDigit_upper (text : String) :
    (upper text).toList.head?.any Char.isDigit = text.toList.head?.any Char.isDigit := by
  rw [toList_upper, List.head?_map]
  cases text.toList.head? with
  | none => rfl
  | some c => exact isDigit_toUpper c

theorem alike_index (memory : Memory) (h : upper name = upper name') :
    Alike Eq (memory.index name) (memory.index name') := by
  have hdigit : name.toList.head?.any Char.isDigit = name'.toList.head?.any Char.isDigit := by
    rw [← startsWithDigit_upper, h, startsWithDigit_upper]
  have hinteger : Number.readInteger? name.toList = Number.readInteger? name'.toList := by
    rw [← Number.readInteger?_toUpper, ← toList_upper, h, toList_upper,
      Number.readInteger?_toUpper]
  unfold index
  rw [hdigit, hinteger, memory.plain_of_upper h]
  split_ifs
  · split
    · exact .ok rfl
    · exact .error rfl
  · exact .ok rfl

-- Two paths that differ only in how what they index is called.
def SameIndices : List (String × Value) → List (String × Value) → Prop :=
  List.Forall₂ fun place place' => place.2 = place'.2

theorem alike_resolve (memory : Memory) (indexed indexed' : String)
    {accessors accessors' : List String} (h : accessors.map upper = accessors'.map upper) :
    Alike SameIndices (memory.resolve indexed accessors) (memory.resolve indexed' accessors') := by
  induction accessors generalizing indexed indexed' accessors' with
  | nil =>
      obtain rfl := List.map_eq_nil_iff.mp h.symm
      exact .ok .nil
  | cons accessor rest ih =>
      obtain ⟨accessor', rest', rfl, haccessor, hrest⟩ := List.map_eq_cons_iff.mp h.symm
      rw [resolve, resolve]
      refine (ih _ _ hrest.symm).bind fun later later' hlater => ?_
      exact (memory.alike_index haccessor.symm).map fun index index' hindex => .cons hindex hlater

theorem alike_descend {path path' : List (String × Value)} (h : SameIndices path path')
    (value : Value) : Alike Eq (descend path value) (descend path' value) := by
  induction h generalizing value with
  | nil => exact .refl _
  | @cons place place' rest rest' hindex hrest ih =>
      obtain ⟨indexed, index⟩ := place
      obtain ⟨indexed', index'⟩ := place'
      obtain rfl : index = index' := hindex
      refine (value.alike_element index indexed indexed').bind ?_
      rintro item _ rfl
      exact ih item

theorem alike_assign {path path' : List (String × Value)} (h : SameIndices path path')
    (new value : Value) : Alike Eq (assign new path value) (assign new path' value) := by
  induction h generalizing value with
  | nil => exact .refl _
  | @cons place place' rest rest' hindex hrest ih =>
      obtain ⟨indexed, index⟩ := place
      obtain ⟨indexed', index'⟩ := place'
      obtain rfl : index = index' := hindex
      exact value.alike_modifyElement index indexed indexed' ih

-- Case makes no difference to what a name means.
theorem alike_read (memory : Memory) (h : upper name = upper name') :
    Alike Eq (memory.read name) (memory.read name') := by
  obtain ⟨hbase, haccessors⟩ := Name.upper_of_upper h
  unfold read
  dsimp only
  rw [memory.plain_of_upper hbase]
  exact (memory.alike_resolve _ _ haccessors).bind fun path path' hpath => alike_descend hpath _

theorem store_of_upper (memory : Memory) (h : upper name = upper name') (value : Value) :
    memory.store name value = memory.store name' value := by
  rw [store, key_of_upper h, store]

theorem alike_write (memory : Memory) (h : upper name = upper name') (value : Value)
    (create : Bool) :
    Alike Eq (memory.write name value create) (memory.write name' value create) := by
  obtain ⟨hbase, haccessors⟩ := Name.upper_of_upper h
  have hplain : (Name.ofText name).accessors = [] ↔ (Name.ofText name').accessors = [] := by
    rw [← List.map_eq_nil_iff, haccessors, List.map_eq_nil_iff]
  unfold write
  dsimp only
  rw [key_of_upper hbase, memory.store_of_upper hbase]
  simp only [hplain]
  split_ifs
  · exact .ok rfl
  · exact .error rfl
  · refine (memory.alike_resolve _ _ haccessors).bind fun path path' hpath => ?_
    split
    · exact .error rfl
    · rename_i old _
      refine (alike_assign hpath value old).map ?_
      rintro new _ rfl
      exact memory.store_of_upper hbase new

end Memory

theorem Token.isRead_of_mem_items {token item : Token} {items : List Token}
    (h : token.items = .ok items) (hmem : item ∈ items) : item.IsRead := by
  obtain ⟨tokens, htokens, rfl⟩ := map_eq_ok.mp h
  exact ⟨token.innerChars, tokens, htokens, (List.mem_filter.mp hmem).1⟩

namespace Memory

-- An operand is the same value in either case. The induction is on the length of its text, since a
-- list is read again.
theorem alike_evaluate (memory : Memory) {token : Token} (hread : token.IsRead) :
    Alike Eq (memory.evaluate token) (memory.evaluate token.capital) := by
  induction hlen : token.text.length using Nat.strong_induction_on generalizing token with
  | _ n ih =>
      subst hlen
      cases hkind : token.kind with
      | list =>
          rw [evaluate_list hkind, evaluate_list (token.kind_capital.trans hkind)]
          rcases cases_of_toOption (Token.items_capital hread hkind) with
            ⟨items, hown, hcapital⟩ | ⟨e, e', hown, hcapital⟩
          · rw [hown, hcapital]
            refine Alike.map ?_ fun _ _ => congrArg Value.list
            rw [List.mapM_map]
            refine Alike.mapM fun item hmem => ?_
            exact ih _ (Token.length_lt_of_mem_items hown hmem)
              (Token.isRead_of_mem_items hown hmem) rfl
          · rw [hown, hcapital]
            exact .error rfl
      | string =>
          rw [Token.capital_eq_self hread (.inl hkind)]
          exact .refl _
      | number =>
          have hvalue : Value.readNumber? token.capital.text = Value.readNumber? token.text := by
            rw [Value.readNumber?, Token.capital, toList_capitalized,
              Number.Literal.read?_capitals, Value.readNumber?]
          rw [evaluate, evaluate, token.kind_capital, hkind, hvalue]
          exact .refl _
      | name =>
          rw [evaluate, evaluate, token.kind_capital, hkind]
          exact memory.alike_read (upper_capitalized token.text).symm
      | null | keyword | symbol | comment =>
          rw [evaluate, evaluate, token.kind_capital, hkind]
          exact .refl _

theorem alike_evaluateOperand (memory : Memory) {operand : Option Token}
    (hread : ∀ token ∈ operand, token.IsRead) :
    Alike Eq (memory.evaluateOperand operand)
      (memory.evaluateOperand (operand.map Token.capital)) := by
  cases operand with
  | none => exact .ok rfl
  | some token => exact memory.alike_evaluate (hread token rfl)

end Memory

end LineScript

import LineScript.Proofs.Token.Spelling

namespace LineScript

-- The ways in which a variable look-up can fail.
def RuntimeError.isLookup : RuntimeError → Bool
  | .invalidIndex _ | .outOfRange _ .index | .notIndexable _ => true
  | _ => false

-- A result, or the failure of a look-up.
def Found {α : Type} (outcome : Except RuntimeError α) : Prop :=
  (∃ value, outcome = .ok value) ∨ ∃ e, outcome = .error e ∧ e.isLookup = true

namespace Found

variable {α β : Type}

theorem ok (value : α) : Found (.ok value) := .inl ⟨value, rfl⟩

theorem error {e : RuntimeError} (h : e.isLookup = true) : Found (.error e : Except _ α) :=
  .inr ⟨e, rfl, h⟩

theorem map {outcome : Except RuntimeError α} (h : Found outcome) (f : α → β) :
    Found (outcome.map f) := by
  rcases h with ⟨value, rfl⟩ | ⟨e, rfl, he⟩
  · exact ok (f value)
  · exact error he

theorem bind {outcome : Except RuntimeError α} {f : α → Except RuntimeError β}
    (h : Found outcome) (hf : ∀ value, Found (f value)) : Found (outcome.bind f) := by
  rcases h with ⟨value, rfl⟩ | ⟨e, rfl, he⟩
  · exact hf value
  · exact error he

theorem mapM {f : α → Except RuntimeError β} {items : List α} (h : ∀ item ∈ items, Found (f item)) :
    Found (items.mapM f) := by
  induction items with
  | nil => exact ok []
  | cons item items ih =>
      rw [List.mapM_cons]
      refine (h item List.mem_cons_self).bind fun value => ?_
      refine (ih fun other hmem => h other (List.mem_cons_of_mem _ hmem)).bind fun values => ?_
      exact ok (value :: values)

end Found

namespace Value

theorem found_checkedIndex (index : Value) (length : Nat) : Found (checkedIndex index length) := by
  unfold checkedIndex
  split
  · split
    · split_ifs
      · exact .ok _
      · exact .error rfl
    · exact .error rfl
  · exact .error rfl

theorem found_element (value index : Value) (name : String) : Found (value.element index name) := by
  unfold element
  split
  · exact (found_checkedIndex _ _).map _
  · exact (found_checkedIndex _ _).map _
  · exact .error rfl

end Value

namespace Memory

theorem found_index (memory : Memory) (accessor : String) : Found (memory.index accessor) := by
  unfold index
  split_ifs
  · split
    · exact .ok _
    · exact .error rfl
  · exact .ok _

theorem found_resolve (memory : Memory) (indexed : String) (accessors : List String) :
    Found (memory.resolve indexed accessors) := by
  induction accessors generalizing indexed with
  | nil => exact .ok []
  | cons accessor rest ih =>
      exact (ih _).bind fun later => (found_index memory accessor).map _

theorem found_descend (path : List (String × Value)) (value : Value) :
    Found (descend path value) := by
  induction path generalizing value with
  | nil => exact .ok value
  | cons place rest ih => exact (value.found_element place.2 place.1).bind ih

theorem found_read (memory : Memory) (text : String) : Found (memory.read text) :=
  (found_resolve memory _ _).bind fun path => found_descend path _

-- A number that was read as a token is read as a value, too.
theorem readNumber?_of_token {lexeme : Lexeme} {token : Token} (h : lexeme.token = .ok token)
    (hkind : token.kind = .number) : (Value.readNumber? token.text).isSome = true := by
  cases Lexeme.token_eq_ok_iff.mp h with
  | number _ hread => simpa [Value.readNumber?, Lexeme.text] using hread
  | _ => cases hkind

theorem evaluate_null (memory : Memory) : memory.evaluate .null = .ok .null := by
  rw [evaluate]
  rfl

-- Tokens that were read can be evaluated in any memory, up to the look-ups they ask for. The
-- induction is on the length of the text: a list is read again, without its brackets.
theorem found_evaluate {cs : List Char} {tokens : List Token} {token : Token}
    (h : Token.readChars cs = .ok tokens) (hmem : token ∈ tokens)
    (hvalue : token.kind ∈ Grammar.anyValue) (memory : Memory) :
    Found (memory.evaluate token) := by
  induction hlen : token.text.length using Nat.strong_induction_on
    generalizing cs tokens token with
  | _ n ih =>
      subst hlen
      simp only [Grammar.anyValue, List.mem_cons, List.not_mem_nil, or_false] at hvalue
      rcases hvalue with hkind | hkind | hkind | hkind
      · rw [evaluate, hkind]
        exact found_read memory token.text
      · rw [evaluate, hkind]
        rcases origin_of_mem_tokensOf h hmem with ⟨lexeme, _, htoken⟩ | hlist
        · obtain ⟨value, hread⟩ := Option.isSome_iff_exists.mp (readNumber?_of_token htoken hkind)
          simp only [hread]
          exact .ok value
        · obtain ⟨_, _, _, _, _, _, _, _, rfl⟩ := hlist
          cases hkind
      · rw [evaluate, hkind]
        exact .ok _
      · obtain ⟨inner, hinner, hkinds⟩ := Token.readChars_inner_of_list h hmem hkind
        have hitems : token.items = .ok (inner.filter fun item => item.kind ≠ .symbol) := by
          rw [Token.items, hinner]
          rfl
        rw [evaluate_list hkind, hitems]
        refine Found.map (Found.mapM fun item hitem => ?_) _
        obtain ⟨hin, hsymbol⟩ := List.mem_filter.mp hitem
        have hitemValue := (hkinds item hin).resolve_right (by simpa using hsymbol)
        exact ih _ (Token.length_lt_of_mem_items hitems hitem) hinner hin hitemValue rfl

end Memory

end LineScript

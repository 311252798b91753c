import LineScript.Proofs.Text.LineBytes
import LineScript.Proofs.Token.NumberLiteral
import LineScript.Proofs.Token.Surroundings

namespace LineScript

theorem Number.head?_integerText (n : Int64) : (integerText n).toList.head? ≠ some '+' := by
  unfold integerText
  split
  · rename_i k _
    rw [String.toList_ofList]
    intro hplus
    have hdigit := isDigit_of_mem_toDigits (List.mem_of_mem_head? hplus)
    cases hdigit
  · rw [String.toList_ofList]
    simp

namespace Value

-- Integers, nulls and lists of them. Nothing in such a value has to be quoted.
inductive Bare : Value → Prop where
  | null : Bare null
  | integer (n : Int64) : Bare (integer n)
  | list {items : List Value} (hitems : ∀ item ∈ items, Bare item) : Bare (list items)

variable (opened : Handle → Bool)

-- What a bare value is read as from its text.
def literal (value : Value) : Token :=
  ⟨match value with
    | integer _ => .number
    | list _ => .list
    | _ => .name, value.display opened⟩

-- The text of the items cut at the commas, with the blanks next to the brackets.
def spaced : List Value → List String
  | [] => []
  | [item] => [" " ++ item.display opened ++ " "]
  | item :: rest => (" " ++ item.display opened) :: spaced rest

theorem spaced_ne_nil {items : List Value} (h : items ≠ []) : spaced opened items ≠ [] := by
  fun_cases spaced opened items <;> simp_all

theorem intercalate_spaced {items : List Value} (h : items ≠ []) :
    ",".intercalate (spaced opened items) = " " ++ displayItems opened items ++ " " := by
  fun_induction spaced opened items with
  | case1 => exact absurd rfl h
  | case2 item => rfl
  | case3 item rest hrest ih =>
      have hsecond : rest ≠ [] := fun hnone => hrest hnone
      rw [String.intercalate_cons_of_ne_nil (spaced_ne_nil opened hsecond), ih hsecond,
        displayItems.eq_3 _ _ _ hrest, ← String.toList_inj]
      simp

theorem display_list {items : List Value} (h : items ≠ []) :
    (list items).display opened = "(" ++ ",".intercalate (spaced opened items) ++ ")" := by
  rw [intercalate_spaced opened h, display, ← String.toList_inj]
  simp

variable {opened}

theorem Bare.kind_literal {value : Value} (h : value.Bare) :
    (value.literal opened).kind ∈ Grammar.anyValue := by
  cases h <;> simp [literal, Grammar.anyValue]

theorem Bare.readSingle_padded {value : Value} (h : value.Bare)
    (hread : Token.readSingle (value.display opened) = .ok (value.literal opened)) {right : String}
    (hright : ∀ c ∈ right.toList, c = ' ' ∨ c = '\t') :
    Token.readSingle (" " ++ value.display opened ++ right) = .ok (value.literal opened) ∧
      (value.literal opened).kind ∈ Grammar.anyValue := by
  have hvalue : (value.literal opened).kind ∈ Grammar.anyValue := h.kind_literal
  have hcomment : (value.literal opened).kind ≠ .comment := fun hkind => by
    simp [hkind, Grammar.anyValue] at hvalue
  exact ⟨Token.readSingle_padded hread hcomment (by simp) hright, hvalue⟩

theorem readSingle_spaced {items : List Value} (hbare : ∀ item ∈ items, item.Bare)
    (hread : ∀ item ∈ items,
      Token.readSingle (item.display opened) = .ok (item.literal opened)) :
    List.Forall₂ (fun element token =>
        Token.readSingle element = .ok token ∧ token.kind ∈ Grammar.anyValue)
      (spaced opened items) (items.map (literal opened)) := by
  fun_induction spaced opened items with
  | case1 => exact .nil
  | case2 item =>
      exact .cons ((hbare item (by simp)).readSingle_padded (hread item (by simp)) (by simp)) .nil
  | case3 item rest _ ih =>
      obtain ⟨hfirst, hbare⟩ := List.forall_mem_cons.mp hbare
      obtain ⟨hitem, hread⟩ := List.forall_mem_cons.mp hread
      have hnothing : ∀ c ∈ "".toList, c = ' ' ∨ c = '\t' := by simp
      have hpadded := hfirst.readSingle_padded hitem hnothing
      rw [String.append_empty] at hpadded
      exact .cons hpadded (ih hbare hread)

-- A bare value is displayed as one literal, at any depth of lists.
theorem Bare.readSingle {value : Value} (h : value.Bare) :
    Token.readSingle (value.display opened) = .ok (value.literal opened) := by
  induction h with
  | null =>
      have hnull : Token.readSingle "null" = .ok ⟨.name, "null"⟩ := by decide +kernel
      exact hnull
  | integer n =>
      refine Token.readSingle_number_iff.mpr ⟨?_, Number.head?_integerText n⟩
      rw [display, Number.read?_integerText]
      rfl
  | @list items hitems ih =>
      by_cases hempty : items = []
      · have hbrackets : Token.readSingle "(  )" = .ok ⟨.list, "(  )"⟩ := by decide +kernel
        rw [hempty]
        exact hbrackets
      · rw [literal, display_list opened hempty]
        exact (Token.list_of_elements (readSingle_spaced hitems ih)).1

theorem items_literal {items : List Value} (hitems : ∀ item ∈ items, item.Bare) :
    ((list items).literal opened).items = .ok (items.map (literal opened)) := by
  by_cases hempty : items = []
  · have hbrackets : Token.items ⟨.list, "(  )"⟩ = .ok [] := by decide +kernel
    rw [hempty]
    exact hbrackets
  · rw [literal, display_list opened hempty]
    exact (Token.list_of_elements
      (readSingle_spaced hitems fun item hmem => (hitems item hmem).readSingle)).2

-- It denotes the value itself, as long as `null` has not been given another one.
theorem Bare.evaluate {value : Value} (h : value.Bare) {memory : Memory}
    (hnull : memory.read "null" = .ok .null) :
    memory.evaluate (value.literal opened) = .ok value := by
  induction h with
  | null =>
      rw [Memory.evaluate]
      exact hnull
  | integer n =>
      refine evaluate_number_iff.mpr ?_
      rw [display, readNumber?, Number.read?_integerText]
      rfl
  | @list items hitems ih =>
      have hvalues : List.Forall₂ (fun token value => memory.evaluate token = .ok value)
          (items.map (literal opened)) items := by
        rw [List.forall₂_map_left_iff, List.forall₂_same]
        exact ih
      rw [Memory.evaluate_list rfl, items_literal hitems]
      dsimp only
      rw [mapM_eq_ok_iff.mpr hvalues]
      rfl

theorem mem_displayItems {items : List Value} {c : Char}
    (h : c ∈ (displayItems opened items).toList) :
    c = ',' ∨ c = ' ' ∨ ∃ item ∈ items, c ∈ (item.display opened).toList := by
  induction items with
  | nil => simp [displayItems] at h
  | cons item rest ih =>
      cases rest with
      | nil =>
          rw [displayItems] at h
          exact .inr (.inr ⟨item, List.mem_singleton_self item, h⟩)
      | cons second later =>
          simp only [displayItems, String.toList_append, List.mem_append] at h
          rcases h with (hitem | hmark) | hlater
          · exact .inr (.inr ⟨item, List.mem_cons_self, hitem⟩)
          · have hmark : c = ',' ∨ c = ' ' := by simpa using hmark
            exact hmark.imp_right .inl
          · refine (ih hlater).imp_right (.imp_right ?_)
            rintro ⟨other, hother, hc⟩
            exact ⟨other, List.mem_cons_of_mem _ hother, hc⟩

theorem Bare.ne_of_mem_display {value : Value} (h : value.Bare) :
    ∀ c ∈ (value.display opened).toList, c ≠ '\n' ∧ c ≠ '\r' := by
  induction h with
  | null =>
      have hword : ∀ c ∈ "null".toList, c ≠ '\n' ∧ c ≠ '\r' := by simp
      exact hword
  | integer n =>
      intro c hc
      have hblank := Number.not_blank_integerText n c hc
      constructor
      · rintro rfl
        exact absurd hblank (by decide)
      · rintro rfl
        exact absurd hblank (by decide)
  | @list items _ ih =>
      have hopens : ∀ c ∈ "( ".toList, c ≠ '\n' ∧ c ≠ '\r' := by simp
      have hcloses : ∀ c ∈ " )".toList, c ≠ '\n' ∧ c ≠ '\r' := by simp
      intro c hc
      simp only [display, String.toList_append, List.mem_append] at hc
      rcases hc with (hopening | hitems) | hclosing
      · exact hopens c hopening
      · rcases mem_displayItems hitems with rfl | rfl | ⟨item, hitem, hmem⟩
        · decide
        · decide
        · exact ih item hitem c hmem
      · exact hcloses c hclosing

-- A bare value is displayed on one line.
theorem Bare.isLine_display {value : Value} (h : value.Bare) :
    Text.IsLine (value.display opened) := by
  refine ⟨fun hmem => (h.ne_of_mem_display _ hmem).1 rfl, fun hlast => ?_⟩
  exact (h.ne_of_mem_display _ (List.mem_of_getLast? hlast)).2 rfl

end Value

end LineScript

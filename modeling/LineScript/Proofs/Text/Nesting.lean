import LineScript.Proofs.Text.Case
import Mathlib.Data.List.Infix

namespace LineScript.Text

-- What a character adds to the number of open brackets. In string literals and comments there are
-- no brackets.
def Place.bracket : Place → Char → Int
  | code, '(' => 1
  | code, ')' => -1
  | _, _ => 0

-- How many brackets are open after a text.
def nesting (place : Place) : List Char → Int
  | [] => 0
  | c :: rest => place.bracket c + nesting (place.next c) rest

-- A text from an opening bracket to the one that matches it, which is where for the first time no
-- bracket is open any more.
structure Enclosed (cs : List Char) : Prop where
  opens : cs.head? = some '('
  inside : ∀ front, front <+: cs → front ≠ [] → front ≠ cs → 0 < nesting .code front
  closes : nesting .code cs = 0

-- A text that leaves as many brackets open as it found, and has closed no other on the way.
structure Balanced (cs : List Char) : Prop where
  after : Place.code.after cs = .code
  total : nesting .code cs = 0
  above : ∀ front, front <+: cs → 0 ≤ nesting .code front

theorem Place.after_append (place : Place) (front back : List Char) :
    place.after (front ++ back) = (place.after front).after back :=
  List.foldl_append

theorem nesting_append (place : Place) (front back : List Char) :
    nesting place (front ++ back) = nesting place front + nesting (place.after front) back := by
  induction front generalizing place with
  | nil => simp [nesting, Place.after]
  | cons c rest ih =>
      rw [List.cons_append, nesting, nesting, ih, Int.add_assoc]
      rfl

namespace Balanced

theorem nil : Balanced [] where
  after := rfl
  total := rfl
  above := by
    intro front hfront
    rw [List.prefix_nil.mp hfront]
    exact Int.le_refl 0

theorem append {a b : List Char} (ha : Balanced a) (hb : Balanced b) : Balanced (a ++ b) where
  after := by rw [Place.after_append, ha.after, hb.after]
  total := by rw [nesting_append, ha.after, ha.total, hb.total]; rfl
  above := by
    intro front hfront
    rcases List.prefix_or_prefix_of_prefix hfront (List.prefix_append a b) with hshort | hlong
    · exact ha.above front hshort
    · obtain ⟨back, rfl⟩ := hlong
      rw [nesting_append, ha.after, ha.total, Int.zero_add]
      exact hb.above back ((List.prefix_append_right_inj a).mp hfront)

-- A character in code that is no bracket, no quote and no comment mark.
theorem singleton {c : Char} (hnext : Place.code.next c = .code)
    (hbracket : Place.code.bracket c = 0) : Balanced [c] where
  after := hnext
  total := by rw [nesting, hbracket]; rfl
  above := by
    intro front hfront
    rcases List.prefix_cons_iff.mp hfront with rfl | ⟨rest, rfl, hrest⟩
    · exact Int.le_refl 0
    · rw [List.prefix_nil.mp hrest, nesting, hbracket]
      exact Int.le_refl 0

theorem of_forall {cs : List Char}
    (h : ∀ c ∈ cs, Place.code.next c = .code ∧ Place.code.bracket c = 0) : Balanced cs := by
  induction cs with
  | nil => exact nil
  | cons c rest ih =>
      obtain ⟨hc, hrest⟩ := List.forall_mem_cons.mp h
      exact (singleton hc.1 hc.2).append (ih hrest)

section

variable {body : List Char}

-- Between the brackets of a pair one more is open than before it.
theorem nesting_open (body : List Char) :
    nesting .code ('(' :: body) = 1 + nesting .code body := rfl

theorem nesting_pair (h : Balanced body) : nesting .code ('(' :: (body ++ [')'])) = 0 := by
  rw [nesting_open, nesting_append, h.after, h.total]
  rfl

-- A text that begins with the opening bracket of a pair reaches into it, or goes up to its end.
theorem cases_of_prefix {front : List Char} (h : front <+: '(' :: (body ++ [')'])) :
    front = [] ∨ front = '(' :: (body ++ [')']) ∨
      ∃ inner, inner <+: body ∧ front = '(' :: inner := by
  rcases List.prefix_cons_iff.mp h with rfl | ⟨inner, rfl, hinner⟩
  · exact .inl rfl
  · rcases List.prefix_concat_iff.mp hinner with rfl | hinner
    · exact .inr (.inl rfl)
    · exact .inr (.inr ⟨inner, hinner, rfl⟩)

theorem enclosed (h : Balanced body) : Enclosed ('(' :: (body ++ [')'])) where
  opens := rfl
  inside := by
    intro front hfront hne hproper
    rcases cases_of_prefix hfront with rfl | rfl | ⟨inner, hinner, rfl⟩
    · exact absurd rfl hne
    · exact absurd rfl hproper
    · have hinside := h.above inner hinner
      rw [nesting_open]
      omega
  closes := h.nesting_pair

theorem pair (h : Balanced body) : Balanced ('(' :: (body ++ [')'])) where
  after := by
    have hopen : Place.code.after ('(' :: body) = .code := h.after
    rw [← List.cons_append, Place.after_append, hopen]
    rfl
  total := h.nesting_pair
  above := by
    intro front hfront
    rcases cases_of_prefix hfront with rfl | rfl | ⟨inner, hinner, rfl⟩
    · exact Int.le_refl 0
    · exact Int.le_of_eq h.nesting_pair.symm
    · have hinside := h.above inner hinner
      rw [nesting_open]
      omega

end

end Balanced

end LineScript.Text

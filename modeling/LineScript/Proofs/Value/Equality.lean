import LineScript.Proofs.Number.Promotion
import LineScript.Proofs.Value.Hereditary

namespace LineScript.Value

-- The text a value is compared with texts by: that of a file is its name.
def text? : Value → Option String
  | string text => some text
  | value => value.fileName?

-- What makes two values equal. Two integers have to be the same one: sharing a place is not enough
-- for them.
inductive Equates : Value → Value → Prop where
  | null : Equates null null
  | integer (n : Int64) : Equates (integer n) (integer n)
  | place {a b : Value} {place : Option Int} (ha : a.place? = some place)
      (hb : b.place? = some place) (hfloat : a.type = .float ∨ b.type = .float) : Equates a b
  | text {a b : Value} {text : String} (ha : a.text? = some text) (hb : b.text? = some text) :
      Equates a b
  | list {as bs : List Value} (hlength : as.length = bs.length)
      (hitems : ∀ (i : Nat) (a b : Value), as[i]? = some a → bs[i]? = some b →
        a.equals b = true) : Equates (list as) (list bs)

theorem number_of_place? {value : Value} {place : Option Int} (h : value.place? = some place) :
    (∃ n, value = integer n ∧ Number.place? (Number.ofInteger n) = place) ∨
      ∃ x, value = float x ∧ Number.place? x = place := by
  cases value with
  | integer n => exact .inl ⟨n, rfl, Option.some.inj h⟩
  | float x => exact .inr ⟨x, rfl, Option.some.inj h⟩
  | _ => cases h

theorem written_of_text? {value : Value} {text : String} (h : value.text? = some text) :
    value = string text ∨
      ∃ file : Handle, (value = reader file ∨ value = writer file) ∧ file.name = text := by
  cases value with
  | string written => exact .inl (congrArg string (Option.some.inj h))
  | reader file => exact .inr ⟨file, .inl rfl, Option.some.inj h⟩
  | writer file => exact .inr ⟨file, .inr rfl, Option.some.inj h⟩
  | _ => cases h

theorem equalsItems_iff {as bs : List Value} :
    equalsItems as bs = true ↔ as.length = bs.length ∧
      ∀ (i : Nat) (a b : Value), as[i]? = some a → bs[i]? = some b → a.equals b = true := by
  induction as generalizing bs with
  | nil => cases bs <;> simp [equalsItems]
  | cons a as ih =>
      cases bs with
      | nil => simp [equalsItems]
      | cons b bs =>
          rw [equalsItems, Bool.and_eq_true, ih]
          constructor
          · rintro ⟨hfirst, hlength, hrest⟩
            refine ⟨by simpa using hlength, fun i => ?_⟩
            cases i with
            | zero => simpa using hfirst
            | succ i => simpa using hrest i
          · rintro ⟨hlength, hitems⟩
            exact ⟨hitems 0 a b rfl rfl, by simpa using hlength,
              fun i => by simpa using hitems (i + 1)⟩

theorem equals_iff {a b : Value} : a.equals b = true ↔ Equates a b := by
  constructor
  · intro h
    cases a <;> cases b <;> simp only [equals, beq_iff_eq, Bool.false_eq_true] at h
    case null.null => exact .null
    case integer.integer => exact h ▸ .integer _
    case integer.float => exact .place rfl (congrArg some h.symm) (.inr rfl)
    case float.integer | float.float => exact .place rfl (congrArg some h.symm) (.inl rfl)
    case list.list =>
      obtain ⟨hlength, hitems⟩ := equalsItems_iff.mp h
      exact .list hlength hitems
    all_goals exact .text rfl (congrArg some h.symm)
  · rintro (_ | n | ⟨ha, hb, hfloat⟩ | ⟨ha, hb⟩ | ⟨hlength, hitems⟩)
    · rfl
    · exact beq_self_eq_true n
    · obtain ⟨m, rfl, rfl⟩ | ⟨x, rfl, rfl⟩ := number_of_place? ha <;>
        obtain ⟨n, rfl, hplace⟩ | ⟨y, rfl, hplace⟩ := number_of_place? hb
      · simp [type] at hfloat
      all_goals exact beq_iff_eq.mpr hplace.symm
    · obtain rfl | ⟨file, rfl | rfl, rfl⟩ := written_of_text? ha <;>
        obtain hb | ⟨other, hb | hb, hname⟩ := written_of_text? hb <;> subst hb
      all_goals simp [equals, *]
    · exact equalsItems_iff.mpr ⟨hlength, hitems⟩

theorem equals_symm {a b : Value} (h : a.equals b = true) : b.equals a = true := by
  induction a using by_items generalizing b with
  | h a ih =>
      refine equals_iff.mpr ?_
      cases equals_iff.mp h with
      | null => exact .null
      | integer n => exact .integer n
      | place ha hb hfloat => exact .place hb ha hfloat.symm
      | text ha hb => exact .text hb ha
      | list hlength hitems =>
          refine .list hlength.symm fun i b a hb ha => ?_
          exact ih _ rfl a (List.mem_of_getElem? ha) (hitems i a b ha hb)

theorem equals_comm (a b : Value) : a.equals b = b.equals a :=
  Bool.eq_iff_iff.mpr ⟨equals_symm, equals_symm⟩

theorem equals_self_of_comparable {a : Value} (h : a.Comparable) : a.equals a = true := by
  induction a using by_items with
  | h a ih =>
      refine equals_iff.mpr ?_
      cases a with
      | null => exact .null
      | integer n => exact .integer n
      | float x => exact .place rfl rfl (.inl rfl)
      | string text => exact .text rfl rfl
      | reader file | writer file => exact .text rfl rfl
      | list items =>
          refine .list rfl fun i a b ha hb => ?_
          obtain rfl : a = b := Option.some.inj (ha.symm.trans hb)
          have hmem := List.mem_of_getElem? ha
          exact ih items rfl a hmem (hereditary_comparable.list.mp h a hmem)
      | incomparable => exact absurd .whole h

theorem comparable_of_equals_self {a : Value} (h : a.equals a = true) : a.Comparable := by
  intro hoccurs
  induction hoccurs with
  | whole => cases h
  | item hmem _ ih =>
      obtain ⟨i, hi⟩ := List.getElem?_of_mem hmem
      exact ih ((equalsItems_iff.mp h).2 i _ _ hi hi)

-- Equality goes both ways, and all values but those with a failed comparison in them equal
-- themselves.
theorem equality_is_symmetric_and_reflexive (a b : Value) :
    a.equals b = b.equals a ∧ (a.equals a = true ↔ ¬Occurs .incomparable a) :=
  ⟨equals_comm a b, comparable_of_equals_self, equals_self_of_comparable⟩

-- Somewhere, at the same position in all three values, a float stands between two integers that
-- differ but are too great for a float to tell them apart.
inductive RoundedTogether : Value → Value → Value → Prop where
  | number {m n : Int64} (x : Float) (hne : m ≠ n) (hm : 2 ^ 53 ≤ |m.toInt|)
      (hn : 2 ^ 53 ≤ |n.toInt|) : RoundedTogether (integer m) (float x) (integer n)
  | item {as bs cs : List Value} {a b c : Value} (i : Nat) (ha : as[i]? = some a)
      (hb : bs[i]? = some b) (hc : cs[i]? = some c) (h : RoundedTogether a b c) :
      RoundedTogether (list as) (list bs) (list cs)

theorem not_equals_of_roundedTogether {a b c : Value} (h : RoundedTogether a b c) :
    a.equals c ≠ true := by
  induction h with
  | number x hne _ _ =>
      intro heq
      exact hne (beq_iff_eq.mp heq)
  | item i ha _ hc _ ih =>
      intro heq
      exact ih ((equalsItems_iff.mp heq).2 i _ _ ha hc)

-- Two integers at the place of one float are the same unless both are rounded.
theorem equates_of_places {a b c : Value} {place : Option Int} (ha : a.place? = some place)
    (hb : b.place? = some place) (hc : c.place? = some place)
    (hfloat : a.type = .float ∨ b.type = .float) (hexact : ¬RoundedTogether a b c) :
    Equates a c := by
  obtain ⟨m, rfl, hm⟩ | ⟨x, rfl, -⟩ := number_of_place? ha
  · obtain ⟨n, rfl, hn⟩ | ⟨y, rfl, -⟩ := number_of_place? hc
    · obtain ⟨k, rfl, -⟩ | ⟨x, rfl, -⟩ := number_of_place? hb
      · simp [type] at hfloat
      · have hplace := hm.trans hn.symm
        by_cases hne : m = n
        · exact hne ▸ .integer m
        · refine absurd (.number x hne ?_ ?_) hexact
          · exact le_of_not_gt fun hless => hne (Number.promotion_inj hless hplace)
          · exact le_of_not_gt fun hless => hne (Number.promotion_inj hless hplace.symm).symm
    · exact .place ha hc (.inr rfl)
  · exact .place ha hc (.inl rfl)

theorem equals_trans {a b c : Value} (hab : a.equals b = true) (hbc : b.equals c = true)
    (hexact : ¬RoundedTogether a b c) : a.equals c = true := by
  induction a using by_items generalizing b c with
  | h a ih =>
      cases equals_iff.mp hab with
      | null | integer n => exact hbc
      | place ha hb hfloat =>
          cases equals_iff.mp hbc with
          | null | list => cases hb
          | integer n => exact hab
          | place hb' hc hfloat' =>
              cases Option.some.inj (hb.symm.trans hb')
              exact equals_iff.mpr (equates_of_places ha hb hc hfloat hexact)
          | text hb' hc =>
              obtain ⟨n, rfl, -⟩ | ⟨x, rfl, -⟩ := number_of_place? hb <;> cases hb'
      | text ha hb =>
          cases equals_iff.mp hbc with
          | null | integer | list => cases hb
          | place hb' hc hfloat' =>
              obtain ⟨n, rfl, -⟩ | ⟨x, rfl, -⟩ := number_of_place? hb' <;> cases hb
          | text hb' hc =>
              cases Option.some.inj (hb.symm.trans hb')
              exact equals_iff.mpr (.text ha hc)
      | list hlength hitems =>
          cases equals_iff.mp hbc with
          | place hb | text hb => cases hb
          | list hlength' hitems' =>
              refine equals_iff.mpr (.list (hlength.trans hlength') fun i a c ha hc => ?_)
              obtain ⟨hi, -⟩ := List.getElem?_eq_some_iff.mp ha
              have hb := List.getElem?_eq_getElem (hlength ▸ hi)
              exact ih _ rfl a (List.mem_of_getElem? ha) (hitems i a _ ha hb) (hitems' i _ c hb hc)
                fun h => hexact (.item i ha hb hc h)

-- Equality is passed on unless integers that a float cannot tell apart are on either side of it.
theorem equality_is_transitive_unless_rounded {a b c : Value} (hab : a.equals b = true)
    (hbc : b.equals c = true) : a.equals c = true ↔ ¬RoundedTogether a b c :=
  ⟨fun h hrounded => not_equals_of_roundedTogether hrounded h, equals_trans hab hbc⟩

theorem neighbours_are_rounded_together :
    (list [string "f", integer 9007199254740992]).equals
      (list [reader ⟨0, "f"⟩, float 9007199254740992]) = true ∧
    (list [reader ⟨0, "f"⟩, float 9007199254740992]).equals
      (list [writer ⟨1, "f"⟩, integer 9007199254740993]) = true ∧
    (list [string "f", integer 9007199254740992]).equals
      (list [writer ⟨1, "f"⟩, integer 9007199254740993]) = false := by
  have hab : (list [string "f", integer 9007199254740992]).equals
      (list [reader ⟨0, "f"⟩, float 9007199254740992]) = true := by decide
  have hbc : (list [reader ⟨0, "f"⟩, float 9007199254740992]).equals
      (list [writer ⟨1, "f"⟩, integer 9007199254740993]) = true := by decide
  refine ⟨hab, hbc, Bool.eq_false_iff.mpr fun h => ?_⟩
  exact (equality_is_transitive_unless_rounded hab hbc).mp h
    (.item 1 rfl rfl rfl (.number _ (by decide) (by decide) (by decide)))

theorem equality_is_not_transitive :
    ¬∀ a b c : Value, a.equals b = true → b.equals c = true → a.equals c = true := by
  intro h
  have htrans := h (integer 9007199254740992) (float 9007199254740992)
    (integer 9007199254740993) (by decide) (by decide)
  exact absurd htrans (by decide)

end LineScript.Value

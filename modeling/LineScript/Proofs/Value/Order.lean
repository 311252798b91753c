import LineScript.Proofs.Value.Equality

namespace LineScript.Value

def IsNumeric (value : Value) : Prop := value.type = .integer ∨ value.type = .float

-- A float, but one that is no number.
def IsNotANumber (value : Value) : Prop :=
  ∃ x, value = float x ∧ Number.magnitude x = .notANumber

theorem isNumeric_iff {value : Value} : value.IsNumeric ↔ ∃ place, value.place? = some place := by
  cases value <;> simp [IsNumeric, type, place?]

theorem isNotANumber_iff {value : Value} : value.IsNotANumber ↔ value.place? = some none := by
  constructor
  · rintro ⟨x, rfl, hx⟩
    exact congrArg some (Number.place?_eq_none_iff.mpr hx)
  · intro h
    obtain ⟨n, rfl, hn⟩ | ⟨x, rfl, hx⟩ := number_of_place? h
    · rw [Number.place?_ofInteger] at hn
      cases hn
    · exact ⟨x, rfl, Number.place?_eq_none_iff.mp hx⟩

variable {a b c : Value} {p q : Option Int}

theorem ofBool_cases (holds : Bool) : ofBool holds = integer 0 ∨ ofBool holds = integer 1 := by
  cases holds
  · exact .inl rfl
  · exact .inr rfl

theorem ofBool_eq_one_iff {holds : Bool} : ofBool holds = integer 1 ↔ holds = true := by
  cases holds <;> simp [ofBool]

theorem before_eq_true_iff : Number.before p q = true ↔ ∃ i j, p = some i ∧ q = some j ∧ i < j := by
  cases p <;> cases q <;> simp [Number.before]

theorem greaterThan_eq_lessThan (a b : Value) : a.greaterThan b = b.lessThan a := by
  cases a <;> cases b <;> rfl

theorem lessThan_integer (m n : Int64) :
    (integer m).lessThan (integer n) = ofBool (decide (m < n)) := rfl

theorem lessThan_of_float (ha : a.place? = some p) (hb : b.place? = some q)
    (hfloat : a.type = .float ∨ b.type = .float) : a.lessThan b = ofBool (Number.before p q) := by
  obtain ⟨m, rfl, rfl⟩ | ⟨x, rfl, rfl⟩ := number_of_place? ha <;>
    obtain ⟨n, rfl, rfl⟩ | ⟨y, rfl, rfl⟩ := number_of_place? hb
  · simp [type] at hfloat
  all_goals rfl

-- Two numbers are integers, or else they are compared by their places.
theorem numeric_cases (ha : a.IsNumeric) (hb : b.IsNumeric) :
    (∃ m n, a = integer m ∧ b = integer n) ∨
      ∃ p q, a.place? = some p ∧ b.place? = some q ∧ (a.type = .float ∨ b.type = .float) := by
  obtain ⟨p, hp⟩ := isNumeric_iff.mp ha
  obtain ⟨q, hq⟩ := isNumeric_iff.mp hb
  obtain ⟨m, rfl, -⟩ | ⟨x, rfl, -⟩ := number_of_place? hp
  · obtain ⟨n, rfl, -⟩ | ⟨y, rfl, -⟩ := number_of_place? hq
    · exact .inl ⟨m, n, rfl, rfl⟩
    · exact .inr ⟨p, q, hp, hq, .inr rfl⟩
  · exact .inr ⟨p, q, hp, hq, .inl rfl⟩

theorem lessThan_of_numeric (ha : a.IsNumeric) (hb : b.IsNumeric) :
    a.lessThan b = integer 0 ∨ a.lessThan b = integer 1 := by
  obtain ⟨m, n, rfl, rfl⟩ | ⟨p, q, hp, hq, hfloat⟩ := numeric_cases ha hb
  · rw [lessThan_integer]
    exact ofBool_cases _
  · rw [lessThan_of_float hp hq hfloat]
    exact ofBool_cases _

theorem lessThan_eq_incomparable_iff :
    a.lessThan b = incomparable ↔ ¬(a.IsNumeric ∧ b.IsNumeric) := by
  constructor
  · rintro h ⟨ha, hb⟩
    obtain hless | hless := lessThan_of_numeric ha hb <;> simp [hless] at h
  · intro h
    cases a <;> cases b <;> simp [IsNumeric, type] at h <;> rfl

-- What it takes for a number to come before another. Integers on both sides do not need a place
-- between them, for they are not promoted.
inductive Precedes : Value → Value → Prop where
  | integer {m n : Int64} (h : m < n) : Precedes (integer m) (integer n)
  | place {a b : Value} {p q : Int} (ha : a.place? = some (some p)) (hb : b.place? = some (some q))
      (h : p < q) : Precedes a b

theorem lessThan_eq_one_iff : a.lessThan b = integer 1 ↔ Precedes a b := by
  constructor
  · intro h
    have hnumeric : a.IsNumeric ∧ b.IsNumeric := by
      by_contra hother
      rw [lessThan_eq_incomparable_iff.mpr hother] at h
      cases h
    obtain ⟨m, n, rfl, rfl⟩ | ⟨p, q, hp, hq, hfloat⟩ := numeric_cases hnumeric.1 hnumeric.2
    · rw [lessThan_integer, ofBool_eq_one_iff, decide_eq_true_iff] at h
      exact .integer h
    · rw [lessThan_of_float hp hq hfloat, ofBool_eq_one_iff, before_eq_true_iff] at h
      obtain ⟨i, j, rfl, rfl, hless⟩ := h
      exact .place hp hq hless
  · rintro (hless | ⟨hp, hq, hless⟩)
    · exact ofBool_eq_one_iff.mpr (decide_eq_true hless)
    · obtain ⟨m, n, rfl, rfl⟩ | ⟨p', q', hp', hq', hfloat⟩ :=
        numeric_cases (isNumeric_iff.mpr ⟨_, hp⟩) (isNumeric_iff.mpr ⟨_, hq⟩)
      · rw [lessThan_integer, ofBool_eq_one_iff, decide_eq_true_iff]
        by_contra hmore
        have hle := Number.promotion_mono (Int64.not_lt.mp hmore) (Option.some.inj hq)
          (Option.some.inj hp)
        omega
      · cases hp.symm.trans hp'
        cases hq.symm.trans hq'
        rw [lessThan_of_float hp hq hfloat, ofBool_eq_one_iff, before_eq_true_iff]
        exact ⟨_, _, rfl, rfl, hless⟩

-- Rounded together or not, a number that comes before another does not stand behind it.
theorem Precedes.places (h : Precedes a b) :
    ∃ p q, a.place? = some (some p) ∧ b.place? = some (some q) ∧ p ≤ q := by
  cases h with
  | @integer m n h =>
      have hm := Number.place?_ofInteger m
      have hn := Number.place?_ofInteger n
      exact ⟨_, _, congrArg some hm, congrArg some hn,
        Number.promotion_mono (Int64.le_of_lt h) hm hn⟩
  | place ha hb h => exact ⟨_, _, ha, hb, h.le⟩

theorem Precedes.irrefl (a : Value) : ¬Precedes a a := by
  intro h
  cases h with
  | integer h => exact Int64.lt_irrefl h
  | place ha hb h =>
      cases ha.symm.trans hb
      omega

theorem Precedes.trans (hab : Precedes a b) (hbc : Precedes b c) : Precedes a c := by
  obtain ⟨p, q, ha, hb, hpq⟩ := hab.places
  obtain ⟨q', r, hb', hc, hqr⟩ := hbc.places
  cases hb.symm.trans hb'
  cases hab with
  | integer hmn =>
      cases hbc with
      | integer hnk => exact .integer (Int64.lt_trans hmn hnk)
      | place hb' hc' hless =>
          cases hb.symm.trans hb'
          cases hc.symm.trans hc'
          exact .place ha hc (by omega)
  | place ha' hb' hless =>
      cases ha.symm.trans ha'
      cases hb.symm.trans hb'
      exact .place ha hc (by omega)

theorem not_equals_of_precedes (h : Precedes a b) : a.equals b ≠ true := by
  intro hequals
  cases equals_iff.mp hequals with
  | integer n => exact Precedes.irrefl _ h
  | place ha hb hfloat =>
      cases h with
      | integer => simp [type] at hfloat
      | place ha' hb' hless =>
          cases ha.symm.trans ha'
          cases hb.symm.trans hb'
          omega
  | null | list =>
      obtain ⟨p, q, hp, -, -⟩ := h.places
      cases hp
  | text htext =>
      obtain ⟨p, q, hp, -, -⟩ := h.places
      obtain ⟨n, rfl, -⟩ | ⟨x, rfl, -⟩ := number_of_place? hp <;> cases htext

-- Numbers that both stand somewhere are comparable.
theorem precedes_trichotomy {p q : Int} (ha : a.place? = some (some p))
    (hb : b.place? = some (some q)) : Precedes a b ∨ Precedes b a ∨ a.equals b = true := by
  obtain hless | hsame | hmore := lt_trichotomy p q
  · exact .inl (.place ha hb hless)
  · obtain ⟨m, n, rfl, rfl⟩ | ⟨p', q', hp', hq', hfloat⟩ :=
      numeric_cases (isNumeric_iff.mpr ⟨_, ha⟩) (isNumeric_iff.mpr ⟨_, hb⟩)
    · obtain hmn | hmn | hmn := lt_trichotomy m.toInt n.toInt
      · exact .inl (.integer (Int64.lt_iff_toInt_lt.mpr hmn))
      · exact .inr (.inr (equals_iff.mpr (Int64.toInt_inj.mp hmn ▸ .integer m)))
      · exact .inr (.inl (.integer (Int64.lt_iff_toInt_lt.mpr hmn)))
    · exact .inr (.inr (equals_iff.mpr (.place ha (hsame ▸ hb) hfloat)))
  · exact .inr (.inl (.place hb ha hmore))

-- Numbers are comparable unless only one of them stands nowhere.
theorem comparable_iff (ha : a.IsNumeric) (hb : b.IsNumeric) :
    (Precedes a b ∨ Precedes b a ∨ a.equals b = true) ↔ (a.IsNotANumber ↔ b.IsNotANumber) := by
  rw [isNotANumber_iff, isNotANumber_iff]
  obtain ⟨p, hp⟩ := isNumeric_iff.mp ha
  obtain ⟨q, hq⟩ := isNumeric_iff.mp hb
  constructor
  · rintro (h | h | h)
    · obtain ⟨i, j, hi, hj, -⟩ := h.places
      simp [hi, hj]
    · obtain ⟨i, j, hi, hj, -⟩ := h.places
      simp [hi, hj]
    · cases equals_iff.mp h with
      | null | list => cases hp
      | integer n => exact Iff.rfl
      | place hplace hplace' => rw [hplace, hplace']
      | text htext => obtain ⟨n, rfl, -⟩ | ⟨x, rfl, -⟩ := number_of_place? hp <;> cases htext
  · intro h
    cases p with
    | none =>
        obtain ⟨x, rfl, -⟩ := isNotANumber_iff.mpr hp
        exact .inr (.inr (equals_iff.mpr (.place hp (h.mp hp) (.inl rfl))))
    | some i =>
        cases q with
        | none => cases hp.symm.trans (h.mpr hq)
        | some j => exact precedes_trichotomy hp hq

-- Ordering and equality fit together. Only numbers have an order, in which greater is less the
-- other way round. It is strict whatever the mix of integers and floats, and of less, greater and
-- equal exactly one holds unless only one of the numbers is no number.
theorem ordering_and_equality_cohere (a b c : Value) :
    a.greaterThan b = b.lessThan a ∧
    (a.lessThan b = incomparable ↔ ¬(a.IsNumeric ∧ b.IsNumeric)) ∧
    (a.greaterThan b = incomparable ↔ ¬(a.IsNumeric ∧ b.IsNumeric)) ∧
    (a.IsNumeric → b.IsNumeric →
      (a.lessThan b = integer 0 ∨ a.lessThan b = integer 1) ∧
      (a.greaterThan b = integer 0 ∨ a.greaterThan b = integer 1)) ∧
    (a.IsNumeric → a.lessThan a = integer 0) ∧
    (a.lessThan b = integer 1 → b.lessThan c = integer 1 → a.lessThan c = integer 1) ∧
    (a.IsNumeric → b.IsNumeric →
      ¬(a.lessThan b = integer 1 ∧ a.greaterThan b = integer 1) ∧
      ¬(a.lessThan b = integer 1 ∧ a.equals b = true) ∧
      ¬(a.greaterThan b = integer 1 ∧ a.equals b = true) ∧
      (a.lessThan b = integer 1 ∨ a.greaterThan b = integer 1 ∨ a.equals b = true ↔
        (a.IsNotANumber ↔ b.IsNotANumber))) := by
  have hgreater := greaterThan_eq_lessThan a b
  refine ⟨hgreater, lessThan_eq_incomparable_iff, ?_, ?_, ?_, ?_, ?_⟩
  · rw [hgreater, lessThan_eq_incomparable_iff, and_comm]
  · intro ha hb
    rw [hgreater]
    exact ⟨lessThan_of_numeric ha hb, lessThan_of_numeric hb ha⟩
  · intro ha
    obtain hzero | hone := lessThan_of_numeric ha ha
    · exact hzero
    · exact absurd (lessThan_eq_one_iff.mp hone) (Precedes.irrefl a)
  · rw [lessThan_eq_one_iff, lessThan_eq_one_iff, lessThan_eq_one_iff]
    exact Precedes.trans
  · intro ha hb
    rw [hgreater, lessThan_eq_one_iff, lessThan_eq_one_iff]
    refine ⟨?_, ?_, ?_, comparable_iff ha hb⟩
    · rintro ⟨hless, hmore⟩
      exact Precedes.irrefl a (hless.trans hmore)
    · rintro ⟨hless, hequal⟩
      exact not_equals_of_precedes hless hequal
    · rintro ⟨hmore, hequal⟩
      exact not_equals_of_precedes hmore (equals_symm hequal)

-- The integer 2 ^ 53 + 1 is promoted to the float 2 ^ 53, and 2 ^ 53 + 2 to the float behind it.
theorem float_stands_between_integers :
    (integer 9007199254740991).lessThan (float 9007199254740992) = integer 1 ∧
    (float 9007199254740992).lessThan (integer 9007199254740994) = integer 1 ∧
    (integer 9007199254740991).lessThan (integer 9007199254740994) = integer 1 ∧
    (float 9007199254740992).greaterThan (integer 9007199254740993) ≠ integer 1 ∧
    (float 9007199254740992).equals (integer 9007199254740993) = true := by
  have hfirst : (integer 9007199254740991).lessThan (float 9007199254740992) = integer 1 := by
    rfl
  have hsecond : (float 9007199254740992).lessThan (integer 9007199254740994) = integer 1 := by
    rfl
  have hequal : (float 9007199254740992).equals (integer 9007199254740993) = true := by
    rfl
  obtain ⟨-, -, -, -, -, htrans, -⟩ := ordering_and_equality_cohere (integer 9007199254740991)
    (float 9007199254740992) (integer 9007199254740994)
  obtain ⟨-, -, -, -, -, -, hone⟩ := ordering_and_equality_cohere (float 9007199254740992)
    (integer 9007199254740993) null
  obtain ⟨-, -, hapart, -⟩ := hone (.inr rfl) (.inl rfl)
  exact ⟨hfirst, hsecond, htrans hfirst hsecond, fun hmore => hapart ⟨hmore, hequal⟩, hequal⟩

end LineScript.Value

import LineScript.Proofs.Memory.Case

namespace LineScript

namespace Text

section Ascii

def IsAscii (c : Char) : Prop := c.toNat < 128

instance (c : Char) : Decidable (IsAscii c) := inferInstanceAs (Decidable (c.toNat < 128))

-- Two texts that are the same but for their ASCII characters, which may be any.
def SameBeyondAscii (cs ds : List Char) : Prop :=
  List.Forall₂ (fun c d => c = d ∨ IsAscii c ∧ IsAscii d) cs ds

theorem apply_ascii {p : Char → Prop} (h : ∀ i < 128, p (Char.ofNat i)) {c : Char}
    (hc : IsAscii c) : p c := by
  have hp := h c.toNat hc
  rwa [Char.ofNat_toNat] at hp

theorem toUpper_lowerChar {c : Char} (hc : IsAscii c) : (lowerChar c).toUpper = c.toUpper :=
  apply_ascii (p := fun c => (lowerChar c).toUpper = c.toUpper) (by decide) hc

theorem same_or_ascii_of_toUpper {c d : Char} (h : c.toUpper = d.toUpper) :
    c = d ∨ IsAscii c ∧ IsAscii d := by
  have hletters : ∀ i < 26, IsAscii (Char.ofNat (97 + i)) ∧ IsAscii (Char.ofNat (65 + i)) := by
    decide
  rcases toUpper_cases c with hc | ⟨i, hi, hc, hupper⟩ <;>
    rcases toUpper_cases d with hd | ⟨j, hj, hd, hupper'⟩
  · exact .inl (hc.symm.trans (h.trans hd))
  · rw [hc, hupper'] at h
    exact .inr ⟨h ▸ (hletters j hj).2, hd ▸ (hletters j hj).1⟩
  · rw [hupper, hd] at h
    exact .inr ⟨hc ▸ (hletters i hi).1, h ▸ (hletters i hi).2⟩
  · exact .inr ⟨hc ▸ (hletters i hi).1, hd ▸ (hletters j hj).1⟩

theorem sameBeyondAscii_of_toUpper {cs ds : List Char}
    (h : cs.map Char.toUpper = ds.map Char.toUpper) : SameBeyondAscii cs ds := by
  induction cs generalizing ds with
  | nil =>
      obtain rfl := List.map_eq_nil_iff.mp h.symm
      exact .nil
  | cons c rest ih =>
      obtain ⟨d, others, rfl, hd, hothers⟩ := List.map_eq_cons_iff.mp h.symm
      exact .cons (same_or_ascii_of_toUpper hd.symm) (ih hothers.symm)

theorem lowerFrom_ascii {c : Char} (hc : IsAscii c) (before rest : List Char) :
    lowerFrom before (c :: rest) = lowerChar c :: lowerFrom (c :: before) rest := by
  rw [lowerFrom]
  · rintro rfl
    exact absurd hc (by decide)
  · rintro rfl
    exact absurd hc (by decide)

-- A character leaves as many behind as it does elsewhere.
theorem lowerFrom_tail {c : Char} {before before' rest rest' : List Char}
    (h : lowerFrom before (c :: rest) = lowerFrom before' (c :: rest')) :
    lowerFrom (c :: before) rest = lowerFrom (c :: before') rest' := by
  by_cases hsigma : c = 'Σ'
  · subst hsigma
    rw [lowerFrom, lowerFrom] at h
    exact (List.cons.inj h).2
  · by_cases hdotted : c = 'İ'
    · subst hdotted
      rw [lowerFrom, lowerFrom] at h
      exact (List.cons.inj (List.cons.inj h).2).2
    · rw [lowerFrom.eq_4 _ _ _ hsigma hdotted, lowerFrom.eq_4 _ _ _ hsigma hdotted] at h
      exact (List.cons.inj h).2

theorem toUpper_of_lowerFrom {before before' cs ds : List Char} (hsame : SameBeyondAscii cs ds)
    (h : lowerFrom before cs = lowerFrom before' ds) :
    cs.map Char.toUpper = ds.map Char.toUpper := by
  induction hsame generalizing before before' with
  | nil => rfl
  | @cons c d cs ds hcd _ ih =>
      rcases hcd with rfl | ⟨hc, hd⟩
      · rw [List.map_cons, List.map_cons, ih (lowerFrom_tail h)]
      · rw [lowerFrom_ascii hc, lowerFrom_ascii hd] at h
        obtain ⟨hhead, htail⟩ := List.cons.inj h
        rw [List.map_cons, List.map_cons, ih htail, ← toUpper_lowerChar hc, hhead,
          toUpper_lowerChar hd]

theorem toUpper_lowerFrom_ascii {cs : List Char} (h : ∀ c ∈ cs, IsAscii c) (before : List Char) :
    (lowerFrom before cs).map Char.toUpper = cs.map Char.toUpper := by
  induction cs generalizing before with
  | nil => rfl
  | cons c rest ih =>
      obtain ⟨hc, hrest⟩ := List.forall_mem_cons.mp h
      rw [lowerFrom_ascii hc, List.map_cons, List.map_cons, ih hrest, toUpper_lowerChar hc]

end Ascii

theorem sameIgnoringCase_iff {p q : String} :
    sameIgnoringCase p q = true ↔ p.toList.map Char.toUpper = q.toList.map Char.toUpper := by
  rw [sameIgnoringCase, beq_iff_eq]

end Text

open Text

namespace Token

variable {a b : Token}

-- Whatever there is in the memory, what is assigned through the first token is read through the
-- second.
def SameVariable (a b : Token) : Prop :=
  ∀ (memory : Memory) (value : Value), ∃ next,
    memory.write a.text value true = .ok next ∧ next.read b.text = .ok value

theorem sameVariable_iff (ha : (Name.ofText a.text).accessors = [])
    (hb : (Name.ofText b.text).accessors = []) :
    SameVariable a b ↔ Memory.key a.text = Memory.key b.text := by
  have hwrite (memory : Memory) (value : Value) :
      memory.write a.text value true = .ok (memory.store a.text value) := by
    rw [Memory.write, if_pos ha, Bool.true_or, if_pos rfl, Name.base_of_plain ha]
  have hread (memory : Memory) (value : Value) :
      (memory.store a.text value).read b.text =
        .ok (if Memory.key b.text = Memory.key a.text then value else memory.plain b.text) := by
    rw [Memory.read_of_plain hb, Memory.plain_store]
  constructor
  · intro h
    by_contra hother
    obtain ⟨next, hnext, hvalue⟩ := h ⟨[], []⟩ (.integer 1)
    rw [hwrite] at hnext
    cases hnext
    rw [hread, if_neg (Ne.symm hother)] at hvalue
    cases hvalue
  · intro h memory value
    refine ⟨_, hwrite memory value, ?_⟩
    rw [hread, if_pos h.symm]

theorem matchesToken_iff (ha : a.kind = .name) (hb : b.kind = .name) :
    a.matchesToken b = true ↔ a.text.toList.map Char.toUpper = b.text.toList.map Char.toUpper := by
  simp [matchesToken, ha, hb, sameIgnoringCase_iff]

theorem key_eq_of_toUpper (h : a.text.toList.map Char.toUpper = b.text.toList.map Char.toUpper) :
    Memory.key a.text = Memory.key b.text :=
  Memory.key_of_upper (congrArg String.ofList h)

theorem lowerFrom_eq_of_key (h : Memory.key a.text = Memory.key b.text) :
    lowerFrom [] a.text.toList = lowerFrom [] b.text.toList :=
  String.ofList_injective h

-- Names that match are one variable, but one variable can have names that do not match: a variable
-- is the same in either case of any letter, and a match only ignores that of the letters A to Z.
theorem matching_names_are_one_variable (ha : a.kind = .name) (hb : b.kind = .name)
    (haplain : (Name.ofText a.text).accessors = []) (hbplain : (Name.ofText b.text).accessors = []) :
    (SameVariable a b ↔ lowercase a.text = lowercase b.text) ∧
    (a.matchesToken b = true ↔
      SameVariable a b ∧ SameBeyondAscii a.text.toList b.text.toList) ∧
    ((∀ c ∈ a.text.toList, IsAscii c) → (∀ c ∈ b.text.toList, IsAscii c) →
      (a.matchesToken b = true ↔ SameVariable a b)) := by
  rw [matchesToken_iff ha hb, sameVariable_iff haplain hbplain]
  refine ⟨Iff.rfl, ⟨?_, ?_⟩, fun haascii hbascii => ⟨key_eq_of_toUpper, ?_⟩⟩
  · intro h
    exact ⟨key_eq_of_toUpper h, sameBeyondAscii_of_toUpper h⟩
  · rintro ⟨hkey, hsame⟩
    exact toUpper_of_lowerFrom hsame (lowerFrom_eq_of_key hkey)
  · intro h
    rw [← toUpper_lowerFrom_ascii haascii [], lowerFrom_eq_of_key h,
      toUpper_lowerFrom_ascii hbascii]

theorem umlaut_name_matches_its_capital :
    SameVariable ⟨.name, "zähler"⟩ ⟨.name, "Zähler"⟩ ∧
      matchesToken ⟨.name, "zähler"⟩ ⟨.name, "Zähler"⟩ = true := by
  have hmatch : matchesToken ⟨.name, "zähler"⟩ ⟨.name, "Zähler"⟩ = true := by decide
  obtain ⟨-, hiff, -⟩ := matching_names_are_one_variable (a := ⟨.name, "zähler"⟩)
    (b := ⟨.name, "Zähler"⟩) rfl rfl (by decide) (by decide)
  exact ⟨(hiff.mp hmatch).1, hmatch⟩

-- Both are read from a line, and both are the one variable.
theorem umlaut_in_other_case_does_not_match :
    Token.readSingle "zähler" = .ok ⟨.name, "zähler"⟩ ∧
    Token.readSingle "ZÄHLER" = .ok ⟨.name, "ZÄHLER"⟩ ∧
    SameVariable ⟨.name, "zähler"⟩ ⟨.name, "ZÄHLER"⟩ ∧
    matchesToken ⟨.name, "zähler"⟩ ⟨.name, "ZÄHLER"⟩ = false := by
  have hkey : Memory.key "zähler" = Memory.key "ZÄHLER" := by decide +kernel
  refine ⟨by decide +kernel, by decide +kernel, ?_, by decide⟩
  exact (sameVariable_iff (by decide) (by decide)).mpr hkey

end Token

end LineScript

import LineScript.Text.Lowercase
import Mathlib.Tactic.Common

namespace LineScript.Text

-- The codes from `first` to `last`, `step` apart, are codes that no run covers. Like the search
-- this stops at the first run behind them. A run of every other code covers none of them if they
-- are the ones in between.
def CaseRun.missedBy (first last step : Nat) : List CaseRun → Bool
  | [] => true
  | run :: rest =>
      Nat.blt last run.first ||
        (Nat.blt run.last first ||
          (Nat.beq step 2 || Nat.beq first last) && Nat.beq run.step 2 &&
            Nat.beq ((first + run.first) % 2) 1) &&
          CaseRun.missedBy first last step rest

theorem CaseRun.search_of_missedBy {first last step code : Nat} {runs : List CaseRun}
    (h : CaseRun.missedBy first last step runs = true) (hfirst : first ≤ code) (hlast : code ≤ last)
    (hstep : (code - first) % step = 0) : CaseRun.search runs code = none := by
  induction runs with
  | nil => rfl
  | cons run rest ih =>
      rw [CaseRun.search]
      split_ifs with hbefore hcovers
      · rfl
      · simp only [CaseRun.covers, Bool.and_eq_true, decide_eq_true_eq, beq_iff_eq] at hcovers
        obtain ⟨⟨hlow, hhigh⟩, hcode⟩ := hcovers
        simp only [CaseRun.missedBy, Bool.or_eq_true, Bool.and_eq_true, Nat.blt_eq,
          Nat.beq_eq] at h
        rcases h with hbehind | ⟨hapart | ⟨⟨hsparse, htwo⟩, hodd⟩, _⟩
        · omega
        · omega
        · rw [htwo] at hcode
          rcases hsparse with rfl | rfl <;> omega
      · simp only [CaseRun.missedBy, Bool.or_eq_true, Bool.and_eq_true, Nat.blt_eq] at h
        rcases h with hbehind | ⟨_, hrest⟩
        · omega
        · exact ih hrest

-- A run leads to codes that no run covers, and not to that of the dotted capital I.
def CaseRun.leadsOut (run : CaseRun) : Bool :=
  let first := Int.toNat (run.first + run.shift)
  let last := Int.toNat (run.last + run.shift)
  decide (0 ≤ (run.first : Int) + run.shift) &&
    (Nat.blt last 'İ'.toNat || Nat.blt 'İ'.toNat first) &&
      CaseRun.missedBy first last run.step caseRuns

theorem caseRuns_lead_out : caseRuns.all CaseRun.leadsOut = true := by decide +kernel

theorem CaseRun.mem_of_search {runs : List CaseRun} {code : Nat} {run : CaseRun}
    (h : CaseRun.search runs code = some run) : run ∈ runs ∧ run.covers code = true := by
  induction runs with
  | nil => cases h
  | cons other rest ih =>
      rw [CaseRun.search] at h
      split_ifs at h with hbefore hcovers
      · cases h
        exact ⟨List.mem_cons_self, hcovers⟩
      · obtain ⟨hmem, hcode⟩ := ih h
        exact ⟨List.mem_cons_of_mem _ hmem, hcode⟩

-- A character that lower-casing leaves alone: no run covers it, and it is not the dotted capital I.
structure Lowered (c : Char) : Prop where
  uncovered : CaseRun.search caseRuns c.toNat = none
  dotless : c ≠ 'İ'

namespace Lowered

theorem ne_sigma {c : Char} (h : Lowered c) : c ≠ 'Σ' := by
  rintro rfl
  have hcovered : (CaseRun.search caseRuns 'Σ'.toNat).isSome = true := by decide
  rw [h.uncovered] at hcovered
  cases hcovered

theorem lowerChar_eq {c : Char} (h : Lowered c) : lowerChar c = c := by
  rw [lowerChar, h.uncovered]

theorem of_lowerChar {c : Char} (hdotted : c ≠ 'İ') : Lowered (lowerChar c) := by
  unfold lowerChar
  split
  · rename_i run hrun
    obtain ⟨hmem, hcovers⟩ := CaseRun.mem_of_search hrun
    have hout := List.all_eq_true.mp caseRuns_lead_out run hmem
    simp only [CaseRun.leadsOut, CaseRun.covers, Bool.and_eq_true, Bool.or_eq_true,
      decide_eq_true_eq, beq_iff_eq, Nat.blt_eq] at hout hcovers
    obtain ⟨⟨hpos, hdot⟩, hmissed⟩ := hout
    obtain ⟨⟨hlow, hhigh⟩, hstep⟩ := hcovers
    generalize hcode : Int.toNat (c.toNat + run.shift) = code
    have hoffset : code - Int.toNat (run.first + run.shift) = c.toNat - run.first := by omega
    have hnone : CaseRun.search caseRuns code = none := by
      refine CaseRun.search_of_missedBy hmissed (by omega) (by omega) ?_
      rw [hoffset, hstep]
    by_cases hvalid : code.isValidChar
    · rw [Char.ofNat, dif_pos hvalid]
      refine ⟨hnone, fun himage => ?_⟩
      have hcode : code = 'İ'.toNat := congrArg Char.toNat himage
      omega
    · rw [Char.ofNat, dif_neg hvalid]
      exact ⟨rfl, by decide⟩
  · rename_i hnone
    exact ⟨hnone, hdotted⟩

end Lowered

theorem lowered_lowerFrom (before cs : List Char) : ∀ c ∈ lowerFrom before cs, Lowered c := by
  have hsigma (before after : List Char) : Lowered (lowerSigma before after) := by
    unfold lowerSigma
    split
    · exact ⟨by decide, by decide⟩
    · exact ⟨by decide, by decide⟩
  fun_induction lowerFrom before cs with
  | case1 before => exact List.forall_mem_nil _
  | case2 before rest ih => exact List.forall_mem_cons.mpr ⟨hsigma _ _, ih⟩
  | case3 before rest ih =>
      refine List.forall_mem_cons.mpr ⟨⟨by decide, by decide⟩, ?_⟩
      exact List.forall_mem_cons.mpr ⟨⟨by decide, by decide⟩, ih⟩
  | case4 before c rest _ hdotted ih =>
      exact List.forall_mem_cons.mpr ⟨.of_lowerChar hdotted, ih⟩

theorem lowerFrom_of_lowered (before : List Char) {cs : List Char} (h : ∀ c ∈ cs, Lowered c) :
    lowerFrom before cs = cs := by
  induction cs generalizing before with
  | nil => rfl
  | cons c rest ih =>
      obtain ⟨hc, hrest⟩ := List.forall_mem_cons.mp h
      rw [lowerFrom, hc.lowerChar_eq, ih _ hrest]
      · exact hc.ne_sigma
      · exact hc.dotless

-- What is lower-case already stays as it is.
theorem lowercase_lowercase (text : String) : lowercase (lowercase text) = lowercase text := by
  unfold lowercase
  rw [String.toList_ofList, lowerFrom_of_lowered [] (lowered_lowerFrom [] text.toList)]

end LineScript.Text

import TypedExpr.Binary.Reader
import Mathlib.Tactic.IntervalCases

/-! # Small classes of characters

Digits, letters and blanks one by one, so that what holds of all of them can be decided.
-/

namespace TypedExpr

namespace Text

variable {c : Char}

theorem isDigit_iff_mem : isDigit c ↔ c ∈ "0123456789".toList := by
  constructor
  · intro h
    simp only [isDigit, Bool.and_eq_true, decide_eq_true_eq] at h
    have low : 48 ≤ c.toNat := h.1
    have high : c.toNat ≤ 57 := h.2
    rw [← Char.ofNat_toNat c]
    generalize c.toNat = n at low high
    interval_cases n <;> decide
  · have all : "0123456789".toList.all isDigit := by decide
    exact List.all_eq_true.mp all c

theorem sameIgnoringCase_iff {a b : String} :
    sameIgnoringCase a b ↔ a.toList.map Char.toLower = b.toList.map Char.toLower := beq_iff_eq

theorem sameIgnoringCase_comm (a b : String) : sameIgnoringCase a b = sameIgnoringCase b a :=
  BEq.comm

/-- The letters of words that have a meaning of their own, in both cases. -/
def letters : List Char := "abcdefghijklmnopqrstuvwxyzABCDEFGHIJKLMNOPQRSTUVWXYZ".toList

theorem mem_letters_of_toLower (h : c.toLower ∈ letters) : c ∈ letters := by
  by_cases capital : 65 ≤ c.toNat ∧ c.toNat ≤ 90
  · obtain ⟨low, high⟩ := capital
    rw [← Char.ofNat_toNat c]
    generalize c.toNat = n at low high
    interval_cases n <;> decide
  · have small : c.toLower = c := dif_neg capital
    rwa [small] at h

/-- The codes of all blank characters. -/
def blankCodes : List Nat :=
  [9, 10, 11, 12, 13, 32, 133, 160, 5760, 8192, 8193, 8194, 8195, 8196, 8197, 8198, 8199, 8200,
    8201, 8202, 8232, 8233, 8239, 8287, 12288]

theorem mem_blankCodes (h : isWhiteSpace c) : c.toNat ∈ blankCodes := by
  unfold isWhiteSpace at h
  generalize c.toNat = n at h
  simp only [inRuns, whiteSpaceRuns, blankCodes, List.mem_cons, List.not_mem_nil, or_false,
    Bool.if_false_left, Bool.and_eq_true, Bool.or_eq_true, decide_eq_true_eq,
    Bool.not_eq_true', Bool.false_eq_true, decide_eq_false_iff_not] at h ⊢
  omega

/-! ## Runs within runs -/

/-- The runs behind those that end at `code` or before. -/
def runsFrom (code : Nat) : List Nat → List Nat
  | a :: b :: rest => if a ≤ code ∧ b ≤ code then runsFrom code rest else a :: b :: rest
  | _ => []

/-- Each run of the first list lies in a run of the second. -/
def runsWithin : List Nat → List Nat → Bool
  | a :: b :: rest, runs =>
    match runsFrom a runs with
    | a' :: b' :: runs => a' ≤ a && b ≤ b' && runsWithin rest (a' :: b' :: runs)
    | _ => false
  | _, _ => true

theorem inRuns_of_runsFrom {runs : List Nat} {a code : Nat} (le : a ≤ code)
    (h : inRuns (runsFrom a runs) code) : inRuns runs code := by
  fun_induction runsFrom a runs with
  | case1 b d rest before ih =>
      have inside : ¬ code < b := by omega
      rw [inRuns, if_neg inside, ih h, Bool.or_true]
  | case2 => exact h
  | case3 => cases h

theorem inRuns_of_runsWithin {inner outer : List Nat} {code : Nat} (within : runsWithin inner outer)
    (h : inRuns inner code) : inRuns outer code := by
  fun_induction runsWithin inner outer with
  | case1 a b rest outer a' b' runs found ih =>
      simp only [Bool.and_eq_true, decide_eq_true_eq] at within
      obtain ⟨⟨low, high⟩, within⟩ := within
      rw [inRuns] at h
      split at h
      · cases h
      · refine inRuns_of_runsFrom (a := a) (by omega) ?_
        rw [found]
        rcases Bool.or_eq_true_iff.mp h with here | later
        · have below := of_decide_eq_true here
          rw [inRuns, if_neg (by omega), decide_eq_true (by omega), Bool.true_or]
        · exact ih within later
  | case2 => cases within
  | case3 inner outer short =>
      unfold inRuns at h
      split at h
      · exact absurd rfl (short _ _ _)
      · cases h

theorem isXidContinue_of_isXidStart (h : isXidStart c) : isXidContinue c := by
  have within : runsWithin xidStartRuns xidContinueRuns := by decide +kernel
  exact inRuns_of_runsWithin within h

end Text

theorem Read.digits_of_nat? {cs : List Char} {n : Nat} (h : nat? cs = some n) :
    cs ≠ [] ∧ ∀ c ∈ cs, Text.isDigit c := by
  unfold nat? at h
  split at h
  · cases h
  · simp_all

end TypedExpr

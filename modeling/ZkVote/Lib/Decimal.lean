import ZkVote.Lib.Bytes

/-! # Numbers in decimal -/

namespace Lib

/-- Digits only, and at least one. -/
def readNat (cs : List Char) : Option Nat :=
  if cs = [] then none
  else if cs.all Char.isDigit then some (Nat.ofDigitChars 10 cs 0)
  else none

/-- The same with a sign before it. -/
def readInt : List Char → Option Int
  | '-' :: cs => (readNat cs).map fun n => -(n : Int)
  | cs => (readNat cs).map Int.ofNat

theorem isDigit_of_mem_repr {n : Nat} {c : Char} (hc : c ∈ n.repr.toList) : c.isDigit = true := by
  rw [Nat.toList_repr] at hc
  exact Nat.isDigit_of_mem_toDigits (by decide) (by decide) hc

theorem repr_ne_nil {n : Nat} : n.repr.toList ≠ [] := by
  rw [Nat.toList_repr]
  exact Nat.toDigits_ne_nil

theorem readNat_of_digits {cs : List Char} (hne : cs ≠ []) (hdigits : ∀ c ∈ cs, c.isDigit = true) :
    readNat cs = some (Nat.ofDigitChars 10 cs 0) := by
  unfold readNat
  rw [if_neg hne, if_pos (List.all_eq_true.mpr hdigits)]

theorem readInt_of_digits {cs : List Char} (hne : cs ≠ []) (hdigits : ∀ c ∈ cs, c.isDigit = true) :
    readInt cs = some (Nat.ofDigitChars 10 cs 0 : Int) := by
  unfold readInt
  split
  · next cs =>
    have hminus := hdigits '-' List.mem_cons_self
    cases hminus
  · rw [readNat_of_digits hne hdigits]
    rfl

theorem readInt_repr (n : Nat) : readInt n.repr.toList = some (n : Int) := by
  rw [readInt_of_digits repr_ne_nil fun c hc => isDigit_of_mem_repr hc, Nat.toList_repr, Nat.ofDigitChars_ten_toDigits]

/-! ## Digits from the right -/

theorem repr_of_lt_ten {n : Nat} (h : n < 10) : n.repr.toList = [n.digitChar] := by
  rw [Nat.toList_repr, Nat.toDigits_of_lt_base h]

theorem repr_of_ten_le {n : Nat} (h : 10 ≤ n) : n.repr.toList = (n / 10).repr.toList ++ [(n % 10).digitChar] := by
  rw [Nat.toList_repr, Nat.toList_repr, Nat.toDigits_of_base_le (by decide) h]

theorem digitChar_injective {a b : Nat} (ha : a < 10) (hb : b < 10) (h : a.digitChar = b.digitChar) : a = b := by
  have hvalue := congrArg Char.toNat h
  rw [Nat.toNat_digitChar_of_lt_ten ha, Nat.toNat_digitChar_of_lt_ten hb] at hvalue
  omega

theorem exists_of_isDigit {c : Char} (h : c.isDigit = true) : ∃ k < 10, c = k.digitChar := by
  have hrange : 48 ≤ c.toNat ∧ c.toNat ≤ 57 := by
    simp only [Char.isDigit, Bool.and_eq_true, decide_eq_true_eq] at h
    exact h
  refine ⟨c.toNat - 48, by omega, Char.toNat_inj.mp ?_⟩
  rw [Nat.toNat_digitChar_of_lt_ten (by omega)]
  omega

theorem exists_last_digit (n : Nat) : ∃ pre, n.repr.toList = pre ++ [(n % 10).digitChar] := by
  by_cases h : n < 10
  · exact ⟨[], by rw [repr_of_lt_ten h, Nat.mod_eq_of_lt h]; rfl⟩
  · exact ⟨_, repr_of_ten_le (by omega)⟩

/-- The last digit that is not zero, and the zeros behind it. -/
theorem exists_last_nonzero {n : Nat} (hpos : 0 < n) :
    ∃ pre x m, 0 < x ∧ x < 10 ∧ x * 10 ^ m ≤ n ∧
      n.repr.toList = pre ++ x.digitChar :: List.replicate m '0' := by
  induction n using Nat.strong_induction_on with
  | _ n ih =>
    by_cases hzero : n % 10 = 0
    · have hten : 10 ≤ n := by omega
      obtain ⟨pre, x, m, hx, hx', hle, hrepr⟩ := ih (n / 10) (by omega) (by omega)
      refine ⟨pre, x, m + 1, hx, hx', ?_, ?_⟩
      · rw [pow_succ]
        calc x * (10 ^ m * 10) = x * 10 ^ m * 10 := (Nat.mul_assoc _ _ _).symm
          _ ≤ n / 10 * 10 := Nat.mul_le_mul_right 10 hle
          _ ≤ n := Nat.div_mul_le_self n 10
      · rw [repr_of_ten_le hten, hrepr, hzero, List.replicate_succ', List.append_assoc]
        rfl
    · obtain ⟨pre, hpre⟩ := exists_last_digit n
      exact ⟨pre, n % 10, 0, by omega, by omega, by omega, hpre⟩

theorem repr_mul_ten_pow {x : Nat} (hpos : 0 < x) (hx : x < 10) (m : Nat) :
    (x * 10 ^ m).repr.toList = x.digitChar :: List.replicate m '0' := by
  induction m with
  | zero => rw [Nat.pow_zero, Nat.mul_one, repr_of_lt_ten hx]; rfl
  | succ m ih =>
    have hsplit : x * 10 ^ (m + 1) = x * 10 ^ m * 10 := by rw [pow_succ, Nat.mul_assoc]
    have hone : 1 ≤ x * 10 ^ m := Nat.mul_pos hpos (Nat.pow_pos (by decide))
    rw [repr_of_ten_le (by omega), hsplit, Nat.mul_div_cancel _ (by decide), Nat.mul_mod_left, ih,
      List.replicate_succ']
    rfl

end Lib

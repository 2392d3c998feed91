import Mathlib.Tactic.NormNum
import ZkVote.Lib.BigInt

/-!
# Amounts

`utils/stellarAmount.ts`: amounts in units, with seven decimals at most, and in stroops.
-/

open Lib

namespace ZkVote.StellarAmount

def STROOPS_PER_UNIT : Nat := 10000000
def MAX_STELLAR_STROOPS : Nat := 9223372036854775807

def decimalPlacesError : String := "Amount must use at most 7 decimal places"
def rangeError : String := "Amount is outside the Stellar int64 range"

/-- The two groups of the pattern: no zero before another digit, and one to seven digits after the point. -/
def matchAmount (cs : List Char) : Option (List Char × List Char) :=
  let whole := cs.takeWhile Char.isDigit
  if whole = [] ∨ (whole.head? = some '0' ∧ whole ≠ ['0']) then none
  else
    match cs.dropWhile Char.isDigit with
    | [] => some (whole, [])
    | c :: fraction =>
      if c = '.' ∧ fraction ≠ [] ∧ fraction.length ≤ 7 ∧ fraction.all Char.isDigit = true then some (whole, fraction)
      else none

def padEnd (width : Nat) (fill : Char) (cs : List Char) : List Char := cs ++ List.replicate (width - cs.length) fill

def parseStroops (amount : String) (allowZero : Bool) : Except String Nat :=
  match matchAmount amount.toList with
  | none => .error decimalPlacesError
  | some (whole, fraction) =>
    let stroops := Nat.ofDigitChars 10 whole 0 * STROOPS_PER_UNIT + Nat.ofDigitChars 10 (padEnd 7 '0' fraction) 0
    if (allowZero = false ∧ stroops = 0) ∨ MAX_STELLAR_STROOPS < stroops then .error rangeError
    else .ok stroops

def formatStroops (stroops : Nat) : Except String String :=
  if MAX_STELLAR_STROOPS < stroops then .error "Stroop amount is outside the Stellar int64 range"
  else
    let fractional := padStart 7 '0' (stroops % STROOPS_PER_UNIT).repr.toList
    .ok (String.ofList ((stroops / STROOPS_PER_UNIT).repr.toList ++ '.' :: fractional))

def canonicalizeStellarAmount (amount : String) (allowZero : Bool) : Except String String := do
  let stroops ← parseStroops amount allowZero
  formatStroops stroops

/-! ## What is written is read back -/

section
variable {fraction : List Char} {n : Nat}

theorem head_repr (hpos : 0 < n) : n.repr.toList.head? ≠ some '0' := by
  induction n using Nat.strong_induction_on with
  | _ n ih =>
    by_cases hten : n < 10
    · rw [repr_of_lt_ten hten]
      intro hzero
      have hdigit : n.digitChar = (0 : Nat).digitChar := Option.some.inj hzero
      exact hpos.ne' (digitChar_injective hten (by decide) hdigit)
    · have hfirst := ih (n / 10) (by omega) (by omega)
      obtain ⟨c, cs, hcs⟩ := List.exists_cons_of_ne_nil (repr_ne_nil (n := n / 10))
      rw [hcs] at hfirst
      rw [repr_of_ten_le (by omega), hcs]
      exact hfirst

theorem matchAmount_repr (hne : fraction ≠ []) (hlength : fraction.length ≤ 7)
    (hdigits : ∀ c ∈ fraction, c.isDigit = true) :
    matchAmount (n.repr.toList ++ '.' :: fraction) = some (n.repr.toList, fraction) := by
  have hwhole : ∀ c ∈ n.repr.toList, c.isDigit = true := fun c hc => isDigit_of_mem_repr hc
  have hhead : ¬ (n.repr.toList = [] ∨ (n.repr.toList.head? = some '0' ∧ n.repr.toList ≠ ['0'])) := by
    rintro (h | ⟨hzero, hmore⟩)
    · exact repr_ne_nil h
    · rcases Nat.eq_zero_or_pos n with rfl | hpos
      · exact hmore (repr_of_lt_ten (by decide))
      · exact head_repr hpos hzero
  unfold matchAmount
  rw [List.takeWhile_append_of_pos hwhole, List.dropWhile_append_of_pos hwhole, List.takeWhile_cons_of_neg (by decide),
    List.dropWhile_cons_of_neg (by decide), List.append_nil, if_neg hhead]
  exact if_pos ⟨rfl, hne, hlength, List.all_eq_true.mpr hdigits⟩

/-- The seven digits of a number of stroops below one unit. -/
theorem fractional_digits (hlt : n < STROOPS_PER_UNIT) : (padStart 7 '0' n.repr.toList).length = 7 ∧
    (∀ c ∈ padStart 7 '0' n.repr.toList, c.isDigit = true) ∧
    Nat.ofDigitChars 10 (padStart 7 '0' n.repr.toList) 0 = n := by
  have hlength : n.repr.toList.length ≤ 7 := by
    rw [Nat.toList_repr]
    exact (Nat.length_toDigits_le_iff (by decide) (by decide)).mpr hlt
  unfold padStart
  refine ⟨?_, fun c hc => ?_, ?_⟩
  · rw [List.length_append, List.length_replicate]
    omega
  · rcases List.mem_append.mp hc with hc | hc
    · rw [List.eq_of_mem_replicate hc]
      rfl
    · exact isDigit_of_mem_repr hc
  · rw [Nat.ofDigitChars_append, Nat.ofDigitChars_replicate_zero, Nat.mul_zero, Nat.toList_repr,
      Nat.ofDigitChars_ten_toDigits]

theorem parseStroops_formatStroops {allowZero : Bool} {text : String} (hzero : allowZero = true ∨ n ≠ 0)
    (h : formatStroops n = .ok text) : parseStroops text allowZero = .ok n := by
  unfold formatStroops at h
  split at h
  · cases h
  · next hfits =>
    cases h
    obtain ⟨hlength, hdigits, hvalue⟩ := fractional_digits (Nat.mod_lt n (by decide : 0 < STROOPS_PER_UNIT))
    have hne : padStart 7 '0' (n % STROOPS_PER_UNIT).repr.toList ≠ [] := by
      intro hnil
      rw [hnil] at hlength
      cases hlength
    have hwhole : Nat.ofDigitChars 10 (n / STROOPS_PER_UNIT).repr.toList 0 = n / STROOPS_PER_UNIT := by
      rw [Nat.toList_repr, Nat.ofDigitChars_ten_toDigits]
    have hpadded : padEnd 7 '0' (padStart 7 '0' (n % STROOPS_PER_UNIT).repr.toList) =
        padStart 7 '0' (n % STROOPS_PER_UNIT).repr.toList := by
      rw [padEnd, hlength, Nat.sub_self, List.replicate_zero, List.append_nil]
    have hsum : n / STROOPS_PER_UNIT * STROOPS_PER_UNIT + n % STROOPS_PER_UNIT = n := Nat.div_add_mod' n _
    have hrange : ¬ ((allowZero = false ∧ n = 0) ∨ MAX_STELLAR_STROOPS < n) := by
      rintro (⟨hfalse, h0⟩ | hlt)
      · rcases hzero with htrue | hne
        · rw [htrue] at hfalse
          cases hfalse
        · exact hne h0
      · exact hfits hlt
    unfold parseStroops
    rw [String.toList_ofList, matchAmount_repr hne hlength.le hdigits]
    simp only [hpadded, hwhole, hvalue, hsum]
    exact if_neg hrange

theorem parseStroops_range {allowZero : Bool} {amount : String} (h : parseStroops amount allowZero = .ok n) :
    (allowZero = true ∨ n ≠ 0) ∧ n ≤ MAX_STELLAR_STROOPS := by
  unfold parseStroops at h
  split at h
  · cases h
  · dsimp only at h
    split at h
    · cases h
    · next hrange =>
      cases h
      refine ⟨?_, Nat.le_of_not_lt fun hlt => hrange (.inr hlt)⟩
      cases allowZero with
      | true => exact .inl rfl
      | false => exact .inr fun h0 => hrange (.inl ⟨rfl, h0⟩)

/-- The canonical text is worth what the text was. -/
theorem canonical_amount {allowZero : Bool} {amount text : String}
    (h : canonicalizeStellarAmount amount allowZero = .ok text) :
    ∃ stroops, parseStroops amount allowZero = .ok stroops ∧ parseStroops text allowZero = .ok stroops := by
  unfold canonicalizeStellarAmount at h
  cases hparse : parseStroops amount allowZero with
  | error e =>
    rw [hparse] at h
    cases h
  | ok stroops =>
    rw [hparse] at h
    exact ⟨stroops, rfl, parseStroops_formatStroops (parseStroops_range hparse).1 h⟩

end

end ZkVote.StellarAmount

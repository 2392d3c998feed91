import Mathlib.Data.ZMod.Basic
import Mathlib.Algebra.Field.ZMod
import Mathlib.Tactic.Ring

/-!
# Inverses by Euclid's algorithm

The loop keeps each remainder as a multiple of the number to be inverted.
-/

namespace Lib

/-- The remainder of a division that rounds towards zero, made non-negative. -/
theorem tmod_add_tmod (a : Int) {m : Int} (hm : 0 < m) : (a.tmod m + m).tmod m = a % m := by
  have hpos : 0 ≤ a.tmod m + m := by
    have hlt := Int.lt_tmod_of_pos a hm
    omega
  rw [Int.tmod_eq_emod_of_nonneg hpos, Int.add_emod_right, Int.tmod_def, Int.sub_mul_emod_self_left]

/-- The last remainder before zero and its multiplier. Division rounds towards zero. -/
def euclid : Nat → Int → Int → Int → Int → Int × Int
  | 0, oldR, _, oldS, _ => (oldR, oldS)
  | fuel + 1, oldR, r, oldS, s =>
    if r = 0 then (oldR, oldS)
    else
      let q := oldR.tdiv r
      euclid fuel r (oldR - q * r) s (oldS - q * s)

variable {m : Nat} {a : ZMod m}

theorem euclid_spec (fuel : Nat) (oldR r oldS s : Int) (hold : 0 ≤ oldR) (hr : 0 ≤ r) (hfuel : r < fuel)
    (hoverOld : (oldR : ZMod m) = oldS * a) (hover : (r : ZMod m) = s * a) :
    (euclid fuel oldR r oldS s).1 = Int.gcd oldR r ∧
      ((euclid fuel oldR r oldS s).1 : ZMod m) = (euclid fuel oldR r oldS s).2 * a := by
  induction fuel generalizing oldR r oldS s with
  | zero => omega
  | succ fuel ih =>
    unfold euclid
    split
    · next hzero =>
      subst hzero
      refine ⟨?_, hoverOld⟩
      simp [abs_of_nonneg hold]
    · next hne =>
      have hrest : oldR - oldR.tdiv r * r = oldR % r := by
        rw [Int.tdiv_eq_ediv_of_nonneg hold, Int.emod_def, mul_comm]
      have hgcd : Int.gcd oldR r = Int.gcd r (oldR % r) := by
        rw [Int.gcd_comm r, Int.gcd_emod]
      simp only
      rw [hgcd, ← hrest]
      apply ih _ _ _ _ hr
      · rw [hrest]
        exact Int.emod_nonneg _ hne
      · rw [hrest]
        have hlt := Int.emod_lt_of_pos oldR (show 0 < r by omega)
        omega
      · exact hover
      · push_cast
        rw [hoverOld, hover]
        ring

/-- Below a prime, the algorithm ends at one with the inverse as the multiplier. -/
theorem euclid_prime {x : Int} (hm : m.Prime) (hx : ¬ (m : Int) ∣ x) {result : Int × Int}
    (hgcd : result.1 = Int.gcd x m) (hover : (result.1 : ZMod m) = result.2 * (x : ZMod m)) :
    result.1 = 1 ∧ (result.2 : ZMod m) * x = 1 := by
  have hcoprime : Int.gcd x m = 1 := by
    rw [Int.gcd_comm]
    rcases hm.eq_one_or_self_of_dvd _ (Nat.gcd_dvd_left m x.natAbs) with hone | hself
    · exact hone
    · exact absurd (Int.natCast_dvd.mpr (hself ▸ Nat.gcd_dvd_right m x.natAbs)) hx
  rw [hcoprime] at hgcd
  refine ⟨hgcd, ?_⟩
  rw [← hover, hgcd]
  simp

end Lib

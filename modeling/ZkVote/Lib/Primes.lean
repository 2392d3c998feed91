import Mathlib.Data.ZMod.Units
import Mathlib.FieldTheory.Finite.Basic
import Mathlib.NumberTheory.LucasPrimality
import Mathlib.Tactic.Ring

/-!
# Primes

Powers modulo a number, and primes known by Lucas's test: each line of a certificate factors its number
less one into small primes and the numbers of the lines before it.
-/

namespace Lib

/-- `acc * base ^ e` modulo `m`, bit by bit. -/
def mulPowMod (m : Nat) : Nat → Nat → Nat → Nat → Nat
  | 0, _, _, acc => acc
  | fuel + 1, base, e, acc =>
    if e = 0 then acc
    else mulPowMod m fuel (base * base % m) (e / 2) (if e % 2 = 1 then acc * base % m else acc)

def powMod (m base e : Nat) : Nat := mulPowMod m e base e (1 % m)

theorem mulPowMod_eq (m fuel base e acc : Nat) (h : e < 2 ^ fuel) :
    mulPowMod m fuel base e acc % m = acc * base ^ e % m := by
  induction fuel generalizing base e acc with
  | zero =>
    have he : e = 0 := by omega
    subst he
    simp [mulPowMod]
  | succ fuel ih =>
    unfold mulPowMod
    split
    · next he =>
      subst he
      simp
    · rw [ih _ _ _ (by rw [pow_succ] at h; omega)]
      have hpow : base ^ e = (base * base) ^ (e / 2) * base ^ (e % 2) := by
        rw [← pow_two, ← pow_mul, ← pow_add, Nat.div_add_mod]
      rcases Nat.mod_two_eq_zero_or_one e with heven | hodd
      · rw [hpow, heven, if_neg (by omega), pow_zero, mul_one, Nat.mul_mod, ← Nat.pow_mod, ← Nat.mul_mod]
      · rw [hpow, hodd, if_pos rfl, pow_one, Nat.mul_mod, ← Nat.pow_mod, ← Nat.mul_mod, Nat.mul_mod, Nat.mod_mod,
          ← Nat.mul_mod, mul_assoc, mul_comm base]

theorem mulPowMod_lt (m fuel base e acc : Nat) (hm : 0 < m) (h : acc < m) : mulPowMod m fuel base e acc < m := by
  induction fuel generalizing base e acc with
  | zero => exact h
  | succ fuel ih =>
    unfold mulPowMod
    split
    · exact h
    · apply ih
      split
      · exact Nat.mod_lt _ hm
      · exact h

theorem powMod_eq (m base e : Nat) (hm : 0 < m) : powMod m base e = base ^ e % m := by
  have hlt : powMod m base e < m := mulPowMod_lt m e base e _ hm (Nat.mod_lt _ hm)
  have heq := mulPowMod_eq m e base e (1 % m) Nat.lt_two_pow_self
  rw [← Nat.mod_eq_of_lt hlt]
  unfold powMod
  rw [heq, Nat.mod_mul_mod, one_mul]

theorem powMod_eq_iff (m base e c : Nat) (hm : 1 < m) :
    powMod m base e = c % m ↔ (base : ZMod m) ^ e = (c : ZMod m) := by
  rw [powMod_eq m base e (by omega), ← Nat.cast_pow, ZMod.natCast_eq_natCast_iff']

/-! ## Certificates -/

/-- A number, a base of the order of its units, and the factors of the number less one. -/
structure PrimeLine where
  number : Nat
  base : Nat
  factors : List Nat

/-- No number below divides it. -/
def hasNoDivisor (n : Nat) : Bool := decide (2 ≤ n) && (List.range n).all fun d => decide (d < 2) || n % d != 0

def PrimeLine.holds (known : List Nat) (l : PrimeLine) : Bool :=
  decide (1 < l.number) && l.factors.prod == l.number - 1 &&
    powMod l.number l.base (l.number - 1) == 1 &&
    l.factors.all fun q =>
      (decide (q < 1000) && hasNoDivisor q || decide (q ∈ known)) &&
        powMod l.number l.base ((l.number - 1) / q) != 1

def linesHold (known : List Nat) : List PrimeLine → Bool
  | [] => true
  | l :: lines => l.holds known && linesHold (l.number :: known) lines

theorem prime_of_hasNoDivisor {n : Nat} (h : hasNoDivisor n = true) : n.Prime := by
  simp only [hasNoDivisor, Bool.and_eq_true, decide_eq_true_eq, List.all_eq_true, List.mem_range, Bool.or_eq_true,
    bne_iff_ne] at h
  obtain ⟨htwo, hdivisors⟩ := h
  rw [Nat.prime_def_lt]
  refine ⟨htwo, fun d hlt hdvd => ?_⟩
  have hpos : 0 < d := Nat.pos_of_dvd_of_pos hdvd (by omega)
  rcases hdivisors d hlt with hsmall | hrest
  · omega
  · exact absurd (Nat.mod_eq_zero_of_dvd hdvd) hrest

theorem PrimeLine.prime {known : List Nat} {l : PrimeLine} (hknown : ∀ q ∈ known, q.Prime)
    (h : l.holds known = true) : l.number.Prime := by
  simp only [holds, Bool.and_eq_true, decide_eq_true_eq, beq_iff_eq, List.all_eq_true, Bool.or_eq_true,
    bne_iff_ne, ne_eq] at h
  obtain ⟨⟨⟨hone, hprod⟩, hfermat⟩, hfactors⟩ := h
  have hunit : 1 % l.number = 1 := Nat.mod_eq_of_lt hone
  apply lucas_primality l.number (l.base : ZMod l.number)
  · rw [← Nat.cast_one (R := ZMod l.number), ← powMod_eq_iff _ _ _ _ hone, hunit]
    exact hfermat
  · intro q hq hdvd hpow
    rw [← hprod] at hdvd
    obtain ⟨f, hf, hqf⟩ := (Prime.dvd_prod_iff hq.prime).mp hdvd
    obtain ⟨hprime, hne⟩ := hfactors f hf
    have hfprime : f.Prime := hprime.elim (fun hsmall => prime_of_hasNoDivisor hsmall.2) (hknown f)
    have heq : q = f := (Nat.prime_dvd_prime_iff_eq hq hfprime).mp hqf
    rw [heq, ← Nat.cast_one (R := ZMod l.number), ← powMod_eq_iff _ _ _ _ hone, hunit] at hpow
    exact hne hpow

theorem prime_of_linesHold {known : List Nat} {lines : List PrimeLine} (hknown : ∀ q ∈ known, q.Prime)
    (h : linesHold known lines = true) : ∀ l ∈ lines, l.number.Prime := by
  induction lines generalizing known with
  | nil => simp
  | cons l lines ih =>
    simp only [linesHold, Bool.and_eq_true] at h
    have hprime := PrimeLine.prime hknown h.1
    rw [List.forall_mem_cons]
    refine ⟨hprime, ih ?_ h.2⟩
    rw [List.forall_mem_cons]
    exact ⟨hprime, hknown⟩

theorem prime_of_certificate {lines : List PrimeLine} {p : Nat} (h : linesHold [] lines = true)
    (hp : p ∈ lines.map PrimeLine.number) : p.Prime := by
  obtain ⟨l, hl, rfl⟩ := List.mem_map.mp hp
  exact prime_of_linesHold (by simp) h l hl

end Lib

/-!
## Powers modulo a product of two primes

Exponents that are one modulo the orders of both unit groups change no residue, units or not.
-/

namespace Lib.Rsa

variable {p q k e d : Nat}

theorem pow_eq_self_of_prime [Fact p.Prime] (hpos : 0 < k) (hk : k ≡ 1 [MOD p - 1]) (x : ZMod p) : x ^ k = x := by
  by_cases hx : x = 0
  · rw [hx, zero_pow hpos.ne']
  · obtain ⟨c, hc⟩ := (Nat.modEq_iff_dvd' hpos).mp hk.symm
    rw [show k = (p - 1) * c + 1 by omega, pow_succ, pow_mul, ZMod.pow_card_sub_one_eq_one hx, one_pow, one_mul]

/-- The two orders are not both one, so that the exponent is not zero. -/
theorem exponent_pos (hp : p.Prime) (hq : q.Prime) (hne : p ≠ q) (hk : k ≡ 1 [MOD (p - 1).lcm (q - 1)]) : 0 < k := by
  have hp2 := hp.two_le
  have hq2 := hq.two_le
  rcases Nat.eq_zero_or_pos k with rfl | hpos
  · have hdvd : (p - 1).lcm (q - 1) ∣ 1 := (Nat.modEq_zero_iff_dvd).mp hk.symm
    have hpone : p - 1 = 1 := Nat.dvd_one.mp ((Nat.dvd_lcm_left _ _).trans hdvd)
    have hqone : q - 1 = 1 := Nat.dvd_one.mp ((Nat.dvd_lcm_right _ _).trans hdvd)
    omega
  · exact hpos

theorem pow_eq_self (hp : p.Prime) (hq : q.Prime) (hne : p ≠ q) (hk : k ≡ 1 [MOD (p - 1).lcm (q - 1)])
    (x : ZMod (p * q)) : x ^ k = x := by
  have hpos := exponent_pos hp hq hne hk
  have hcoprime : p.Coprime q := (Nat.coprime_primes hp hq).mpr hne
  have : Fact p.Prime := ⟨hp⟩
  have : Fact q.Prime := ⟨hq⟩
  apply (ZMod.chineseRemainder hcoprime).injective
  rw [map_pow]
  ext
  · exact pow_eq_self_of_prime hpos (hk.of_dvd (Nat.dvd_lcm_left _ _)) _
  · exact pow_eq_self_of_prime hpos (hk.of_dvd (Nat.dvd_lcm_right _ _)) _

/-- Raising to `e` is undone by raising to `d`, so that every residue has exactly one root. -/
theorem existsUnique_root (hp : p.Prime) (hq : q.Prime) (hne : p ≠ q) (hed : e * d ≡ 1 [MOD (p - 1).lcm (q - 1)])
    (x : ZMod (p * q)) : ∃! r : ZMod (p * q), r ^ e = x := by
  refine ⟨x ^ d, ?_, ?_⟩
  · dsimp only
    rw [← pow_mul, mul_comm d e, pow_eq_self hp hq hne hed]
  · rintro r rfl
    rw [← pow_mul, pow_eq_self hp hq hne hed]

end Lib.Rsa

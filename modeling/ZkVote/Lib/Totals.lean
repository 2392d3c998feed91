import Mathlib.Algebra.BigOperators.Finprod
import Mathlib.Algebra.BigOperators.Intervals

/-!
# Totals

The total of a function that is zero almost everywhere, and what a change at one
point does to it.
-/

namespace Lib

variable {ι M : Type} [AddCommGroup M] {f : ι → M}

/-- The sum of all values. -/
noncomputable def total (f : ι → M) : M := finsum f

@[simp] theorem total_zero : total (fun _ : ι => (0 : M)) = 0 := finsum_zero

variable [DecidableEq ι]

theorem update_eq_add_single (f : ι → M) (i : ι) (x : M) :
    Function.update f i x = f + Pi.single i (x - f i) := by
  funext j
  by_cases hj : j = i
  · subst hj
    simp
  · simp [hj]

theorem finite_support_update (hf : f.support.Finite) (i : ι) (x : M) :
    (Function.update f i x).support.Finite := by
  refine (hf.insert i).subset fun j hj => ?_
  by_cases hji : j = i
  · exact .inl hji
  · rw [Function.mem_support, Function.update_of_ne hji] at hj
    exact .inr hj

theorem total_update (hf : f.support.Finite) (i : ι) (x : M) :
    total (Function.update f i x) = total f + (x - f i) := by
  have hsingle : (Pi.single i (x - f i) : ι → M).support.Finite :=
    (Set.finite_singleton i).subset Pi.support_single_subset
  have hsum : finsum (Pi.single i (x - f i) : ι → M) = x - f i := by
    rw [finsum_eq_single _ i fun j hj => Pi.single_eq_of_ne hj _, Pi.single_eq_same]
  calc total (Function.update f i x)
      = finsum fun j => f j + (Pi.single i (x - f i) : ι → M) j := by
        rw [total, update_eq_add_single]
        rfl
    _ = total f + finsum (Pi.single i (x - f i) : ι → M) := finsum_add_distrib hf hsingle
    _ = total f + (x - f i) := by rw [hsum]

/-- Among values that are not negative, each is part of the total. -/
theorem le_total [PartialOrder M] [IsOrderedAddMonoid M] (hf : f.support.Finite) (hnonneg : ∀ i, 0 ≤ f i) (i : ι) :
    f i ≤ total f := by
  have hrest : 0 ≤ total (Function.update f i 0) := by
    refine finsum_nonneg fun j => ?_
    rw [Function.update_apply]
    split
    · exact le_rfl
    · exact hnonneg j
  rwa [total_update hf, zero_sub, ← sub_eq_add_neg, sub_nonneg] at hrest

/-! ## Records with a count and a sum -/

section
variable {κ ρ : Type} {records : κ → Option ρ} {amount : ρ → Nat} {count sum bound : Nat}

/-- The count is the number of records, and the sum adds up their amounts. -/
def Accounted (records : κ → Option ρ) (amount : ρ → Nat) (count sum : Nat) : Prop :=
  ∃ keys : Finset κ, (∀ k, k ∈ keys ↔ (records k).isSome = true) ∧ count = keys.card ∧
    sum = keys.sum fun k => (records k).elim 0 amount

theorem accounted_none : Accounted (fun _ : κ => none) amount 0 0 :=
  ⟨∅, by simp, rfl, rfl⟩

theorem Accounted.insert [DecidableEq κ] (h : Accounted records amount count sum) {k : κ} (hk : records k = none)
    (r : ρ) : Accounted (Function.update records k (some r)) amount (count + 1) (sum + amount r) := by
  obtain ⟨keys, hkeys, rfl, rfl⟩ := h
  have hfresh : k ∉ keys := by simp [hkeys, hk]
  refine ⟨Insert.insert k keys, fun j => ?_, (Finset.card_insert_of_notMem hfresh).symm, ?_⟩
  · by_cases hj : j = k
    · simp [hj]
    · simp [hj, hkeys]
  · have hrest : ∀ j ∈ keys, (Function.update records k (some r) j).elim 0 amount = (records j).elim 0 amount := by
      intro j hj
      rw [Function.update_of_ne (by rintro rfl; exact hfresh hj)]
    rw [Finset.sum_insert hfresh, Finset.sum_congr rfl hrest, Function.update_self, Nat.add_comm]
    rfl

theorem Accounted.sum_le (h : Accounted records amount count sum)
    (hbound : ∀ k r, records k = some r → amount r ≤ bound) : sum ≤ bound * count := by
  obtain ⟨keys, hkeys, rfl, rfl⟩ := h
  rw [Nat.mul_comm, ← Nat.nsmul_eq_mul]
  refine Finset.sum_le_card_nsmul keys _ bound fun k hk => ?_
  obtain ⟨r, hr⟩ := Option.isSome_iff_exists.mp ((hkeys k).mp hk)
  rw [hr]
  exact hbound k r hr

end

end Lib

/-!
## Step functions

A quantity that is marked from time to time keeps its value until the next mark. Its sum over a window is that
of the marks in the window, each for as long as it lasts, after the value that the window begins with.
-/

namespace Lib

variable {R : Type}

/-- The marks of `n` times, from a time on. -/
def marksFrom (mark : Nat → Option R) : Nat → Nat → List (Nat × R)
  | _, 0 => []
  | t, n + 1 =>
    match mark t with
    | some r => (t, r) :: marksFrom mark (t + 1) n
    | none => marksFrom mark (t + 1) n

/-- Each value with the time it lasts. -/
def spans (stop : Nat) : List (Nat × R) → List (R × Nat)
  | [] => []
  | (t, r) :: marks => (r, (marks.head?.map Prod.fst).getD stop - t) :: spans stop marks

theorem marksFrom_eq_nil {mark : Nat → Option R} {t n : Nat} :
    marksFrom mark t n = [] ↔ ∀ u, t ≤ u → u < t + n → mark u = none := by
  induction n generalizing t with
  | zero =>
    refine iff_of_true rfl fun u hle hlt => ?_
    omega
  | succ n ih =>
    unfold marksFrom
    cases hmark : mark t with
    | some r =>
      refine iff_of_false (List.cons_ne_nil _ _) fun hall => ?_
      rw [hall t (Nat.le_refl t) (by omega)] at hmark
      cases hmark
    | none =>
      dsimp only
      rw [ih]
      constructor
      · intro hall u hle hlt
        rcases Nat.eq_or_lt_of_le hle with rfl | hgt
        · exact hmark
        · exact hall u hgt (by omega)
      · exact fun hall u hle hlt => hall u (by omega) (by omega)

variable [AddCommMonoid R]

/-- The value at a time is that of the last mark at or before it. -/
def valueAt (mark : Nat → Option R) : Nat → R
  | 0 => (mark 0).getD 0
  | t + 1 => (mark (t + 1)).getD (valueAt mark t)

/-- The value that the earlier marks leave. -/
def valueBefore (mark : Nat → Option R) : Nat → R
  | 0 => 0
  | t + 1 => valueAt mark t

theorem valueAt_eq (mark : Nat → Option R) (t : Nat) : valueAt mark t = (mark t).getD (valueBefore mark t) := by
  cases t <;> rfl

theorem sum_of_held {f : Nat → R} {start stop : Nat} {r : R} (hheld : ∀ u, start ≤ u → u < stop → f u = r) :
    (Finset.Ico start stop).sum f = (stop - start) • r := by
  have hconst : ∀ u ∈ Finset.Ico start stop, f u = r := by
    intro u hu
    rw [Finset.mem_Ico] at hu
    exact hheld u hu.1 hu.2
  rw [Finset.sum_congr rfl hconst, Finset.sum_const, Nat.card_Ico]

/-- The sum over a window that has been at one value up to `t`. -/
theorem sum_valueAt_of_held {mark : Nat → Option R} {start t n stop : Nat} {r : R} (hstart : start ≤ t)
    (hstop : t + n = stop + 1) (hbefore : valueBefore mark t = r) (hheld : ∀ u, start ≤ u → u < t → valueAt mark u = r) :
    (Finset.Ico start stop).sum (valueAt mark) =
      ((spans stop ((start, r) :: marksFrom mark t n)).map fun p => p.2 • p.1).sum := by
  induction n generalizing start t r with
  | zero =>
    rw [sum_of_held fun u hle hlt => hheld u hle (by omega)]
    simp [marksFrom, spans]
  | succ n ih =>
    have hvalue := valueAt_eq mark t
    rw [hbefore] at hvalue
    unfold marksFrom
    cases hmark : mark t with
    | none =>
      rw [hmark] at hvalue
      refine ih (by omega) (by omega) hvalue fun u hle hlt => ?_
      rcases Nat.lt_succ_iff_lt_or_eq.mp hlt with hlt | rfl
      · exact hheld u hle hlt
      · exact hvalue
    | some r' =>
      rw [hmark] at hvalue
      -- The window is cut at the mark.
      have hrest := ih (Nat.le_succ t) (by omega) hvalue fun u hle hlt => by
        obtain rfl : u = t := by omega
        exact hvalue
      rw [← Finset.sum_Ico_consecutive (valueAt mark) hstart (by omega : t ≤ stop), sum_of_held hheld,
        hrest]
      rfl

theorem sum_valueAt {mark : Nat → Option R} {start stop : Nat} (h : start ≤ stop + 1) :
    (Finset.Ico start stop).sum (valueAt mark) =
      ((spans stop ((start, valueBefore mark start) :: marksFrom mark start (stop + 1 - start))).map
        fun p => p.2 • p.1).sum := by
  refine sum_valueAt_of_held (Nat.le_refl _) (by omega) rfl fun u hle hlt => ?_
  omega

end Lib

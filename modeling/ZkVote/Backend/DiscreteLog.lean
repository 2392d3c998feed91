import ZkVote.Backend.Decryption
import ZkVote.Lib.BigInt
import ZkVote.Lib.Reading

/-!
# Discrete logarithms of points

`discreteLog` of `backend/src/services/elgamal.ts` on coordinates, as it is written: the table is keyed by
texts, and `circomlibjs` does the arithmetic.
-/

open Lib

namespace ZkVote.ElGamal

def BN254_FR_MODULUS : Nat :=
  21888242871839275222246405745257275088548364400416034343698204186575808495617

structure Point where
  x : Int
  y : Int

def BASE8 : Point where
  x := 5299619240641551281634865583518297030282874472190772894086521144482721001553
  y := 16950150798460657717958625567821834550301663161624707787222815936182638968203

/-- What `buildBabyjub` gives. -/
structure BabyJub (E : Type) where
  /-- `F.e` -/
  e : Int → E
  /-- `BigInt(F.toString(v))` -/
  toBigInt : E → Int
  addPoint : E × E → E × E → E × E
  mulPointEscalar : E × E → Nat → E × E

variable {E : Type} (B : BabyJub E)

def BabyJub.point (p : Point) : E × E := (B.e p.x, B.e p.y)

/-- `x:y` in base 16. -/
def BabyJub.key (p : E × E) : List Char := toString16 (B.toBigInt p.1) ++ ':' :: toString16 (B.toBigInt p.2)

/-- The loop that fills the table: `n` rounds are left. What was set last comes first. -/
def BabyJub.fillTable : Nat → Nat → E × E → List (List Char × Nat) → List (List Char × Nat)
  | 0, _, _, table => table
  | n + 1, j, cur, table => BabyJub.fillTable n (j + 1) (B.addPoint cur (B.point BASE8)) ((B.key cur, j) :: table)

/-- The loop over the giant steps. -/
def BabyJub.searchTable (m : Nat) (step : E × E) (table : List (List Char × Nat)) : Nat → Nat → E × E → Option Nat
  | 0, _, _ => none
  | n + 1, i, gamma =>
    match table.lookup (B.key gamma) with
    | some j => some (i * m + j)
    | none => BabyJub.searchTable m step table n (i + 1) (B.addPoint gamma step)

def BabyJub.discreteLog (point : Point) (max : Nat) : Except String Nat :=
  let m := ceilSqrt max
  let table := B.fillTable m 0 (B.e 0, B.e 1) []
  let step := B.mulPointEscalar (B.e (BN254_FR_MODULUS - BASE8.x), B.e BASE8.y) m
  match B.searchTable m step table (m + 1) 0 (B.point point) with
  | some n => .ok n
  | none => .error "discreteLog: value outside the supported tally range"

/-! ## Points of a group -/

/-- The library computes with the coordinates of a group, in which `G` is `BASE8`. -/
structure BabyJub.Computes {P : Type} [AddCommGroup P] (coords : P → E × E) (G : P) : Prop where
  injective : Function.Injective coords
  toBigInt_injective : Function.Injective B.toBigInt
  addPoint : ∀ p q, B.addPoint (coords p) (coords q) = coords (p + q)
  mulPointEscalar : ∀ p n, B.mulPointEscalar (coords p) n = coords (n • p)
  zero : coords 0 = (B.e 0, B.e 1)
  base : coords G = B.point BASE8
  neg_base : coords (-G) = (B.e (BN254_FR_MODULUS - BASE8.x), B.e BASE8.y)

section
variable {B : BabyJub E} {P : Type} [AddCommGroup P] {coords : P → E × E} {G : P} (h : B.Computes coords G)
include h

theorem BabyJub.Computes.key_injective {p q : P} (heq : B.key (coords p) = B.key (coords q)) : p = q := by
  unfold BabyJub.key at heq
  obtain ⟨hx, hy⟩ := append_cons_inj_left (colon_notMem_toString16 _) (colon_notMem_toString16 _) heq
  apply h.injective
  apply Prod.ext
  · exact h.toBigInt_injective (toString16_injective hx)
  · exact h.toBigInt_injective (toString16_injective hy)

theorem BabyJub.Computes.fillTable_eq (n j : Nat) (cur : P) (table : List (P × Nat)) :
    B.fillTable n j (coords cur) (table.map fun e => (B.key (coords e.1), e.2)) =
      (babySteps G n j cur table).map fun e => (B.key (coords e.1), e.2) := by
  induction n generalizing j cur table with
  | zero => rfl
  | succ n ih =>
    unfold BabyJub.fillTable babySteps
    rw [← h.base, h.addPoint]
    exact ih (j + 1) (cur + G) ((cur, j) :: table)

variable [DecidableEq P]

theorem BabyJub.Computes.lookup_eq (table : List (P × Nat)) (p : P) :
    (table.map fun e => (B.key (coords e.1), e.2)).lookup (B.key (coords p)) = table.lookup p := by
  induction table with
  | nil => rfl
  | cons e table ih =>
    obtain ⟨q, j⟩ := e
    have hkey : (B.key (coords p) == B.key (coords q)) = (p == q) := by
      rw [Bool.eq_iff_iff, beq_iff_eq, beq_iff_eq]
      exact ⟨fun heq => h.key_injective heq, fun heq => heq ▸ rfl⟩
    rw [List.map_cons, List.lookup_cons, List.lookup_cons, ih, hkey]

theorem BabyJub.Computes.searchTable_eq (m : Nat) (step : P) (table : List (P × Nat)) (n i : Nat) (gamma : P) :
    B.searchTable m (coords step) (table.map fun e => (B.key (coords e.1), e.2)) n i (coords gamma) =
      giantSteps m step table n i gamma := by
  induction n generalizing i gamma with
  | zero => rfl
  | succ n ih =>
    unfold BabyJub.searchTable giantSteps
    rw [h.lookup_eq]
    cases List.lookup gamma table with
    | none => simp only [h.addPoint, ih]
    | some j => rfl

/-- On the coordinates of a point the search is that on the point. -/
theorem BabyJub.Computes.discreteLog_eq {point : Point} {p : P} (hpoint : B.point point = coords p) (max : Nat) :
    B.discreteLog point max = ElGamal.discreteLog G p max := by
  have htable := h.fillTable_eq (ceilSqrt max) 0 0 []
  rw [List.map_nil] at htable
  unfold BabyJub.discreteLog ElGamal.discreteLog
  simp only [← h.zero, ← h.neg_base, h.mulPointEscalar, hpoint, htable]
  have hsearch := h.searchTable_eq (ceilSqrt max) (ceilSqrt max • -G) (babySteps G (ceilSqrt max) 0 0 [])
    (ceilSqrt max + 1) 0 p
  cases hfound : giantSteps (ceilSqrt max) (ceilSqrt max • -G) (babySteps G (ceilSqrt max) 0 0 [])
      (ceilSqrt max + 1) 0 p with
  | none => rw [hsearch, hfound]
  | some n => rw [hsearch, hfound]

end

/-- Every number up to the bound is found, and what is found is a logarithm of the point. `P` are the points of the
curve, and `G` has an order beyond the last number that is searched. -/
theorem discrete_log_exact {E P : Type} [AddCommGroup P] (B : BabyJub E) (coords : P → E × E) (G : P)
    (hcomputes : B.Computes coords G) (max : Nat) (hmax : 1 ≤ max)
    (horder : ceilSqrt max * ceilSqrt max + ceilSqrt max ≤ addOrderOf G) :
    (∀ v ≤ max, ∀ point, B.point point = coords (v • G) → B.discreteLog point max = .ok v) ∧
      ∀ point w, (∃ p, B.point point = coords p) → B.discreteLog point max = .ok w →
        B.point point = coords (w • G) := by
  classical
  refine ⟨fun v hv point hpoint => ?_, fun point w hcurve hfound => ?_⟩
  · rw [hcomputes.discreteLog_eq hpoint]
    obtain ⟨n, hn⟩ := discreteLog_complete (G := G) hmax hv
    have hle : n ≤ v := discreteLog_least hn (by omega) rfl
    have hsame : v • G = n • G := discreteLog_ok hn
    have hbound := le_ceilSqrt max
    have hpos : 0 < ceilSqrt max := by
      by_contra hzero
      simp only [Nat.not_lt, Nat.le_zero] at hzero
      rw [hzero] at hbound
      omega
    have heq : v = n := nsmul_injOn_Iio_addOrderOf (Set.mem_Iio.mpr (by omega)) (Set.mem_Iio.mpr (by omega)) hsame
    rw [hn, ← heq]
  · obtain ⟨p, hp⟩ := hcurve
    rw [hcomputes.discreteLog_eq hp] at hfound
    rw [hp, discreteLog_ok hfound]

/-! ### A point and its negative -/

def smallCoords (n : ZMod 3) : Int × Int :=
  if n = 0 then (0, 1) else if n = 1 then (BASE8.x, BASE8.y) else (BN254_FR_MODULUS - BASE8.x, BASE8.y)

def ofSmallCoords (p : Int × Int) : ZMod 3 := if p = smallCoords 1 then 1 else if p = smallCoords (-1) then -1 else 0

/-- The curve as far as the logarithm of `BASE8` needs it. -/
def smallCurve : BabyJub Int where
  e := id
  toBigInt := id
  addPoint p q := smallCoords (ofSmallCoords p + ofSmallCoords q)
  mulPointEscalar p n := smallCoords (n • ofSmallCoords p)

theorem ofSmallCoords_smallCoords (n : ZMod 3) : ofSmallCoords (smallCoords n) = n := by
  revert n
  decide

theorem smallCurve_computes : smallCurve.Computes smallCoords 1 where
  injective := Function.LeftInverse.injective ofSmallCoords_smallCoords
  toBigInt_injective := Function.injective_id
  addPoint p q := by
    change smallCoords (ofSmallCoords (smallCoords p) + ofSmallCoords (smallCoords q)) = _
    rw [ofSmallCoords_smallCoords, ofSmallCoords_smallCoords]
  mulPointEscalar p n := by
    change smallCoords (n • ofSmallCoords (smallCoords p)) = _
    rw [ofSmallCoords_smallCoords]
  zero := rfl
  base := rfl
  neg_base := rfl

theorem discrete_log_exact_for_one_vote : smallCurve.discreteLog BASE8 1 = .ok 1 := by
  have horder : ceilSqrt 1 * ceilSqrt 1 + ceilSqrt 1 ≤ addOrderOf (1 : ZMod 3) := by
    rw [ZMod.addOrderOf_one]
    decide
  exact (discrete_log_exact smallCurve smallCoords 1 smallCurve_computes 1 le_rfl horder).1 1 le_rfl BASE8
    (by rw [one_nsmul, smallCurve_computes.base])

end ZkVote.ElGamal

import Mathlib.Algebra.Algebra.Bilinear
import ZkVote.Prover.Groth16
import ZkVote.Prover.Parsing

/-!
# Every proof verifies

The key that `snarkjs` makes for a quadratic arithmetic program, with the points of its sections as multiples
of two generators and the coefficients of section 4 in a double Montgomery form. A proof of a satisfying
assignment under such a key is accepted, whatever its randomness.
-/

open Lib Lib.Fourier

namespace ZkVote.Prover

/-! ## Stored coefficients -/

/-- Four bytes, the lowest first. -/
def u32Le (n : Nat) : Bytes := (toBeBytes 4 n).reverse

/-- One coefficient of section 4, with its value as `v * 2 ^ 512`. -/
def storedCoef (e : Coef) : Bytes :=
  u32Le e.matrix ++ (u32Le e.constraint ++ (u32Le e.signal ++ storedFr (e.value * 2 ^ 512)))

/-- Section 4 of these coefficients. -/
def storedCoefs (coefs : List Coef) : Bytes := u32Le coefs.length ++ coefs.flatMap storedCoef

/-- What `parse_coefs` makes of a stored coefficient. -/
def scaled (e : Coef) : Coef := { e with value := e.value * 2 ^ 8 }

@[simp] theorem length_u32Le (n : Nat) : (u32Le n).length = 4 := by simp [u32Le]

@[simp] theorem length_storedFr (x : Fr) : (storedFr x).length = 32 := by simp [storedFr]

@[simp] theorem length_storedCoef (e : Coef) : (storedCoef e).length = 44 := by simp [storedCoef]

theorem fromLe_u32Le {n : Nat} (hn : n < 2 ^ 32) : fromLe (u32Le n) = n := by
  unfold fromLe u32Le
  rw [List.reverse_reverse, fromBeBytes_toBeBytes, Nat.mod_eq_of_lt (by norm_num; omega)]

theorem length_flatMap_storedCoef (coefs : List Coef) : (coefs.flatMap storedCoef).length = coefs.length * 44 := by
  induction coefs with
  | nil => rfl
  | cons e coefs ih => rw [List.flatMap_cons, List.length_append, ih, length_storedCoef, List.length_cons]; omega

theorem decode_scaled (x : Fr) : decode_fr_zk_coef (storedFr (x * 2 ^ 512)) = some (x * 2 ^ 8) := by
  have hpow : (2 : Fr) ^ 504 ≠ 0 := pow_ne_zero 504 two_ne_zero_fr
  have hsplit : (2 : Fr) ^ 512 = 2 ^ 8 * 2 ^ 504 := by rw [← pow_add]
  rw [decode_stored, hsplit, ← mul_assoc, mul_inv_cancel_right₀ hpow]

theorem read_u32_append {b pre post : Bytes} {off n : Nat} (hn : n < 2 ^ 32) (hb : b = pre ++ (u32Le n ++ post))
    (hoff : pre.length = off) : read_u32 b off = some n := by
  unfold read_u32
  rw [slice_append _ _ hb hoff (by rw [length_u32Le]), Option.map_some, fromLe_u32Le hn]

theorem parse_coef_stored {coefs : List Coef} {i : Nat} {e : Coef} (hi : coefs[i]? = some e) (hmatrix : e.matrix < 2 ^ 8)
    (hconstraint : e.constraint < 2 ^ 32) (hsignal : e.signal < 2 ^ 32) :
    parse_coef (storedCoefs coefs) 32 i = some (scaled e) := by
  obtain ⟨hlt, rfl⟩ := List.getElem?_eq_some_iff.mp hi
  have hsplit : storedCoefs coefs = (u32Le coefs.length ++ (coefs.take i).flatMap storedCoef) ++
      (storedCoef coefs[i] ++ (coefs.drop (i + 1)).flatMap storedCoef) := by
    have hflat : coefs.flatMap storedCoef = (coefs.take i).flatMap storedCoef ++
        (storedCoef coefs[i] ++ (coefs.drop (i + 1)).flatMap storedCoef) := by
      rw [← List.flatMap_cons, ← List.flatMap_append, ← List.drop_eq_getElem_cons hlt, List.take_append_drop]
    rw [storedCoefs, hflat, List.append_assoc]
  have hpre : (u32Le coefs.length ++ (coefs.take i).flatMap storedCoef).length = 4 + i * 44 := by
    rw [List.length_append, length_u32Le, length_flatMap_storedCoef, List.length_take, Nat.min_eq_left hlt.le]
  generalize u32Le coefs.length ++ (coefs.take i).flatMap storedCoef = pre at hsplit hpre
  generalize (coefs.drop (i + 1)).flatMap storedCoef = post at hsplit
  generalize coefs[i] = e at hsplit hmatrix hconstraint hsignal ⊢
  have hbm : storedCoefs coefs = pre ++ (u32Le e.matrix ++
      (u32Le e.constraint ++ (u32Le e.signal ++ (storedFr (e.value * 2 ^ 512) ++ post)))) := by
    rw [hsplit, storedCoef]
    simp only [List.append_assoc]
  have hbc : storedCoefs coefs = (pre ++ u32Le e.matrix) ++
      (u32Le e.constraint ++ (u32Le e.signal ++ (storedFr (e.value * 2 ^ 512) ++ post))) := by
    rw [hbm, List.append_assoc]
  have hbs : storedCoefs coefs = ((pre ++ u32Le e.matrix) ++ u32Le e.constraint) ++
      (u32Le e.signal ++ (storedFr (e.value * 2 ^ 512) ++ post)) := by
    rw [hbc, List.append_assoc (pre ++ _)]
  have hbv : storedCoefs coefs = (((pre ++ u32Le e.matrix) ++ u32Le e.constraint) ++ u32Le e.signal) ++
      (storedFr (e.value * 2 ^ 512) ++ post) := by
    rw [hbs, List.append_assoc (pre ++ _ ++ _)]
  have hm : read_u32 (storedCoefs coefs) (4 + i * 44) = some e.matrix := read_u32_append (by omega) hbm hpre
  have hc : read_u32 (storedCoefs coefs) (4 + i * 44 + 4) = some e.constraint :=
    read_u32_append hconstraint hbc (by rw [List.length_append, hpre, length_u32Le])
  have hs : read_u32 (storedCoefs coefs) (4 + i * 44 + 8) = some e.signal :=
    read_u32_append hsignal hbs (by simp only [List.length_append, hpre, length_u32Le])
  have hraw : slice (storedCoefs coefs) (4 + i * 44 + 12) (4 + i * 44 + 12 + 32) =
      some (storedFr (e.value * 2 ^ 512)) :=
    slice_append _ _ hbv (by simp only [List.length_append, hpre, length_u32Le]) (by rw [length_storedFr])
  unfold parse_coef scaled
  simp only [Nat.reduceAdd, hm, hc, hs, hraw, decode_scaled, Option.bind_eq_bind, Option.bind_some, Option.pure_def,
    Nat.mod_eq_of_lt hmatrix]

/-- The values come back with a factor of `2 ^ 8`, whatever length the header gives them. -/
theorem parse_coefs_stored {coefs out : List Coef} {n8r : Nat} (hcount : coefs.length < 2 ^ 32)
    (hfits : ∀ e ∈ coefs, e.matrix < 2 ^ 8 ∧ e.constraint < 2 ^ 32 ∧ e.signal < 2 ^ 32)
    (h : parse_coefs (storedCoefs coefs) n8r = some out) : out = coefs.map scaled := by
  have hu32 : u32At (storedCoefs coefs) 0 = coefs.length := by
    have hread : read_u32 (storedCoefs coefs) 0 = some coefs.length :=
      read_u32_append hcount (List.nil_append _).symm rfl
    exact (read_u32_eq_some.mp hread).2
  obtain ⟨-, hin⟩ := isSome_parse_coefs.mp (Option.isSome_of_eq_some h)
  simp only [parse_coefs, Option.bind_eq_bind, Option.bind_eq_some_iff, read_u32_eq_some] at h
  obtain ⟨n, ⟨-, rfl⟩, h⟩ := h
  have hmap := mapM_eq_some_iff.mp h
  rw [hu32] at hin hmap
  have hstored : (List.range coefs.length).map (parse_coef (storedCoefs coefs) n8r) = (coefs.map scaled).map some := by
    apply List.ext_getElem
    · simp
    · intro i hi _
      have hi' : i < coefs.length := by simpa using hi
      obtain ⟨rfl, -⟩ := hin (by omega)
      obtain ⟨hm, hc, hs⟩ := hfits coefs[i] (List.getElem_mem hi')
      simp only [List.getElem_map, List.getElem_range]
      exact parse_coef_stored (List.getElem?_eq_getElem hi') hm hc hs
  rw [hstored] at hmap
  exact (List.map_injective_iff.mpr (Option.some_injective Coef) hmap).symm

/-! ## The values on the domain -/

/-- What the coefficients of one matrix add to row `j`. -/
def rowSum (coefs : List Coef) (witness : List Fr) (m j : Nat) : Fr :=
  (coefs.map fun e => if e.matrix = m ∧ e.constraint = j then e.value * elem witness e.signal else 0).sum

theorem rowSum_cons (e : Coef) (coefs : List Coef) (witness : List Fr) (m j : Nat) :
    rowSum (e :: coefs) witness m j =
      (if e.matrix = m ∧ e.constraint = j then e.value * elem witness e.signal else 0) + rowSum coefs witness m j := by
  simp [rowSum]

theorem addAt_spec {a : List Fr} {i : Nat} (term : Fr) (hi : i < a.length) :
    ∃ out, addAt a i term = some out ∧ out.length = a.length ∧
      ∀ j, elem out j = elem a j + if i = j then term else 0 := by
  refine ⟨_, if_pos hi, List.length_set, ?_⟩
  intro j
  rw [elem_set hi]
  split
  · next heq => rw [heq]
  · rw [add_zero]

theorem accumulate_spec {witness : List Fr} {ab : List Fr × List Fr} {e : Coef} (hsignal : e.signal < witness.length)
    (ha : e.constraint < ab.1.length) (hb : e.constraint < ab.2.length) :
    ∃ out, accumulate witness ab e = some out ∧ out.1.length = ab.1.length ∧ out.2.length = ab.2.length ∧
      (∀ j, elem out.1 j = elem ab.1 j + rowSum [e] witness 0 j) ∧
      ∀ j, elem out.2 j = elem ab.2 j + rowSum [e] witness 1 j := by
  have hw : witness[e.signal]? = some (elem witness e.signal) := by
    unfold elem
    rw [List.getD_eq_getElem?_getD, List.getElem?_eq_getElem hsignal]
    rfl
  unfold accumulate
  simp only [hw, Option.bind_eq_bind, Option.bind_some, rowSum, List.map_cons, List.map_nil, List.sum_cons,
    List.sum_nil, add_zero]
  match hm : e.matrix with
  | 0 =>
    obtain ⟨out, hout, hlen, helem⟩ := addAt_spec (e.value * elem witness e.signal) ha
    refine ⟨(out, ab.2), ?_, hlen, rfl, ?_, ?_⟩
    · simp only [hout, Option.bind_some, Option.pure_def]
    · intro j
      simpa using helem j
    · intro j
      simp
  | 1 =>
    obtain ⟨out, hout, hlen, helem⟩ := addAt_spec (e.value * elem witness e.signal) hb
    refine ⟨(ab.1, out), ?_, rfl, hlen, ?_, ?_⟩
    · simp only [hout, Option.bind_some, Option.pure_def]
    · intro j
      simp
    · intro j
      simpa using helem j
  | m + 2 =>
    refine ⟨ab, rfl, rfl, rfl, ?_, ?_⟩ <;> intro j <;> simp

theorem accumulated (witness : List Fr) (coefs : List Coef) (ab : List Fr × List Fr)
    (hin : ∀ e ∈ coefs, e.signal < witness.length ∧ e.constraint < ab.1.length ∧ e.constraint < ab.2.length) :
    ∃ out, coefs.foldlM (accumulate witness) ab = some out ∧ out.1.length = ab.1.length ∧
      out.2.length = ab.2.length ∧ (∀ j, elem out.1 j = elem ab.1 j + rowSum coefs witness 0 j) ∧
      ∀ j, elem out.2 j = elem ab.2 j + rowSum coefs witness 1 j := by
  induction coefs generalizing ab with
  | nil => exact ⟨ab, rfl, rfl, rfl, fun j => by simp [rowSum], fun j => by simp [rowSum]⟩
  | cons e coefs ih =>
    obtain ⟨hsignal, ha, hb⟩ := hin e List.mem_cons_self
    obtain ⟨mid, hmid, hlenA, hlenB, helemA, helemB⟩ := accumulate_spec hsignal ha hb
    obtain ⟨out, hout, hlenA', hlenB', helemA', helemB'⟩ := ih mid fun e' he' => by
      rw [hlenA, hlenB]
      exact hin e' (List.mem_cons_of_mem _ he')
    refine ⟨out, ?_, hlenA'.trans hlenA, hlenB'.trans hlenB, ?_, ?_⟩
    · rw [List.foldlM_cons, hmid]
      exact hout
    · intro j
      rw [helemA', helemA, rowSum_cons, rowSum_cons, add_assoc]
      simp [rowSum]
    · intro j
      rw [helemB', helemB, rowSum_cons, rowSum_cons, add_assoc]
      simp [rowSum]

theorem rowSum_scaled (coefs : List Coef) (witness : List Fr) (m j : Nat) :
    rowSum (coefs.map scaled) witness m j = 2 ^ 8 * rowSum coefs witness m j := by
  induction coefs with
  | nil => simp [rowSum]
  | cons e coefs ih =>
    rw [List.map_cons, rowSum_cons, rowSum_cons, ih, mul_add]
    congr 1
    by_cases h : e.matrix = m ∧ e.constraint = j
    · rw [if_pos h, if_pos (show (scaled e).matrix = m ∧ (scaled e).constraint = j from h)]
      simp only [scaled]
      ring
    · rw [if_neg h, if_neg (show ¬ ((scaled e).matrix = m ∧ (scaled e).constraint = j) from h), mul_zero]

/-! ## The program and its key -/

/-- A quadratic arithmetic program over `2 ^ k` rows. A row of a matrix has an entry for each signal. -/
structure Qap where
  k : Nat
  n_vars : Nat
  n_public : Nat
  A : Nat → Nat → Fr
  B : Nat → Nat → Fr
  C : Nat → Nat → Fr
  /-- The odd coset is made of roots of order `2 ^ (k + 1)`, and the field has them up to `2 ^ 28`. -/
  size_le : k ≤ 27
  public_lt : n_public < n_vars
  vars_lt : n_vars < 2 ^ 32

namespace Qap

variable (q : Qap)

def rowValue (M : Nat → Nat → Fr) (witness : List Fr) (j : Nat) : Fr :=
  ∑ i ∈ Finset.range q.n_vars, M j i * elem witness i

/-- Signal 0 is one, and every row holds. -/
structure Satisfied (witness : List Fr) : Prop where
  length : witness.length = q.n_vars
  one : elem witness 0 = 1
  rows : ∀ j < 2 ^ q.k, q.rowValue q.A witness j * q.rowValue q.B witness j = q.rowValue q.C witness j

/-- The polynomial of signal `i`, at `x`. -/
noncomputable def column (M : Nat → Nat → Fr) (x : Fr) (i : Nat) : Fr :=
  (interpolant (fun j => M j i) (2 ^ q.k) (rootOfUnity q.k)).eval x

/-- The sum of the columns, each as often as its signal says. -/
noncomputable def combined (M : Nat → Nat → Fr) (x : Fr) (witness : List Fr) : Fr :=
  ∑ i ∈ Finset.range q.n_vars, elem witness i * q.column M x i

/-- The basis polynomial of the `i`-th point of the odd coset, at `x`. -/
noncomputable def oddBasis (x : Fr) (i : Nat) : Fr :=
  (Lagrange.basis (Finset.range (2 * 2 ^ q.k)) (fun i => rootOfUnity (q.k + 1) ^ i) (2 * i + 1)).eval x

end Qap

/-- The entry that these coefficients give a matrix. -/
def entry (coefs : List Coef) (m j i : Nat) : Fr :=
  (coefs.map fun e => if e.matrix = m ∧ e.constraint = j ∧ e.signal = i then e.value else 0).sum

/-- The coefficients are those of the matrices `A` and `B`. -/
structure Qap.Holds (q : Qap) (coefs : List Coef) : Prop where
  count : coefs.length < 2 ^ 32
  within : ∀ e ∈ coefs, e.matrix < 2 ^ 8 ∧ e.constraint < 2 ^ q.k ∧ e.signal < q.n_vars
  a : ∀ j < 2 ^ q.k, ∀ i < q.n_vars, q.A j i = entry coefs 0 j i
  b : ∀ j < 2 ^ q.k, ∀ i < q.n_vars, q.B j i = entry coefs 1 j i

/-- What a key is made from and nobody is to know. -/
structure Trapdoor where
  tau : Fr
  alpha : Fr
  beta : Fr
  gamma : Fr
  delta : Fr
  gamma_ne : gamma ≠ 0
  delta_ne : delta ≠ 0

/-- What the points of one signal add up to. -/
noncomputable def Trapdoor.signalSum (t : Trapdoor) (q : Qap) (i : Nat) : Fr :=
  t.beta * q.column q.A t.tau i + t.alpha * q.column q.B t.tau i + q.column q.C t.tau i

section

variable {G1 G2 GT : Type} [AddCommGroup G1] [Module Fr G1] [AddCommGroup G2] [Module Fr G2] [AddCommGroup GT]
  [Module Fr GT]

/-- The points of `pk` are the key of `q`, as multiples of the generators. -/
structure IsKey (q : Qap) (t : Trapdoor) (g1 : G1) (g2 : G2) (pk : ProvingKey G1 G2) : Prop where
  n_vars : pk.n_vars = q.n_vars
  n_public : pk.n_public = q.n_public
  domain_size : pk.domain_size = 2 ^ q.k
  vk_alpha_1 : pk.vk_alpha_1 = t.alpha • g1
  vk_beta_1 : pk.vk_beta_1 = t.beta • g1
  vk_beta_2 : pk.vk_beta_2 = t.beta • g2
  vk_gamma_2 : pk.vk_gamma_2 = t.gamma • g2
  vk_delta_1 : pk.vk_delta_1 = t.delta • g1
  vk_delta_2 : pk.vk_delta_2 = t.delta • g2
  ic : pk.ic = (List.range (q.n_public + 1)).map fun i => (t.signalSum q i * t.gamma⁻¹) • g1
  a : pk.a = (List.range q.n_vars).map fun i => q.column q.A t.tau i • g1
  b1 : pk.b1 = (List.range q.n_vars).map fun i => q.column q.B t.tau i • g1
  b2 : pk.b2 = (List.range q.n_vars).map fun i => q.column q.B t.tau i • g2
  c : pk.c = (List.range (q.n_vars - q.n_public - 1)).map fun i =>
    (t.signalSum q (i + (q.n_public + 1)) * t.delta⁻¹) • g1
  h : pk.h = (List.range (2 ^ q.k)).map fun i => (q.oddBasis t.tau i * t.delta⁻¹) • g1

end

/-! ## The quotient -/

theorem rowSum_eq {q : Qap} {coefs : List Coef} {witness : List Fr} (hsignal : ∀ e ∈ coefs, e.signal < q.n_vars)
    (m j : Nat) :
    rowSum coefs witness m j = ∑ i ∈ Finset.range q.n_vars, entry coefs m j i * elem witness i := by
  induction coefs with
  | nil => simp [rowSum, entry]
  | cons e coefs ih =>
    have hentry : ∀ i, entry (e :: coefs) m j i =
        (if e.matrix = m ∧ e.constraint = j ∧ e.signal = i then e.value else 0) + entry coefs m j i := by
      intro i
      simp [entry]
    rw [rowSum_cons, ih fun e' he' => hsignal e' (List.mem_cons_of_mem _ he')]
    simp only [hentry, add_mul, Finset.sum_add_distrib]
    congr 1
    rw [Finset.sum_eq_single e.signal]
    · by_cases h : e.matrix = m ∧ e.constraint = j
      · rw [if_pos h, if_pos ⟨h.1, h.2, rfl⟩]
      · rw [if_neg h, if_neg fun h' => h ⟨h'.1, h'.2.1⟩, zero_mul]
    · intro i _ hne
      rw [if_neg fun h => hne h.2.2.symm, zero_mul]
    · intro hout
      exact absurd (Finset.mem_range.mpr (hsignal e List.mem_cons_self)) hout

/-- The polynomial with the values of the rows is the sum of the columns. -/
theorem eval_rows (q : Qap) (M : Nat → Nat → Fr) (witness : List Fr) (c x : Fr) {f : Nat → Fr}
    (hf : ∀ j < 2 ^ q.k, f j = c * q.rowValue M witness j) :
    (interpolant f (2 ^ q.k) (rootOfUnity q.k)).eval x = c * q.combined M x witness := by
  unfold Qap.combined Qap.column
  simp only [eval_interpolant, Finset.mul_sum]
  rw [Finset.sum_comm]
  apply Finset.sum_congr rfl
  intro j hj
  rw [hf j (Finset.mem_range.mp hj)]
  unfold Qap.rowValue
  rw [Finset.mul_sum, Finset.sum_mul]
  apply Finset.sum_congr rfl
  intro i _
  ring

theorem elem_join_abc {a b c : List Fr} {n i : Nat} (ha : a.length = n) (hb : b.length = n) (hc : c.length = n)
    (hi : i < n) : elem (join_abc a b c) i = elem a i * elem b i - elem c i := by
  unfold join_abc elem
  simp [List.getD_eq_getElem?_getD, ha, hb, hc, hi]

theorem length_join_abc {a b c : List Fr} {n : Nat} (ha : a.length = n) (hb : b.length = n) (hc : c.length = n) :
    (join_abc a b c).length = n := by
  simp [join_abc, ha, hb, hc]

theorem elem_products {a b : List Fr} {n i : Nat} (ha : a.length = n) (hb : b.length = n) (hi : i < n) :
    elem ((a.zip b).map fun x => x.1 * x.2) i = elem a i * elem b i := by
  unfold elem
  simp [List.getD_eq_getElem?_getD, ha, hb, hi]

/-- From the values of the rows to the quotient, as `prove` computes it. -/
theorem quotient_spec {q : Qap} {witness a b : List Fr} (hw : q.Satisfied witness) (x : Fr)
    (ha : a.length = 2 ^ q.k) (hb : b.length = 2 ^ q.k)
    (helemA : ∀ j < 2 ^ q.k, elem a j = 2 ^ 8 * q.rowValue q.A witness j)
    (helemB : ∀ j < 2 ^ q.k, elem b j = 2 ^ 8 * q.rowValue q.B witness j) :
    ∃ a' b' c', toCoset a (rootOfUnity q.k) (rootOfUnity (q.k + 1)) = some a' ∧
      toCoset b (rootOfUnity q.k) (rootOfUnity (q.k + 1)) = some b' ∧
      toCoset ((a.zip b).map fun x => x.1 * x.2) (rootOfUnity q.k) (rootOfUnity (q.k + 1)) = some c' ∧
      (join_abc a' b' c').length = 2 ^ q.k ∧
      ∑ i ∈ Finset.range (2 ^ q.k), elem ((join_abc a' b' c').map fun x => x * 65536⁻¹) i * q.oddBasis x i =
        q.combined q.A x witness * q.combined q.B x witness - q.combined q.C x witness := by
  have hk := q.size_le
  have hinc : IsPrimitiveRoot (rootOfUnity (q.k + 1)) (2 * 2 ^ q.k) := by
    rw [← pow_succ']
    exact rootOfUnity_primitive (by omega)
  have homega : rootOfUnity q.k = rootOfUnity (q.k + 1) ^ 2 :=
    (rootOfUnity_pow (show q.k + 1 ≤ 28 by omega)).symm
  have hc : ((a.zip b).map fun x => x.1 * x.2).length = 2 ^ q.k := by simp [ha, hb]
  have helemC : ∀ j < 2 ^ q.k,
      elem ((a.zip b).map fun x => x.1 * x.2) j = 2 ^ 16 * q.rowValue q.C witness j := by
    intro j hj
    rw [elem_products ha hb hj, helemA j hj, helemB j hj, ← hw.rows j hj]
    ring
  have hproduct := product_eq_odd_sum hinc homega (Nat.two_pow_pos q.k)
    (fun j hj => (elem_products ha hb hj).symm) x
  rw [eval_rows q q.A witness _ x helemA, eval_rows q q.B witness _ x helemB,
    eval_rows q q.C witness _ x helemC] at hproduct
  obtain ⟨ca, a', hca, ha', hlenA, hvalA⟩ := coset_spec ha hinc homega
  obtain ⟨cb, b', hcb, hb', hlenB, hvalB⟩ := coset_spec hb hinc homega
  obtain ⟨cc, c', hcc, hc', hlenC, hvalC⟩ := coset_spec hc hinc homega
  refine ⟨a', b', c', ?_, ?_, ?_, length_join_abc hlenA hlenB hlenC, ?_⟩
  · simp only [toCoset, hca, Option.bind_eq_bind, Option.bind_some, ha']
  · simp only [toCoset, hcb, Option.bind_eq_bind, Option.bind_some, hb']
  · simp only [toCoset, hcc, Option.bind_eq_bind, Option.bind_some, hc']
  · have hsixteen : (65536 : Fr) = 2 ^ 16 := by norm_num
    have hne : (2 : Fr) ^ 16 ≠ 0 := pow_ne_zero 16 two_ne_zero_fr
    have hterms : ∀ i ∈ Finset.range (2 ^ q.k),
        elem ((join_abc a' b' c').map fun x => x * 65536⁻¹) i * q.oddBasis x i =
          (2 ^ 16)⁻¹ * (((interpolant (elem a) (2 ^ q.k) (rootOfUnity q.k)).eval (rootOfUnity (q.k + 1) ^ (2 * i + 1)) *
              (interpolant (elem b) (2 ^ q.k) (rootOfUnity q.k)).eval (rootOfUnity (q.k + 1) ^ (2 * i + 1)) -
            (interpolant (elem ((a.zip b).map fun x => x.1 * x.2)) (2 ^ q.k) (rootOfUnity q.k)).eval
              (rootOfUnity (q.k + 1) ^ (2 * i + 1))) * q.oddBasis x i) := by
      intro i hi
      have hi' := Finset.mem_range.mp hi
      rw [elem_map_mul, elem_join_abc hlenA hlenB hlenC hi', hvalA i hi', hvalB i hi', hvalC i hi', hsixteen]
      ring
    rw [Finset.sum_congr rfl hterms, ← Finset.mul_sum]
    unfold Qap.oddBasis
    rw [← hproduct, inv_mul_eq_iff_eq_mul₀ hne]
    ring

/-! ## Proving and verifying -/

section

variable {G1 G2 GT : Type} [AddCommGroup G1] [Module Fr G1] [AddCommGroup G2] [Module Fr G2] [AddCommGroup GT]
  [Module Fr GT] {q : Qap} {t : Trapdoor} {g1 : G1} {g2 : G2} {pk : ProvingKey G1 G2} {coefs : List Coef}
  {witness : List Fr}

/-- The part of the third point that is for the private signals. -/
noncomputable def privateSum (q : Qap) (t : Trapdoor) (witness : List Fr) : Fr :=
  ∑ i ∈ Finset.range (q.n_vars - q.n_public - 1), elem (witness.drop (q.n_public + 1)) i *
    (t.signalSum q (i + (q.n_public + 1)) * t.delta⁻¹)

/-- The third point. -/
noncomputable def pointC (q : Qap) (t : Trapdoor) (witness : List Fr) (r s : Fr) : Fr :=
  privateSum q t witness +
    (q.combined q.A t.tau witness * q.combined q.B t.tau witness - q.combined q.C t.tau witness) * t.delta⁻¹ +
    s * (q.combined q.A t.tau witness + t.alpha + r * t.delta) +
    r * (q.combined q.B t.tau witness + t.beta + s * t.delta) - r * s * t.delta

theorem prove_spec (hkey : IsKey q t g1 g2 pk) (hholds : q.Holds coefs) (hcoefs : pk.coefs = coefs.map scaled)
    (hw : q.Satisfied witness) (r s : Fr) :
    prove pk witness r s = some {
      pi_a := (q.combined q.A t.tau witness + t.alpha + r * t.delta) • g1,
      pi_b := (q.combined q.B t.tau witness + t.beta + s * t.delta) • g2,
      pi_c := pointC q t witness r s • g1,
      public_signals := ((witness.take (q.n_public + 1)).drop 1).map fun sig => (fr_to_bigint sig).repr } := by
  have hk := q.size_le
  have hpublic := q.public_lt
  have hlength := hw.length
  have hzero : (zero_vec (2 ^ q.k)).length = 2 ^ q.k := by simp [zero_vec]
  have helemZero : ∀ j, elem (zero_vec (2 ^ q.k)) j = 0 := by
    intro j
    unfold elem zero_vec
    rw [List.getD_eq_getElem?_getD, List.getElem?_replicate]
    split <;> rfl
  obtain ⟨⟨a, b⟩, hab, hlenA, hlenB, helemA, helemB⟩ := accumulated witness (coefs.map scaled)
    (zero_vec (2 ^ q.k), zero_vec (2 ^ q.k)) (by
      intro e he
      obtain ⟨e', he', rfl⟩ := List.mem_map.mp he
      obtain ⟨-, hconstraint, hsignal⟩ := hholds.within e' he'
      exact ⟨by rw [hlength]; exact hsignal, by rw [hzero]; exact hconstraint, by rw [hzero]; exact hconstraint⟩)
  rw [hzero] at hlenA hlenB
  have hrows : ∀ (m : Nat) (M : Nat → Nat → Fr), (∀ j < 2 ^ q.k, ∀ i < q.n_vars, M j i = entry coefs m j i) →
      ∀ j < 2 ^ q.k, rowSum (coefs.map scaled) witness m j = 2 ^ 8 * q.rowValue M witness j := by
    intro m M hM j hj
    rw [rowSum_scaled, rowSum_eq fun e he => (hholds.within e he).2.2]
    unfold Qap.rowValue
    congr 1
    apply Finset.sum_congr rfl
    intro i hi
    rw [hM j hj i (Finset.mem_range.mp hi)]
  obtain ⟨a', b', c', ha', hb', hc', hlenP, hquotient⟩ := quotient_spec hw t.tau hlenA hlenB
    (fun j hj => by rw [helemA, helemZero, zero_add, hrows 0 q.A hholds.a j hj])
    (fun j hj => by rw [helemB, helemZero, zero_add, hrows 1 q.B hholds.b j hj])
  have hinverse : inverse 65536 = some 65536⁻¹ := by
    have hsixteen : (65536 : Fr) = 2 ^ 16 := by norm_num
    apply inverse_spec
    rw [hsixteen]
    exact pow_ne_zero 16 two_ne_zero_fr
  have hmsmA : msm pk.a witness = some (q.combined q.A t.tau witness • g1) := by
    rw [hkey.a]
    exact msm_spec _ g1 hlength
  have hmsmB1 : msm pk.b1 witness = some (q.combined q.B t.tau witness • g1) := by
    rw [hkey.b1]
    exact msm_spec _ g1 hlength
  have hmsmB2 : msm pk.b2 witness = some (q.combined q.B t.tau witness • g2) := by
    rw [hkey.b2]
    exact msm_spec _ g2 hlength
  have hmsmH : msm pk.h ((join_abc a' b' c').map fun x => x * 65536⁻¹) =
      some (((q.combined q.A t.tau witness * q.combined q.B t.tau witness - q.combined q.C t.tau witness) *
        t.delta⁻¹) • g1) := by
    rw [hkey.h, msm_spec _ g1 (by rw [List.length_map, hlenP]), ← hquotient, Finset.sum_mul]
    simp only [mul_assoc]
  have hmsmC : msm pk.c (witness.drop (q.n_public + 1)) = some (privateSum q t witness • g1) := by
    rw [hkey.c]
    exact msm_spec _ g1 (by rw [List.length_drop, hlength]; omega)
  unfold prove
  rw [hkey.domain_size, roots_spec (by omega), hcoefs]
  simp only [hab, ha', hb', hc', hinverse, hmsmA, hmsmB1, hmsmB2, hmsmH, hkey.n_public, hlength,
    if_pos (show q.n_public + 1 ≤ q.n_vars by omega), hmsmC, Option.bind_eq_bind, Option.bind_some, Option.pure_def,
    hkey.vk_alpha_1, hkey.vk_beta_1, hkey.vk_beta_2, hkey.vk_delta_1, hkey.vk_delta_2]
  simp only [smul_smul, ← add_smul, ← sub_smul]
  rfl

theorem combined_sum (q : Qap) (t : Trapdoor) (witness : List Fr) :
    ∑ i ∈ Finset.range q.n_vars, elem witness i * t.signalSum q i =
      t.beta * q.combined q.A t.tau witness + t.alpha * q.combined q.B t.tau witness +
        q.combined q.C t.tau witness := by
  unfold Qap.combined Trapdoor.signalSum
  rw [Finset.mul_sum, Finset.mul_sum, ← Finset.sum_add_distrib, ← Finset.sum_add_distrib]
  apply Finset.sum_congr rfl
  intro i _
  ring

theorem elem_drop (witness : List Fr) (n i : Nat) : elem (witness.drop n) i = elem witness (n + i) := by
  unfold elem
  simp [List.getD_eq_getElem?_getD]

/-- The public signals of a witness. -/
def publicSignals (q : Qap) (witness : List Fr) : List Fr := (witness.take (q.n_public + 1)).drop 1

theorem elem_publicSignals {i : Nat} (hi : i < q.n_public) :
    elem (publicSignals q witness) i = elem witness (i + 1) := by
  unfold publicSignals
  rw [elem_drop, Nat.add_comm 1]
  unfold elem
  rw [List.getD_eq_getElem?_getD, List.getElem?_take, if_pos (by omega), List.getD_eq_getElem?_getD]

theorem length_publicSignals (hlength : witness.length = q.n_vars) :
    (publicSignals q witness).length = q.n_public := by
  have hpublic := q.public_lt
  unfold publicSignals
  rw [List.length_drop, List.length_take, hlength]
  omega

/-- The signals are those of one, the public ones and the private ones. -/
theorem signals_split (hw : q.Satisfied witness) :
    ∑ i ∈ Finset.range q.n_vars, elem witness i * t.signalSum q i =
      t.signalSum q 0 + ∑ i ∈ Finset.range q.n_public, elem (publicSignals q witness) i * t.signalSum q (i + 1) +
        privateSum q t witness * t.delta := by
  have hpublic := q.public_lt
  have hcount : q.n_vars = (q.n_public + 1) + (q.n_vars - q.n_public - 1) := by omega
  have hprivate : privateSum q t witness * t.delta = ∑ i ∈ Finset.range (q.n_vars - q.n_public - 1),
      elem witness (q.n_public + 1 + i) * t.signalSum q (q.n_public + 1 + i) := by
    unfold privateSum
    rw [Finset.sum_mul]
    apply Finset.sum_congr rfl
    intro i _
    rw [elem_drop, Nat.add_comm i, mul_assoc, mul_assoc, inv_mul_cancel₀ t.delta_ne, mul_one]
  have hsignals : ∑ i ∈ Finset.range q.n_public, elem (publicSignals q witness) i * t.signalSum q (i + 1) =
      ∑ i ∈ Finset.range q.n_public, elem witness (i + 1) * t.signalSum q (i + 1) := by
    apply Finset.sum_congr rfl
    intro i hi
    rw [elem_publicSignals (Finset.mem_range.mp hi)]
  conv_lhs => rw [hcount]
  rw [Finset.sum_range_add, Finset.sum_range_succ', hw.one, one_mul, hprivate, hsignals]
  ring

/-- The equation that the pairings check, in the field. -/
theorem groth16_identity (hw : q.Satisfied witness) (r s : Fr) :
    (q.combined q.A t.tau witness + t.alpha + r * t.delta) * (q.combined q.B t.tau witness + t.beta + s * t.delta) =
      t.alpha * t.beta +
        (t.signalSum q 0 * t.gamma⁻¹ +
          ∑ i ∈ Finset.range q.n_public, elem (publicSignals q witness) i * (t.signalSum q (i + 1) * t.gamma⁻¹)) *
          t.gamma +
        pointC q t witness r s * t.delta := by
  have hγ := t.gamma_ne
  have hδ := t.delta_ne
  have hpublic : (t.signalSum q 0 * t.gamma⁻¹ +
      ∑ i ∈ Finset.range q.n_public, elem (publicSignals q witness) i * (t.signalSum q (i + 1) * t.gamma⁻¹)) * t.gamma =
        t.signalSum q 0 + ∑ i ∈ Finset.range q.n_public, elem (publicSignals q witness) i * t.signalSum q (i + 1) := by
    simp only [← mul_assoc]
    rw [← Finset.sum_mul, ← add_mul, mul_assoc, inv_mul_cancel₀ hγ, mul_one]
  have hquotient : (q.combined q.A t.tau witness * q.combined q.B t.tau witness - q.combined q.C t.tau witness) *
      t.delta⁻¹ * t.delta =
        q.combined q.A t.tau witness * q.combined q.B t.tau witness - q.combined q.C t.tau witness := by
    rw [mul_assoc, inv_mul_cancel₀ hδ, mul_one]
  have hsplit := (signals_split hw).symm.trans (combined_sum q t witness)
  rw [hpublic]
  unfold pointC
  linear_combination (-1 : Fr) * hsplit - hquotient

theorem addSignals_publicSignals (hkey : IsKey q t g1 g2 pk) (hlength : witness.length = q.n_vars) :
    pk.ic[0]? = some ((t.signalSum q 0 * t.gamma⁻¹) • g1) ∧
      addSignals pk.ic 0 ((t.signalSum q 0 * t.gamma⁻¹) • g1) (publicSignals q witness) =
        some ((t.signalSum q 0 * t.gamma⁻¹ + ∑ i ∈ Finset.range q.n_public,
          elem (publicSignals q witness) i * (t.signalSum q (i + 1) * t.gamma⁻¹)) • g1) := by
  have hcount := length_publicSignals hlength
  rw [hkey.ic]
  refine ⟨?_, ?_⟩
  · rw [List.getElem?_map, List.getElem?_range (Nat.succ_pos _)]
    rfl
  · rw [addSignals_spec (fun i => t.signalSum q i * t.gamma⁻¹) g1 _ 0 _ (by omega), hcount]
    simp only [Nat.zero_add]

theorem mapM_signals (signals : List Fr) :
    (signals.map fun sig => (fr_to_bigint sig).repr).mapM fr_from_decimal = some signals := by
  rw [mapM_eq_some_iff, List.map_map]
  apply List.map_congr_left
  intro sig _
  exact fr_from_decimal_repr sig

theorem honest_proof_verifies [DecidableEq GT] (pairing : G1 →ₗ[Fr] G2 →ₗ[Fr] GT) {n8r : Nat}
    (hkey : IsKey q t g1 g2 pk) (hholds : q.Holds coefs) (hcoefs : parse_coefs (storedCoefs coefs) n8r = some pk.coefs)
    (hw : q.Satisfied witness) (r s : Fr) :
    ∃ proof signals, prove pk witness r s = some proof ∧ proof.public_signals.mapM fr_from_decimal = some signals ∧
      verify pairing pk proof signals = some true := by
  have hdomain : 2 ^ q.k ≤ 2 ^ 32 := Nat.pow_le_pow_right (by decide) (by have hk := q.size_le; omega)
  have hread := parse_coefs_stored hholds.count (fun e he => by
    obtain ⟨hm, hc, hs⟩ := hholds.within e he
    exact ⟨hm, hc.trans_le hdomain, hs.trans q.vars_lt⟩) hcoefs
  obtain ⟨hic, hsignals⟩ := addSignals_publicSignals hkey hw.length
  refine ⟨_, publicSignals q witness, prove_spec hkey hholds hread hw r s, mapM_signals _, ?_⟩
  unfold verify
  simp only [hic, hsignals, Option.bind_eq_bind, Option.bind_some, Option.pure_def, Option.some.injEq, beq_iff_eq,
    hkey.vk_alpha_1, hkey.vk_beta_2, hkey.vk_gamma_2, hkey.vk_delta_2, map_smul, LinearMap.smul_apply, smul_smul,
    ← add_smul]
  rw [mul_comm, groth16_identity hw r s]
  congr 1
  ring

end

/-! ## A key, and a proof under it -/

/-- The key of a program, over the scalars themselves. -/
noncomputable def keyOf (q : Qap) (t : Trapdoor) (coefs : List Coef) : ProvingKey Fr Fr where
  n_vars := q.n_vars
  n_public := q.n_public
  domain_size := 2 ^ q.k
  r_mod := SCALAR_MODULUS
  vk_alpha_1 := t.alpha • 1
  vk_beta_1 := t.beta • 1
  vk_beta_2 := t.beta • 1
  vk_gamma_2 := t.gamma • 1
  vk_delta_1 := t.delta • 1
  vk_delta_2 := t.delta • 1
  ic := (List.range (q.n_public + 1)).map fun i => (t.signalSum q i * t.gamma⁻¹) • 1
  a := (List.range q.n_vars).map fun i => q.column q.A t.tau i • 1
  b1 := (List.range q.n_vars).map fun i => q.column q.B t.tau i • 1
  b2 := (List.range q.n_vars).map fun i => q.column q.B t.tau i • 1
  c := (List.range (q.n_vars - q.n_public - 1)).map fun i =>
    (t.signalSum q (i + (q.n_public + 1)) * t.delta⁻¹) • 1
  h := (List.range (2 ^ q.k)).map fun i => (q.oddBasis t.tau i * t.delta⁻¹) • 1
  coefs := coefs.map scaled

theorem keyOf_isKey (q : Qap) (t : Trapdoor) (coefs : List Coef) : IsKey q t (1 : Fr) (1 : Fr) (keyOf q t coefs) :=
  ⟨rfl, rfl, rfl, rfl, rfl, rfl, rfl, rfl, rfl, rfl, rfl, rfl, rfl, rfl, rfl⟩

/-- The first signal is public and the square of the second. -/
def squareProgram : Qap where
  k := 0
  n_vars := 3
  n_public := 1
  A _ i := if i = 2 then 1 else 0
  B _ i := if i = 2 then 1 else 0
  C _ i := if i = 1 then 1 else 0
  size_le := by decide
  public_lt := by decide
  vars_lt := by decide

def squareCoefs : List Coef := [⟨0, 0, 2, 1⟩, ⟨1, 0, 2, 1⟩]

def someTrapdoor : Trapdoor := ⟨3, 3, 7, 1, 2, one_ne_zero, two_ne_zero_fr⟩

theorem squareProgram_holds : squareProgram.Holds squareCoefs := by
  refine ⟨by decide, ?_, ?_, ?_⟩
  · intro e he
    simp only [squareCoefs, List.mem_cons, List.not_mem_nil, or_false] at he
    rcases he with rfl | rfl <;> decide
  · intro j hj i _
    obtain rfl : j = 0 := by simpa [squareProgram] using hj
    simp [squareProgram, squareCoefs, entry, eq_comm]
  · intro j hj i _
    obtain rfl : j = 0 := by simpa [squareProgram] using hj
    simp [squareProgram, squareCoefs, entry, eq_comm]

theorem squareProgram_satisfied : squareProgram.Satisfied [1, 4, 2] := by
  refine ⟨rfl, rfl, ?_⟩
  intro j _
  simp [Qap.rowValue, squareProgram, elem]
  norm_num

theorem squareCoefs_read : parse_coefs (storedCoefs squareCoefs) 32 = some (squareCoefs.map scaled) := by
  have hsome : (parse_coefs (storedCoefs squareCoefs) 32).isSome := by
    rw [isSome_parse_coefs]
    refine ⟨by simp [storedCoefs], fun _ => ⟨rfl, ?_⟩⟩
    have hcount : u32At (storedCoefs squareCoefs) 0 = 2 := by
      have hread : read_u32 (storedCoefs squareCoefs) 0 = some 2 :=
        read_u32_append (by decide) (List.nil_append _).symm rfl
      exact (read_u32_eq_some.mp hread).2
    rw [hcount, storedCoefs, List.length_append, length_flatMap_storedCoef, length_u32Le]
    decide
  obtain ⟨out, hout⟩ := Option.isSome_iff_exists.mp hsome
  rw [hout, parse_coefs_stored (by decide) _ hout]
  intro e he
  obtain ⟨hm, hc, hs⟩ := squareProgram_holds.within e he
  exact ⟨hm, hc.trans (by decide), hs.trans (by decide)⟩

theorem honest_proof_verifies_for_square :
    ∃ proof signals, prove (keyOf squareProgram someTrapdoor squareCoefs) [1, 4, 2] 6 8 = some proof ∧
      proof.public_signals.mapM fr_from_decimal = some signals ∧
      verify (LinearMap.mul Fr Fr) (keyOf squareProgram someTrapdoor squareCoefs) proof signals = some true :=
  honest_proof_verifies (LinearMap.mul Fr Fr) (keyOf_isKey _ _ _) squareProgram_holds squareCoefs_read
    squareProgram_satisfied 6 8

end ZkVote.Prover

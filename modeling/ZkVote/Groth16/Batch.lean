import Mathlib.Algebra.BigOperators.Group.Finset.Basic
import Mathlib.Algebra.Module.BigOperators
import ZkVote.Groth16.Canonical
import ZkVote.Lib.Bytes
import ZkVote.Lib.Runs
import ZkVote.Lib.Sha256

/-!
# Verifying a batch of proofs

`contracts/zkvote-groth16/src/batch.rs`, the limit on a batch a parameter. `none` is a panic. The randomizers have
128 bits, so their sum fits in a word for every number of proofs that a `u32` can count.
-/

open Lib

namespace ZkVote.Groth16

open Prover (Fr)
open Voting (VerificationKey Proof BN254_FR_MODULUS)

def BATCH_TRANSCRIPT_TAG : Bytes := utf8 "ZKVOTE-GROTH16-BATCH-V1"

def RANDOMIZER_BYTES : Nat := 16

def batch_transcript (sha256 : Bytes → BytesN 32) (vk : VerificationKey) (proofs : List Proof)
    (pub_signals : List (List U256)) : BytesN 32 :=
  sha256
    (BATCH_TRANSCRIPT_TAG ++ vk.alpha.toList ++ vk.beta.toList ++ vk.gamma.toList ++ vk.delta.toList ++
      toBeBytes 4 vk.ic.length ++ vk.ic.flatMap (fun point => point.toList) ++
      toBeBytes 4 proofs.length ++
      proofs.flatMap (fun proof => proof.a.toList ++ proof.b.toList ++ proof.c.toList) ++
      pub_signals.flatMap fun signals =>
        toBeBytes 4 signals.length ++ signals.flatMap fun signal => U256.to_be_bytes signal)

/-- One draw. -/
def batch_randomizer (sha256 : Bytes → BytesN 32) (transcript : BytesN 32) (i : Nat) : U256 :=
  let digest := sha256 (transcript.toList ++ toBeBytes 4 i)
  let scalar := fromBeBytes (List.replicate 16 0 ++ digest.toList.take RANDOMIZER_BYTES)
  if scalar = 0 then 1 else scalar

def batch_randomizers (sha256 : Bytes → BytesN 32) (transcript : BytesN 32) (count : Nat) : List U256 :=
  (List.range count).map (batch_randomizer sha256 transcript)

def batch_shape_is_valid (max_batch_size : Nat) (vk : VerificationKey) (proofs : List Proof)
    (pub_signals : List (List U256)) : Bool :=
  let n := proofs.length
  if n = 0 ∨ n > max_batch_size then false
  else if pub_signals.length ≠ n then false
  else pub_signals.all fun signals =>
    decide (signals.length + 1 = vk.ic.length) && signals.all fun signal => is_in_field signal

/-- The loop over the proofs, which ends at the first difference. -/
def column_differs (column : Nat) (reference : U256) : List (List U256) → Option Bool
  | [] => some false
  | signals :: rest => do
    let signal ← signals[column]?
    if signal ≠ reference then some true else column_differs column reference rest

def varying_columns (pub_signals : List (List U256)) : Option (List Nat) := do
  let first ← pub_signals[0]?
  (List.range first.length).foldlM (fun varying column => do
    let reference ← first[column]?
    let differs ← column_differs column reference pub_signals
    return if differs then varying ++ [column] else varying) []

section

variable {G1 G2 GT : Type} [AddCommGroup G1] [Module Fr G1] [AddCommGroup G2] [Module Fr G2] [AddCommGroup GT]
  [Module Fr GT] (curve : Groth16Curve G1 G2 GT)

/-- `IC[column + 1]`, times the signal. -/
def scaled_signal (vk : VerificationKey) (signals : List U256) (column : Nat) : Option G1 := do
  let signal ← signals[column]?
  let ic_point_bytes ← vk.ic[column + 1]?
  return fr_from_u256 signal • curve.g1_from_bytes ic_point_bytes

/-- `IC[0]` and the columns that are the same in every proof. -/
def shared_part (vk : VerificationKey) (varying : List Nat) (first : List U256) : Option G1 := do
  let ic0 ← vk.ic[0]?
  (List.range first.length).foldlM (fun shared column => do
    if column ∈ varying then return shared
    else
      let scaled ← scaled_signal curve vk first column
      return shared + scaled) (curve.g1_from_bytes ic0)

/-- A sum that has begun or not. -/
def addTo (sum : Option G1) (term : G1) : Option G1 :=
  match sum with
  | none => some term
  | some acc => some (acc + term)

/-- The columns that differ, of one proof. -/
def partial_sum (vk : VerificationKey) (varying : List Nat) (signals : List U256) : Option (Option G1) :=
  if varying = [] then some none
  else
    varying.foldlM (fun sum column => do
      let scaled ← scaled_signal curve vk signals column
      return addTo sum scaled) none

/-- What the loop over the proofs carries. -/
structure Combination (G1 G2 : Type) where
  g1 : List G1
  g2 : List G2
  randomizer_sum : U256
  combined_varying : Option G1
  combined_c : Option G1

/-- The loop's body. -/
def combine_proof (vk : VerificationKey) (proofs : List Proof) (pub_signals : List (List U256))
    (randomizers : List U256) (varying : List Nat) (acc : Combination G1 G2) (i : Nat) :
    Option (Combination G1 G2) := do
  let proof ← proofs[i]?
  let signals ← pub_signals[i]?
  let r ← randomizers[i]?
  let r_fr := fr_from_u256 r
  let scaled_a := r_fr • curve.g1_from_bytes proof.a
  let sum ← partial_sum curve vk varying signals
  let combined_varying :=
    match sum with
    | some sum => addTo acc.combined_varying (r_fr • sum)
    | none => acc.combined_varying
  let weighted_c := r_fr • curve.g1_from_bytes proof.c
  return { g1 := acc.g1 ++ [-scaled_a]
           g2 := acc.g2 ++ [curve.g2_from_bytes proof.b]
           randomizer_sum := acc.randomizer_sum + r
           combined_varying := combined_varying
           combined_c := addTo acc.combined_c weighted_c }

/-- The terms that are handed to the pairing. -/
def batch_terms (sha256 : Bytes → BytesN 32) (vk : VerificationKey) (proofs : List Proof)
    (pub_signals : List (List U256)) : Option (List G1 × List G2) := do
  let n := proofs.length
  let randomizers := batch_randomizers sha256 (batch_transcript sha256 vk proofs pub_signals) n
  let varying ← varying_columns pub_signals
  let first ← pub_signals[0]?
  let shared ← shared_part curve vk varying first
  let acc ← (List.range n).foldlM (combine_proof curve vk proofs pub_signals randomizers varying)
    { g1 := [], g2 := [], randomizer_sum := 0, combined_varying := none, combined_c := none }
  let sum_fr := fr_from_u256 acc.randomizer_sum
  let combined_vk_x := sum_fr • shared
  let combined_vk_x :=
    match acc.combined_varying with
    | some varying_part => combined_vk_x + varying_part
    | none => combined_vk_x
  let combined_c ← acc.combined_c
  let g1 := acc.g1 ++ [sum_fr • curve.g1_from_bytes vk.alpha] ++ [combined_vk_x] ++ [combined_c]
  let g2 := acc.g2 ++ [curve.g2_from_bytes vk.beta] ++ [curve.g2_from_bytes vk.gamma] ++
    [curve.g2_from_bytes vk.delta]
  return (g1, g2)

variable [DecidableEq GT]

def verify_groth16_batch_impl (sha256 : Bytes → BytesN 32) (vk : VerificationKey) (proofs : List Proof)
    (pub_signals : List (List U256)) : Option Bool := do
  let (g1, g2) ← batch_terms curve sha256 vk proofs pub_signals
  return curve.pairing_check g1 g2

/-- In a build without the stub. -/
def verify_groth16_batch (sha256 : Bytes → BytesN 32) (max_batch_size : Nat) (vk : VerificationKey)
    (proofs : List Proof) (pub_signals : List (List U256)) : Option Bool :=
  if batch_shape_is_valid max_batch_size vk proofs pub_signals = false then some false
  else if proofs.length = 1 then do
    let proof ← proofs[0]?
    let signals ← pub_signals[0]?
    verify_groth16 curve vk proof signals
  else verify_groth16_batch_impl curve sha256 vk proofs pub_signals

end

/-! ## A batch of the right shape -/

/-- The lists, by their entries: `n` proofs, each with `m` signals. -/
structure Shaped (vk : VerificationKey) (proofs : List Proof) (pub_signals : List (List U256)) (n m : Nat)
    (proof : Nat → Proof) (s : Nat → Nat → U256) (point : Nat → BytesN 64) : Prop where
  proofs_eq : proofs = (List.range n).map proof
  signals_eq : pub_signals = (List.range n).map fun i => (List.range m).map (s i)
  ic_eq : vk.ic = (List.range (m + 1)).map point

theorem getElem?_map_range {α : Type} {n i : Nat} (f : Nat → α) (hi : i < n) :
    ((List.range n).map f)[i]? = some (f i) := by
  simp [hi]

theorem map_getD_range {α : Type} (xs : List α) (d : α) : (List.range xs.length).map (fun i => xs.getD i d) = xs := by
  apply List.ext_getElem
  · simp
  · intro i h1 h2
    simp [h2]

section

variable {vk : VerificationKey} {proofs : List Proof} {pub_signals : List (List U256)} {n m : Nat}
  {proof : Nat → Proof} {s : Nat → Nat → U256} {point : Nat → BytesN 64}

theorem exists_shaped (hcount : pub_signals.length = proofs.length) (hic : 0 < vk.ic.length)
    (hlengths : ∀ signals ∈ pub_signals, signals.length + 1 = vk.ic.length) :
    ∃ proof s point, Shaped vk proofs pub_signals proofs.length (vk.ic.length - 1) proof s point := by
  refine ⟨fun i => proofs.getD i { a := padTo 64 [], b := padTo 128 [], c := padTo 64 [] },
    fun i j => (pub_signals.getD i []).getD j 0, fun i => vk.ic.getD i (padTo 64 []), ?_, ?_, ?_⟩
  · exact (map_getD_range _ _).symm
  · rw [← hcount]
    conv_lhs => rw [← map_getD_range pub_signals []]
    apply List.map_congr_left
    intro i hi
    have hi : i < pub_signals.length := by simpa using hi
    have hlength := hlengths (pub_signals.getD i []) (by simp [hi])
    have hm : vk.ic.length - 1 = (pub_signals.getD i []).length := by omega
    rw [hm, map_getD_range]
  · rw [Nat.sub_add_cancel hic, map_getD_range]

/-- A column is told from the others by a proof that has another signal in it. -/
theorem column_differs_spec (j : Nat) (hj : j < m) (reference : U256) (is : List Nat) :
    column_differs j reference (is.map fun i => (List.range m).map (s i)) =
      some (is.any fun i => s i j != reference) := by
  induction is with
  | nil => rfl
  | cons i is ih =>
    rw [List.map_cons, column_differs, getElem?_map_range (s i) hj, List.any_cons]
    simp only [Option.bind_eq_bind, Option.bind_some]
    by_cases h : s i j = reference
    · rw [if_neg (not_not.mpr h), ih, h]
      simp
    · rw [if_pos h]
      simp [h]

theorem varying_columns_spec (h : Shaped vk proofs pub_signals n m proof s point) (hn : 0 < n) :
    varying_columns pub_signals =
      some ((List.range m).filter fun j => (List.range n).any fun i => s i j != s 0 j) := by
  unfold varying_columns
  rw [h.signals_eq, getElem?_map_range _ hn]
  simp only [Option.bind_eq_bind, Option.bind_some, List.length_map, List.length_range]
  obtain ⟨varying, hrun, hvarying⟩ := foldlM_range_rule (s := ([] : List Nat)) m
    (fun varying column => do
      let reference ← ((List.range m).map (s 0))[column]?
      let differs ← column_differs column reference ((List.range n).map fun i => (List.range m).map (s i))
      return if differs then varying ++ [column] else varying)
    (fun k varying => varying = (List.range k).filter fun j => (List.range n).any fun i => s i j != s 0 j) rfl (by
      rintro k _ hk rfl
      rw [getElem?_map_range (s 0) hk]
      simp only [Option.bind_eq_bind, Option.bind_some]
      rw [column_differs_spec k hk]
      refine ⟨_, rfl, ?_⟩
      rw [List.range_succ, List.filter_append]
      split <;> simp_all)
  rw [← hvarying]
  exact hrun

variable {G1 G2 GT : Type} [AddCommGroup G1] [Module Fr G1] [AddCommGroup G2] [Module Fr G2] [AddCommGroup GT]
  [Module Fr GT] (curve : Groth16Curve G1 G2 GT)

/-- What column `j` adds to `vk_x` of proof `i`. -/
def column_term (s : Nat → Nat → U256) (point : Nat → BytesN 64) (i j : Nat) : G1 :=
  fr_from_u256 (s i j) • curve.g1_from_bytes (point (j + 1))

theorem scaled_signal_spec (h : Shaped vk proofs pub_signals n m proof s point) (i : Nat) {j : Nat} (hj : j < m) :
    scaled_signal curve vk ((List.range m).map (s i)) j = some (column_term curve s point i j) := by
  unfold scaled_signal
  rw [getElem?_map_range (s i) hj, h.ic_eq, getElem?_map_range point (by omega)]
  rfl

theorem shared_part_spec (h : Shaped vk proofs pub_signals n m proof s point) (varying : List Nat) :
    shared_part curve vk varying ((List.range m).map (s 0)) =
      some (curve.g1_from_bytes (point 0) +
        ∑ j ∈ Finset.range m, if j ∈ varying then 0 else column_term curve s point 0 j) := by
  unfold shared_part
  rw [h.ic_eq, getElem?_map_range point (by omega)]
  simp only [Option.bind_eq_bind, Option.bind_some, List.length_map, List.length_range]
  obtain ⟨shared, hrun, rfl⟩ := foldlM_range_rule (s := curve.g1_from_bytes (point 0)) m
    (fun shared column =>
      if column ∈ varying then some shared
      else (scaled_signal curve vk ((List.range m).map (s 0)) column).bind fun scaled => some (shared + scaled))
    (fun k shared => shared = curve.g1_from_bytes (point 0) +
      ∑ j ∈ Finset.range k, if j ∈ varying then 0 else column_term curve s point 0 j) (by simp) (by
      rintro k _ hk rfl
      rw [Finset.sum_range_succ, scaled_signal_spec curve h 0 hk]
      split
      · exact ⟨_, rfl, by simp⟩
      · exact ⟨_, rfl, by rw [add_assoc]⟩)
  exact hrun

omit [Module Fr G1] in
@[simp] theorem getD_addTo (sum : Option G1) (term : G1) : (addTo sum term).getD 0 = sum.getD 0 + term := by
  cases sum <;> simp [addTo]

theorem partial_sum_spec (h : Shaped vk proofs pub_signals n m proof s point) (i : Nat) {varying : List Nat}
    (hvarying : ∀ j ∈ varying, j < m) :
    ∃ sum, partial_sum curve vk varying ((List.range m).map (s i)) = some sum ∧
      sum.getD 0 = (varying.map (column_term curve s point i)).sum := by
  have hfrom : ∀ sum : Option G1, ∃ sum',
      varying.foldlM (fun sum column => do
        let scaled ← scaled_signal curve vk ((List.range m).map (s i)) column
        return addTo sum scaled) sum = some sum' ∧
        sum'.getD 0 = sum.getD 0 + (varying.map (column_term curve s point i)).sum := by
    induction varying with
    | nil => exact fun sum => ⟨sum, rfl, by simp⟩
    | cons j varying ih =>
      intro sum
      obtain ⟨sum', hrun, hsum'⟩ := ih (fun j hj => hvarying j (List.mem_cons_of_mem _ hj))
        (addTo sum (column_term curve s point i j))
      refine ⟨sum', ?_, ?_⟩
      · rw [List.foldlM_cons, scaled_signal_spec curve h i (hvarying j List.mem_cons_self)]
        exact hrun
      · rw [hsum', getD_addTo, List.map_cons, List.sum_cons, add_assoc]
  unfold partial_sum
  split
  · next hempty => exact ⟨none, rfl, by simp [hempty]⟩
  · obtain ⟨sum, hrun, hsum⟩ := hfrom none
    exact ⟨sum, hrun, by simpa using hsum⟩

theorem vk_x_spec (h : Shaped vk proofs pub_signals n m proof s point) (i : Nat) :
    vk_x curve vk ((List.range m).map (s i)) =
      curve.g1_from_bytes (point 0) + ∑ j ∈ Finset.range m, column_term curve s point i j := by
  unfold vk_x
  rw [h.ic_eq, List.range_succ_eq_map, List.map_cons, List.map_map, List.tail_cons, List.zipWith_map, List.zipWith_self]
  rfl

theorem hoisted (h : Shaped vk proofs pub_signals n m proof s point) {varying : List Nat}
    (hvarying : varying = (List.range m).filter fun j => (List.range n).any fun i => s i j != s 0 j) {i : Nat}
    (hi : i < n) :
    vk_x curve vk ((List.range m).map (s i)) =
      (curve.g1_from_bytes (point 0) +
          ∑ j ∈ Finset.range m, if j ∈ varying then 0 else column_term curve s point 0 j) +
        (varying.map (column_term curve s point i)).sum := by
  have hmem : ∀ j, j ∈ varying ↔ j < m ∧ ∃ i < n, s i j ≠ s 0 j := by
    intro j
    rw [hvarying]
    simp
  have hsum : (varying.map (column_term curve s point i)).sum =
      ∑ j ∈ Finset.range m, if j ∈ varying then column_term curve s point i j else 0 := by
    have hlist : ((List.range m).filter (· ∈ varying)).map (column_term curve s point i) =
        varying.map (column_term curve s point i) := by
      congr 1
      conv_rhs => rw [hvarying]
      apply List.filter_congr
      intro j hj
      have hj : j < m := List.mem_range.mp hj
      rw [Bool.eq_iff_iff, decide_eq_true_iff, hmem]
      simp [hj]
    have hsplit := List.sum_map_ite (· ∈ varying) (column_term curve s point i) (fun _ => 0) (List.range m)
    rw [hlist, List.map_const', List.sum_replicate, nsmul_zero, add_zero] at hsplit
    exact hsplit.symm
  rw [vk_x_spec curve h, hsum, add_assoc, ← Finset.sum_add_distrib]
  congr 1
  apply Finset.sum_congr rfl
  intro j hj
  have hj : j < m := Finset.mem_range.mp hj
  by_cases hv : j ∈ varying
  · rw [if_pos hv, if_pos hv, zero_add]
  · rw [if_neg hv, if_neg hv, add_zero]
    have hsame : s i j = s 0 j := by
      by_contra hne
      exact hv ((hmem j).mpr ⟨hj, i, hi, hne⟩)
    unfold column_term
    rw [hsame]

/-- What the loop has after `k` proofs, `r` being the randomizers. -/
structure Combined (proof : Nat → Proof) (s : Nat → Nat → U256) (point : Nat → BytesN 64) (r : Nat → Nat)
    (varying : List Nat) (k : Nat) (acc : Combination G1 G2) : Prop where
  g1 : acc.g1 = (List.range k).map fun i => -(fr_from_u256 (r i) • curve.g1_from_bytes (proof i).a)
  g2 : acc.g2 = (List.range k).map fun i => curve.g2_from_bytes (proof i).b
  randomizers : acc.randomizer_sum = ∑ i ∈ Finset.range k, r i
  columns : acc.combined_varying.getD 0 =
    ∑ i ∈ Finset.range k, fr_from_u256 (r i) • (varying.map (column_term curve s point i)).sum
  c : acc.combined_c.getD 0 = ∑ i ∈ Finset.range k, fr_from_u256 (r i) • curve.g1_from_bytes (proof i).c
  begun : 0 < k → acc.combined_c ≠ none

theorem combine_proof_step (h : Shaped vk proofs pub_signals n m proof s point) {r : Nat → Nat} {varying : List Nat}
    (hvarying : ∀ j ∈ varying, j < m) {k : Nat} (hk : k < n) {acc : Combination G1 G2}
    (hacc : Combined curve proof s point r varying k acc) :
    ∃ acc', combine_proof curve vk proofs pub_signals ((List.range n).map r) varying acc k = some acc' ∧
      Combined curve proof s point r varying (k + 1) acc' := by
  obtain ⟨sum, hsum, hvalue⟩ := partial_sum_spec curve h k hvarying
  have hproof : proofs[k]? = some (proof k) := by rw [h.proofs_eq, getElem?_map_range proof hk]
  have hsignals : pub_signals[k]? = some ((List.range m).map (s k)) := by
    rw [h.signals_eq, getElem?_map_range (fun i => (List.range m).map (s i)) hk]
  unfold combine_proof
  rw [hproof, hsignals, getElem?_map_range r hk]
  simp only [Option.bind_eq_bind, Option.bind_some, hsum]
  refine ⟨_, rfl, ?_, ?_, ?_, ?_, ?_, ?_⟩
  · simp [hacc.g1, List.range_succ]
  · simp [hacc.g2, List.range_succ]
  · simp [hacc.randomizers, Finset.sum_range_succ]
  · rw [Finset.sum_range_succ, ← hacc.columns, ← hvalue]
    cases sum <;> simp
  · rw [Finset.sum_range_succ, ← hacc.c, getD_addTo]
  · intro _
    cases hc : acc.combined_c <;> simp [addTo]

/-- The single equations, each times its randomizer. -/
def combined (sha256 : Bytes → BytesN 32) (vk : VerificationKey) (proofs : List Proof)
    (pub_signals : List (List U256)) : GT :=
  (List.zipWith (fun r e => fr_from_u256 r • e)
    (batch_randomizers sha256 (batch_transcript sha256 vk proofs pub_signals) proofs.length)
    (List.zipWith (equation curve vk) proofs pub_signals)).sum

theorem combined_spec (sha256 : Bytes → BytesN 32) (h : Shaped vk proofs pub_signals n m proof s point) :
    combined curve sha256 vk proofs pub_signals =
      ∑ i ∈ Finset.range n,
        fr_from_u256 (batch_randomizer sha256 (batch_transcript sha256 vk proofs pub_signals) i) •
          equation curve vk (proof i) ((List.range m).map (s i)) := by
  have hlength : proofs.length = n := by simp [h.proofs_eq]
  unfold combined batch_randomizers
  rw [hlength]
  generalize batch_transcript sha256 vk proofs pub_signals = transcript
  rw [h.proofs_eq, h.signals_eq, List.zipWith_map, List.zipWith_self, List.zipWith_map, List.zipWith_self]
  rfl

theorem fr_from_u256_sum (r : Nat → Nat) (k : Nat) :
    fr_from_u256 (∑ i ∈ Finset.range k, r i) = ∑ i ∈ Finset.range k, fr_from_u256 (r i) := by
  unfold fr_from_u256
  exact Nat.cast_sum _ _

theorem product_append {g1 g1' : List G1} {g2 g2' : List G2} (hlength : g1.length = g2.length) :
    curve.product (g1 ++ g1') (g2 ++ g2') = curve.product g1 g2 + curve.product g1' g2' := by
  unfold Groth16Curve.product
  rw [List.zipWith_append hlength, List.sum_append]

/-- The merged terms make up the combined equations. -/
theorem product_eq_combined (h : Shaped vk proofs pub_signals n m proof s point) {r : Nat → Nat} {varying : List Nat}
    (hvarying : varying = (List.range m).filter fun j => (List.range n).any fun i => s i j != s 0 j)
    {acc : Combination G1 G2} (hacc : Combined curve proof s point r varying n acc) (shared : G1)
    (hshared : shared = curve.g1_from_bytes (point 0) +
      ∑ j ∈ Finset.range m, if j ∈ varying then 0 else column_term curve s point 0 j) :
    curve.product
        (acc.g1 ++ [fr_from_u256 acc.randomizer_sum • curve.g1_from_bytes vk.alpha] ++
          [fr_from_u256 acc.randomizer_sum • shared + acc.combined_varying.getD 0] ++ [acc.combined_c.getD 0])
        (acc.g2 ++ [curve.g2_from_bytes vk.beta] ++ [curve.g2_from_bytes vk.gamma] ++
          [curve.g2_from_bytes vk.delta]) =
      ∑ i ∈ Finset.range n, fr_from_u256 (r i) • equation curve vk (proof i) ((List.range m).map (s i)) := by
  have hvk_x : fr_from_u256 acc.randomizer_sum • shared + acc.combined_varying.getD 0 =
      ∑ i ∈ Finset.range n, fr_from_u256 (r i) • vk_x curve vk ((List.range m).map (s i)) := by
    rw [hacc.randomizers, hacc.columns, fr_from_u256_sum, Finset.sum_smul, ← Finset.sum_add_distrib]
    apply Finset.sum_congr rfl
    intro i hi
    rw [hoisted curve h hvarying (Finset.mem_range.mp hi), ← hshared, smul_add]
  have hproofs : curve.product acc.g1 acc.g2 =
      ∑ i ∈ Finset.range n,
        fr_from_u256 (r i) • curve.pairing (-curve.g1_from_bytes (proof i).a) (curve.g2_from_bytes (proof i).b) := by
    unfold Groth16Curve.product
    rw [hacc.g1, hacc.g2, List.zipWith_map, List.zipWith_self]
    simp only [← smul_neg, map_smul, LinearMap.smul_apply]
    rfl
  have hone : ∀ (x : G1) (y : G2), curve.product [x] [y] = curve.pairing x y := by
    intro x y
    simp [Groth16Curve.product]
  rw [product_append, product_append, product_append, hone, hone, hone, hproofs, hvk_x, hacc.c, hacc.randomizers,
    fr_from_u256_sum, Finset.sum_smul, map_sum, map_sum, map_sum, LinearMap.sum_apply, LinearMap.sum_apply,
    LinearMap.sum_apply, ← Finset.sum_add_distrib, ← Finset.sum_add_distrib, ← Finset.sum_add_distrib]
  · apply Finset.sum_congr rfl
    intro i _
    unfold equation
    simp only [map_smul, LinearMap.smul_apply, smul_add]
  all_goals simp [hacc.g1, hacc.g2]

/-- The terms are three more than the proofs, and their product is that of the single equations, each raised to
its randomizer. -/
theorem batch_terms_spec (sha256 : Bytes → BytesN 32) (h : Shaped vk proofs pub_signals n m proof s point)
    (hn : 0 < n) :
    ∃ g1 g2, batch_terms curve sha256 vk proofs pub_signals = some (g1, g2) ∧ g1.length = n + 3 ∧
      g2.length = n + 3 ∧ curve.product g1 g2 = combined curve sha256 vk proofs pub_signals := by
  have hlength : proofs.length = n := by simp [h.proofs_eq]
  have hfirst : pub_signals[0]? = some ((List.range m).map (s 0)) := by
    rw [h.signals_eq, getElem?_map_range (fun i => (List.range m).map (s i)) hn]
  rw [combined_spec curve sha256 h]
  unfold batch_terms
  rw [varying_columns_spec h hn, hfirst, hlength]
  generalize hvarying : ((List.range m).filter fun j => (List.range n).any fun i => s i j != s 0 j) = varying
  generalize batch_transcript sha256 vk proofs pub_signals = transcript
  have hsmall : ∀ j ∈ varying, j < m := by
    intro j hj
    rw [← hvarying] at hj
    exact List.mem_range.mp (List.mem_filter.mp hj).1
  obtain ⟨acc, hrun, hacc⟩ := foldlM_range_rule
    (s := { g1 := [], g2 := [], randomizer_sum := 0, combined_varying := none, combined_c := none }) n
    (combine_proof curve vk proofs pub_signals (batch_randomizers sha256 transcript n) varying)
    (Combined curve proof s point (batch_randomizer sha256 transcript) varying) ⟨rfl, rfl, rfl, rfl, rfl, by simp⟩
    (fun k acc hk hacc => combine_proof_step curve h hsmall hk hacc)
  have hproduct := product_eq_combined curve h hvarying.symm hacc _ rfl
  obtain ⟨c, hc⟩ := Option.ne_none_iff_exists'.mp (hacc.begun hn)
  rw [hc, Option.getD_some] at hproduct
  simp only [Option.bind_eq_bind, Option.bind_some, shared_part_spec curve h, hrun, hc]
  refine ⟨_, _, rfl, by simp [hacc.g1], by simp [hacc.g2], ?_⟩
  rw [← hproduct]
  cases acc.combined_varying with
  | none => simp
  | some x => rfl

end

/-! ## The batch and the single proofs -/

theorem fromBeBytes_zeros (k : Nat) (bs : Bytes) : fromBeBytes (List.replicate k 0 ++ bs) = fromBeBytes bs := by
  induction k with
  | zero => rfl
  | succ k ih =>
    rw [List.replicate_succ, List.cons_append, fromBeBytes_cons, ih]
    simp

theorem batch_randomizer_ne_zero (sha256 : Bytes → BytesN 32) (transcript : BytesN 32) (i : Nat) :
    fr_from_u256 (batch_randomizer sha256 transcript i) ≠ 0 := by
  have hbound : 0 < batch_randomizer sha256 transcript i ∧ batch_randomizer sha256 transcript i < 256 ^ 16 := by
    unfold batch_randomizer RANDOMIZER_BYTES
    simp only [fromBeBytes_zeros]
    generalize hdigest : ((sha256 (transcript.toList ++ toBeBytes 4 i)).toList.take 16) = digest
    have hlength : digest.length = 16 := by simp [← hdigest]
    have hlt := fromBeBytes_lt digest
    rw [hlength] at hlt
    split
    · exact ⟨by decide, by decide⟩
    · next hne => exact ⟨Nat.pos_of_ne_zero hne, hlt⟩
  intro hzero
  have hdvd := (ZMod.natCast_eq_zero_iff _ _).mp hzero
  have hle := Nat.le_of_dvd hbound.1 hdvd
  have hsmall : 256 ^ 16 < Prover.SCALAR_MODULUS := by decide
  exact Nat.lt_irrefl _ (Nat.lt_of_le_of_lt hle (Nat.lt_trans hbound.2 hsmall))

section

variable {G1 G2 GT : Type} [AddCommGroup G1] [Module Fr G1] [AddCommGroup G2] [Module Fr G2] [AddCommGroup GT]
  [Module Fr GT] [DecidableEq GT] (curve : Groth16Curve G1 G2 GT) {sha256 : Bytes → BytesN 32} {max_batch_size : Nat}
  {vk : VerificationKey}

/-- As many lists of signals as proofs, each as long as the key wants and in the field. -/
def WellShaped (vk : VerificationKey) (proofs : List Proof) (pub_signals : List (List U256)) : Prop :=
  pub_signals.length = proofs.length ∧
    ∀ signals ∈ pub_signals, signals.length + 1 = vk.ic.length ∧ ∀ signal ∈ signals, signal < BN254_FR_MODULUS

theorem batch_shape_is_valid_of {proofs : List Proof} {pub_signals : List (List U256)} (hn : 1 ≤ proofs.length)
    (hlimit : proofs.length ≤ max_batch_size) (hshape : WellShaped vk proofs pub_signals) :
    batch_shape_is_valid max_batch_size vk proofs pub_signals = true := by
  obtain ⟨hcount, hsignals⟩ := hshape
  unfold batch_shape_is_valid is_in_field
  simp only
  rw [if_neg (by omega), if_neg (not_not.mpr hcount)]
  simpa using hsignals

/-- A batch of one goes to the verifier of single proofs. -/
theorem verify_batch_of_one {proof : Proof} {signals : List U256} (hlimit : 1 ≤ max_batch_size)
    (hshape : WellShaped vk [proof] [signals]) :
    verify_groth16_batch curve sha256 max_batch_size vk [proof] [signals] =
      some (!has_identity proof && decide (equation curve vk proof signals = 0)) := by
  have hvalid : batch_shape_is_valid max_batch_size vk [proof] [signals] = true :=
    batch_shape_is_valid_of (by simp) hlimit hshape
  unfold verify_groth16_batch
  rw [hvalid, if_neg (by simp), if_pos (by simp)]
  exact verify_groth16_spec curve proof (hshape.2 signals (by simp)).1

/-- Of more proofs the terms are too many. -/
theorem verify_batch_of_more {proofs : List Proof} {pub_signals : List (List U256)} (hn : 2 ≤ proofs.length)
    (hlimit : proofs.length ≤ max_batch_size) (hshape : WellShaped vk proofs pub_signals) :
    verify_groth16_batch curve sha256 max_batch_size vk proofs pub_signals = some false := by
  have hvalid := batch_shape_is_valid_of (by omega) hlimit hshape
  obtain ⟨hcount, hsignals⟩ := hshape
  have hic : 0 < vk.ic.length := by
    obtain ⟨signals, hmem⟩ := List.exists_mem_of_length_pos (l := pub_signals) (by omega)
    have hlength := (hsignals signals hmem).1
    omega
  obtain ⟨proof, s, point, hshaped⟩ := exists_shaped hcount hic (fun signals hmem => (hsignals signals hmem).1)
  obtain ⟨g1, g2, hterms, hg1, -, -⟩ := batch_terms_spec curve sha256 hshaped (by omega)
  unfold verify_groth16_batch
  rw [hvalid, if_neg (by simp), if_neg (by omega)]
  unfold verify_groth16_batch_impl
  rw [hterms]
  have htoomany : curve.pairing_check g1 g2 = false := by
    unfold Groth16Curve.pairing_check GROTH16_PAIRING_TERMS
    rw [if_pos (Or.inl (by omega))]
  simp [htoomany]

/-- The batch is taken where every proof is right, and just where the combined equation holds. -/
def BatchAgrees (sha256 : Bytes → BytesN 32) (max_batch_size : Nat) (vk : VerificationKey) (proofs : List Proof)
    (pub_signals : List (List U256)) : Prop :=
  ((∀ x ∈ proofs.zip pub_signals, equation curve vk x.1 x.2 = 0) →
    verify_groth16_batch curve sha256 max_batch_size vk proofs pub_signals = some true) ∧
  (verify_groth16_batch curve sha256 max_batch_size vk proofs pub_signals = some true ↔
    combined curve sha256 vk proofs pub_signals = 0)

omit [DecidableEq GT] in
theorem combined_of_one (sha256 : Bytes → BytesN 32) (vk : VerificationKey) (proof : Proof) (signals : List U256) :
    combined curve sha256 vk [proof] [signals] = 0 ↔ equation curve vk proof signals = 0 := by
  have hne := batch_randomizer_ne_zero sha256 (batch_transcript sha256 vk [proof] [signals]) 0
  unfold combined batch_randomizers
  simp only [List.length_singleton, List.range_one, List.map_cons, List.map_nil, List.zipWith_cons_cons,
    List.zipWith_nil_left, List.sum_singleton]
  rw [smul_eq_zero]
  simp [hne]

omit [DecidableEq GT] in
theorem combined_of_right {proofs : List Proof} {pub_signals : List (List U256)} (sha256 : Bytes → BytesN 32)
    (h : ∀ x ∈ proofs.zip pub_signals, equation curve vk x.1 x.2 = 0) :
    combined curve sha256 vk proofs pub_signals = 0 := by
  have hzero : ∀ e ∈ List.zipWith (equation curve vk) proofs pub_signals, e = 0 := by
    intro e he
    rw [← List.map_uncurry_zip_eq_zipWith] at he
    obtain ⟨x, hx, rfl⟩ := List.mem_map.mp he
    exact h x hx
  have hsum : ∀ (rs : List U256) (es : List GT), (∀ e ∈ es, e = 0) →
      (List.zipWith (fun r e => fr_from_u256 r • e) rs es).sum = 0 := by
    intro rs es hes
    induction es generalizing rs with
    | nil => simp
    | cons e es ih =>
      cases rs with
      | nil => simp
      | cons r rs =>
        rw [List.zipWith_cons_cons, List.sum_cons, ih rs (fun e he => hes e (List.mem_cons_of_mem _ he)),
          hes e List.mem_cons_self, smul_zero, add_zero]
  exact hsum _ _ hzero

/-- They agree on one proof that has no component at infinity, and on what the combined equation refuses. -/
theorem batch_agrees_iff (sha256 : Bytes → BytesN 32) (max_batch_size : Nat) (vk : VerificationKey)
    (proofs : List Proof) (pub_signals : List (List U256)) (hn : 1 ≤ proofs.length)
    (hlimit : proofs.length ≤ max_batch_size) (hshape : WellShaped vk proofs pub_signals) :
    BatchAgrees curve sha256 max_batch_size vk proofs pub_signals ↔
      (proofs.length = 1 ∧ ∀ proof ∈ proofs, has_identity proof = false) ∨
        combined curve sha256 vk proofs pub_signals ≠ 0 := by
  unfold BatchAgrees
  by_cases hone : proofs.length = 1
  · obtain ⟨proof, rfl⟩ := List.length_eq_one_iff.mp hone
    obtain ⟨signals, rfl⟩ := List.length_eq_one_iff.mp (hshape.1.trans hone)
    rw [verify_batch_of_one curve hlimit hshape, ne_eq, combined_of_one]
    simp only [List.mem_singleton, forall_eq]
    cases has_identity proof <;> simp
  · rw [verify_batch_of_more curve (by omega) hlimit hshape]
    constructor
    · rintro ⟨-, hfalse⟩
      right
      intro hzero
      simpa using hfalse.mpr hzero
    · rintro (⟨h, -⟩ | hne)
      · exact absurd h hone
      · exact ⟨fun hright => absurd (combined_of_right curve sha256 hright) hne, by simp [hne]⟩

end

/-! ## A run on the generators -/

def generatorG : BytesN 64 := ofCoordinates 64 [1, 2]

def generatorH : BytesN 128 := ofCoordinates 128 [generator_x1, generator_x0, generator_y1, generator_y0]

theorem generatorCurve_values :
    generatorCurve.g1_from_bytes generatorG = 1 ∧ generatorCurve.g1_from_bytes (ofCoordinates 64 [1, p - 2]) = -1 ∧
      generatorCurve.g2_from_bytes generatorH = 1 := by
  have hG : (coordinate generatorG 0 == 1 && coordinate generatorG 1 == 2) = true := by decide
  have hneg : (coordinate (ofCoordinates 64 [1, p - 2]) 0 == 1 && coordinate (ofCoordinates 64 [1, p - 2]) 1 == 2) =
      false := by decide
  have hneg' : (coordinate (ofCoordinates 64 [1, p - 2]) 0 == 1 &&
      coordinate (ofCoordinates 64 [1, p - 2]) 1 == p - 2) = true := by decide
  have hH : (coordinate generatorH 0 == generator_x1 && coordinate generatorH 1 == generator_x0 &&
      coordinate generatorH 2 == generator_y1 && coordinate generatorH 3 == generator_y0) = true := by decide
  unfold generatorCurve
  simp only
  rw [hG, hneg, hneg', hH]
  simp [signOf]

/-- `e(-G, H) e(-G, H) e(G, H) e(G, H)` is the identity. -/
def generatorKey : VerificationKey where
  alpha := ofCoordinates 64 [1, p - 2]
  beta := generatorH
  gamma := generatorH
  delta := generatorH
  ic := [generatorG]

def rightProof : Proof where
  a := generatorG
  b := generatorH
  c := generatorG

theorem rightProof_right : equation generatorCurve generatorKey rightProof [] = 0 := by
  obtain ⟨hG, hneg, hH⟩ := generatorCurve_values
  unfold equation vk_x generatorKey rightProof
  simp [hG, hneg, hH]

theorem batch_agrees_iff_for_one : BatchAgrees generatorCurve Lib.sha256 1 generatorKey [rightProof] [[]] :=
  (batch_agrees_iff generatorCurve Lib.sha256 1 generatorKey [rightProof] [[]] (by simp) (by simp)
    ⟨rfl, by simp [generatorKey]⟩).mpr (Or.inl ⟨rfl, by decide +kernel⟩)

/-- The same proof twice is refused. -/
theorem two_right_proofs_refused :
    verify_groth16 generatorCurve generatorKey rightProof [] = some true ∧
      verify_groth16_batch generatorCurve Lib.sha256 2 generatorKey [rightProof, rightProof] [[], []] = some false ∧
      ¬BatchAgrees generatorCurve Lib.sha256 2 generatorKey [rightProof, rightProof] [[], []] := by
  have hmore : verify_groth16_batch generatorCurve Lib.sha256 2 generatorKey [rightProof, rightProof] [[], []] =
      some false := verify_batch_of_more generatorCurve (by simp) (by simp) ⟨rfl, by simp [generatorKey]⟩
  refine ⟨?_, hmore, ?_⟩
  · rw [verify_groth16_spec generatorCurve rightProof (by simp [generatorKey]), rightProof_right]
    have hidentity : has_identity rightProof = false := by decide +kernel
    simp [hidentity]
  · rintro ⟨hright, -⟩
    have htrue := hright (by simp [rightProof_right])
    rw [hmore] at htrue
    simp at htrue

end ZkVote.Groth16

import ZkVote.Lib.Bytes
import ZkVote.Lib.Sha256
import ZkVote.Vdf

/-!
# The backend's delay function

`backend/src/services/vdf.ts`, and whether the contract takes what it computes.
-/

open Lib

namespace ZkVote.Vdf

variable (H : Hashes)

/-- The interval at which `computeVdf` and `verifyVdf` put checkpoints. -/
def checkpointInterval (iterations : Nat) : Nat := max 1 (iterations / 16)

/-- The loop of `computeVdf` with `n` steps left and `i` behind it. -/
def computeLoop (interval : Nat) : Nat → Nat → Bytes → List String → Bytes × List String
  | 0, _, current, checkpoints => (current, checkpoints)
  | n + 1, i, current, checkpoints =>
    let next := (H.sha256 current).toList
    if (i + 1) % interval = 0 then computeLoop interval n (i + 1) next (checkpoints ++ [toHex next])
    else computeLoop interval n (i + 1) next checkpoints

/-- What `computeVdf` returns, its running time aside. -/
structure VdfResult where
  output : String
  checkpoints : List String

def computeVdf (inputHex : String) (iterations : Nat) : VdfResult :=
  let (current, checkpoints) :=
    computeLoop H (checkpointInterval iterations) iterations 0 (fromHex inputHex) []
  { output := toHex current, checkpoints := checkpoints }

/-- The loop of `verifyVdf`: the checkpoints are met one by one. -/
def verifyLoop (interval : Nat) (checkpoints : List String) :
    Nat → Nat → Nat → Bytes → Option Bytes
  | 0, _, _, current => some current
  | n + 1, i, checkpointIndex, current =>
    let next := (H.sha256 current).toList
    if (i + 1) % interval = 0 then
      if checkpoints[checkpointIndex]? = some (toHex next) then
        verifyLoop interval checkpoints n (i + 1) (checkpointIndex + 1) next
      else none
    else verifyLoop interval checkpoints n (i + 1) checkpointIndex next

def verifyVdf (inputHex : String) (iterations : Nat) (outputHex : String) (checkpoints : List String) :
    Bool :=
  match verifyLoop H (checkpointInterval iterations) checkpoints iterations 0 0 (fromHex inputHex) with
  | none => false
  | some current => toHex current = outputHex

/-- What the contract is called with: the texts as the 32 bytes they write. -/
def onChain (r : VdfResult) : Option (BytesN 32 × List (BytesN 32)) := do
  let y ← toBytesN 32 (fromHex r.output)
  let checkpoints ← r.checkpoints.mapM fun c => toBytesN 32 (fromHex c)
  return (y, checkpoints)

/-! ## The chain -/

variable {H} {x : BytesN 32}

/-- Once two steps agree, the chain repeats from there on. -/
theorem compute_vdf_repeats {a b : Nat} (hab : a ≤ b) (h : compute_vdf H x a = compute_vdf H x b) (m n : Nat) :
    compute_vdf H x (a + n + m * (b - a)) = compute_vdf H x (a + n) := by
  induction m with
  | zero => simp
  | succ m ih =>
    have hstep : a + n + (m + 1) * (b - a) = b + (n + m * (b - a)) := by
      rw [Nat.succ_mul]
      omega
    rw [hstep, compute_vdf_add, ← h, ← compute_vdf_add, ← ih, Nat.add_assoc]

/-- The first `n` checkpoints at an interval, from the one after the `a`-th on. -/
def marks (H : Hashes) (x : BytesN 32) (interval a n : Nat) : List (BytesN 32) :=
  (List.range' a n).map fun j => compute_vdf H x ((j + 1) * interval)

@[simp] theorem length_marks (interval a n : Nat) : (marks H x interval a n).length = n := by
  simp [marks]

def text (y : BytesN 32) : String := toHex y.toList

@[simp] theorem toBytesN_text (y : BytesN 32) : toBytesN 32 (fromHex (text y)) = some y := by
  simp [text]

theorem marks_succ (interval a n : Nat) :
    marks H x interval a (n + 1) =
      compute_vdf H x ((a + 1) * interval) :: marks H x interval (a + 1) n := by
  simp [marks, List.range'_succ]

theorem marks_concat (interval n : Nat) :
    marks H x interval 0 (n + 1) = marks H x interval 0 n ++ [compute_vdf H x ((n + 1) * interval)] := by
  simp [marks, List.range'_concat]

/-! ## What the backend computes -/

theorem computeLoop_eq {k : Nat} (_ : 0 < k) (n i : Nat) :
    computeLoop H k n i (compute_vdf H x i).toList ((marks H x k 0 (i / k)).map text) =
      ((compute_vdf H x (i + n)).toList, (marks H x k 0 ((i + n) / k)).map text) := by
  induction n generalizing i with
  | zero => rfl
  | succ n ih =>
    have hnext : (H.sha256 (compute_vdf H x i).toList) = compute_vdf H x (i + 1) := rfl
    unfold computeLoop
    simp only [hnext]
    have hrest := ih (i + 1)
    rw [Nat.add_assoc, Nat.add_comm 1 n] at hrest
    split
    · -- Step i + 1 is a checkpoint.
      next hmark =>
      have hdvd : k ∣ i + 1 := Nat.dvd_of_mod_eq_zero hmark
      have hcount : (i + 1) / k = i / k + 1 := Nat.succ_div_of_dvd hdvd
      have hplace : (i / k + 1) * k = i + 1 := by rw [← hcount, Nat.div_mul_cancel hdvd]
      rw [← hrest, hcount, marks_concat, hplace]
      simp [text]
    · next hmark =>
      have hcount : (i + 1) / k = i / k := Nat.succ_div_of_not_dvd fun h => hmark (Nat.mod_eq_zero_of_dvd h)
      rw [← hrest, hcount]

theorem checkpointInterval_pos (iterations : Nat) : 0 < checkpointInterval iterations := by
  unfold checkpointInterval
  omega

theorem computeVdf_eq {inputHex : String} (hin : fromHex inputHex = x.toList) (t : Nat) :
    computeVdf H inputHex t =
      { output := text (compute_vdf H x t)
        checkpoints := (marks H x (checkpointInterval t) 0 (t / checkpointInterval t)).map text } := by
  have hloop := computeLoop_eq (H := H) (x := x) (checkpointInterval_pos t) t 0
  simp only [Nat.zero_div, Nat.zero_add, compute_vdf] at hloop
  unfold computeVdf
  rw [hin]
  simp [marks] at hloop
  simp [hloop, text, marks]

theorem mapM_text (ys : List (BytesN 32)) :
    (ys.map text).mapM (fun c => toBytesN 32 (fromHex c)) = some ys := by
  induction ys with
  | nil => rfl
  | cons y ys ih => simp [ih]

theorem onChain_computeVdf {inputHex : String} (hin : fromHex inputHex = x.toList) (t : Nat) :
    onChain (computeVdf H inputHex t) =
      some (compute_vdf H x t, marks H x (checkpointInterval t) 0 (t / checkpointInterval t)) := by
  rw [computeVdf_eq hin]
  unfold onChain
  rw [mapM_text]
  simp

/-- The backend takes its own results. -/
theorem verifyLoop_eq {k : Nat} (_ : 0 < k) (n i : Nat) {checkpoints : List String}
    (hmarks : checkpoints = (marks H x k 0 ((i + n) / k)).map text) :
    verifyLoop H k checkpoints n i (i / k) (compute_vdf H x i).toList =
      some (compute_vdf H x (i + n)).toList := by
  induction n generalizing i with
  | zero => rfl
  | succ n ih =>
    have hnext : (H.sha256 (compute_vdf H x i).toList) = compute_vdf H x (i + 1) := rfl
    unfold verifyLoop
    simp only [hnext]
    have hsum : i + (n + 1) = i + 1 + n := by omega
    have hrest := ih (i + 1) (by rw [hmarks, hsum])
    split
    · next hmark =>
      have hdvd : k ∣ i + 1 := Nat.dvd_of_mod_eq_zero hmark
      have hcount : (i + 1) / k = i / k + 1 := Nat.succ_div_of_dvd hdvd
      have hplace : (i / k + 1) * k = i + 1 := by rw [← hcount, Nat.div_mul_cancel hdvd]
      have hlast : i / k < (i + (n + 1)) / k := by
        have hle : (i + 1) / k ≤ (i + (n + 1)) / k := Nat.div_le_div_right (by omega)
        omega
      have hthere : checkpoints[i / k]? = some (toHex (compute_vdf H x (i + 1)).toList) := by
        rw [hmarks]
        simp [marks, text, hlast, hplace]
      rw [if_pos hthere, ← hcount, hrest, hsum]
    · next hmark =>
      have hcount : (i + 1) / k = i / k := Nat.succ_div_of_not_dvd fun h => hmark (Nat.mod_eq_zero_of_dvd h)
      rw [← hcount, hrest, hsum]

theorem verifyVdf_computeVdf {inputHex : String} (hin : fromHex inputHex = x.toList) (t : Nat) :
    verifyVdf H inputHex t (computeVdf H inputHex t).output (computeVdf H inputHex t).checkpoints = true := by
  rw [computeVdf_eq hin]
  have hmarks : (marks H x (checkpointInterval t) 0 (t / checkpointInterval t)).map text =
      (marks H x (checkpointInterval t) 0 ((0 + t) / checkpointInterval t)).map text := by
    rw [Nat.zero_add]
  have hloop := verifyLoop_eq (checkpointInterval_pos t) t 0 hmarks
  simp only [Nat.zero_div, Nat.zero_add, compute_vdf] at hloop
  unfold verifyVdf
  rw [hin]
  simp [hloop, text]

/-! ## What the contract makes of it -/

/-- Segments of the wrong length are taken only where the chain repeats. -/
theorem verify_segments_marks {seg k : Nat} (h : compute_vdf H x seg = compute_vdf H x k) (a n : Nat) :
    verify_segments H seg (compute_vdf H x (a * k)) (marks H x k a n) =
      some (compute_vdf H x ((a + n) * k)) := by
  induction n generalizing a with
  | zero => rfl
  | succ n ih =>
    have hseg : compute_vdf H (compute_vdf H x (a * k)) seg = compute_vdf H x ((a + 1) * k) := by
      rw [← compute_vdf_add, Nat.add_comm, compute_vdf_add, h, ← compute_vdf_add]
      congr 1
      ring
    rw [marks_succ]
    unfold verify_segments
    rw [if_pos hseg, ih]
    congr 3
    omega

theorem verify_segments_marks_none {seg k : Nat} (h : compute_vdf H x seg ≠ compute_vdf H x k) (n : Nat) :
    verify_segments H seg x (marks H x k 0 (n + 1)) = none := by
  rw [marks_succ]
  unfold verify_segments
  rw [Nat.zero_add, Nat.one_mul, if_neg h]

/-- Sixteen checkpoints, and the contract divides by one more. -/
theorem accepted_iff_repeats {t : Nat} (hmin : MIN_VDF_ITERATIONS ≤ t) :
    verify_vdf H x t (compute_vdf H x t) (marks H x (checkpointInterval t) 0 (t / checkpointInterval t)) = true ↔
      compute_vdf H x (t / 17) = compute_vdf H x (t / 16) := by
  unfold MIN_VDF_ITERATIONS at hmin
  have hk : checkpointInterval t = t / 16 := by
    unfold checkpointInterval
    omega
  have hcount : t / (t / 16) = 16 := by
    apply Nat.div_eq_of_lt_le <;> omega
  rw [hk, hcount]
  unfold verify_vdf
  have hseg : t / 17 ≠ 0 := by omega
  have hrest : t - 16 * (t / 17) ≠ 0 := by omega
  simp only [length_marks, if_neg hseg, if_neg hrest, OfNat.ofNat_ne_zero, if_false]
  constructor
  · intro haccepted
    by_contra hne
    rw [verify_segments_marks_none hne] at haccepted
    cases haccepted
  · intro heq
    have hsegments := verify_segments_marks heq 0 16
    rw [Nat.zero_mul, Nat.zero_add] at hsegments
    rw [show compute_vdf H x 0 = x from rfl] at hsegments
    -- The last segment starts a whole number of periods late.
    have hlast := compute_vdf_repeats (by omega) heq 16 (t - t / 17)
    have hend : t / 17 + (t - t / 17) = t := by omega
    have hstart : 16 * (t / 16) + (t - 16 * (t / 17)) = t + 16 * (t / 16 - t / 17) := by omega
    rw [hend] at hlast
    simp only [hsegments]
    rw [decide_eq_true_iff, ← compute_vdf_add, hstart, hlast]

/-- The contract takes the backend's result just where the hash chain of the input is back at its
step `t / 17` after `t / 16` steps. -/
theorem backend_vdf_accepted_iff (H : Hashes) (x : BytesN 32) (inputHex : String) (t : Nat)
    (hin : fromHex inputHex = x.toList) (hmin : MIN_VDF_ITERATIONS ≤ t) (_hmax : t ≤ MAX_VDF_ITERATIONS) :
    (∃ y checkpoints, onChain (computeVdf H inputHex t) = some (y, checkpoints) ∧
      verify_vdf H x t y checkpoints = true) ↔
      compute_vdf H x (t / 17) = compute_vdf H x (t / 16) := by
  rw [onChain_computeVdf hin, ← accepted_iff_repeats hmin]
  simp

/-- SHA-256 itself. -/
def sha256Host : Hashes where
  sha256 := Lib.sha256
  poseidon := fun _ a b => a + b

def zeroInput : BytesN 32 := Vector.replicate 32 0

theorem backend_vdf_accepted_iff_on_zero :
    (∃ y checkpoints, onChain (computeVdf sha256Host (toHex zeroInput.toList) 1000) = some (y, checkpoints) ∧
      verify_vdf sha256Host zeroInput 1000 y checkpoints = true) ↔
      compute_vdf sha256Host zeroInput (1000 / 17) = compute_vdf sha256Host zeroInput (1000 / 16) :=
  backend_vdf_accepted_iff sha256Host zeroInput (toHex zeroInput.toList) 1000 (by simp) (by decide) (by decide)

-- the chain is run in pieces of about fifteen hashes
theorem zero_chain_15 : compute_vdf sha256Host zeroInput 15 =
    #v[0x21, 0x67, 0xa4, 0xac, 0x26, 0x9f, 0x9e, 0x6b, 0xba, 0x82, 0x51, 0x8e, 0x22, 0x24, 0x8c, 0xd9,
      0x97, 0xec, 0xf0, 0x48, 0x13, 0x4e, 0x7f, 0x38, 0xec, 0x73, 0xee, 0x00, 0x84, 0x23, 0xe1, 0x53] := by
  decide +kernel

theorem zero_chain_30 : compute_vdf sha256Host zeroInput 30 =
    #v[0x52, 0xb6, 0xfe, 0x13, 0x0f, 0x75, 0x24, 0x8c, 0xb4, 0xf9, 0x39, 0x1b, 0x77, 0x6d, 0x0a, 0x1c,
      0x0d, 0xe1, 0xab, 0x6e, 0x16, 0x09, 0x43, 0xc6, 0x94, 0x82, 0x71, 0x68, 0x1e, 0x13, 0x92, 0xa1] := by
  rw [show 30 = 15 + 15 from rfl, compute_vdf_add, zero_chain_15]
  decide +kernel

theorem zero_chain_44 : compute_vdf sha256Host zeroInput 44 =
    #v[0xc4, 0xf6, 0xb8, 0x0d, 0x25, 0x71, 0x3e, 0x5a, 0xed, 0x32, 0x29, 0x7e, 0xd9, 0x8a, 0xb6, 0x2c,
      0xbc, 0xb6, 0x8c, 0x7d, 0x9c, 0x44, 0xcd, 0xe1, 0x15, 0xd5, 0x75, 0xd3, 0x6c, 0xa1, 0xa4, 0x96] := by
  rw [show 44 = 30 + 14 from rfl, compute_vdf_add, zero_chain_30]
  decide +kernel

theorem zero_chain_58 : compute_vdf sha256Host zeroInput 58 =
    #v[0xe4, 0x8c, 0xd5, 0xf0, 0xf9, 0x93, 0xc0, 0xa6, 0xb3, 0xca, 0xad, 0xbd, 0x93, 0x7a, 0x96, 0x33,
      0xe3, 0xb3, 0x09, 0xe9, 0x48, 0xc2, 0xd7, 0x15, 0xd6, 0x60, 0xfe, 0x97, 0x26, 0x1b, 0xe3, 0xf5] := by
  rw [show 58 = 44 + 14 from rfl, compute_vdf_add, zero_chain_44]
  decide +kernel

theorem zero_chain_62 : compute_vdf sha256Host zeroInput 62 ≠ compute_vdf sha256Host zeroInput 58 := by
  rw [show 62 = 58 + 4 from rfl, compute_vdf_add, zero_chain_58]
  decide +kernel

/-- A thousand steps from 32 zero bytes: the backend's first checkpoint is step 62, and the contract
looks for it at step 58. -/
theorem backend_vdf_refused : ¬ ∃ y checkpoints,
    onChain (computeVdf sha256Host (toHex zeroInput.toList) 1000) = some (y, checkpoints) ∧
      verify_vdf sha256Host zeroInput 1000 y checkpoints = true := by
  rw [onChain_computeVdf (fromHex_toHex _)]
  intro ⟨y, checkpoints, hcomputed, haccepted⟩
  cases hcomputed
  exact zero_chain_62 ((accepted_iff_repeats (by decide)).mp haccepted).symm

end ZkVote.Vdf

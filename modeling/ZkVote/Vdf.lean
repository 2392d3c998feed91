import ZkVote.Host

/-!
# The verifiable delay function

`contracts/vdf/src/lib.rs`: a chain of SHA-256, checked segment by segment.
-/

open Lib

namespace ZkVote.Vdf

def MIN_VDF_ITERATIONS : Nat := 1000
def MAX_VDF_ITERATIONS : Nat := 10000000

def compute_vdf (H : Hashes) (x : BytesN 32) : Nat → BytesN 32
  | 0 => x
  | t + 1 => H.sha256 (compute_vdf H x t).toList

/-- The loop over the checkpoints: the last one reached, unless a segment fails. -/
def verify_segments (H : Hashes) (seg_size : Nat) (prev : BytesN 32) :
    List (BytesN 32) → Option (BytesN 32)
  | [] => some prev
  | expected :: checkpoints =>
    if compute_vdf H prev seg_size = expected then verify_segments H seg_size expected checkpoints
    else none

def verify_vdf (H : Hashes) (x : BytesN 32) (t : Nat) (y : BytesN 32) (checkpoints : List (BytesN 32)) :
    Bool :=
  let num_checkpoints := checkpoints.length
  if num_checkpoints = 0 then compute_vdf H x t = y
  else
    let seg_size := t / (num_checkpoints + 1)
    if seg_size = 0 then false
    else
      match verify_segments H seg_size x checkpoints with
      | none => false
      | some prev =>
        let remaining := t - num_checkpoints * seg_size
        if remaining = 0 then prev = y else compute_vdf H prev remaining = y

/-- The outer loop: `n` more checkpoints, each a segment after the one before. -/
def checkpoints_from (H : Hashes) (seg_size : Nat) (current : BytesN 32) : Nat → List (BytesN 32)
  | 0 => []
  | n + 1 =>
    let next := compute_vdf H current seg_size
    next :: checkpoints_from H seg_size next n

/-- `none` where the number of segments does not fit in 32 bits. -/
def create_checkpoints (H : Hashes) (x : BytesN 32) (t num_checkpoints : Nat) : Option (List (BytesN 32)) :=
  if num_checkpoints = 0 ∨ t = 0 then some []
  else do
    let segments ← Outcome.checkedAdd 32 num_checkpoints 1
    return checkpoints_from H (t / segments) x num_checkpoints

/-- `SHA256(dao_id || proposal_id || creation_block_hash || admin_seed)`. -/
def derive_vdf_input (H : Hashes) (dao_id proposal_id : Nat) (creation_block_hash admin_seed : BytesN 32) :
    BytesN 32 :=
  H.sha256 (toBeBytes 8 dao_id ++ toBeBytes 8 proposal_id ++ creation_block_hash.toList ++
    admin_seed.toList)

/-! ## What the check says -/

variable {H : Hashes} {x y : BytesN 32}

theorem compute_vdf_add (m n : Nat) :
    compute_vdf H x (m + n) = compute_vdf H (compute_vdf H x m) n := by
  induction n with
  | zero => rfl
  | succ n ih =>
    rw [← Nat.add_assoc]
    unfold compute_vdf
    rw [ih]

theorem verify_segments_eq_some {seg_size : Nat} {prev last : BytesN 32} {checkpoints : List (BytesN 32)}
    (h : verify_segments H seg_size prev checkpoints = some last) :
    last = compute_vdf H prev (checkpoints.length * seg_size) := by
  induction checkpoints generalizing prev with
  | nil =>
    rw [List.length_nil, Nat.zero_mul]
    exact (Option.some.inj h).symm
  | cons expected checkpoints ih =>
    unfold verify_segments at h
    split at h
    · next hexpected =>
      rw [ih h, ← hexpected, ← compute_vdf_add, List.length_cons, Nat.succ_mul, Nat.add_comm]
    · cases h

/-- The segments before the last one are no longer than the chain. -/
theorem segments_le (t n : Nat) : n * (t / (n + 1)) ≤ t :=
  (Nat.mul_le_mul_right _ (Nat.le_succ n)).trans (Nat.mul_div_le t (n + 1))

/-- What passes is the end of the chain, whatever the checkpoints are. -/
theorem compute_vdf_of_verify_vdf {t : Nat} {checkpoints : List (BytesN 32)}
    (h : verify_vdf H x t y checkpoints = true) : compute_vdf H x t = y := by
  unfold verify_vdf at h
  dsimp only at h
  split at h
  · exact of_decide_eq_true h
  split at h
  · cases h
  split at h
  · cases h
  next prev hprev =>
    have hle := segments_le t checkpoints.length
    have hlast := verify_segments_eq_some hprev
    have hsplit : compute_vdf H prev (t - checkpoints.length * (t / (checkpoints.length + 1))) = compute_vdf H x t := by
      rw [hlast, ← compute_vdf_add, Nat.add_sub_cancel' hle]
    rw [← hsplit]
    split at h
    · next hzero =>
      rw [hzero]
      exact of_decide_eq_true h
    · exact of_decide_eq_true h

/-! ## What the check accepts -/

theorem length_checkpoints_from (H : Hashes) (seg_size : Nat) (x : BytesN 32) (n : Nat) :
    (checkpoints_from H seg_size x n).length = n := by
  induction n generalizing x with
  | zero => rfl
  | succ n ih => rw [checkpoints_from, List.length_cons, ih]

/-- Each segment that was made passes, and the last checkpoint is as far along as they all reach. -/
theorem verify_segments_checkpoints_from (H : Hashes) (seg_size : Nat) (x : BytesN 32) (n : Nat) :
    verify_segments H seg_size x (checkpoints_from H seg_size x n) = some (compute_vdf H x (n * seg_size)) := by
  induction n generalizing x with
  | zero =>
    rw [Nat.zero_mul]
    rfl
  | succ n ih =>
    rw [checkpoints_from, verify_segments, if_pos rfl, ih, ← compute_vdf_add, Nat.succ_mul, Nat.add_comm]

theorem verify_vdf_checkpoints_from (H : Hashes) (x : BytesN 32) {t n : Nat} (hn : n < t) :
    verify_vdf H x t (compute_vdf H x t) (checkpoints_from H (t / (n + 1)) x n) = true := by
  have hpos : t / (n + 1) ≠ 0 := (Nat.div_pos hn (Nat.succ_pos n)).ne'
  have hle := segments_le t n
  unfold verify_vdf
  simp only [length_checkpoints_from, verify_segments_checkpoints_from, hpos, if_false, decide_true]
  split
  · rfl
  have hrest : compute_vdf H (compute_vdf H x (n * (t / (n + 1)))) (t - n * (t / (n + 1))) = compute_vdf H x t := by
    rw [← compute_vdf_add, Nat.add_sub_cancel' hle]
  split
  · next hzero =>
    rw [hzero] at hrest
    exact decide_eq_true hrest
  · exact decide_eq_true hrest

/-- Sound for every delay and all checkpoints, and complete for every number of checkpoints below the delay. -/
structure SoundAndComplete (H : Hashes) (x : BytesN 32) : Prop where
  sound : ∀ t y checkpoints, 1 ≤ t → verify_vdf H x t y checkpoints = true → y = compute_vdf H x t
  complete : ∀ t n, 1 ≤ t → n < t → n + 1 < 2 ^ 32 → ∃ checkpoints, create_checkpoints H x t n = some checkpoints ∧
    checkpoints.length = n ∧ verify_vdf H x t (compute_vdf H x t) checkpoints = true

theorem vdf_sound_and_complete (H : Hashes) (x : BytesN 32) : SoundAndComplete H x where
  sound _ _ _ _ h := (compute_vdf_of_verify_vdf h).symm
  complete t n ht hn hfits := by
    refine ⟨checkpoints_from H (t / (n + 1)) x n, ?_, length_checkpoints_from H _ x n,
      verify_vdf_checkpoints_from H x hn⟩
    unfold create_checkpoints
    split
    · next hnone =>
      obtain rfl := hnone.resolve_right (by omega)
      rfl
    · rw [Outcome.checkedAdd, if_pos hfits]
      rfl

end ZkVote.Vdf

import Mathlib.Data.List.Nodup
import ZkVote.Lib.Bytes
import ZkVote.Lib.Outcome
import ZkVote.Lib.Sha256

/-!
# The vote aggregator

`crates/nova-aggregator/src`: `circuit.rs`, `aggregator.rs` and `lib.rs`. The backend builds it for
development, where an overflow panics.
-/

open Lib Lib.Outcome

namespace ZkVote.Nova

inductive CircuitError where
  | InvalidMerklePath | InvalidNullifier | InvalidVoteChoice | RootMismatch | NullifierAlreadyAccumulated
  deriving DecidableEq, Repr

structure IvcState where
  step_count : UInt64
  root : String
  yes_votes : UInt64
  no_votes : UInt64
  acc_nullifier_hash : String
  deriving DecidableEq, Repr

def zeroHex : String := "0x0000000000000000000000000000000000000000000000000000000000000000"

/-- `IvcState::default()`. -/
def IvcState.default : IvcState where
  step_count := 0
  root := zeroHex
  yes_votes := 0
  no_votes := 0
  acc_nullifier_hash := zeroHex

structure VoteWitness where
  secret : String
  salt : String
  path_elements : List String
  path_indices : List UInt8
  vote_choice : UInt8
  nullifier : String
  dao_id : UInt64
  proposal_id : UInt64
  deriving DecidableEq, Repr

structure RecursiveProofPayload where
  initial_state : IvcState
  final_state : IvcState
  num_votes : UInt64
  proof_bytes : String
  timestamp : UInt64
  deriving DecidableEq, Repr

structure TallyProof where
  root : String
  yes_votes : UInt64
  no_votes : UInt64
  acc_nullifier_hash : String
  proof_bytes : String
  deriving DecidableEq, Repr

def TallyProof.from_payload (payload : RecursiveProofPayload) : TallyProof where
  root := payload.final_state.root
  yes_votes := payload.final_state.yes_votes
  no_votes := payload.final_state.no_votes
  acc_nullifier_hash := payload.final_state.acc_nullifier_hash
  proof_bytes := payload.proof_bytes

def as_bytes (s : String) : Bytes := utf8 s

/-- `starts_with`. -/
def starts_with (s start : String) : Bool := (as_bytes start).isPrefixOf (as_bytes s)

/-- `to_be_bytes`. -/
def be (n : UInt64) : Bytes := toBeBytes 8 n.toNat

def addU64 {ε : Type} (a b : UInt64) : Outcome ε UInt64 :=
  if a.toNat + b.toNat < 2 ^ 64 then .ok (a + b) else trap

/-! ## The step circuit -/

variable (sha256 : Bytes → BytesN 32)

/-- `format!("0x{}", hex::encode(..))`. -/
def hexHash (message : Bytes) : String := "0x" ++ toHex (sha256 message).toList

def poseidon_hash_2 (a b : String) : String := hexHash sha256 (as_bytes a ++ as_bytes b)

def poseidon_hash_3 (a b c : String) : String := hexHash sha256 (as_bytes a ++ as_bytes b ++ as_bytes c)

def compute_commitment (secret salt : String) : String := poseidon_hash_2 sha256 secret salt

def compute_nullifier (secret : String) (dao_id proposal_id : UInt64) : String :=
  poseidon_hash_3 sha256 secret (toString dao_id.toNat) (toString proposal_id.toNat)

/-- The path from a leaf upwards. -/
def climb (current : String) : List (String × UInt8) → String
  | [] => current
  | (sibling, index) :: path =>
    if index = 0 then climb (poseidon_hash_2 sha256 current sibling) path
    else climb (poseidon_hash_2 sha256 sibling current) path

def verify_merkle_proof (leaf : String) (path_elements : List String) (path_indices : List UInt8)
    (root : String) : Bool :=
  if path_elements.length ≠ path_indices.length then false
  else if starts_with root "0x0" || starts_with root "0xroot" || root == "0x1234" then true
  else climb sha256 leaf (path_elements.zip path_indices) == root

def step (state : IvcState) (witness : VoteWitness) : Outcome CircuitError IvcState := do
  require (witness.vote_choice ≤ 1) .InvalidVoteChoice
  let commitment := compute_commitment sha256 witness.secret witness.salt
  require (verify_merkle_proof sha256 commitment witness.path_elements witness.path_indices state.root = true)
    .InvalidMerklePath
  let expected_nullifier := compute_nullifier sha256 witness.secret witness.dao_id witness.proposal_id
  require (witness.nullifier = expected_nullifier) .InvalidNullifier
  let new_acc_nullifier := poseidon_hash_2 sha256 state.acc_nullifier_hash expected_nullifier
  let new_yes ← if witness.vote_choice = 1 then addU64 state.yes_votes 1 else pure state.yes_votes
  let new_no ← if witness.vote_choice = 1 then pure state.no_votes else addU64 state.no_votes 1
  let step_count ← addU64 state.step_count 1
  -- Both branches on the root in the source keep it.
  return { step_count := step_count, root := state.root, yes_votes := new_yes, no_votes := new_no
           acc_nullifier_hash := new_acc_nullifier }

/-! ## The aggregator -/

/-- The loop of `aggregate_batch`, with the nullifiers of this batch seen so far. -/
def fold_batch (seen_nullifiers : List String) (state : IvcState) :
    List VoteWitness → Outcome CircuitError IvcState
  | [] => .ok state
  | witness :: witnesses => do
    require (witness.nullifier ∉ seen_nullifiers) .NullifierAlreadyAccumulated
    let state ← step sha256 state witness
    fold_batch (witness.nullifier :: seen_nullifiers) state witnesses

/-- What `compress_proof` hashes. -/
def proofMessage (initial_state final_state : IvcState) (num_votes : UInt64) : Bytes :=
  as_bytes "NOVA_IVC_PROOF_V1" ++ (as_bytes initial_state.root ++ (as_bytes final_state.root ++
    (be initial_state.step_count ++ (be final_state.step_count ++ (be final_state.yes_votes ++
      (be final_state.no_votes ++ (as_bytes final_state.acc_nullifier_hash ++ be num_votes)))))))

def compress_proof (initial_state final_state : IvcState) (num_votes : UInt64) : String :=
  hexHash sha256 (proofMessage initial_state final_state num_votes)

def aggregate_batch (initial_state : IvcState) (witnesses : List VoteWitness) (now : UInt64) :
    Outcome CircuitError RecursiveProofPayload := do
  let num_votes := UInt64.ofNat witnesses.length
  let final_state ← fold_batch sha256 [] initial_state witnesses
  return { initial_state := initial_state, final_state := final_state, num_votes := num_votes
           proof_bytes := compress_proof sha256 initial_state final_state num_votes, timestamp := now }

def verify_proof (payload : RecursiveProofPayload) : Outcome CircuitError Bool := do
  let expected ← addU64 payload.initial_state.step_count payload.num_votes
  if payload.final_state.step_count ≠ expected then return false
  return payload.proof_bytes == compress_proof sha256 payload.initial_state payload.final_state payload.num_votes

/-- The payload that `verify_tally_proof` puts together. -/
def rebuilt (tally : TallyProof) (num_votes : UInt64) : RecursiveProofPayload where
  initial_state := .default
  final_state :=
    { IvcState.default with
      root := tally.root
      yes_votes := tally.yes_votes
      no_votes := tally.no_votes
      acc_nullifier_hash := tally.acc_nullifier_hash }
  num_votes := num_votes
  proof_bytes := tally.proof_bytes
  timestamp := 0

def verify_tally_proof (tally : TallyProof) : Outcome String Unit := do
  let num_votes ← addU64 tally.yes_votes tally.no_votes
  let payload := rebuilt tally num_votes
  require (payload.proof_bytes ≠ "") "Empty proof"
  require (payload.num_votes ≠ 0) "Tally proof contains no votes"

end ZkVote.Nova

/-!
## Chains of batches

Batches that start where the one before ended, against one batch of all their votes.
-/

namespace ZkVote.Nova

variable {sha256 : Bytes → BytesN 32}

/-- The votes alone, folded one by one. -/
def foldSteps (sha256 : Bytes → BytesN 32) (state : IvcState) : List VoteWitness → Outcome CircuitError IvcState
  | [] => .ok state
  | witness :: witnesses => do
    let state ← step sha256 state witness
    foldSteps sha256 state witnesses

/-- One call of `aggregate_batch` after the other, each from the final state of the one before. Every
batch comes with the time it is made at. -/
def aggregateChain (sha256 : Bytes → BytesN 32) (state : IvcState) :
    List (List VoteWitness × UInt64) → Outcome CircuitError IvcState
  | [] => .ok state
  | (witnesses, now) :: batches => do
    let payload ← aggregate_batch sha256 state witnesses now
    aggregateChain sha256 payload.final_state batches

def nullifiers (witnesses : List VoteWitness) : List String := witnesses.map VoteWitness.nullifier

/-- All the votes of a chain. -/
def votesOf (batches : List (List VoteWitness × UInt64)) : List VoteWitness := (batches.map Prod.fst).flatten

/-- No nullifier counts twice in the chain, and it comes to what one batch comes to. -/
structure FoldsAsOne (sha256 : Bytes → BytesN 32) (state : IvcState) (batches : List (List VoteWitness × UInt64)) :
    Prop where
  once : ∀ final, aggregateChain sha256 state batches = .ok final → (nullifiers (votesOf batches)).Nodup
  split : ∀ final now, aggregateChain sha256 state batches = .ok final ↔
    ∃ payload, aggregate_batch sha256 state (votesOf batches) now = .ok payload ∧ payload.final_state = final

/-- Every vote passes its step, and no batch has a nullifier twice. -/
def EachBatchSound (sha256 : Bytes → BytesN 32) (state : IvcState) (batches : List (List VoteWitness × UInt64)) :
    Prop :=
  (∃ final, foldSteps sha256 state (votesOf batches) = .ok final) ∧ ∀ batch ∈ batches, (nullifiers batch.1).Nodup

/-- No two batches have a nullifier in common. -/
def NoneShared (batches : List (List VoteWitness × UInt64)) : Prop :=
  batches.Pairwise fun a b => List.Disjoint (nullifiers a.1) (nullifiers b.1)

/-! ### One batch -/

variable {state final : IvcState} {batches : List (List VoteWitness × UInt64)}

theorem fold_batch_ok {seen : List String} {witnesses : List VoteWitness} :
    fold_batch sha256 seen state witnesses = .ok final ↔
      foldSteps sha256 state witnesses = .ok final ∧ (nullifiers witnesses).Nodup ∧
        ∀ n ∈ nullifiers witnesses, n ∉ seen := by
  induction witnesses generalizing seen state with
  | nil => simp [fold_batch, foldSteps, nullifiers]
  | cons witness witnesses ih =>
    unfold fold_batch foldSteps
    simp only [bind_eq_ok, require_eq_ok, ih]
    simp only [nullifiers, List.map_cons, List.nodup_cons, List.forall_mem_cons]
    simp only [List.mem_cons, not_or]
    constructor
    · rintro ⟨_, hnew, next, hnext, hsteps, hnodup, hseen⟩
      exact ⟨⟨next, hnext, hsteps⟩, ⟨fun hmem => (hseen _ hmem).1 rfl, hnodup⟩, hnew, fun n hn => (hseen n hn).2⟩
    · rintro ⟨⟨next, hnext, hsteps⟩, ⟨hfirst, hnodup⟩, hnew, hseen⟩
      refine ⟨(), hnew, next, hnext, hsteps, hnodup, fun n hn => ⟨?_, hseen n hn⟩⟩
      intro heq
      rw [heq] at hn
      exact hfirst hn

theorem aggregate_batch_ok {witnesses : List VoteWitness} {now : UInt64} {payload : RecursiveProofPayload} :
    aggregate_batch sha256 state witnesses now = .ok payload ↔
      ∃ final, foldSteps sha256 state witnesses = .ok final ∧ (nullifiers witnesses).Nodup ∧
        payload =
          { initial_state := state
            final_state := final
            num_votes := UInt64.ofNat witnesses.length
            proof_bytes := compress_proof sha256 state final (UInt64.ofNat witnesses.length)
            timestamp := now } := by
  unfold aggregate_batch
  simp only [bind_eq_ok, pure_eq_ok, fold_batch_ok]
  constructor
  · rintro ⟨final, ⟨hsteps, hnodup, -⟩, rfl⟩
    exact ⟨final, hsteps, hnodup, rfl⟩
  · rintro ⟨final, hsteps, hnodup, rfl⟩
    exact ⟨final, ⟨hsteps, hnodup, by simp⟩, rfl⟩

theorem foldSteps_append (first rest : List VoteWitness) :
    foldSteps sha256 state (first ++ rest) = .ok final ↔
      ∃ middle, foldSteps sha256 state first = .ok middle ∧ foldSteps sha256 middle rest = .ok final := by
  induction first generalizing state with
  | nil => simp [foldSteps]
  | cons witness first ih =>
    rw [List.cons_append]
    simp only [foldSteps, bind_eq_ok, ih]
    constructor
    · rintro ⟨next, hnext, middle, hfirst, hrest⟩
      exact ⟨middle, ⟨next, hnext, hfirst⟩, hrest⟩
    · rintro ⟨middle, ⟨next, hnext, hfirst⟩, hrest⟩
      exact ⟨next, hnext, middle, hfirst, hrest⟩

/-! ### A chain -/

theorem aggregateChain_ok :
    aggregateChain sha256 state batches = .ok final ↔
      foldSteps sha256 state (votesOf batches) = .ok final ∧ ∀ batch ∈ batches, (nullifiers batch.1).Nodup := by
  induction batches generalizing state with
  | nil => simp [aggregateChain, votesOf, foldSteps]
  | cons batch batches ih =>
    obtain ⟨witnesses, now⟩ := batch
    have hvotes : votesOf ((witnesses, now) :: batches) = witnesses ++ votesOf batches := rfl
    unfold aggregateChain
    simp only [bind_eq_ok, aggregate_batch_ok, ih, hvotes, foldSteps_append, List.forall_mem_cons]
    constructor
    · rintro ⟨payload, ⟨middle, hfirst, hnodup, rfl⟩, hrest, hothers⟩
      exact ⟨⟨middle, hfirst, hrest⟩, hnodup, hothers⟩
    · rintro ⟨⟨middle, hfirst, hrest⟩, hnodup, hothers⟩
      exact ⟨_, ⟨middle, hfirst, hnodup, rfl⟩, hrest, hothers⟩

theorem nodup_votesOf :
    (nullifiers (votesOf batches)).Nodup ↔ (∀ batch ∈ batches, (nullifiers batch.1).Nodup) ∧ NoneShared batches := by
  unfold nullifiers votesOf NoneShared
  rw [List.map_flatten, List.nodup_flatten, List.map_map, List.forall_mem_map, List.pairwise_map]
  rfl

/-- A chain folds as one batch does exactly if no two of its batches have a nullifier in common, or it
is rejected for another reason. -/
theorem folds_as_one_iff (sha256 : Bytes → BytesN 32) (state : IvcState) (batches : List (List VoteWitness × UInt64)) :
    FoldsAsOne sha256 state batches ↔ (EachBatchSound sha256 state batches → NoneShared batches) := by
  constructor
  · rintro ⟨honce, -⟩ ⟨⟨final, hsteps⟩, heach⟩
    exact (nodup_votesOf.mp (honce final (aggregateChain_ok.mpr ⟨hsteps, heach⟩))).2
  · intro hnone
    have hnodup : ∀ final, aggregateChain sha256 state batches = .ok final → (nullifiers (votesOf batches)).Nodup := by
      intro final hchain
      obtain ⟨hsteps, heach⟩ := aggregateChain_ok.mp hchain
      exact nodup_votesOf.mpr ⟨heach, hnone ⟨⟨final, hsteps⟩, heach⟩⟩
    refine ⟨hnodup, fun final now => ⟨fun hchain => ?_, ?_⟩⟩
    · exact ⟨_, aggregate_batch_ok.mpr ⟨final, (aggregateChain_ok.mp hchain).1, hnodup final hchain, rfl⟩, rfl⟩
    · rintro ⟨payload, hbatch, rfl⟩
      obtain ⟨final, hsteps, hnodup, rfl⟩ := aggregate_batch_ok.mp hbatch
      exact aggregateChain_ok.mpr ⟨hsteps, (nodup_votesOf.mp hnodup).1⟩

/-- A vote that is cast with the secret, under a test root. -/
def sampleVote (secret : String) (choice : UInt8) : VoteWitness where
  secret := secret
  salt := "salt"
  path_elements := []
  path_indices := []
  vote_choice := choice
  nullifier := compute_nullifier Lib.sha256 secret 1 10
  dao_id := 1
  proposal_id := 10

/-- One vote in two batches: the chain takes it twice, and one batch would not take it. -/
theorem vote_twice_in_two_batches : ¬ FoldsAsOne Lib.sha256 .default
    [([sampleVote "s" 1], 0), ([sampleVote "s" 1], 0)] := by
  have hfolds : (foldSteps Lib.sha256 .default [sampleVote "s" 1, sampleVote "s" 1]).isOk = true := by
    decide +kernel
  rintro ⟨honce, -⟩
  obtain ⟨final, hfinal⟩ := isOk_iff.mp hfolds
  have hchain := honce final (aggregateChain_ok.mpr ⟨hfinal, by simp [nullifiers]⟩)
  simp [votesOf, nullifiers] at hchain

end ZkVote.Nova

import ZkVote.Lib.BigInt
import ZkVote.Lib.Sha256
import ZkVote.Voting.Commitments

/-!
# The backend's vote commitments

`computeVoteCommitment` of `backend/src/services/vdf.ts`, which makes the
commitments that the contract opens. Its numbers are whole ones.
-/

open Lib

namespace ZkVote.VoteCommitment

def VOTE_COMMIT_DOMAIN : String := "ZKVOTE-COMMIT-V1"

def MIN_BLINDING_BYTES : Nat := 32

inductive JsError where
  | Error (message : String)
  | SyntaxError
  | RangeError
deriving DecidableEq

/-- `writeBigUInt64BE` and `writeUInt32BE`, into a buffer of `w` bytes. -/
def writeUIntBE (w : Nat) (value : Int) : Except JsError Bytes :=
  if 0 ≤ value ∧ value < 256 ^ w then .ok (toBeBytes w value.toNat) else .error .RangeError

def shortBlinding (length : Nat) : String :=
  s!"Vote commitment blinding must be at least {MIN_BLINDING_BYTES} bytes; got {length}. " ++
    "A short blinding lets anyone open the commitment by trying every choice."

/-- `nullifierBuf`. -/
def nullifierBytes (nullifier : String) : Except JsError Bytes :=
  match readBigInt nullifier with
  | none => .error .SyntaxError
  | some n =>
    let nullifierBuf := readHex (padStart 64 '0' (toString16 n))
    if nullifierBuf.length ≠ 32 then
      .error (.Error s!"Nullifier must encode to exactly 32 bytes; got {nullifierBuf.length}.")
    else .ok nullifierBuf

/-- What `computeVoteCommitment` hashes. -/
def voteCommitmentInput (daoId proposalId : Int) (nullifier : String) (choice : Int) (blindingHex : String) :
    Except JsError Bytes := do
  let blinding := fromHex blindingHex
  if blinding.length < MIN_BLINDING_BYTES then throw (.Error (shortBlinding blinding.length))
  let daoBuf ← writeUIntBE 8 daoId
  let proposalBuf ← writeUIntBE 8 proposalId
  let nullifierBuf ← nullifierBytes nullifier
  let choiceBuf ← writeUIntBE 4 choice
  return utf8 VOTE_COMMIT_DOMAIN ++ daoBuf ++ proposalBuf ++ nullifierBuf ++ choiceBuf ++ blinding

def computeVoteCommitment (sha256 : Bytes → BytesN 32) (daoId proposalId : Int) (nullifier : String) (choice : Int)
    (blindingHex : String) : Except JsError String := do
  let input ← voteCommitmentInput daoId proposalId nullifier choice blindingHex
  return toHex (sha256 input).toList

theorem writeUIntBE_of_lt {w n : Nat} (h : n < 256 ^ w) : writeUIntBE w n = .ok (toBeBytes w n) := by
  unfold writeUIntBE
  have hint : (n : Int) < 256 ^ w := by exact_mod_cast h
  rw [if_pos ⟨Int.natCast_nonneg n, hint⟩, Int.toNat_natCast]

theorem domain_eq : utf8 VOTE_COMMIT_DOMAIN = Voting.COMMIT_DOMAIN := by decide +kernel

/-- The text and the digits stand for the nullifier and the blinding of the opening. -/
structure Denotes (nullifier blindingHex : String) (o : Voting.Opening) : Prop where
  nullifier : readBigInt nullifier = some (o.nullifier : Int)
  blinding : fromHex blindingHex = o.blinding

theorem nullifierBytes_of_lt {nullifier : String} {n : Nat} (h : readBigInt nullifier = some (n : Int))
    (hn : n < 2 ^ 256) : nullifierBytes nullifier = .ok (toBeBytes 32 n) := by
  have hpad : padStart 64 '0' (toString16 n) = hexDigits 64 n := padStart_toDigits (by norm_num; exact hn)
  have hread : readHex (hexDigits 64 n) = toBeBytes 32 n := readHex_hexDigits 32 n
  unfold nullifierBytes
  rw [h]
  simp only [hpad, hread, length_toBeBytes, ne_eq, not_true_eq_false, if_false]

theorem voteCommitmentInput_eq {o : Voting.Opening} (hfits : o.Fits) {nullifier blindingHex : String}
    (h : Denotes nullifier blindingHex o) :
    voteCommitmentInput o.dao_id o.proposal_id nullifier (Voting.vote_choice_index o.vote_choice) blindingHex =
      if o.blinding.length < MIN_BLINDING_BYTES then .error (.Error (shortBlinding o.blinding.length))
      else .ok o.input := by
  obtain ⟨hdao, hproposal, hnullifier⟩ := hfits
  have hindex : Voting.vote_choice_index o.vote_choice < 256 ^ 4 := by cases o.vote_choice <;> decide
  unfold voteCommitmentInput
  rw [h.blinding, nullifierBytes_of_lt h.nullifier hnullifier, writeUIntBE_of_lt (by norm_num; exact hdao),
    writeUIntBE_of_lt (by norm_num; exact hproposal), writeUIntBE_of_lt hindex, domain_eq]
  by_cases hshort : o.blinding.length < MIN_BLINDING_BYTES
  · rw [if_pos hshort, if_pos hshort]
    rfl
  · rw [if_neg hshort, if_neg hshort]
    rfl

/-- Every opening can be written down. -/
theorem denotes_repr (o : Voting.Opening) : Denotes (Nat.repr o.nullifier) (toHex o.blinding) o :=
  ⟨readBigInt_repr o.nullifier, fromHex_toHex o.blinding⟩

/-! ## What a commitment is good for -/

/-- A commitment has one opening, the two sides make it of the same bytes, and what it commits is what is counted,
once. -/
structure CommitmentsSound (C : Voting.Crypto) (known : Bytes → Prop) : Prop where
  binding : ∀ o o' : Voting.Opening, o.Fits → o'.Fits → known o.input → known o'.input →
    o.commitment C = o'.commitment C → o = o'
  agreement : ∀ o : Voting.Opening, o.Fits → MIN_BLINDING_BYTES ≤ o.blinding.length →
    ∀ nullifier blindingHex, Denotes nullifier blindingHex o →
      voteCommitmentInput o.dao_id o.proposal_id nullifier (Voting.vote_choice_index o.vote_choice) blindingHex =
          .ok o.input ∧
        computeVoteCommitment C.sha256 o.dao_id o.proposal_id nullifier (Voting.vote_choice_index o.vote_choice)
          blindingHex = .ok (toHex (o.commitment C).toList)
  counting : ∀ registry guardian log s, Voting.VotingRun C registry guardian log s →
    ∀ m ∈ Run.moments log s, ∀ o, m.call.2.reveals = some o → o.Fits → known o.input →
      Voting.RevealsCommitted C known m o

/-- Of every set of messages among which no two have one hash. -/
theorem commitments_sound (C : Voting.Crypto) {known : Bytes → Prop}
    (hinj : ∀ a b, known a → known b → C.sha256 a = C.sha256 b → a = b) : CommitmentsSound C known where
  binding _ _ h h' hknown hknown' heq := Voting.Opening.commitment_injective hinj h h' hknown hknown' heq
  agreement o hfits hlong nullifier blindingHex hdenotes := by
    have hinput := voteCommitmentInput_eq hfits hdenotes
    rw [if_neg (Nat.not_lt.mpr hlong)] at hinput
    refine ⟨hinput, ?_⟩
    unfold computeVoteCommitment
    rw [hinput]
    rfl
  counting _ _ _ _ hrun := Voting.VotingRun.reveals hinj hrun

/-- A vote for and a vote against. -/
def twoVotes (m : Bytes) : Prop := ∃ choice, m = Voting.Opening.input ⟨0, 1, 3, choice, Voting.sampleBlinding⟩

theorem twoVotes_injective : ∀ a b, twoVotes a → twoVotes b → Lib.sha256 a = Lib.sha256 b → a = b := by
  have hne : Lib.sha256 (Voting.Opening.input ⟨0, 1, 3, true, Voting.sampleBlinding⟩) ≠
      Lib.sha256 (Voting.Opening.input ⟨0, 1, 3, false, Voting.sampleBlinding⟩) := by decide +kernel
  rintro a b ⟨choice, rfl⟩ ⟨choice', rfl⟩ h
  cases choice <;> cases choice'
  · rfl
  · exact absurd h.symm hne
  · exact absurd h hne
  · rfl

theorem commitments_sound_for_two_votes :
    CommitmentsSound { Voting.sampleCrypto with sha256 := Lib.sha256 } twoVotes :=
  commitments_sound { Voting.sampleCrypto with sha256 := Lib.sha256 } twoVotes_injective

end ZkVote.VoteCommitment

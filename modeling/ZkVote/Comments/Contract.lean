import ZkVote.Voting.Contract

/-!
# The comments contract

`contracts/comments/src/lib.rs`. A comment is signed by its author, or comes with a
proof of the vote circuit and the nullifier of its author.
-/

open Lib Lib.Outcome

/-! ## What the voting contract tells others -/

namespace ZkVote.Voting

def get_proposal (s : VotingState) (dao_id proposal_id : Nat) : Outcome VotingError ProposalInfo :=
  expect (s.elections dao_id proposal_id).proposal

def get_vote_mode (s : VotingState) (dao_id proposal_id : Nat) : Outcome VotingError VoteMode := do
  let proposal ← get_proposal s dao_id proposal_id
  return proposal.vote_mode

def get_eligible_root (s : VotingState) (dao_id proposal_id : Nat) : Outcome VotingError U256 := do
  let proposal ← get_proposal s dao_id proposal_id
  return proposal.eligible_root

def get_earliest_idx (s : VotingState) (dao_id proposal_id : Nat) : Outcome VotingError Nat := do
  let proposal ← get_proposal s dao_id proposal_id
  return proposal.earliest_root_index

def proposal_count (s : VotingState) (dao_id : Nat) : Nat := (s.daos dao_id).proposal_count

/-- The current key, whatever a proposal has pinned. -/
def get_vk (s : VotingState) (dao_id : Nat) : Outcome VotingError VerificationKey := do
  let version ← orPanic (s.daos dao_id).keys.vk_version .VkNotSet
  get_vk_by_version s dao_id version

def get_vk_bls381 (s : VotingState) (dao_id : Nat) : Outcome VotingError VerificationKeyBls381 := do
  let version ← orPanic (s.daos dao_id).keys.vk_version_bls381 .VkNotSet
  get_vk_by_version_bls381 s dao_id version

end ZkVote.Voting

namespace ZkVote.Comments

open Voting (VerificationKey VerificationKeyBls381 Proof ProofBls381 Crypto PathContext BN254_FR_MODULUS
  BLS12_381_FR_MODULUS)

inductive CommentsError where
  | NotAdmin | Unauthorized | NotDaoMember | CommitmentRevoked | RootNotInHistory | InvalidProof
  | ContractNotSet | AlreadyInitialized | CommentNotFound | CommentDeleted | NotCommentOwner
  | InvalidParentComment | CommentContentTooLong | ProposalNotFound | RootMismatch | RootPredatesProposal
  | SignalNotInField | InvalidNullifier | RootPredatesRemoval
  | InvalidInput | EligibilityFailed | ProofInvalid | AlreadySubmitted | WindowClosed
  | InsufficientFunds | ConfigError
  deriving DecidableEq, Repr

def CommentsError.to_coarse (e : CommentsError) : PathContext → CommentsError
  | .Admin => e
  | .Anonymous =>
    match e with
    | .SignalNotInField | .InvalidNullifier | .CommentContentTooLong | .InvalidParentComment => .InvalidInput
    | .CommitmentRevoked | .RootMismatch | .RootNotInHistory | .RootPredatesProposal
    | .RootPredatesRemoval => .EligibilityFailed
    | .InvalidProof => .ProofInvalid
    | other => other

def panic_coarse (ctx : PathContext) (e : CommentsError) : CommentsError := e.to_coarse ctx

/-- The modes this contract can decode. -/
inductive VoteMode where
  | Fixed | Trailing
  deriving DecidableEq, Repr

def VoteMode.decode : Voting.VoteMode → Option VoteMode
  | .Fixed => some .Fixed
  | .Trailing => some .Trailing
  | .Quadratic => none

def MAX_CID_LEN : Nat := 64
def MAX_REVISIONS : Nat := 50
def DELETED_BY_NONE : Nat := 0
def DELETED_BY_USER : Nat := 1
def DELETED_BY_ADMIN : Nat := 2

structure CommentInfo where
  id : Nat
  dao_id : Nat
  proposal_id : Nat
  author : Option Address := none
  content_cid : Bytes
  parent_id : Option Nat
  created_at : Nat
  updated_at : Nat
  revision_cids : List Bytes := []
  deleted : Bool := false
  deleted_by : Nat := DELETED_BY_NONE
  nullifier : Option U256 := none
  comment_nonce : Option Nat := none

structure CommentsState where
  registry : Address
  /-- By DAO, proposal and comment. -/
  comment : Nat × Nat × Nat → Option CommentInfo := fun _ => none
  comment_count : Nat × Nat → Nat := fun _ => 0

/-- One call, with the voting contract and the tree that both ask. -/
structure CommentsEnv extends Voting.VotingEnv where
  voting : Voting.VotingState

/-- A call to another contract. -/
def invoke {ε α : Type} (x : Outcome ε α) : Outcome CommentsError α :=
  match x with
  | .ok a => .ok a
  | .error _ => trap

@[simp] theorem invoke_eq_ok {ε α : Type} {x : Outcome ε α} {a : α} : invoke x = .ok a ↔ x = .ok a := by
  cases x <;> simp [invoke, trap]

def constructor (registry : Address) : CommentsState where
  registry := registry

/-! ## Checks -/

def assert_in_field (ctx : PathContext) (value : U256) : Outcome CommentsError Unit :=
  require (value < BN254_FR_MODULUS) (panic_coarse ctx .SignalNotInField)

def assert_in_field_bls381 (ctx : PathContext) (value : U256) : Outcome CommentsError Unit :=
  require (value < BLS12_381_FR_MODULUS) (panic_coarse ctx .SignalNotInField)

def get_vk_from_voting (env : CommentsEnv) (dao_id : Nat) : Outcome CommentsError VerificationKey :=
  invoke (Voting.get_vk env.voting dao_id)

def get_vk_from_voting_bls381 (env : CommentsEnv) (dao_id : Nat) : Outcome CommentsError VerificationKeyBls381 :=
  invoke (Voting.get_vk_bls381 env.voting dao_id)

def get_proposal_eligibility (env : CommentsEnv) (dao_id proposal_id : Nat) :
    Outcome CommentsError (VoteMode × U256 × Nat) := do
  let mode ← invoke (Voting.get_vote_mode env.voting dao_id proposal_id)
  let vote_mode ← expect (VoteMode.decode mode)
  let eligible_root ← invoke (Voting.get_eligible_root env.voting dao_id proposal_id)
  let earliest_root_index ← invoke (Voting.get_earliest_idx env.voting dao_id proposal_id)
  return (vote_mode, eligible_root, earliest_root_index)

/-- The answers of the tree as errors. -/
def check_eligibility (env : CommentsEnv) (ctx : PathContext) (dao_id : Nat) (root : U256) (earliest : Nat) :
    Outcome CommentsError Unit :=
  match Tree.root_eligibility env.tree dao_id root earliest with
  | 0 => .ok ()
  | 1 => fail (panic_coarse ctx .RootNotInHistory)
  | 2 => fail (panic_coarse ctx .RootPredatesProposal)
  | _ => fail (panic_coarse ctx .RootPredatesRemoval)

def assert_root_not_revoked (env : CommentsEnv) (ctx : PathContext) (dao_id : Nat) (root : U256) :
    Outcome CommentsError Unit :=
  check_eligibility env ctx dao_id root 0

def validate_root_eligibility (env : CommentsEnv) (ctx : PathContext) (dao_id proposal_id : Nat) (root : U256) :
    Outcome CommentsError Unit := do
  let (vote_mode, eligible_root, earliest_root_index) ← get_proposal_eligibility env dao_id proposal_id
  match vote_mode with
  | .Fixed => do
    require (root = eligible_root) (panic_coarse ctx .RootMismatch)
    assert_root_not_revoked env ctx dao_id root
  | .Trailing => check_eligibility env ctx dao_id root earliest_root_index

def assert_admin (env : CommentsEnv) (s : CommentsState) (dao_id : Nat) (admin : Address) :
    Outcome CommentsError Unit := do
  let dao_admin ← expect (env.get_admin s.registry dao_id)
  require (dao_admin = admin) .NotAdmin

def assert_membership (env : CommentsEnv) (dao_id : Nat) (member : Address) : Outcome CommentsError Unit :=
  require (env.has dao_id member = true) .NotDaoMember

def assert_proposal_exists (env : CommentsEnv) (dao_id proposal_id : Nat) : Outcome CommentsError Unit :=
  let count := Voting.proposal_count env.voting dao_id
  require (¬ (proposal_id = 0 ∨ count < proposal_id)) .ProposalNotFound

def assert_content (err : CommentsError → CommentsError) (content_cid : Bytes) : Outcome CommentsError Unit :=
  require (content_cid.length ≤ MAX_CID_LEN) (err .CommentContentTooLong)

def assert_parent (err : CommentsError → CommentsError) (s : CommentsState) (dao_id proposal_id : Nat)
    (parent_id : Option Nat) : Outcome CommentsError Unit :=
  match parent_id with
  | none => .ok ()
  | some pid => require (s.comment (dao_id, proposal_id, pid) ≠ none) (err .InvalidParentComment)

def next_comment_id (s : CommentsState) (dao_id proposal_id : Nat) :
    Outcome CommentsError (Nat × CommentsState) := do
  let new_id ← expect (checkedAdd 64 (s.comment_count (dao_id, proposal_id)) 1)
  return (new_id,
    { s with comment_count := Function.update s.comment_count (dao_id, proposal_id) new_id })

/-! ## The proof of an anonymous call -/

/-- What the two curves do differently. -/
structure ProofCheck where
  in_field : U256 → Outcome CommentsError Unit
  /-- The key and the proof, as a check on the public signals. -/
  verifier : Outcome CommentsError (List U256 → Bool)

def bn254 (C : Crypto) (env : CommentsEnv) (dao_id : Nat) (proof : Proof) : ProofCheck where
  in_field := assert_in_field .Anonymous
  verifier := do
    let vk ← get_vk_from_voting env dao_id
    return C.verify_groth16 vk proof

def bls381 (C : Crypto) (env : CommentsEnv) (dao_id : Nat) (proof : ProofBls381) : ProofCheck where
  in_field := assert_in_field_bls381 .Anonymous
  verifier := do
    let vk ← get_vk_from_voting_bls381 env dao_id
    return C.verify_groth16_bls381 vk proof

/-- The public signals as this contract lists them. -/
def pub_signals (dao_id proposal_id : Nat) (vote_choice : Bool) (nullifier root : U256) : List U256 :=
  [root, nullifier, dao_id, proposal_id, if vote_choice = true then 1 else 0]

/-- The proposal, the root and the proof, in the order of every anonymous entrypoint. -/
def assert_proof (check : ProofCheck) (env : CommentsEnv) (dao_id proposal_id : Nat) (vote_choice : Bool)
    (nullifier root : U256) : Outcome CommentsError Unit := do
  assert_proposal_exists env dao_id proposal_id
  validate_root_eligibility env .Anonymous dao_id proposal_id root
  let verify ← check.verifier
  require (verify (pub_signals dao_id proposal_id vote_choice nullifier root) = true)
    (panic_coarse .Anonymous .InvalidProof)

/-! ## Comments -/

def write_comment (s : CommentsState) (dao_id proposal_id comment_id : Nat) (comment : CommentInfo) :
    CommentsState :=
  { s with comment := Function.update s.comment (dao_id, proposal_id, comment_id) (some comment) }

def add_comment (env : CommentsEnv) (s : CommentsState) (dao_id proposal_id : Nat) (content_cid : Bytes)
    (parent_id : Option Nat) (author : Address) : Outcome CommentsError (Nat × CommentsState) := do
  require_auth env.toEnv author
  assert_content id content_cid
  assert_membership env dao_id author
  assert_proposal_exists env dao_id proposal_id
  assert_parent id s dao_id proposal_id parent_id
  let (comment_id, s) ← next_comment_id s dao_id proposal_id
  return (comment_id, write_comment s dao_id proposal_id comment_id
    { id := comment_id, dao_id := dao_id, proposal_id := proposal_id, author := some author
      content_cid := content_cid, parent_id := parent_id
      created_at := env.timestamp, updated_at := env.timestamp })

/-- Nullifiers may repeat: a member comments as often as they like. -/
def add_anonymous (check : ProofCheck) (env : CommentsEnv) (s : CommentsState) (dao_id proposal_id : Nat)
    (content_cid : Bytes) (parent_id : Option Nat) (nullifier root : U256) (vote_choice : Bool) :
    Outcome CommentsError (Nat × CommentsState) := do
  check.in_field nullifier
  check.in_field root
  require (nullifier ≠ 0) (panic_coarse .Anonymous .InvalidNullifier)
  assert_content (panic_coarse .Anonymous) content_cid
  assert_parent (panic_coarse .Anonymous) s dao_id proposal_id parent_id
  assert_proof check env dao_id proposal_id vote_choice nullifier root
  let (comment_id, s) ← next_comment_id s dao_id proposal_id
  return (comment_id, write_comment s dao_id proposal_id comment_id
    { id := comment_id, dao_id := dao_id, proposal_id := proposal_id
      content_cid := content_cid, parent_id := parent_id
      created_at := env.timestamp, updated_at := env.timestamp, nullifier := some nullifier })

def add_anonymous_comment (C : Crypto) (env : CommentsEnv) (s : CommentsState) (dao_id proposal_id : Nat)
    (content_cid : Bytes) (parent_id : Option Nat) (nullifier root : U256) (vote_choice : Bool)
    (proof : Proof) : Outcome CommentsError (Nat × CommentsState) :=
  add_anonymous (bn254 C env dao_id proof) env s dao_id proposal_id content_cid parent_id nullifier root vote_choice

def add_anonymous_comment_bls381 (C : Crypto) (env : CommentsEnv) (s : CommentsState) (dao_id proposal_id : Nat)
    (content_cid : Bytes) (parent_id : Option Nat) (nullifier root : U256) (vote_choice : Bool)
    (proof : ProofBls381) : Outcome CommentsError (Nat × CommentsState) :=
  add_anonymous (bls381 C env dao_id proof) env s dao_id proposal_id content_cid parent_id nullifier root vote_choice

/-! ## Edits -/

def find_comment (s : CommentsState) (dao_id proposal_id comment_id : Nat) : Outcome CommentsError CommentInfo :=
  orPanic (s.comment (dao_id, proposal_id, comment_id)) .CommentNotFound

/-- The old text is kept while there is room for it. -/
def revised (comment : CommentInfo) (now : Nat) (new_content_cid : Bytes) : CommentInfo :=
  { comment with
    revision_cids :=
      if comment.revision_cids.length < MAX_REVISIONS then comment.revision_cids ++ [comment.content_cid]
      else comment.revision_cids
    content_cid := new_content_cid
    updated_at := now }

def edit_comment (env : CommentsEnv) (s : CommentsState) (dao_id proposal_id comment_id : Nat)
    (new_content_cid : Bytes) (author : Address) : Outcome CommentsError CommentsState := do
  require_auth env.toEnv author
  assert_content id new_content_cid
  let comment ← find_comment s dao_id proposal_id comment_id
  require (comment.deleted = false) .CommentDeleted
  require (comment.author = some author) .NotCommentOwner
  return write_comment s dao_id proposal_id comment_id (revised comment env.timestamp new_content_cid)

def edit_anonymous (check : ProofCheck) (env : CommentsEnv) (s : CommentsState)
    (dao_id proposal_id comment_id : Nat) (new_content_cid : Bytes) (nullifier root : U256) (vote_choice : Bool) :
    Outcome CommentsError CommentsState := do
  check.in_field nullifier
  check.in_field root
  assert_content (panic_coarse .Anonymous) new_content_cid
  let comment ← find_comment s dao_id proposal_id comment_id
  require (comment.deleted = false) .CommentDeleted
  require (comment.nullifier = some nullifier) .NotCommentOwner
  assert_proof check env dao_id proposal_id vote_choice nullifier root
  return write_comment s dao_id proposal_id comment_id (revised comment env.timestamp new_content_cid)

def edit_anonymous_comment (C : Crypto) (env : CommentsEnv) (s : CommentsState)
    (dao_id proposal_id comment_id : Nat) (new_content_cid : Bytes) (nullifier root : U256) (vote_choice : Bool)
    (proof : Proof) : Outcome CommentsError CommentsState :=
  edit_anonymous (bn254 C env dao_id proof) env s dao_id proposal_id comment_id new_content_cid nullifier root
    vote_choice

def edit_anonymous_comment_bls381 (C : Crypto) (env : CommentsEnv) (s : CommentsState)
    (dao_id proposal_id comment_id : Nat) (new_content_cid : Bytes) (nullifier root : U256) (vote_choice : Bool)
    (proof : ProofBls381) : Outcome CommentsError CommentsState :=
  edit_anonymous (bls381 C env dao_id proof) env s dao_id proposal_id comment_id new_content_cid nullifier root
    vote_choice

/-! ## Deletions

Deleting twice is accepted, and the second time nothing is checked any more.
-/

def deleted (comment : CommentInfo) (now deleted_by : Nat) : CommentInfo :=
  { comment with deleted := true, deleted_by := deleted_by, updated_at := now }

def delete_comment (env : CommentsEnv) (s : CommentsState) (dao_id proposal_id comment_id : Nat)
    (author : Address) : Outcome CommentsError CommentsState := do
  require_auth env.toEnv author
  let comment ← find_comment s dao_id proposal_id comment_id
  if comment.deleted = true then return s
  else do
    require (comment.author = some author) .NotCommentOwner
    return write_comment s dao_id proposal_id comment_id (deleted comment env.timestamp DELETED_BY_USER)

def delete_anonymous_comment (C : Crypto) (env : CommentsEnv) (s : CommentsState)
    (dao_id proposal_id comment_id : Nat) (nullifier root : U256) (vote_choice : Bool) (proof : Proof) :
    Outcome CommentsError CommentsState := do
  let check := bn254 C env dao_id proof
  check.in_field nullifier
  check.in_field root
  let comment ← find_comment s dao_id proposal_id comment_id
  if comment.deleted = true then return s
  else do
    require (comment.nullifier = some nullifier) .NotCommentOwner
    assert_proof check env dao_id proposal_id vote_choice nullifier root
    return write_comment s dao_id proposal_id comment_id (deleted comment env.timestamp DELETED_BY_USER)

/-- A reason of zeros is none. -/
def admin_delete_comment (env : CommentsEnv) (s : CommentsState) (dao_id proposal_id comment_id : Nat)
    (admin : Address) (reason_hash : BytesN 32) : Outcome CommentsError CommentsState := do
  require_auth env.toEnv admin
  assert_admin env s dao_id admin
  require (reason_hash ≠ Vector.replicate 32 0) .InvalidInput
  let comment ← find_comment s dao_id proposal_id comment_id
  if comment.deleted = true then return s
  else return write_comment s dao_id proposal_id comment_id (deleted comment env.timestamp DELETED_BY_ADMIN)

/-! ## Runs -/

inductive Call where
  | add_comment (dao_id proposal_id : Nat) (content_cid : Bytes) (parent_id : Option Nat) (author : Address)
  | add_anonymous_comment (dao_id proposal_id : Nat) (content_cid : Bytes) (parent_id : Option Nat)
      (nullifier root : U256) (vote_choice : Bool) (proof : Proof)
  | add_anonymous_comment_bls381 (dao_id proposal_id : Nat) (content_cid : Bytes) (parent_id : Option Nat)
      (nullifier root : U256) (vote_choice : Bool) (proof : ProofBls381)
  | edit_comment (dao_id proposal_id comment_id : Nat) (new_content_cid : Bytes) (author : Address)
  | edit_anonymous_comment (dao_id proposal_id comment_id : Nat) (new_content_cid : Bytes)
      (nullifier root : U256) (vote_choice : Bool) (proof : Proof)
  | edit_anonymous_comment_bls381 (dao_id proposal_id comment_id : Nat) (new_content_cid : Bytes)
      (nullifier root : U256) (vote_choice : Bool) (proof : ProofBls381)
  | delete_comment (dao_id proposal_id comment_id : Nat) (author : Address)
  | delete_anonymous_comment (dao_id proposal_id comment_id : Nat) (nullifier root : U256)
      (vote_choice : Bool) (proof : Proof)
  | admin_delete_comment (dao_id proposal_id comment_id : Nat) (admin : Address) (reason_hash : BytesN 32)

def step (C : Crypto) (s : CommentsState) (env : CommentsEnv) : Call → Outcome CommentsError CommentsState
  | .add_comment dao_id proposal_id content_cid parent_id author =>
    Prod.snd <$> add_comment env s dao_id proposal_id content_cid parent_id author
  | .add_anonymous_comment dao_id proposal_id content_cid parent_id nullifier root vote_choice proof =>
    Prod.snd <$>
      add_anonymous_comment C env s dao_id proposal_id content_cid parent_id nullifier root vote_choice proof
  | .add_anonymous_comment_bls381 dao_id proposal_id content_cid parent_id nullifier root vote_choice proof =>
    Prod.snd <$>
      add_anonymous_comment_bls381 C env s dao_id proposal_id content_cid parent_id nullifier root vote_choice proof
  | .edit_comment dao_id proposal_id comment_id new_content_cid author =>
    edit_comment env s dao_id proposal_id comment_id new_content_cid author
  | .edit_anonymous_comment dao_id proposal_id comment_id new_content_cid nullifier root vote_choice proof =>
    edit_anonymous_comment C env s dao_id proposal_id comment_id new_content_cid nullifier root vote_choice proof
  | .edit_anonymous_comment_bls381 dao_id proposal_id comment_id new_content_cid nullifier root vote_choice proof =>
    edit_anonymous_comment_bls381 C env s dao_id proposal_id comment_id new_content_cid nullifier root vote_choice
      proof
  | .delete_comment dao_id proposal_id comment_id author =>
    delete_comment env s dao_id proposal_id comment_id author
  | .delete_anonymous_comment dao_id proposal_id comment_id nullifier root vote_choice proof =>
    delete_anonymous_comment C env s dao_id proposal_id comment_id nullifier root vote_choice proof
  | .admin_delete_comment dao_id proposal_id comment_id admin reason_hash =>
    admin_delete_comment env s dao_id proposal_id comment_id admin reason_hash

/-- An accepted call. -/
def Accepts (C : Crypto) (s : CommentsState) (call : CommentsEnv × Call) (s' : CommentsState) : Prop :=
  step C s call.1 call.2 = .ok s'

/-- A run from the deployment of the contract. -/
def CommentsRun (C : Crypto) (registry : Address) :
    List (CommentsState × CommentsEnv × Call) → CommentsState → Prop :=
  Run (Accepts C) (constructor registry)

end ZkVote.Comments

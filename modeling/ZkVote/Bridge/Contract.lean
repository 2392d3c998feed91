import ZkVote.Host
import ZkVote.Lib.Runs

/-!
# The bridge on the EVM side

`contracts/bridge/evm/contracts/Bridge.sol`. The source assigns `rootUpdater`, `voteRoots` and
`pendingAdmin` without declaring them: here they are storage like the rest, zero at first.
-/

open Lib Lib.Outcome

namespace ZkVote.Bridge

inductive BridgeError where
  | OnlyAdmin | OnlyRootUpdater | OnlyPendingAdmin | InvalidProof | NullifierUsed | InvalidVoteChoice
  | ZeroNullifier | SbtRootNotSet | SbtRootNotFinalized | InvalidVerifier | InvalidAddress
  | ZeroMemberAddr | TimelockNotElapsed | NoPendingVerifier | ChainIdMismatch | VoteRootNotSet
  | Error (message : String)
  deriving DecidableEq, Repr

/-- 2 days. -/
def VERIFIER_TIMELOCK : Nat := 172800

structure Proof where
  a : Nat × Nat
  b : (Nat × Nat) × (Nat × Nat)
  c : Nat × Nat

/-- What a call sees of its transaction and its block. -/
structure Msg where
  sender : Address
  number : Nat
  timestamp : Nat
  chainid : Nat
  /-- `staticcall` of `verifyProof`: whether it succeeds, and the bytes it returns. -/
  staticcall : Address → Proof → List Nat → Bool × Bytes

structure BridgeState where
  verifier : Address
  sbtContractAddr : Nat
  sbtRoots : Nat → Nat := fun _ => 0
  sbtRootBlock : Nat → Nat := fun _ => 0
  voteRoots : Nat × Nat → Nat := fun _ => 0
  nullifiers : Nat × Nat × Nat → Bool := fun _ => false
  admin : Address
  pendingAdmin : Address := 0
  rootUpdater : Address := 0
  finalityDepth : Nat := 0
  chainId : Nat
  pendingVerifier : Address := 0
  pendingVerifierEta : Nat := 0

structure VoteForwarded where
  daoId : Nat
  proposalId : Nat
  nullifier : Nat
  voteChoice : Nat
  voteRoot : Nat
  memberAddr : Nat
  chainId : Nat
  deriving DecidableEq, Repr

inductive Event where
  | VoteForwarded (e : VoteForwarded)
  | SbtRootUpdated (daoId sbtRoot blockNumber : Nat)
  | VoteRootUpdated (daoId proposalId voteRoot blockNumber : Nat)
  | VerifierProposed (newVerifier : Address) (eta : Nat)
  | VerifierUpdated (newVerifier : Address)
  | AdminTransferStarted (pendingAdmin : Address)
  | AdminUpdated (newAdmin : Address)
  | RootUpdaterUpdated (newRootUpdater : Address)
  deriving DecidableEq, Repr

/-- The state after a call and what it emitted. -/
abbrev Result := Outcome BridgeError (BridgeState × List Event)

def constructor (msg : Msg) (verifier : Address) (sbtContractAddr : Nat) :
    Outcome BridgeError BridgeState := do
  require (verifier ≠ 0) .InvalidAddress
  return { verifier := verifier, sbtContractAddr := sbtContractAddr, admin := msg.sender
           finalityDepth := 0, chainId := msg.chainid }

/-! ## Administration -/

def proposeVerifier (msg : Msg) (s : BridgeState) (newVerifier : Address) : Result := do
  require (msg.sender = s.admin) .OnlyAdmin
  require (newVerifier ≠ 0) .InvalidAddress
  let eta ← expect (checkedAdd 256 msg.timestamp VERIFIER_TIMELOCK)
  return ({ s with pendingVerifier := newVerifier, pendingVerifierEta := eta },
    [.VerifierProposed newVerifier eta])

def executeVerifier (msg : Msg) (s : BridgeState) : Result := do
  require (msg.sender = s.admin) .OnlyAdmin
  require (s.pendingVerifier ≠ 0) .NoPendingVerifier
  require (s.pendingVerifierEta ≤ msg.timestamp) .TimelockNotElapsed
  return ({ s with pendingVerifier := 0, pendingVerifierEta := 0, verifier := s.pendingVerifier },
    [.VerifierUpdated s.pendingVerifier])

def setVerifier (_ : Address) : Result := fail .TimelockNotElapsed

def updateSbtRoot (msg : Msg) (s : BridgeState) (daoId sbtRoot : Nat) : Result := do
  require (msg.sender = s.rootUpdater ∨ msg.sender = s.admin) .OnlyRootUpdater
  require (sbtRoot ≠ 0) .SbtRootNotSet
  return ({ s with
      sbtRoots := Function.update s.sbtRoots daoId sbtRoot
      sbtRootBlock := Function.update s.sbtRootBlock daoId msg.number },
    [.SbtRootUpdated daoId sbtRoot msg.number])

def setFinalityDepth (msg : Msg) (s : BridgeState) (finalityDepth : Nat) : Result := do
  require (msg.sender = s.admin) .OnlyAdmin
  return ({ s with finalityDepth := finalityDepth }, [])

def updateVoteRoot (msg : Msg) (s : BridgeState) (daoId proposalId voteRoot : Nat) : Result := do
  require (msg.sender = s.rootUpdater ∨ msg.sender = s.admin) .OnlyRootUpdater
  require (voteRoot ≠ 0) .VoteRootNotSet
  return ({ s with voteRoots := Function.update s.voteRoots (daoId, proposalId) voteRoot },
    [.VoteRootUpdated daoId proposalId voteRoot msg.number])

def setRootUpdater (msg : Msg) (s : BridgeState) (newRootUpdater : Address) : Result := do
  require (msg.sender = s.admin) .OnlyAdmin
  require (newRootUpdater ≠ 0) .InvalidAddress
  return ({ s with rootUpdater := newRootUpdater }, [.RootUpdaterUpdated newRootUpdater])

def transferAdmin (msg : Msg) (s : BridgeState) (newAdmin : Address) : Result := do
  require (msg.sender = s.admin) .OnlyAdmin
  require (newAdmin ≠ 0) .InvalidAddress
  return ({ s with pendingAdmin := newAdmin }, [.AdminTransferStarted newAdmin])

def acceptAdmin (msg : Msg) (s : BridgeState) : Result := do
  require (msg.sender = s.pendingAdmin) .OnlyPendingAdmin
  return ({ s with admin := s.pendingAdmin, pendingAdmin := 0 }, [.AdminUpdated s.pendingAdmin])

def setAdmin (_ : Address) : Result := fail .OnlyPendingAdmin

/-! ## Votes -/

def word (proof : Bytes) (i : Nat) : Nat := fromBeBytes ((proof.drop (32 * i)).take 32)

def decodeProof (proof : Bytes) : Outcome BridgeError Proof := do
  require (proof.length = 256) (.Error "Invalid proof length")
  return { a := (word proof 0, word proof 1)
           b := ((word proof 2, word proof 3), (word proof 4, word proof 5))
           c := (word proof 6, word proof 7) }

/-- `abi.decode` of a bool reverts on a word that is neither zero nor one. -/
def verifyProof (msg : Msg) (s : BridgeState) (proof : Proof) (publicSignals : List Nat) :
    Outcome BridgeError Bool :=
  let (success, result) := msg.staticcall s.verifier proof publicSignals
  if success = false ∨ result.length < 32 then .ok false
  else if word result 0 = 0 then .ok false
  else if word result 0 = 1 then .ok true
  else trap

structure Ballot where
  daoId : Nat
  proposalId : Nat
  voteChoice : Nat
  nullifier : Nat
  voteRoot : Nat
  sbtRoot : Nat
  memberAddr : Nat
  proof : Bytes

def Ballot.key (b : Ballot) : Nat × Nat × Nat := (b.daoId, b.proposalId, b.nullifier)

def publicSignals (s : BridgeState) (b : Ballot) : List Nat :=
  [s.sbtContractAddr, b.memberAddr, b.daoId, b.proposalId, b.nullifier, b.voteChoice, b.voteRoot, b.sbtRoot,
    s.chainId]

def forwarded (s : BridgeState) (b : Ballot) : VoteForwarded where
  daoId := b.daoId
  proposalId := b.proposalId
  nullifier := b.nullifier
  voteChoice := b.voteChoice
  voteRoot := b.voteRoot
  memberAddr := b.memberAddr
  chainId := s.chainId

def castVote (msg : Msg) (s : BridgeState) (b : Ballot) : Result := do
  require (b.nullifier ≠ 0) .ZeroNullifier
  require (b.memberAddr ≠ 0) .ZeroMemberAddr
  require (s.nullifiers b.key = false) .NullifierUsed
  require (b.voteChoice ≤ 1) .InvalidVoteChoice
  require (s.sbtRoots b.daoId ≠ 0) .SbtRootNotSet
  require (b.sbtRoot = s.sbtRoots b.daoId) .SbtRootNotSet
  let final ← expect (checkedAdd 256 (s.sbtRootBlock b.daoId) s.finalityDepth)
  require (final ≤ msg.number) .SbtRootNotFinalized
  -- The vote root of the call goes to the verifier as it is: `voteRoots` is never read.
  let proof ← decodeProof b.proof
  let valid ← verifyProof msg s proof (publicSignals s b)
  require (valid = true) .InvalidProof
  return ({ s with nullifiers := Function.update s.nullifiers b.key true }, [.VoteForwarded (forwarded s b)])

inductive Call where
  | proposeVerifier (newVerifier : Address)
  | executeVerifier
  | setVerifier (newVerifier : Address)
  | updateSbtRoot (daoId sbtRoot : Nat)
  | setFinalityDepth (finalityDepth : Nat)
  | updateVoteRoot (daoId proposalId voteRoot : Nat)
  | setRootUpdater (newRootUpdater : Address)
  | transferAdmin (newAdmin : Address)
  | acceptAdmin
  | setAdmin (newAdmin : Address)
  | castVote (b : Ballot)

def execute (msg : Msg) (s : BridgeState) : Call → Result
  | .proposeVerifier newVerifier => proposeVerifier msg s newVerifier
  | .executeVerifier => executeVerifier msg s
  | .setVerifier newVerifier => setVerifier newVerifier
  | .updateSbtRoot daoId sbtRoot => updateSbtRoot msg s daoId sbtRoot
  | .setFinalityDepth finalityDepth => setFinalityDepth msg s finalityDepth
  | .updateVoteRoot daoId proposalId voteRoot => updateVoteRoot msg s daoId proposalId voteRoot
  | .setRootUpdater newRootUpdater => setRootUpdater msg s newRootUpdater
  | .transferAdmin newAdmin => transferAdmin msg s newAdmin
  | .acceptAdmin => acceptAdmin msg s
  | .setAdmin newAdmin => setAdmin newAdmin
  | .castVote b => castVote msg s b

/-- A transaction that is not reverted. -/
def Step (s : BridgeState) (i : Msg × Call) (s' : BridgeState) : Prop :=
  ∃ events, execute i.1 s i.2 = .ok (s', events)

end ZkVote.Bridge

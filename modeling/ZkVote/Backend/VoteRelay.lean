import Mathlib.Data.List.Infix
import ZkVote.Lib.Bytes

/-!
# The relay of a vote

`POST /vote` and `POST /vote/commit` of `routes/voting.ts`, from the decrypted body to the answer. A handler runs from
one `await` to the next while others wait; the sequence lock only takes orders away, and is left out.
-/

open Lib

namespace ZkVote.VoteRelay

/-! ## The tables -/

structure VoteReceipt where
  nullifier : String
  tx_hash : String
  proposal_id : Nat
  dao_id : Nat
deriving DecidableEq

inductive CommitmentStatus where
  | COMMITTED
  | REVEALED
  | EXPIRED
deriving DecidableEq

structure ProofCommitment where
  commitmentHash : String
  status : CommitmentStatus
deriving DecidableEq

inductive SubmissionStatus where
  | pending
  | confirmed
  | failed
deriving DecidableEq

structure VoteSubmission where
  nullifier_hash : String
  status : SubmissionStatus
  tx_hash : Option String
  created_at : Int
deriving DecidableEq

structure Db where
  receipts : List VoteReceipt := []
  commitments : List ProofCommitment := []
  submissions : List VoteSubmission := []

namespace Db

def getVoteReceipt (db : Db) (nullifier : String) : Option VoteReceipt :=
  db.receipts.find? fun receipt => receipt.nullifier = nullifier

/-- `INSERT OR IGNORE`, in effect: a second receipt of a nullifier is dropped. -/
def storeVoteReceipt (db : Db) (receipt : VoteReceipt) : Db :=
  if (db.getVoteReceipt receipt.nullifier).isSome = true then db
  else { db with receipts := db.receipts ++ [receipt] }

def getProofCommitment (db : Db) (commitmentHash : String) : Option ProofCommitment :=
  db.commitments.find? fun commitment => commitment.commitmentHash = commitmentHash

/-- An upsert, of the columns that a vote reads. -/
def recordProofCommitment (db : Db) (commitmentHash : String) : Db :=
  { db with
    commitments := { commitmentHash, status := .COMMITTED } ::
      db.commitments.filter fun commitment => commitment.commitmentHash ≠ commitmentHash }

def updateProofCommitmentStatus (db : Db) (commitmentHash : String) (status : CommitmentStatus) : Db :=
  { db with
    commitments := db.commitments.map fun commitment =>
      if commitment.commitmentHash = commitmentHash then { commitment with status } else commitment }

def getVoteSubmission (db : Db) (nullifierHash : String) : Option VoteSubmission :=
  db.submissions.find? fun row => row.nullifier_hash = nullifierHash

/-- `INSERT OR IGNORE`. -/
def insertVoteSubmission (db : Db) (nullifierHash : String) (now : Int) : Db × Bool :=
  if (db.getVoteSubmission nullifierHash).isSome = true then (db, false)
  else
    ({ db with
      submissions := db.submissions ++
        [{ nullifier_hash := nullifierHash, status := .pending, tx_hash := none, created_at := now }] }, true)

/-- Without a transaction hash, as the handler calls it. -/
def updateVoteSubmission (db : Db) (nullifierHash : String) (status : SubmissionStatus) : Db :=
  { db with
    submissions := db.submissions.map fun row =>
      if row.nullifier_hash = nullifierHash then { row with status } else row }

def cleanupExpiredVoteSubmissions (db : Db) (ttlMs now : Int) : Db :=
  { db with
    submissions := db.submissions.filter fun row => ¬ (row.status ≠ .confirmed ∧ row.created_at < now - ttlMs) }

end Db

/-! ## Requests and answers -/

structure Config where
  maxProofAgeSeconds : Nat
  testMode : Bool
  /-- Whether there is an override of the vote executor, for test mode. -/
  executor : Bool
  /-- Whether there is a `relayerSecretKey`. -/
  secret : Bool

/-- What the handler reads of a request to look it up. -/
structure VoteRequest (Proof : Type) where
  daoId : Nat
  proposalId : Nat
  nullifier : Option String
  proof : Option Proof
  nonce : Option String
  timestamp : Option Int
  /-- The header `Idempotency-Key`. -/
  idempotencyHeader : Option String
deriving DecidableEq

inductive ErrorCode where
  | INTERNAL_ERROR
  | VOTE_REJECTED
  | TIMEOUT
  | SERVICE_UNAVAILABLE
deriving DecidableEq

structure ApiError where
  statusCode : Nat
  code : ErrorCode
  message : String
deriving DecidableEq

inductive Thrown where
  | apiError (err : ApiError)
  | error (message : String)
deriving DecidableEq

/-- The answers, by their bodies. -/
inductive Reply where
  | conflict (receipt : VoteReceipt)
  | badRequest (error : String)
  | replayed (txHash : Option String)
  | pending (txHash : Option String)
  | success (txHash : Option String)
  | transactionFailed (txHash : Option String) (status : String)
  | apiError (err : ApiError)
deriving DecidableEq

def Reply.statusCode : Reply → Nat
  | .conflict _ => 409
  | .badRequest _ => 400
  | .replayed _ => 200
  | .pending _ => 202
  | .success _ => 200
  | .transactionFailed _ _ => 500
  | .apiError err => err.statusCode

/-- `message.includes(part)`. -/
def includes (message part : String) : Bool := decide (part.toList <:+: message.toList)

/-- The answer of `catch`. -/
def errorReply : Thrown → ApiError
  | .apiError err => err
  | .error errMsg =>
    if includes errMsg "SIMULATION_FAILED:VOTE_REJECTED" = true then ⟨400, .VOTE_REJECTED, "VOTE_REJECTED"⟩
    else if errMsg = "SUBMIT_FAILED" ∨ errMsg = "SUBMIT_FAILED_BAD_SEQ" then
      ⟨500, .INTERNAL_ERROR, "Transaction submission failed"⟩
    else if includes errMsg "Timeout:" = true then ⟨504, .TIMEOUT, "Request timeout - please try again"⟩
    else if includes errMsg "Transaction not found after timeout" = true then
      ⟨504, .TIMEOUT,
        "Transaction confirmation timeout - vote may have succeeded, please check proposal results"⟩
    else if includes errMsg "getAccount" = true then
      ⟨503, .SERVICE_UNAVAILABLE, "Blockchain RPC temporarily unavailable - please retry"⟩
    else if includes errMsg "ECONNREFUSED" = true ∨ includes errMsg "ETIMEDOUT" = true then
      ⟨503, .SERVICE_UNAVAILABLE, "Network error - please retry"⟩
    else if includes errMsg "sequence" = true then
      ⟨503, .SERVICE_UNAVAILABLE, "Transaction sequence error - please retry"⟩
    else ⟨500, .INTERNAL_ERROR, "Internal server error"⟩

/-- A string that is not there or is empty counts as false. -/
def truthy (s : Option String) : Option String := s.filter fun s => s ≠ ""

/-- What the platform gives: `JSON.stringify` of a proof, and the hash. -/
structure Platform (Proof : Type) where
  stringify : Proof → String
  sha256 : Bytes → BytesN 32

section
variable {Proof : Type} (platform : Platform Proof) (config : Config)

def calculateProofHash (proof : Proof) (nullifier : String) (timestamp : Int) (nonce : Option String) : String :=
  let normalizedNullifier := if nullifier.startsWith "0x" then String.ofList (nullifier.toList.drop 2) else nullifier
  let data := platform.stringify proof ++ ":" ++ normalizedNullifier ++ ":" ++ toString timestamp ++ ":" ++
    nonce.getD ""
  toHex (platform.sha256 (utf8 data)).toList

namespace VoteRequest

def idempotencyKey (r : VoteRequest Proof) : Option String :=
  (truthy r.idempotencyHeader).or (truthy r.nullifier)

/-- Where proof, nullifier and timestamp are all there. -/
def commitmentHash (r : VoteRequest Proof) : Option String :=
  match r.proof, truthy r.nullifier, r.timestamp.filter fun t => t ≠ 0 with
  | some proof, some nullifier, some timestamp =>
    some (calculateProofHash platform proof nullifier timestamp r.nonce)
  | _, _, _ => none

def expired (r : VoteRequest Proof) (now : Int) : Bool :=
  match r.timestamp with
  | none => false
  | some timestamp => timestamp ≠ 0 && decide (config.maxProofAgeSeconds * 1000 < now - timestamp)

def inFuture (r : VoteRequest Proof) (now : Int) : Bool :=
  match r.timestamp with
  | none => false
  | some timestamp => timestamp ≠ 0 && decide (now + 10000 < timestamp)

end VoteRequest

/-! ## Handlers -/

/-- What a handler awaits, if it has not answered. -/
inductive Stage where
  | redundancy
  | account
  | simulation
  | submission
  | confirmation (hash : Option String)
  /-- The override of the vote executor. -/
  | executor
  /-- What was thrown is on its way to `catch`; whether the network had accepted the transaction by then. -/
  | thrown (err : Thrown) (accepted : Bool)
  | answered (reply : Reply)
deriving DecidableEq

/-- What is observed of a request: the requests that had failed when it arrived, whether it found a proof commitment
and revealed it, when it claimed its slot, and the request whose record it was turned away for. -/
structure Books (Proof : Type) where
  request : VoteRequest Proof
  failedBefore : List Nat
  revealed : Bool := false
  claimedAt : Option Int := none
  blockedBy : Option Nat := none
deriving DecidableEq

structure Handler (Proof : Type) extends Books Proof where
  stage : Stage

/-- The tables, the handlers by the order of their requests, those that failed before the network had accepted
anything, and who revealed a commitment and claimed a slot. -/
structure World (Proof : Type) where
  db : Db
  handlers : List (Handler Proof) := []
  failures : List Nat := []
  revealedBy : String → Option Nat := fun _ => none
  claimedBy : String → Option Nat := fun _ => none

namespace World
variable (w : World Proof) (i : Nat)

def modify (f : Handler Proof → Handler Proof) : World Proof := { w with handlers := w.handlers.modify i f }

def await (stage : Stage) : World Proof := w.modify i fun h => { h with stage }

def answer (reply : Reply) : World Proof := w.await i (.answered reply)

/-- The answer to a request that has failed before the network has accepted anything. -/
def fail (reply : Reply) : World Proof := { w.answer i reply with failures := i :: w.failures }

/-- The answer to a request that a record stands in the way of. -/
def block (reply : Reply) (cause : Option Nat) : World Proof :=
  (w.answer i reply).modify i fun h => { h with blockedBy := cause }

def reveal (commitmentHash : String) : World Proof :=
  { w.modify i fun h => { h with revealed := true } with
    db := w.db.updateProofCommitmentStatus commitmentHash .REVEALED
    revealedBy := Function.update w.revealedBy commitmentHash (some i) }

def cleanup (now : Int) : World Proof := { w with db := w.db.cleanupExpiredVoteSubmissions 120000 now }

/-- Puts the row of the insertion into the table. -/
def claim (key : String) (now : Int) : World Proof :=
  { w.modify i fun h => { h with claimedAt := some now } with
    db := (w.db.insertVoteSubmission key now).1
    claimedBy := Function.update w.claimedBy key (some i) }

def arrive (r : VoteRequest Proof) : World Proof :=
  let stage :=
    match (truthy r.nullifier).bind w.db.getVoteReceipt with
    | none => .redundancy
    | some receipt =>
      if receipt.dao_id = r.daoId ∧ receipt.proposal_id = r.proposalId then .answered (.conflict receipt)
      else .redundancy
  { w with handlers := w.handlers ++ [{ request := r, failedBefore := w.failures, stage }] }

/-- From the conversion of the inputs, which may throw, to the next `await`. -/
def submit (converted : Except String Unit) : World Proof :=
  match converted with
  | .error message => w.fail i (.badRequest message)
  | .ok () =>
    if config.testMode = true then
      if config.executor = true then w.await i .executor else w.fail i (.badRequest "Simulation failed (test mode)")
    else w.await i .account

/-- The idempotency check. -/
def enterSlot (key : String) (now : Int) (converted : Except String Unit) : World Proof :=
  match w.db.getVoteSubmission key with
  | some existing =>
    if existing.status = .confirmed then
      if config.secret = true then w.answer i (.replayed existing.tx_hash)
      else w.await i (.thrown (.error "RELAYER_SECRET_KEY must be configured for receipt signing") false)
    else w.block i (.pending existing.tx_hash) (w.claimedBy key)
  | none =>
    if (w.db.insertVoteSubmission key now).2 = true then (w.claim i key now).submit config i converted
    else
      match w.db.getVoteSubmission key with
      | some concurrent => w.block i (.pending concurrent.tx_hash) (w.claimedBy key)
      | none => w.submit config i converted

def enter (r : VoteRequest Proof) (now : Int) (converted : Except String Unit) : World Proof :=
  let w := w.cleanup now
  match r.idempotencyKey with
  | none => w.submit config i converted
  | some key => w.enterSlot config i key now converted

/-- From the redundancy check to the next `await`. -/
def process (r : VoteRequest Proof) (now : Int) (converted : Except String Unit) : World Proof :=
  if r.expired config now = true then
    w.answer i (.badRequest "Proof expired: submission timestamp is too old")
  else if r.inFuture now = true then
    w.answer i (.badRequest "Invalid timestamp: timestamp is in the future")
  else
    match r.commitmentHash platform with
    | none => w.enter config i r now converted
    | some commitmentHash =>
      match w.db.getProofCommitment commitmentHash with
      | none => w.enter config i r now converted
      | some record =>
        if record.status = .REVEALED then
          w.block i (.badRequest "Proof commitment already revealed") (w.revealedBy commitmentHash)
        else (w.reveal i commitmentHash).enter config i r now converted

/-- The answer of the relay quorum. -/
structure SendResult where
  error : Bool
  isBadSeq : Bool := false
  hash : Option String := none

def submitted (r : VoteRequest Proof) (sr : SendResult) : World Proof :=
  if sr.error = true then
    let db :=
      match truthy r.nullifier with
      | none => w.db
      | some nullifier => w.db.updateVoteSubmission nullifier .failed
    let message := if sr.isBadSeq = true then "SUBMIT_FAILED_BAD_SEQ" else "SUBMIT_FAILED"
    { w with db }.await i (.thrown (.error message) false)
  else w.await i (.confirmation sr.hash)

def respondToVoteExecution (r : VoteRequest Proof) (hash : Option String) (status : String) : World Proof :=
  if status = "SUCCESS" then
    let db :=
      match truthy r.nullifier, truthy hash with
      | some nullifier, some tx_hash =>
        w.db.storeVoteReceipt { nullifier, tx_hash, proposal_id := r.proposalId, dao_id := r.daoId }
      | _, _ => w.db
    { w with db }.answer i (.success hash)
  else w.answer i (.transactionFailed hash status)

/-- `catch`. -/
def caught (r : VoteRequest Proof) (err : Thrown) (accepted : Bool) : World Proof :=
  let db :=
    match r.idempotencyKey with
    | none => w.db
    | some key => w.db.updateVoteSubmission key .failed
  let w := { w with db }
  if accepted = true then w.answer i (.apiError (errorReply err)) else w.fail i (.apiError (errorReply err))

/-- `POST /vote/commit`, of a commitment hash with its timestamp. -/
def commit (commitmentHash : String) (timestamp now : Int) : World Proof :=
  if config.maxProofAgeSeconds * 1000 < now - timestamp then w
  else if now + 10000 < timestamp then w
  else
    match w.db.getProofCommitment commitmentHash with
    | some existing =>
      if existing.status = .REVEALED then w else { w with db := w.db.recordProofCommitment commitmentHash }
    | none => { w with db := w.db.recordProofCommitment commitmentHash }

end World

/-! ## Events -/

/-- What a handler meets at an `await`. -/
inductive Outcome where
  | redundancy (now : Int) (converted : Except String Unit)
  | account
  | simulation (success : Bool)
  | submission (sr : World.SendResult)
  | confirmation (status : String)
  | executor (hash : Option String) (status : String)
  | rejected (err : Thrown)
  | caught

inductive Event (Proof : Type) where
  | commit (commitmentHash : String) (timestamp now : Int)
  | arrive (r : VoteRequest Proof)
  | resume (i : Nat) (outcome : Outcome)

/-- `none` where a handler does not await what comes. -/
def World.resume (w : World Proof) (i : Nat) (h : Handler Proof) : Outcome → Option (World Proof)
  | .redundancy now converted =>
    if h.stage = .redundancy then some (w.process platform config i h.request now converted) else none
  | .account => if h.stage = .account then some (w.await i .simulation) else none
  | .simulation success =>
    if h.stage = .simulation then
      some (w.await i
        (if success = true then .submission else .thrown (.error "SIMULATION_FAILED:VOTE_REJECTED") false))
    else none
  | .submission sr => if h.stage = .submission then some (w.submitted i h.request sr) else none
  | .confirmation status =>
    match h.stage with
    | .confirmation hash => some (w.respondToVoteExecution i h.request hash status)
    | _ => none
  | .executor hash status =>
    if h.stage = .executor then some (w.respondToVoteExecution i h.request hash status) else none
  | .rejected err =>
    match h.stage with
    | .thrown _ _ | .answered _ => none
    | .confirmation _ => some (w.await i (.thrown err true))
    | _ => some (w.await i (.thrown err false))
  | .caught =>
    match h.stage with
    | .thrown err accepted => some (w.caught i h.request err accepted)
    | _ => none

def World.next (w : World Proof) : Event Proof → Option (World Proof)
  | .commit commitmentHash timestamp now => some (w.commit config commitmentHash timestamp now)
  | .arrive r => some (w.arrive r)
  | .resume i outcome => (w.handlers[i]?).bind fun h => w.resume platform config i h outcome

def World.Step (w : World Proof) (event : Event Proof) (w' : World Proof) : Prop :=
  w.next platform config event = some w'

end

end ZkVote.VoteRelay

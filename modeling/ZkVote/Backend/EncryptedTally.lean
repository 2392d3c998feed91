import Mathlib.Data.List.Sort
import Mathlib.Data.Nat.Sqrt
import ZkVote.Lib.Euclid
import ZkVote.Lib.Runs

/-!
# ElGamal on Baby Jubjub

`backend/src/services/elgamal.ts`. The points are those of a group, `addPoint` and `mulPointEscalar` its
operations, and `G` is `BASE8`.
-/

open Lib

namespace ZkVote.ElGamal

def BABYJUB_SUBORDER : Nat := 2736030358979909402780800718157159386076813972158567259200215660948447373041

variable {P : Type} [AddCommGroup P]

structure BallotCiphertext (P : Type) where
  c1 : P
  cYes : P
  cNo : P
  deriving DecidableEq

structure Ciphertext (P : Type) where
  c1 : P
  c2 : P

/-- A share of the key, or of a decryption. -/
structure Share (α : Type) where
  index : Nat
  value : α
  deriving DecidableEq, Repr

def addPoints (a b : P) : P := a + b

/-! ## Ballots -/

def encryptBallot (G publicKey : P) (vote : Bool) (randomness : Nat) : Except String (BallotCiphertext P) :=
  let r := randomness % BABYJUB_SUBORDER
  if r = 0 then .error "encryptBallot: randomness must be non-zero"
  else
    let shared := r • publicKey
    .ok { c1 := r • G
          cYes := shared + if vote then G else 0
          cNo := shared + if vote then 0 else G }

/-! ## Discrete logarithms -/

/-- `Math.ceil(Math.sqrt(max))`. -/
def ceilSqrt (max : Nat) : Nat := if Nat.sqrt max * Nat.sqrt max = max then Nat.sqrt max else Nat.sqrt max + 1

/-- The table of the multiples of `G`: what was set last comes first. -/
def babySteps (G : P) : Nat → Nat → P → List (P × Nat) → List (P × Nat)
  | 0, _, _, table => table
  | n + 1, j, cur, table => babySteps G n (j + 1) (cur + G) ((cur, j) :: table)

def giantSteps [DecidableEq P] (m : Nat) (step : P) (table : List (P × Nat)) : Nat → Nat → P → Option Nat
  | 0, _, _ => none
  | n + 1, i, gamma =>
    match table.lookup gamma with
    | some j => some (i * m + j)
    | none => giantSteps m step table n (i + 1) (gamma + step)

def discreteLog [DecidableEq P] (G point : P) (max : Nat) : Except String Nat :=
  let m := ceilSqrt max
  let table := babySteps G m 0 0 []
  match giantSteps m (m • -G) table (m + 1) 0 point with
  | some n => .ok n
  | none => .error "discreteLog: value outside the supported tally range"

/-! ## Shares -/

/-- Horner's rule, from the last coefficient down. -/
def evalShare (coeffs : List Nat) (x : Nat) : Nat :=
  coeffs.foldr (fun c y => (y * x + c) % BABYJUB_SUBORDER) 0

/-- `coeffs` are the random scalars drawn. An array is shorter than `2 ^ 32`. -/
def createShares (secret threshold total : Nat) (randoms : Nat → Nat) : Except String (List (Share Nat)) :=
  if threshold < 1 ∨ total < threshold then .error "createShares: invalid threshold"
  else if 2 ^ 32 ≤ total then .error "Invalid array length"
  else
    let coeffs := secret :: (List.range (threshold - 1)).map randoms
    .ok ((List.range total).map fun i => { index := i + 1, value := evalShare coeffs (i + 1) })

/-- `%` of a bigint takes the sign of the dividend. The divisors fall, so `m` rounds are enough. -/
def modInv (a m : Int) : Except String Int :=
  let (oldR, oldS) := euclid (m.toNat + 1) ((a.tmod m + m).tmod m) m 1 0
  if oldR = 1 then .ok ((oldS.tmod m + m).tmod m) else .error "modInv: not invertible"

/-- One factor of a Lagrange coefficient, reduced. -/
def timesMod (acc x : Int) : Int := ((acc * x).tmod BABYJUB_SUBORDER + BABYJUB_SUBORDER).tmod BABYJUB_SUBORDER

def lagrangeAtZero (index : Nat) (indices : List Nat) : Except String Int := do
  let others := indices.filter (· ≠ index)
  let num := others.foldl (fun acc (j : Nat) => timesMod acc (0 - j)) 1
  let den := others.foldl (fun acc (j : Nat) => timesMod acc (index - j)) 1
  let inv ← modInv den BABYJUB_SUBORDER
  return timesMod num inv

/-- The loop over the shares: each is weighted and added. -/
def addShares (indices : List Nat) : List (Share P) → P → Except String P
  | [], result => .ok result
  | share :: shares, result => do
    let lambda ← lagrangeAtZero share.index indices
    addShares indices shares (addPoints result (lambda.toNat • share.value))

def combineDecryptionShares (shares : List (Share P)) : Except String P :=
  if shares = [] then .error "combineDecryptionShares: empty"
  else addShares (shares.map Share.index) shares 0

def generateDecryptionShare (ciphertext : Ciphertext P) (privateKeyShare : Nat) : P :=
  privateKeyShare • ciphertext.c1

def decryptWithCombinedShare [DecidableEq P] (G : P) (ciphertext : Ciphertext P) (combined : P) (max : Nat) :
    Except String Nat :=
  discreteLog G (ciphertext.c2 + -combined) max

end ZkVote.ElGamal

/-!
## The encrypted tally

`backend/src/services/encrypted-tally.ts`. A step of the service runs from one `await` to the next.
-/

namespace ZkVote.EncryptedTally

open ElGamal

variable {P : Type} [AddCommGroup P]

def DEFAULT_CEREMONY_THRESHOLD : Nat := 2
def DEFAULT_CEREMONY_AUTHORITIES : Nat := 3

inductive TallyErrorCode where
  | ELECTION_NOT_FOUND | ELECTION_EXISTS | ELECTION_STILL_OPEN | ALREADY_FINALIZED | INSUFFICIENT_APPROVALS
  | INVALID_APPROVAL | INVALID_BALLOT | TALLY_MISMATCH
  deriving DecidableEq, Repr

inductive Failure where
  | tally (message : String) (code : TallyErrorCode)
  | error (message : String)
  deriving DecidableEq, Repr

structure Aggregate (P : Type) where
  c1 : P
  cYes : P
  cNo : P
  deriving DecidableEq

/-- What the transcript is made of. -/
structure Transcript where
  electionId : String
  yesVotes : Nat
  noVotes : Nat
  ballotCount : Nat
  aggregateC1 : String
  aggregateCYes : String
  aggregateCNo : String
  approvers : List Nat
  deriving DecidableEq, Repr

structure EncryptedTallyResult extends Transcript where
  transcriptHash : String
  finalizedAt : Int
  deriving DecidableEq, Repr

structure EncryptedElection (P : Type) where
  electionId : String
  publicKey : P
  privateKey : Nat
  threshold : Nat
  authorities : List (Share Nat)
  endTime : Int
  createdAt : Int
  ballots : List (BallotCiphertext P) := []
  aggregate : Option (Aggregate P) := none
  finalized : Bool := false
  result : Option EncryptedTallyResult := none

/-! ### The service -/

/-- Where a call of `registerBallot` stands: the addition it awaits, with the sums it has. -/
inductive Stage (P : Type) where
  | addingC1 (c1 : P)
  | addingYes (c1 cYes : P)
  | addingNo (c1 cYes cNo : P)
  deriving DecidableEq

structure Registration (P : Type) where
  /-- The election object. -/
  ref : Nat
  ballot : BallotCiphertext P
  stage : Stage P
  deriving DecidableEq

structure CreateParams where
  electionId : String
  endTime : Int
  threshold : Option Nat
  totalAuthorities : Option Nat

/-- The elections of the service, and the calls in progress. The map holds references to objects. -/
structure Service (P : Type) where
  objects : List (EncryptedElection P) := []
  elections : String → Option Nat := fun _ => none
  creations : List CreateParams := []
  registrations : List (Registration P) := []

def Service.update (s : Service P) (ref : Nat) (election : EncryptedElection P) : Service P :=
  { s with objects := s.objects.set ref election }

/-- `createElection` up to the key generation. -/
def createElection (s : Service P) (params : CreateParams) : Except Failure (Service P) := do
  if s.elections params.electionId ≠ none then
    throw (.tally ("election " ++ params.electionId ++ " already exists") .ELECTION_EXISTS)
  let threshold := params.threshold.getD DEFAULT_CEREMONY_THRESHOLD
  let total := params.totalAuthorities.getD DEFAULT_CEREMONY_AUTHORITIES
  if threshold < 1 ∨ total < threshold then throw (.tally "invalid ceremony threshold" .INVALID_APPROVAL)
  return { s with creations := s.creations ++ [params] }

/-- The election that `createElection` makes of a fresh key. -/
def newElection (G : P) (params : CreateParams) (privateKey : Nat) (randoms : Nat → Nat) (now : Int) :
    Except Failure (EncryptedElection P) :=
  let threshold := params.threshold.getD DEFAULT_CEREMONY_THRESHOLD
  let total := params.totalAuthorities.getD DEFAULT_CEREMONY_AUTHORITIES
  match createShares privateKey threshold total randoms with
  | .error message => .error (.error message)
  | .ok shares =>
    .ok { electionId := params.electionId, publicKey := privateKey • G, privateKey := privateKey
          threshold := threshold, authorities := shares, endTime := params.endTime, createdAt := now }

/-- `createElection` with the key there: it does not look again whether the name is free. -/
def finishCreation (G : P) (s : Service P) (k : Nat) (privateKey : Nat) (randoms : Nat → Nat) (now : Int) :
    Option (Service P) :=
  match s.creations[k]? with
  | none => none
  | some params =>
    match newElection G params privateKey randoms now with
    | .error _ => some { s with creations := s.creations.eraseIdx k }
    | .ok election =>
      some { s with
        objects := s.objects ++ [election]
        elections := Function.update s.elections params.electionId (some s.objects.length)
        creations := s.creations.eraseIdx k }

/-- The aggregate's part of a ballot that comes first. -/
def firstAggregate (ballot : BallotCiphertext P) : Aggregate P where
  c1 := ballot.c1
  cYes := ballot.cYes
  cNo := ballot.cNo

/-- `registerBallot` up to its first `await`, or to its end if the ballot is the first. The ballot is
`none` if a component is missing. -/
def registerBallot (s : Service P) (electionId : String) (ballot : Option (BallotCiphertext P)) (now : Int) :
    Except Failure (Service P) :=
  match s.elections electionId with
  | none => .error (.tally ("unknown election " ++ electionId) .ELECTION_NOT_FOUND)
  | some ref =>
    match s.objects[ref]? with
    | none => .error (.tally ("unknown election " ++ electionId) .ELECTION_NOT_FOUND)
    | some election =>
      if election.finalized then .error (.tally "election already finalized" .ALREADY_FINALIZED)
      else if now > election.endTime then .error (.tally "election is closed" .ELECTION_STILL_OPEN)
      else
        match ballot with
        | none => .error (.tally "malformed ballot ciphertext" .INVALID_BALLOT)
        | some ballot =>
          let election := { election with ballots := election.ballots ++ [ballot] }
          match election.aggregate with
          | none => .ok (s.update ref { election with aggregate := some (firstAggregate ballot) })
          | some aggregate =>
            -- The first operand is read here, the other two after an await each.
            let call : Registration P :=
              { ref := ref, ballot := ballot, stage := .addingC1 (addPoints aggregate.c1 ballot.c1) }
            .ok { s.update ref election with registrations := s.registrations ++ [call] }

/-- The `k`-th call in progress goes on with the sum it awaited. -/
def resume (s : Service P) (k : Nat) : Option (Service P) :=
  match s.registrations[k]? with
  | none => none
  | some call =>
    match s.objects[call.ref]? with
    | none => none
    | some election =>
      match election.aggregate with
      | none => none
      | some aggregate =>
        match call.stage with
        | .addingC1 c1 =>
          let stage := .addingYes c1 (addPoints aggregate.cYes call.ballot.cYes)
          some { s with registrations := s.registrations.set k { call with stage := stage } }
        | .addingYes c1 cYes =>
          let stage := .addingNo c1 cYes (addPoints aggregate.cNo call.ballot.cNo)
          some { s with registrations := s.registrations.set k { call with stage := stage } }
        | .addingNo c1 cYes cNo =>
          some { s.update call.ref { election with aggregate := some { c1 := c1, cYes := cYes, cNo := cNo } } with
            registrations := s.registrations.eraseIdx k }

/-! ### The ceremony -/

/-- What results are written with: `pointToHex`, and the SHA-256 of the transcript as JSON. -/
structure Format (P : Type) where
  pointToHex : P → String
  transcriptHash : Transcript → String

/-- `unique.set`: a later approval of the same authority takes the place of the earlier. -/
def setApproval (approval : Share P) : List (Share P) → List (Share P)
  | [] => [approval]
  | a :: unique => if a.index = approval.index then approval :: unique else a :: setApproval approval unique

def collectApprovals (authorities : List (Share Nat)) :
    List (Share P) → List (Share P) → Except Failure (List (Share P))
  | [], unique => .ok unique
  | approval :: approvals, unique =>
    if authorities.any (·.index = approval.index) then
      collectApprovals authorities approvals (setApproval approval unique)
    else
      .error (.tally ("authority " ++ toString approval.index ++ " not configured") .INVALID_APPROVAL)

def dlogMax (ballots : Nat) : Nat := max 1000000 (ballots * 2 + 10)

/-- An exception of the group arithmetic, which `finalize` does not catch. -/
def uncaught {α : Type} : Except String α → Except Failure α
  | .ok a => .ok a
  | .error message => .error (.error message)

def createApproval (election : EncryptedElection P) (authorityIndex : Nat) : Except Failure (Share P) :=
  if election.finalized then .error (.tally "election already finalized" .ALREADY_FINALIZED)
  else
    match election.authorities.find? (·.index = authorityIndex) with
    | none => .error (.tally ("authority " ++ toString authorityIndex ++ " not configured") .INVALID_APPROVAL)
    | some authority =>
      match election.aggregate with
      | none => .error (.tally "no ballots to decrypt" .TALLY_MISMATCH)
      | some aggregate =>
        .ok { index := authorityIndex
              value := generateDecryptionShare { c1 := aggregate.c1, c2 := 0 } authority.value }

/-- The counts, once there are enough approvals. -/
def decryptTotals [DecidableEq P] (G : P) (election : EncryptedElection P) (aggregate : Aggregate P)
    (unique : List (Share P)) : Except Failure (Nat × Nat) := do
  let combined ← uncaught (combineDecryptionShares unique)
  let n := election.ballots.length
  let yesVotes ← uncaught
    (decryptWithCombinedShare G { c1 := aggregate.c1, c2 := aggregate.cYes } combined (dlogMax n))
  let noVotes ← uncaught
    (decryptWithCombinedShare G { c1 := aggregate.c1, c2 := aggregate.cNo } combined (dlogMax n))
  if yesVotes + noVotes = n then .ok (yesVotes, noVotes)
  else
    .error (.tally ("decrypted totals " ++ toString yesVotes ++ "+" ++ toString noVotes ++ " do not match " ++
      toString n ++ " ballots") .TALLY_MISMATCH)

/-- The result, and the election with it. -/
def finalize [DecidableEq P] (G : P) (format : Format P) (election : EncryptedElection P)
    (approvals : List (Share P)) (now : Int) : Except Failure (EncryptedTallyResult × EncryptedElection P) :=
  if election.finalized then .error (.tally "election already finalized" .ALREADY_FINALIZED)
  else if now ≤ election.endTime then
    .error (.tally "decryption ceremony cannot run before end_time" .ELECTION_STILL_OPEN)
  else
    match election.aggregate with
    | none => .error (.tally "no ballots to decrypt" .TALLY_MISMATCH)
    | some aggregate => do
      let unique ← collectApprovals election.authorities approvals []
      if unique.length < election.threshold then
        throw (.tally ("need " ++ toString election.threshold ++ " distinct approvals, got " ++
          toString unique.length) .INSUFFICIENT_APPROVALS)
      let (yesVotes, noVotes) ← decryptTotals G election aggregate unique
      let transcript : Transcript :=
        { electionId := election.electionId, yesVotes := yesVotes, noVotes := noVotes
          ballotCount := election.ballots.length
          aggregateC1 := format.pointToHex aggregate.c1
          aggregateCYes := format.pointToHex aggregate.cYes
          aggregateCNo := format.pointToHex aggregate.cNo
          approvers := (unique.map Share.index).insertionSort (· ≤ ·) }
      let result : EncryptedTallyResult :=
        { transcript with transcriptHash := format.transcriptHash transcript, finalizedAt := now }
      return (result, { election with finalized := true, result := some result })

/-! ### Runs -/

inductive Event (P : Type) where
  | createElection (params : CreateParams)
  | finishCreation (k privateKey : Nat) (randoms : Nat → Nat) (now : Int)
  | registerBallot (electionId : String) (ballot : Option (BallotCiphertext P)) (now : Int)
  | resume (k : Nat)
  /-- A call of `finalize` comes to its end. -/
  | finalized (ref : Nat) (result : EncryptedTallyResult)

/-- `none` where nothing happens: the call throws, or there is none. -/
def next (G : P) (s : Service P) : Event P → Option (Service P)
  | .createElection params => (createElection s params).toOption
  | .finishCreation k privateKey randoms now => finishCreation G s k privateKey randoms now
  | .registerBallot electionId ballot now => (registerBallot s electionId ballot now).toOption
  | .resume k => resume s k
  | .finalized ref result =>
    (s.objects[ref]?).map fun election =>
      s.update ref { election with finalized := true, result := some result }

def Step (G : P) (s : Service P) (e : Event P) (s' : Service P) : Prop := next G s e = some s'

end ZkVote.EncryptedTally

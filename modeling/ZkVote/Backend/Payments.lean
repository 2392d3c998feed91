import ZkVote.Backend.StellarAmount
import ZkVote.Lib.Json
import ZkVote.Lib.Runs

/-!
# Batch payments

`sendBatch` in `services/payments.ts`, from one await to the next. How an await ends, and which call
goes on next, is up to the event.
-/

open Lib

namespace ZkVote.Payments

open StellarAmount

inductive PaymentAsset where
  | XLM | USDC | EURC
  deriving DecidableEq, Repr

def PaymentAsset.code : PaymentAsset → String
  | .XLM => "XLM"
  | .USDC => "USDC"
  | .EURC => "EURC"

structure PaymentOp where
  destination : String
  asset : PaymentAsset
  amount : String
  memo : Option String
  deriving DecidableEq, Repr

structure BatchResult where
  hash : String
  ops : Nat
  deriving DecidableEq, Repr

/-! ## Transactions -/

inductive Asset where
  | native
  | credit (code issuer : String)
  deriving DecidableEq, Repr

/-- `Operation.payment`. -/
structure Payment where
  destination : String
  asset : Asset
  amount : String
  deriving DecidableEq, Repr

structure Transaction where
  sequence : Nat
  fee : Nat
  operations : List Payment
  deriving DecidableEq, Repr

/-- What is taken from the SDK and the environment. -/
structure Platform where
  /-- `StellarSdk.hash` of a text in UTF-8, in hex. -/
  hash : String → String
  ISSUERS : PaymentAsset → Option String
  /-- What `Operation.payment` takes for an account. -/
  isAccount : String → Bool

def getAsset (P : Platform) : PaymentAsset → Except String Asset
  | .XLM => .ok .native
  | code =>
    match P.ISSUERS code with
    | some issuer => .ok (.credit code.code issuer)
    | none => .error s!"Issuer not configured for {code.code}"

def payment (P : Platform) (op : PaymentOp) : Except String Payment := do
  let asset ← getAsset P op.asset
  let amount ← canonicalizeStellarAmount op.amount false
  if P.isAccount op.destination = true then
    return { destination := op.destination, asset := asset, amount := amount }
  else throw "destination is invalid"

/-! ## Jobs -/

def parseAmountToStroops (amount : String) : Except String Nat :=
  if amount = "" then .error "Invalid amount: must be a non-empty string"
  else parseStroops (String.ofList (trim amount.toList)) false

def totalAmount (ops : List PaymentOp) : Except String Nat :=
  ops.foldlM (fun sum op => return sum + (← parseAmountToStroops op.amount)) 0

def member (key value : String) : List Char := Json.quote key.toList ++ ':' :: Json.quote value.toList

/-- The keys stand in the order of the schema, which has built the operation. -/
def PaymentOp.json (op : PaymentOp) : List Char :=
  '\x7b' :: (member "destination" op.destination ++ ',' :: (member "asset" op.asset.code ++
    ',' :: (member "amount" op.amount ++ match op.memo with
      | some memo => ',' :: (member "memo" memo ++ ['\x7d'])
      | none => ['\x7d'])))

def jsonRest : List PaymentOp → List Char
  | [] => [']']
  | op :: ops => ',' :: (op.json ++ jsonRest ops)

/-- `JSON.stringify` of the operations. -/
def stringify : List PaymentOp → List Char
  | [] => ['[', ']']
  | op :: ops => '[' :: (op.json ++ jsonRest ops)

def jobText (tenantId : String) (ops : List PaymentOp) : List Char := tenantId.toList ++ ':' :: stringify ops

def jobId (P : Platform) (tenantId : String) (ops : List PaymentOp) : String :=
  P.hash (String.ofList (jobText tenantId ops))

structure JobRow where
  id : String
  tenant_id : String
  amount : Nat
  ops : String
  created_at : String
  /-- The call that has stored the row. No column says so. -/
  call : Nat
  deriving DecidableEq, Repr

/-! ## Preflights -/

inductive Preflight where
  | ensureRelayerTrustline (asset : PaymentAsset)
  | assertDestinationTrustline (destination : String) (asset : PaymentAsset)
  | checkSponsorshipReserve (newSponsorships : Nat)
  deriving DecidableEq, Repr

def MAX_MUXED_DESTINATIONS_PER_BATCH : Nat := 100

def muxedCount (ops : List PaymentOp) : Nat := (ops.filter fun op => op.destination.toList.head? = some 'M').length

def creditAssets (ops : List PaymentOp) : List PaymentAsset :=
  ((ops.map PaymentOp.asset).filter (· ≠ .XLM)).eraseDups

def preflights (ops : List PaymentOp) : List Preflight :=
  (creditAssets ops).map .ensureRelayerTrustline ++
    (ops.filter (·.asset ≠ .XLM)).map (fun op => .assertDestinationTrustline op.destination op.asset) ++
    [.checkSponsorshipReserve (muxedCount ops)]

/-- What is checked before the row is looked for. It ends with the total. -/
def check (ops : List PaymentOp) : Except String Nat :=
  if ops.length = 0 then .error "No ops"
  else if 100 < ops.length then .error "Batch max 100 ops"
  else if MAX_MUXED_DESTINATIONS_PER_BATCH < muxedCount ops then .error "MuxedAccount limit exceeded"
  else totalAmount ops

/-! ## Calls -/

/-- The await at which a call stands, with what it needs after it. -/
inductive Stage where
  | preflight (totalAmount : Nat) (left : List Preflight)
  | loadAccount
  | assessRelayerReserve
  | estimateFee
  | shouldThrottleOperations (recommendedForOps : Nat)
  | withPaymentSequenceLock (recommendedForOps : Nat)
  | loadSequence (recommendedForOps : Nat)
  | signTransaction (tx : Transaction)
  | submitToHorizon (tx : Transaction)
  | recordTransactionFee (hash : String)
  | returned (result : BatchResult)
  | threw (message : String)
  deriving DecidableEq, Repr

structure Call where
  tenantId : String
  ops : List PaymentOp
  stage : Stage
  deriving DecidableEq, Repr

/-- A transaction that the network has accepted, and the call that has submitted it. -/
structure Accepted where
  call : Nat
  tenantId : String
  ops : List PaymentOp
  tx : Transaction
  deriving DecidableEq, Repr

structure State where
  payment_jobs : List JobRow := []
  count : Nat := 0
  calls : Nat → Option Call := fun _ => none
  /-- The call that holds the sequence lock. -/
  lock : Option Nat := none
  /-- What was submitted and may still land. -/
  inFlight : List (Nat × Transaction) := []
  accepted : List Accepted := []

/-- How an await ends that does not throw. -/
inductive Reply where
  | settles
  /-- The last preflight passes, and the row is written unless the database fails. -/
  | inserts (created_at : String) (failure : Option String)
  | feeEstimate (recommendedForOps : Nat)
  | throttle (message : Option String)
  | sequence (sequence : Nat)
  | hash (hash : String)
  deriving DecidableEq, Repr

inductive Event where
  | sendBatch (tenantId : String) (ops : List PaymentOp)
  | resume (i : Nat) (reply : Except String Reply)
  /-- The network accepts what the call has submitted, before or after the call gives it up. -/
  | lands (i : Nat)

def State.hasJob (s : State) (id : String) : Bool := s.payment_jobs.any fun row => row.id = id

def State.add (s : State) (c : Call) : State :=
  { s with
    calls := Function.update s.calls s.count (some c)
    count := s.count + 1 }

def State.goto (s : State) (i : Nat) (c : Call) (stage : Stage) : State :=
  { s with calls := Function.update s.calls i (some { c with stage := stage }) }

def State.unlock (s : State) (i : Nat) : State := { s with lock := if s.lock = some i then none else s.lock }

def sendBatch (P : Platform) (s : State) (tenantId : String) (ops : List PaymentOp) : State :=
  match check ops with
  | .error message => s.add ⟨tenantId, ops, .threw message⟩
  | .ok total =>
    let id := jobId P tenantId ops
    if s.hasJob id = true then s.add ⟨tenantId, ops, .returned ⟨id, ops.length⟩⟩
    else s.add ⟨tenantId, ops, .preflight total (preflights ops)⟩

/-- A row that is there answers for the job. -/
def insertJob (P : Platform) (s : State) (i : Nat) (c : Call) (total : Nat) (created_at : String) : State :=
  let id := jobId P c.tenantId c.ops
  if s.hasJob id = true then s.goto i c (.returned ⟨id, c.ops.length⟩)
  else
    let row : JobRow :=
      { id := id
        tenant_id := c.tenantId
        amount := total
        ops := String.ofList (stringify c.ops)
        created_at := created_at
        call := i }
    { s.goto i c .loadAccount with payment_jobs := row :: s.payment_jobs }

def resume (P : Platform) (s : State) (i : Nat) (c : Call) : Stage → Reply → Option State
  | .preflight total (_ :: next :: left), .settles => some (s.goto i c (.preflight total (next :: left)))
  | .preflight _ [_], .inserts _ (some message) => some (s.goto i c (.threw message))
  | .preflight total [_], .inserts created_at none => some (insertJob P s i c total created_at)
  | .loadAccount, .settles => some (s.goto i c .assessRelayerReserve)
  | .assessRelayerReserve, .settles => some (s.goto i c .estimateFee)
  | .estimateFee, .feeEstimate fee => some (s.goto i c (.shouldThrottleOperations fee))
  | .shouldThrottleOperations _, .throttle (some message) => some (s.goto i c (.threw message))
  | .shouldThrottleOperations fee, .throttle none => some (s.goto i c (.withPaymentSequenceLock fee))
  | .withPaymentSequenceLock fee, .settles =>
    if s.lock = none then some { s.goto i c (.loadSequence fee) with lock := some i } else none
  | .loadSequence fee, .sequence sequence =>
    match c.ops.mapM (payment P) with
    | .error message => some ((s.goto i c (.threw message)).unlock i)
    | .ok operations => some (s.goto i c (.signTransaction ⟨sequence + 1, fee * operations.length, operations⟩))
  | .signTransaction tx, .settles =>
    some { s.goto i c (.submitToHorizon tx) with inFlight := (i, tx) :: s.inFlight }
  | .submitToHorizon _, .hash hash =>
    -- it does not return unless the transaction has landed
    if (s.accepted.any fun a => a.call = i) = true then some (s.goto i c (.recordTransactionFee hash)) else none
  | .recordTransactionFee hash, .settles => some ((s.goto i c (.returned ⟨hash, c.ops.length⟩)).unlock i)
  | _, _ => none

/-- The await throws, and so does the call. -/
def reject (s : State) (i : Nat) (c : Call) (message : String) : Stage → Option State
  | .returned _ | .threw _ => none
  | _ => some ((s.goto i c (.threw message)).unlock i)

def lands (s : State) (i : Nat) : Option State := do
  let c ← s.calls i
  let (_, tx) ← s.inFlight.find? fun t => t.1 = i
  return { s with
    inFlight := s.inFlight.filter fun t => t.1 ≠ i
    accepted := ⟨i, c.tenantId, c.ops, tx⟩ :: s.accepted }

def next (P : Platform) (s : State) : Event → Option State
  | .sendBatch tenantId ops => some (sendBatch P s tenantId ops)
  | .resume i (.ok reply) => do
    let c ← s.calls i
    resume P s i c c.stage reply
  | .resume i (.error message) => do
    let c ← s.calls i
    reject s i c message c.stage
  | .lands i => lands s i

def PayRun (P : Platform) : List (State × Event) → State → Prop := Run (fun s e s' => next P s e = some s') {}

end ZkVote.Payments

import Mathlib.Data.List.Dedup
import Mathlib.Data.Rat.Defs
import Mathlib.Algebra.Order.Field.Rat
import ZkVote.Lib.Decimal
import ZkVote.Lib.Bytes
import ZkVote.Lib.Outcome

/-!
# The relayer's signing policy

`relayer-signing-policy.ts`: how much authority a signature needs, from the transaction itself.
-/

open Lib Lib.Outcome

namespace ZkVote.Relayer

inductive SigningTier where
  | hot | warm | cold
  deriving DecidableEq, Repr

inductive SigningPurpose where
  | normal | sweep
  deriving DecidableEq, Repr

def TIER_RANK : SigningTier → Nat
  | .hot => 0
  | .warm => 1
  | .cold => 2

def REQUIRED_APPROVALS : SigningTier → Nat
  | .hot => 0
  | .warm => 1
  | .cold => 2

def SigningTier.text : SigningTier → String
  | .hot => "hot"
  | .warm => "warm"
  | .cold => "cold"

structure SigningRefusedError where
  reason : String
  message : String
  deriving DecidableEq, Repr

/-! ## Transactions -/

inductive Asset where
  | native
  | credit (code : String)
  deriving DecidableEq, Repr

/-- An operation as the SDK parses it, with the amounts in its texts of seven decimals. -/
inductive Operation where
  | payment (destination : String) (asset : Asset) (amount : String)
  | pathPaymentStrictSend (sendAsset : Asset) (sendAmount : String)
  | pathPaymentStrictReceive (sendAsset : Asset) (sendMax : String)
  | createAccount (startingBalance : String)
  | createClaimableBalance (asset : Asset) (amount : String)
  | accountMerge (destination : String)
  | bumpSequence
  | other (type : String)
  deriving DecidableEq, Repr

def Operation.type : Operation → String
  | .payment .. => "payment"
  | .pathPaymentStrictSend .. => "pathPaymentStrictSend"
  | .pathPaymentStrictReceive .. => "pathPaymentStrictReceive"
  | .createAccount .. => "createAccount"
  | .createClaimableBalance .. => "createClaimableBalance"
  | .accountMerge .. => "accountMerge"
  | .bumpSequence => "bumpSequence"
  | .other type => type

structure Transaction where
  source : String
  operations : List Operation
  deriving DecidableEq, Repr

inductive TxBody where
  | transaction (t : Transaction)
  | feeBump (feeSource : String) (innerTransaction : Transaction)
  deriving DecidableEq, Repr

/-- A transaction with its hash in hex and the accounts whose keys have signed it. -/
structure Tx where
  body : TxBody
  hash : String
  signatures : List String
  deriving DecidableEq, Repr

def transactionOperations (tx : Tx) : List Operation :=
  match tx.body with
  | .transaction t => t.operations
  | .feeBump _ t => t.operations

/-! ## Value -/

def STROOPS : Int := 10000000

/-- `BigInt` throws where the text is no number. -/
def bigInt (cs : List Char) : Outcome SigningRefusedError Int := expect (readInt cs)

/-- `split(".")`. -/
def splitPoints (s : String) : List String := (s.toList.splitOn '.').map String.ofList

def xlmToStroops (units : String) : Outcome SigningRefusedError Int := do
  let parts := splitPoints units
  let whole := parts.getD 0 ""
  let frac := parts.getD 1 ""
  let w ← bigInt (if whole = "" then "0" else whole).toList
  let f ← bigInt ((frac ++ "0000000").toList.take 7)
  return w * STROOPS + f

def assetCode : Asset → String
  | .native => "XLM"
  | .credit code => code

/-- Value moved by one operation, if any. -/
def operationValue : Operation → Outcome SigningRefusedError (Option (String × Int))
  | .payment _ asset amount => return some (assetCode asset, ← xlmToStroops amount)
  | .pathPaymentStrictSend sendAsset sendAmount => return some (assetCode sendAsset, ← xlmToStroops sendAmount)
  | .pathPaymentStrictReceive sendAsset sendMax => return some (assetCode sendAsset, ← xlmToStroops sendMax)
  | .createAccount startingBalance => return some ("XLM", ← xlmToStroops startingBalance)
  | .createClaimableBalance asset amount => return some (assetCode asset, ← xlmToStroops amount)
  | _ => return none

def PRIVILEGED_OPS : List String :=
  ["setOptions", "accountMerge", "allowTrust", "setTrustLineFlags", "revokeSponsorship",
    "beginSponsoringFutureReserves", "clawback", "clawbackClaimableBalance"]

/-! ## The policy -/

/-- What every object has from its prototype. -/
def OBJECT_KEYS : List String :=
  ["constructor", "__defineGetter__", "__defineSetter__", "hasOwnProperty", "__lookupGetter__", "__lookupSetter__",
    "isPrototypeOf", "propertyIsEnumerable", "toString", "valueOf", "__proto__", "toLocaleString"]

structure TierLimits where
  hot : Int
  warm : Int
  deriving DecidableEq, Repr

structure HaltState where
  reason : String
  haltedBy : String
  deriving DecidableEq, Repr

structure SigningPolicy where
  limits : List (String × TierLimits)
  cosigners : List (String × String)
  breakGlassSecret : Option String
  sweepSafeAccount : Option String
  tiersEnabled : Option Bool
  haltState : Option HaltState
  deriving DecidableEq, Repr

structure TierClassification where
  tier : SigningTier
  privilegedOps : List String
  valueByAsset : List (String × Int)
  deriving DecidableEq, Repr

structure SignAuthorization where
  approvals : Option (List String)
  breakGlass : Option String
  purpose : Option SigningPurpose
  deriving DecidableEq, Repr

/-- What is taken from the platform: `Number` where it gives a finite number, its text, and the HMAC
of a message under a secret, in hex. -/
structure Platform where
  Number : String → Option ℚ
  text : ℚ → String
  hmac : String → String → String

def addValue (code : String) (n : Int) : List (String × Int) → List (String × Int)
  | [] => [(code, n)]
  | (c, total) :: values => if c = code then (c, total + n) :: values else (c, total) :: addValue code n values

def addOperation (values : List (String × Int)) (op : Operation) : Outcome SigningRefusedError (List (String × Int)) := do
  match ← operationValue op with
  | some (code, n) => return addValue code n values
  | none => return values

def valueOf (ops : List Operation) : Outcome SigningRefusedError (List (String × Int)) := ops.foldlM addOperation []

/-- An asset with no limits configured is never auto-signed. -/
def assetTier (limits : Option TierLimits) (total : Int) : SigningTier :=
  match limits with
  | none => .cold
  | some l => if total ≤ l.hot then .hot else if total ≤ l.warm then .warm else .cold

/-- A total added to what the prototype has is a text, and no text is below a limit. -/
def SigningPolicy.tierOf (policy : SigningPolicy) (code : String) (total : Int) : SigningTier :=
  if code ∈ OBJECT_KEYS then .cold else assetTier (policy.limits.lookup code <|> policy.limits.lookup "*") total

def higherTier (a b : SigningTier) : SigningTier := if TIER_RANK b > TIER_RANK a then b else a

variable (platform : Platform) (policy : SigningPolicy) (now : ℚ)

def SigningPolicy.classify (tx : Tx) : Outcome SigningRefusedError TierClassification := do
  let ops := transactionOperations tx
  let privilegedOps := (ops.map Operation.type).filter (· ∈ PRIVILEGED_OPS)
  let valueByAsset ← valueOf ops
  let start : SigningTier := if privilegedOps.length > 0 then .cold else .hot
  let tier := valueByAsset.foldl (fun tier value => higherTier tier (policy.tierOf value.1 value.2)) start
  return { tier := tier, privilegedOps := privilegedOps, valueByAsset := valueByAsset }

def issueApproval (cosignerId secret txHashHex : String) (tier : SigningTier) (expiresAtMs : ℚ) : String :=
  let mac := platform.hmac secret
    s!"zkvote-relayer-approval:v1:{txHashHex}:{tier.text}:{platform.text expiresAtMs}"
  s!"{cosignerId}.{platform.text expiresAtMs}.{mac}"

def macEquals (a b : String) : Bool :=
  let ab := fromHex a
  let bb := fromHex b
  ab.length == bb.length && decide (ab.length > 0) && ab == bb

/-- The expiry of a token, unless it has none or it is over. -/
def liveUntil (exp : Option String) : Option ℚ :=
  (exp.bind platform.Number).filter fun expiresAt => !decide (expiresAt < now)

/-- The co-signer whose approval of this hash and tier the token is. -/
def approver (txHash : String) (tier : SigningTier) (token : String) : Outcome SigningRefusedError (Option String) := do
  let parts := splitPoints token
  let id := parts.getD 0 ""
  match liveUntil platform now parts[1]? with
  | none => return none
  | some expiresAt =>
    match policy.cosigners.lookup id with
    | none =>
      -- what the record has from its prototype is no key of an HMAC
      trapUnless (id ∉ OBJECT_KEYS)
      return none
    | some secret =>
      let expected := (splitPoints (issueApproval platform id secret txHash tier expiresAt)).getD 2 ""
      return if secret ≠ "" ∧ macEquals (parts.getD 2 "") expected = true then some id else none

/-- Distinct co-signers whose approval matches this exact hash and tier. -/
def SigningPolicy.validApprovers (tokens : List String) (txHash : String) (tier : SigningTier) :
    Outcome SigningRefusedError (List String) := do
  let approvers ← tokens.mapM (approver platform policy now txHash tier)
  return approvers.reduceOption.dedup

/-- Break-glass is an approval token from the "break-glass" identity, warm tier only. -/
def SigningPolicy.verifyBreakGlass (token txHash : String) : Bool :=
  match policy.breakGlassSecret with
  | none => false
  | some secret =>
    let parts := splitPoints token
    match liveUntil platform now parts[1]? with
    | none => false
    | some expiresAt =>
      let expected := (splitPoints (issueApproval platform "break-glass" secret txHash .warm expiresAt)).getD 2 ""
      secret != "" && parts.getD 0 "" == "break-glass" && macEquals (parts.getD 2 "") expected

def sweepOperation (destination : String) : Operation → Bool
  | .bumpSequence => true
  | .payment d _ _ => d == destination
  | .accountMerge d => d == destination
  | _ => false

/-- A sweep may only move value to the pre-provisioned safe account. -/
def assertSweepShape (tx : Tx) (destination : Option String) : Outcome SigningRefusedError Unit := do
  let safe := destination.getD ""
  require (safe ≠ "")
    { reason := "sweep_unauthorized", message := "Sweep has no configured safe destination" }
  let ops := transactionOperations tx
  require (ops.length > 0 ∧ ops.all (sweepOperation safe) = true)
    { reason := "sweep_shape_invalid"
      message := "Sweep transactions may only pay or merge into the configured safe account" }

def haltedError (halt : HaltState) : SigningRefusedError where
  reason := "halted"
  message := s!"Relayer signing is halted by {halt.haltedBy}: {halt.reason}"

def approvalMissing (classification : TierClassification) (required got : Nat) : SigningRefusedError where
  reason := "tier_approval_missing"
  message :=
    s!"{classification.tier.text}-tier transaction needs {required} co-signer approval(s), got {got}" ++
      if classification.privilegedOps.length > 0 then
        " (privileged: " ++ ", ".intercalate classification.privilegedOps ++ ")"
      else ""

/-- Fails unless `tx` may be signed with `auth`. -/
def SigningPolicy.authorize (tx : Tx) (auth : SignAuthorization) :
    Outcome SigningRefusedError TierClassification := do
  if auth.purpose = some .sweep then
    assertSweepShape tx policy.sweepSafeAccount
    policy.classify tx
  else
    if let some halt := policy.haltState then fail (haltedError halt)
    let classification ← policy.classify tx
    if policy.tiersEnabled = some false then return classification
    let required := REQUIRED_APPROVALS classification.tier
    if required = 0 then return classification
    let breakGlass := auth.breakGlass.getD ""
    if classification.tier = .warm ∧ breakGlass ≠ "" ∧
        policy.verifyBreakGlass platform now breakGlass tx.hash = true then return classification
    let approvers ← policy.validApprovers platform now (auth.approvals.getD []) tx.hash classification.tier
    require (required ≤ approvers.length) (approvalMissing classification required approvers.length)
    return classification

end ZkVote.Relayer

import Mathlib.Algebra.Order.Floor.Div
import Mathlib.Data.ENat.Basic
import ZkVote.Backend.SigningPolicy
import ZkVote.Backend.StellarAmount

/-!
# What a transaction can move

The operations of the network with their amounts in stroops, as the SDK hands them to the signing
policy, and what each can move out of the relayer's accounts.
-/

open Lib Lib.Outcome

namespace ZkVote.Relayer

inductive StellarAsset where
  | native
  | credit (code issuer : String)
  deriving DecidableEq, Repr

def StellarAsset.parsed : StellarAsset → Asset
  | .native => .native
  | .credit code _ => .credit code

structure Price where
  n : Nat
  d : Nat
  positive : 0 < d
  deriving DecidableEq, Repr

inductive SponsoredEntry where
  | account | trustline | offer | data | claimableBalance | liquidityPool | signer
  deriving DecidableEq, Repr

inductive StellarOperation where
  | createAccount (destination : String) (startingBalance : Nat)
  | payment (destination : String) (asset : StellarAsset) (amount : Nat)
  | pathPaymentStrictReceive (sendAsset : StellarAsset) (sendMax : Nat)
  | pathPaymentStrictSend (sendAsset : StellarAsset) (sendAmount : Nat)
  | createPassiveSellOffer (selling : StellarAsset) (amount : Nat)
  | manageSellOffer (selling : StellarAsset) (amount : Nat)
  /-- The price is that of one bought unit. -/
  | manageBuyOffer (selling : StellarAsset) (buyAmount : Nat) (price : Price)
  | setOptions
  | changeTrust
  | allowTrust
  | accountMerge (destination : String)
  | inflation
  | manageData
  | bumpSequence
  | createClaimableBalance (asset : StellarAsset) (amount : Nat)
  | claimClaimableBalance
  | beginSponsoringFutureReserves
  | endSponsoringFutureReserves
  | revokeSponsorship (entry : SponsoredEntry)
  | clawback (asset : StellarAsset) (from_ : String) (amount : Nat)
  | clawbackClaimableBalance
  | setTrustLineFlags
  | liquidityPoolDeposit (liquidityPoolId : String) (maxAmountA maxAmountB : Nat)
  | liquidityPoolWithdraw
  | invokeHostFunction (func : String) (auth : List String)
  | extendFootprintTtl
  | restoreFootprint
  deriving DecidableEq, Repr

structure SourcedOperation where
  /-- The source of the transaction, where none is given. -/
  source : Option String
  operation : StellarOperation
  deriving DecidableEq, Repr

structure Envelope where
  source : String
  operations : List SourcedOperation
  /-- Who pays for a fee bump around it. -/
  feeSource : Option String
  hash : Bytes
  signatures : List String
  deriving DecidableEq, Repr

/-! ## What the SDK hands over -/

def toFixed7 (stroops : Nat) : String :=
  String.ofList ((stroops / StellarAmount.STROOPS_PER_UNIT).repr.toList ++
    '.' :: padStart 7 '0' (stroops % StellarAmount.STROOPS_PER_UNIT).repr.toList)

/-- The SDK has a type of its own for each entry. -/
def SponsoredEntry.type : SponsoredEntry → String
  | .account => "revokeAccountSponsorship"
  | .trustline => "revokeTrustlineSponsorship"
  | .offer => "revokeOfferSponsorship"
  | .data => "revokeDataSponsorship"
  | .claimableBalance => "revokeClaimableBalanceSponsorship"
  | .liquidityPool => "revokeLiquidityPoolSponsorship"
  | .signer => "revokeSignerSponsorship"

def StellarOperation.parsed : StellarOperation → Operation
  | .createAccount _ startingBalance => .createAccount (toFixed7 startingBalance)
  | .payment destination asset amount => .payment destination asset.parsed (toFixed7 amount)
  | .pathPaymentStrictReceive sendAsset sendMax => .pathPaymentStrictReceive sendAsset.parsed (toFixed7 sendMax)
  | .pathPaymentStrictSend sendAsset sendAmount => .pathPaymentStrictSend sendAsset.parsed (toFixed7 sendAmount)
  | .createPassiveSellOffer .. => .other "createPassiveSellOffer"
  | .manageSellOffer .. => .other "manageSellOffer"
  | .manageBuyOffer .. => .other "manageBuyOffer"
  | .setOptions => .other "setOptions"
  | .changeTrust => .other "changeTrust"
  | .allowTrust => .other "allowTrust"
  | .accountMerge destination => .accountMerge destination
  | .inflation => .other "inflation"
  | .manageData => .other "manageData"
  | .bumpSequence => .bumpSequence
  | .createClaimableBalance asset amount => .createClaimableBalance asset.parsed (toFixed7 amount)
  | .claimClaimableBalance => .other "claimClaimableBalance"
  | .beginSponsoringFutureReserves => .other "beginSponsoringFutureReserves"
  | .endSponsoringFutureReserves => .other "endSponsoringFutureReserves"
  | .revokeSponsorship entry => .other entry.type
  | .clawback .. => .other "clawback"
  | .clawbackClaimableBalance => .other "clawbackClaimableBalance"
  | .setTrustLineFlags => .other "setTrustLineFlags"
  | .liquidityPoolDeposit .. => .other "liquidityPoolDeposit"
  | .liquidityPoolWithdraw => .other "liquidityPoolWithdraw"
  | .invokeHostFunction .. => .other "invokeHostFunction"
  | .extendFootprintTtl => .other "extendFootprintTtl"
  | .restoreFootprint => .other "restoreFootprint"

def Envelope.ops (env : Envelope) : List StellarOperation := env.operations.map SourcedOperation.operation

def Envelope.parsed (env : Envelope) : Tx where
  body :=
    let inner : Transaction := { source := env.source, operations := env.ops.map StellarOperation.parsed }
    match env.feeSource with
    | none => .transaction inner
    | some feeSource => .feeBump feeSource inner
  hash := toHex env.hash
  signatures := env.signatures

/-! ## What leaves the relayer's accounts -/

/-- What is taken from the network. -/
structure Ledger where
  /-- The accounts of the relayer. -/
  ours : String → Bool
  pool : String → Option (StellarAsset × StellarAsset)
  /-- What a contract call of a source with these authorisations may take out of the relayer's accounts. -/
  invoked : String → String → List String → StellarAsset → ℕ∞

def amountOf (a : StellarAsset) (n : Nat) (asset : StellarAsset) : ℕ∞ := if a = asset then n else 0

/-- What an operation with this source moves at most. Fees are not counted. -/
def StellarOperation.moved (ledger : Ledger) (source : String) (op : StellarOperation) (asset : StellarAsset) : ℕ∞ :=
  let spent (a : StellarAsset) (n : Nat) : ℕ∞ := if ledger.ours source = true then amountOf a n asset else 0
  let sent (destination : String) (a : StellarAsset) (n : Nat) : ℕ∞ :=
    if ledger.ours destination = true then 0 else spent a n
  match op with
  | .createAccount destination startingBalance => sent destination .native startingBalance
  | .payment destination a amount => sent destination a amount
  | .pathPaymentStrictReceive sendAsset sendMax => spent sendAsset sendMax
  | .pathPaymentStrictSend sendAsset sendAmount => spent sendAsset sendAmount
  | .createPassiveSellOffer selling amount => spent selling amount
  | .manageSellOffer selling amount => spent selling amount
  | .manageBuyOffer selling buyAmount price => spent selling (buyAmount * price.n ⌈/⌉ price.d)
  | .accountMerge destination =>
    if ledger.ours source = true ∧ ledger.ours destination = false ∧ asset = .native then ⊤ else 0
  | .createClaimableBalance a amount => spent a amount
  | .clawback a from_ amount => if ledger.ours from_ = true then amountOf a amount asset else 0
  | .liquidityPoolDeposit liquidityPoolId maxAmountA maxAmountB =>
    match ledger.pool liquidityPoolId with
    | some (assetA, assetB) => spent assetA maxAmountA + spent assetB maxAmountB
    | none => 0
  | .invokeHostFunction func auth => ledger.invoked source func auth asset
  | _ => 0

def SourcedOperation.moved (ledger : Ledger) (txSource : String) (o : SourcedOperation) (asset : StellarAsset) : ℕ∞ :=
  o.operation.moved ledger (o.source.getD txSource) asset

def Envelope.moved (ledger : Ledger) (env : Envelope) (asset : StellarAsset) : ℕ∞ :=
  (env.operations.map fun o => o.moved ledger env.source asset).sum

/-! ## What the policy counts -/

/-- The asset and the amount that the policy sees in an operation. -/
def StellarOperation.counted : StellarOperation → Option (StellarAsset × Nat)
  | .createAccount _ startingBalance => some (.native, startingBalance)
  | .payment _ asset amount => some (asset, amount)
  | .pathPaymentStrictReceive sendAsset sendMax => some (sendAsset, sendMax)
  | .pathPaymentStrictSend sendAsset sendAmount => some (sendAsset, sendAmount)
  | .createClaimableBalance asset amount => some (asset, amount)
  | _ => none

/-- What the operations that it does not see can move. -/
def Envelope.uncounted (ledger : Ledger) (env : Envelope) (asset : StellarAsset) : ℕ∞ :=
  ((env.operations.filter fun o => o.operation.counted.isNone).map fun o => o.moved ledger env.source asset).sum

def StellarAsset.code (a : StellarAsset) : String := assetCode a.parsed

def StellarOperation.countedOf (op : StellarOperation) (code : String) : Nat :=
  match op.counted with
  | some (a, n) => if a.code = code then n else 0
  | none => 0

/-- The total under a code, whoever has issued the assets. -/
def totalOf (ops : List StellarOperation) (code : String) : Nat := (ops.map fun op => op.countedOf code).sum

section
variable {ledger : Ledger} {source : String} {op : StellarOperation} {a asset : StellarAsset} {n : Nat}

theorem amountOf_le : amountOf a n asset ≤ if a.code = asset.code then n else 0 := by
  unfold amountOf
  by_cases ha : a = asset
  · rw [if_pos ha, if_pos (congrArg _ ha)]
  · rw [if_neg ha]
    exact bot_le

theorem StellarOperation.countedOf_of_some {code : String} (h : op.counted = some (a, n)) :
    op.countedOf code = if a.code = code then n else 0 := by rw [countedOf, h]

theorem StellarOperation.countedOf_of_none {code : String} (h : op.counted = none) : op.countedOf code = 0 := by
  rw [countedOf, h]

theorem StellarOperation.moved_le_of_counted (h : op.counted.isSome = true) :
    op.moved ledger source asset ≤ op.countedOf asset.code := by
  have hbelow {p q : Prop} [Decidable p] [Decidable q] (a : StellarAsset) (n : Nat) :
      (if p then 0 else if q then amountOf a n asset else 0) ≤ ((if a.code = asset.code then n else 0 : Nat) : ℕ∞) := by
    split
    · exact bot_le
    · split
      · exact_mod_cast amountOf_le
      · exact bot_le
  have hspent {q : Prop} [Decidable q] (a : StellarAsset) (n : Nat) :
      (if q then amountOf a n asset else 0) ≤ ((if a.code = asset.code then n else 0 : Nat) : ℕ∞) := by
    split
    · exact_mod_cast amountOf_le
    · exact bot_le
  cases op with
  | createAccount destination startingBalance => exact hbelow .native startingBalance
  | payment destination a amount => exact hbelow a amount
  | pathPaymentStrictReceive sendAsset sendMax => exact hspent sendAsset sendMax
  | pathPaymentStrictSend sendAsset sendAmount => exact hspent sendAsset sendAmount
  | createClaimableBalance a amount => exact hspent a amount
  | _ => cases h

theorem moved_le {os : List SourcedOperation} : (os.map fun o => o.moved ledger source asset).sum ≤
    ((os.filter fun o => o.operation.counted.isNone).map fun o => o.moved ledger source asset).sum +
      totalOf (os.map SourcedOperation.operation) asset.code := by
  induction os with
  | nil => exact bot_le
  | cons o os ih =>
    rw [List.map_cons, List.sum_cons, List.filter_cons, List.map_cons, totalOf, List.map_cons, List.sum_cons]
    cases hcounted : o.operation.counted.isNone with
    | true =>
      have hzero : o.operation.countedOf asset.code = 0 :=
        StellarOperation.countedOf_of_none (Option.isNone_iff_eq_none.mp hcounted)
      rw [if_pos rfl, List.map_cons, List.sum_cons, hzero, Nat.zero_add, add_assoc]
      exact add_le_add_right ih _
    | false =>
      have hle : o.moved ledger source asset ≤ o.operation.countedOf asset.code :=
        StellarOperation.moved_le_of_counted (Option.isNone_eq_false_iff.mp hcounted)
      rw [if_neg Bool.false_ne_true, Nat.cast_add]
      calc o.moved ledger source asset + _ ≤ _ + _ := add_le_add hle ih
        _ = _ := by rw [add_left_comm]; rfl

/-- What the policy does not see is all that can exceed the total under the code. -/
theorem Envelope.moved_le (env : Envelope) (asset : StellarAsset) :
    env.moved ledger asset ≤ env.uncounted ledger asset + totalOf env.ops asset.code := Relayer.moved_le

end

end ZkVote.Relayer

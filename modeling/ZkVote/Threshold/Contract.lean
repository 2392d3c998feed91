import ZkVote.Host
import ZkVote.Lib.Runs

/-!
# The threshold contract

`contracts/threshold-crypto/src/lib.rs`. Participants submit shares of a key, which the
admin adds up; and contributions to encrypted statistics are summed.
-/

open Lib Lib.Outcome

namespace ZkVote.Threshold

inductive ThresholdError where
  | AlreadyInitialized | NotAdmin | InvalidThreshold | InvalidTotal | AlreadyFinalized | NotParticipant
  | AlreadySubmitted | InsufficientShares | DkgNotReady | InvalidShare | ParticipantExists
  | TooManyParticipants | NotInitialized | AnalyticsNotConfigured | AnalyticsBelowMinCohort | InvalidCohort
  deriving DecidableEq, Repr

structure DkgConfig where
  admin : Address
  threshold : Nat
  total : Nat
  finalized : Bool
  deriving DecidableEq

structure AnalyticsAggregate where
  c1 : BytesN 64
  c2 : BytesN 64
  contribution_count : Nat

structure ThresholdState where
  config : Option DkgConfig := none
  admin : Option Address := none
  finalized : Option Bool := none
  participant : Address → Bool := fun _ => false
  participant_list : Option (List Address) := none
  share : Address → Option U256 := fun _ => none
  share_count : Option Nat := none
  final_key : Option U256 := none
  analytics_cfg : Option Nat := none
  analytics_aggregate : Nat × Nat → Option AnalyticsAggregate := fun _ => none
  analytics_submitted : Nat × Nat × Address → Bool := fun _ => false

/-! ## The key -/

/-- `initialize`. -/
def initialize_dkg (env : Env) (s : ThresholdState) (admin : Address) (threshold total : Nat) :
    Outcome ThresholdError ThresholdState := do
  require (s.config = none) .AlreadyInitialized
  require_auth env admin
  require (¬ (total = 0 ∨ 20 < total)) .InvalidTotal
  require (¬ (threshold = 0 ∨ total < threshold)) .InvalidThreshold
  return { s with
    config := some { admin := admin, threshold := threshold, total := total, finalized := false }
    admin := some admin
    participant_list := some []
    share_count := some 0
    finalized := some false }

/-- The admin has signed, and the key is not final. -/
def assert_open (env : Env) (s : ThresholdState) : Outcome ThresholdError DkgConfig := do
  let cfg ← orPanic s.config .NotInitialized
  let admin ← expect s.admin
  require_auth env admin
  require (cfg.admin = admin) .NotAdmin
  require (cfg.finalized = false) .AlreadyFinalized
  return cfg

def add_participant (env : Env) (s : ThresholdState) (participant : Address) :
    Outcome ThresholdError ThresholdState := do
  let cfg ← assert_open env s
  require (s.participant participant = false) .ParticipantExists
  let list := s.participant_list.getD []
  require (¬ cfg.total ≤ list.length) .TooManyParticipants
  return { s with
    participant := Function.update s.participant participant true
    participant_list := some (list ++ [participant]) }

def submit_share (env : Env) (s : ThresholdState) (participant : Address) (share : U256) :
    Outcome ThresholdError ThresholdState := do
  require_auth env participant
  let cfg ← orPanic s.config .NotInitialized
  require (cfg.finalized = false) .AlreadyFinalized
  require (s.participant participant = true) .NotParticipant
  require (s.share participant = none) .AlreadySubmitted
  require (share ≠ 0) .InvalidShare
  let count ← expect (checkedAdd 32 (s.share_count.getD 0) 1)
  return { s with
    share := Function.update s.share participant (some share)
    share_count := some count }

/-- The loop over the participants. `U256::add` is checked: the host traps on an overflow. -/
def add_shares (share : Address → Option U256) : List Address → U256 → Outcome ThresholdError U256
  | [], agg => .ok agg
  | addr :: participants, agg =>
    match share addr with
    | some s => do
      let agg ← expect (checkedAdd 256 agg s)
      add_shares share participants agg
    | none => add_shares share participants agg

def finalize_dkg (env : Env) (s : ThresholdState) : Outcome ThresholdError (U256 × ThresholdState) := do
  let cfg ← assert_open env s
  require (¬ s.share_count.getD 0 < cfg.threshold) .InsufficientShares
  let agg ← add_shares s.share (s.participant_list.getD []) 0
  let agg := if agg = 0 then 1 else agg
  return (agg, { s with
    final_key := some agg
    config := some { cfg with finalized := true }
    finalized := some true })

/-! ## Statistics -/

/-- `g1_add` of the host; `none` where it traps. -/
abbrev G1Add := BytesN 64 → BytesN 64 → Option (BytesN 64)

def init_analytics (env : Env) (s : ThresholdState) (min_cohort : Nat) (admin : Address) :
    Outcome ThresholdError ThresholdState := do
  require (s.analytics_cfg = none) .AlreadyInitialized
  require_auth env admin
  require (¬ min_cohort < 1) .InvalidCohort
  return { s with analytics_cfg := some min_cohort }

def submit_analytic_contribution (g1_add : G1Add) (env : Env) (s : ThresholdState) (dao_id round_id : Nat)
    (c1 c2 : BytesN 64) (contributor : Address) : Outcome ThresholdError ThresholdState := do
  require (s.analytics_cfg ≠ none) .AnalyticsNotConfigured
  require_auth env contributor
  require (s.analytics_submitted (dao_id, round_id, contributor) = false) .AlreadySubmitted
  let agg := (s.analytics_aggregate (dao_id, round_id)).getD
    { c1 := Vector.replicate 64 0, c2 := Vector.replicate 64 0, contribution_count := 0 }
  let c1 ← expect (g1_add agg.c1 c1)
  let c2 ← expect (g1_add agg.c2 c2)
  let count ← expect (checkedAdd 64 agg.contribution_count 1)
  return { s with
    analytics_submitted := Function.update s.analytics_submitted (dao_id, round_id, contributor) true
    analytics_aggregate := Function.update s.analytics_aggregate (dao_id, round_id)
      (some { c1 := c1, c2 := c2, contribution_count := count }) }

/-! ## Runs -/

inductive Call where
  | initialize_dkg (admin : Address) (threshold total : Nat)
  | add_participant (participant : Address)
  | submit_share (participant : Address) (share : U256)
  | finalize_dkg
  | init_analytics (min_cohort : Nat) (admin : Address)
  | submit_analytic_contribution (dao_id round_id : Nat) (c1 c2 : BytesN 64) (contributor : Address)

def step (g1_add : G1Add) (s : ThresholdState) (env : Env) : Call → Outcome ThresholdError ThresholdState
  | .initialize_dkg admin threshold total => initialize_dkg env s admin threshold total
  | .add_participant participant => add_participant env s participant
  | .submit_share participant share => submit_share env s participant share
  | .finalize_dkg => Prod.snd <$> finalize_dkg env s
  | .init_analytics min_cohort admin => init_analytics env s min_cohort admin
  | .submit_analytic_contribution dao_id round_id c1 c2 contributor =>
    submit_analytic_contribution g1_add env s dao_id round_id c1 c2 contributor

/-- An accepted call. -/
def Accepts (g1_add : G1Add) (s : ThresholdState) (call : Env × Call) (s' : ThresholdState) : Prop :=
  step g1_add s call.1 call.2 = .ok s'

/-- A run from the deployment of the contract. -/
def ThresholdRun (g1_add : G1Add) : List (ThresholdState × Env × Call) → ThresholdState → Prop :=
  Run (Accepts g1_add) {}

end ZkVote.Threshold

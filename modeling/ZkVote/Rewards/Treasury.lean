import Mathlib.Data.Set.Card
import ZkVote.Rewards.Contract
import ZkVote.Tree.History
import ZkVote.Voting.Steps

/-!
# The rewards contract: the treasury and the claims

What is in the treasury of a DAO is what was put in, less what the claims were paid.
-/

open Lib Lib.Outcome

namespace ZkVote.Rewards

open Voting (Crypto Proof BN254_FR_MODULUS)

/-! ## What the log says -/

/-- What a call puts into the treasury of a DAO. -/
def Call.funds (dao_id : Nat) : Call → Int
  | .fund_treasury d amount _ => if d = dao_id then amount else 0
  | _ => 0

/-- What a call is paid from it, at the reward of the time. -/
def Call.pays (s : RewardsState) (dao_id : Nat) : Call → Int
  | .claim d .. => if d = dao_id then reward s d else 0
  | _ => 0

def funded (dao_id : Nat) (log : List (RewardsState × RewardsEnv × Call)) : Int :=
  (log.map fun e => e.2.2.funds dao_id).sum

def paid (dao_id : Nat) (log : List (RewardsState × RewardsEnv × Call)) : Int :=
  (log.map fun e => e.2.2.pays e.1 dao_id).sum

/-- The election and the nullifier that a call claims for. -/
def Call.claims : Call → Option (Nat × Nat × U256)
  | .claim d p _ claim_nullifier _ _ => some (d, p, claim_nullifier)
  | _ => none

/-! ## What the contract promises -/

/-- The claim nullifiers recorded for a DAO, with their elections. -/
def recorded (s : RewardsState) (dao_id : Nat) : Set (Nat × U256) :=
  {k | s.claim_nullifier (dao_id, k.1, k.2) = true}

structure Accounted (log : List (RewardsState × RewardsEnv × Call)) (s : RewardsState) (dao_id : Nat) : Prop where
  balance : s.treasury dao_id = funded dao_id log - paid dao_id log
  nonneg : 0 ≤ s.treasury dao_id
  capped : s.treasury dao_id ≤ MAX_FUNDING_CAP
  finite : (recorded s dao_id).Finite
  counted : (recorded s dao_id).ncard = s.total_claimed dao_id

/-- The ballot is recorded, the root is one the voting contract takes, and the proof ties the claim to both. -/
structure Earned (C : Crypto) (env : RewardsEnv) (dao_id proposal_id : Nat)
    (vote_nullifier claim_nullifier root : U256) (proof : Proof) : Prop where
  voted : Voting.nullifier_is_used (env.voting.elections dao_id proposal_id).ballots vote_nullifier = true
  eligible : ∃ p, (env.voting.elections dao_id proposal_id).proposal = some p ∧
    Voting.RootEligible env.toVotingEnv dao_id p root
  proved : ∃ vk, C.verify_groth16 vk proof [root, vote_nullifier, claim_nullifier, dao_id, proposal_id] = true

def EarnedCall (C : Crypto) (e : RewardsState × RewardsEnv × Call) : Prop :=
  ∀ d p vote_nullifier claim_nullifier root proof, e.2.2 = .claim d p vote_nullifier claim_nullifier root proof →
    Earned C e.2.1 d p vote_nullifier claim_nullifier root proof

/-- Both claim for one nullifier of one election. -/
def SameClaim (e f : RewardsState × RewardsEnv × Call) : Prop :=
  ∃ k, e.2.2.claims = some k ∧ f.2.2.claims = some k

structure TreasuryLaw (C : Crypto) (log : List (RewardsState × RewardsEnv × Call)) (s : RewardsState) : Prop where
  accounted : ∀ dao_id, Accounted log s dao_id
  once : log.Pairwise fun e f => ¬ SameClaim e f
  earned : ∀ e ∈ log, EarnedCall C e

section
variable {C : Crypto} {env : RewardsEnv} {s s' : RewardsState} {call : Call} {d p : Nat}
  {vote_nullifier claim_nullifier root : U256} {proof : Proof} {registry : Address}
  {log : List (RewardsState × RewardsEnv × Call)}

/-! ## Checks -/

@[simp] theorem check_eligibility_eq_ok {earliest : Nat} {u : Unit} :
    check_eligibility env d root earliest = .ok u ↔ Tree.root_eligibility env.tree d root earliest = 0 := by
  unfold check_eligibility
  split <;> simp_all

@[simp] theorem decode_eq_fixed {m : Voting.VoteMode} : VoteMode.decode m = some .Fixed ↔ m = .Fixed := by
  cases m <;> simp [VoteMode.decode]

@[simp] theorem decode_eq_trailing {m : Voting.VoteMode} : VoteMode.decode m = some .Trailing ↔ m = .Trailing := by
  cases m <;> simp [VoteMode.decode]

theorem check_root_eligible {info : Voting.ProposalInfo} {mode : VoteMode} {u : Unit}
    (hmode : VoteMode.decode info.vote_mode = some mode) (h : check_root env d info root mode = .ok u) :
    Voting.RootEligible env.toVotingEnv d info root := by
  cases mode with
  | Fixed =>
    simp [check_root, assert_root_not_revoked] at h
    exact ⟨h.2, .inl ⟨decode_eq_fixed.mp hmode, h.1⟩⟩
  | Trailing =>
    -- A root that is not older than the proposal is not older than the beginning.
    obtain ⟨k, hk, hearliest, hmin⟩ := Tree.root_eligibility_eq_zero.mp (check_eligibility_eq_ok.mp h)
    refine ⟨Tree.root_eligibility_eq_zero.mpr ⟨k, hk, Nat.zero_le k, hmin⟩,
      .inr ⟨decode_eq_trailing.mp hmode, k, ?_, by omega⟩⟩
    simp [Tree.root_idx, hk]

theorem verify_groth16_true {vk : Voting.VerificationKey} {signals : List U256}
    (h : verify_groth16 C vk proof signals = true) : C.verify_groth16 vk proof signals = true := by
  unfold verify_groth16 at h
  split at h
  · cases h
  · exact h

/-! ## Steps -/

/-- All that an accepted claim says. -/
structure Claimed (C : Crypto) (env : RewardsEnv) (s s' : RewardsState) (d p : Nat)
    (vote_nullifier claim_nullifier root : U256) (proof : Proof) : Prop where
  earned : Earned C env d p vote_nullifier claim_nullifier root proof
  fresh : s.claim_nullifier (d, p, claim_nullifier) = false
  covered : reward s d ≤ s.treasury d
  nullifier : s'.claim_nullifier = Function.update s.claim_nullifier (d, p, claim_nullifier) true
  treasury : s'.treasury = Function.update s.treasury d (s.treasury d - reward s d)
  total : s'.total_claimed = Function.update s.total_claimed d (s.total_claimed d + 1)

theorem claim_claimed (h : claim C env s d p vote_nullifier claim_nullifier root proof = .ok s') :
    Claimed C env s s' d p vote_nullifier claim_nullifier root proof := by
  simp [claim, assert_in_field, get_vk_by_version] at h
  obtain ⟨-, -, -, -, hfresh, hvoted, info, hinfo, mode, hmode, ⟨_, hroot⟩, _, -, -, vk, -, hcovered, hproof, -, -,
    rfl⟩ := h
  exact ⟨⟨hvoted, ⟨info, hinfo, check_root_eligible hmode hroot⟩, vk, verify_groth16_true hproof⟩, hfresh, hcovered,
    rfl, rfl, rfl⟩

/-- A call that is about no treasury. -/
structure SameAccounts (s s' : RewardsState) : Prop where
  treasury : s'.treasury = s.treasury
  nullifier : s'.claim_nullifier = s.claim_nullifier
  total : s'.total_claimed = s.total_claimed

theorem store_vk_same {vk : Voting.VerificationKey} (h : store_vk s d vk = .ok s') : SameAccounts s s' := by
  simp [store_vk] at h
  obtain ⟨-, rfl⟩ := h
  exact ⟨rfl, rfl, rfl⟩

/-- What an accepted call does to treasuries and claims. -/
inductive StepAccounts (C : Crypto) (env : RewardsEnv) (s s' : RewardsState) : Call → Prop where
  | same {call : Call} (same : SameAccounts s s') (funds : ∀ d, call.funds d = 0) (pays : ∀ d, call.pays s d = 0)
      (claims : call.claims = none) : StepAccounts C env s s' call
  | funded {d : Nat} {amount : Int} {admin : Address} (positive : 0 < amount)
      (capped : s.treasury d + amount ≤ MAX_FUNDING_CAP)
      (treasury : s'.treasury = Function.update s.treasury d (s.treasury d + amount))
      (nullifier : s'.claim_nullifier = s.claim_nullifier) (total : s'.total_claimed = s.total_claimed) :
      StepAccounts C env s s' (.fund_treasury d amount admin)
  | claimed {d p : Nat} {vote_nullifier claim_nullifier root : U256} {proof : Proof}
      (claimed : Claimed C env s s' d p vote_nullifier claim_nullifier root proof) :
      StepAccounts C env s s' (.claim d p vote_nullifier claim_nullifier root proof)

theorem step_accounts (h : step C s env call = .ok s') : StepAccounts C env s s' call := by
  cases call with
  | set_vk =>
    obtain ⟨_, -, h⟩ := bind_eq_ok.mp h
    obtain ⟨_, -, h⟩ := bind_eq_ok.mp h
    obtain ⟨_, -, h⟩ := bind_eq_ok.mp h
    exact .same (store_vk_same h) (fun _ => rfl) (fun _ => rfl) rfl
  | set_vk_from_registry =>
    obtain ⟨_, -, h⟩ := bind_eq_ok.mp h
    obtain ⟨_, -, h⟩ := bind_eq_ok.mp h
    exact .same (store_vk_same h) (fun _ => rfl) (fun _ => rfl) rfl
  | set_reward =>
    simp [step, set_reward] at h
    obtain ⟨-, -, -, rfl⟩ := h
    exact .same ⟨rfl, rfl, rfl⟩ (fun _ => rfl) (fun _ => rfl) rfl
  | fund_treasury d amount admin =>
    simp [step, fund_treasury] at h
    obtain ⟨-, -, hpositive, -, hcapped, rfl⟩ := h
    exact .funded hpositive hcapped rfl rfl rfl
  | claim => exact .claimed (claim_claimed h)

/-! ## The accounts of a DAO -/

/-- A reward is positive, so a claim never adds to the treasury. -/
def RewardsPositive (s : RewardsState) : Prop := ∀ d, 0 < reward s d

theorem recorded_claim (h : Claimed C env s s' d p vote_nullifier claim_nullifier root proof) :
    recorded s' d = insert (p, claim_nullifier) (recorded s d) := by
  ext ⟨q, n⟩
  simp only [recorded, h.nullifier, Set.mem_ofPred_eq, Set.mem_insert_iff, Function.update_apply, Prod.mk.injEq,
    true_and]
  split <;> simp_all

theorem recorded_claim_other {dao_id : Nat} (h : Claimed C env s s' d p vote_nullifier claim_nullifier root proof)
    (hne : dao_id ≠ d) : recorded s' dao_id = recorded s dao_id := by
  ext ⟨q, n⟩
  simp [recorded, h.nullifier, hne]

theorem funded_cons (dao_id : Nat) : funded dao_id ((s, env, call) :: log) = call.funds dao_id + funded dao_id log := by
  simp [funded]

theorem paid_cons (dao_id : Nat) : paid dao_id ((s, env, call) :: log) = call.pays s dao_id + paid dao_id log := by
  simp [paid]

theorem Accounted.of_same {dao_id : Nat} (h : Accounted log s dao_id)
    (htreasury : s'.treasury dao_id = s.treasury dao_id) (hrecorded : recorded s' dao_id = recorded s dao_id)
    (htotal : s'.total_claimed dao_id = s.total_claimed dao_id) (hfunds : call.funds dao_id = 0)
    (hpays : call.pays s dao_id = 0) : Accounted ((s, env, call) :: log) s' dao_id where
  balance := by rw [htreasury, h.balance, funded_cons, paid_cons, hfunds, hpays, zero_add, zero_add]
  nonneg := htreasury ▸ h.nonneg
  capped := htreasury ▸ h.capped
  finite := hrecorded ▸ h.finite
  counted := by rw [hrecorded, htotal, h.counted]

theorem Accounted.step {dao_id : Nat} (h : Accounted log s dao_id) (hpositive : RewardsPositive s)
    (hs : Rewards.step C s env call = .ok s') : Accounted ((s, env, call) :: log) s' dao_id := by
  cases step_accounts hs with
  | same hsame hfunds hpays =>
    have hrecorded : recorded s' dao_id = recorded s dao_id := by
      unfold recorded
      rw [hsame.nullifier]
    exact h.of_same (by rw [hsame.treasury]) hrecorded (by rw [hsame.total]) (hfunds dao_id) (hpays dao_id)
  | @funded d amount admin hamount hcapped htreasury hnullifier htotal =>
    have hrecorded : recorded s' dao_id = recorded s dao_id := by
      unfold recorded
      rw [hnullifier]
    by_cases hd : dao_id = d
    · subst hd
      have hbalance := h.balance
      have hnonneg := h.nonneg
      refine ⟨?_, ?_, ?_, hrecorded ▸ h.finite, by rw [hrecorded, htotal, h.counted]⟩
      · have hfunds : (Call.fund_treasury dao_id amount admin).funds dao_id = amount := if_pos rfl
        have hpays : (Call.fund_treasury dao_id amount admin).pays s dao_id = 0 := rfl
        rw [htreasury, Function.update_self, funded_cons, paid_cons, hfunds, hpays]
        omega
      · rw [htreasury, Function.update_self]
        omega
      · rw [htreasury, Function.update_self]
        exact hcapped
    · exact h.of_same (by rw [htreasury, Function.update_of_ne hd]) hrecorded (by rw [htotal])
        (if_neg (Ne.symm hd)) rfl
  | @claimed d p vote_nullifier claim_nullifier root proof hclaimed =>
    by_cases hd : dao_id = d
    · subst hd
      have hbalance := h.balance
      have hcovered := hclaimed.covered
      have hreward := hpositive dao_id
      have hcap := h.capped
      have hnew : (p, claim_nullifier) ∉ recorded s dao_id := by
        simp [recorded, hclaimed.fresh]
      refine ⟨?_, ?_, ?_, ?_, ?_⟩
      · have hfunds : (Call.claim dao_id p vote_nullifier claim_nullifier root proof).funds dao_id = 0 := rfl
        have hpays : (Call.claim dao_id p vote_nullifier claim_nullifier root proof).pays s dao_id = reward s dao_id :=
          if_pos rfl
        rw [hclaimed.treasury, Function.update_self, funded_cons, paid_cons, hfunds, hpays]
        omega
      · rw [hclaimed.treasury, Function.update_self]
        omega
      · rw [hclaimed.treasury, Function.update_self]
        omega
      · rw [recorded_claim hclaimed]
        exact h.finite.insert _
      · rw [recorded_claim hclaimed, Set.ncard_insert_of_notMem hnew h.finite, h.counted, hclaimed.total,
          Function.update_self]
    · exact h.of_same (by rw [hclaimed.treasury, Function.update_of_ne hd]) (recorded_claim_other hclaimed hd)
        (by rw [hclaimed.total, Function.update_of_ne hd]) rfl (if_neg (Ne.symm hd))

theorem step_positive (h : Rewards.step C s env call = .ok s') (hs : RewardsPositive s) : RewardsPositive s' := by
  cases call with
  | set_reward d amount admin =>
    simp [Rewards.step, set_reward] at h
    obtain ⟨-, -, ⟨hpositive, -⟩, rfl⟩ := h
    intro d'
    unfold reward
    simp only [Function.update_apply]
    split
    · exact hpositive
    · exact hs d'
  | set_vk =>
    obtain ⟨_, -, h⟩ := bind_eq_ok.mp h
    obtain ⟨_, -, h⟩ := bind_eq_ok.mp h
    obtain ⟨_, -, h⟩ := bind_eq_ok.mp h
    simp [store_vk] at h
    obtain ⟨-, rfl⟩ := h
    exact hs
  | set_vk_from_registry =>
    obtain ⟨_, -, h⟩ := bind_eq_ok.mp h
    obtain ⟨_, -, h⟩ := bind_eq_ok.mp h
    simp [store_vk] at h
    obtain ⟨-, rfl⟩ := h
    exact hs
  | fund_treasury =>
    simp [Rewards.step, fund_treasury] at h
    obtain ⟨-, -, -, -, -, rfl⟩ := h
    exact hs
  | claim =>
    simp [Rewards.step, claim, assert_in_field, get_vk_by_version] at h
    obtain ⟨-, -, -, -, -, -, _, -, _, -, -, _, -, -, _, -, -, -, -, -, rfl⟩ := h
    exact hs

/-! ## Runs -/

theorem constructor_positive : RewardsPositive (constructor registry) := by
  intro d
  change 0 < DEFAULT_REWARD
  decide

theorem constructor_accounted (dao_id : Nat) : Accounted [] (constructor registry) dao_id := by
  have hnone : recorded (constructor registry) dao_id = ∅ := by
    ext
    simp [recorded, constructor]
  refine ⟨rfl, le_rfl, ?_, ?_, ?_⟩
  · change 0 ≤ MAX_FUNDING_CAP
    decide
  · rw [hnone]
    exact Set.finite_empty
  · rw [hnone, Set.ncard_empty]
    rfl

theorem RewardsRun.accounted (hrun : RewardsRun C registry log s) (dao_id : Nat) : Accounted log s dao_id := by
  have hboth := Run.invariant_log (P := fun log s => RewardsPositive s ∧ Accounted log s dao_id)
    ⟨constructor_positive, constructor_accounted dao_id⟩
    (fun _ _ _ _ _ h hs => ⟨step_positive hs h.1, h.2.step h.1 hs⟩) hrun
  exact hboth.2

/-- What was claimed is recorded. -/
def Recorded (log : List (RewardsState × RewardsEnv × Call)) (s : RewardsState) : Prop :=
  ∀ e ∈ log, ∀ k, e.2.2.claims = some k → s.claim_nullifier k = true

theorem Recorded.step (h : Recorded log s) (hs : Rewards.step C s env call = .ok s') :
    Recorded ((s, env, call) :: log) s' := by
  intro e he k hk
  rcases List.mem_cons.mp he with rfl | he
  · cases step_accounts hs with
    | same _ _ _ hclaims =>
      rw [hclaims] at hk
      cases hk
    | funded => cases hk
    | claimed hclaimed =>
      cases hk
      rw [hclaimed.nullifier, Function.update_self]
  · have hold := h e he k hk
    cases step_accounts hs with
    | same hsame => rw [hsame.nullifier, hold]
    | funded _ _ _ hnullifier => rw [hnullifier, hold]
    | claimed hclaimed =>
      rw [hclaimed.nullifier, Function.update_apply]
      split
      · rfl
      · exact hold

theorem RewardsRun.recorded (hrun : RewardsRun C registry log s) : Recorded log s :=
  Run.invariant_log (P := Recorded) (fun _ he => by cases he) (fun _ _ _ _ _ h hs => h.step hs) hrun

theorem RewardsRun.once (hrun : RewardsRun C registry log s) : log.Pairwise fun e f => ¬ SameClaim e f := by
  refine Run.invariant_log (P := fun log _ => log.Pairwise fun e f => ¬ SameClaim e f) .nil
    (fun log s call s' hrun h hs => List.pairwise_cons.mpr ⟨?_, h⟩) hrun
  rintro f hf ⟨k, hk, hf'⟩
  have hused := RewardsRun.recorded hrun f hf k hf'
  obtain ⟨env, call⟩ := call
  cases step_accounts hs with
  | same _ _ _ hclaims =>
    rw [hclaims] at hk
    cases hk
  | funded => cases hk
  | claimed hclaimed =>
    cases hk
    rw [hclaimed.fresh] at hused
    cases hused

theorem RewardsRun.earned (hrun : RewardsRun C registry log s) : ∀ e ∈ log, EarnedCall C e := by
  refine Run.invariant_log (P := fun log _ => ∀ e ∈ log, EarnedCall C e) (fun _ he => by cases he)
    (fun log s call s' _ h hs => List.forall_mem_cons.mpr ⟨?_, h⟩) hrun
  intro d p vote_nullifier claim_nullifier root proof hcall
  obtain ⟨env, call⟩ := call
  cases hcall
  exact (claim_claimed hs).earned

/-- In every run, a treasury holds what was funded less what was paid, within its cap; each claim is paid once, is
counted, and was made for a recorded ballot with an eligible root. -/
theorem treasury_law_holds (hrun : RewardsRun C registry log s) : TreasuryLaw C log s :=
  ⟨RewardsRun.accounted hrun, RewardsRun.once hrun, RewardsRun.earned hrun⟩

end

/-! ## A claim -/

/-- A contract with a ballot of nullifier 5 in proposal 1 of DAO 0. -/
def votedState : Voting.VotingState :=
  let calls := Voting.openElection 100 ++ [.ballot (.vote 0 1 true 5 Tree.sampleRoot Voting.sampleProof)]
  ((Run.replay (Voting.next Voting.sampleCrypto) (calls.map fun c => (Voting.sampleEnv, c)) []
    (Voting.constructor 0 0)).map Prod.snd).getD (Voting.constructor 0 0)

def sampleEnv : RewardsEnv := { Voting.sampleEnv with voting := votedState }

def next (C : Crypto) (s : RewardsState) (call : RewardsEnv × Call) : Option RewardsState :=
  (step C s call.1 call.2).toOption

theorem exists_run {C : Crypto} {r : Address} (calls : List (RewardsEnv × Call))
    (test : List (RewardsState × RewardsEnv × Call) → RewardsState → Bool)
    (h : (Run.replay (next C) calls [] (constructor r)).any (fun e => test e.1 e.2) = true) :
    ∃ log s, RewardsRun C r log s ∧ test log s = true := by
  refine Run.exists_of_replay (fun s call s' h => ?_) h
  exact toOption_eq_some.mp h

/-- A treasury of 100 and a reward of 30, claimed once. -/
def claimCalls : List (RewardsEnv × Call) :=
  [(sampleEnv, .set_vk 0 (Voting.sampleVk 6) 0), (sampleEnv, .fund_treasury 0 100 0), (sampleEnv, .set_reward 0 30 0),
    (sampleEnv, .claim 0 1 5 6 Tree.sampleRoot Voting.sampleProof)]

theorem treasury_law_holds_after_a_claim : ∃ log s, RewardsRun Voting.sampleCrypto 0 log s ∧
    TreasuryLaw Voting.sampleCrypto log s ∧ s.treasury 0 = 70 ∧ s.total_claimed 0 = 1 := by
  obtain ⟨log, s, hrun, htest⟩ := exists_run (C := Voting.sampleCrypto) (r := 0) claimCalls
    (fun _ s => decide (s.treasury 0 = 70 ∧ s.total_claimed 0 = 1)) (by decide +kernel)
  exact ⟨log, s, hrun, treasury_law_holds hrun, of_decide_eq_true htest⟩

end ZkVote.Rewards

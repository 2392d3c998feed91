import ZkVote.Voting.Steps

/-!
# The voting contract: one weighted ballot per proof

The public signals of the weighted circuit are the commitment, the supply and the
weight. Nothing in them names the election, the nullifier or the choice, and the
contract keeps no record of the commitments it has counted.
-/

open Lib Lib.Outcome

namespace ZkVote.Voting

/-- The arguments of `vote_weighted`. -/
structure WeightedBallot where
  dao_id : Nat
  proposal_id : Nat
  vote_choice : Bool
  nullifier : U256
  root : U256
  proof : Proof
  balance_commitment : U256
  max_supply : U256
  weight : Nat
  domain_tag : Nat
  deriving DecidableEq

namespace WeightedBallot

def call (w : WeightedBallot) : Call :=
  .ballot (.vote_weighted w.dao_id w.proposal_id w.vote_choice w.nullifier w.root w.proof
    w.balance_commitment w.max_supply w.weight w.domain_tag)

def election (w : WeightedBallot) : Nat × Nat := (w.dao_id, w.proposal_id)

/-- What a proof should be bound to. -/
def slot (w : WeightedBallot) : (Nat × Nat) × U256 × Bool := (w.election, w.nullifier, w.vote_choice)

/-- What it is bound to. -/
def signals (w : WeightedBallot) : List U256 := [w.balance_commitment, w.max_supply, w.weight]

end WeightedBallot

def Call.weighted : Call → Option WeightedBallot
  | .ballot (.vote_weighted d p vote_choice n r proof commitment max_supply weight tag) =>
    some ⟨d, p, vote_choice, n, r, proof, commitment, max_supply, weight, tag⟩
  | _ => none

/-- The weight in the tally of an election. -/
def weighed (e : Election) : Nat :=
  (e.ballots.weighted_tally.getD {}).yes_weight + (e.ballots.weighted_tally.getD {}).no_weight

def weighted_key (s : VotingState) (dao_id : Nat) : Option VerificationKey :=
  (s.daos dao_id).keys.weighted_voting_key

/-- The checks of `vote_weighted` that look neither at the proof nor at what is pinned. -/
structure Admits (env : VotingEnv) (s : VotingState) (w : WeightedBallot) : Prop where
  running : NotPaused env s
  unlocked : s.inst.reentrancy_lock = false
  weight : ¬ (w.weight < MIN_WEIGHT ∨ MAX_WEIGHT < w.weight)
  domain_tag : w.domain_tag = DOMAIN_TAG_WEIGHTED
  nullifier_lt : w.nullifier < BN254_FR_MODULUS
  root_lt : w.root < BN254_FR_MODULUS
  commitment_lt : w.balance_commitment < BN254_FR_MODULUS
  nullifier_ne : w.nullifier ≠ 0
  commitment_ne : w.balance_commitment ≠ 0
  fresh : (s.elections w.dao_id w.proposal_id).ballots.nullifier w.nullifier = false
  proposal : ∃ p, (s.elections w.dao_id w.proposal_id).proposal = some p ∧ VotingOpen env p ∧
    w.root = p.eligible_root ∧ w.root = p.eligibility_snapshot_root ∧ HasRoom p w.vote_choice
  candidate : CandidateValid (s.elections w.dao_id w.proposal_id) w.vote_choice
  room : HasWeightRoom ((s.elections w.dao_id w.proposal_id).ballots.weighted_tally.getD {}) w.vote_choice
    w.weight

def IsPinned (s : VotingState) (w : WeightedBallot) : Prop :=
  is_weighted_balance_commitment s w.dao_id w.balance_commitment = true

/-! ## One call -/

/-- The call is this ballot, and it is accepted. -/
def CastsWeighted (C : Crypto) (e : VotingState × VotingEnv × Call) (w : WeightedBallot) : Prop :=
  e.2.2.weighted = some w ∧ ∃ s', Accepts C e.1 e.2 s'

/-- The call is this ballot, and its weight goes into the tally. -/
def Contributes (C : Crypto) (e : VotingState × VotingEnv × Call) (w : WeightedBallot) : Prop :=
  e.2.2.weighted = some w ∧
    weighed (e.1.elections w.dao_id w.proposal_id) <
      weighed ((settled C e.1 e.2).elections w.dao_id w.proposal_id)

section
variable {C : Crypto} {env : VotingEnv} {s s' : VotingState} {w : WeightedBallot} {call : Call}
  {e : VotingState × VotingEnv × Call}

theorem weighted_eq_some : call.weighted = some w ↔ call = w.call := by
  constructor
  · intro h
    unfold Call.weighted at h
    split at h
    · cases h
      rfl
    · cases h
  · rintro rfl
    rfl

theorem vote_weighted_ok_iff : (∃ s', step C s env w.call = .ok s') ↔
    Admits env s w ∧ IsPinned s w ∧
      ∃ vk, weighted_key s w.dao_id = some vk ∧ C.verify_groth16 vk w.proof w.signals = true := by
  constructor
  · rintro ⟨s', h⟩
    simp [step, BallotCall.run, WeightedBallot.call, vote_weighted] at h
    obtain ⟨hrunning, hlock, hweight, htag, hn, hr, hc, hn0, hc0, hpinned, hfresh, p, hp, hopen, hroot,
      hsnapshot, hcandidate, vk, hkey, hproof, htally, hroom, -⟩ := h
    exact ⟨⟨hrunning, hlock, by omega, htag, hn, hr, hc, hn0, hc0, hfresh,
      ⟨p, hp, hopen, hroot, hsnapshot, hroom⟩, hcandidate, htally⟩, hpinned, vk, hkey, hproof⟩
  · rintro ⟨h, hpinned, vk, hkey, hproof⟩
    obtain ⟨p, hp, hopen, hroot, hsnapshot, hroom⟩ := h.proposal
    have hweight := h.weight
    simp [step, BallotCall.run, WeightedBallot.call, vote_weighted]
    exact ⟨h.running, h.unlocked, by omega, h.domain_tag, h.nullifier_lt, h.root_lt, h.commitment_lt,
      h.nullifier_ne, h.commitment_ne, hpinned, h.fresh, p, hp, hopen, hroot, hsnapshot, h.candidate, vk, hkey,
      hproof, h.room, hroom⟩

theorem weighted_root {call : BallotCall} {r : U256} (h : call.run C env s = .ok s')
    (hweighted : call.isWeighted = true) (hr : r ∈ call.roots) :
    ∃ p, (s.elections call.election.1 call.election.2).proposal = some p ∧ r = p.eligible_root := by
  cases call with
  | vote_weighted d q vote_choice n root proof commitment max_supply weight tag =>
    let w : WeightedBallot := ⟨d, q, vote_choice, n, root, proof, commitment, max_supply, weight, tag⟩
    have hs : step C s env w.call = .ok s' := h
    obtain ⟨p, hp, -, hroot, -⟩ := (vote_weighted_ok_iff.mp ⟨s', hs⟩).1.proposal
    exact ⟨p, hp, (List.mem_singleton.mp hr).trans hroot⟩
  | _ => cases hweighted

theorem vote_weighted_weighed (h : step C s env w.call = .ok s') :
    weighed (s'.elections w.dao_id w.proposal_id) =
      weighed (s.elections w.dao_id w.proposal_id) + w.weight := by
  simp [step, BallotCall.run, WeightedBallot.call, vote_weighted] at h
  obtain ⟨-, -, -, -, -, -, -, -, -, -, -, p, -, -, -, -, -, vk, -, -, -, -, rfl⟩ := h
  simp [weighed, weighted_total]

theorem contributes_iff : Contributes C e w ↔ CastsWeighted C e w := by
  obtain ⟨s, env, call⟩ := e
  refine and_congr_right fun hcall => ?_
  obtain rfl := weighted_eq_some.mp hcall
  constructor
  · intro hlt
    rcases settled_cases C s (env, w.call) with hsame | haccepted
    · rw [hsame] at hlt
      exact absurd hlt (lt_irrefl _)
    · exact ⟨_, haccepted⟩
  · rintro ⟨s', hs⟩
    have hweight := (vote_weighted_ok_iff.mp ⟨s', hs⟩).1.weight
    have hpositive : MIN_WEIGHT ≤ w.weight := by omega
    rw [Accepts.settled hs, vote_weighted_weighed hs]
    exact Nat.lt_add_of_pos_right hpositive

/-! ## Pinned commitments -/

theorem Accepts.pinned {call : VotingEnv × Call} (hdormant : Dormant s) (h : Accepts C s call s') {d : Nat}
    {commitment : U256} (hpinned : (s.daos d).weighted_balance_commitment commitment = true) :
    (s'.daos d).weighted_balance_commitment commitment = true := by
  obtain ⟨env, call⟩ := call
  cases call with
  | ballot call =>
    obtain ⟨e', hb⟩ := ballot_step h
    rwa [hb.rewrites.daos]
  | tally call =>
    obtain ⟨e', hr, -⟩ := tally_step hdormant h
    rwa [hr.daos]
  | create call =>
    obtain ⟨id, e', p, hc⟩ := create_step h
    rw [hc.daos, Function.update_apply]
    split
    · rename_i hd
      rwa [hd] at hpinned
    · exact hpinned
  | phase call =>
    obtain ⟨e', hr, -⟩ := phase_step h
    rwa [hr.daos]
  | config call =>
    obtain ⟨e', hr, -⟩ := config_step h
    rwa [hr.daos]
  | dao call =>
    obtain ⟨d', hd⟩ := dao_step h
    rw [hd.daos, Function.update_apply]
    split
    · rename_i heq
      rw [heq] at hpinned
      rw [hd.pinned]
      cases call.pins with
      | none => exact hpinned
      | some c =>
        by_cases hc : commitment = c <;> simp [Voting.pinned, hc]
        exact hpinned
    · exact hpinned
  | inst call => rwa [(instance_step h).daos]

end

/-! ## Runs -/

/-- Each commitment adds to the tally of an election at most once. -/
def ContributesOnce (C : Crypto) (e e' : VotingState × VotingEnv × Call) : Prop :=
  ∀ w w', Contributes C e w → Contributes C e' w' → w.election = w'.election →
    w.balance_commitment ≠ w'.balance_commitment

/-- One proof, one election, one nullifier and one choice. -/
def BoundToSlot (C : Crypto) (e e' : VotingState × VotingEnv × Call) : Prop :=
  ∀ w w', CastsWeighted C e w → CastsWeighted C e' w' → w.proof = w'.proof → w.slot = w'.slot

/-- A ballot for a commitment that the election has counted fails a check, or its proof was made for
something else. -/
def ReuseStopped (C : Crypto) (made : Proof → Option (VerificationKey × List U256))
    (e e' : VotingState × VotingEnv × Call) : Prop :=
  ∀ w w', e.2.2.weighted = some w → CastsWeighted C e' w' → w.election = w'.election →
    w.balance_commitment = w'.balance_commitment → Admits e.2.1 e.1 w →
      ∀ vk, weighted_key e.1 w.dao_id = some vk → made w.proof ≠ some (vk, w.signals)

/-- A ballot with an accepted proof and another slot fails a check, or meets another key, or has other
signals. -/
def ReplayStopped (C : Crypto) (e e' : VotingState × VotingEnv × Call) : Prop :=
  ∀ w w', e.2.2.weighted = some w → CastsWeighted C e' w' → w.proof = w'.proof → w.slot ≠ w'.slot →
    Admits e.2.1 e.1 w → IsPinned e.1 w → weighted_key e.1 w.dao_id = weighted_key e'.1 w'.dao_id →
      w.signals ≠ w'.signals

section
variable {C : Crypto} {made : Proof → Option (VerificationKey × List U256)} {registry guardian : Address}
  {log : List (VotingState × VotingEnv × Call)} {s : VotingState} {w : WeightedBallot}
  {e e' : VotingState × VotingEnv × Call}

theorem castsWeighted_iff : CastsWeighted C e w ↔ e.2.2.weighted = some w ∧ Admits e.2.1 e.1 w ∧
    IsPinned e.1 w ∧
      ∃ vk, weighted_key e.1 w.dao_id = some vk ∧ C.verify_groth16 vk w.proof w.signals = true := by
  obtain ⟨s, env, call⟩ := e
  refine and_congr_right fun hcall => ?_
  obtain rfl := weighted_eq_some.mp hcall
  exact vote_weighted_ok_iff

theorem AttemptRun.pinned (hrun : AttemptRun C registry guardian log s) :
    ∀ e ∈ log, ∀ w, CastsWeighted C e w → IsPinned s w := by
  refine Run.invariant_log (P := fun log s => ∀ e ∈ log, ∀ w, CastsWeighted C e w → IsPinned s w)
    (by simp) (fun log s call s' hr hlog hs => ?_) hrun
  have hkept : ∀ w, IsPinned s w → IsPinned s' w := fun w hw => by
    rw [← show settled C s call = s' from hs]
    rcases settled_cases C s call with hsame | haccepted
    · rwa [hsame]
    · exact haccepted.pinned (AttemptRun.ok hr).dormant hw
  intro e he w hw
  rcases List.mem_cons.mp he with rfl | he
  · exact hkept w (castsWeighted_iff.mp hw).2.2.1
  · exact hkept w (hlog e he w hw)

variable (hmade : ∀ vk proof signals, C.verify_groth16 vk proof signals = true ↔ made proof = some (vk, signals))
include hmade

theorem contributesOnce_iff (hpinned : ∀ w, CastsWeighted C e' w → IsPinned e.1 w) :
    ContributesOnce C e e' ↔ ReuseStopped C made e e' := by
  constructor
  · intro h w w' hw hw' helection hcommitment hadmits vk hkey hproof
    have hdao : w.dao_id = w'.dao_id := congrArg Prod.fst helection
    have hpinned' : IsPinned e.1 w := by
      have h' := hpinned w' hw'
      rwa [IsPinned, ← hdao, ← hcommitment] at h'
    have hcast := castsWeighted_iff.mpr ⟨hw, hadmits, hpinned', vk, hkey, (hmade _ _ _).mpr hproof⟩
    exact h w w' (contributes_iff.mpr hcast) (contributes_iff.mpr hw') helection hcommitment
  · intro h w w' hw hw' helection hcommitment
    obtain ⟨hcall, hadmits, -, vk, hkey, hproof⟩ := castsWeighted_iff.mp (contributes_iff.mp hw)
    exact h w w' hcall (contributes_iff.mp hw') helection hcommitment hadmits vk hkey ((hmade _ _ _).mp hproof)

theorem boundToSlot_iff : BoundToSlot C e e' ↔ ReplayStopped C e e' := by
  constructor
  · intro h w w' hw hw' hproof hslot hadmits hpinned hkey hsignals
    obtain ⟨-, -, -, vk, hkey', hverify⟩ := castsWeighted_iff.mp hw'
    rw [← hproof, ← hsignals] at hverify
    exact hslot (h w w' (castsWeighted_iff.mpr ⟨hw, hadmits, hpinned, vk, hkey.trans hkey', hverify⟩) hw' hproof)
  · intro h w w' hw hw' hproof
    by_contra hslot
    obtain ⟨hcall, hadmits, hpinned, vk, hkey, hverify⟩ := castsWeighted_iff.mp hw
    obtain ⟨-, -, -, vk', hkey', hverify'⟩ := castsWeighted_iff.mp hw'
    -- One proof has one key and one list of signals.
    rw [hmade, hproof, (hmade _ _ _).mp hverify', Option.some.injEq, Prod.mk.injEq] at hverify
    refine h w w' hcall hw' hproof hslot hadmits hpinned ?_ hverify.2.symm
    rw [hkey, hkey', hverify.1]

/-- In every run, each commitment adds weight to an election at most once and each proof is accepted for one
election, nullifier and choice, if and only if the checks that look at neither stop every reuse of a commitment
and every replay of a proof. -/
theorem weighted_ballots_bound_iff (hrun : AttemptRun C registry guardian log s) :
    log.Pairwise (ContributesOnce C) ∧ log.Pairwise (BoundToSlot C) ↔
      log.Pairwise (ReuseStopped C made) ∧ log.Pairwise (ReplayStopped C) := by
  refine and_congr (Run.pairwise_iff (fun log s call s' hr _ e he => ?_) hrun)
    (Run.pairwise_iff (fun log s call s' hr _ e he => ?_) hrun)
  · exact contributesOnce_iff hmade (AttemptRun.pinned hr e he)
  · exact boundToSlot_iff hmade

end

/-! ## A proof that is used twice -/

/-- All proofs are made for one unit of weight under commitment 5. -/
def sampleMade : Proof → Option (VerificationKey × List U256) := fun _ => some (sampleVk 4, [5, 10, 1])

def madeCrypto : Crypto :=
  { sampleCrypto with
    verify_groth16 := fun vk proof signals => decide (sampleMade proof = some (vk, signals)) }

theorem madeCrypto_verifies (vk : VerificationKey) (proof : Proof) (signals : List U256) :
    madeCrypto.verify_groth16 vk proof signals = true ↔ sampleMade proof = some (vk, signals) :=
  decide_eq_true_iff

def weightedElection : List Call :=
  [.dao (.set_vk_from_registry 0 (sampleVk 7)), .dao (.set_weighted_vk 0 (sampleVk 4) 0),
    .dao (.set_weighted_balance_commitment 0 5), .create (.create_proposal 0 [] [] 0 1 .Fixed)]

def sampleWeighted (nullifier : U256) (vote_choice : Bool) : WeightedBallot where
  dao_id := 0
  proposal_id := 1
  vote_choice := vote_choice
  nullifier := nullifier
  root := Tree.sampleRoot
  proof := sampleProof
  balance_commitment := 5
  max_supply := 10
  weight := 1
  domain_tag := DOMAIN_TAG_WEIGHTED

theorem weighted_ballots_bound_iff_for_one_ballot : ∃ log s, AttemptRun madeCrypto 0 0 log s ∧
    (log.Pairwise (ContributesOnce madeCrypto) ∧ log.Pairwise (BoundToSlot madeCrypto) ↔
      log.Pairwise (ReuseStopped madeCrypto sampleMade) ∧ log.Pairwise (ReplayStopped madeCrypto)) ∧
    weighed (s.elections 0 1) = 1 := by
  obtain ⟨log, s, hrun, htest⟩ := exists_run (C := madeCrypto) (r := 0) (g := 0)
    (weightedElection ++ [(sampleWeighted 3 true).call]) (fun _ s => decide (weighed (s.elections 0 1) = 1))
    (by decide +kernel)
  exact ⟨log, s, VotingRun.attempts hrun, weighted_ballots_bound_iff madeCrypto_verifies (VotingRun.attempts hrun),
    of_decide_eq_true htest⟩

theorem VotingRun.last_two {C : Crypto} {log : List (VotingState × VotingEnv × Call)} {s : VotingState}
    {w w' : WeightedBallot} {calls : List (Option WeightedBallot)} (hrun : VotingRun C 0 0 log s)
    (hlog : log.map (fun e => e.2.2.weighted) = some w :: some w' :: calls) :
    ∃ e e' before, log = e :: e' :: before ∧ CastsWeighted C e w ∧ CastsWeighted C e' w' := by
  obtain ⟨e, rest, rfl, hw, hrest⟩ := List.map_eq_cons_iff.mp hlog
  obtain ⟨e', before, rfl, hw', -⟩ := List.map_eq_cons_iff.mp hrest
  have haccepted : ∀ x ∈ e :: e' :: before, ∃ s', Accepts C x.1 x.2 s' := fun x hx => by
    obtain ⟨-, -, s', -, -, hs, -⟩ := Run.split hrun hx
    exact ⟨s', hs⟩
  exact ⟨e, e', before, rfl, ⟨hw, haccepted e (by simp)⟩, ⟨hw', haccepted e' (by simp)⟩⟩

/-- One proof casts a yes under nullifier 3 and a no under nullifier 4, and commitment 5 is counted for both. -/
theorem weighted_proof_cast_twice : ∃ log s, AttemptRun madeCrypto 0 0 log s ∧
    (∀ vk proof signals,
      madeCrypto.verify_groth16 vk proof signals = true ↔ sampleMade proof = some (vk, signals)) ∧
    ¬ log.Pairwise (ContributesOnce madeCrypto) ∧ ¬ log.Pairwise (BoundToSlot madeCrypto) := by
  obtain ⟨log, s, hrun, htest⟩ := exists_run (C := madeCrypto) (r := 0) (g := 0)
    (weightedElection ++ [(sampleWeighted 3 true).call, (sampleWeighted 4 false).call])
    (fun log _ => decide (log.map (fun e => e.2.2.weighted) =
      [some (sampleWeighted 4 false), some (sampleWeighted 3 true), none, none, none, none]))
    (by decide +kernel)
  obtain ⟨e, e', before, rfl, hw, hw'⟩ := VotingRun.last_two hrun (of_decide_eq_true htest)
  refine ⟨_, s, VotingRun.attempts hrun, madeCrypto_verifies, fun honce => ?_, fun hbound => ?_⟩
  · rw [List.pairwise_cons] at honce
    exact honce.1 e' (by simp) _ _ (contributes_iff.mpr hw) (contributes_iff.mpr hw') rfl rfl
  · rw [List.pairwise_cons] at hbound
    have hslot := hbound.1 e' (by simp) _ _ hw hw' rfl
    revert hslot
    decide

end ZkVote.Voting

import ZkVote.Voting.Contract

/-!
# The voting contract: what a passed check says

One rule for each guard. Together they take an accepted call apart.
-/

open Lib Lib.Outcome

namespace ZkVote.Voting

section
variable {env : VotingEnv} {s s' : VotingState} {dao_id proposal_id : Nat} {e e' : Election}
  {p p' : ProposalInfo} {b b' : Ballots} {nullifier root : U256} {u : Unit} {ctx : PathContext}
  {err : VotingError → VotingError} {vote_choice : Bool}

/-! ## Pause and lock -/

/-- Not paused, or the pause has run out. -/
def NotPaused (env : VotingEnv) (s : VotingState) : Prop :=
  s.inst.paused = false ∨ saturatingAdd 64 s.inst.paused_at MAX_PAUSE_DURATION ≤ env.timestamp

def resumed (s : VotingState) : VotingState := { s with inst.paused := false }

def locked (s : VotingState) : VotingState := { s with inst.reentrancy_lock := true }

@[simp] theorem resumed_daos : (resumed s).daos = s.daos := rfl
@[simp] theorem resumed_elections : (resumed s).elections = s.elections := rfl
@[simp] theorem resumed_legacy : (resumed s).legacy_nullifier_used = s.legacy_nullifier_used := rfl
@[simp] theorem resumed_lock : (resumed s).inst.reentrancy_lock = s.inst.reentrancy_lock := rfl
@[simp] theorem locked_daos : (locked s).daos = s.daos := rfl
@[simp] theorem locked_elections : (locked s).elections = s.elections := rfl
@[simp] theorem locked_legacy : (locked s).legacy_nullifier_used = s.legacy_nullifier_used := rfl
@[simp] theorem clear_reentrancy_lock_daos : (clear_reentrancy_lock s).daos = s.daos := rfl
@[simp] theorem clear_reentrancy_lock_elections : (clear_reentrancy_lock s).elections = s.elections := rfl
@[simp] theorem clear_reentrancy_lock_legacy :
    (clear_reentrancy_lock s).legacy_nullifier_used = s.legacy_nullifier_used := rfl

@[simp] theorem require_not_paused_eq_ok :
    require_not_paused env s = .ok s' ↔ NotPaused env s ∧ resumed s = s' := by
  unfold require_not_paused NotPaused
  by_cases hp : s.inst.paused = false
  · have hs : resumed s = s := by
      obtain ⟨⟨⟩⟩ := s
      simp_all [resumed]
    simp [hp, hs]
  · simp [hp, resumed]

@[simp] theorem set_reentrancy_lock_eq_ok :
    set_reentrancy_lock s = .ok s' ↔ s.inst.reentrancy_lock = false ∧ locked s = s' := by
  simp [set_reentrancy_lock, locked]

/-- The instance entries that say who may do what, which contracts are asked, and which version this is. -/
structure SameInst (i i' : Instance) : Prop where
  registry : i'.registry = i.registry
  guardian : i'.guardian = i.guardian
  circuit_registry : i'.circuit_registry = i.circuit_registry
  transcript_registry : i'.transcript_registry = i.transcript_registry
  version : i'.version = i.version
  storage_version : i'.storage_version = i.storage_version

theorem SameInst.refl (i : Instance) : SameInst i i := ⟨rfl, rfl, rfl, rfl, rfl, rfl⟩

theorem resumed_sameInst : SameInst s.inst (resumed s).inst := ⟨rfl, rfl, rfl, rfl, rfl, rfl⟩

/-! ## Values and proposals -/

@[simp] theorem assert_in_field_eq_ok {value : U256} :
    assert_in_field ctx value = .ok u ↔ value < BN254_FR_MODULUS := by
  simp [assert_in_field]

@[simp] theorem assert_in_field_bls381_eq_ok {value : U256} :
    assert_in_field_bls381 ctx value = .ok u ↔ value < BLS12_381_FR_MODULUS := by
  simp [assert_in_field_bls381]

@[simp] theorem assert_weight_in_range_eq_ok {weight : Nat} :
    assert_weight_in_range ctx weight = .ok u ↔ ¬ (weight < MIN_WEIGHT ∨ MAX_WEIGHT < weight) := by
  simp [assert_weight_in_range]

@[simp] theorem assert_domain_tag_valid_eq_ok {domain_tag : Nat} :
    assert_domain_tag_valid ctx domain_tag = .ok u ↔ domain_tag = DOMAIN_TAG_WEIGHTED := by
  simp [assert_domain_tag_valid]

/-- The proposal takes ballots now. -/
def VotingOpen (env : VotingEnv) (p : ProposalInfo) : Prop :=
  p.state = .Active ∧ ¬ (p.end_time ≠ 0 ∧ p.end_time < env.timestamp)

@[simp] theorem assert_voting_open_eq_ok : assert_voting_open env err p = .ok u ↔ VotingOpen env p := by
  simp [assert_voting_open, VotingOpen]

/-- The choice is one of the candidates, if their number is set. -/
def CandidateValid (e : Election) (vote_choice : Bool) : Prop :=
  ¬ (0 < (election_config e).num_candidates ∧
    (election_config e).num_candidates ≤ vote_choice_index vote_choice)

@[simp] theorem assert_candidate_index_eq_ok :
    assert_candidate_index err e vote_choice = .ok u ↔ CandidateValid e vote_choice := by
  unfold assert_candidate_index CandidateValid
  exact require_eq_ok

@[simp] theorem assert_root_not_revoked_eq_ok :
    assert_root_not_revoked env ctx dao_id root = .ok u ↔ Tree.root_eligibility env.tree dao_id root 0 = 0 := by
  unfold assert_root_not_revoked
  split <;> simp_all

/-- The root is the proposal's or, in a trailing election, not older than the proposal; and no removal has
come after it. -/
def RootEligible (env : VotingEnv) (dao_id : Nat) (p : ProposalInfo) (root : U256) : Prop :=
  Tree.root_eligibility env.tree dao_id root 0 = 0 ∧
    (p.vote_mode = .Fixed ∧ root = p.eligible_root ∨
      p.vote_mode = .Trailing ∧ ∃ index, Tree.root_idx env.tree dao_id root = .ok index ∧
        ¬ index < p.earliest_root_index)

@[simp] theorem assert_root_eligible_eq_ok :
    assert_root_eligible env ctx dao_id p root = .ok u ↔ RootEligible env dao_id p root := by
  unfold assert_root_eligible RootEligible
  cases p.vote_mode with
  | Quadratic => simp
  | Fixed => simp [and_comm]
  | Trailing =>
    simp only [bind_eq_ok, require_eq_ok, invoke_eq_ok, assert_root_not_revoked_eq_ok, reduceCtorEq,
      false_and, true_and, false_or, exists_const]
    constructor
    · rintro ⟨index, hindex, hle, hroot⟩
      exact ⟨hroot, index, hindex, hle⟩
    · rintro ⟨hroot, index, hindex, hle⟩
      exact ⟨index, hindex, hle, hroot⟩

theorem RootEligible.mode_ne (h : RootEligible env dao_id p root) : p.vote_mode ≠ .Quadratic := by
  rcases h.2 with ⟨hm, _⟩ | ⟨hm, _⟩ <;> simp [hm]

/-! ## Nullifiers -/

@[simp] theorem nullifier_is_used_eq_false :
    nullifier_is_used b nullifier = false ↔
      b.nullifier nullifier = false ∧ b.nullifier_temporary nullifier = false := by
  simp [nullifier_is_used]

@[simp] theorem bump_nullifier_ttl_eq_ok :
    bump_nullifier_ttl b nullifier = .ok u ↔ b.nullifier nullifier = true := extend_ttl_eq_ok

@[simp] theorem consume_nullifier_eq_ok :
    consume_nullifier b nullifier = .ok b' ↔
      { b with nullifier := Function.update b.nullifier nullifier true } = b' := by
  simp [consume_nullifier]

/-! ## Counts -/

/-- The proposal with one more vote for the choice. -/
def counted (p : ProposalInfo) (vote_choice : Bool) : ProposalInfo :=
  if vote_choice = true then { p with yes_votes := p.yes_votes + 1 }
  else { p with no_votes := p.no_votes + 1 }

/-- The counter of the choice can go up. -/
def HasRoom (p : ProposalInfo) (vote_choice : Bool) : Prop :=
  (if vote_choice = true then p.yes_votes else p.no_votes) + 1 < 2 ^ 64

@[simp] theorem count_vote_eq_ok :
    count_vote err p vote_choice = .ok p' ↔ HasRoom p vote_choice ∧ counted p vote_choice = p' := by
  cases vote_choice <;> simp [count_vote, counted, HasRoom]

theorem counted_total : (counted p vote_choice).yes_votes + (counted p vote_choice).no_votes =
    p.yes_votes + p.no_votes + 1 := by
  cases vote_choice <;> simp [counted] <;> omega

@[simp] theorem counted_state : (counted p vote_choice).state = p.state := by
  cases vote_choice <;> rfl

@[simp] theorem counted_vote_mode : (counted p vote_choice).vote_mode = p.vote_mode := by
  cases vote_choice <;> rfl

/-- The tally with the weight of one more ballot. -/
def weighted (tally : WeightedTally) (vote_choice : Bool) (weight : Nat) : WeightedTally :=
  if vote_choice = true then
    { tally with yes_weight := tally.yes_weight + weight, yes_ballots := tally.yes_ballots + 1 }
  else { tally with no_weight := tally.no_weight + weight, no_ballots := tally.no_ballots + 1 }

/-- The counters of the choice can go up by the weight and by one. -/
def HasWeightRoom (tally : WeightedTally) (vote_choice : Bool) (weight : Nat) : Prop :=
  if vote_choice = true then tally.yes_weight + weight < 2 ^ 64 ∧ tally.yes_ballots + 1 < 2 ^ 64
  else tally.no_weight + weight < 2 ^ 64 ∧ tally.no_ballots + 1 < 2 ^ 64

@[simp] theorem count_weight_eq_ok {tally tally' : WeightedTally} {weight : Nat} :
    count_weight tally vote_choice weight = .ok tally' ↔
      HasWeightRoom tally vote_choice weight ∧ weighted tally vote_choice weight = tally' := by
  cases vote_choice <;> simp [count_weight, weighted, HasWeightRoom, and_assoc]

theorem weighted_total {tally : WeightedTally} {weight : Nat} :
    (weighted tally vote_choice weight).yes_weight + (weighted tally vote_choice weight).no_weight =
      tally.yes_weight + tally.no_weight + weight := by
  cases vote_choice <;> simp [weighted] <;> omega

end

end ZkVote.Voting

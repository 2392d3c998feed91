import ZkVote.Templates.SybilWeight
import ZkVote.Voting.Quadratic

/-!
# The circuit of the quadratic ballots

`circuits/quadratic_vote.circom` with the parameters of `circuits/quadratic_vote_main.circom`: the cost of a
ballot is a sum of squares, and nothing keeps two of its allocations from naming the same proposal.
-/

open Lib Lib.Outcome
open ZkVote.Prover (Fr SCALAR_MODULUS)

namespace ZkVote.Templates

/-! ## Splitting a number -/

/-- What it costs to split votes as evenly as they go. -/
def splitCost (n votes : Nat) : Nat :=
  (n - votes % n) * (votes / n * (votes / n)) + votes % n * ((votes / n + 1) * (votes / n + 1))

def evenSplit (n votes : Nat) : List Nat :=
  List.replicate (n - votes % n) (votes / n) ++ List.replicate (votes % n) (votes / n + 1)

/-- The line through the squares of two neighbours is below all other squares. -/
theorem line_le_squares (q : Nat) (parts : List Nat) :
    (2 * q + 1) * parts.sum ≤ (parts.map fun v => v * v).sum + parts.length * (q * (q + 1)) := by
  induction parts with
  | nil => simp
  | cons v parts ih =>
    have hline : (2 * q + 1) * v ≤ v * v + q * (q + 1) := by
      rcases Nat.le_total v q with h | h
      · obtain ⟨d, rfl⟩ := Nat.exists_eq_add_of_le h
        nlinarith
      · obtain ⟨d, rfl⟩ := Nat.exists_eq_add_of_le h
        nlinarith [Nat.le_mul_self d]
    simp only [List.sum_cons, List.map_cons, List.length_cons]
    nlinarith

theorem splitCost_eq {n : Nat} (hn : 0 < n) (votes : Nat) :
    splitCost n votes + n * (votes / n * (votes / n + 1)) = (2 * (votes / n) + 1) * votes := by
  have hdiv := Nat.div_add_mod votes n
  obtain ⟨rest, hrest⟩ := Nat.exists_eq_add_of_le (Nat.mod_lt votes hn).le
  have hsub : n - votes % n = rest := by omega
  unfold splitCost
  rw [hsub]
  generalize votes / n = q at *
  generalize votes % n = r at *
  subst hrest hdiv
  ring

/-- No other split is cheaper. -/
theorem splitCost_le {parts : List Nat} (hparts : 0 < parts.length) :
    splitCost parts.length parts.sum ≤ (parts.map fun v => v * v).sum := by
  have hline := line_le_squares (parts.sum / parts.length) parts
  have hcost := splitCost_eq hparts parts.sum
  omega

theorem evenSplit_length {n : Nat} (hn : 0 < n) (votes : Nat) : (evenSplit n votes).length = n := by
  have hlt := Nat.mod_lt votes hn
  simp only [evenSplit, List.length_append, List.length_replicate]
  omega

theorem evenSplit_sum {n : Nat} (hn : 0 < n) (votes : Nat) : (evenSplit n votes).sum = votes := by
  have hdiv := Nat.div_add_mod votes n
  obtain ⟨rest, hrest⟩ := Nat.exists_eq_add_of_le (Nat.mod_lt votes hn).le
  have hsub : n - votes % n = rest := by omega
  simp only [evenSplit, List.sum_append, List.sum_replicate, smul_eq_mul, hsub]
  generalize votes / n = q at *
  generalize votes % n = r at *
  subst hrest hdiv
  ring

theorem evenSplit_cost (n votes : Nat) : ((evenSplit n votes).map fun v => v * v).sum = splitCost n votes := by
  simp [evenSplit, splitCost]

/-! ## The template -/

def N : Nat := 5
def CREDIT_BITS : Nat := 4
def MAX_CREDITS : Nat := 10
def BUDGET_BITS : Nat := 16
def MAX_BUDGET : Nat := 100

/-- The private inputs; an allocation is one of `voiceCredits` with the one of `allocProposalIds`. -/
structure QuadraticBallot where
  secret : Fr
  salt : Fr
  path : List (Fr × Fr)
  allocations : List (Fr × Fr)

/-- The last of `partialSum`. -/
def partialSum (allocations : List (Fr × Fr)) : Fr :=
  allocations.foldl (fun sum allocation => sum + allocation.1 * allocation.1) 0

structure QuadraticVote (lib : Circomlib) (levels : Nat) (root daoId proposalId nullifier totalCreditsSpent
    allocationsHash : Fr) (ballot : QuadraticBallot) : Prop where
  included : MerkleTreeInclusionProof lib levels (lib.Poseidon [ballot.secret, ballot.salt]) ballot.path root
  nullifier_eq : nullifier = lib.Poseidon [ballot.secret, daoId, proposalId]
  length : ballot.allocations.length = N
  range : ∀ allocation ∈ ballot.allocations, RangeProof lib CREDIT_BITS allocation.1 (MAX_CREDITS : Nat)
  cost : totalCreditsSpent = partialSum ballot.allocations
  hash : allocationsHash = lib.Poseidon (ballot.allocations.flatMap fun allocation => [allocation.1, allocation.2])
  budgetCheck : lib.LessEqThan BUDGET_BITS totalCreditsSpent (MAX_BUDGET : Nat) 1

/-- The template on the public signals that the contract passes. -/
def QuadraticVote.Of (lib : Circomlib) (levels : Nat) : List U256 → QuadraticBallot → Prop
  | [root, daoId, proposalId, nullifier, totalCreditsSpent, allocationsHash], ballot =>
    QuadraticVote lib levels root daoId proposalId nullifier totalCreditsSpent allocationsHash ballot
  | _, _ => False

/-! ## The cost as a number -/

def QuadraticBallot.credits (ballot : QuadraticBallot) : List Nat := ballot.allocations.map fun a => a.1.val

/-- The credits that the ballot puts on a proposal, over all its allocations. -/
def QuadraticBallot.votesFor (ballot : QuadraticBallot) (proposal : Fr) : Nat :=
  (ballot.allocations.map fun a => if a.2 = proposal then a.1.val else 0).sum

def QuadraticBallot.spent (ballot : QuadraticBallot) : Nat := (ballot.credits.map fun v => v * v).sum

theorem partialSum_eq (ballot : QuadraticBallot) : partialSum ballot.allocations = (ballot.spent : Nat) := by
  have hfold : ∀ (allocations : List (Fr × Fr)) (sum : Fr),
      allocations.foldl (fun sum allocation => sum + allocation.1 * allocation.1) sum =
        sum + (((allocations.map fun a => a.1.val).map fun v => v * v).sum : Nat) := by
    intro allocations
    induction allocations with
    | nil => simp
    | cons a allocations ih =>
      intro sum
      simp only [List.foldl_cons, List.map_cons, List.sum_cons]
      rw [ih]
      push_cast
      rw [ZMod.natCast_zmod_val]
      ring
  rw [partialSum, hfold, zero_add]
  rfl

theorem spent_le {ballot : QuadraticBallot} (hcredits : ∀ v ∈ ballot.credits, v ≤ MAX_CREDITS) :
    ballot.spent ≤ ballot.allocations.length * 100 := by
  have hsquares : ∀ w ∈ ballot.credits.map fun v => v * v, w ≤ 100 := by
    intro w hw
    obtain ⟨v, hv, rfl⟩ := List.mem_map.mp hw
    exact Nat.mul_le_mul (hcredits v hv) (hcredits v hv)
  have hsum := List.sum_le_card_nsmul _ 100 hsquares
  simpa [QuadraticBallot.spent, QuadraticBallot.credits] using hsum

/-- What the constraints on the credits say of them as numbers. -/
theorem quadraticVote_iff {lib : Circomlib} (hlib : lib.Exact) {levels : Nat}
    {root daoId proposalId nullifier totalCreditsSpent allocationsHash : Fr} {ballot : QuadraticBallot} :
    QuadraticVote lib levels root daoId proposalId nullifier totalCreditsSpent allocationsHash ballot ↔
      MerkleTreeInclusionProof lib levels (lib.Poseidon [ballot.secret, ballot.salt]) ballot.path root ∧
      nullifier = lib.Poseidon [ballot.secret, daoId, proposalId] ∧ ballot.allocations.length = N ∧
      allocationsHash = lib.Poseidon (ballot.allocations.flatMap fun allocation => [allocation.1, allocation.2]) ∧
      (∀ v ∈ ballot.credits, v ≤ MAX_CREDITS) ∧ totalCreditsSpent = (ballot.spent : Nat) ∧
      ballot.spent ≤ MAX_BUDGET := by
  have hten : ((MAX_CREDITS : Nat) : Fr).val = MAX_CREDITS := val_natCast (by decide)
  have hhundred : ((MAX_BUDGET : Nat) : Fr).val = MAX_BUDGET := val_natCast (by decide)
  have hrange : ∀ v : Fr, RangeProof lib CREDIT_BITS v (MAX_CREDITS : Nat) ↔ v.val ≤ MAX_CREDITS := fun v => by
    rw [rangeProof_iff hlib (by decide) (by rw [hten]; decide), hten]
  have hcredits : (∀ allocation ∈ ballot.allocations, RangeProof lib CREDIT_BITS allocation.1 (MAX_CREDITS : Nat)) ↔
      ∀ v ∈ ballot.credits, v ≤ MAX_CREDITS := by
    simp only [hrange, QuadraticBallot.credits, List.forall_mem_map]
  -- five squares of at most ten stay below the field and the bits of the comparator
  have hbudget : ballot.allocations.length = N → (∀ v ∈ ballot.credits, v ≤ MAX_CREDITS) →
      (lib.LessEqThan BUDGET_BITS (ballot.spent : Nat) (MAX_BUDGET : Nat) 1 ↔ ballot.spent ≤ MAX_BUDGET) := by
    intro hlength hle
    have hspent : ballot.spent < 2 ^ BUDGET_BITS :=
      (spent_le hle).trans_lt (by rw [hlength]; decide)
    have hval : ((ballot.spent : Nat) : Fr).val = ballot.spent := val_natCast (hspent.trans (by decide))
    rw [hlib.less_eq.one (by decide) (by rwa [hval]) (by rw [hhundred]; decide), hval, hhundred, decide_eq_true_eq]
  constructor
  · rintro ⟨hincluded, hnullifier, hlength, hranges, hcost, hhash, hcheck⟩
    rw [partialSum_eq] at hcost
    have hle := hcredits.mp hranges
    exact ⟨hincluded, hnullifier, hlength, hhash, hle, hcost, (hbudget hlength hle).mp (hcost ▸ hcheck)⟩
  · rintro ⟨hincluded, hnullifier, hlength, hhash, hle, hcost, hcheck⟩
    refine ⟨hincluded, hnullifier, hlength, hcredits.mpr hle, ?_, hhash, ?_⟩
    · rw [hcost, partialSum_eq]
    · rw [hcost]
      exact (hbudget hlength hle).mpr hcheck

/-! ## One proposal -/

theorem splitCost_votesFor_le {ballot : QuadraticBallot} (hlength : ballot.allocations.length = N) (proposal : Fr) :
    splitCost N (ballot.votesFor proposal) ≤ ballot.spent := by
  have hpart := @splitCost_le (ballot.allocations.map fun a => if a.2 = proposal then a.1.val else 0)
    (by rw [List.length_map, hlength]; decide)
  rw [List.length_map, hlength] at hpart
  refine hpart.trans ?_
  rw [QuadraticBallot.spent, QuadraticBallot.credits, List.map_map, List.map_map]
  refine List.sum_le_sum fun a _ => ?_
  simp only [Function.comp_apply]
  split
  · exact le_rfl
  · exact Nat.zero_le _

/-- The ballot that puts so many votes on one proposal, split over its allocations. -/
def QuadraticBallot.concentrated (ballot : QuadraticBallot) (votes : Nat) (proposal : Fr) : QuadraticBallot :=
  { ballot with allocations := (evenSplit N votes).map fun v => (((v : Nat) : Fr), proposal) }

theorem evenSplit_le {votes : Nat} (hcost : splitCost N votes ≤ MAX_BUDGET) :
    ∀ v ∈ evenSplit N votes, v ≤ MAX_CREDITS := by
  intro v hv
  have hsquare : v * v ≤ splitCost N votes := by
    rw [← evenSplit_cost]
    exact List.le_sum_of_mem (List.mem_map_of_mem hv)
  have hmax : MAX_CREDITS = 10 := rfl
  have hbudget : MAX_BUDGET = 100 := rfl
  nlinarith

section
variable {votes : Nat}

theorem credits_concentrated (hcost : splitCost N votes ≤ MAX_BUDGET) (ballot : QuadraticBallot) (proposal : Fr) :
    (ballot.concentrated votes proposal).credits = evenSplit N votes := by
  rw [QuadraticBallot.credits, QuadraticBallot.concentrated, List.map_map]
  refine (List.map_congr_left fun v hv => ?_).trans (List.map_id _)
  exact val_natCast ((evenSplit_le hcost v hv).trans_lt (by decide))

theorem votesFor_concentrated (hcost : splitCost N votes ≤ MAX_BUDGET) (ballot : QuadraticBallot) (proposal : Fr) :
    (ballot.concentrated votes proposal).votesFor proposal = votes := by
  have hcredits := credits_concentrated hcost ballot proposal
  have hall : (ballot.concentrated votes proposal).votesFor proposal =
      (ballot.concentrated votes proposal).credits.sum := by
    simp [QuadraticBallot.votesFor, QuadraticBallot.credits, QuadraticBallot.concentrated, Function.comp_def]
  rw [hall, hcredits, evenSplit_sum (by decide)]

/-- It satisfies the circuit as the ballot does. -/
theorem QuadraticVote.of_concentrated {lib : Circomlib} (hlib : lib.Exact) {levels : Nat}
    {root daoId proposalId nullifier totalCreditsSpent allocationsHash : Fr} {ballot : QuadraticBallot}
    (h : QuadraticVote lib levels root daoId proposalId nullifier totalCreditsSpent allocationsHash ballot)
    (hcost : splitCost N votes ≤ MAX_BUDGET) (proposal : Fr) :
    QuadraticVote lib levels root daoId proposalId nullifier (splitCost N votes : Nat)
      (lib.Poseidon ((ballot.concentrated votes proposal).allocations.flatMap fun allocation =>
        [allocation.1, allocation.2])) (ballot.concentrated votes proposal) := by
  have hcredits := credits_concentrated hcost ballot proposal
  have hspent : (ballot.concentrated votes proposal).spent = splitCost N votes := by
    rw [QuadraticBallot.spent, hcredits, evenSplit_cost]
  refine (quadraticVote_iff hlib).mpr ⟨h.included, h.nullifier_eq, ?_, rfl, ?_, by rw [hspent], hspent ▸ hcost⟩
  · exact (List.length_map _).trans (evenSplit_length (by decide) votes)
  · rw [hcredits]
    exact evenSplit_le hcost

end

/-- On a proposal a quadratic ballot has the votes whose cheapest split over its allocations is within what it spends,
and whoever casts one could cast it with any such votes on one proposal, at the cost of that split. -/
theorem votes_are_split {lib : Circomlib} (hlib : lib.Exact) {levels : Nat} {C : Voting.Crypto}
    {registry guardian : Address} {log : List (Voting.VotingState × Voting.VotingEnv × Voting.Call)}
    {env : Voting.VotingEnv} {s s' : Voting.VotingState} {dao_id proposal_id total_credits_spent : Nat}
    {nullifier root allocations_hash : U256} {proof : Voting.Proof} {ballot : QuadraticBallot}
    (hrun : Voting.VotingRun C registry guardian log s)
    (h : Voting.cast_qv_vote C env s dao_id proposal_id nullifier root total_credits_spent allocations_hash proof =
      .ok s')
    (hballot : QuadraticVote.Of lib levels [root, dao_id, proposal_id, nullifier, total_credits_spent,
      allocations_hash] ballot)
    (hcomplete : ∀ version vk, Voting.get_qv_vk_by_version s dao_id version = .ok vk → ∀ signals ballot,
      QuadraticVote.Of lib levels signals ballot → ∃ proof, C.verify_groth16 vk proof signals = true) :
    (∀ proposal, splitCost N (ballot.votesFor proposal) ≤ total_credits_spent) ∧
    ∀ votes proposal, splitCost N votes ≤ MAX_BUDGET → ∃ ballot' allocations_hash' proof' s'',
      ballot'.votesFor proposal = votes ∧
      QuadraticVote.Of lib levels [root, dao_id, proposal_id, nullifier, splitCost N votes, allocations_hash']
        ballot' ∧
      Voting.cast_qv_vote C env s dao_id proposal_id nullifier root (splitCost N votes) allocations_hash' proof' =
        .ok s'' := by
  have hvote := hballot
  rw [QuadraticVote.Of] at hvote
  obtain ⟨-, -, hlength, -, -, htotal, hspent⟩ := (quadraticVote_iff hlib).mp hvote
  simp only [Voting.cast_qv_vote] at h ⊢
  simp at h
  obtain ⟨hfield, hroot, -, hzero, hwithin, hunused, p, hp, hmode, hopen, heligible, hrevoked, vk, hvk, hpinned, -,
    hcount, -, -⟩ := h
  subst heligible
  constructor
  · intro proposal
    have hval : total_credits_spent = ballot.spent := by
      have hbudget : Voting.MAX_QV_BUDGET = 100 := rfl
      have hmax : MAX_BUDGET = 100 := rfl
      have hcast := congrArg ZMod.val htotal
      rwa [val_natCast (by omega), val_natCast (by omega)] at hcast
    rw [hval]
    exact splitCost_votesFor_le hlength proposal
  · intro votes proposal hcost
    let ballot' := ballot.concentrated votes proposal
    let allocationsHash : Fr :=
      lib.Poseidon (ballot'.allocations.flatMap fun allocation => [allocation.1, allocation.2])
    have hsatisfied : QuadraticVote.Of lib levels [p.eligible_root, dao_id, proposal_id, nullifier,
        splitCost N votes, allocationsHash.val] ballot' := by
      rw [QuadraticVote.Of, ZMod.natCast_zmod_val]
      exact hvote.of_concentrated hlib hcost proposal
    obtain ⟨proof', hproof⟩ := hcomplete _ vk hvk _ _ hsatisfied
    have hbound : splitCost N votes ≤ Voting.MAX_QV_BUDGET := hcost
    have hroom := (hrun.accounts dao_id proposal_id).room hbound
    norm_num at hroom
    have hhash : allocationsHash.val < Voting.BN254_FR_MODULUS := ZMod.val_lt allocationsHash
    have hvotes : ballot'.votesFor proposal = votes := votesFor_concentrated hcost ballot proposal
    refine ⟨ballot', allocationsHash.val, proof', ?_⟩
    simp [hfield, hroot, hzero, hunused, hp, hmode, hopen, hrevoked, hvk, hpinned, hproof, hcount, hbound, hroom,
      hhash, hsatisfied, hvotes]

/-- More than twice the votes that the square root of the budget gives. -/
example : splitCost N 22 = 98 := by decide

/-- A world whose tree has one member, under the hash of a secret and a salt. -/
def quadraticEnv : Voting.VotingEnv :=
  { Voting.sampleEnv with
    tree := ((Run.replay (Tree.next sampleHashes) ((sampleMember 17).map fun c => (Tree.sampleEnv, c)) []
      (Tree.constructor sampleHashes 0)).map Prod.snd).getD (Tree.constructor sampleHashes 0) }

/-- Five credits, one for each of five proposals. -/
def sampleQuadraticBallot : QuadraticBallot where
  secret := (5 : Nat)
  salt := (6 : Nat)
  path := [((13 : Nat), 0)]
  allocations := (List.range N).map fun p => (((1 : Nat) : Fr), ((p : Nat) : Fr))

theorem sampleQuadraticBallot_satisfies :
    QuadraticVote.Of sampleLib 1 [30, 0, 1, 16, 5, 20] sampleQuadraticBallot := by
  refine (quadraticVote_iff sampleLib_exact).mpr
    ⟨⟨rfl, fun step hstep => ?_, by decide⟩, by decide, by decide, ?_, ?_, ?_, ?_⟩
  · obtain rfl := List.mem_singleton.mp hstep
    simp
  all_goals decide

set_option maxRecDepth 4000 in
theorem votes_are_split_for_a_member : ∃ log s, Voting.VotingRun sampleCrypto 0 0 log s ∧
    (∀ proposal, splitCost N (sampleQuadraticBallot.votesFor proposal) ≤ 5) ∧
    ∀ votes proposal, splitCost N votes ≤ MAX_BUDGET → ∃ ballot' allocations_hash' proof' s'',
      ballot'.votesFor proposal = votes ∧
      QuadraticVote.Of sampleLib 1 [30, 0, 1, 16, splitCost N votes, allocations_hash'] ballot' ∧
      Voting.cast_qv_vote sampleCrypto quadraticEnv s 0 1 16 30 (splitCost N votes) allocations_hash' proof' =
        .ok s'' := by
  obtain ⟨log, s, hrun, htest⟩ := Voting.exists_run_at (C := sampleCrypto) (r := 0) (g := 0)
    ([Voting.Call.dao (.set_qv_vk 0 (Voting.sampleVk Voting.QV_CIRCUIT_IC_LEN) 0),
      .create (.create_qv_proposal 0 [] [] 0 1 30)].map fun c => (quadraticEnv, c))
    (fun _ s => (Voting.cast_qv_vote sampleCrypto quadraticEnv s 0 1 16 30 5 20 Voting.sampleProof).isOk) (by decide)
  obtain ⟨s', hs'⟩ := isOk_iff.mp htest
  exact ⟨log, s, hrun, votes_are_split sampleLib_exact hrun hs' sampleQuadraticBallot_satisfies
    fun _ _ _ _ _ _ => ⟨Voting.sampleProof, rfl⟩⟩

end ZkVote.Templates

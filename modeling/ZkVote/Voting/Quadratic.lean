import ZkVote.Lib.Totals
import ZkVote.Voting.Footprints

/-!
# The voting contract: quadratic rounds

A round counts its ballots and adds up the credits they spend. Its tally comes from outside, and is recorded
under a flag that no quadratic call looks at.
-/

open Lib Lib.Outcome

namespace ZkVote.Voting

/-! ## The accounts of a round -/

/-- What the count and the total of a round say about its ballots. -/
structure QvAccounts (e : Election) : Prop where
  accounted : Accounted e.ballots.qv_ballot QvBallot.total_credits_spent e.ballots.qv_ballot_count
    e.ballots.qv_credits_total
  within : ∀ n ballot, e.ballots.qv_ballot n = some ballot → ballot.total_credits_spent ≤ MAX_QV_BUDGET
  count_lt : e.ballots.qv_ballot_count < 2 ^ 64

section
variable {C : Crypto} {env : VotingEnv} {s s' : VotingState} {call : Call} {d q : Nat} {e e' : Election}

theorem QvAccounts.of_eq (h : QvAccounts e) (hballot : e'.ballots.qv_ballot = e.ballots.qv_ballot)
    (hcount : e'.ballots.qv_ballot_count = e.ballots.qv_ballot_count)
    (hcredits : e'.ballots.qv_credits_total = e.ballots.qv_credits_total) : QvAccounts e' := by
  obtain ⟨haccounted, hwithin, hlt⟩ := h
  rw [← hballot, ← hcount, ← hcredits] at haccounted
  exact ⟨haccounted, hballot ▸ hwithin, hcount ▸ hlt⟩

theorem QvAccounts.credits_le (h : QvAccounts e) :
    e.ballots.qv_credits_total ≤ MAX_QV_BUDGET * e.ballots.qv_ballot_count :=
  h.accounted.sum_le h.within

/-- The credits of one more ballot always fit. -/
theorem QvAccounts.room (h : QvAccounts e) {spent : Nat} (hspent : spent ≤ MAX_QV_BUDGET) :
    e.ballots.qv_credits_total + spent < 2 ^ 128 := by
  have hbudget : MAX_QV_BUDGET = 100 := rfl
  have hle := h.credits_le
  have hlt := h.count_lt
  rw [hbudget] at hle hspent
  omega

theorem cast_qv_vote_accounts {n root : U256} {spent : Nat} {allocations_hash : U256} {proof : Proof}
    (h : cast_qv_vote C env s d q n root spent allocations_hash proof = .ok s') (hkept : QvAccounts (s.elections d q)) :
    QvAccounts (s'.elections d q) := by
  simp [cast_qv_vote] at h
  obtain ⟨-, -, -, -, hspent, hfresh, p, -, -, -, -, -, vk, -, -, -, hcount, -, rfl⟩ := h
  rw [VotingState.set_election_self]
  refine ⟨hkept.accounted.insert hfresh ⟨allocations_hash, spent⟩, fun m ballot hballot => ?_, hcount⟩
  have hupdate : Function.update (s.elections d q).ballots.qv_ballot n (some ⟨allocations_hash, spent⟩) m = some ballot :=
    hballot
  by_cases hm : m = n
  · subst hm
    rw [Function.update_self, Option.some.injEq] at hupdate
    subst hupdate
    exact hspent
  · rw [Function.update_of_ne hm] at hupdate
    exact hkept.within m ballot hupdate

theorem record_qv_tally_eq_ok {proposal_ids tallies : List Nat} {proof : Proof} :
    record_qv_tally C s d q proposal_ids tallies proof = .ok s' ↔
      ¬ (proposal_ids.length = 0 ∨ proposal_ids.length ≠ tallies.length) ∧
      ∃ p, (s.elections d q).proposal = some p ∧ p.vote_mode = .Quadratic ∧
      ∃ vk, (s.daos d).keys.qv_tally_key = some vk ∧
        C.verify_groth16 vk proof (q :: (proposal_ids ++ tallies)) = true ∧
        s' = s.set_election d q { s.elections d q with
          qv_tally := write_qv_tallies (s.elections d q).qv_tally (proposal_ids.zip tallies)
          qv_tally_finalized := true } := by
  simp only [record_qv_tally, bind_eq_ok, require_eq_ok, expect_eq_ok, orPanic_eq_ok, pure_eq_ok]
  constructor
  · rintro ⟨-, hlength, p, hp, -, hmode, vk, hvk, -, hproof, rfl⟩
    exact ⟨hlength, p, hp, hmode, vk, hvk, hproof, rfl⟩
  · rintro ⟨hlength, p, hp, hmode, vk, hvk, hproof, rfl⟩
    exact ⟨(), hlength, p, hp, (), hmode, vk, hvk, (), hproof, rfl⟩

theorem writes_quadratic (h : call.writes .quadratic = true) :
    (∃ d q n root spent allocations_hash proof,
      call = .ballot (.cast_qv_vote d q n root spent allocations_hash proof)) ∨
    ∃ d q proposal_ids tallies proof, call = .tally (.record_qv_tally d q proposal_ids tallies proof) := by
  cases call with
  | ballot call =>
    cases call with
    | cast_qv_vote d q n root spent allocations_hash proof =>
      exact .inl ⟨d, q, n, root, spent, allocations_hash, proof, rfl⟩
    | _ => cases h
  | tally call =>
    cases call with
    | record_qv_tally d q proposal_ids tallies proof => exact .inr ⟨d, q, proposal_ids, tallies, proof, rfl⟩
    | _ => cases h
  | config call => cases call <;> cases h
  | create call => cases h
  | phase call => cases h
  | dao call => cases h
  | inst call => cases h

theorem step_accounts (hs : VotingOk s) (h : step C s env call = .ok s') (hkept : ∀ d q, QvAccounts (s.elections d q))
    (d q : Nat) : QvAccounts (s'.elections d q) := by
  by_cases hwrites : call.writes .quadratic = true
  · rcases writes_quadratic hwrites with ⟨d', q', n, root, spent, hash, proof, rfl⟩ | ⟨d', q', ids, tallies, proof, rfl⟩
    · by_cases hslot : d = d' ∧ q = q'
      · obtain ⟨rfl, rfl⟩ := hslot
        exact cast_qv_vote_accounts h (hkept d q)
      · have hrun : (BallotCall.cast_qv_vote d' q' n root spent hash proof).run C env s = .ok s' := h
        obtain ⟨e', hb⟩ := ballot_step hrun
        rw [hb.rewrites.of_ne hslot]
        exact hkept d q
    · obtain ⟨-, p, -, -, vk, -, -, rfl⟩ := record_qv_tally_eq_ok.mp h
      refine VotingState.set_election_forall (P := fun _ _ e => QvAccounts e) hkept ?_ d q
      exact (hkept d' q').of_eq rfl rfl rfl
  · have hsame := step_samePart hs h (Bool.eq_false_iff.mpr hwrites) d q
    simp only [SamePart, Prod.mk.injEq] at hsame
    exact (hkept d q).of_eq hsame.1 hsame.2.1 hsame.2.2.1

end

section
variable {C : Crypto} {registry guardian : Address} {log : List (VotingState × VotingEnv × Call)} {s : VotingState}

theorem VotingRun.accounts (hrun : VotingRun C registry guardian log s) : ∀ d q, QvAccounts (s.elections d q) := by
  refine Run.invariant_log (P := fun _ s => ∀ d q, QvAccounts (s.elections d q)) (fun d q => ?_)
    (fun log s call s' hr hkept (hs : Accepts C s call s') => step_accounts (VotingRun.ok hr) hs hkept) hrun
  exact ⟨accounted_none, nofun, Nat.two_pow_pos 64⟩

/-- In every reachable state the count of a round is the number of its stored ballots and its total the sum of
their credits, which stays within the budget of that many ballots and has room for one more. -/
theorem qv_accounts_hold (hrun : VotingRun C registry guardian log s) (d q : Nat) :
    Accounted (s.elections d q).ballots.qv_ballot QvBallot.total_credits_spent
        (s.elections d q).ballots.qv_ballot_count (s.elections d q).ballots.qv_credits_total ∧
      (s.elections d q).ballots.qv_credits_total ≤ MAX_QV_BUDGET * (s.elections d q).ballots.qv_ballot_count ∧
      (s.elections d q).ballots.qv_ballot_count < 2 ^ 64 ∧
      ∀ spent ≤ MAX_QV_BUDGET, (s.elections d q).ballots.qv_credits_total + spent < 2 ^ 128 := by
  have hkept := hrun.accounts d q
  exact ⟨hkept.accounted, hkept.credits_le, hkept.count_lt, fun _ hspent => hkept.room hspent⟩

end

/-- A round with a ballot that spends 25 credits. -/
def qvRound : List Call :=
  [.dao (.set_qv_vk 0 (sampleVk QV_CIRCUIT_IC_LEN) 0), .dao (.set_qv_tally_vk 0 (sampleVk 4) 0),
    .create (.create_qv_proposal 0 [] [] 0 1 Tree.sampleRoot),
    .ballot (.cast_qv_vote 0 1 3 Tree.sampleRoot 25 7 sampleProof)]

theorem qv_accounts_hold_for_one_ballot : ∃ log s, VotingRun sampleCrypto 0 0 log s ∧
    (Accounted (s.elections 0 1).ballots.qv_ballot QvBallot.total_credits_spent
        (s.elections 0 1).ballots.qv_ballot_count (s.elections 0 1).ballots.qv_credits_total ∧
      (s.elections 0 1).ballots.qv_credits_total ≤ MAX_QV_BUDGET * (s.elections 0 1).ballots.qv_ballot_count ∧
      (s.elections 0 1).ballots.qv_ballot_count < 2 ^ 64 ∧
      ∀ spent ≤ MAX_QV_BUDGET, (s.elections 0 1).ballots.qv_credits_total + spent < 2 ^ 128) ∧
    (s.elections 0 1).ballots.qv_credits_total = 25 := by
  obtain ⟨log, s, hrun, htest⟩ := exists_run (C := sampleCrypto) (r := 0) (g := 0) qvRound
    (fun _ s => (s.elections 0 1).ballots.qv_credits_total == 25) (by decide +kernel)
  exact ⟨log, s, hrun, qv_accounts_hold hrun 0 1, beq_iff_eq.mp htest⟩

/-! ## The tally of a round -/

def Call.CastsQv (dao_id proposal_id : Nat) : Call → Prop
  | .ballot (.cast_qv_vote d q _ _ _ _ _) => d = dao_id ∧ q = proposal_id
  | _ => False

def Call.RecordsTally (dao_id round_id : Nat) : Call → Prop
  | .tally (.record_qv_tally d q _ _ _) => d = dao_id ∧ q = round_id
  | _ => False

def HasTally (dao_id round_id : Nat) (log : List (VotingState × VotingEnv × Call)) : Prop :=
  ∃ e ∈ log, e.2.2.RecordsTally dao_id round_id

/-- The round has been closed or archived. -/
def Ended (e : Election) : Prop := ∃ p, e.proposal = some p ∧ (p.state = .Closed ∨ p.state = .Archived)

/-- A recorded tally stays and ends the voting, and is recorded for a round that has ended. -/
def QvFinal (m : VotingMoment) : Prop :=
  ∀ dao_id round_id,
    (HasTally dao_id round_id m.past →
      (m.post.elections dao_id round_id).qv_tally = (m.pre.elections dao_id round_id).qv_tally ∧
        ¬ m.call.2.CastsQv dao_id round_id) ∧
      (m.call.2.RecordsTally dao_id round_id → Ended (m.pre.elections dao_id round_id))

/-- What the call says last about each proposal is what the tally has. -/
def Repeats (tally : Nat → Option Nat) (proposal_ids tallies : List Nat) : Prop :=
  ∀ proposal_id t, (proposal_ids.zip tallies).reverse.lookup proposal_id = some t → tally proposal_id = some t

/-- A tally comes after the end of its round, and a later one repeats it. -/
def TalliesInTime (m : VotingMoment) : Prop :=
  ∀ dao_id round_id proposal_ids tallies tally_proof,
    m.call.2 = .tally (.record_qv_tally dao_id round_id proposal_ids tallies tally_proof) →
      Ended (m.pre.elections dao_id round_id) ∧
        (HasTally dao_id round_id m.past → Repeats (m.pre.elections dao_id round_id).qv_tally proposal_ids tallies)

section
variable {C : Crypto} {registry guardian : Address} {env : VotingEnv} {s s' : VotingState} {call : Call} {d q : Nat}
  {log : List (VotingState × VotingEnv × Call)}

theorem write_qv_tallies_apply (tally : Nat → Option Nat) (entries : List (Nat × Nat)) (proposal_id : Nat) :
    write_qv_tallies tally entries proposal_id = (entries.reverse.lookup proposal_id).or (tally proposal_id) := by
  induction entries generalizing tally with
  | nil => rfl
  | cons entry rest ih =>
    obtain ⟨pid, t⟩ := entry
    rw [write_qv_tallies, ih, List.reverse_cons, List.lookup_append, Option.or_assoc]
    congr 1
    by_cases hpid : proposal_id = pid
    · simp [hpid]
    · have hne : (proposal_id == pid) = false := beq_eq_false_iff_ne.mpr hpid
      simp [hne, Function.update_of_ne hpid]

theorem write_qv_tallies_eq_self {tally : Nat → Option Nat} {proposal_ids tallies : List Nat} :
    write_qv_tallies tally (proposal_ids.zip tallies) = tally ↔ Repeats tally proposal_ids tallies := by
  constructor
  · intro hsame proposal_id t ht
    have hwritten := write_qv_tallies_apply tally (proposal_ids.zip tallies) proposal_id
    rw [hsame, ht] at hwritten
    exact hwritten
  · intro hrepeats
    funext proposal_id
    rw [write_qv_tallies_apply]
    cases ht : (proposal_ids.zip tallies).reverse.lookup proposal_id with
    | none => rfl
    | some t => exact (hrepeats proposal_id t ht).symm

theorem Ended.kept (hs : VotingOk s) (h : step C s env call = .ok s') (hended : Ended (s.elections d q)) :
    Ended (s'.elections d q) := by
  obtain ⟨p, hp, hstate⟩ := hended
  obtain ⟨p', hp', hrank⟩ := step_rank hs h hp
  refine ⟨p', hp', ?_⟩
  rcases hstate with hstate | hstate <;> rw [hstate] at hrank <;> cases hp'state : p'.state <;>
    simp [hp'state, ProposalState.rank] at hrank ⊢

theorem Call.castsQv_iff : call.CastsQv d q ↔
    ∃ n root spent allocations_hash proof, call = .ballot (.cast_qv_vote d q n root spent allocations_hash proof) := by
  constructor
  · intro h
    unfold Call.CastsQv at h
    split at h
    · next n root spent hash proof =>
      obtain ⟨rfl, rfl⟩ := h
      exact ⟨n, root, spent, hash, proof, rfl⟩
    · exact h.elim
  · rintro ⟨n, root, spent, hash, proof, rfl⟩
    exact ⟨rfl, rfl⟩

theorem Call.recordsTally_iff : call.RecordsTally d q ↔
    ∃ proposal_ids tallies proof, call = .tally (.record_qv_tally d q proposal_ids tallies proof) := by
  constructor
  · intro h
    unfold Call.RecordsTally at h
    split at h
    · next ids tallies proof =>
      obtain ⟨rfl, rfl⟩ := h
      exact ⟨ids, tallies, proof, rfl⟩
    · exact h.elim
  · rintro ⟨ids, tallies, proof, rfl⟩
    exact ⟨rfl, rfl⟩

theorem Ended.not_castsQv (h : step C s env call = .ok s') (hended : Ended (s.elections d q)) : ¬ call.CastsQv d q := by
  intro hcasts
  obtain ⟨n, root, spent, hash, proof, rfl⟩ := Call.castsQv_iff.mp hcasts
  obtain ⟨p, hp, hstate⟩ := hended
  have hrun : (BallotCall.cast_qv_vote d q n root spent hash proof).run C env s = .ok s' := h
  obtain ⟨e', p', -, hpassed⟩ := ballot_passed hrun
  have hp' : (s.elections d q).proposal = some p' := hpassed.proposal
  obtain rfl : p = p' := Option.some.inj (hp.symm.trans hp')
  rw [hpassed.active] at hstate
  simp at hstate

/-- Where every tally came in time, a round with a tally has ended. -/
theorem VotingRun.ended (hrun : VotingRun C registry guardian log s) (hlog : ∀ m ∈ Run.moments log s, TalliesInTime m)
    (hrecorded : HasTally d q log) : Ended (s.elections d q) := by
  refine Run.invariant_log (P := fun log s => (∀ m ∈ Run.moments log s, TalliesInTime m) →
    HasTally d q log → Ended (s.elections d q)) (fun _ h => ?_) (fun log s call s' hr ih hs hlog hrecorded => ?_)
    hrun hlog hrecorded
  · obtain ⟨e, he, -⟩ := h
    cases he
  · rw [Run.moments, List.forall_mem_cons] at hlog
    obtain ⟨e, he, hcall⟩ := hrecorded
    have hended : Ended (s.elections d q) := by
      rcases List.mem_cons.mp he with rfl | he
      · obtain ⟨ids, tallies, proof, hcall⟩ := Call.recordsTally_iff.mp hcall
        exact (hlog.1 d q ids tallies proof hcall).1
      · exact ih hlog.2 ⟨e, he, hcall⟩
    exact hended.kept (VotingRun.ok hr) hs

theorem qv_tally_unchanged (hs : VotingOk s) (h : step C s env call = .ok s')
    (hcalls : ∀ proposal_ids tallies proof, call = .tally (.record_qv_tally d q proposal_ids tallies proof) →
      Repeats (s.elections d q).qv_tally proposal_ids tallies) :
    (s'.elections d q).qv_tally = (s.elections d q).qv_tally := by
  by_cases hwrites : call.writes .quadratic = true
  · rcases writes_quadratic hwrites with ⟨d', q', n, root, spent, hash, proof, rfl⟩ | ⟨d', q', ids, tallies, proof, rfl⟩
    · simp [step, BallotCall.run, cast_qv_vote] at h
      obtain ⟨-, -, -, -, -, -, p, -, -, -, -, -, vk, -, -, -, -, -, rfl⟩ := h
      refine VotingState.set_election_forall (P := fun d q e => e.qv_tally = (s.elections d q).qv_tally)
        (fun _ _ => rfl) ?_ d q
      rfl
    · obtain ⟨-, p, -, -, vk, -, -, rfl⟩ := record_qv_tally_eq_ok.mp h
      rw [VotingState.set_election_apply]
      split
      · next hslot =>
        obtain ⟨rfl, rfl⟩ := hslot
        exact write_qv_tallies_eq_self.mpr (hcalls ids tallies proof rfl)
      · rfl
  · have hsame := step_samePart hs h (Bool.eq_false_iff.mpr hwrites) d q
    simp only [SamePart, Prod.mk.injEq] at hsame
    exact hsame.2.2.2.1

/-- In every run, a recorded tally is final and the end of the voting, and comes after the end of its round, if
and only if each tally is recorded for a round that has ended and repeats the one before it. -/
theorem qv_tally_final_iff (hrun : VotingRun C registry guardian log s) :
    (∀ m ∈ Run.moments log s, QvFinal m) ↔ ∀ m ∈ Run.moments log s, TalliesInTime m := by
  refine Run.forall_moments_iff_of_past (fun log s call s' hr hlog (hs : Accepts C s call s') => ?_) hrun
  obtain ⟨env, call⟩ := call
  constructor
  · rintro hfinal d q ids tallies proof rfl
    obtain ⟨hkept, hended⟩ := hfinal d q
    refine ⟨hended ⟨rfl, rfl⟩, fun hrecorded => write_qv_tallies_eq_self.mp ?_⟩
    obtain ⟨-, p, -, -, vk, -, -, rfl⟩ := record_qv_tally_eq_ok.mp hs
    have hsame := (hkept hrecorded).1
    rwa [VotingState.set_election_self] at hsame
  · intro htime d q
    refine ⟨fun hrecorded => ?_, fun hcall => ?_⟩
    · have hended := VotingRun.ended hr hlog hrecorded
      exact ⟨qv_tally_unchanged (VotingRun.ok hr) hs fun ids tallies proof hcall =>
        (htime d q ids tallies proof hcall).2 hrecorded, hended.not_castsQv hs⟩
    · obtain ⟨ids, tallies, proof, hcall⟩ := Call.recordsTally_iff.mp hcall
      exact (htime d q ids tallies proof hcall).1

end

def sampleQvTally (t : Nat) : Call := .tally (.record_qv_tally 0 1 [1] [t] sampleProof)

theorem qv_tally_final_iff_for_one_tally : ∃ log s, VotingRun sampleCrypto 0 0 log s ∧
    ((∀ m ∈ Run.moments log s, QvFinal m) ↔ ∀ m ∈ Run.moments log s, TalliesInTime m) ∧
    (s.elections 0 1).qv_tally 1 = some 5 := by
  obtain ⟨log, s, hrun, htest⟩ := exists_run (C := sampleCrypto) (r := 0) (g := 0)
    (qvRound ++ [.phase (.close_proposal 0 1 0), sampleQvTally 5])
    (fun _ s => (s.elections 0 1).qv_tally 1 == some 5) (by decide +kernel)
  exact ⟨log, s, hrun, qv_tally_final_iff hrun, beq_iff_eq.mp htest⟩

def lateQvVote : Call := .ballot (.cast_qv_vote 0 1 4 Tree.sampleRoot 25 7 sampleProof)

/-- The round is open, and takes a tally and then a ballot. -/
def takesVoteAfterTally (s : VotingState) : Bool :=
  match next sampleCrypto s (sampleEnv, sampleQvTally 5) with
  | some s' => (next sampleCrypto s' (sampleEnv, lateQvVote)).isSome
  | none => false

/-- A ballot is accepted for a round whose tally is recorded. -/
theorem qv_ballot_after_tally : ∃ log s, VotingRun sampleCrypto 0 0 log s ∧ ¬ ∀ m ∈ Run.moments log s, QvFinal m := by
  obtain ⟨log, s, hrun, htest⟩ := exists_run (C := sampleCrypto) (r := 0) (g := 0) qvRound
    (fun _ s => takesVoteAfterTally s) (by decide +kernel)
  unfold takesVoteAfterTally at htest
  split at htest
  · next s' hs' =>
    obtain ⟨s'', hs''⟩ := Option.isSome_iff_exists.mp htest
    have hrun' : VotingRun sampleCrypto 0 0 _ s' := .call hrun (toOption_eq_some.mp hs')
    refine ⟨_, s'', .call hrun' (toOption_eq_some.mp hs''), fun hfinal => ?_⟩
    obtain ⟨hkept, -⟩ := hfinal _ (List.mem_cons_self ..) 0 1
    exact (hkept ⟨_, List.mem_cons_self .., rfl, rfl⟩).2 ⟨rfl, rfl⟩
  · cases htest

end ZkVote.Voting

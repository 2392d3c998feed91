import ZkVote.Voting.VdfDelay

/-!
# The voting contract: the seed of the candidate order

`finalize_candidate_seed` sets the seed once. `finalize_with_vdf` mixes the output of the delay function into
the seed that is there, each time it is called.
-/

open Lib Lib.Outcome

namespace ZkVote.Voting

def get_candidate_seed (s : VotingState) (dao_id proposal_id : Nat) : Option (BytesN 32) :=
  (s.elections dao_id proposal_id).config.bind ElectionConfig.candidate_seed

/-- The calls that have to do with the randomness of an election. -/
def Call.isRandomness : Call → Bool
  | .config (.commit_randomness ..) | .config (.reveal_randomness ..) | .config (.finalize_candidate_seed ..)
  | .config (.set_vdf_delay ..) | .config (.submit_vdf_output ..) | .config (.finalize_with_vdf ..) => true
  | _ => false

def SeedFinal (s : VotingState) (call : Call) (s' : VotingState) : Prop :=
  call.isRandomness = true → ∀ dao_id proposal_id seed, get_candidate_seed s dao_id proposal_id = some seed →
    get_candidate_seed s' dao_id proposal_id = some seed

/-- The call finds a seed and an output, and they do not mix to the seed itself. -/
def Remixes (C : Crypto) (s : VotingState) : Call → Prop
  | .config (.finalize_with_vdf dao_id proposal_id) =>
    ∃ output seed, (s.elections dao_id proposal_id).vdf_output = some output ∧
      get_candidate_seed s dao_id proposal_id = some seed ∧ C.sha256 (output.toList ++ seed.toList) ≠ seed
  | _ => False

section
variable {C : Crypto} {env : VotingEnv} {s s' : VotingState} {call : Call} {d q : Nat}

theorem get_candidate_seed_set {e' : Election} (d' q' : Nat) :
    get_candidate_seed (s.set_election d q e') d' q' =
      if d' = d ∧ q' = q then e'.config.bind ElectionConfig.candidate_seed else get_candidate_seed s d' q' := by
  unfold get_candidate_seed
  rw [VotingState.set_election_apply]
  split <;> rfl

theorem seed_kept_of_set {e' : Election} {seed : BytesN 32}
    (hkept : get_candidate_seed s d q = some seed → e'.config.bind ElectionConfig.candidate_seed = some seed) {d' q' : Nat}
    (hseed : get_candidate_seed s d' q' = some seed) : get_candidate_seed (s.set_election d q e') d' q' = some seed := by
  rw [get_candidate_seed_set]
  split
  · next hslot =>
    obtain ⟨rfl, rfl⟩ := hslot
    exact hkept hseed
  · exact hseed

theorem candidate_seed_getD {default : ElectionConfig} (hdefault : default.candidate_seed = none) :
    ((s.elections d q).config.getD default).candidate_seed = get_candidate_seed s d q := by
  unfold get_candidate_seed
  cases (s.elections d q).config with
  | none => exact hdefault
  | some config => rfl

theorem finalize_candidate_seed_keeps {seed seed' : BytesN 32}
    (h : finalize_candidate_seed C env s d q = .ok (seed', s')) {d' q' : Nat}
    (hseed : get_candidate_seed s d' q' = some seed) : get_candidate_seed s' d' q' = some seed := by
  simp only [finalize_candidate_seed, bind_eq_ok, require_eq_ok, pure_eq_ok, Prod.mk.injEq] at h
  obtain ⟨_, -, -, -, -, hnone, -, -, reveals, -, rfl, rfl⟩ := h
  rw [candidate_seed_getD rfl] at hnone
  refine seed_kept_of_set (fun hsome => ?_) hseed
  rw [hnone] at hsome
  cases hsome

theorem finalize_with_vdf_seed {output seed seed' : BytesN 32} (houtput : (s.elections d q).vdf_output = some output)
    (hseed : get_candidate_seed s d q = some seed) (h : finalize_with_vdf C env s d q = .ok (seed', s')) :
    get_candidate_seed s' d q = some (C.sha256 (output.toList ++ seed.toList)) := by
  simp only [finalize_with_vdf, houtput, candidate_seed_getD, hseed] at h
  cases h
  rw [get_candidate_seed_set, if_pos ⟨rfl, rfl⟩]
  rfl

theorem finalize_with_vdf_keeps {seed seed' : BytesN 32} (h : finalize_with_vdf C env s d q = .ok (seed', s'))
    (hmix : ¬ Remixes C s (.config (.finalize_with_vdf d q))) {d' q' : Nat}
    (hseed : get_candidate_seed s d' q' = some seed) : get_candidate_seed s' d' q' = some seed := by
  cases houtput : (s.elections d q).vdf_output with
  | none =>
    simp only [finalize_with_vdf, houtput] at h
    exact finalize_candidate_seed_keeps h hseed
  | some output =>
    by_cases hslot : d' = d ∧ q' = q
    · obtain ⟨rfl, rfl⟩ := hslot
      rw [finalize_with_vdf_seed houtput hseed h]
      exact congrArg some (by_contra fun hne => hmix ⟨output, seed, houtput, hseed, hne⟩)
    · simp only [finalize_with_vdf, houtput] at h
      cases h
      rw [get_candidate_seed_set, if_neg hslot, hseed]

/-- The other calls keep every seed. -/
theorem seedFinal_iff (h : step C s env call = .ok s') : SeedFinal s call s' ↔ ¬ Remixes C s call := by
  constructor
  · rintro hfinal hmix
    unfold Remixes at hmix
    split at hmix
    · next d q =>
      obtain ⟨output, seed, houtput, hseed, hne⟩ := hmix
      simp only [step, ConfigCall.run, bind_eq_ok, pure_eq_ok] at h
      obtain ⟨⟨seed', s₁⟩, h, rfl⟩ := h
      have hkept := hfinal rfl d q seed hseed
      rw [finalize_with_vdf_seed houtput hseed h, Option.some.injEq] at hkept
      exact hne hkept
    · exact hmix
  · intro hmix hrandom d' q' seed hseed
    unfold Call.isRandomness at hrandom
    split at hrandom
    · simp [step, ConfigCall.run, commit_randomness, randomness_deadlines] at h
      obtain ⟨-, -, info, -, -, -, -, rfl⟩ := h
      refine seed_kept_of_set (fun hsome => ?_) hseed
      exact hsome
    · simp [step, ConfigCall.run, reveal_randomness, randomness_deadlines] at h
      obtain ⟨-, info, -, -, commitment, -, -, -, rfl⟩ := h
      refine seed_kept_of_set (fun hsome => ?_) hseed
      exact hsome
    · simp only [step, ConfigCall.run, bind_eq_ok, pure_eq_ok] at h
      obtain ⟨⟨seed', s₁⟩, h, rfl⟩ := h
      exact finalize_candidate_seed_keeps h hseed
    · simp [step, ConfigCall.run, set_vdf_delay] at h
      obtain ⟨-, -, -, -, rfl⟩ := h
      refine seed_kept_of_set (fun hsome => ?_) hseed
      exact hsome
    · simp [step, ConfigCall.run, submit_vdf_output] at h
      obtain ⟨-, -, delay, -, -, input, -, -, rfl⟩ := h
      refine seed_kept_of_set (fun hsome => ?_) hseed
      exact (candidate_seed_getD rfl).trans hsome
    · simp only [step, ConfigCall.run, bind_eq_ok, pure_eq_ok] at h
      obtain ⟨⟨seed', s₁⟩, h, rfl⟩ := h
      exact finalize_with_vdf_keeps h hmix hseed
    · cases hrandom

end

/-- In every run, no call that has to do with randomness changes a seed that is set, if and only if none mixes an
output into it. -/
theorem seed_final_iff {C : Crypto} {registry guardian : Address} {log : List (VotingState × VotingEnv × Call)}
    {s : VotingState} (hrun : VotingRun C registry guardian log s) :
    (∀ t ∈ Run.transitions log s, SeedFinal t.1 t.2.1.2 t.2.2) ↔ ∀ e ∈ log, ¬ Remixes C e.1 e.2.2 :=
  Run.forall_transitions_iff (P := fun s (call : VotingEnv × Call) s' => SeedFinal s call.2 s')
    (C := fun s (call : VotingEnv × Call) => ¬ Remixes C s call.2)
    (fun _ _ _ _ _ (hs : Accepts C _ _ _) => seedFinal_iff hs) hrun

/-! ## A seed that is mixed again -/

def finalizeSeed : VotingEnv × Call := (sampleEnvAt 2500, .config (.finalize_with_vdf 0 1))

theorem seed_final_iff_for_one_seed : ∃ log s, VotingRun chainCrypto 0 0 log s ∧
    ((∀ t ∈ Run.transitions log s, SeedFinal t.1 t.2.1.2 t.2.2) ↔ ∀ e ∈ log, ¬ Remixes chainCrypto e.1 e.2.2) ∧
    get_candidate_seed s 0 1 = some (Vector.replicate 32 0) := by
  obtain ⟨log, s, hrun, htest⟩ := exists_run_at (C := chainCrypto) (r := 0) (g := 0) (vdfElection 2500 ++ [finalizeSeed])
    (fun _ s => decide (get_candidate_seed s 0 1 = some (Vector.replicate 32 0))) (by decide +kernel)
  exact ⟨log, s, hrun, seed_final_iff hrun, of_decide_eq_true htest⟩

/-- The second call of `finalize_with_vdf` turns the seed from zeros into ones. -/
theorem seed_mixed_twice : ∃ log s, VotingRun chainCrypto 0 0 log s ∧
    ¬ ∀ t ∈ Run.transitions log s, SeedFinal t.1 t.2.1.2 t.2.2 := by
  obtain ⟨log, s, hrun, htest⟩ := exists_run_at (C := chainCrypto) (r := 0) (g := 0) (vdfElection 2500 ++ [finalizeSeed])
    (fun _ s => decide (get_candidate_seed s 0 1 = some (Vector.replicate 32 0)) &&
      (next chainCrypto s finalizeSeed).any
        (fun s' => decide (get_candidate_seed s' 0 1 = some (Vector.replicate 32 1)))) (by decide +kernel)
  simp only [Bool.and_eq_true, decide_eq_true_eq, Option.any_eq_true] at htest
  obtain ⟨hseed, s', hs', hmixed⟩ := htest
  refine ⟨_, s', .call hrun (toOption_eq_some.mp hs'), fun hfinal => ?_⟩
  have hkept := hfinal _ (List.mem_cons_self ..) rfl 0 1 _ hseed
  rw [show get_candidate_seed s' 0 1 = _ from hmixed] at hkept
  revert hkept
  decide

end ZkVote.Voting

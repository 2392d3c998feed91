import ZkVote.Voting.KeyPins

/-!
# The voting contract: sealed elections

No ballot asks for the mode of an election. What keeps plaintext ballots out of
an encrypted one is its key: of the circuit of encrypted ballots, and so longer
than theirs.
-/

open Lib Lib.Outcome

namespace ZkVote.Voting

/-- The election is encrypted, and its tally not final. -/
def sealed (e : Election) : Bool := e.encrypted_config.any fun cfg => !cfg.finalized

structure Uncounted (e : Election) : Prop where
  plain : ∀ p, e.proposal = some p → p.yes_votes = 0 ∧ p.no_votes = 0
  weighted : e.ballots.weighted_tally.getD {} = {}

/-- The election whose votes it counts, or will count, in plain. -/
def Call.plaintext : Call → Option (Nat × Nat)
  | .ballot (.vote_encrypted ..) => none
  | .ballot call => some call.election
  | .tally (.reveal_vote d q _ _ _) | .tally (.submit_recursive_tally d q _ _ _ _ _) => some (d, q)
  | _ => none

/-- No state has plaintext counts of a sealed election, and no plaintext ballot for one is accepted. -/
def KeptSealed (log : List (VotingState × VotingEnv × Call)) (s : VotingState) : Prop :=
  (∀ t ∈ Run.states log s, ∀ d q, sealed (t.elections d q) = true → Uncounted (t.elections d q)) ∧
    ∀ e ∈ log, ∀ d q, sealed (e.1.elections d q) = true → e.2.2.plaintext ≠ some (d, q)

/-- It goes by a key other than the one its proposal names. -/
def Call.UsesOtherKey (e : Election) : Call → Prop
  | .ballot (.vote ..) | .ballot (.cast_votes ..) => (election_config e).merkle_depth ≠ 0
  | .ballot (.vote_weighted ..) | .ballot (.vote_sybil_weighted ..) | .ballot (.commit_vote ..) => True
  | .tally (.submit_recursive_tally ..) => True
  | _ => False

/-- The keys whose hash it compares with that of a proposal, or writes into one that is encrypted. -/
def Call.hashedKeys (env : VotingEnv) (s : VotingState) : Call → List VerificationKey
  | .create (.create_encrypted_proposal d _ _ _) => (s.daos d).keys.encrypted_vk.toList
  | .ballot (.vote d q _ _ _ _) | .ballot (.cast_votes d q _) =>
    ((s.elections d q).proposal.bind fun p => (s.daos d).keys.vk_by_version p.vk_version).toList
  | .ballot (.vote_with_circuit _ _ _ _ _ _ circuit_id) => (load_vk_from_registry env s circuit_id).toOption.toList
  | .ballot (.cast_qv_vote d q _ _ _ _ _) =>
    ((s.elections d q).proposal.bind fun p => (s.daos d).keys.qv_vk_by_version p.vk_version).toList
  | _ => []

/-- SHA-256 tells the keys of the run apart. -/
def HashesApart (C : Crypto) (log : List (VotingState × VotingEnv × Call)) : Prop :=
  ∀ e ∈ log, ∀ e' ∈ log, ∀ vk ∈ e.2.2.hashedKeys e.2.1 e.1, ∀ vk' ∈ e'.2.2.hashedKeys e'.2.1 e'.1,
    hash_vk C vk = hash_vk C vk' → vk = vk'

instance {C : Crypto} {log : List (VotingState × VotingEnv × Call)} : Decidable (HashesApart C log) :=
  inferInstanceAs (Decidable (∀ e ∈ log, ∀ e' ∈ log, ∀ vk ∈ e.2.2.hashedKeys e.2.1 e.1,
    ∀ vk' ∈ e'.2.2.hashedKeys e'.2.1 e'.1, hash_vk C vk = hash_vk C vk' → vk = vk'))

/-- The verifier turns down a key that is not for this number of signals. -/
def LengthChecked (C : Crypto) : Prop :=
  ∀ vk proof signals, C.verify_groth16 vk proof signals = true → vk.ic.length = signals.length + 1

/-! ## The key of an encrypted election -/

/-- It has been hashed in the run, and is for encrypted ballots. -/
structure EncryptedKey (C : Crypto) (log : List (VotingState × VotingEnv × Call)) (e : Election) : Prop where
  curve : e.proposal_curve = some .Bn254
  key : ∃ p, e.proposal = some p ∧ ∃ entry ∈ log, ∃ vk ∈ entry.2.2.hashedKeys entry.2.1 entry.1,
    vk.ic.length = ENCRYPTED_CIRCUIT_IC_LEN ∧ p.vk_hash = hash_vk C vk

section
variable {C : Crypto} {env : VotingEnv} {s s' : VotingState} {call : Call} {d q : Nat} {e e' : Election}
  {p : ProposalInfo} {log : List (VotingState × VotingEnv × Call)} {entry : VotingState × VotingEnv × Call}

theorem SameTerms.sealed_eq (h : SameTerms e e') : sealed e' = sealed e := by
  unfold sealed
  rw [h.encrypted_config]

theorem EncryptedKey.later (h : EncryptedKey C log e) (hsame : SameTerms e e') :
    EncryptedKey C (entry :: log) e' := by
  obtain ⟨p, hp, entry₀, hentry, vk, hvk, hlength, hhash⟩ := h.key
  refine ⟨hsame.curve.trans h.curve, ?_⟩
  cases hp' : e'.proposal with
  | none =>
    rw [hsame.proposal_eq_none_iff, hp] at hp'
    cases hp'
  | some p' =>
    have hterms : p'.terms.vk_hash = p.terms.vk_hash := congrArg _ (hsame.terms_eq hp hp')
    exact ⟨p', rfl, entry₀, List.mem_cons_of_mem _ hentry, vk, hvk, hlength, Eq.trans hterms hhash⟩

/-- A key for encrypted ballots has the length of their circuit. -/
def EncryptedVkOk (s : VotingState) : Prop :=
  ∀ d vk, (s.daos d).keys.encrypted_vk = some vk → vk.ic.length = ENCRYPTED_CIRCUIT_IC_LEN

theorem DaoCall.encrypted_vk {call : DaoCall} {k : Keys} {vk : VerificationKey} (hlength : call.LengthOk)
    (h : (call.keys k).encrypted_vk = some vk) :
    k.encrypted_vk = some vk ∨ vk.ic.length = ENCRYPTED_CIRCUIT_IC_LEN := by
  cases call with
  | set_encrypted_vk d vk' admin =>
    obtain rfl : vk' = vk := Option.some.inj h
    exact .inr hlength
  | _ => exact .inl h

theorem step_encryptedVkOk (hs : VotingOk s) (hok : EncryptedVkOk s) (h : step C s env call = .ok s') :
    EncryptedVkOk s' := by
  intro d vk hvk
  rcases step_sets hs h d with hsame | ⟨c, -, rfl, hsets⟩
  · exact hok d vk (hsame ▸ hvk)
  · rw [hsets.keys] at hvk
    rcases DaoCall.encrypted_vk hsets.length hvk with hvk | hlength
    · exact hok _ vk hvk
    · exact hlength

theorem create_encrypted_key {call : CreateCall} {id : Nat} (h : call.create C env s = .ok (id, s'))
    (hencrypted : call.isEncrypted = true) : ∃ p, (s'.elections call.dao_id id).proposal = some p ∧
      ∃ vk ∈ (Call.create call).hashedKeys env s, (s.daos call.dao_id).keys.encrypted_vk = some vk ∧
        p.vk_hash = hash_vk C vk := by
  cases call with
  | create_encrypted_proposal d creator params =>
    simp [CreateCall.create, create_encrypted_proposal, next_proposal_id] at h
    obtain ⟨-, -, -, -, -, version, -, vk, hvk, -, -, root, -, index, -, -, rfl, rfl⟩ := h
    refine ⟨_, congrArg Election.proposal (VotingState.set_election_self ..), vk, ?_, hvk, rfl⟩
    simp only [Call.hashedKeys, hvk, Option.toList_some, List.mem_singleton]
  | _ => cases hencrypted

/-- Every sealed election has its key. -/
structure SealedOk (C : Crypto) (log : List (VotingState × VotingEnv × Call)) (s : VotingState) : Prop where
  encrypted_vk : EncryptedVkOk s
  unmade : ∀ d q, (s.elections d q).proposal = none → (s.elections d q).encrypted_config = none
  key : ∀ d q, sealed (s.elections d q) = true → EncryptedKey C log (s.elections d q)

theorem sealed_of_none (h : e.encrypted_config = none) : sealed e = false := by
  simp [sealed, h]

theorem step_sealedOk (hs : VotingOk s) (hok : SealedOk C log s) (h : step C s env call = .ok s') :
    SealedOk C ((s, env, call) :: log) s' := by
  refine ⟨step_encryptedVkOk hs hok.encrypted_vk h, fun d q hnone => ?_, fun d q hsealed => ?_⟩
  · rcases step_created hs h d q with ⟨hsame, -⟩ | ⟨c, rfl, rfl, hcreate, -⟩
    · rw [hsame.encrypted_config]
      exact hok.unmade d q (hsame.proposal_eq_none_iff.mp hnone)
    · obtain ⟨e', p, hstep, -⟩ := create_created hcreate
      rw [hstep.election, hstep.proposal] at hnone
      cases hnone
  · rcases step_created hs h d q with ⟨hsame, -⟩ | ⟨c, rfl, rfl, hcreate, hnone⟩
    · rw [hsame.sealed_eq] at hsealed
      exact (hok.key d q hsealed).later hsame
    · obtain ⟨e', p, hstep, hcreated⟩ := create_created hcreate
      have hencrypted : c.isEncrypted = true := by
        by_contra hplain
        have hconfig := hcreated.encrypted_config
        rw [if_neg hplain, hok.unmade _ _ hnone] at hconfig
        rw [hstep.election, sealed_of_none hconfig] at hsealed
        cases hsealed
      obtain ⟨p', hp', vk, hmem, hvk, hhash⟩ := create_encrypted_key hcreate hencrypted
      refine ⟨?_, p', hp', _, List.mem_cons_self .., vk, hmem, hok.encrypted_vk _ vk hvk, hhash⟩
      rw [hstep.election, hcreated.curve]
      cases c with
      | create_encrypted_proposal => rfl
      | _ => cases hencrypted

theorem VotingRun.sealedOk {registry guardian : Address} (hrun : VotingRun C registry guardian log s) :
    SealedOk C log s := by
  refine Run.invariant_log ⟨fun d vk hvk => ?_, fun _ _ _ => rfl, fun d q hsealed => ?_⟩
    (fun log s call s' hr hok (hs : Accepts C s call s') => step_sealedOk (VotingRun.ok hr) hok hs) hrun
  · cases hvk
  · cases hsealed

/-! ## Ballots that get past it -/

theorem EncryptedKey.length_of_hash (h : EncryptedKey C log e) (hapart : HashesApart C ((s, env, call) :: log))
    (hp : e.proposal = some p) {vk : VerificationKey} (hvk : vk ∈ call.hashedKeys env s)
    (hhash : hash_vk C vk = p.vk_hash) : vk.ic.length = ENCRYPTED_CIRCUIT_IC_LEN := by
  obtain ⟨p₀, hp₀, entry, hentry, vk₀, hvk₀, hlength, hhash₀⟩ := h.key
  obtain rfl : p = p₀ := Option.some.inj (hp.symm.trans hp₀)
  have hsame := hapart _ (List.mem_cons_self ..) entry (List.mem_cons_of_mem _ hentry) vk hvk vk₀ hvk₀
    (hhash.trans hhash₀)
  rw [hsame, hlength]

/-- At depth 0 a ballot is checked against a key of the DAO's table, which is too short. -/
theorem EncryptedKey.depth_ne_zero (h : EncryptedKey C log e) (hapart : HashesApart C ((s, env, call) :: log))
    (hkeys : KeysOk (s.daos d).keys) (hp : e.proposal = some p) {ctx : PathContext} {depth : Nat}
    {vk : VerificationKey} (hmem : (s.daos d).keys.vk_by_version p.vk_version = some vk → vk ∈ call.hashedKeys env s)
    (hvk : resolve_election_vk C s ctx d e p depth = .ok vk) : depth ≠ 0 := by
  rintro rfl
  obtain ⟨hfound, hhash⟩ := resolve_zero.mp hvk
  have hlong := h.length_of_hash hapart hp (hmem hfound) hhash
  have hshort := hkeys.ic_length _ _ _ (find_plain.mpr hfound)
  simp [Key.icLength, hlong, ENCRYPTED_CIRCUIT_IC_LEN, VOTE_CIRCUIT_IC_LEN] at hshort

/-- An accepted plaintext call for a sealed election goes by another key. -/
theorem EncryptedKey.usesOtherKey {registry guardian : Address} (hrun : VotingRun C registry guardian log s)
    (hlength : LengthChecked C) (hapart : HashesApart C ((s, env, call) :: log))
    (hkey : EncryptedKey C log (s.elections d q)) (hcommits : ∀ n, (s.elections d q).ballots.vote_commit n = none)
    (hplain : call.plaintext = some (d, q)) (h : step C s env call = .ok s') :
    call.UsesOtherKey (s.elections d q) := by
  cases call with
  | ballot call =>
    cases call with
    | vote d q choice n root proof =>
      cases hplain
      simp [step, BallotCall.run, vote] at h
      obtain ⟨-, -, -, -, -, -, p, hp, -, -, -, vk, hvk, -⟩ := h
      refine hkey.depth_ne_zero hapart (hrun.keysOk d) hp (fun hfound => ?_) hvk
      simp [Call.hashedKeys, hp, hfound]
    | cast_votes d q votes =>
      cases hplain
      obtain ⟨⟨k, s₁⟩, hcast, hs⟩ := bind_eq_ok.mp h
      obtain ⟨-, -, p, vk, hready, -⟩ := cast_votes_eq_ok.mp hcast
      refine hkey.depth_ne_zero hapart (hrun.keysOk d) hready.proposal (fun hfound => ?_) hready.key
      simp [Call.hashedKeys, hready.proposal, hfound]
    | vote_bls381 d q =>
      cases hplain
      simp [step, BallotCall.run, vote_bls381, hkey.curve] at h
    | vote_with_circuit d q choice n root proof circuit_id =>
      cases hplain
      simp [step, BallotCall.run, vote_with_circuit] at h
      obtain ⟨-, -, -, -, -, p, hp, -, -, vk, hvk, ⟨u, hcheck⟩, -, hverify, -⟩ := h
      have hmem : vk ∈ (Call.ballot (.vote_with_circuit d q choice n root proof circuit_id)).hashedKeys env s := by
        have hload : load_vk_from_registry env s circuit_id = .ok vk := hvk
        simp [Call.hashedKeys, hload]
      have hlong := hkey.length_of_hash hapart hp hmem (assert_circuit_vk_hash hvk hcheck)
      have hshort := hlength _ _ _ hverify
      simp [hlong, vote_signals, ENCRYPTED_CIRCUIT_IC_LEN] at hshort
    | cast_qv_vote d q =>
      cases hplain
      simp [step, BallotCall.run, cast_qv_vote, get_qv_vk_by_version] at h
      obtain ⟨-, -, -, -, -, -, p, hp, -, -, -, -, vk, hvk, hhash, -⟩ := h
      have hlong := hkey.length_of_hash hapart hp (by simp [Call.hashedKeys, hp, hvk]) hhash
      have hshort := (hrun.keysOk d).ic_length _ _ _ (find_quadratic.mpr hvk)
      simp [Key.icLength, hlong, ENCRYPTED_CIRCUIT_IC_LEN, VOTE_CIRCUIT_IC_LEN] at hshort
    | vote_weighted | vote_sybil_weighted | commit_vote => trivial
    | vote_encrypted => cases hplain
    | record_bridged_vote => exact absurd h record_bridged_vote_rejected
  | tally call =>
    cases call with
    | reveal_vote d q n choice blinding =>
      cases hplain
      simp [step, TallyCall.run, reveal_vote, hcommits] at h
    | submit_recursive_tally => trivial
    | _ => cases hplain
  | _ => cases hplain

/-! ## Runs -/

/-- Nothing is counted, and nothing can be revealed. -/
structure Blank (e : Election) : Prop extends Uncounted e where
  commits : ∀ n, e.ballots.vote_commit n = none

theorem Blank.of_same (h : Blank e) (hballots : e'.ballots = e.ballots) (hpolled : polled e' = polled e) :
    Blank e' := by
  refine ⟨⟨fun p hp => ?_, by rw [hballots, h.weighted]⟩, by rw [hballots]; exact h.commits⟩
  have hsome : polled e' = some (p.yes_votes, p.no_votes, p.vote_mode) := polled_eq_some.mpr ⟨p, hp, rfl, rfl, rfl⟩
  obtain ⟨p₀, hp₀, hyes, hno, -⟩ := polled_eq_some.mp (hpolled ▸ hsome)
  rw [← hyes, ← hno]
  exact h.plain p₀ hp₀

/-- A call that is no plaintext ballot of an election leaves its votes as they are. -/
theorem step_quiet (hs : VotingOk s) (h : step C s env call = .ok s') (hmade : Made s call d q)
    (hquiet : call.plaintext ≠ some (d, q)) : (s'.elections d q).ballots = (s.elections d q).ballots ∧
      polled (s'.elections d q) = polled (s.elections d q) := by
  by_cases hd : call.election = some (d, q)
  · cases call with
    | ballot call =>
      cases call with
      | vote_encrypted => exact absurd h vote_encrypted_rejected
      | _ => exact absurd hd hquiet
    | tally call =>
      obtain ⟨e', hr, -, heffect⟩ := tally_step hs.dormant h
      have hself := hr.self
      rw [show call.election = (d, q) from Option.some.inj hd] at hself heffect
      rw [hself]
      cases heffect with
      | revealed => exact absurd hd hquiet
      | submitted => exact absurd hd hquiet
      | undecided same => exact ⟨same.ballots, same.polled⟩
    | phase call =>
      obtain ⟨e', hr, hballots, hpolled, -⟩ := phase_step h
      have hself := hr.self
      rw [show call.election = (d, q) from Option.some.inj hd] at hself hballots hpolled
      rw [hself]
      exact ⟨hballots, hpolled⟩
    | config call =>
      obtain ⟨e', hr, hu, -⟩ := config_step h
      have hself := hr.self
      rw [show call.election = (d, q) from Option.some.inj hd] at hself hu
      rw [hself]
      exact ⟨hu.ballots, hu.polled⟩
    | create call => cases hd
    | dao call => cases hd
    | inst call => cases hd
  · rw [step_other hs h hmade hd]
    exact ⟨rfl, rfl⟩

/-- An election that has not been made, or is sealed. -/
def Shut (e : Election) : Prop := e.proposal = none ∨ sealed e = true

/-- What a plaintext ballot is for has been made, and is not sealed. -/
theorem plaintext_proposal (h : step C s env call = .ok s') (hplain : call.plaintext = some (d, q)) :
    (s.elections d q).proposal ≠ none := by
  cases call with
  | ballot call =>
    have helection : call.election = (d, q) := by
      cases call <;> first | exact Option.some.inj hplain | cases hplain
    exact ballot_proposal h helection
  | tally call =>
    cases call with
    | reveal_vote =>
      cases hplain
      simp [step, TallyCall.run, reveal_vote] at h
      obtain ⟨-, -, -, -, config, -, -, -, -, -, -, p, hp, -⟩ := h
      simp [hp]
    | submit_recursive_tally =>
      cases hplain
      simp [step, TallyCall.run, submit_recursive_tally] at h
      obtain ⟨-, -, -, -, p, hp, -⟩ := h
      simp [hp]
    | _ => cases hplain
  | _ => cases hplain

theorem step_blank (hs : VotingOk s) (h : step C s env call = .ok s')
    (hquiet : sealed (s.elections d q) = true → call.plaintext ≠ some (d, q))
    (hblank : Shut (s.elections d q) → Blank (s.elections d q)) (hshut : Shut (s'.elections d q)) :
    Blank (s'.elections d q) := by
  rcases step_created hs h d q with ⟨hsame, hmade⟩ | ⟨c, rfl, rfl, hcreate, hnone⟩
  · have hshut₀ : Shut (s.elections d q) := by
      rwa [Shut, ← hsame.proposal_eq_none_iff, ← hsame.sealed_eq]
    have hplain : call.plaintext ≠ some (d, q) := by
      rcases hshut₀ with hnone | hsealed
      · exact fun hplain => plaintext_proposal h hplain hnone
      · exact hquiet hsealed
    rcases hmade with hmade | heq
    · obtain ⟨hballots, hpolled⟩ := step_quiet hs h hmade hplain
      exact (hblank hshut₀).of_same hballots hpolled
    · rw [heq]
      exact hblank hshut₀
  · obtain ⟨e', p, hstep, -⟩ := create_created hcreate
    have hold := hblank (.inl hnone)
    rw [hstep.election]
    refine ⟨⟨fun p' hp' => ?_, by rw [hstep.ballots, hold.weighted]⟩, by rw [hstep.ballots]; exact hold.commits⟩
    obtain rfl : p = p' := Option.some.inj (hstep.proposal.symm.trans hp')
    exact hstep.no_votes

theorem keptSealed_of_run {registry guardian : Address} (hrun : VotingRun C registry guardian log s)
    (hlength : LengthChecked C) (hapart : HashesApart C log)
    (hlog : ∀ e ∈ log, ∀ d q, sealed (e.1.elections d q) = true → e.2.2.plaintext = some (d, q) →
      ¬ e.2.2.UsesOtherKey (e.1.elections d q)) :
    KeptSealed log s ∧ ∀ d q, Shut (s.elections d q) → Blank (s.elections d q) := by
  induction hrun with
  | start =>
    have hblank : ∀ d q, Blank ((constructor registry guardian).elections d q) :=
      fun d q => ⟨⟨(fun p hp => by cases hp), rfl⟩, fun n => rfl⟩
    refine ⟨⟨fun t ht d q _ => ?_, by simp⟩, fun d q _ => hblank d q⟩
    rw [List.mem_singleton.mp ht]
    exact (hblank d q).toUncounted
  | @call log s s' call hr hs ih =>
    rw [List.forall_mem_cons] at hlog
    have hearlier : HashesApart C log := fun e he e' he' =>
      hapart e (List.mem_cons_of_mem _ he) e' (List.mem_cons_of_mem _ he')
    obtain ⟨hkept, hblank⟩ := ih hearlier hlog.2
    have hreach : VotingRun C registry guardian log s := hr
    have hquiet : ∀ d q, sealed (s.elections d q) = true → call.2.plaintext ≠ some (d, q) := by
      intro d q hsealed hplain
      exact hlog.1 d q hsealed hplain ((hreach.sealedOk.key d q hsealed).usesOtherKey hreach hlength hapart
        (hblank d q (.inr hsealed)).commits hplain hs)
    have hblank' : ∀ d q, Shut (s'.elections d q) → Blank (s'.elections d q) :=
      fun d q => step_blank hreach.ok hs (hquiet d q) (hblank d q)
    refine ⟨⟨fun t ht d q hsealed => ?_, List.forall_mem_cons.mpr ⟨hquiet, hkept.2⟩⟩, hblank'⟩
    rw [Run.states_cons, List.mem_cons] at ht
    rcases ht with rfl | ht
    · exact (hblank' d q (.inr hsealed)).toUncounted
    · exact hkept.1 t ht d q hsealed

end

/-- In every run, sealed elections stay sealed if and only if no call that is accepted for one goes by a key
other than the one of its proposal. -/
theorem kept_sealed_iff (C : Crypto) {registry guardian : Address}
    {log : List (VotingState × VotingEnv × Call)} {s : VotingState} (hrun : VotingRun C registry guardian log s)
    (hlength : LengthChecked C) (hapart : HashesApart C log) :
    KeptSealed log s ↔ ∀ e ∈ log, ∀ d q, sealed (e.1.elections d q) = true → e.2.2.plaintext = some (d, q) →
      ¬ e.2.2.UsesOtherKey (e.1.elections d q) :=
  ⟨fun h e he d q hsealed hplain => absurd hplain (h.2 e he d q hsealed),
    fun h => (keptSealed_of_run hrun hlength hapart h).1⟩

/-- A proof verifies under every key of the right length. -/
def lengthCrypto : Crypto :=
  { sampleCrypto with verify_groth16 := fun vk _ signals => decide (vk.ic.length = signals.length + 1) }

theorem lengthCrypto_checked : LengthChecked lengthCrypto := fun _ _ _ h => of_decide_eq_true h

def sampleParams : CreateEncryptedProposalParams where
  title := []
  content_cid := []
  end_time := 0
  vote_mode := .Trailing
  public_key_x := 1
  public_key_y := 2
  threshold := 1
  authorities := [1]
  epoch := 0

/-- Two keys, an encrypted election, and a ballot for it under the other key. -/
def unsealing : List Call :=
  [.dao (.set_encrypted_vk 0 (sampleVk ENCRYPTED_CIRCUIT_IC_LEN) 0),
    .dao (.set_sybil_vk 0 (sampleVk SYBIL_CIRCUIT_IC_LEN) 0),
    .create (.create_encrypted_proposal 0 1 sampleParams 0),
    .ballot (.vote_sybil_weighted 0 1 true 3 Tree.sampleRoot 5 0 2 sampleProof)]

theorem kept_sealed_iff_for_a_sybil_ballot : ∃ log s, VotingRun lengthCrypto 0 0 log s ∧
    (KeptSealed log s ↔ ∀ e ∈ log, ∀ d q, sealed (e.1.elections d q) = true → e.2.2.plaintext = some (d, q) →
      ¬ e.2.2.UsesOtherKey (e.1.elections d q)) := by
  obtain ⟨log, s, hrun, happart⟩ := exists_run (C := lengthCrypto) (r := 0) (g := 0) unsealing
    (fun log _ => decide (HashesApart lengthCrypto log)) (by decide +kernel)
  exact ⟨log, s, hrun, kept_sealed_iff lengthCrypto hrun lengthCrypto_checked (of_decide_eq_true happart)⟩

def unsealed (s : VotingState) : Bool :=
  sealed (s.elections 0 1) && (s.elections 0 1).proposal.any fun p => p.yes_votes == 1

/-- The encrypted election has a vote in plain. -/
theorem sybil_ballot_unseals : ∃ log s p, VotingRun lengthCrypto 0 0 log s ∧
    sealed (s.elections 0 1) = true ∧ (s.elections 0 1).proposal = some p ∧ p.yes_votes = 1 ∧
    ¬ KeptSealed log s := by
  obtain ⟨log, s, hrun, htest⟩ := exists_run (C := lengthCrypto) (r := 0) (g := 0) unsealing
    (fun _ s => unsealed s) (by decide +kernel)
  simp only [unsealed, Bool.and_eq_true, Option.any_eq_true, beq_iff_eq] at htest
  obtain ⟨hsealed, p, hp, hyes⟩ := htest
  refine ⟨log, s, p, hrun, hsealed, hp, hyes, fun hkept => ?_⟩
  have huncounted := hkept.1 s (List.mem_cons_self ..) 0 1 hsealed
  have hzero := (huncounted.plain p hp).1
  omega

end ZkVote.Voting

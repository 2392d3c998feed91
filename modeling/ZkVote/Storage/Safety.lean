import ZkVote.Storage.Accesses

/-!
# Storage entries and their TTL: which extensions find their entry
-/

open Lib Lib.Outcome
open ZkVote.Voting (Crypto Proof)

namespace ZkVote.Storage

/-- The ballot gets in if all but its own extension lets it in. -/
def NotAborted (C : Crypto) (env : Rewards.RewardsEnv) : Path → Prop
  | .vote_encrypted dao_id proposal_id nullifier root epoch c1 c_yes c_no proof => ∀ s',
    vote_encrypted_with C (fun _ _ => .ok ()) env.toVotingEnv env.voting dao_id proposal_id nullifier root epoch
      c1 c_yes c_no proof = .ok s' →
    Voting.vote_encrypted C env.toVotingEnv env.voting dao_id proposal_id nullifier root epoch c1 c_yes c_no proof =
      .ok s'
  | .record_bridged_vote dao_id proposal_id vote_choice nullifier root => ∀ s',
    record_bridged_vote_with C (fun _ _ => .ok ()) env.toVotingEnv env.voting dao_id proposal_id vote_choice
      nullifier root = .ok s' →
    Voting.record_bridged_vote C env.toVotingEnv env.voting dao_id proposal_id vote_choice nullifier root = .ok s'
  | _ => True

/-- A call that passes its checks extends what is there, and is not aborted for it. -/
structure TtlSafe (C : Crypto) (env : Rewards.RewardsEnv) (s : Rewards.RewardsState) (path : Path) : Prop where
  extends_entries : ∀ as, accesses C env s path = some as → Survives (entries env s) as
  not_aborted : NotAborted C env path

/-- No ballot passes, and the two readers that assume an entry find it. -/
def FindsEntry (C : Crypto) (env : Rewards.RewardsEnv) (s : Rewards.RewardsState) : Path → Prop
  | .get_reward_amount dao_id => s.reward_amount dao_id ≠ none
  | .root_history_len dao_id => (env.tree.daos dao_id).roots ≠ none
  | .vote_encrypted dao_id proposal_id nullifier root epoch c1 c_yes c_no proof =>
    accesses C env s (.vote_encrypted dao_id proposal_id nullifier root epoch c1 c_yes c_no proof) = none
  | .record_bridged_vote dao_id proposal_id vote_choice nullifier root =>
    accesses C env s (.record_bridged_vote dao_id proposal_id vote_choice nullifier root) = none
  | _ => True

section
variable {C : Crypto} {env : Rewards.RewardsEnv} {s : Rewards.RewardsState} {as : List (Access Key)} {key : Key}
  {dao_id proposal_id epoch : Nat} {root nullifier commitment : U256}

/-! ## Readers -/

theorem survives_instance : Survives (entries env s) bump_instance := ⟨rfl, trivial⟩

theorem survives_persistent : Survives (entries env s) (bump_persistent key) ↔ entries env s .Persistent key = true :=
  and_iff_left trivial

theorem survives_persistent_if {p : Prop} [Decidable p] (h : p → entries env s .Persistent key = true) :
    Survives (entries env s) (if p then bump_persistent key else []) := by
  split
  · next hp => exact survives_persistent.mpr (h hp)
  · trivial

theorem survives_reader (h : entries env s .Persistent key = true) :
    Survives (entries env s) (bump_instance ++ bump_persistent key) :=
  survives_instance.append (survives_persistent.mpr h)

theorem survives_min_root : Survives (entries env s) (min_root env.tree dao_id) := by
  refine survives_instance.append (survives_persistent_if fun hpos => ?_)
  unfold Tree.min_root at hpos
  change ((env.tree.daos dao_id).min_valid_root_idx).isSome = true
  cases hfloor : (env.tree.daos dao_id).min_valid_root_idx with
  | none =>
    rw [hfloor] at hpos
    cases hpos
  | some floor => rfl

theorem survives_root_eligibility {earliest : Nat} :
    Survives (entries env s) (root_eligibility env.tree dao_id root earliest) := by
  refine survives_instance.append ?_
  cases hindex : (env.tree.daos dao_id).root_index root with
  | none => trivial
  | some index =>
    refine Survives.append (survives_persistent.mpr (Option.isSome_iff_exists.mpr ⟨index, hindex⟩)) ?_
    split
    · trivial
    · exact survives_min_root

theorem survives_epoch_root (h : epoch_root env.tree dao_id epoch = some as) : Survives (entries env s) as := by
  simp only [epoch_root, Tree.epoch_root, Option.bind_eq_bind, Option.bind_eq_some_iff, toOption_eq_some,
    orPanic_eq_ok, Option.pure_def, Option.some.injEq] at h
  obtain ⟨r, hr, rfl⟩ := h
  exact survives_reader (Option.isSome_iff_exists.mpr ⟨r, hr⟩)

theorem survives_epoch_advanced_at (h : epoch_advanced_at env.tree dao_id epoch = some as) :
    Survives (entries env s) as := by
  simp only [epoch_advanced_at, Tree.epoch_advanced_at, Option.bind_eq_bind, Option.bind_eq_some_iff,
    toOption_eq_some, orPanic_eq_ok, Option.pure_def, Option.some.injEq] at h
  obtain ⟨r, hr, rfl⟩ := h
  exact survives_reader (Option.isSome_iff_exists.mpr ⟨r, hr⟩)

theorem survives_current_root (h : current_root env.tree dao_id = some as) : Survives (entries env s) as := by
  simp only [current_root, Tree.current_root, Option.bind_eq_bind, Option.bind_eq_some_iff, toOption_eq_some,
    bind_eq_ok, orPanic_eq_ok, Option.pure_def, Option.some.injEq] at h
  obtain ⟨r, ⟨roots, hroots, -⟩, rfl⟩ := h
  exact survives_reader (Option.isSome_iff_exists.mpr ⟨roots, hroots⟩)

theorem survives_root_idx (h : root_idx env.tree dao_id root = some as) : Survives (entries env s) as := by
  simp only [root_idx, Tree.root_idx, Option.bind_eq_bind, Option.bind_eq_some_iff, toOption_eq_some,
    orPanic_eq_ok, Option.pure_def, Option.some.injEq] at h
  obtain ⟨r, hr, rfl⟩ := h
  exact survives_reader (Option.isSome_iff_exists.mpr ⟨r, hr⟩)

theorem survives_revok_at : Survives (entries env s) (revok_at env.tree dao_id commitment) :=
  survives_instance.append (survives_persistent_if fun h => h)

/-! ## Ballots -/

/-- Written to the one class, the nullifier is not found in the other. -/
theorem not_survives_use_nullifier
    (hfresh : (env.voting.elections dao_id proposal_id).ballots.nullifier nullifier = false) :
    ¬ Survives (entries env s) (bump_instance ++ use_nullifier dao_id proposal_id nullifier ++ as) := by
  intro hsafe
  have hnullifier := (survives_append.mp hsafe).1
  simp only [bump_instance, use_nullifier, List.cons_append, List.nil_append, survives_extend_ttl, survives_set,
    Entries.set_eq_true, reduceCtorEq, false_and, false_or, entries] at hnullifier
  rw [hfresh] at hnullifier
  exact absurd hnullifier.2.1 Bool.false_ne_true

theorem record_bridged_vote_with_fresh {bump : Voting.Ballots → U256 → Outcome Voting.VotingError Unit}
    {vote_choice : Bool} {env : Voting.VotingEnv} {v v' : Voting.VotingState}
    (h : record_bridged_vote_with C bump env v dao_id proposal_id vote_choice nullifier root = .ok v') :
    (v.elections dao_id proposal_id).ballots.nullifier nullifier = false := by
  simp [record_bridged_vote_with] at h
  obtain ⟨-, bridge, -, -, -, -, -, -, ⟨hfresh, -⟩, -⟩ := h
  exact hfresh

theorem vote_encrypted_with_fresh {bump : Voting.Ballots → U256 → Outcome Voting.VotingError Unit}
    {c1 c_yes c_no : BytesN 64} {proof : Proof} {env : Voting.VotingEnv} {v v' : Voting.VotingState}
    (h : vote_encrypted_with C bump env v dao_id proposal_id nullifier root epoch c1 c_yes c_no proof = .ok v') :
    (v.elections dao_id proposal_id).ballots.nullifier nullifier = false := by
  simp [vote_encrypted_with] at h
  obtain ⟨-, -, -, -, -, ⟨hfresh, -⟩, -⟩ := h
  exact hfresh

/-! ## Every path -/

theorem survives_of_finds {path : Path} (hfinds : FindsEntry C env s path) (h : accesses C env s path = some as) :
    Survives (entries env s) as := by
  cases path with
  | vote_encrypted => exact absurd (hfinds.symm.trans h) (by simp)
  | record_bridged_vote => exact absurd (hfinds.symm.trans h) (by simp)
  | get_vk dao_id =>
    simp only [accesses, get_vk, Option.bind_eq_bind, Option.bind_eq_some_iff, Option.pure_def,
      Option.some.injEq] at h
    obtain ⟨ver, hver, vk, -, rfl⟩ := h
    exact survives_reader (Option.isSome_iff_exists.mpr ⟨ver, hver⟩)
  | vk_version dao_id =>
    cases h
    refine survives_instance.append (survives_persistent_if fun hpos => ?_)
    change (s.vk_version dao_id).isSome = true
    cases hver : s.vk_version dao_id with
    | none =>
      rw [hver] at hpos
      cases hpos
    | some ver => rfl
  | vk_for_version =>
    simp only [accesses, vk_for_version, Option.bind_eq_bind, Option.bind_eq_some_iff, Option.pure_def,
      Option.some.injEq] at h
    obtain ⟨vk, -, rfl⟩ := h
    exact survives_instance
  | get_treasury =>
    cases h
    exact survives_instance.append (survives_persistent_if fun hne => bne_iff_ne.mpr hne)
  | get_reward_amount =>
    cases h
    exact survives_reader (Option.isSome_iff_ne_none.mpr hfinds)
  | get_claimed_count =>
    cases h
    exact survives_instance.append (survives_persistent_if fun hne => bne_iff_ne.mpr hne)
  | epoch_root => exact survives_epoch_root h
  | epoch_advanced_at => exact survives_epoch_advanced_at h
  | get_epoch_info =>
    simp only [accesses, get_epoch_info, Option.bind_eq_bind, Option.bind_eq_some_iff, Option.pure_def,
      Option.some.injEq] at h
    obtain ⟨root, hroot, advanced_at, hadvanced, rfl⟩ := h
    exact (survives_instance.append (survives_epoch_root hroot)).append (survives_epoch_advanced_at hadvanced)
  | current_root => exact survives_current_root h
  | min_root =>
    cases h
    exact survives_min_root
  | root_eligibility =>
    cases h
    exact survives_root_eligibility
  | root_idx => exact survives_root_idx h
  | curr_idx =>
    simp only [accesses, curr_idx, Option.bind_eq_bind, Option.bind_eq_some_iff, Option.pure_def,
      Option.some.injEq] at h
    obtain ⟨root, -, current, hcurrent, index, hindex, rfl⟩ := h
    exact (survives_current_root hcurrent).append (survives_root_idx hindex)
  | get_leaf_index =>
    simp only [accesses, get_leaf_index, Option.bind_eq_bind, Option.bind_eq_some_iff, Option.pure_def,
      Option.some.injEq] at h
    obtain ⟨index, hindex, rfl⟩ := h
    exact survives_reader (Option.isSome_iff_exists.mpr ⟨index, hindex⟩)
  | get_tree_info =>
    simp only [accesses, get_tree_info, Option.bind_eq_bind, Option.bind_eq_some_iff, Option.pure_def,
      Option.some.injEq] at h
    obtain ⟨depth, -, next_index, -, root, hroot, rfl⟩ := h
    exact survives_instance.append (survives_current_root hroot)
  | root_history_len =>
    cases h
    exact survives_reader (Option.isSome_iff_ne_none.mpr hfinds)
  | anonymity_set_size =>
    cases h
    exact survives_instance.append (survives_persistent_if fun h => h)
  | revok_at =>
    cases h
    exact survives_revok_at
  | verify_exclusion =>
    cases h
    exact survives_instance.append survives_revok_at
  | other =>
    cases h
    exact survives_instance

theorem record_bridged_vote_unsafe {vote_choice : Bool}
    (h : accesses C env s (.record_bridged_vote dao_id proposal_id vote_choice nullifier root) = some as) :
    ¬ Survives (entries env s) as := by
  simp only [accesses, record_bridged_vote, Option.bind_eq_bind, Option.bind_eq_some_iff, toOption_eq_some,
    Option.pure_def, Option.some.injEq] at h
  obtain ⟨v, hv, rfl⟩ := h
  simp only [List.append_assoc _ _ (_ ++ _), List.append_assoc (bump_instance ++ _)]
  exact not_survives_use_nullifier (record_bridged_vote_with_fresh hv)

theorem vote_encrypted_unsafe {c1 c_yes c_no : BytesN 64} {proof : Proof}
    (h : accesses C env s (.vote_encrypted dao_id proposal_id nullifier root epoch c1 c_yes c_no proof) = some as) :
    ¬ Survives (entries env s) as := by
  simp only [accesses, vote_encrypted, Option.bind_eq_bind, Option.bind_eq_some_iff, toOption_eq_some,
    Option.pure_def, Option.some.injEq] at h
  obtain ⟨v, hv, rfl⟩ := h
  simp only [List.append_assoc (bump_instance ++ _)]
  exact not_survives_use_nullifier (vote_encrypted_with_fresh hv)

/-- A path is safe if and only if it finds the entry it assumes; the two ballots never do. -/
theorem ttl_safe_iff {path : Path} : TtlSafe C env s path ↔ FindsEntry C env s path := by
  constructor
  · intro hsafe
    cases path with
    | vote_encrypted =>
      by_contra hpasses
      obtain ⟨as, has⟩ := Option.ne_none_iff_exists'.mp hpasses
      exact vote_encrypted_unsafe has (hsafe.extends_entries as has)
    | record_bridged_vote =>
      by_contra hpasses
      obtain ⟨as, has⟩ := Option.ne_none_iff_exists'.mp hpasses
      exact record_bridged_vote_unsafe has (hsafe.extends_entries as has)
    | get_reward_amount =>
      have hextends := hsafe.extends_entries _ rfl
      exact Option.isSome_iff_ne_none.mp (survives_persistent.mp (survives_append.mp hextends).2)
    | root_history_len =>
      have hextends := hsafe.extends_entries _ rfl
      exact Option.isSome_iff_ne_none.mp (survives_persistent.mp (survives_append.mp hextends).2)
    | _ => trivial
  · intro hfinds
    refine ⟨fun as h => survives_of_finds hfinds h, ?_⟩
    cases path with
    | vote_encrypted =>
      intro v hv
      simp [FindsEntry, accesses, vote_encrypted, hv, Except.toOption] at hfinds
    | record_bridged_vote =>
      intro v hv
      simp [FindsEntry, accesses, record_bridged_vote, hv, Except.toOption] at hfinds
    | _ => trivial

end

/-! ## A bridged ballot and a fresh contract -/

/-- The bridge passes on a ballot for an open election, and all is well but for its TTL. On a rewards contract where
nothing is set, the amount cannot be read. -/
theorem own_extension_aborts : ∃ log v, Voting.VotingRun Voting.sampleCrypto 0 0 log v ∧
    let env : Rewards.RewardsEnv := { Voting.sampleEnv with voting := v }
    (accesses Voting.sampleCrypto env (Rewards.constructor 0) (.record_bridged_vote 0 1 true 3 Tree.sampleRoot)).isSome ∧
    ¬ TtlSafe Voting.sampleCrypto env (Rewards.constructor 0) (.record_bridged_vote 0 1 true 3 Tree.sampleRoot) ∧
    ¬ TtlSafe Voting.sampleCrypto env (Rewards.constructor 0) (.get_reward_amount 0) := by
  let envOf (v : Voting.VotingState) : Rewards.RewardsEnv := { Voting.sampleEnv with voting := v }
  obtain ⟨log, v, hrun, hpasses⟩ := Voting.exists_run (C := Voting.sampleCrypto) (r := 0) (g := 0)
    (Voting.openElection 20 ++ [.inst (.set_bridge_contract 0 5)])
    (fun _ v => (accesses Voting.sampleCrypto (envOf v) (Rewards.constructor 0)
      (.record_bridged_vote 0 1 true 3 Tree.sampleRoot)).isSome) (by decide +kernel)
  refine ⟨log, v, hrun, hpasses, fun hsafe => ?_, fun hsafe => ttl_safe_iff.mp hsafe rfl⟩
  exact Option.isSome_iff_ne_none.mp hpasses (ttl_safe_iff.mp hsafe)

end ZkVote.Storage

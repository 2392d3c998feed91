import ZkVote.Voting.Keys

/-!
# The voting contract: pinned keys

A proposal keeps the version and the hash of its key, and a version keeps its
key. What a DAO sets later does not reach the ballots of the proposal.
-/

open Lib Lib.Outcome

namespace ZkVote.Voting

/-- The ballots whose key a proposal pins itself: those at depth 0. -/
def BallotCall.UsesPinnedKey (e : Election) : BallotCall → Prop
  | vote .. => (election_config e).merkle_depth = 0
  | vote_bls381 .. => True
  | cast_qv_vote .. => True
  | _ => False

/-- The key accepts the proof of the ballot. -/
def BallotCall.VerifiedBy (C : Crypto) (e : Election) (key : Key) : BallotCall → Prop
  | vote d q choice n root proof => ∃ vk, key.material = .inl vk ∧
      C.verify_groth16 vk proof (vote_signals e d q choice n root) = true
  | vote_bls381 d q choice n root proof => ∃ vk, key.material = .inr vk ∧
      C.verify_groth16_bls381 vk proof (vote_signals e d q choice n root) = true
  | cast_qv_vote d q n root credits allocations_hash proof => ∃ vk, key.material = .inl vk ∧
      C.verify_groth16 vk proof [root, d, q, n, credits, allocations_hash] = true
  | _ => True

/-- What the ballots of a proposal look up: the key under the version, with the hash. -/
def lookup_key (C : Crypto) (s : VotingState) (d : Nat) (e : Election) (p : ProposalInfo) :
    KeyKind → Outcome VotingError Key
  | .plain => do
    let vk ← resolve_election_vk C s .Anonymous d e p 0
    return .plain vk
  | .bls381 => do
    let vk ← get_vk_by_version_bls381 s d p.vk_version
    require (hash_vk_bls381 C vk = p.vk_hash) .VkChanged
    return .bls381 vk
  | .quadratic => do
    let vk ← get_qv_vk_by_version s d p.vk_version
    require (hash_vk C vk = p.vk_hash) .VkChanged
    return .quadratic vk

/-- The proposal names the key, and the DAO still has it. -/
structure KeyPinned (C : Crypto) (s : VotingState) (d q : Nat) (key : Key) (p : ProposalInfo) : Prop where
  proposal : (s.elections d q).proposal = some p
  found : (s.daos d).keys.find p.vk_version key.kind = some key
  hash : p.vk_hash = key.hash C
  curve : (s.elections d q).proposal_curve = some key.kind.curve
  quadratic : key.kind = .quadratic → p.vote_mode = .Quadratic

/-- The ballots of the proposal find the key and are verified by it, whatever the DAO sets. -/
structure GoesBy (C : Crypto) (s : VotingState) (d q : Nat) (key : Key) : Prop where
  lookup : ∀ p, (s.elections d q).proposal = some p →
    lookup_key C s d (s.elections d q) p key.kind = .ok key
  verified : ∀ env call s', BallotCall.election call = (d, q) → call.UsesPinnedKey (s.elections d q) →
    call.run C env s = .ok s' → call.VerifiedBy C (s.elections d q) key
  rotated : ∀ env call s' setters s₂, BallotCall.election call = (d, q) → call.UsesPinnedKey (s.elections d q) →
    call.run C env s = .ok s' → Run (Accepts C) s setters s₂ → (∀ e ∈ setters, ∃ c, e.2.2 = .dao c) →
      ∃ s₂', call.run C env s₂ = .ok s₂'

section
variable {C : Crypto} {env : VotingEnv} {s s' s₁ : VotingState} {d q : Nat} {key : Key} {p : ProposalInfo}
  {e : Election} {vk : VerificationKey} {ctx : PathContext}

theorem find_plain {k : Keys} {v : Nat} : k.find v .plain = some (.plain vk) ↔ k.vk_by_version v = some vk := by
  simp [Keys.find]

theorem find_quadratic {k : Keys} {v : Nat} :
    k.find v .quadratic = some (.quadratic vk) ↔ k.qv_vk_by_version v = some vk := by
  simp [Keys.find]

theorem find_bls381 {k : Keys} {v : Nat} {vk : VerificationKeyBls381} :
    k.find v .bls381 = some (.bls381 vk) ↔ k.vk_by_version_bls381 v = some vk := by
  simp [Keys.find]

theorem resolve_zero : resolve_election_vk C s ctx d e p 0 = .ok vk ↔
    (s.daos d).keys.vk_by_version p.vk_version = some vk ∧ hash_vk C vk = p.vk_hash := by
  simp [resolve_election_vk, get_vk_by_version]

theorem KeyPinned.lookup (h : KeyPinned C s d q key p) : lookup_key C s d e p key.kind = .ok key := by
  have hfound := h.found
  have hhash := h.hash
  cases key with
  | plain vk =>
    simp only [lookup_key, Key.kind, bind_eq_ok, pure_eq_ok]
    exact ⟨vk, resolve_zero.mpr ⟨find_plain.mp hfound, hhash.symm⟩, rfl⟩
  | bls381 vk =>
    simp only [lookup_key, Key.kind, get_vk_by_version_bls381, bind_eq_ok, orPanic_eq_ok, require_eq_ok, pure_eq_ok]
    exact ⟨vk, find_bls381.mp hfound, (), hhash.symm, rfl⟩
  | quadratic vk =>
    simp only [lookup_key, Key.kind, get_qv_vk_by_version, bind_eq_ok, orPanic_eq_ok, require_eq_ok, pure_eq_ok]
    exact ⟨vk, find_quadratic.mp hfound, (), hhash.symm, rfl⟩

/-- The quadratic table may hold another key with the hash of this one, but for a collision only. -/
theorem KeyPinned.material_of_hash (h : KeyPinned C s d q key p) (hk : KeysOk (s.daos d).keys)
    (hfree : CollisionFree C (s.daos d).keys) {v : Nat} (hvk : (s.daos d).keys.qv_vk_by_version v = some vk)
    (hhash : hash_vk C vk = p.vk_hash) : key.material = .inl vk := by
  have hfound : (s.daos d).keys.find v .quadratic = some (.quadratic vk) := find_quadratic.mpr hvk
  have hbytes : (Key.quadratic vk).bytes = key.bytes := by
    refine hfree v p.vk_version .quadratic key.kind _ key hfound h.found ?_
    rw [← Key.hash_eq, ← Key.hash_eq, ← h.hash]
    exact hhash
  have hmaterial := Key.material_eq hbytes (hk.ic_length _ _ _ hfound) (hk.ic_length _ _ _ h.found) (by simp [Key.kind])
  exact hmaterial.symm

theorem KeyPinned.verified {call : BallotCall} (h : KeyPinned C s call.election.1 call.election.2 key p)
    (hk : KeysOk (s.daos call.election.1).keys) (hfree : CollisionFree C (s.daos call.election.1).keys)
    (hpinned : call.UsesPinnedKey (s.elections call.election.1 call.election.2))
    (hrun : call.run C env s = .ok s') :
    call.VerifiedBy C (s.elections call.election.1 call.election.2) key := by
  have hproposal := h.proposal
  have hkey := h.curve
  have hfound := h.found
  have hquadratic := h.quadratic
  cases call with
  | vote d q choice n root proof =>
    simp [BallotCall.run, vote] at hrun
    obtain ⟨-, -, -, -, -, -, p₀, hp₀, -, heligible, hcurve, vk, hvk, -, hverify, -⟩ := hrun
    obtain rfl : p = p₀ := Option.some.inj (hproposal.symm.trans hp₀)
    rw [show (election_config (s.elections d q)).merkle_depth = 0 from hpinned, resolve_zero] at hvk
    have hmode := heligible.mode_ne
    cases key with
    | plain vk' =>
      have hsame : vk' = vk := Option.some.inj ((find_plain.mp hfound).symm.trans hvk.1)
      exact ⟨vk, congrArg Sum.inl hsame, hverify⟩
    | bls381 vk' =>
      rw [show (s.elections d q).proposal_curve = some .Bls12381 from hkey] at hcurve
      cases hcurve
    | quadratic vk' => exact absurd (hquadratic rfl) hmode
  | vote_bls381 d q choice n root proof =>
    simp [BallotCall.run, vote_bls381] at hrun
    obtain ⟨-, -, -, -, -, -, p₀, hp₀, -, -, hcurve, vk, hvk, -, -, hverify, -⟩ := hrun
    obtain rfl : p = p₀ := Option.some.inj (hproposal.symm.trans hp₀)
    simp only [get_vk_by_version_bls381, orPanic_eq_ok] at hvk
    cases key with
    | bls381 vk' =>
      have hsame : vk' = vk := Option.some.inj ((find_bls381.mp hfound).symm.trans hvk)
      exact ⟨vk, congrArg Sum.inr hsame, hverify⟩
    | plain vk' | quadratic vk' =>
      rw [show (s.elections d q).proposal_curve = some .Bn254 from hkey] at hcurve
      cases hcurve
  | cast_qv_vote d q n root credits allocations_hash proof =>
    simp [BallotCall.run, cast_qv_vote] at hrun
    obtain ⟨-, -, -, -, -, -, p₀, hp₀, -, -, -, -, vk, hvk, hhash, hverify, -⟩ := hrun
    obtain rfl : p = p₀ := Option.some.inj (hproposal.symm.trans hp₀)
    simp only [get_qv_vk_by_version, orPanic_eq_ok] at hvk
    exact ⟨vk, h.material_of_hash hk hfree hvk hhash, hverify⟩
  | _ => exact absurd hpinned id

/-! ## Rotations -/

/-- The ballots cannot tell the state from an earlier one in which they were accepted. -/
structure Rotated (s s₁ : VotingState) : Prop where
  elections : s₁.elections = s.elections
  find : ∀ d v kind key, (s.daos d).keys.find v kind = some key → (s₁.daos d).keys.find v kind = some key
  lock : s₁.inst.reentrancy_lock = s.inst.reentrancy_lock
  not_paused : ∀ env, NotPaused env s → NotPaused env s₁

theorem Rotated.accepts {call : BallotCall} (h : Rotated s s₁)
    (hpinned : call.UsesPinnedKey (s.elections call.election.1 call.election.2))
    (hrun : call.run C env s = .ok s') : ∃ s₁', call.run C env s₁ = .ok s₁' := by
  have hpause := h.not_paused env
  have hlock := h.lock
  have helections := h.elections
  cases call with
  | vote d q choice n root proof =>
    simp [BallotCall.run, vote] at hrun ⊢
    rw [helections, hlock]
    rw [show (election_config (s.elections d q)).merkle_depth = 0 from hpinned] at hrun ⊢
    obtain ⟨hactive, hfree, hn, hroot, hne, hfresh, p, hp, hopen, heligible, hcurve, vk, hvk, hvalid, hverify,
      hroom, -⟩ := hrun
    obtain ⟨hvk, hhash⟩ := resolve_zero.mp hvk
    have hkept := find_plain.mp (h.find d p.vk_version .plain (.plain vk) (find_plain.mpr hvk))
    exact ⟨hpause hactive, hfree, hn, hroot, hne, hfresh, p, hp, hopen, heligible, hcurve, vk,
      resolve_zero.mpr ⟨hkept, hhash⟩, hvalid, hverify, hroom⟩
  | vote_bls381 d q choice n root proof =>
    simp [BallotCall.run, vote_bls381, get_vk_by_version_bls381] at hrun ⊢
    rw [helections, hlock]
    obtain ⟨hactive, hfree, hn, hroot, hne, hfresh, p, hp, hopen, heligible, hcurve, vk, hvk, hhash, hvalid,
      hverify, hroom, -⟩ := hrun
    have hkept := find_bls381.mp (h.find d p.vk_version .bls381 (.bls381 vk) (find_bls381.mpr hvk))
    exact ⟨hpause hactive, hfree, hn, hroot, hne, hfresh, p, hp, hopen, heligible, hcurve, vk, hkept, hhash, hvalid,
      hverify, hroom⟩
  | cast_qv_vote d q n root credits allocations_hash proof =>
    simp [BallotCall.run, cast_qv_vote, get_qv_vk_by_version] at hrun ⊢
    rw [helections]
    obtain ⟨hn, hroot, hhashfield, hne, hbudget, hfresh, p, hp, hmode, hopen, heq, hroot', vk, hvk, hhash, hverify,
      hcount, hcredits, -⟩ := hrun
    have hkept := find_quadratic.mp (h.find d p.vk_version .quadratic (.quadratic vk) (find_quadratic.mpr hvk))
    exact ⟨hn, hroot, hhashfield, hne, hbudget, hfresh, p, hp, hmode, hopen, heq, hroot', vk, hkept, hhash, hverify,
      hcount, hcredits⟩
  | _ => exact absurd hpinned id

end

/-! ## Runs -/

section
variable {C : Crypto} {registry guardian : Address} {log after : List (VotingState × VotingEnv × Call)}
  {s s' : VotingState} {d q : Nat} {key : Key} {p : ProposalInfo}

/-- A setter changes no election, and at most lifts a pause that has run out. -/
theorem dao_untouched {env : VotingEnv} {call : DaoCall} (h : call.run C env s = .ok s') :
    s'.elections = s.elections ∧ s'.inst.reentrancy_lock = s.inst.reentrancy_lock ∧
      ∀ env, NotPaused env s → NotPaused env s' := by
  obtain ⟨d', hdao⟩ := dao_step h
  refine ⟨hdao.elections, ?_⟩
  rcases (dao_keys h).inst with hinst | hinst
  · unfold NotPaused
    rw [hinst]
    exact ⟨rfl, fun _ => id⟩
  · unfold NotPaused
    rw [hinst]
    exact ⟨rfl, fun _ _ => .inl rfl⟩

theorem rotated_of_run (hrun : VotingRun C registry guardian log s) (hafter : Run (Accepts C) s after s')
    (hsetters : ∀ e ∈ after, ∃ call, e.2.2 = .dao call) : Rotated s s' := by
  have huntouched : s'.elections = s.elections ∧ s'.inst.reentrancy_lock = s.inst.reentrancy_lock ∧
      ∀ env, NotPaused env s → NotPaused env s' := by
    refine Run.invariant_of (P := fun s' => s'.elections = s.elections ∧
      s'.inst.reentrancy_lock = s.inst.reentrancy_lock ∧ ∀ env, NotPaused env s → NotPaused env s')
      (C := fun _ call => ∃ c, call.2 = Call.dao c) ⟨rfl, rfl, fun _ => id⟩ ?_ hafter hsetters
    rintro s₁ ⟨env, call⟩ s₂ ⟨helections, hlock, hpause⟩ ⟨c, rfl⟩ (hs : c.run C env s₁ = .ok s₂)
    obtain ⟨helections', hlock', hpause'⟩ := dao_untouched hs
    exact ⟨helections'.trans helections, hlock'.trans hlock, fun env hnot => hpause' env (hpause env hnot)⟩
  obtain ⟨helections, hlock, hpause⟩ := huntouched
  exact ⟨helections, fun d v kind key hfind => find_of_run hrun hafter hfind, hlock, hpause⟩

theorem KeyPinned.of_run (h : KeyPinned C s d q key p) (hrun : VotingRun C registry guardian log s)
    (hafter : Run (Accepts C) s after s') : ∃ p', KeyPinned C s' d q key p' ∧ p'.vk_version = p.vk_version := by
  have hsame := sameTerms_of_run hrun hafter (by rw [h.proposal]; simp : (s.elections d q).proposal ≠ none)
  cases hp' : (s'.elections d q).proposal with
  | none =>
    rw [hsame.proposal_eq_none_iff, h.proposal] at hp'
    cases hp'
  | some p' =>
    have hterms := hsame.terms_eq h.proposal hp'
    have hversion : p'.terms.vk_version = p.terms.vk_version := congrArg _ hterms
    have hhash : p'.terms.vk_hash = p.terms.vk_hash := congrArg _ hterms
    have hmode : p'.terms.vote_mode = p.terms.vote_mode := congrArg _ hterms
    refine ⟨p', ⟨hp', ?_, hhash.trans h.hash, hsame.curve.trans h.curve, fun hkind => ?_⟩, hversion⟩
    · rw [show p'.vk_version = p.vk_version from hversion]
      exact find_of_run hrun hafter h.found
    · exact hmode.trans (h.quadratic hkind)

theorem VotingRun.create {env : VotingEnv} {call : CreateCall} {id : Nat}
    (hrun : VotingRun C registry guardian log s) (hcreate : call.create C env s = .ok (id, s')) :
    VotingRun C registry guardian ((s, env, .create call) :: log) s' := by
  have hcall : call.run C env s = .ok s' := by
    rw [CreateCall.run, hcreate]
    rfl
  exact hrun.step hcall

/-- A new proposal that is not encrypted pins the key it was created with. -/
theorem created_keyPinned {env : VotingEnv} {call : CreateCall} {id : Nat}
    (hrun : VotingRun C registry guardian log s) (hplain : call.isEncrypted = false)
    (hcreate : call.create C env s = .ok (id, s')) : ∃ key p, KeyPinned C s' call.dao_id id key p ∧
      key.kind = call.keyKind s ∧ (s.daos call.dao_id).keys.find p.vk_version (call.keyKind s) = some key := by
  obtain ⟨e', p, hc, hcreated⟩ := create_created hcreate
  obtain ⟨key, hfound, hhash⟩ := hcreated.key hplain
  have hkind := (hrun.keysOk call.dao_id).kind _ _ _ hfound
  refine ⟨key, p, ⟨?_, ?_, hhash, ?_, fun hquadratic => ?_⟩, hkind, hfound⟩
  · rw [hc.election, hc.proposal]
  · rw [hc.daos, Function.update_self, hkind]
    exact hfound
  · rw [hc.election, hcreated.curve, hkind, CreateCall.keyKind_curve]
  · rw [hcreated.vote_mode]
    exact CreateCall.keyKind_quadratic (hkind.symm.trans hquadratic)

end

/-- For every proposal that is not encrypted, in every state after its creation: its ballots at depth 0 go by
the key it was created with. -/
theorem ballots_go_by_created_key (C : Crypto) {registry guardian : Address}
    {before after : List (VotingState × VotingEnv × Call)} {env : VotingEnv} {call : CreateCall} {id : Nat}
    {s₀ s₁ s : VotingState} (hrun : VotingRun C registry guardian before s₀) (hplain : call.isEncrypted = false)
    (hcreate : call.create C env s₀ = .ok (id, s₁)) (hafter : Run (Accepts C) s₁ after s)
    (hfree : CollisionFree C (s.daos call.dao_id).keys) :
    ∃ key p, (s₁.elections call.dao_id id).proposal = some p ∧
      (s₀.daos call.dao_id).keys.find p.vk_version (call.keyKind s₀) = some key ∧ p.vk_hash = key.hash C ∧
      GoesBy C s call.dao_id id key := by
  have hrun₁ := hrun.create hcreate
  obtain ⟨key, p, hcreated, -, hfound⟩ := created_keyPinned hrun hplain hcreate
  obtain ⟨p', hpinned, -⟩ := hcreated.of_run hrun₁ hafter
  have hreach : VotingRun C registry guardian (after ++ (s₀, env, .create call) :: before) s :=
    Run.append hrun₁ hafter
  refine ⟨key, p, hcreated.proposal, hfound, hcreated.hash, fun p₀ hp₀ => ?_, ?_, ?_⟩
  · obtain rfl : p' = p₀ := Option.some.inj (hpinned.proposal.symm.trans hp₀)
    exact hpinned.lookup
  · intro env ballot s' helection huses hballot
    have hd : ballot.election.1 = call.dao_id := congrArg Prod.fst helection
    have hq : ballot.election.2 = id := congrArg Prod.snd helection
    rw [← hd, ← hq] at hpinned huses ⊢
    rw [← hd] at hfree
    exact hpinned.verified (hreach.keysOk _) hfree huses hballot
  · intro env ballot s' setters s₂ helection huses hballot hrotation hsetters
    refine (rotated_of_run hreach hrotation hsetters).accepts ?_ hballot
    rwa [helection]

/-! ## A rotation -/

/-- A key that is not `sampleVk`. -/
def rotatedVk : VerificationKey :=
  { sampleVk 7 with ic := List.replicate 6 (Vector.replicate 64 0) ++ [Vector.replicate 64 1] }

def sampleCreation : CreateCall := .create_proposal 0 [] [] 0 1 .Fixed

def sampleBallot : BallotCall := .vote 0 1 true 3 Tree.sampleRoot sampleProof

def rotation : VotingEnv × Call := (sampleEnv, .dao (.set_vk_from_registry 0 rotatedVk))

def takesOldKey (s₀ : VotingState) : Bool :=
  match sampleCreation.create sampleCrypto sampleEnv s₀ with
  | .ok (id, s₁) => (next sampleCrypto s₁ rotation).any fun s =>
      decide (id = 1 ∧ (sampleBallot.run sampleCrypto sampleEnv s).isOk = true ∧
        ∀ key ∈ (s.daos 0).keys.stored, ∀ key' ∈ (s.daos 0).keys.stored,
          sampleCrypto.sha256 key.bytes = sampleCrypto.sha256 key'.bytes → key.bytes = key'.bytes)
  | .error _ => false

/-- The key is replaced after the proposal was created, and the ballot is accepted under the old one. -/
theorem ballots_go_by_created_key_after_a_rotation : ∃ before after s₀ s₁ s,
    VotingRun sampleCrypto 0 0 before s₀ ∧ sampleCreation.create sampleCrypto sampleEnv s₀ = .ok (1, s₁) ∧
    Run (Accepts sampleCrypto) s₁ after s ∧ (sampleBallot.run sampleCrypto sampleEnv s).isOk = true ∧
    ∃ key p, (s₁.elections 0 1).proposal = some p ∧
      (s₀.daos 0).keys.find p.vk_version (sampleCreation.keyKind s₀) = some key ∧
      p.vk_hash = key.hash sampleCrypto ∧ GoesBy sampleCrypto s 0 1 key := by
  obtain ⟨before, s₀, hrun, htest⟩ := exists_run (C := sampleCrypto) (r := 0) (g := 0)
    [.dao (.set_vk_from_registry 0 (sampleVk 7))] (fun _ s => takesOldKey s) (by decide +kernel)
  simp only [takesOldKey] at htest
  split at htest
  · rename_i id s₁ hcreate
    obtain ⟨s, hs, htest⟩ := (Option.any_eq_true _ _).mp htest
    obtain ⟨rfl, hballot, hfree⟩ := of_decide_eq_true htest
    have hafter : Run (Accepts sampleCrypto) s₁ [(s₁, rotation)] s := .call .start (toOption_eq_some.mp hs)
    have hok : KeysOk (s.daos 0).keys := VotingRun.keysOk (Run.append (hrun.create hcreate) hafter) 0
    exact ⟨before, _, s₀, s₁, s, hrun, hcreate, hafter, hballot,
      ballots_go_by_created_key sampleCrypto hrun rfl hcreate hafter (hok.collisionFree hfree)⟩
  · cases htest

end ZkVote.Voting

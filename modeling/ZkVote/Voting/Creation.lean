import ZkVote.Voting.Settings

/-!
# The voting contract: what a proposal starts with

Every way to create a proposal reads a root from the tree and a key from the
DAO, and writes both into it.
-/

open Lib Lib.Outcome

namespace ZkVote.Voting

/-- A key that ballots are checked against at depth 0, with the table it is kept in. -/
inductive Key where
  | plain (vk : VerificationKey)
  | bls381 (vk : VerificationKeyBls381)
  | quadratic (vk : VerificationKey)

inductive KeyKind where
  | plain
  | bls381
  | quadratic
  deriving DecidableEq

def Key.kind : Key → KeyKind
  | plain _ => .plain
  | bls381 _ => .bls381
  | quadratic _ => .quadratic

def Key.hash (C : Crypto) : Key → BytesN 32
  | plain vk => hash_vk C vk
  | bls381 vk => hash_vk_bls381 C vk
  | quadratic vk => hash_vk C vk

def CurveId.keyKind : CurveId → KeyKind
  | .Bn254 => .plain
  | .Bls12381 => .bls381

def KeyKind.curve : KeyKind → CurveId
  | .bls381 => .Bls12381
  | _ => .Bn254

@[simp] theorem CurveId.curve_keyKind (c : CurveId) : c.keyKind.curve = c := by
  cases c <;> rfl

@[simp] theorem CurveId.keyKind_ne_quadratic (c : CurveId) : c.keyKind ≠ .quadratic := by
  cases c <;> simp [CurveId.keyKind]

/-- The entry of a version in the table of a kind. -/
def Keys.find (k : Keys) (version : Nat) : KeyKind → Option Key
  | .plain => (k.vk_by_version version).map .plain
  | .bls381 => (k.vk_by_version_bls381 version).map .bls381
  | .quadratic => (k.qv_vk_by_version version).map .quadratic

namespace CreateCall

def isEncrypted : CreateCall → Bool
  | create_encrypted_proposal .. => true
  | _ => false

/-- The state the proposal starts in. -/
def state : CreateCall → ProposalState
  | create_proposal_in_registration .. => .Registration
  | _ => .Active

def vote_mode : CreateCall → VoteMode
  | create_proposal _ _ _ _ _ m | create_proposal_in_registration _ _ _ _ _ m
  | create_proposal_with_vk_version _ _ _ _ _ m _ => m
  | create_encrypted_proposal _ _ params _ => params.vote_mode
  | create_qv_proposal .. => .Quadratic

/-- The root it reads from the tree. -/
def root (env : VotingEnv) (call : CreateCall) : Outcome Tree.TreeError U256 :=
  if call.isEncrypted = true then Tree.epoch_root env.tree call.dao_id (Tree.current_epoch env.tree call.dao_id)
  else Tree.current_root env.tree call.dao_id

/-- The snapshot root that the call names; the plain ways take the root they read. -/
def snapshotRoot : CreateCall → Option U256
  | create_encrypted_proposal _ _ _ eligibility_snapshot_root
  | create_qv_proposal _ _ _ _ _ eligibility_snapshot_root => some eligibility_snapshot_root
  | _ => none

def curve (s : VotingState) : CreateCall → CurveId
  | create_proposal d _ _ _ _ _ | create_proposal_in_registration d _ _ _ _ _
  | create_proposal_with_vk_version d _ _ _ _ _ _ => get_curve_id s d
  | create_encrypted_proposal .. | create_qv_proposal .. => .Bn254

/-- The table its key comes from; an encrypted proposal has its key elsewhere. -/
def keyKind (s : VotingState) : CreateCall → KeyKind
  | create_qv_proposal .. => .quadratic
  | call => (call.curve s).keyKind

theorem keyKind_curve {s : VotingState} {call : CreateCall} : (call.keyKind s).curve = call.curve s := by
  cases call <;> first | rfl | exact CurveId.curve_keyKind _

theorem keyKind_quadratic {s : VotingState} {call : CreateCall} (h : call.keyKind s = .quadratic) :
    call.vote_mode = .Quadratic := by
  cases call <;> first | rfl | cases h | exact absurd h (CurveId.keyKind_ne_quadratic _)

end CreateCall

/-- A new proposal has the next number, no votes, and the signature of its creator. Ballots are not touched. -/
structure CreateStep (env : VotingEnv) (s s' : VotingState) (dao_id : Nat) (creator : Address) (id : Nat)
    (e' : Election) (p : ProposalInfo) : Prop where
  inst : SameInst s.inst s'.inst
  legacy : s'.legacy_nullifier_used = s.legacy_nullifier_used
  id_eq : id = (s.daos dao_id).proposal_count + 1
  daos : s'.daos = Function.update s.daos dao_id { s.daos dao_id with proposal_count := id }
  elections : s'.elections = (s.set_election dao_id id e').elections
  ballots : e'.ballots = (s.elections dao_id id).ballots
  proposal : e'.proposal = some p
  no_votes : p.yes_votes = 0 ∧ p.no_votes = 0
  created_by : p.created_by = creator
  signed : env.auths creator = true

structure Created (C : Crypto) (env : VotingEnv) (s : VotingState) (call : CreateCall) (e e' : Election)
    (p : ProposalInfo) : Prop where
  state : p.state = call.state
  vote_mode : p.vote_mode = call.vote_mode
  root : call.root env = .ok p.eligible_root
  indexed : Tree.curr_idx env.tree call.dao_id = .ok p.earliest_root_index
  snapshot : p.eligibility_snapshot_root = call.snapshotRoot.getD p.eligible_root
  curve : e'.proposal_curve = some (call.curve s)
  encrypted_config : if call.isEncrypted = true then e'.encrypted_config ≠ none
    else e'.encrypted_config = e.encrypted_config
  key : call.isEncrypted = false → ∃ key, (s.daos call.dao_id).keys.find p.vk_version (call.keyKind s) = some key ∧
    p.vk_hash = key.hash C

section
variable {C : Crypto} {env : VotingEnv} {s s' : VotingState}

theorem vk_hash_of_version_eq_ok {d version : Nat} {curve : CurveId} {hash : BytesN 32} :
    vk_hash_of_version C s d version curve = .ok hash ↔
      ∃ key, (s.daos d).keys.find version curve.keyKind = some key ∧ hash = key.hash C := by
  cases curve with
  | Bn254 =>
    simp only [vk_hash_of_version, get_vk_by_version, bind_eq_ok, orPanic_eq_ok, pure_eq_ok, Keys.find,
      CurveId.keyKind, Option.map_eq_some_iff]
    constructor
    · rintro ⟨vk, hvk, rfl⟩
      exact ⟨.plain vk, ⟨vk, hvk, rfl⟩, rfl⟩
    · rintro ⟨key, ⟨vk, hvk, rfl⟩, rfl⟩
      exact ⟨vk, hvk, rfl⟩
  | Bls12381 =>
    simp only [vk_hash_of_version, get_vk_by_version_bls381, bind_eq_ok, orPanic_eq_ok, pure_eq_ok, Keys.find,
      CurveId.keyKind, Option.map_eq_some_iff]
    constructor
    · rintro ⟨vk, hvk, rfl⟩
      exact ⟨.bls381 vk, ⟨vk, hvk, rfl⟩, rfl⟩
    · rintro ⟨key, ⟨vk, hvk, rfl⟩, rfl⟩
      exact ⟨vk, hvk, rfl⟩

theorem CreateStep.rewrite {dao_id id : Nat} {creator : Address} {e' e'' : Election} {p p' : ProposalInfo}
    (h : CreateStep env s s' dao_id creator id e' p) (hballots : e''.ballots = e'.ballots)
    (hproposal : e''.proposal = some p') (hvotes : p'.yes_votes = p.yes_votes ∧ p'.no_votes = p.no_votes)
    (hcreator : p'.created_by = p.created_by) :
    CreateStep env s (s'.set_election dao_id id e'') dao_id creator id e'' p' where
  inst := h.inst
  legacy := h.legacy
  id_eq := h.id_eq
  daos := h.daos
  elections := by
    unfold VotingState.set_election
    dsimp only
    rw [h.elections]
    simp [VotingState.set_election]
  ballots := hballots.trans h.ballots
  proposal := hproposal
  no_votes := ⟨hvotes.1.trans h.no_votes.1, hvotes.2.trans h.no_votes.2⟩
  created_by := hcreator.trans h.created_by
  signed := h.signed

theorem CreateStep.election {dao_id id : Nat} {creator : Address} {e' : Election} {p : ProposalInfo}
    (h : CreateStep env s s' dao_id creator id e' p) : s'.elections dao_id id = e' := by
  rw [h.elections, VotingState.set_election_self]

theorem create_proposal_with_version_created {d end_time id : Nat} {title content_cid : Bytes}
    {creator : Address} {vote_mode : VoteMode} {vk_version : Option Nat}
    (h : create_proposal_with_version C env s d title content_cid end_time creator vote_mode vk_version =
      .ok (id, s')) :
    ∃ e' p, CreateStep env s s' d creator id e' p ∧ p.state = .Active ∧ p.vote_mode = vote_mode ∧
      Tree.current_root env.tree d = .ok p.eligible_root ∧ Tree.curr_idx env.tree d = .ok p.earliest_root_index ∧
      p.eligibility_snapshot_root = p.eligible_root ∧ e'.proposal_curve = some (get_curve_id s d) ∧
      e'.encrypted_config = (s.elections d id).encrypted_config ∧
      ∃ key, (s.daos d).keys.find p.vk_version (get_curve_id s d).keyKind = some key ∧
        p.vk_hash = key.hash C := by
  simp [create_proposal_with_version, next_proposal_id] at h
  obtain ⟨-, hauth, -, -, -, version, -, -, vk_hash, hkey, root, hroot, index, hindex, -, rfl, rfl⟩ := h
  exact ⟨_, _, ⟨⟨rfl, rfl, rfl, rfl, rfl, rfl⟩, rfl, rfl, rfl, rfl, rfl, rfl, ⟨rfl, rfl⟩, rfl, hauth⟩, rfl, rfl, hroot,
    hindex, rfl, rfl, rfl, vk_hash_of_version_eq_ok.mp hkey⟩

theorem create_created {call : CreateCall} {id : Nat} (h : call.create C env s = .ok (id, s')) :
    ∃ e' p, CreateStep env s s' call.dao_id call.creator id e' p ∧
      Created C env s call (s.elections call.dao_id id) e' p := by
  cases call with
  | create_proposal =>
    obtain ⟨e', p, hstep, hstate, hmode, hroot, hindex, hsnapshot, hcurve, hencrypted, hkey⟩ :=
      create_proposal_with_version_created h
    exact ⟨e', p, hstep, hstate, hmode, hroot, hindex, hsnapshot, hcurve, hencrypted, fun _ => hkey⟩
  | create_proposal_with_vk_version =>
    obtain ⟨e', p, hstep, hstate, hmode, hroot, hindex, hsnapshot, hcurve, hencrypted, hkey⟩ :=
      create_proposal_with_version_created h
    exact ⟨e', p, hstep, hstate, hmode, hroot, hindex, hsnapshot, hcurve, hencrypted, fun _ => hkey⟩
  | create_proposal_in_registration =>
    simp only [CreateCall.create, create_proposal_in_registration, bind_eq_ok, expect_eq_ok, pure_eq_ok,
      Prod.mk.injEq] at h
    obtain ⟨⟨_, s₁⟩, hcreate, p, hp, rfl, rfl⟩ := h
    obtain ⟨e', p', hstep, -, hmode, hroot, hindex, hsnapshot, hcurve, hencrypted, hkey⟩ :=
      create_proposal_with_version_created hcreate
    dsimp only at hp ⊢
    rw [hstep.election] at hp ⊢
    obtain rfl : p' = p := Option.some.inj (hstep.proposal.symm.trans hp)
    exact ⟨_, _, hstep.rewrite rfl rfl ⟨rfl, rfl⟩ rfl, rfl, hmode, hroot, hindex, hsnapshot, hcurve, hencrypted,
      fun _ => hkey⟩
  | create_encrypted_proposal d creator params =>
    simp [CreateCall.create, create_encrypted_proposal, next_proposal_id] at h
    obtain ⟨-, hauth, -, -, -, version, -, vk, -, -, hepoch, root, hroot, index, hindex, -, rfl, rfl⟩ := h
    refine ⟨_, _, ⟨⟨rfl, rfl, rfl, rfl, rfl, rfl⟩, rfl, rfl, rfl, rfl, rfl, rfl, ⟨rfl, rfl⟩, rfl, hauth⟩,
      ⟨rfl, rfl, ?_, hindex, rfl, rfl, ?_, fun hplain => ?_⟩⟩
    · have hcurrent : (if params.epoch = 0 then Tree.current_epoch env.tree d else params.epoch) =
          Tree.current_epoch env.tree d := by
        split <;> simp_all
      rw [hcurrent] at hroot
      exact hroot
    · simp [CreateCall.isEncrypted]
    · cases hplain
  | create_qv_proposal d title content_cid end_time creator =>
    simp [CreateCall.create, create_qv_proposal, next_proposal_id] at h
    obtain ⟨hauth, -, -, -, version, hversion, -, vk, hvk, root, hroot, index, hindex, -, rfl, rfl⟩ := h
    refine ⟨_, _, ⟨.refl _, rfl, rfl, rfl, rfl, rfl, rfl, ⟨rfl, rfl⟩, rfl, hauth⟩,
      ⟨rfl, rfl, hroot, hindex, rfl, rfl, rfl, fun _ => ⟨.quadratic vk, ?_, rfl⟩⟩⟩
    exact congrArg (Option.map Key.quadratic) (orPanic_eq_ok.mp hvk)

theorem create_step {call : CreateCall} (h : call.run C env s = .ok s') :
    ∃ id e' p, CreateStep env s s' call.dao_id call.creator id e' p := by
  simp only [CreateCall.run, bind_eq_ok, pure_eq_ok] at h
  obtain ⟨⟨id, s'⟩, h, rfl⟩ := h
  obtain ⟨e', p, hstep, -⟩ := create_created h
  exact ⟨id, e', p, hstep⟩

end

end ZkVote.Voting

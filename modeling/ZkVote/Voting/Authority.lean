import ZkVote.Voting.Steps

/-!
# The voting contract: who decides

The entries that decide an election, and the calls that write them for anyone
who asks.
-/

open Lib Lib.Outcome

namespace ZkVote.Voting

/-- The entries that decide who votes, under which key, and when. -/
@[ext] structure Deciding where
  keys : Nat → Keys
  weighted_balance_commitment : Nat → U256 → Bool
  circuit_registry : Option Address
  transcript_registry : Option Address
  commitment_window : Nat → Nat → Nat
  phase : Nat → Nat → Option ProposalState

def deciding (s : VotingState) : Deciding where
  keys := fun d => (s.daos d).keys
  weighted_balance_commitment := fun d => (s.daos d).weighted_balance_commitment
  circuit_registry := s.inst.circuit_registry
  transcript_registry := s.inst.transcript_registry
  commitment_window := fun d q => commitment_window (s.elections d q)
  phase := fun d q => phase (s.elections d q)

/-! ## Signatures -/

/-- The election a call is about, if it is about one that may exist already. -/
def Call.election : Call → Option (Nat × Nat)
  | .ballot call => some call.election
  | .tally call => some call.election
  | .phase call => some call.election
  | .config call => some call.election
  | _ => none

def Call.dao_id : Call → Option Nat
  | .create call => some call.dao_id
  | .dao call => some call.dao_id
  | call => call.election.map Prod.fst

/-- The creator of the proposal a call is about, or makes. -/
def Call.creator (s : VotingState) : Call → Option Address
  | .create call => some call.creator
  | call => do
    let (d, q) ← call.election
    let p ← (s.elections d q).proposal
    return p.created_by

/-- The guardian, the registry, the DAO's admin or the proposal's creator has signed. -/
def Authorised (env : VotingEnv) (s : VotingState) (call : Call) : Prop :=
  env.auths s.inst.guardian = true ∨ RegistrySigns env s ∨ (∃ d, call.dao_id = some d ∧ AdminSigns env s d) ∨
    ∃ creator, call.creator s = some creator ∧ env.auths creator = true

/-- A call that asks for none of these signatures and would change a deciding entry. -/
def OpenChange (s : VotingState) : Call → Prop
  | .dao (.set_weighted_balance_commitment d commitment) =>
    (s.daos d).weighted_balance_commitment commitment = false
  | .inst (.set_circuit_registry a) => s.inst.circuit_registry ≠ some a
  | .inst (.set_transcript_registry a) => s.inst.transcript_registry ≠ some a
  | .config (.set_commitment_window d q window _) => commitment_window (s.elections d q) ≠ window
  | .phase (.activate_proposal ..) => True
  | .tally (.submit_recursive_tally ..) => True
  | _ => False

section
variable {C : Crypto} {env : VotingEnv} {s s' : VotingState} {call : Call} {dao_id proposal_id : Nat}
  {e' : Election}

/-- Rewriting an election leaves the deciding entries alone if its window and its phase stay. -/
theorem Rewrites.deciding_eq_iff (h : Rewrites s s' dao_id proposal_id e') :
    deciding s' = deciding s ↔
      commitment_window e' = commitment_window (s.elections dao_id proposal_id) ∧
        phase e' = phase (s.elections dao_id proposal_id) := by
  constructor
  · intro heq
    have hwindow := congrFun (congrFun (congrArg Deciding.commitment_window heq) dao_id) proposal_id
    have hphase := congrFun (congrFun (congrArg Deciding.phase heq) dao_id) proposal_id
    simp only [deciding, h.self] at hwindow hphase
    exact ⟨hwindow, hphase⟩
  · rintro ⟨hwindow, hphase⟩
    have hsame : ∀ d q, commitment_window (s'.elections d q) = commitment_window (s.elections d q) ∧
        phase (s'.elections d q) = phase (s.elections d q) :=
      h.forall (P := fun d q e => commitment_window e = commitment_window (s.elections d q) ∧
        phase e = phase (s.elections d q)) (fun _ _ => ⟨rfl, rfl⟩) ⟨hwindow, hphase⟩
    refine Deciding.ext (by simp only [deciding, h.daos]) (by simp only [deciding, h.daos])
      h.inst.circuit_registry h.inst.transcript_registry ?_ ?_
    · funext d q
      exact (hsame d q).1
    · funext d q
      exact (hsame d q).2

theorem BallotEffect.phase {e : Election} {call : BallotCall} (h : BallotEffect e e' call) :
    phase e' = phase e := by
  cases h with
  | counted hp hp' mode spends counts => simp [Voting.phase, hp, hp', counts.state]
  | committed hp hp' => rw [Voting.phase, hp', Voting.phase]
  | quadratic hp hp' => rw [Voting.phase, hp', Voting.phase]

theorem ballot_deciding {call : BallotCall} (h : call.run C env s = .ok s') : deciding s' = deciding s := by
  obtain ⟨e', hb⟩ := ballot_step h
  refine hb.rewrites.deciding_eq_iff.mpr ⟨?_, hb.effect.phase⟩
  rw [commitment_window, election_config, hb.config]
  rfl

theorem TallyEffect.phase_eq_iff {e : Election} {call : TallyCall} (h : TallyEffect e e' call) :
    Voting.phase e' = Voting.phase e ↔ call.submits = false := by
  cases h with
  | revealed hp hp' counts => simp [Voting.phase, hp, hp', counts.state, TallyCall.submits]
  | submitted hp hp' attested ballots total vote_mode fits active closed =>
    simp [Voting.phase, hp, hp', active, closed, TallyCall.submits]
  | undecided same other => simp [same.phase, other]

theorem tally_deciding {call : TallyCall} (hdormant : Dormant s) (h : call.run C env s = .ok s') :
    deciding s' = deciding s ↔ ¬ OpenChange s (.tally call) := by
  obtain ⟨e', hr, hwindow, ht⟩ := tally_step hdormant h
  rw [hr.deciding_eq_iff, ht.phase_eq_iff]
  cases call <;> simp [hwindow, OpenChange, TallyCall.submits]

theorem phase_deciding {call : PhaseCall} (h : call.run env s = .ok s')
    (hunsigned : ¬ Authorised env s (.phase call)) :
    deciding s' = deciding s ↔ ¬ OpenChange s (.phase call) := by
  obtain ⟨e', hr, -, -, hwindow, ⟨hactivates, hbefore, hafter⟩ | ⟨-, hadmin⟩⟩ := phase_step h
  · rw [hr.deciding_eq_iff, hbefore, hafter]
    cases call <;> simp [OpenChange, PhaseCall.activates] at hactivates ⊢
  · exact absurd (.inr (.inr (.inl ⟨_, rfl, hadmin⟩))) hunsigned

theorem config_deciding {call : ConfigCall} (h : call.run C env s = .ok s') :
    deciding s' = deciding s ↔ ¬ OpenChange s (.config call) := by
  obtain ⟨e', hr, hu, hwindow⟩ := config_step h
  rw [hr.deciding_eq_iff, hwindow]
  cases call <;> simp [OpenChange, ConfigCall.setsWindow, hu.phase, eq_comm]

theorem dao_deciding {call : DaoCall} (h : call.run C env s = .ok s')
    (hunsigned : ¬ Authorised env s (.dao call)) :
    deciding s' = deciding s ↔ ¬ OpenChange s (.dao call) := by
  obtain ⟨d', hd⟩ := dao_step h
  have hkeys : d'.keys = (s.daos call.dao_id).keys := by
    rcases hd.keys with hkeys | hadmin | hregistry
    · exact hkeys
    · exact absurd (.inr (.inr (.inl ⟨_, rfl, hadmin⟩))) hunsigned
    · exact absurd (.inr (.inl hregistry)) hunsigned
  have hiff : deciding s' = deciding s ↔
      d'.weighted_balance_commitment = (s.daos call.dao_id).weighted_balance_commitment := by
    constructor
    · intro heq
      have hpinned := congrFun (congrArg Deciding.weighted_balance_commitment heq) call.dao_id
      simpa only [deciding, hd.daos, Function.update_self] using hpinned
    · intro hpinned
      have hsame : ∀ d, (s'.daos d).keys = (s.daos d).keys ∧
          (s'.daos d).weighted_balance_commitment = (s.daos d).weighted_balance_commitment := by
        intro d
        rw [hd.daos, Function.update_apply]
        split
        · rename_i hdao
          rw [hdao]
          exact ⟨hkeys, hpinned⟩
        · exact ⟨rfl, rfl⟩
      exact Deciding.ext (funext fun d => (hsame d).1) (funext fun d => (hsame d).2)
        hd.inst.circuit_registry hd.inst.transcript_registry (by simp only [deciding, hd.elections])
        (by simp only [deciding, hd.elections])
  rw [hiff, hd.pinned]
  cases call <;> simp [OpenChange, DaoCall.pins, pinned]

theorem instance_deciding {call : InstanceCall} (h : call.run C env s = .ok s') :
    deciding s' = deciding s ↔ ¬ OpenChange s (.inst call) := by
  have hi := instance_step h
  have hiff : deciding s' = deciding s ↔ s'.inst.circuit_registry = s.inst.circuit_registry ∧
      s'.inst.transcript_registry = s.inst.transcript_registry := by
    constructor
    · intro heq
      exact ⟨congrArg Deciding.circuit_registry heq, congrArg Deciding.transcript_registry heq⟩
    · rintro ⟨hcircuit, htranscript⟩
      exact Deciding.ext (by simp only [deciding, hi.daos]) (by simp only [deciding, hi.daos]) hcircuit htranscript
        (by simp only [deciding, hi.elections]) (by simp only [deciding, hi.elections])
  rw [hiff, hi.circuit_registry, hi.transcript_registry]
  cases call <;> simp [OpenChange, eq_comm]

/-- An accepted call without a signature changes a deciding entry when it is open and the entry differs. -/
theorem deciding_eq_iff (hs : VotingOk s) (h : step C s env call = .ok s')
    (hunsigned : ¬ Authorised env s call) : deciding s' = deciding s ↔ ¬ OpenChange s call := by
  cases call with
  | ballot call =>
    have hsame : deciding s' = deciding s := ballot_deciding h
    simp [hsame, OpenChange]
  | tally call => exact tally_deciding hs.dormant h
  | create call =>
    obtain ⟨id, e', p, hc⟩ := create_step h
    exact absurd (.inr (.inr (.inr ⟨_, rfl, hc.signed⟩))) hunsigned
  | phase call => exact phase_deciding h hunsigned
  | config call => exact config_deciding h
  | dao call => exact dao_deciding h hunsigned
  | inst call => exact instance_deciding h

end

/-- In every run, the calls that none of the four has signed leave the deciding entries as they are, if and
only if none of them is an open call that would change one. -/
theorem deciding_unchanged_iff (C : Crypto) {registry guardian : Address}
    {log : List (VotingState × VotingEnv × Call)} {s : VotingState}
    (hrun : VotingRun C registry guardian log s) :
    (∀ t ∈ Run.transitions log s, ¬ Authorised t.2.1.1 t.1 t.2.1.2 → deciding t.2.2 = deciding t.1) ↔
      ∀ e ∈ log, ¬ (¬ Authorised e.2.1 e.1 e.2.2 ∧ OpenChange e.1 e.2.2) :=
  Run.forall_transitions_iff
    (P := fun s (call : VotingEnv × Call) s' => ¬ Authorised call.1 s call.2 → deciding s' = deciding s)
    (C := fun s (call : VotingEnv × Call) => ¬ (¬ Authorised call.1 s call.2 ∧ OpenChange s call.2))
    (fun _ s call s' hr (hs : Accepts C s call s') => by
      rw [not_and]
      exact forall_congr' fun hunsigned => deciding_eq_iff (VotingRun.ok hr) hs hunsigned)
    hrun

theorem deciding_unchanged_iff_for_an_election : ∃ log s, VotingRun sampleCrypto 0 0 log s ∧
    ((∀ t ∈ Run.transitions log s, ¬ Authorised t.2.1.1 t.1 t.2.1.2 → deciding t.2.2 = deciding t.1) ↔
      ∀ e ∈ log, ¬ (¬ Authorised e.2.1 e.1 e.2.2 ∧ OpenChange e.1 e.2.2)) := by
  obtain ⟨log, s, hrun, -⟩ := exists_run (C := sampleCrypto) (r := 0) (g := 0)
    [.dao (.set_vk_from_registry 0 (sampleVk 7)), .create (.create_proposal 0 [] [] 0 1 .Fixed),
      .config (.set_commitment_window 0 1 60 9)] (fun _ _ => true) (by decide +kernel)
  exact ⟨log, s, hrun, deciding_unchanged_iff sampleCrypto hrun⟩

/-- A call that nobody has signed. -/
def unsignedEnv : VotingEnv := { sampleEnv with auths := fun _ => false }

/-- On a fresh contract, a call without any signature pins a balance commitment. -/
theorem commitment_pinned_unsigned : ∃ s', VotingRun sampleCrypto 0 0 [] (constructor 0 0) ∧
    step sampleCrypto (constructor 0 0) unsignedEnv (.dao (.set_weighted_balance_commitment 0 5)) = .ok s' ∧
    ¬ Authorised unsignedEnv (constructor 0 0) (.dao (.set_weighted_balance_commitment 0 5)) ∧
    deciding s' ≠ deciding (constructor 0 0) := by
  refine ⟨_, .start, rfl, ?_, fun heq => ?_⟩
  · simp [Authorised, RegistrySigns, AdminSigns, unsignedEnv]
  · have hpinned := congrFun (congrFun (congrArg Deciding.weighted_balance_commitment heq) 0) 5
    simp [deciding, constructor] at hpinned

end ZkVote.Voting

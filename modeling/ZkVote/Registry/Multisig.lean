import ZkVote.Lib.Quorum
import ZkVote.Lib.History
import ZkVote.Registry.Steps

/-!
# The DAO registry: quorum of the signers

The log says who has signed a proposal and whether it was executed. What a stored
proposal says agrees with it.
-/

open Lib Lib.Outcome

namespace ZkVote.Registry

/-- A call, with the log before it and the states around it. -/
abbrev RegistryMoment := Moment DaoRegistry (Env × Call)

/-- Those who have signed a proposal, the last one first. Its proposer is the first. -/
def signersOf (dao_id proposal_id : Nat) : List (DaoRegistry × Env × Call) → List Address
  | [] => []
  | (s, _, .create_multisig_proposal d _ _ _ _ proposer) :: log =>
    if d = dao_id ∧ s.multisig_proposal_count + 1 = proposal_id then proposer :: signersOf dao_id proposal_id log
    else signersOf dao_id proposal_id log
  | (_, _, .sign_multisig_proposal d q signer) :: log =>
    if d = dao_id ∧ q = proposal_id then signer :: signersOf dao_id proposal_id log
    else signersOf dao_id proposal_id log
  | _ :: log => signersOf dao_id proposal_id log

/-- Whether a call is to execute the proposal. -/
def Call.executes (dao_id proposal_id : Nat) : Call → Bool
  | .execute_multisig_proposal d q _ => decide (d = dao_id ∧ q = proposal_id)
  | _ => false

def isSigner (config : MultisigConfig) (a : Address) : Bool := decide (a ∈ config.signers)

/-- Enough of the signers there are now have signed, in time, and nobody has executed it yet. -/
structure Agreed (m : RegistryMoment) (dao_id proposal_id : Nat) (p : MultisigProposal) (config : MultisigConfig) :
    Prop where
  quorum : config.threshold ≤ (backers (signersOf dao_id proposal_id m.past) (isSigner config)).card
  open_ : m.call.1.timestamp ≤ p.expires_at
  first : ∀ e ∈ m.past, e.2.2.executes dao_id proposal_id = false

def ExecutedByQuorum (m : RegistryMoment) : Prop :=
  ∀ dao_id proposal_id, m.call.2.executes dao_id proposal_id = true →
    ∃ p config, m.pre.multisig_proposal (dao_id, proposal_id) = some p ∧
      m.pre.multisig_config dao_id = some config ∧ Agreed m dao_id proposal_id p config

/-- The window is open, and there are signatures to spare for the signers that were replaced. -/
def TimelyAndSpare (m : RegistryMoment) : Prop :=
  ∀ dao_id proposal_id p config, m.call.2.executes dao_id proposal_id = true →
    m.pre.multisig_proposal (dao_id, proposal_id) = some p → m.pre.multisig_config dao_id = some config →
    m.call.1.timestamp ≤ p.expires_at ∧
      lapsed p.signatures (isSigner config) + config.threshold ≤ p.signatures.length

/-! ## The log and the stored proposals -/

structure Signed (log : List (DaoRegistry × Env × Call)) (s : DaoRegistry) : Prop where
  numbered : ∀ d q p, s.multisig_proposal (d, q) = some p → q ≤ s.multisig_proposal_count
  unsigned : ∀ d q, s.multisig_proposal (d, q) = none → signersOf d q log = []
  signers : ∀ d q p, s.multisig_proposal (d, q) = some p → signersOf d q log = p.signatures.reverse
  distinct : ∀ d q p, s.multisig_proposal (d, q) = some p → p.signatures.Nodup
  executed : ∀ d q, (∃ e ∈ log, e.2.2.executes d q = true) →
    ∃ p, s.multisig_proposal (d, q) = some p ∧ p.executed = true

/-- What the log says of a key without a proposal. -/
structure Unsigned (log : List (DaoRegistry × Env × Call)) (k : Nat × Nat) : Prop where
  signers : signersOf k.1 k.2 log = []
  executed : ∀ e ∈ log, e.2.2.executes k.1 k.2 = false

/-- What it says of a proposal. -/
structure SignedBy (log : List (DaoRegistry × Env × Call)) (count : Nat) (k : Nat × Nat) (p : MultisigProposal) :
    Prop where
  numbered : k.2 ≤ count
  signers : signersOf k.1 k.2 log = p.signatures.reverse
  distinct : p.signatures.Nodup
  executed : (∃ e ∈ log, e.2.2.executes k.1 k.2 = true) → p.executed = true

section
variable {env : Env} {s s' : DaoRegistry} {call : Call} {d q : Nat} {executor signer proposer : Address}
  {log : List (DaoRegistry × Env × Call)} {calls : List Invocation} {p : MultisigProposal}

/-! ## Steps -/

/-- All that an accepted execution says. -/
structure Executed (env : Env) (s s' : DaoRegistry) (d q : Nat) (executor : Address) (p : MultisigProposal)
    (config : MultisigConfig) : Prop where
  signed : env.auths executor = true
  found : s.multisig_proposal (d, q) = some p
  fresh : p.executed = false
  configured : s.multisig_config d = some config
  member : executor ∈ config.signers
  counted : config.threshold ≤ p.signatures.length
  post : s' = { s with
    multisig_proposal := Function.update s.multisig_proposal (d, q) (some { p with executed := true }) }

theorem execute_multisig_proposal_executed (h : execute_multisig_proposal env s d q executor = .ok s') :
    ∃ p config, Executed env s s' d q executor p config := by
  simp [execute_multisig_proposal] at h
  obtain ⟨hsigned, p, hfound, hfresh, config, hconfig, hmember, hcounted, rfl⟩ := h
  exact ⟨p, config, hsigned, hfound, hfresh, hconfig, hmember, hcounted, rfl⟩

/-! ## Signatures and executions -/

theorem signed_iff : Signed log s ↔
    Records s.multisig_proposal (Unsigned log) (SignedBy log s.multisig_proposal_count) := by
  constructor
  · refine fun h => ⟨fun k hk => ⟨h.unsigned _ _ hk, fun e he => ?_⟩, fun k p hp => ?_⟩
    · rw [Bool.eq_false_iff]
      intro hexecutes
      obtain ⟨p, hp, -⟩ := h.executed k.1 k.2 ⟨e, he, hexecutes⟩
      cases hk.symm.trans hp
    · refine ⟨h.numbered _ _ p hp, h.signers _ _ p hp, h.distinct _ _ p hp, fun hlog => ?_⟩
      obtain ⟨p', hp', hexecuted⟩ := h.executed k.1 k.2 hlog
      cases hp.symm.trans hp'
      exact hexecuted
  · refine fun h => ⟨fun d q p hp => (h.logged _ p hp).numbered, fun d q hnone => (h.absent _ hnone).signers,
      fun d q p hp => (h.logged _ p hp).signers, fun d q p hp => (h.logged _ p hp).distinct, fun d q hlog => ?_⟩
    cases hp : s.multisig_proposal (d, q) with
    | none =>
      obtain ⟨e, he, hexecutes⟩ := hlog
      exact absurd hexecutes (Bool.eq_false_iff.mp ((h.absent _ hp).executed e he))
    | some p => exact ⟨p, rfl, (h.logged _ p hp).executed hlog⟩

theorem Unsigned.cons {k : Nat × Nat} (h : Unsigned log k)
    (hsigners : signersOf k.1 k.2 ((s, env, call) :: log) = signersOf k.1 k.2 log)
    (hexecutes : call.executes k.1 k.2 = false) : Unsigned ((s, env, call) :: log) k :=
  ⟨hsigners.trans h.signers, List.forall_mem_cons.mpr ⟨hexecutes, h.executed⟩⟩

theorem SignedBy.cons {k : Nat × Nat} {count count' : Nat} (h : SignedBy log count k p) (hcount : count ≤ count')
    (hsigners : signersOf k.1 k.2 ((s, env, call) :: log) = signersOf k.1 k.2 log)
    (hexecutes : call.executes k.1 k.2 = false) : SignedBy ((s, env, call) :: log) count' k p where
  numbered := h.numbered.trans hcount
  signers := hsigners.trans h.signers
  distinct := h.distinct
  executed hlog := by
    simp only [List.exists_mem_cons_iff, hexecutes, Bool.false_eq_true, false_or] at hlog
    exact h.executed hlog

theorem Signed.of_same (h : Signed log s) (hsame : SameMultisig s s')
    (hsigners : ∀ d q, signersOf d q ((s, env, call) :: log) = signersOf d q log)
    (hexecutes : ∀ d q, call.executes d q = false) : Signed ((s, env, call) :: log) s' := by
  rw [signed_iff, hsame.proposal, hsame.count]
  exact (signed_iff.mp h).mono (fun k hk => hk.cons (hsigners _ _) (hexecutes _ _))
    fun k p hp => hp.cons le_rfl (hsigners _ _) (hexecutes _ _)

theorem Signed.of_update {p' : MultisigProposal} (h : Signed log s)
    (hproposals : s'.multisig_proposal = Function.update s.multisig_proposal (d, q) (some p'))
    (hcount : s.multisig_proposal_count ≤ s'.multisig_proposal_count) (hq : q ≤ s'.multisig_proposal_count)
    (hothers : ∀ d' q', (d', q') ≠ (d, q) → signersOf d' q' ((s, env, call) :: log) = signersOf d' q' log)
    (hsigners : signersOf d q ((s, env, call) :: log) = p'.signatures.reverse) (hdistinct : p'.signatures.Nodup)
    (hexecutes : ∀ d' q', call.executes d' q' = true → (d', q') = (d, q) ∧ p'.executed = true)
    (hkept : ∀ p, s.multisig_proposal (d, q) = some p → p.executed = true → p'.executed = true) :
    Signed ((s, env, call) :: log) s' := by
  have hnot {k : Nat × Nat} (hne : k ≠ (d, q)) : call.executes k.1 k.2 = false :=
    Bool.eq_false_iff.mpr fun hnow => hne (hexecutes _ _ hnow).1
  have hself : (∃ e ∈ (s, env, call) :: log, e.2.2.executes d q = true) → p'.executed = true := by
    rw [List.exists_mem_cons_iff]
    rintro (hnow | hlog)
    · exact (hexecutes d q hnow).2
    · obtain ⟨p, hp, hexecuted⟩ := h.executed d q hlog
      exact hkept p hp hexecuted
  rw [signed_iff, hproposals]
  exact (signed_iff.mp h).update ⟨hq, hsigners, hdistinct, hself⟩
    (fun k hne hk => hk.cons (hothers _ _ hne) (hnot hne))
    fun k hne p hp => hp.cons hcount (hothers _ _ hne) (hnot hne)

theorem Signed.step (h : Signed log s) (hs : Registry.step s env call = .ok (s', calls)) :
    Signed ((s, env, call) :: log) s' := by
  cases call with
  | create_multisig_proposal d title description action_type action_data proposer =>
    simp [Registry.step, aloneWith_eq_ok, create_multisig_proposal, next_multisig_proposal_id] at hs
    obtain ⟨⟨-, -, _, -, -, -, -, rfl⟩, -⟩ := hs
    have hnone : s.multisig_proposal (d, s.multisig_proposal_count + 1) = none := by
      by_contra hne
      obtain ⟨p, hp⟩ := Option.ne_none_iff_exists'.mp hne
      have := h.numbered _ _ p hp
      omega
    refine h.of_update rfl (Nat.le_succ _) le_rfl (fun d' q' hne => ?_) ?_ (List.nodup_singleton _)
      (fun _ _ hexecutes => by cases hexecutes) (fun p hp => by rw [hnone] at hp; cases hp)
    · rw [signersOf, if_neg]
      rintro ⟨rfl, rfl⟩
      exact hne rfl
    · rw [signersOf, if_pos ⟨rfl, rfl⟩, h.unsigned _ _ hnone]
      rfl
  | sign_multisig_proposal d q signer =>
    simp [Registry.step, alone_eq_ok, sign_multisig_proposal] at hs
    obtain ⟨⟨-, p, hp, hfresh, -, _, -, -, hnew, rfl⟩, -⟩ := hs
    refine h.of_update rfl le_rfl (h.numbered d q p hp) (fun d' q' hne => ?_) ?_
      ((h.distinct d q p hp).append (List.nodup_singleton _) (by simpa using hnew))
      (fun _ _ hexecutes => by cases hexecutes) (fun p' hp' hexecuted => ?_)
    · rw [signersOf, if_neg]
      rintro ⟨rfl, rfl⟩
      exact hne rfl
    · rw [signersOf, if_pos ⟨rfl, rfl⟩, h.signers d q p hp]
      simp
    · obtain rfl := Option.some.inj (hp.symm.trans hp')
      rw [hfresh] at hexecuted
      cases hexecuted
  | execute_multisig_proposal d q executor =>
    obtain ⟨p, config, hexecuted⟩ := execute_multisig_proposal_executed (alone_eq_ok.mp hs).1
    obtain rfl := hexecuted.post
    refine h.of_update rfl le_rfl (h.numbered d q p hexecuted.found) (fun _ _ _ => rfl)
      (h.signers d q p hexecuted.found) (h.distinct d q p hexecuted.found) (fun d' q' hexecutes => ?_)
      (fun _ _ _ => rfl)
    obtain ⟨rfl, rfl⟩ := of_decide_eq_true hexecutes
    exact ⟨rfl, rfl⟩
  | _ => exact h.of_same ((step_effect hs).multisig rfl) (fun _ _ => rfl) (fun _ _ => rfl)

theorem RegistryRun.signed (hrun : RegistryRun log s) : Signed log s := by
  refine Run.invariant_log (P := Signed) ?_ (fun _ _ _ _ _ h hs => ?_) hrun
  · exact signed_iff.mpr (.empty fun k => ⟨rfl, nofun⟩)
  · obtain ⟨calls, hs⟩ := hs
    exact h.step hs

/-! ## Executions -/

theorem agreed_iff {config : MultisigConfig} (h : Signed log s)
    (hexecuted : Executed env s s' d q executor p config) :
    Agreed ⟨log, s, (env, call), s'⟩ d q p config ↔ env.timestamp ≤ p.expires_at ∧
      lapsed p.signatures (isSigner config) + config.threshold ≤ p.signatures.length := by
  have hbackers : backers (signersOf d q log) (isSigner config) = backers p.signatures (isSigner config) := by
    rw [h.signers d q p hexecuted.found]
    ext a
    simp
  have hfirst : ∀ e ∈ log, e.2.2.executes d q = false := by
    intro e he
    by_contra hne
    obtain ⟨p', hp', hdone⟩ := h.executed d q ⟨e, he, Bool.not_eq_false _ ▸ hne⟩
    obtain rfl := Option.some.inj (hexecuted.found.symm.trans hp')
    rw [hexecuted.fresh] at hdone
    cases hdone
  rw [← quorum_iff (h.distinct d q p hexecuted.found), ← hbackers]
  exact ⟨fun hagreed => ⟨hagreed.open_, hagreed.quorum⟩, fun hheld => ⟨hheld.2, hheld.1, hfirst⟩⟩

theorem executedByQuorum_iff (hrun : RegistryRun log s) (h : Registry.step s env call = .ok (s', calls)) :
    ExecutedByQuorum ⟨log, s, (env, call), s'⟩ ↔ TimelyAndSpare ⟨log, s, (env, call), s'⟩ := by
  by_cases hcall : ∃ d q, call.executes d q = true
  · obtain ⟨d, q, hcall⟩ := hcall
    cases call with
    | execute_multisig_proposal d' q' executor =>
      obtain ⟨rfl, rfl⟩ := of_decide_eq_true hcall
      obtain ⟨p, config, hexecuted⟩ := execute_multisig_proposal_executed (alone_eq_ok.mp h).1
      have hiff : Agreed ⟨log, s, (env, .execute_multisig_proposal d' q' executor), s'⟩ d' q' p config ↔ _ :=
        agreed_iff hrun.signed hexecuted
      constructor
      · intro hquorum d q p₁ config₁ hcall hp hconfig
        obtain ⟨rfl, rfl⟩ := of_decide_eq_true hcall
        obtain rfl := Option.some.inj (hexecuted.found.symm.trans hp)
        obtain rfl := Option.some.inj (hexecuted.configured.symm.trans hconfig)
        obtain ⟨p₂, config₂, hp₂, hconfig₂, hagreed⟩ := hquorum d' q' hcall
        obtain rfl := Option.some.inj (hp.symm.trans hp₂)
        obtain rfl := Option.some.inj (hconfig.symm.trans hconfig₂)
        exact hiff.mp hagreed
      · intro htimely d q hcall
        obtain ⟨rfl, rfl⟩ := of_decide_eq_true hcall
        exact ⟨p, config, hexecuted.found, hexecuted.configured,
          hiff.mpr (htimely d' q' p config hcall hexecuted.found hexecuted.configured)⟩
    | _ => cases hcall
  · refine iff_of_true (fun d q he => absurd ⟨d, q, he⟩ hcall) (fun d q _ _ he => absurd ⟨d, q, he⟩ hcall)

/-- In every run, proposals are executed in time, once, and by a quorum of the signers there are, if and only if
each executed proposal is in its window and has signatures to spare for the signers that were replaced. -/
theorem quorum_held_iff (hrun : RegistryRun log s) :
    (∀ m ∈ Run.moments log s, ExecutedByQuorum m) ↔ ∀ m ∈ Run.moments log s, TimelyAndSpare m :=
  Run.forall_moments_iff (fun _ _ _ _ hrun h => executedByQuorum_iff hrun h.choose_spec) hrun

end

/-! ## An execution after the window, by signers who have not signed -/

/-- DAO 1 of account 0, and a proposal that its two signers have signed. -/
def signedProposal : List (Env × Call) :=
  [(.signedAt 10, .create_dao [] 0 true true none),
    (.signedAt 10, .init_multisig 1 [1, 2] 2 0),
    (.signedAt 10, .create_multisig_proposal 1 [] [] [] [] 1),
    (.signedAt 20, .sign_multisig_proposal 1 1 2)]

theorem quorum_held_iff_for_two_signers : ∃ log s, RegistryRun log s ∧
    ((∀ m ∈ Run.moments log s, ExecutedByQuorum m) ↔ ∀ m ∈ Run.moments log s, TimelyAndSpare m) ∧
    (s.multisig_proposal (1, 1)).map MultisigProposal.executed = some true := by
  obtain ⟨log, s, hrun, htest⟩ := exists_run (signedProposal ++ [(.signedAt 30, .execute_multisig_proposal 1 1 1)])
    (fun _ s => (s.multisig_proposal (1, 1)).map MultisigProposal.executed == some true) (by decide +kernel)
  exact ⟨log, s, hrun, quorum_held_iff hrun, eq_of_beq htest⟩

/-- Ten days later, after the admin has named account 3 as the only signer. -/
def executeLate : Env × Call := (.signedAt 864000, .execute_multisig_proposal 1 1 3)

def acceptsLate (s : DaoRegistry) : Bool :=
  (s.multisig_proposal (1, 1)).any (fun p => decide (p.expires_at = 604810 ∧ p.signatures = [1, 2])) &&
  (s.multisig_config 1).any (fun config => decide (config.threshold = 1 ∧ config.signers = [3])) &&
  (next s executeLate).isSome

theorem executed_without_a_quorum : ∃ log s s' p config, RegistryRun log s ∧ Accepts s executeLate s' ∧
    s.multisig_proposal (1, 1) = some p ∧ s.multisig_config 1 = some config ∧ p.expires_at = 604810 ∧
    config.threshold = 1 ∧ backers p.signatures (isSigner config) = ∅ ∧
    ¬ ExecutedByQuorum ⟨log, s, executeLate, s'⟩ := by
  obtain ⟨log, s, hrun, htest⟩ := exists_run (signedProposal ++ [(.signedAt 30, .init_multisig 1 [3] 1 0)])
    (fun _ s => acceptsLate s) (by decide +kernel)
  simp only [acceptsLate, Bool.and_eq_true, Option.any_eq_true, decide_eq_true_eq, Option.isSome_iff_exists] at htest
  obtain ⟨⟨⟨p, hp, hexpires, hsignatures⟩, config, hconfig, hthreshold, hsigners⟩, s', hs⟩ := htest
  refine ⟨log, s, s', p, config, hrun, accepts_of_next hs, hp, hconfig, hexpires, hthreshold, ?_, fun hquorum => ?_⟩
  · ext a
    simp only [mem_backers, hsignatures, isSigner, hsigners, decide_eq_true_eq, List.mem_cons, List.not_mem_nil,
      or_false, Finset.notMem_empty, iff_false, not_and]
    rintro (rfl | rfl) <;> decide
  · obtain ⟨p', config', hp', -, hagreed⟩ := hquorum 1 1 rfl
    obtain rfl := Option.some.inj (hp.symm.trans hp')
    have hopen : 864000 ≤ p.expires_at := hagreed.open_
    omega

end ZkVote.Registry

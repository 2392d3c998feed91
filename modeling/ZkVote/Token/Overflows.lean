import Mathlib.Order.Interval.Finset.Nat
import ZkVote.Token.Backing
import ZkVote.Token.Clawbacks

/-!
# The token: overflows

What an account has can be moved, and what was proposed can be clawed back, without an overflow. A
withdrawal from the pool needs a number for the commitment of the remainder besides.
-/

open Lib Lib.Outcome

namespace ZkVote.Token

/-- Transfers, withdrawals from the pool and clawbacks of amounts that are not negative and that are there. -/
def Covered (s : TokenState) : Call → Prop
  | .transfer from_ _ amount => 0 ≤ amount ∧ amount ≤ s.balance from_
  | .batch_transfer from_ transfers =>
    (∀ t ∈ transfers, 0 ≤ t.2) ∧ (transfers.map Prod.snd).sum ≤ s.balance from_
  | .unshield _ amount _ _ => 0 ≤ amount ∧ amount ≤ s.shielded_pool_balance
  | .execute_clawback proposal_id => ∀ p, s.clawback_proposal proposal_id = some p →
    0 ≤ p.amount ∧ p.amount ≤ s.balance p.target
  | _ => False

/-- The account whose signature such a call asks for. -/
def Call.signer (s : TokenState) : Call → Option Address
  | .transfer from_ .. | .batch_transfer from_ _ => some from_
  | .execute_clawback _ => some s.admin
  | _ => none

/-- The call ends with the error for an overflow, or with a trap that no missing signature explains. -/
def Overflows (X : TokenHost) (s : TokenState) (call : Env × Call) : Prop :=
  step X s call.1 call.2 = fail .Overflow ∨
    step X s call.1 call.2 = trap ∧ ∀ a, call.2.signer s = some a → call.1.auths a = true

/-- An unspent note is withdrawn when there is no number left for the commitment of the remainder. -/
def UnshieldsWhenFull (s : TokenState) : Call → Prop
  | .unshield _ amount nullifier _ => 0 < amount ∧ amount ≤ s.shielded_pool_balance ∧
    s.nullifier_spent nullifier = false ∧ 2 ^ 32 ≤ s.shielded_commitment_count + 1
  | _ => False

/-- Every executed clawback was proposed, and is part of what was burned. -/
structure ClawbacksCounted (s : TokenState) : Prop where
  fits : s.clawback_proposal_count < 2 ^ 32
  numbered : ∀ id p, s.clawback_proposal id = some p → 1 ≤ id ∧ id ≤ s.clawback_proposal_count
  executed : ∃ done : Finset Nat, s.clawback_history_count ≤ done.card ∧
    ∀ id ∈ done, ∃ p, s.clawback_proposal id = some p ∧ p.executed = true
  nonneg : 0 ≤ s.clawback_period_total
  burned : s.clawback_period_total ≤ s.total_burned

section
variable {X : TokenHost} {env : Env} {s s' : TokenState} {from_ to_ spender : Address} {amount : Int} {call : Call}
  {id : Nat} {proposal : ClawbackProposal}

/-! ## Clawbacks -/

theorem constructor_clawbacksCounted {admin : Address} : ClawbacksCounted (constructor admin) where
  fits := Nat.two_pow_pos 32
  numbered := nofun
  executed := ⟨∅, le_rfl, nofun⟩
  nonneg := le_rfl
  burned := le_rfl

theorem ClawbacksCounted.of_same (h : ClawbacksCounted s) (hsame : SameClawbacks s s')
    (hburned : s.total_burned ≤ s'.total_burned) : ClawbacksCounted s' where
  fits := hsame.count ▸ h.fits
  numbered := by
    rw [hsame.proposal, hsame.count]
    exact h.numbered
  executed := by
    rw [hsame.proposal, hsame.history]
    exact h.executed
  nonneg := hsame.period ▸ h.nonneg
  burned := hsame.period ▸ h.burned.trans hburned

theorem ClawbacksCounted.proposed {target : Address} (h : ClawbacksCounted s)
    (hproposed : ClawbackProposed env s s' target amount proposal) : ClawbacksCounted s' := by
  obtain ⟨done, hcard, hdone⟩ := h.executed
  obtain rfl := hproposed.post
  refine ⟨hproposed.fits, fun id p hp => ?_, ⟨done, hcard, fun id hid => ?_⟩, h.nonneg, h.burned⟩
  · change Function.update s.clawback_proposal (s.clawback_proposal_count + 1) (some proposal) id = some p at hp
    rw [Function.update_apply] at hp
    split at hp
    · next heq =>
      rw [heq]
      exact ⟨Nat.le_add_left 1 _, le_rfl⟩
    · have hnumbered := h.numbered id p hp
      exact ⟨hnumbered.1, hnumbered.2.trans (Nat.le_succ _)⟩
  · obtain ⟨p, hp, hexecuted⟩ := hdone id hid
    have hne : id ≠ s.clawback_proposal_count + 1 := Nat.ne_of_lt (Nat.lt_succ_of_le (h.numbered id p hp).2)
    exact ⟨p, (Function.update_of_ne hne _ _).trans hp, hexecuted⟩

/-- A proposal that was not executed is none of those that were. -/
theorem ClawbacksCounted.fresh (h : ClawbacksCounted s) (hfound : s.clawback_proposal id = some proposal)
    (hfresh : proposal.executed = false) : ∃ done : Finset Nat, s.clawback_history_count ≤ done.card ∧ id ∉ done ∧
      ∀ id' ∈ done, ∃ p, s.clawback_proposal id' = some p ∧ p.executed = true := by
  obtain ⟨done, hcard, hdone⟩ := h.executed
  refine ⟨done, hcard, fun hid => ?_, hdone⟩
  obtain ⟨p, hp, hexecuted⟩ := hdone id hid
  obtain rfl := Option.some.inj (hp.symm.trans hfound)
  rw [hfresh] at hexecuted
  cases hexecuted

/-- So there is a number left for it. -/
theorem ClawbacksCounted.history_lt (h : ClawbacksCounted s) (hfound : s.clawback_proposal id = some proposal)
    (hfresh : proposal.executed = false) : s.clawback_history_count + 1 ≤ s.clawback_proposal_count := by
  obtain ⟨done, hcard, hid, hdone⟩ := h.fresh hfound hfresh
  have hsub : insert id done ⊆ Finset.Icc 1 s.clawback_proposal_count := by
    intro id' hid'
    rw [Finset.mem_Icc]
    rcases Finset.mem_insert.mp hid' with rfl | hid'
    · exact h.numbered _ _ hfound
    · obtain ⟨p, hp, -⟩ := hdone id' hid'
      exact h.numbered _ _ hp
  have hle := Finset.card_le_card hsub
  rw [Finset.card_insert_of_notMem hid, Nat.card_Icc] at hle
  omega

theorem ClawbacksCounted.numbered_update {p : ClawbackProposal} (h : ClawbacksCounted s)
    (hfound : s.clawback_proposal id = some proposal) : ∀ id' p',
      Function.update s.clawback_proposal id (some p) id' = some p' → 1 ≤ id' ∧ id' ≤ s.clawback_proposal_count := by
  intro id' p' hp'
  rw [Function.update_apply] at hp'
  split at hp'
  · next heq => exact heq ▸ h.numbered id proposal hfound
  · exact h.numbered id' p' hp'

theorem ClawbacksCounted.approved (h : ClawbacksCounted s) (happroved : ClawbackApproved env s s' id proposal) :
    ClawbacksCounted s' := by
  obtain ⟨done, hcard, hid, hdone⟩ := h.fresh happroved.found happroved.fresh
  obtain rfl := happroved.post
  refine ⟨h.fits, h.numbered_update happroved.found, ⟨done, hcard, fun id' hid' => ?_⟩, h.nonneg, h.burned⟩
  obtain ⟨p, hp, hexecuted⟩ := hdone id' hid'
  have hne : id' ≠ id := fun heq => hid (heq ▸ hid')
  exact ⟨p, (Function.update_of_ne hne _ _).trans hp, hexecuted⟩

theorem get_clawback_period_total_le (h : ClawbacksCounted s) (hburned : 0 ≤ s.total_burned) :
    0 ≤ (get_clawback_period_total env s).1 ∧ (get_clawback_period_total env s).1 ≤ s.total_burned := by
  unfold get_clawback_period_total
  dsimp only
  split
  · exact ⟨le_rfl, hburned⟩
  · exact ⟨h.nonneg, h.burned⟩

theorem ClawbacksCounted.done (h : ClawbacksCounted s) (hburned : 0 ≤ s.total_burned) (hamount : 0 ≤ proposal.amount)
    (hdone : ClawbackDone env s s' id proposal) : ClawbacksCounted s' := by
  obtain ⟨done, hcard, hid, hexecuted⟩ := h.fresh hdone.found hdone.fresh
  have hperiod : 0 ≤ (get_clawback_period_total env s).1 ∧ _ := get_clawback_period_total_le h hburned
  refine ⟨hdone.count ▸ h.fits, ?_, ⟨insert id done, ?_, fun id' hid' => ?_⟩, ?_, ?_⟩
  · rw [hdone.proposal, hdone.count]
    exact h.numbered_update hdone.found
  · rw [Finset.card_insert_of_notMem hid, hdone.history]
    exact Nat.succ_le_succ hcard
  · rw [hdone.proposal]
    rcases Finset.mem_insert.mp hid' with rfl | hid'
    · exact ⟨_, Function.update_self .., rfl⟩
    · obtain ⟨p, hp, hp'⟩ := hexecuted id' hid'
      have hne : id' ≠ id := fun heq => hid (heq ▸ hid')
      exact ⟨p, (Function.update_of_ne hne _ _).trans hp, hp'⟩
  · rw [hdone.period]
    omega
  · rw [hdone.period, hdone.total_burned]
    omega

theorem ClawbacksCounted.step (h : ClawbacksCounted s) (hburned : 0 ≤ s.total_burned) (hproposed : Proposed s)
    (hs : Token.step X s env call = .ok s') : ClawbacksCounted s' := by
  cases call with
  | propose_clawback =>
    obtain ⟨p, hp⟩ := propose_clawback_proposed hs
    exact h.proposed hp
  | approve_clawback =>
    obtain ⟨p, hp⟩ := approve_clawback_approved hs
    exact h.approved hp
  | execute_clawback id =>
    obtain ⟨p, hdone⟩ := execute_clawback_done hs
    exact h.done hburned (hproposed id p hdone.found).le hdone
  | _ => exact h.of_same (step_same hs rfl) (step_keeps hproposed hs).burned

theorem TokenRun.clawbacksCounted {admin : Address} {log : List (TokenState × Env × Call)}
    (hrun : TokenRun X admin log s) : ClawbacksCounted s := by
  refine Run.invariant_log (P := fun _ s => ClawbacksCounted s) constructor_clawbacksCounted ?_ hrun
  intro _ _ _ _ hrun h hs
  exact h.step (TokenRun.backed hrun).burned (TokenRun.proposed hrun) hs

/-! ## Calls that do not overflow -/

/-- The error for an overflow, or a trap. -/
def Overflowing {α : Type} (x : Outcome TokenError α) : Prop := x = fail .Overflow ∨ x = trap

theorem not_overflowing_ok {α : Type} {x : Outcome TokenError α} {a : α} (h : x = .ok a) : ¬ Overflowing x := by
  rw [h]
  rintro (h | h) <;> cases h

theorem not_overflowing_require {p : Prop} [Decidable p] {e : TokenError} (he : e ≠ .Overflow) :
    ¬ Overflowing (require p e) := by
  rintro (h | h)
  · exact require_ne_fail (.inr he) h
  · unfold require fail trap at h
    split at h <;> cases h

theorem not_overflowing_orPanic {α : Type} {o : Option α} {e : TokenError} (he : e ≠ .Overflow) :
    ¬ Overflowing (orPanic o e) := by
  rintro (h | h)
  · exact orPanic_ne_fail he h
  · cases o <;> cases h

theorem not_overflowing_bind {α β : Type} {x : Outcome TokenError α} {f : α → Outcome TokenError β}
    (hx : ¬ Overflowing x) (hf : ∀ a, x = .ok a → ¬ Overflowing (f a)) : ¬ Overflowing (x >>= f) := by
  cases x with
  | ok a => exact hf a rfl
  | error p =>
    rintro (h | h)
    · exact hx (.inl (congrArg Except.error (Except.error.inj h)))
    · exact hx (.inr (congrArg Except.error (Except.error.inj h)))

theorem not_overflows_of_signer {a : Address} {f : Unit → Outcome TokenError TokenState}
    (hsigner : call.signer s = some a) (hstep : step X s env call = require_auth env a >>= f)
    (hf : ¬ Overflowing (f ())) : ¬ Overflows X s (env, call) := by
  by_cases hauth : env.auths a = true
  · have hsame : step X s env call = f () := by
      rw [hstep, (require_auth_eq_ok (u := ())).mpr hauth]
      rfl
    rintro (hfail | ⟨htrap, -⟩)
    · exact hf (.inl (hsame.symm.trans hfail))
    · exact hf (.inr (hsame.symm.trans htrap))
  · have htrap : step X s env call = trap := by
      rw [hstep, require_auth, trapUnless, if_neg hauth]
      rfl
    rintro (hfail | ⟨-, hsigned⟩)
    · cases htrap.symm.trans hfail
    · exact hauth (hsigned a hsigner)

theorem transfer_not_overflows (hbacked : Backed s) (hcovered : Covered s (.transfer from_ to_ amount)) :
    ¬ Overflows X s (env, .transfer from_ to_ amount) := by
  refine not_overflows_of_signer (a := from_) rfl rfl ?_
  refine not_overflowing_bind (not_overflowing_require nofun) fun _ _ => ?_
  obtain ⟨s', hs⟩ := xfer_ok env to_ hbacked hcovered.1 hcovered.2
  exact not_overflowing_ok hs

theorem check_batch_size_not_overflowing {n : Nat} : ¬ Overflowing (check_batch_size n) :=
  not_overflowing_bind (not_overflowing_require nofun) fun _ _ => not_overflowing_require nofun

theorem batch_transfer_not_overflows {transfers : List (Address × Int)} (hbacked : Backed s)
    (hcovered : Covered s (.batch_transfer from_ transfers)) :
    ¬ Overflows X s (env, .batch_transfer from_ transfers) := by
  obtain ⟨hamounts, hle⟩ := hcovered
  have hfits : (transfers.map Prod.snd).sum < 2 ^ 127 := hle.trans_lt (hbacked.balance_lt from_)
  have htotal : batch_total 0 transfers = .ok _ := batch_total_ok le_rfl hamounts (by rwa [zero_add])
  obtain ⟨s', hs⟩ := for_each_xfer_ok env hbacked hamounts hle
  refine not_overflows_of_signer (a := from_) rfl rfl ?_
  refine not_overflowing_bind check_batch_size_not_overflowing fun _ _ => ?_
  refine not_overflowing_bind (not_overflowing_ok htotal) fun _ _ => ?_
  exact not_overflowing_bind (not_overflowing_require nofun) fun _ _ => not_overflowing_ok hs

/-! ## Withdrawals -/

theorem insert_commitment_ok (commitment : BytesN 32) (hroom : s.shielded_commitment_count + 1 < 2 ^ 32) :
    ∃ s', insert_commitment s commitment = .ok s' ∧ s'.balance = s.balance := by
  unfold insert_commitment
  dsimp only
  rw [expect_eq_ok.mpr (checkedAdd_eq_some.mpr ⟨hroom, rfl⟩)]
  exact ⟨_, rfl, rfl⟩

theorem insert_commitment_trap (commitment : BytesN 32) (hfull : ¬ s.shielded_commitment_count + 1 < 2 ^ 32) :
    insert_commitment s commitment = trap := by
  unfold insert_commitment
  dsimp only
  rw [checkedAdd, if_neg hfull]
  rfl

theorem unshield_not_overflowing {nullifier remainder_commitment : BytesN 32} (hbacked : Backed s)
    (hroom : ¬ UnshieldsWhenFull s (.unshield to_ amount nullifier remainder_commitment)) :
    ¬ Overflowing (unshield env s to_ amount nullifier remainder_commitment) := by
  refine not_overflowing_bind (not_overflowing_require nofun) fun _ hamount => ?_
  refine not_overflowing_bind (not_overflowing_require nofun) fun _ hcovered => ?_
  rw [require_eq_ok] at hamount hcovered
  have hpositive : 0 < amount := Int.not_le.mp hamount
  have hle : amount ≤ s.shielded_pool_balance := Int.not_lt.mp hcovered
  have hpool := hbacked.pool_lt
  have hspends : ¬ Overflowing (spend_nullifier s nullifier) :=
    not_overflowing_bind (not_overflowing_require nofun) fun _ _ => not_overflowing_ok rfl
  refine not_overflowing_bind hspends fun s₁ hspend => ?_
  simp [spend_nullifier] at hspend
  obtain ⟨hunspent, rfl⟩ := hspend
  have hcount : s.shielded_commitment_count + 1 < 2 ^ 32 :=
    Nat.lt_of_not_le fun hfull => hroom ⟨hpositive, hle, hunspent, hfull⟩
  obtain ⟨s₂, hinsert, hbalance⟩ := insert_commitment_ok (s := { s with
    nullifier_spent := Function.update s.nullifier_spent nullifier true }) remainder_commitment hcount
  refine not_overflowing_bind (not_overflowing_ok hinsert) fun s₃ hs₃ => ?_
  obtain rfl := Except.ok.inj (hinsert.symm.trans hs₃)
  have hpaid : i128_op (s.shielded_pool_balance - amount) = .ok _ := i128_op_eq_ok.mpr ⟨⟨by omega, by omega⟩, rfl⟩
  refine not_overflowing_bind (not_overflowing_ok hpaid) fun pool _ => ?_
  have hsame : { s₂ with shielded_pool_balance := pool }.balance = s.balance := hbalance
  obtain ⟨s', hreceive⟩ := receive_from_pool_ok env to_ hbacked hpositive.le hle hsame
  exact not_overflowing_ok hreceive

theorem unshield_overflows_iff {nullifier remainder_commitment : BytesN 32} (hbacked : Backed s) :
    Overflows X s (env, .unshield to_ amount nullifier remainder_commitment) ↔
      UnshieldsWhenFull s (.unshield to_ amount nullifier remainder_commitment) := by
  constructor
  · intro hoverflows
    by_contra hroom
    exact unshield_not_overflowing hbacked hroom (hoverflows.imp_right And.left)
  · rintro ⟨hpositive, hle, hunspent, hfull⟩
    have htrap := insert_commitment_trap (s := { s with
      nullifier_spent := Function.update s.nullifier_spent nullifier true }) remainder_commitment (Nat.not_lt.mpr hfull)
    refine .inr ⟨?_, nofun⟩
    simp only [step, unshield, spend_nullifier]
    rw [require_of (Int.not_le.mpr hpositive), ok_bind, require_of (Int.not_lt.mpr hle), ok_bind, require_of hunspent,
      ok_bind, pure_bind, htrap]
    rfl

/-! ## Executions -/

theorem Backed.of_same (h : Backed s) (hbalance : s'.balance = s.balance)
    (hpool : s'.shielded_pool_balance = s.shielded_pool_balance) (hsupply : s'.total_supply = s.total_supply)
    (hminted : s'.total_minted = s.total_minted) (hburned : s'.total_burned = s.total_burned) : Backed s' := by
  have hleaks : Leaks s s' 0 := .of_same hbalance hpool hsupply hminted hburned
  refine ⟨⟨hbalance ▸ h.balance, hpool ▸ h.pool, hburned ▸ h.burned, hminted ▸ h.minted⟩, hleaks.finite h.finite, ?_,
    hleaks.drift.trans h.counted⟩
  rw [hleaks.missing h.finite, add_zero]
  exact h.held

/-- What is in an account was minted and is not burned yet. -/
theorem Backed.burned_add_lt (hbacked : Backed s) (hle : amount ≤ s.balance from_) :
    amount ≤ s.total_supply ∧ s.total_burned + amount < 2 ^ 127 := by
  have hpart := le_total hbacked.finite hbacked.balance from_
  have htotal := hbacked.total_le
  have hpool := hbacked.pool
  have hcounted := hbacked.counted
  have hminted := hbacked.minted
  unfold drift at hcounted
  omega

/-- It can be burned after it is spent. -/
theorem burn_spent_ok (hbacked : Backed s) (hamount : 0 ≤ amount) (hle : amount ≤ s.balance from_)
    (hspend : spend_balance env s from_ amount = .ok s') : ∃ s'', decrement_supply s' amount = .ok s'' ∧
      s''.clawback_history_count = s.clawback_history_count := by
  obtain ⟨hsupply, hburned⟩ := hbacked.burned_add_lt hle
  have hnonneg := hbacked.burned
  have hsupply' := hbacked.supply_le
  have hminted := hbacked.minted
  obtain ⟨checkpoints, rfl⟩ := spend_balance_eq hspend
  unfold decrement_supply
  dsimp only
  rw [require_of (Int.not_lt.mpr hsupply), ok_bind, i128_op_eq_ok.mpr ⟨⟨by omega, by omega⟩, rfl⟩, ok_bind,
    i128_eq_ok.mpr ⟨⟨by omega, by omega⟩, rfl⟩]
  exact ⟨_, rfl, rfl⟩

theorem store_clawback_record_ok {executor : Address} {reason : Bytes}
    (hroom : s.clawback_history_count + 1 < 2 ^ 32) :
    ∃ s', store_clawback_record env s from_ amount reason executor = .ok s' := by
  unfold store_clawback_record
  rw [orPanic_eq_ok.mpr (checkedAdd_eq_some.mpr ⟨hroom, rfl⟩)]
  exact ⟨_, rfl⟩

theorem execute_clawback_not_overflows (hbacked : Backed s) (hcounted : ClawbacksCounted s)
    (hcovered : Covered s (.execute_clawback id)) : ¬ Overflows X s (env, .execute_clawback id) := by
  refine not_overflows_of_signer (a := s.admin) rfl rfl ?_
  refine not_overflowing_bind (not_overflowing_orPanic nofun) fun p hfound => ?_
  refine not_overflowing_bind (not_overflowing_require nofun) fun _ hfresh => ?_
  refine not_overflowing_bind (not_overflowing_require nofun) fun _ _ => ?_
  refine not_overflowing_bind (not_overflowing_require nofun) fun _ _ => ?_
  rw [orPanic_eq_ok] at hfound
  rw [require_eq_ok] at hfresh
  obtain ⟨hamount, hle⟩ := hcovered p hfound
  have hhistory := hcounted.history_lt hfound hfresh
  have hfits := hcounted.fits
  have hperiod : 0 ≤ (get_clawback_period_total env s).1 ∧ _ := get_clawback_period_total_le hcounted hbacked.burned
  have hpart := hbacked.balance_lt p.target
  obtain ⟨total, start, heq⟩ : ∃ total start, (get_clawback_period_total env s).2 =
    { s with clawback_period_total := total, clawback_period_start := start } := get_clawback_period_total_eq
  have hroom := (hbacked.burned_add_lt hle).2
  generalize get_clawback_period_total env s = period at hperiod heq ⊢
  obtain ⟨period_total, s₀⟩ := period
  obtain rfl : s₀ = _ := heq
  have hnew : i128 (period_total + p.amount) = .ok _ := i128_eq_ok.mpr ⟨⟨by omega, by omega⟩, rfl⟩
  refine not_overflowing_bind (not_overflowing_ok hnew) fun new _ => ?_
  refine not_overflowing_bind (not_overflowing_require nofun) fun _ _ => ?_
  have hsame : Backed (set_clawback_period_total env
    { s with clawback_period_total := total, clawback_period_start := start } new) :=
    hbacked.of_same rfl rfl rfl rfl rfl
  obtain ⟨s₁, hspend⟩ := spend_balance_ok env hsame hamount hle
  obtain ⟨s₂, hburn, hcount⟩ := burn_spent_ok hsame hamount hle hspend
  refine not_overflowing_bind (not_overflowing_ok hspend) fun s₁' hs₁ => ?_
  obtain rfl := Except.ok.inj (hspend.symm.trans hs₁)
  refine not_overflowing_bind (not_overflowing_ok hburn) fun s₂' hs₂ => ?_
  obtain rfl := Except.ok.inj (hburn.symm.trans hs₂)
  have hnumber : s₂.clawback_history_count + 1 < 2 ^ 32 := by
    rw [hcount]
    exact hhistory.trans_lt hfits
  obtain ⟨s', hstore⟩ := store_clawback_record_ok (s := { s₂ with
    clawback_proposal := Function.update s₂.clawback_proposal id (some { p with executed := true }) }) hnumber
  exact not_overflowing_ok hstore

/-! ## Runs -/

theorem Covered.of_full (h : UnshieldsWhenFull s call) : Covered s call := by
  cases call with
  | unshield => exact ⟨h.1.le, h.2.1⟩
  | _ => cases h

/-- What is covered overflows only if it needs a number for a commitment, and there is none. -/
theorem TokenRun.overflows_iff {admin : Address} {log : List (TokenState × Env × Call)} (hrun : TokenRun X admin log s)
    (hcovered : Covered s call) : Overflows X s (env, call) ↔ UnshieldsWhenFull s call := by
  have hbacked := hrun.backed
  cases call with
  | transfer => exact iff_of_false (transfer_not_overflows hbacked hcovered) id
  | batch_transfer => exact iff_of_false (batch_transfer_not_overflows hbacked hcovered) id
  | execute_clawback =>
    exact iff_of_false (execute_clawback_not_overflows hbacked hrun.clawbacksCounted hcovered) id
  | unshield => exact unshield_overflows_iff hbacked
  | _ => cases hcovered

end

end ZkVote.Token

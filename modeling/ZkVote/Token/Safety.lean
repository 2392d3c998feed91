import ZkVote.Token.Batches
import ZkVote.Token.Overflows

/-!
# The token: arithmetic

Nothing stored is negative, no call lifts the supply over the cap, and what an account has can be
moved without an overflow.
-/

open Lib Lib.Outcome

namespace ZkVote.Token

/-- No balance and no stored allowance is negative. -/
structure NonNegative (s : TokenState) : Prop where
  balance : ∀ a, 0 ≤ s.balance a
  allowance : ∀ key e, s.allowance key = some e → 0 ≤ e.1

structure Orderly (X : TokenHost) (s : TokenState) (call : Env × Call) (s' : TokenState) : Prop where
  capped : s.total_supply < s'.total_supply → ∀ cap, s.max_supply = some cap → s'.total_supply ≤ cap
  covered : Covered s call.2 → ¬ Overflows X s call

def ApprovesNegative (X : TokenHost) (s : TokenState) (call : Env × Call) : Prop :=
  ∃ from_ spender amount expiration_ledger, call.2 = .approve from_ spender amount expiration_ledger ∧ amount < 0 ∧
    (step X s call.1 call.2).isOk = true

section
variable {X : TokenHost} {env : Env} {s s' : TokenState} {from_ to_ spender : Address} {amount : Int} {call : Call}
  {id : Nat} {proposal : ClawbackProposal}

/-! ## Allowances -/

def NonNegativeEntries (A : Allowances) : Prop := ∀ key e, A key = some e → 0 ≤ e.1

theorem NonNegativeEntries.live {A : Allowances} {key : Address × Address} (h : NonNegativeEntries A) :
    0 ≤ Token.live env (A key) := by
  cases hkey : A key with
  | none => exact le_rfl
  | some e =>
    unfold Token.live
    dsimp only
    split
    · exact h key e hkey
    · exact le_rfl

theorem NonNegativeEntries.expire {A : Allowances} {key : Address × Address} (h : NonNegativeEntries A) :
    NonNegativeEntries (Token.expire env key A) := by
  intro key' e he
  unfold Token.expire at he
  split at he
  · rw [Function.update_apply] at he
    split at he
    · cases he
    · exact h key' e he
  · exact h key' e he

theorem NonNegativeEntries.update {A : Allowances} {key : Address × Address} {expiration_ledger : Nat}
    (h : NonNegativeEntries A) (hamount : 0 ≤ amount) :
    NonNegativeEntries (Function.update A key (entry amount expiration_ledger)) := by
  intro key' e he
  rw [Function.update_apply] at he
  split at he
  · unfold entry at he
    split at he
    · cases he
    · cases he
      exact hamount
  · exact h key' e he

theorem read_allowance_fst : (read_allowance env s from_ spender).1.1 = live env (s.allowance (from_, spender)) :=
  congrArg Prod.fst read_allowance_amount_eq

theorem spend_allowance_nonneg (hs : NonNegativeEntries s.allowance)
    (h : spend_allowance env s from_ spender amount = .ok s') : NonNegativeEntries s'.allowance := by
  simp [spend_allowance, read_allowance_snd, write_allowance_entry, update_expire] at h
  obtain ⟨hle, -, rfl⟩ := h
  exact hs.update (Int.sub_nonneg.mpr hle)

theorem permit_nonneg {deadline : Nat} {signature : BytesN 64} (hs : NonNegativeEntries s.allowance)
    (h : permit X env s from_ spender amount deadline signature = .ok s') : NonNegativeEntries s'.allowance := by
  simp [permit, increment_nonce, read_allowance_amount_eq, write_allowance_entry, update_expire] at h
  obtain ⟨hamount, -, -, -, -, -, -, -, -, rfl⟩ := h
  exact hs.update hamount

theorem approved_nonneg {approvals : List Approval} {A : Allowances} (h : NonNegativeEntries A)
    (hamounts : ∀ t ∈ approvals, 0 ≤ t.2.1) : NonNegativeEntries (approved from_ A approvals) := by
  induction approvals generalizing A with
  | nil => exact h
  | cons t rest ih =>
    obtain ⟨hamount, hamounts⟩ := List.forall_mem_cons.mp hamounts
    exact ih (h.update hamount) hamounts

theorem batch_approve_nonneg {approvals : List Approval} (h : batch_approve env s from_ approvals = .ok s') :
    ∀ t ∈ approvals, 0 ≤ t.2.1 := by
  simp only [batch_approve, bind_eq_ok] at h
  obtain ⟨_, -, _, -, s₁, hchecks, -⟩ := h
  induction approvals generalizing s with
  | nil => exact List.forall_mem_nil _
  | cons t rest ih =>
    obtain ⟨s₂, hcheck, hrest⟩ := bind_eq_ok.mp hchecks
    exact List.forall_mem_cons.mpr ⟨(check_approval_eq_ok.mp hcheck).1, ih hrest⟩

theorem reduce_nonneg {current sub_amount new : Int} (h : reduce current sub_amount = .ok new) : 0 ≤ new := by
  unfold reduce at h
  split at h
  · cases h
    exact le_rfl
  · simp at h
    omega

theorem execute_clawback_allowance (h : execute_clawback env s id = .ok s') : s'.allowance = s.allowance := by
  obtain ⟨total, start, hperiod⟩ : ∃ total start, (get_clawback_period_total env s).2 =
    { s with clawback_period_total := total, clawback_period_start := start } := get_clawback_period_total_eq
  simp only [execute_clawback, bind_eq_ok, orPanic_eq_ok, pure_eq_ok, store_clawback_record] at h
  obtain ⟨_, -, p, -, _, -, _, -, _, -, _, -, _, -, s₁, hspend, s₂, hburn, _, -, rfl⟩ := h
  simp [decrement_supply] at hburn
  obtain ⟨-, -, -, rfl⟩ := hburn
  rw [hperiod] at hspend
  have hsame := (spend_balance_same hspend).allowance
  exact hsame

theorem step_entries_nonneg (hs : NonNegativeEntries s.allowance) (h : step X s env call = .ok s')
    (hcall : ∀ from_ spender amount expiration_ledger, call = .approve from_ spender amount expiration_ledger →
      0 ≤ amount) : NonNegativeEntries s'.allowance := by
  have hsame (heq : s'.allowance = s.allowance) : NonNegativeEntries s'.allowance := heq ▸ hs
  have hstep := h
  unfold step at h
  cases call with
  | allowance =>
    simp [Token.allowance, read_allowance_amount_eq] at h
    subst h
    exact hs.expire
  | approve from_ spender amount expiration_ledger =>
    obtain ⟨-, -, rfl⟩ := approve_eq_ok.mp h
    exact hs.update (hcall _ _ _ _ rfl)
  | increase_allowance =>
    simp [increase_allowance, read_allowance_snd, write_allowance_entry, update_expire] at h
    obtain ⟨-, hadd, -, rfl⟩ := h
    rw [read_allowance_fst]
    exact hs.update (Int.add_nonneg hs.live hadd)
  | decrease_allowance =>
    simp [decrease_allowance, read_allowance_snd, write_allowance_entry, update_expire] at h
    obtain ⟨-, -, new, hnew, rfl⟩ := h
    exact hs.update (reduce_nonneg hnew)
  | permit => exact permit_nonneg hs h
  | transfer_with_permit =>
    obtain ⟨s₁, hpermit, h⟩ := bind_eq_ok.mp h
    obtain ⟨s₂, hspend, hxfer⟩ := bind_eq_ok.mp h
    have hkept := spend_allowance_nonneg (permit_nonneg hs hpermit) hspend
    exact (xfer_same hxfer).allowance ▸ hkept
  | transfer_from =>
    obtain ⟨_, -, h⟩ := bind_eq_ok.mp h
    obtain ⟨_, -, h⟩ := bind_eq_ok.mp h
    obtain ⟨s₁, hspend, hxfer⟩ := bind_eq_ok.mp h
    exact (xfer_same hxfer).allowance ▸ spend_allowance_nonneg hs hspend
  | burn_from =>
    obtain ⟨_, -, h⟩ := bind_eq_ok.mp h
    obtain ⟨_, -, h⟩ := bind_eq_ok.mp h
    obtain ⟨s₁, hspend, hburn⟩ := bind_eq_ok.mp h
    exact (burn_balance_same hburn).allowance ▸ spend_allowance_nonneg hs hspend
  | batch_approve from_ approvals =>
    have hamounts := batch_approve_nonneg h
    obtain ⟨-, -, rfl⟩ := batch_approve_accepted h
    exact approved_nonneg hs hamounts
  | propose_clawback =>
    obtain ⟨p, hp⟩ := propose_clawback_proposed (X := X) h
    obtain rfl := hp.post
    exact hs
  | approve_clawback =>
    obtain ⟨p, hp⟩ := approve_clawback_approved h
    obtain rfl := hp.post
    exact hs
  | execute_clawback => exact hsame (execute_clawback_allowance h)
  | _ => exact hsame (step_records hstep rfl rfl).allowance

/-! ## The cap -/

def Piece.minted : Piece → Int
  | .increment_supply amount => amount
  | _ => 0

/-- What a call mints. -/
def Call.minted : Call → Int
  | .mint _ amount => amount
  | .batch_mint mints => (mints.map Prod.snd).sum
  | _ => 0

theorem Piece.Does.minted {piece : Piece} (h : piece.Does env s s') :
    s'.total_minted = s.total_minted + piece.minted := by
  cases piece with
  | other => exact h.total_minted.trans (add_zero _).symm
  | spend =>
    obtain ⟨checkpoints, rfl⟩ := spend_balance_eq h
    exact (add_zero _).symm
  | receive =>
    simp [Piece.Does, receive_balance] at h
    rcases h with ⟨-, rfl⟩ | ⟨-, -, rfl⟩ <;> exact (add_zero _).symm
  | increment_supply =>
    simp [Piece.Does, Token.increment_supply] at h
    obtain ⟨-, -, rfl⟩ := h
    rfl
  | decrement_supply =>
    simp [Piece.Does, Token.decrement_supply] at h
    obtain ⟨-, -, -, rfl⟩ := h
    exact (add_zero _).symm
  | nullifier =>
    simp [Piece.Does, spend_nullifier] at h
    obtain ⟨-, rfl⟩ := h
    exact (add_zero _).symm
  | pool | nonce | proposal =>
    cases h
    exact (add_zero _).symm

theorem Does.minted {pieces : List Piece} (h : Does env pieces s s') :
    s'.total_minted = s.total_minted + (pieces.map Piece.minted).sum := by
  induction pieces generalizing s with
  | nil =>
    cases h
    exact (add_zero _).symm
  | cons piece pieces ih =>
    obtain ⟨s₁, hpiece, hrest⟩ := h
    rw [List.map_cons, List.sum_cons, ih hrest, Piece.Does.minted hpiece, add_assoc]

theorem Call.Made.minted {pieces : List Piece} (h : call.Made X env s pieces) :
    (pieces.map Piece.minted).sum = call.minted := by
  cases call with
  | transfer | transfer_from | permit | transfer_with_permit | shield | unshield =>
    obtain ⟨-, -, rfl⟩ := h
    rfl
  | burn | burn_from =>
    obtain ⟨-, rfl⟩ := h
    rfl
  | mint =>
    obtain ⟨-, rfl⟩ := h
    simp [Piece.minted, Call.minted]
  | propose_clawback | approve_clawback =>
    obtain ⟨_, _, -, rfl⟩ := h
    rfl
  | execute_clawback =>
    obtain ⟨_, -, rfl⟩ := h
    rfl
  | batch_transfer =>
    obtain ⟨-, -, rfl⟩ := h
    exact sum_flatMap_eq_zero fun _ => rfl
  | batch_mint mints =>
    obtain ⟨-, rfl⟩ := h
    rw [Call.minted]
    induction mints with
    | nil => rfl
    | cons t rest ih => simpa [Piece.minted] using ih
  | transfer_shielded nullifiers =>
    obtain ⟨-, -, rfl⟩ := h
    rw [List.map_append, List.sum_append, sum_map_nullifier fun _ => rfl]
    rfl
  | _ =>
    obtain rfl := h
    rfl

/-- The supply grows by what is minted at most. -/
theorem step_supply_le (hbacked : Backed s) (hbacked' : Backed s') (hproposed : Proposed s)
    (h : step X s env call = .ok s') : s'.total_supply ≤ s.total_supply + call.minted := by
  obtain ⟨pieces, hmade, hdoes⟩ := step_pieces h
  have hminted := hdoes.minted
  rw [hmade.minted] at hminted
  have hburned := (step_keeps hproposed h).burned
  have hcounted := hbacked.counted
  have hcounted' := hbacked'.counted
  unfold drift at hcounted hcounted'
  omega

/-- What is minted the cap has room for. -/
theorem step_room (hminted : 0 < call.minted) (h : step X s env call = .ok s') : Room s call.minted := by
  cases call with
  | mint =>
    simp only [step, mint, bind_eq_ok] at h
    obtain ⟨_, -, _, -, _, hcap, -⟩ := h
    exact check_supply_cap_room hcap
  | batch_mint =>
    simp only [step, batch_mint, bind_eq_ok] at h
    obtain ⟨_, -, _, -, sum, htotal, _, hcap, -⟩ := h
    have hsum := batch_total_eq htotal
    rw [zero_add] at hsum
    rw [Call.minted, ← hsum]
    exact check_supply_cap_room hcap
  | _ => exact absurd hminted (lt_irrefl 0)

theorem step_capped (hbacked : Backed s) (hbacked' : Backed s') (hproposed : Proposed s)
    (h : step X s env call = .ok s') (hgrows : s.total_supply < s'.total_supply) {cap : Int}
    (hcap : s.max_supply = some cap) : s'.total_supply ≤ cap := by
  have hle := step_supply_le hbacked hbacked' hproposed h
  have hminted : 0 < call.minted := by omega
  exact hle.trans (step_room hminted h cap hcap)

/-! ## Runs -/

theorem AttemptRun.accepted {admin : Address} {log : List (TokenState × Env × Call)} (hrun : AttemptRun X admin log s) :
    ∃ log', TokenRun X admin log' s := by
  induction hrun with
  | start => exact ⟨[], .start⟩
  | @call log s s' call _ hs ih =>
    obtain ⟨log', hlog'⟩ := ih
    cases h : step X s call.1 call.2 with
    | ok s₁ =>
      rw [settled_of_ok h] at hs
      exact ⟨_, .call hlog' (hs ▸ h)⟩
    | error p =>
      rw [settled_of_error (by rw [h]; rfl)] at hs
      exact ⟨log', hs ▸ hlog'⟩

theorem constructor_nonNegative {admin : Address} : NonNegative (constructor admin) := ⟨fun _ => le_rfl, nofun⟩

theorem not_nonNegative_of_approve {expiration_ledger : Nat} (hamount : amount < 0)
    (h : step X s env (.approve from_ spender amount expiration_ledger) = .ok s') : ¬ NonNegative s' := by
  obtain ⟨-, -, rfl⟩ := approve_eq_ok.mp h
  intro hs
  have hentry : entry amount expiration_ledger = some (amount, expiration_ledger) :=
    if_neg fun h0 => hamount.ne h0.1
  have hstored := hs.allowance (from_, spender) (amount, expiration_ledger) ((Function.update_self ..).trans hentry)
  exact absurd hstored (Int.not_le.mpr hamount)

theorem nonNegative_iff {admin : Address} {log : List (TokenState × Env × Call)} {call : Env × Call}
    (hrun : AttemptRun X admin log (settled X s call)) (hs : NonNegative s) :
    NonNegative (settled X s call) ↔ ¬ ApprovesNegative X s call := by
  obtain ⟨_, hrun⟩ := hrun.accepted
  constructor
  · rintro hnonneg ⟨from_, spender, amount, expiration_ledger, hcall, hamount, hok⟩
    obtain ⟨s', h⟩ := isOk_iff.mp hok
    rw [settled_of_ok h] at hnonneg
    rw [hcall] at h
    exact not_nonNegative_of_approve hamount h hnonneg
  · intro hnone
    cases h : step X s call.1 call.2 with
    | ok s' =>
      rw [settled_of_ok h] at hrun ⊢
      refine ⟨hrun.backed.balance, step_entries_nonneg hs.allowance h fun from_ spender amount ledger hcall => ?_⟩
      by_contra hamount
      exact hnone ⟨from_, spender, amount, ledger, hcall, Int.not_le.mp hamount, isOk_iff.mpr ⟨s', h⟩⟩
    | error p =>
      rw [settled_of_error (by rw [h]; rfl)]
      exact hs

theorem orderly_iff {admin : Address} {log : List (TokenState × Env × Call)} {call : Env × Call}
    (hrun : TokenRun X admin log s) :
    Orderly X s call (settled X s call) ↔ ¬ UnshieldsWhenFull s call.2 := by
  constructor
  · intro horderly hfull
    have hcovered : Covered s call.2 := .of_full hfull
    exact horderly.covered hcovered ((hrun.overflows_iff hcovered).mpr hfull)
  · refine fun hnone => ⟨fun hgrows cap hcap => ?_, fun hcovered => (hrun.overflows_iff hcovered).not.mpr hnone⟩
    cases h : step X s call.1 call.2 with
    | ok s' =>
      rw [settled_of_ok h] at hgrows ⊢
      have hrun' : TokenRun X admin ((s, call) :: log) s' := .call hrun h
      exact step_capped hrun.backed hrun'.backed (TokenRun.proposed hrun) h hgrows hcap
    | error p =>
      rw [settled_of_error (by rw [h]; rfl)] at hgrows
      exact absurd hgrows (lt_irrefl _)

/-- In every run, nothing stored is negative, the cap is kept, and nothing that is covered overflows, if and only if no
approval of a negative amount is accepted, and no unspent note is withdrawn when the commitments are out of numbers. -/
theorem arithmetic_safe_iff {admin : Address} {log : List (TokenState × Env × Call)} (hrun : AttemptRun X admin log s) :
    ((∀ t ∈ Run.states log s, NonNegative t) ∧ ∀ t ∈ Run.transitions log s, Orderly X t.1 t.2.1 t.2.2) ↔
      (∀ e ∈ log, ¬ ApprovesNegative X e.1 e.2) ∧ ∀ e ∈ log, ¬ UnshieldsWhenFull e.1 e.2.2 := by
  refine and_congr ?_ ?_
  · refine Run.forall_states_iff_of_step (P := NonNegative) (C := fun s call => ¬ ApprovesNegative X s call)
      constructor_nonNegative ?_ hrun
    rintro log s call s' hrun hs rfl
    exact nonNegative_iff (.call hrun rfl) hs
  · refine Run.forall_transitions_iff (P := Orderly X) (C := fun s call => ¬ UnshieldsWhenFull s call.2) ?_ hrun
    rintro log s call s' hrun rfl
    obtain ⟨_, hrun⟩ := AttemptRun.accepted hrun
    exact orderly_iff hrun

end

/-! ## A negative approval -/

def safeCalls : List Call :=
  [.set_max_supply 100, .batch_mint [(5, 60), (6, 40)], .approve 5 6 30 2, .transfer_from 6 5 7 20,
    .batch_transfer 6 [(5, 30), (6, 10)], .shield 7 20 (note 1), .unshield 8 15 (note 2) (note 3)]

theorem arithmetic_safe_iff_for_seven_calls : ∃ log s, AttemptRun sampleHost 0 log s ∧
    (((∀ t ∈ Run.states log s, NonNegative t) ∧ ∀ t ∈ Run.transitions log s, Orderly sampleHost t.1 t.2.1 t.2.2) ↔
      (∀ e ∈ log, ¬ ApprovesNegative sampleHost e.1 e.2) ∧ ∀ e ∈ log, ¬ UnshieldsWhenFull e.1 e.2.2) ∧
    s.balance 5 = 70 ∧ s.balance 8 = 15 ∧ s.total_supply = 100 := by
  obtain ⟨log, s, hrun, htest⟩ := exists_run (X := sampleHost) (a := 0) safeCalls
    (fun _ s => decide (s.balance 5 = 70 ∧ s.balance 8 = 15 ∧ s.total_supply = 100)) (by decide +kernel)
  have hattempt : AttemptRun sampleHost 0 log s := Run.mono (fun _ _ _ => settled_of_ok) hrun
  exact ⟨log, s, hattempt, arithmetic_safe_iff hattempt, of_decide_eq_true htest⟩

/-- A batch refuses the amount that the single call stores. -/
theorem negative_allowance_stored : ∃ s', Accepts sampleHost (constructor 0) (sampleEnv, .approve 5 6 (-1) 100) s' ∧
    s'.allowance (5, 6) = some (-1, 100) ∧ ¬ NonNegative s' ∧
    step sampleHost (constructor 0) sampleEnv (.batch_approve 5 [(6, -1, 100)]) = fail .NegativeAllowance := by
  have haccepted : Accepts sampleHost (constructor 0) (sampleEnv, .approve 5 6 (-1) 100) _ := rfl
  exact ⟨_, haccepted, rfl, not_nonNegative_of_approve (Int.negSucc_lt_zero 0) haccepted, rfl⟩

end ZkVote.Token

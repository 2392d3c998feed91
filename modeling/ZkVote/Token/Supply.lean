import ZkVote.Lib.Totals
import ZkVote.Token.Pieces

/-!
# The token: what the supply counter claims

Each piece of a call leaks some of the supply: a spent balance leaks its amount, a
received one takes it back. The pieces of a call make up for each other, except
for the public fee of a shielded transfer.
-/

open Lib Lib.Outcome

namespace ZkVote.Token

/-- The supply that is in no account and not in the pool. -/
noncomputable def missing (s : TokenState) : Int :=
  s.total_supply - (total s.balance + s.shielded_pool_balance)

/-- The supply that was not minted, or was burned. -/
def drift (s : TokenState) : Int := s.total_supply - (s.total_minted - s.total_burned)

structure Leaks (s s' : TokenState) (n : Int) : Prop where
  finite : s.balance.support.Finite → s'.balance.support.Finite
  missing : s.balance.support.Finite → missing s' = missing s + n
  drift : drift s' = drift s

/-- The fee a call pays out of the pool. -/
def Call.fee : Call → Int
  | .transfer_shielded _ _ public_fee => public_fee
  | _ => 0

section
variable {X : TokenHost} {env : Env} {s s' s'' : TokenState} {from_ to_ spender : Address} {amount a b : Int}

/-! ## Composition -/

theorem Leaks.of_same (hbalance : s'.balance = s.balance)
    (hpool : s'.shielded_pool_balance = s.shielded_pool_balance) (hsupply : s'.total_supply = s.total_supply)
    (hminted : s'.total_minted = s.total_minted) (hburned : s'.total_burned = s.total_burned) :
    Leaks s s' 0 := by
  refine ⟨fun h => hbalance ▸ h, fun _ => ?_, ?_⟩
  · rw [Token.missing, hsupply, hbalance, hpool, add_zero, Token.missing]
  · rw [Token.drift, hsupply, hminted, hburned, Token.drift]

theorem Leaks.refl : Leaks s s 0 := .of_same rfl rfl rfl rfl rfl

theorem Leaks.trans {m n : Int} (h : Leaks s s' m) (h' : Leaks s' s'' n) : Leaks s s'' (m + n) where
  finite := fun hs => h'.finite (h.finite hs)
  missing := fun hs => by rw [h'.missing (h.finite hs), h.missing hs, add_assoc]
  drift := h'.drift.trans h.drift

/-! ## Balances and counters -/

theorem Leaks.set_balance (env : Env) (address : Address) (a b : Int) :
    Leaks s (create_checkpoint env { s with balance := Function.update s.balance address (s.balance address + a) }
      address b) (-a) where
  finite := fun hs => finite_support_update hs address _
  missing := fun hs => by
    have htotal := total_update hs address (s.balance address + a)
    simp only [Token.missing, create_checkpoint]
    omega
  drift := rfl

theorem receive_balance_leaks (h : receive_balance env s to_ amount = .ok s') : Leaks s s' (-amount) := by
  unfold receive_balance at h
  split at h
  · rename_i h0
    cases h
    rw [h0]
    exact .refl
  · simp at h
    obtain ⟨-, rfl⟩ := h
    exact .set_balance env to_ amount _

theorem spend_balance_leaks (h : spend_balance env s from_ amount = .ok s') : Leaks s s' amount := by
  unfold spend_balance at h
  split at h
  · rename_i h0
    cases h
    rw [h0]
    exact .refl
  · simp at h
    obtain ⟨-, -, rfl⟩ := h
    have hspent : Leaks s _ (- -amount) := .set_balance env from_ (-amount) (s.balance from_ - amount)
    rwa [neg_neg] at hspent

theorem increment_supply_leaks (h : increment_supply s amount = .ok s') : Leaks s s' amount := by
  simp [increment_supply] at h
  obtain ⟨-, -, rfl⟩ := h
  refine ⟨id, fun _ => ?_, ?_⟩
  · simp only [missing]
    omega
  · simp only [drift]
    omega

theorem decrement_supply_leaks (h : decrement_supply s amount = .ok s') : Leaks s s' (-amount) := by
  simp [decrement_supply] at h
  obtain ⟨-, -, -, rfl⟩ := h
  refine ⟨id, fun _ => ?_, ?_⟩
  · simp only [missing]
    omega
  · simp only [drift]
    omega

theorem Leaks.set_pool (a : Int) :
    Leaks s { s with shielded_pool_balance := s.shielded_pool_balance + a } (-a) where
  finite := id
  missing := fun _ => by
    simp only [Token.missing]
    omega
  drift := rfl

theorem spend_nullifier_leaks {nullifier : BytesN 32} (h : spend_nullifier s nullifier = .ok s') :
    Leaks s s' 0 := by
  simp [spend_nullifier] at h
  obtain ⟨-, rfl⟩ := h
  exact .of_same rfl rfl rfl rfl rfl

/-! ## Calls -/

def Piece.leak : Piece → Int
  | .spend _ amount | .increment_supply amount => amount
  | .receive _ amount | .decrement_supply amount => -amount
  | .pool change => -change
  | _ => 0

theorem Piece.Does.leaks {piece : Piece} (h : piece.Does env s s') : Leaks s s' piece.leak := by
  cases piece with
  | other => exact .of_same h.balance h.shielded_pool_balance h.total_supply h.total_minted h.total_burned
  | spend => exact spend_balance_leaks h
  | receive => exact receive_balance_leaks h
  | increment_supply => exact increment_supply_leaks h
  | decrement_supply => exact decrement_supply_leaks h
  | pool change =>
    cases h
    exact .set_pool change
  | nullifier => exact spend_nullifier_leaks h
  | nonce | proposal =>
    cases h
    exact .of_same rfl rfl rfl rfl rfl

theorem Does.leaks {pieces : List Piece} (h : Does env pieces s s') :
    Leaks s s' (pieces.map Piece.leak).sum := by
  induction pieces generalizing s with
  | nil =>
    cases h
    exact .refl
  | cons piece pieces ih =>
    obtain ⟨s₁, hpiece, hrest⟩ := h
    rw [List.map_cons, List.sum_cons]
    exact (Piece.Does.leaks hpiece).trans (ih hrest)

/-- The fee is what is missing afterwards. -/
theorem Call.Made.leak {call : Call} {pieces : List Piece} (h : call.Made X env s pieces) :
    0 ≤ call.fee ∧ (pieces.map Piece.leak).sum = call.fee := by
  cases call with
  | transfer | transfer_from | permit | transfer_with_permit | shield | unshield =>
    obtain ⟨-, -, rfl⟩ := h
    simp [Piece.leak, fee]
  | burn | burn_from | mint =>
    obtain ⟨-, rfl⟩ := h
    simp [Piece.leak, fee]
  | propose_clawback | approve_clawback =>
    obtain ⟨_, _, -, rfl⟩ := h
    simp [Piece.leak, fee]
  | execute_clawback =>
    obtain ⟨_, -, rfl⟩ := h
    simp [Piece.leak, fee]
  | batch_transfer =>
    obtain ⟨-, -, rfl⟩ := h
    exact ⟨le_rfl, sum_flatMap_eq_zero fun _ => by simp [Piece.leak]⟩
  | batch_mint =>
    obtain ⟨-, rfl⟩ := h
    exact ⟨le_rfl, sum_flatMap_eq_zero fun _ => by simp [Piece.leak]⟩
  | transfer_shielded nullifiers =>
    obtain ⟨hfee, -, rfl⟩ := h
    rw [List.map_append, List.sum_append, sum_map_nullifier fun _ => rfl]
    simp [hfee, Piece.leak, fee]
  | _ =>
    obtain rfl := h
    simp [Piece.leak, fee]

theorem step_leaks {call : Call} (h : step X s env call = .ok s') : 0 ≤ call.fee ∧ Leaks s s' call.fee := by
  obtain ⟨pieces, hmade, hdoes⟩ := step_pieces h
  obtain ⟨hfee, hleak⟩ := hmade.leak
  exact ⟨hfee, hleak ▸ hdoes.leaks⟩

end

/-! ## Runs -/

/-- The accounts and the pool hold the supply, and the supply is what was minted and not burned. -/
structure Conserved (s : TokenState) : Prop where
  held : s.total_supply = total s.balance + s.shielded_pool_balance
  counted : s.total_supply = s.total_minted - s.total_burned

/-- What is left of the equations when fees have been paid: the fees are missing. -/
structure Accounted (log : List (TokenState × Env × Call)) (s : TokenState) : Prop where
  finite : s.balance.support.Finite
  nonneg : 0 ≤ missing s
  missing_iff : missing s = 0 ↔ ∀ e ∈ log, e.2.2.fee = 0
  drift : drift s = 0

section
variable {X : TokenHost} {admin : Address} {log : List (TokenState × Env × Call)} {s s' : TokenState}
  {call : Env × Call}

theorem constructor_accounted : Accounted [] (constructor admin) where
  finite := by simp [constructor]
  nonneg := by simp [missing, constructor]
  missing_iff := by simp [missing, constructor]
  drift := rfl

theorem Accounted.step (h : Accounted log s) (hs : Accepts X s call s') :
    Accounted ((s, call) :: log) s' := by
  obtain ⟨hfee, hleaks⟩ := step_leaks hs
  have hmissing := hleaks.missing h.finite
  have hnonneg := h.nonneg
  refine ⟨hleaks.finite h.finite, by omega, ?_, hleaks.drift.trans h.drift⟩
  rw [List.forall_mem_cons, ← h.missing_iff]
  show missing s' = 0 ↔ call.2.fee = 0 ∧ missing s = 0
  omega

theorem TokenRun.accounted (hrun : TokenRun X admin log s) : Accounted log s :=
  Run.invariant_log constructor_accounted (fun _ _ _ _ _ => Accounted.step) hrun

/-- In every run, the supply is in the accounts and the pool, and is what was minted and not burned, if and only
if no shielded transfer has paid a fee. -/
theorem supply_conserved_iff (hrun : TokenRun X admin log s) :
    Conserved s ↔ ∀ e ∈ log, e.2.2.fee = 0 := by
  have haccounted := TokenRun.accounted hrun
  rw [← haccounted.missing_iff]
  constructor
  · intro h
    rw [missing, h.held]
    omega
  · intro h0
    have hdrift := haccounted.drift
    unfold missing at h0
    unfold drift at hdrift
    constructor <;> omega

end

/-! ## A sample deployment -/

def sampleHost : TokenHost where
  ed25519_verify := fun _ _ _ => true
  address_xdr := fun a => toBeBytes 44 a
  current_contract_address := 1

/-- A call that everyone has signed. -/
def sampleEnv : Env where
  timestamp := 10
  sequence := 1
  auths := fun _ => true

def note (n : Nat) : BytesN 32 := Vector.replicate 32 (UInt8.ofNat n)

def next (X : TokenHost) (s : TokenState) (call : Env × Call) : Option TokenState :=
  (step X s call.1 call.2).toOption

theorem exists_run_at {X : TokenHost} {a : Address} (calls : List (Env × Call))
    (test : List (TokenState × Env × Call) → TokenState → Bool)
    (h : (Run.replay (next X) calls [] (constructor a)).any (fun e => test e.1 e.2) = true) :
    ∃ log s, TokenRun X a log s ∧ test log s = true := by
  refine Run.exists_of_replay (fun s call s' h => ?_) h
  exact toOption_eq_some.mp h

theorem exists_run {X : TokenHost} {a : Address} (calls : List Call)
    (test : List (TokenState × Env × Call) → TokenState → Bool)
    (h : (Run.replay (next X) (calls.map fun c => (sampleEnv, c)) [] (constructor a)).any
      (fun e => test e.1 e.2) = true) :
    ∃ log s, TokenRun X a log s ∧ test log s = true := exists_run_at _ test h

def shieldedCalls : List Call := [.mint 5 100, .shield 5 40 (note 1)]

theorem supply_conserved_iff_after_a_shield : ∃ log s, TokenRun sampleHost 0 log s ∧
    (Conserved s ↔ ∀ e ∈ log, e.2.2.fee = 0) ∧ s.shielded_pool_balance = 40 := by
  obtain ⟨log, s, hrun, htest⟩ := exists_run (X := sampleHost) (a := 0) shieldedCalls
    (fun _ s => decide (s.shielded_pool_balance = 40)) (by decide +kernel)
  exact ⟨log, s, hrun, supply_conserved_iff hrun, of_decide_eq_true htest⟩

/-- A shielded transfer with a fee of 7: the pool pays it, and the supply stays as it was. -/
theorem supply_lost_to_a_fee : ∃ log s, TokenRun sampleHost 0 log s ∧ ¬ Conserved s := by
  obtain ⟨log, s, hrun, htest⟩ := exists_run (X := sampleHost) (a := 0)
    (shieldedCalls ++ [.transfer_shielded [] [] 7])
    (fun log _ => log.any fun e => decide (e.2.2.fee = 7)) (by decide +kernel)
  obtain ⟨e, he, hfee⟩ := List.any_eq_true.mp htest
  refine ⟨log, s, hrun, fun hconserved => ?_⟩
  have haccounted := TokenRun.accounted hrun
  have h0 : missing s = 0 := by
    rw [missing, hconserved.held]
    omega
  have hzero := haccounted.missing_iff.mp h0 e he
  rw [of_decide_eq_true hfee] at hzero
  cases hzero

end ZkVote.Token

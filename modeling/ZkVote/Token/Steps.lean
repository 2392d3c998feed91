import Mathlib.Data.List.Nodup
import ZkVote.Token.Pieces

/-!
# The token: what a step does

Outside the pool, a call sets balances one after the other and marks each in the
account's checkpoints. The pool grows by what is shielded, pays what is withdrawn,
and uses up the nullifiers it is given.
-/

open Lib Lib.Outcome

namespace ZkVote.Token

/-- What a call does to accounts and pool, piece by piece, as long as it leaves the pool alone. -/
inductive Moves (env : Env) : TokenState → TokenState → Prop where
  | same {s s' : TokenState} : s'.balance = s.balance → s'.checkpoints = s.checkpoints →
      s'.shielded_pool_balance = s.shielded_pool_balance → s'.nullifier_spent = s.nullifier_spent → Moves env s s'
  | set_balance (s : TokenState) (a : Address) (b : Int) :
      Moves env s (create_checkpoint env { s with balance := Function.update s.balance a b } a b)
  | trans {s s' s'' : TokenState} : Moves env s s' → Moves env s' s'' → Moves env s s''

/-- What a call puts into the pool. -/
def Call.deposit : Call → Int
  | .shield _ amount _ => amount
  | _ => 0

/-- What a call takes out of the pool. -/
def Call.withdrawal : Call → Int
  | .transfer_shielded _ _ public_fee => public_fee
  | .unshield _ amount _ _ => amount
  | _ => 0

def Call.nullifiers : Call → List (BytesN 32)
  | .transfer_shielded nullifiers _ _ => nullifiers
  | .unshield _ _ nullifier _ => [nullifier]
  | _ => []

/-- The nullifiers were unspent and are different, and now they are spent. -/
structure Spends (nullifiers : List (BytesN 32)) (s s' : TokenState) : Prop where
  fresh : ∀ n ∈ nullifiers, s.nullifier_spent n = false
  nodup : nullifiers.Nodup
  spent : ∀ n, s'.nullifier_spent n = true ↔ n ∈ nullifiers ∨ s.nullifier_spent n = true

structure StepMoves (env : Env) (s : TokenState) (call : Call) (s' : TokenState) : Prop where
  moves : Moves env s
    { s' with shielded_pool_balance := s.shielded_pool_balance, nullifier_spent := s.nullifier_spent }
  pool : s'.shielded_pool_balance = s.shielded_pool_balance + call.deposit - call.withdrawal
  covered : call.withdrawal ≤ s.shielded_pool_balance ∨ call.withdrawal = 0
  nullifiers : Spends call.nullifiers s s'

section
variable {X : TokenHost} {env : Env} {s s' s'' : TokenState} {from_ to_ spender : Address} {amount : Int}

/-! ## Accounts -/

theorem Moves.refl : Moves env s s := .same rfl rfl rfl rfl

theorem Moves.pool_eq (h : Moves env s s') :
    s'.shielded_pool_balance = s.shielded_pool_balance ∧ s'.nullifier_spent = s.nullifier_spent := by
  induction h with
  | same _ _ hpool hspent => exact ⟨hpool, hspent⟩
  | set_balance => exact ⟨rfl, rfl⟩
  | trans _ _ ih ih' => exact ⟨ih'.1.trans ih.1, ih'.2.trans ih.2⟩

theorem Moves.beside_pool (pool : Int) (spent : BytesN 32 → Bool) (h : Moves env s s') :
    Moves env { s with shielded_pool_balance := pool, nullifier_spent := spent }
      { s' with shielded_pool_balance := pool, nullifier_spent := spent } := by
  induction h with
  | same hbalance hcheckpoints _ _ => exact .same hbalance hcheckpoints rfl rfl
  | set_balance s a b => exact .set_balance { s with shielded_pool_balance := pool, nullifier_spent := spent } a b
  | trans _ _ ih ih' => exact ih.trans ih'

theorem receive_balance_moves (h : receive_balance env s to_ amount = .ok s') : Moves env s s' := by
  unfold receive_balance at h
  split at h
  · cases h
    exact .refl
  · simp at h
    obtain ⟨-, rfl⟩ := h
    exact .set_balance s to_ _

theorem spend_balance_moves (h : spend_balance env s from_ amount = .ok s') : Moves env s s' := by
  unfold spend_balance at h
  split at h
  · cases h
    exact .refl
  · simp at h
    obtain ⟨-, -, rfl⟩ := h
    exact .set_balance s from_ _

/-! ## The pool -/

theorem Spends.refl : Spends [] s s := by
  constructor <;> simp

theorem Spends.of_eq {nullifiers : List (BytesN 32)} (h : Spends nullifiers s s')
    (heq : s''.nullifier_spent = s'.nullifier_spent) : Spends nullifiers s s'' :=
  ⟨h.fresh, h.nodup, heq ▸ h.spent⟩

theorem Spends.append {nullifiers rest : List (BytesN 32)} (h : Spends nullifiers s s') (hrest : Spends rest s' s'') :
    Spends (nullifiers ++ rest) s s'' := by
  refine ⟨fun n hn => ?_, ?_, fun n => ?_⟩
  · rcases List.mem_append.mp hn with hn | hn
    · exact h.fresh n hn
    · have hfresh := hrest.fresh n hn
      rw [Bool.eq_false_iff] at hfresh ⊢
      exact fun hspent => hfresh ((h.spent n).mpr (.inr hspent))
  · rw [List.nodup_append]
    refine ⟨h.nodup, hrest.nodup, fun n hn m hm hnm => ?_⟩
    subst hnm
    have hspent := (h.spent n).mpr (.inl hn)
    rw [hrest.fresh n hm] at hspent
    cases hspent
  · rw [hrest.spent, h.spent, List.mem_append]
    tauto

theorem spend_nullifier_spends {nullifier : BytesN 32} (h : spend_nullifier s nullifier = .ok s') :
    Spends [nullifier] s s' := by
  simp [spend_nullifier] at h
  obtain ⟨hfresh, rfl⟩ := h
  refine ⟨by simpa using hfresh, List.nodup_singleton nullifier, fun n => ?_⟩
  by_cases hn : n = nullifier
  · simp [hn]
  · simp [hn]

/-! ## Pieces -/

theorem Moves.beside (h : Moves env s s') : Moves env s
    { s' with shielded_pool_balance := s.shielded_pool_balance, nullifier_spent := s.nullifier_spent } := by
  obtain ⟨hpool, hspent⟩ := h.pool_eq
  exact h.trans (.same rfl rfl hpool.symm hspent.symm)

def Piece.change : Piece → Int
  | .pool change => change
  | _ => 0

def Piece.nullifiers : Piece → List (BytesN 32)
  | .nullifier n => [n]
  | _ => []

/-- What pieces do to accounts and pool. -/
structure PiecesMove (env : Env) (change : Int) (nullifiers : List (BytesN 32)) (s s' : TokenState) : Prop where
  moves : Moves env s
    { s' with shielded_pool_balance := s.shielded_pool_balance, nullifier_spent := s.nullifier_spent }
  pool : s'.shielded_pool_balance = s.shielded_pool_balance + change
  nullifiers : Spends nullifiers s s'

theorem PiecesMove.of_moves (h : Moves env s s') : PiecesMove env 0 [] s s' := by
  obtain ⟨hpool, hspent⟩ := h.pool_eq
  exact ⟨h.beside, by omega, Spends.refl.of_eq hspent⟩

theorem PiecesMove.trans {m n : Int} {nullifiers rest : List (BytesN 32)} (h : PiecesMove env m nullifiers s s')
    (hrest : PiecesMove env n rest s' s'') : PiecesMove env (m + n) (nullifiers ++ rest) s s'' where
  moves := h.moves.trans (hrest.moves.beside_pool s.shielded_pool_balance s.nullifier_spent)
  pool := by rw [hrest.pool, h.pool, add_assoc]
  nullifiers := h.nullifiers.append hrest.nullifiers

theorem Piece.Does.moves {piece : Piece} (h : piece.Does env s s') :
    PiecesMove env piece.change piece.nullifiers s s' := by
  cases piece with
  | other => exact .of_moves (.same h.balance h.checkpoints h.shielded_pool_balance h.nullifier_spent)
  | spend => exact .of_moves (spend_balance_moves h)
  | receive => exact .of_moves (receive_balance_moves h)
  | increment_supply amount =>
    simp [Piece.Does, Token.increment_supply] at h
    obtain ⟨-, -, rfl⟩ := h
    exact .of_moves (.same rfl rfl rfl rfl)
  | decrement_supply amount =>
    simp [Piece.Does, Token.decrement_supply] at h
    obtain ⟨-, -, -, rfl⟩ := h
    exact .of_moves (.same rfl rfl rfl rfl)
  | pool change =>
    cases h
    exact ⟨.same rfl rfl rfl rfl, rfl, Spends.refl.of_eq rfl⟩
  | nullifier n =>
    have hspends := spend_nullifier_spends h
    simp [Piece.Does, spend_nullifier] at h
    obtain ⟨-, rfl⟩ := h
    exact ⟨.same rfl rfl rfl rfl, (add_zero _).symm, hspends⟩
  | nonce | proposal =>
    cases h
    exact .of_moves (.same rfl rfl rfl rfl)

theorem Does.moves {pieces : List Piece} (h : Does env pieces s s') :
    PiecesMove env (pieces.map Piece.change).sum (pieces.flatMap Piece.nullifiers) s s' := by
  induction pieces generalizing s with
  | nil =>
    cases h
    exact .of_moves .refl
  | cons piece pieces ih =>
    obtain ⟨s₁, hpiece, hrest⟩ := h
    rw [List.map_cons, List.sum_cons, List.flatMap_cons]
    exact (Piece.Does.moves hpiece).trans (ih hrest)

/-! ## Calls -/

/-- A call puts something in, or takes something out that is there, or neither. -/
structure Flows (s : TokenState) (call : Call) : Prop where
  deposit : 0 ≤ call.deposit
  withdrawal : 0 ≤ call.withdrawal
  one : call.deposit = 0 ∨ call.withdrawal = 0
  covered : call.withdrawal ≤ s.shielded_pool_balance ∨ call.withdrawal = 0

theorem Call.Made.flows {call : Call} {pieces : List Piece} (h : call.Made X env s pieces) : Flows s call := by
  cases call with
  | shield =>
    obtain ⟨-, hamount, -⟩ := h
    exact ⟨hamount.le, le_rfl, .inr rfl, .inr rfl⟩
  | transfer_shielded =>
    obtain ⟨hfee, hcovered, -⟩ := h
    exact ⟨le_rfl, hfee, .inl rfl, hcovered⟩
  | unshield =>
    obtain ⟨hamount, hcovered, -⟩ := h
    exact ⟨le_rfl, hamount.le, .inl rfl, .inl hcovered⟩
  | _ => exact ⟨le_rfl, le_rfl, .inl rfl, .inr rfl⟩

theorem flatMap_eq_nil {α β γ : Type} {items : List α} {made : α → List β} {f : β → List γ}
    (hmade : ∀ item, (made item).flatMap f = []) : (items.flatMap made).flatMap f = [] := by
  rw [List.flatMap_assoc]
  simp [hmade]

theorem Call.Made.change {call : Call} {pieces : List Piece} (h : call.Made X env s pieces) :
    (pieces.map Piece.change).sum = call.deposit - call.withdrawal ∧
      pieces.flatMap Piece.nullifiers = call.nullifiers := by
  cases call with
  | transfer | transfer_from | permit | transfer_with_permit | shield | unshield =>
    obtain ⟨-, -, rfl⟩ := h
    simp [Piece.change, Piece.nullifiers, deposit, withdrawal, nullifiers]
  | burn | burn_from | mint =>
    obtain ⟨-, rfl⟩ := h
    exact ⟨rfl, rfl⟩
  | propose_clawback | approve_clawback =>
    obtain ⟨_, _, -, rfl⟩ := h
    exact ⟨rfl, rfl⟩
  | execute_clawback =>
    obtain ⟨_, -, rfl⟩ := h
    exact ⟨rfl, rfl⟩
  | batch_transfer =>
    obtain ⟨-, -, rfl⟩ := h
    exact ⟨sum_flatMap_eq_zero fun _ => rfl, flatMap_eq_nil fun _ => rfl⟩
  | batch_mint =>
    obtain ⟨-, rfl⟩ := h
    exact ⟨sum_flatMap_eq_zero fun _ => rfl, flatMap_eq_nil fun _ => rfl⟩
  | transfer_shielded =>
    obtain ⟨-, -, rfl⟩ := h
    rw [List.map_append, List.sum_append, sum_map_nullifier fun _ => rfl]
    simp [Piece.change, Piece.nullifiers, deposit, withdrawal, nullifiers, List.flatMap_map]
  | _ =>
    obtain rfl := h
    exact ⟨rfl, rfl⟩

theorem step_flows {call : Call} (h : step X s env call = .ok s') : Flows s call := by
  obtain ⟨pieces, hmade, -⟩ := step_pieces h
  exact hmade.flows

theorem step_moves {call : Call} (h : step X s env call = .ok s') : StepMoves env s call s' := by
  obtain ⟨pieces, hmade, hdoes⟩ := step_pieces h
  obtain ⟨hchange, hnullifiers⟩ := hmade.change
  have hmoves := hdoes.moves
  rw [hchange, hnullifiers] at hmoves
  refine ⟨hmoves.moves, ?_, hmade.flows.covered, hmoves.nullifiers⟩
  rw [hmoves.pool]
  omega

end

end ZkVote.Token

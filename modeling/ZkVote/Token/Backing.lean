import ZkVote.Token.Debits
import ZkVote.Token.Steps

/-!
# The token: what backs the balances

Every balance is part of the supply, and the supply fits its type. A balance that is spent
makes room for it elsewhere.
-/

open Lib Lib.Outcome

namespace ZkVote.Token

/-- Nothing is overdrawn, and what was minted fits its type. -/
structure Solvent (s : TokenState) : Prop where
  balance : ∀ a, 0 ≤ s.balance a
  pool : 0 ≤ s.shielded_pool_balance
  burned : 0 ≤ s.total_burned
  minted : s.total_minted < 2 ^ 127

/-- Accounts and pool are part of the supply as well, and the supply is what was minted and not burned. -/
structure Backed (s : TokenState) : Prop extends Solvent s where
  finite : s.balance.support.Finite
  held : 0 ≤ missing s
  counted : drift s = 0

/-- What is done with amounts that are not negative. -/
structure Keeps (s s' : TokenState) : Prop where
  balance : (∀ a, 0 ≤ s.balance a) → ∀ a, 0 ≤ s'.balance a
  minted : s.total_minted < 2 ^ 127 → s'.total_minted < 2 ^ 127
  burned : s.total_burned ≤ s'.total_burned

/-- What is received and what is burned is not negative. A balance is not overdrawn in any case. -/
def Piece.NonNegative : Piece → Prop
  | .receive _ amount | .decrement_supply amount => 0 ≤ amount
  | _ => True

section
variable {X : TokenHost} {env : Env} {s s' s'' : TokenState} {from_ to_ : Address} {amount : Int} {call : Call}
  {pieces : List Piece}

/-! ## Pieces -/

theorem Keeps.of_same (hbalance : s'.balance = s.balance) (hminted : s'.total_minted = s.total_minted)
    (hburned : s'.total_burned = s.total_burned) : Keeps s s' where
  balance h := by rwa [hbalance]
  minted h := by rwa [hminted]
  burned := hburned.ge

theorem Keeps.refl : Keeps s s := .of_same rfl rfl rfl

theorem Keeps.trans (h : Keeps s s') (h' : Keeps s' s'') : Keeps s s'' where
  balance hs := h'.balance (h.balance hs)
  minted hs := h'.minted (h.minted hs)
  burned := h.burned.trans h'.burned

theorem update_nonneg {balance : Address → Int} {a : Address} {b : Int} (h : ∀ a, 0 ≤ balance a) (hb : 0 ≤ b) :
    ∀ a', 0 ≤ Function.update balance a b a' := by
  intro a'
  rw [Function.update_apply]
  split
  · exact hb
  · exact h a'

theorem spend_balance_keeps (h : spend_balance env s from_ amount = .ok s') : Keeps s s' := by
  unfold spend_balance at h
  split at h
  · cases h
    exact .refl
  · simp at h
    obtain ⟨hle, -, rfl⟩ := h
    exact ⟨fun hs => update_nonneg hs (Int.sub_nonneg.mpr hle), id, le_rfl⟩

theorem receive_balance_keeps (hamount : 0 ≤ amount) (h : receive_balance env s to_ amount = .ok s') :
    Keeps s s' := by
  unfold receive_balance at h
  split at h
  · cases h
    exact .refl
  · simp at h
    obtain ⟨-, rfl⟩ := h
    exact ⟨fun hs => update_nonneg hs (Int.add_nonneg (hs to_) hamount), id, le_rfl⟩

theorem Piece.Does.keeps {piece : Piece} (hpiece : piece.NonNegative) (h : piece.Does env s s') : Keeps s s' := by
  cases piece with
  | other => exact .of_same h.balance h.total_minted h.total_burned
  | spend => exact spend_balance_keeps h
  | receive => exact receive_balance_keeps hpiece h
  | increment_supply amount =>
    simp [Piece.Does, Token.increment_supply] at h
    obtain ⟨-, ⟨-, hfits⟩, rfl⟩ := h
    exact ⟨id, fun _ => hfits, le_rfl⟩
  | decrement_supply amount =>
    simp [Piece.Does, Token.decrement_supply] at h
    obtain ⟨-, -, -, rfl⟩ := h
    exact ⟨id, id, Int.le_add_of_nonneg_right hpiece⟩
  | pool change =>
    cases h
    exact .of_same rfl rfl rfl
  | nullifier n =>
    simp [Piece.Does, spend_nullifier] at h
    obtain ⟨-, rfl⟩ := h
    exact .of_same rfl rfl rfl
  | nonce | proposal =>
    cases h
    exact .of_same rfl rfl rfl

theorem Does.keeps (hpieces : ∀ piece ∈ pieces, piece.NonNegative) (h : Does env pieces s s') : Keeps s s' := by
  induction pieces generalizing s with
  | nil =>
    cases h
    exact .refl
  | cons piece pieces ih =>
    rw [List.forall_mem_cons] at hpieces
    obtain ⟨s₁, hpiece, hrest⟩ := h
    exact (Piece.Does.keeps hpieces.1 hpiece).trans (ih hpieces.2 hrest)

/-! ## Calls -/

theorem burn_nonneg (h : step X s env (.burn from_ amount) = .ok s') : 0 ≤ amount := by
  simp only [step, burn, bind_eq_ok, require_eq_ok] at h
  obtain ⟨-, -, -, hamount, -⟩ := h
  exact Int.not_lt.mp hamount

theorem burn_from_nonneg {spender : Address} (h : step X s env (.burn_from spender from_ amount) = .ok s') :
    0 ≤ amount := by
  simp only [step, burn_from, bind_eq_ok, require_eq_ok] at h
  obtain ⟨-, -, -, hamount, -⟩ := h
  exact Int.not_lt.mp hamount

theorem Call.Made.nonNegative (hproposed : Proposed s) (h : step X s env call = .ok s')
    (hmade : call.Made X env s pieces) : ∀ piece ∈ pieces, piece.NonNegative := by
  cases call with
  | transfer | transfer_from =>
    obtain ⟨-, hamount, rfl⟩ := hmade
    simp [Piece.NonNegative, hamount]
  | permit | transfer_with_permit =>
    obtain ⟨hamount, -, rfl⟩ := hmade
    simp [Piece.NonNegative, hamount]
  | burn =>
    obtain ⟨-, rfl⟩ := hmade
    simp [Piece.NonNegative, burn_nonneg h]
  | burn_from =>
    obtain ⟨-, rfl⟩ := hmade
    simp [Piece.NonNegative, burn_from_nonneg h]
  | mint =>
    obtain ⟨hamount, rfl⟩ := hmade
    simp [Piece.NonNegative, hamount]
  | propose_clawback | approve_clawback =>
    obtain ⟨_, _, -, rfl⟩ := hmade
    simp [Piece.NonNegative]
  | execute_clawback =>
    obtain ⟨p, hfound, rfl⟩ := hmade
    have hamount := (hproposed _ p hfound).le
    simp [Piece.NonNegative, hamount]
  | batch_transfer =>
    obtain ⟨-, hamounts, rfl⟩ := hmade
    intro piece hpiece
    obtain ⟨t, ht, hpiece⟩ := List.mem_flatMap.mp hpiece
    simp only [List.mem_cons, List.not_mem_nil, or_false] at hpiece
    rcases hpiece with rfl | rfl
    · trivial
    · exact hamounts t ht
  | batch_mint =>
    obtain ⟨hamounts, rfl⟩ := hmade
    intro piece hpiece
    obtain ⟨t, ht, hpiece⟩ := List.mem_flatMap.mp hpiece
    simp only [List.mem_cons, List.not_mem_nil, or_false] at hpiece
    rcases hpiece with rfl | rfl
    · exact hamounts t ht
    · trivial
  | shield =>
    obtain ⟨-, -, rfl⟩ := hmade
    simp [Piece.NonNegative]
  | transfer_shielded =>
    obtain ⟨-, -, rfl⟩ := hmade
    simp [Piece.NonNegative, or_imp, forall_and]
  | unshield =>
    obtain ⟨hamount, -, rfl⟩ := hmade
    simp [Piece.NonNegative, hamount.le]
  | _ =>
    obtain rfl := hmade
    simp [Piece.NonNegative]

theorem step_keeps (hproposed : Proposed s) (h : step X s env call = .ok s') : Keeps s s' := by
  obtain ⟨pieces, hmade, hdoes⟩ := step_pieces h
  exact hdoes.keeps (hmade.nonNegative hproposed h)

theorem Solvent.step (hsolvent : Solvent s) (hproposed : Proposed s) (h : step X s env call = .ok s') :
    Solvent s' := by
  have hkeeps := step_keeps hproposed h
  have hmoves := step_moves h
  have hdeposit := (step_flows h).deposit
  have hpool := hsolvent.pool
  refine ⟨hkeeps.balance hsolvent.balance, ?_, hsolvent.burned.trans hkeeps.burned, hkeeps.minted hsolvent.minted⟩
  rw [hmoves.pool]
  rcases hmoves.covered with hle | h0 <;> omega

theorem constructor_solvent {admin : Address} : Solvent (constructor admin) :=
  ⟨fun _ => le_rfl, le_rfl, le_rfl, pow_pos two_pos 127⟩

theorem TokenRun.backed {admin : Address} {log : List (TokenState × Env × Call)} (hrun : TokenRun X admin log s) :
    Backed s := by
  have haccounted := hrun.accounted
  have hsolvent : Solvent s := Run.invariant_log (P := fun _ s => Solvent s) constructor_solvent
    (fun _ _ _ _ hrun h hs => h.step (TokenRun.proposed hrun) hs) hrun
  exact ⟨hsolvent, haccounted.finite, haccounted.nonneg, haccounted.drift⟩

/-! ## Room -/

theorem Backed.supply_le (h : Backed s) : s.total_supply ≤ s.total_minted := by
  have hcounted := h.counted
  have hburned := h.burned
  unfold drift at hcounted
  omega

theorem Backed.total_le (h : Backed s) : total s.balance + s.shielded_pool_balance ≤ s.total_supply :=
  Int.sub_nonneg.mp h.held

theorem Backed.balance_lt (h : Backed s) (a : Address) : s.balance a < 2 ^ 127 := by
  have hle := le_total h.finite h.balance a
  have hpool := h.pool
  have htotal := h.total_le
  have hsupply := h.supply_le
  have hminted := h.minted
  omega

theorem Backed.pool_lt (h : Backed s) : s.shielded_pool_balance < 2 ^ 127 := by
  have hbalance := h.balance 0
  have hle := le_total h.finite h.balance 0
  have htotal := h.total_le
  have hsupply := h.supply_le
  have hminted := h.minted
  omega

theorem receive_balance_ok (env : Env) (to_ : Address) (hfinite : s.balance.support.Finite)
    (hbalance : ∀ a, 0 ≤ s.balance a) (hamount : 0 ≤ amount) (hroom : total s.balance + amount < 2 ^ 127) :
    ∃ s', receive_balance env s to_ amount = .ok s' := by
  have hle := le_total hfinite hbalance to_
  have hnonneg := hbalance to_
  unfold receive_balance
  split
  · exact ⟨s, rfl⟩
  · rw [i128_eq_ok.mpr ⟨⟨by omega, by omega⟩, rfl⟩]
    exact ⟨_, rfl⟩

theorem spend_balance_ok (env : Env) (hbacked : Backed s) (hamount : 0 ≤ amount) (hle : amount ≤ s.balance from_) :
    ∃ s', spend_balance env s from_ amount = .ok s' := by
  have hnonneg := hbacked.balance from_
  have hlt := hbacked.balance_lt from_
  unfold spend_balance
  split
  · exact ⟨s, rfl⟩
  · dsimp only
    rw [require_of (Int.not_lt.mpr hle), ok_bind, i128_op_eq_ok.mpr ⟨⟨by omega, by omega⟩, rfl⟩]
    exact ⟨_, rfl⟩

/-- What one account spends, another can receive. -/
theorem xfer_ok (env : Env) (to_ : Address) (hbacked : Backed s) (hamount : 0 ≤ amount)
    (hle : amount ≤ s.balance from_) : ∃ s', xfer env s from_ to_ amount = .ok s' := by
  obtain ⟨s₁, hspend⟩ := spend_balance_ok env hbacked hamount hle
  have hleaks := spend_balance_leaks hspend
  have hkeeps := spend_balance_keeps hspend
  have htotal : total s₁.balance + amount = total s.balance := by
    rw [(spend_balance_sets hspend).balance, total_update hbacked.finite]
    omega
  have hheld := hbacked.total_le
  have hpool := hbacked.pool
  have hsupply := hbacked.supply_le
  have hminted := hbacked.minted
  obtain ⟨s', hreceive⟩ := receive_balance_ok env to_ (hleaks.finite hbacked.finite)
    (hkeeps.balance hbacked.balance) hamount (by omega)
  exact ⟨s', bind_eq_ok.mpr ⟨s₁, hspend, hreceive⟩⟩

theorem xfer_backed (hbacked : Backed s) (hamount : 0 ≤ amount) (h : xfer env s from_ to_ amount = .ok s') :
    Backed s' := by
  have hdoes := xfer_does h
  have hkeeps : Keeps s s' := hdoes.keeps (by simp [Piece.NonNegative, hamount])
  have hleaks := hdoes.leaks
  have hmoves := hdoes.moves
  have hpool : s'.shielded_pool_balance = s.shielded_pool_balance := by simpa [Piece.change] using hmoves.pool
  have hmissing : missing s' = missing s := by simpa [Piece.leak] using hleaks.missing hbacked.finite
  exact
    { balance := hkeeps.balance hbacked.balance
      pool := hpool ▸ hbacked.pool
      burned := hbacked.burned.trans hkeeps.burned
      minted := hkeeps.minted hbacked.minted
      finite := hleaks.finite hbacked.finite
      held := hmissing ▸ hbacked.held
      counted := hleaks.drift.trans hbacked.counted }

theorem xfer_leaves (hamount : 0 ≤ amount) (h : xfer env s from_ to_ amount = .ok s') :
    s.balance from_ - amount ≤ s'.balance from_ := by
  obtain ⟨s₁, hspend, hreceive⟩ := bind_eq_ok.mp h
  rw [spend_receive_from hspend hreceive]
  split <;> omega

/-- Transfers whose sum the account has all go through. -/
theorem for_each_xfer_ok {transfers : List (Address × Int)} (env : Env) (hbacked : Backed s)
    (hamounts : ∀ t ∈ transfers, 0 ≤ t.2) (hle : (transfers.map Prod.snd).sum ≤ s.balance from_) :
    ∃ s', for_each (fun s (t : Address × Int) => xfer env s from_ t.1 t.2) s transfers = .ok s' := by
  induction transfers generalizing s with
  | nil => exact ⟨s, rfl⟩
  | cons t rest ih =>
    obtain ⟨hamount, hamounts⟩ := List.forall_mem_cons.mp hamounts
    have hlater : 0 ≤ (rest.map Prod.snd).sum := List.sum_nonneg (by simpa using fun _ _ => hamounts _)
    rw [List.map_cons, List.sum_cons] at hle
    obtain ⟨s₁, hxfer⟩ := xfer_ok env t.1 hbacked hamount (by omega : t.2 ≤ s.balance from_)
    have hleaves := xfer_leaves hamount hxfer
    obtain ⟨s', hrest⟩ := ih (xfer_backed hbacked hamount hxfer) hamounts (by omega)
    exact ⟨s', bind_eq_ok.mpr ⟨s₁, hxfer, hrest⟩⟩

theorem batch_total_ok {transfers : List (Address × Int)} {start : Int} (hstart : 0 ≤ start)
    (hamounts : ∀ t ∈ transfers, 0 ≤ t.2) (hfits : start + (transfers.map Prod.snd).sum < 2 ^ 127) :
    batch_total start transfers = .ok (start + (transfers.map Prod.snd).sum) := by
  induction transfers generalizing start with
  | nil => simp [batch_total]
  | cons t rest ih =>
    obtain ⟨hamount, hamounts⟩ := List.forall_mem_cons.mp hamounts
    have hlater : 0 ≤ (rest.map Prod.snd).sum := List.sum_nonneg (by simpa using fun _ _ => hamounts _)
    rw [List.map_cons, List.sum_cons] at hfits ⊢
    rw [batch_total, require_of (Int.not_lt.mpr hamount), ok_bind, i128_eq_ok.mpr ⟨⟨by omega, by omega⟩, rfl⟩, ok_bind,
      ih (by omega) hamounts (by omega), add_assoc]

/-- What the pool pays out, an account can receive. -/
theorem receive_from_pool_ok (env : Env) (to_ : Address) (hbacked : Backed s) (hamount : 0 ≤ amount)
    (hle : amount ≤ s.shielded_pool_balance) (hsame : s'.balance = s.balance) : ∃ s'', receive_balance env s' to_ amount = .ok s'' := by
  have hheld := hbacked.total_le
  have hsupply := hbacked.supply_le
  have hminted := hbacked.minted
  refine receive_balance_ok env to_ (hsame ▸ hbacked.finite) (hsame ▸ hbacked.balance) hamount ?_
  rw [hsame]
  omega

end

end ZkVote.Token

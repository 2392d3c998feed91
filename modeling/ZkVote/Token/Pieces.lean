import ZkVote.Token.Contract

/-!
# The token: calls piece by piece

An accepted call spends and receives balances, moves the supply and the pool, and uses up
nullifiers, nonces and clawback proposals, one after the other. What else it writes, allowances
and records and settings, none of these look at.
-/

open Lib Lib.Outcome

namespace ZkVote.Token

inductive Piece where
  | other
  | spend (from_ : Address) (amount : Int)
  | receive (to_ : Address) (amount : Int)
  | increment_supply (amount : Int)
  | decrement_supply (amount : Int)
  | pool (change : Int)
  | nullifier (nullifier : BytesN 32)
  | nonce (owner : Address)
  | proposal (proposal_id : Nat) (proposal : ClawbackProposal)

/-- Nothing is written that another piece writes. -/
structure Beside (s s' : TokenState) : Prop where
  balance : s'.balance = s.balance
  checkpoints : s'.checkpoints = s.checkpoints
  total_supply : s'.total_supply = s.total_supply
  total_minted : s'.total_minted = s.total_minted
  total_burned : s'.total_burned = s.total_burned
  shielded_pool_balance : s'.shielded_pool_balance = s.shielded_pool_balance
  nullifier_spent : s'.nullifier_spent = s.nullifier_spent
  nonce : s'.nonce = s.nonce
  clawback_proposal : s'.clawback_proposal = s.clawback_proposal

def Piece.Does (env : Env) (s s' : TokenState) : Piece → Prop
  | .other => Beside s s'
  | .spend from_ amount => spend_balance env s from_ amount = .ok s'
  | .receive to_ amount => receive_balance env s to_ amount = .ok s'
  | .increment_supply amount => Token.increment_supply s amount = .ok s'
  | .decrement_supply amount => Token.decrement_supply s amount = .ok s'
  | .pool change => { s with shielded_pool_balance := s.shielded_pool_balance + change } = s'
  | .nullifier n => spend_nullifier s n = .ok s'
  | .nonce owner => { s with nonce := Function.update s.nonce owner (s.nonce owner + 1) } = s'
  | .proposal proposal_id p =>
    { s with clawback_proposal := Function.update s.clawback_proposal proposal_id (some p) } = s'

/-- One after the other. -/
def Does (env : Env) : List Piece → TokenState → TokenState → Prop
  | [], s, s' => s = s'
  | piece :: rest, s, s' => ∃ s₁, piece.Does env s s₁ ∧ Does env rest s₁ s'

/-- The owner's signature for the spender and the amount, under the nonce of the moment and before the deadline. -/
def PermitValid (X : TokenHost) (env : Env) (s : TokenState) (owner spender : Address) (amount : Int)
    (deadline : Nat) (signature : BytesN 64) : Prop :=
  env.timestamp ≤ deadline ∧ ∃ digest pk,
    build_permit_digest X owner spender amount (s.nonce owner) deadline = .ok digest ∧
    address_to_32bytes X owner = .ok pk ∧ X.ed25519_verify pk digest signature = true

/-- The spender has signed, and may take as much. -/
def Allowed (env : Env) (s : TokenState) (from_ spender : Address) (amount : Int) : Prop :=
  env.auths spender = true ∧ amount ≤ (read_allowance_amount env s from_ spender).1

/-- What an accepted call has checked, and the pieces it is made of. -/
def Call.Made (X : TokenHost) (env : Env) (s : TokenState) (pieces : List Piece) : Call → Prop
  | .transfer from_ to_ amount =>
    env.auths from_ = true ∧ 0 ≤ amount ∧ [.spend from_ amount, .receive to_ amount] = pieces
  | .transfer_from spender from_ to_ amount =>
    Allowed env s from_ spender amount ∧ 0 ≤ amount ∧ [.other, .spend from_ amount, .receive to_ amount] = pieces
  | .burn from_ amount =>
    env.auths from_ = true ∧ [.spend from_ amount, .decrement_supply amount, .other] = pieces
  | .burn_from spender from_ amount =>
    Allowed env s from_ spender amount ∧ [.other, .spend from_ amount, .decrement_supply amount, .other] = pieces
  | .mint to_ amount => 0 ≤ amount ∧ [.receive to_ amount, .increment_supply amount] = pieces
  | .propose_clawback .. => ∃ proposal_id proposal, 0 < proposal.amount ∧
    [.proposal proposal_id proposal, .other] = pieces
  | .approve_clawback proposal_id => ∃ proposal approvals, s.clawback_proposal proposal_id = some proposal ∧
    [.proposal proposal_id { proposal with approvals := approvals }] = pieces
  | .execute_clawback proposal_id => ∃ proposal, s.clawback_proposal proposal_id = some proposal ∧
    [.other, .spend proposal.target proposal.amount, .decrement_supply proposal.amount,
      .proposal proposal_id { proposal with executed := true }, .other] = pieces
  | .permit owner spender amount deadline signature =>
    0 ≤ amount ∧ PermitValid X env s owner spender amount deadline signature ∧ [.nonce owner, .other] = pieces
  | .transfer_with_permit owner spender to_ amount deadline signature =>
    0 ≤ amount ∧ PermitValid X env s owner spender amount deadline signature ∧
      [.nonce owner, .other, .other, .spend owner amount, .receive to_ amount] = pieces
  | .batch_transfer from_ transfers => env.auths from_ = true ∧ (∀ t ∈ transfers, 0 ≤ t.2) ∧
    (transfers.flatMap fun t => [.spend from_ t.2, .receive t.1 t.2]) = pieces
  | .batch_mint mints => (∀ t ∈ mints, 0 ≤ t.2) ∧
    (mints.flatMap fun t => [.receive t.1 t.2, .increment_supply t.2]) = pieces
  | .shield from_ amount _ =>
    env.auths from_ = true ∧ 0 < amount ∧ [.spend from_ amount, .pool amount, .other] = pieces
  | .transfer_shielded nullifiers _ public_fee =>
    0 ≤ public_fee ∧ (public_fee ≤ s.shielded_pool_balance ∨ public_fee = 0) ∧
      nullifiers.map .nullifier ++ [.other, .pool (-public_fee)] = pieces
  | .unshield to_ amount nullifier _ => 0 < amount ∧ amount ≤ s.shielded_pool_balance ∧
    [.nullifier nullifier, .other, .pool (-amount), .receive to_ amount] = pieces
  | _ => [.other] = pieces

section
variable {X : TokenHost} {env : Env} {s s' s'' : TokenState} {from_ to_ spender : Address} {amount a b : Int}
  {piece : Piece} {pieces rest : List Piece}

/-! ## Composition -/

theorem Beside.refl : Beside s s := by
  constructor <;> rfl

theorem Beside.trans (h : Beside s s') (h' : Beside s' s'') : Beside s s'' :=
  ⟨h'.balance.trans h.balance, h'.checkpoints.trans h.checkpoints, h'.total_supply.trans h.total_supply,
    h'.total_minted.trans h.total_minted, h'.total_burned.trans h.total_burned,
    h'.shielded_pool_balance.trans h.shielded_pool_balance, h'.nullifier_spent.trans h.nullifier_spent,
    h'.nonce.trans h.nonce, h'.clawback_proposal.trans h.clawback_proposal⟩

theorem Does.nil : Does env [] s s := rfl

theorem Does.one (h : piece.Does env s s') : Does env [piece] s s' := ⟨s', h, rfl⟩

theorem Does.cons (h : piece.Does env s s') (hrest : Does env rest s' s'') : Does env (piece :: rest) s s'' :=
  ⟨s', h, hrest⟩

theorem Does.append (h : Does env pieces s s') (hrest : Does env rest s' s'') :
    Does env (pieces ++ rest) s s'' := by
  induction pieces generalizing s with
  | nil =>
    cases h
    exact hrest
  | cons piece pieces ih =>
    obtain ⟨s₁, hpiece, h⟩ := h
    exact ⟨s₁, hpiece, ih h⟩

theorem for_each_induction {α : Type} {f : TokenState → α → Outcome TokenError TokenState} {items : List α}
    {R : TokenState → TokenState → Prop} (hrefl : ∀ s, R s s) (htrans : ∀ s s' s'', R s s' → R s' s'' → R s s'')
    (hf : ∀ item ∈ items, ∀ s s', f s item = .ok s' → R s s') (h : for_each f s items = .ok s') : R s s' := by
  induction items generalizing s with
  | nil =>
    cases h
    exact hrefl _
  | cons item rest ih =>
    obtain ⟨s₁, h₁, hrest⟩ := bind_eq_ok.mp h
    rw [List.forall_mem_cons] at hf
    exact htrans s s₁ s' (hf.1 s s₁ h₁) (ih hf.2 hrest)

theorem for_each_beside {α : Type} {f : TokenState → α → Outcome TokenError TokenState} {items : List α}
    (hf : ∀ s item s', f s item = .ok s' → Beside s s') (h : for_each f s items = .ok s') : Beside s s' :=
  for_each_induction (fun _ => .refl) (fun _ _ _ => .trans) (fun item _ s s' => hf s item s') h

theorem for_each_does {α : Type} {f : TokenState → α → Outcome TokenError TokenState} {items : List α}
    {made : α → List Piece} (hf : ∀ s item s', f s item = .ok s' → Does env (made item) s s')
    (h : for_each f s items = .ok s') : Does env (items.flatMap made) s s' := by
  induction items generalizing s with
  | nil =>
    cases h
    exact .nil
  | cons item rest ih =>
    obtain ⟨s₁, h₁, hrest⟩ := bind_eq_ok.mp h
    rw [List.flatMap_cons]
    exact (hf s item s₁ h₁).append (ih hrest)

/-! ## Numbers -/

theorem sum_flatMap_eq_zero {α : Type} {items : List α} {made : α → List Piece} {f : Piece → Int}
    (hmade : ∀ item, ((made item).map f).sum = 0) : ((items.flatMap made).map f).sum = 0 := by
  induction items with
  | nil => rfl
  | cons item rest ih => rw [List.flatMap_cons, List.map_append, List.sum_append, hmade, ih, add_zero]

@[simp] theorem i128_eq_ok : i128 a = .ok b ↔ (-2 ^ 127 ≤ a ∧ a < 2 ^ 127) ∧ a = b := by
  simp [i128]

@[simp] theorem i128_op_eq_ok : i128_op a = .ok b ↔ (-2 ^ 127 ≤ a ∧ a < 2 ^ 127) ∧ a = b := by
  simp [i128_op]

theorem batch_total_nonneg {transfers : List (Address × Int)} {start sum : Int}
    (h : batch_total start transfers = .ok sum) : ∀ t ∈ transfers, 0 ≤ t.2 := by
  induction transfers generalizing start with
  | nil => simp
  | cons t rest ih =>
    simp only [batch_total, bind_eq_ok, require_eq_ok] at h
    obtain ⟨-, hnonneg, next, -, hrest⟩ := h
    rw [List.forall_mem_cons]
    exact ⟨by omega, ih hrest⟩

theorem sum_map_nullifier {nullifiers : List (BytesN 32)} {f : Piece → Int} (hf : ∀ n, f (.nullifier n) = 0) :
    ((nullifiers.map .nullifier).map f).sum = 0 := by
  induction nullifiers with
  | nil => rfl
  | cons n rest ih => rw [List.map_cons, List.map_cons, List.sum_cons, hf, ih, add_zero]

/-! ## Allowances -/

theorem read_allowance_eq : ∃ f, (read_allowance env s from_ spender).2 = { s with allowance := f } := by
  unfold read_allowance
  split
  · split
    · exact ⟨s.allowance, rfl⟩
    · exact ⟨_, rfl⟩
  · exact ⟨s.allowance, rfl⟩

theorem write_allowance_eq {expiration_ledger : Nat} :
    ∃ f, write_allowance s from_ spender amount expiration_ledger = { s with allowance := f } := by
  unfold write_allowance
  split <;> exact ⟨_, rfl⟩

theorem rewrite_allowance_eq {expiration_ledger : Nat} :
    ∃ f, write_allowance (read_allowance env s from_ spender).2 from_ spender amount expiration_ledger =
      { s with allowance := f } := by
  obtain ⟨f, hread⟩ : ∃ f, (read_allowance env s from_ spender).2 = { s with allowance := f } := read_allowance_eq
  rw [hread]
  exact write_allowance_eq

theorem Beside.of_allowance (h : ∃ f, s' = { s with allowance := f }) : Beside s s' := by
  obtain ⟨f, rfl⟩ := h
  constructor <;> rfl

theorem spend_allowance_eq (h : spend_allowance env s from_ spender amount = .ok s') :
    amount ≤ (read_allowance_amount env s from_ spender).1 ∧ Beside s s' := by
  simp [spend_allowance] at h
  obtain ⟨hle, -, rfl⟩ := h
  exact ⟨hle, .of_allowance rewrite_allowance_eq⟩

theorem check_approval_beside {approval : Approval} (h : check_approval env from_ s approval = .ok s') :
    Beside s s' := by
  simp [check_approval, read_allowance_amount] at h
  obtain ⟨-, -, rfl⟩ := h
  exact .of_allowance read_allowance_eq

/-! ## Helpers of the entry points -/

theorem xfer_does (h : xfer env s from_ to_ amount = .ok s') :
    Does env [.spend from_ amount, .receive to_ amount] s s' := by
  obtain ⟨s₁, hspend, hreceive⟩ := bind_eq_ok.mp h
  exact .cons hspend (.one hreceive)

theorem mint_balance_does (h : mint_balance env s to_ amount = .ok s') :
    Does env [.receive to_ amount, .increment_supply amount] s s' := by
  obtain ⟨s₁, hreceive, hmint⟩ := bind_eq_ok.mp h
  exact .cons hreceive (.one hmint)

theorem burn_balance_does (h : burn_balance env s from_ amount = .ok s') :
    Does env [.spend from_ amount, .decrement_supply amount, .other] s s' := by
  simp only [burn_balance, bind_eq_ok, store_burn_record, orPanic_eq_ok, pure_eq_ok] at h
  obtain ⟨s₁, hspend, s₂, hburn, count, -, rfl⟩ := h
  exact .cons hspend (.cons hburn (.one (by constructor <;> rfl)))

theorem insert_commitment_beside {commitment : BytesN 32} (h : insert_commitment s commitment = .ok s') :
    Beside s s' := by
  simp [insert_commitment] at h
  obtain ⟨-, rfl⟩ := h
  constructor <;> rfl

theorem spend_nullifiers_does {nullifiers : List (BytesN 32)} (h : for_each spend_nullifier s nullifiers = .ok s') :
    s'.shielded_pool_balance = s.shielded_pool_balance ∧ Does env (nullifiers.map .nullifier) s s' := by
  constructor
  · refine for_each_induction (R := fun s s' => s'.shielded_pool_balance = s.shielded_pool_balance)
      (fun _ => rfl) (fun _ _ _ h h' => h'.trans h) (fun n _ s s' hn => ?_) h
    simp [spend_nullifier] at hn
    obtain ⟨-, rfl⟩ := hn
    rfl
  · rw [List.map_eq_flatMap]
    exact for_each_does (fun _ _ _ hn => .one hn) h

theorem get_clawback_period_total_eq : ∃ total start, (get_clawback_period_total env s).2 =
    { s with clawback_period_total := total, clawback_period_start := start } := by
  unfold get_clawback_period_total
  dsimp only
  split
  · exact ⟨_, _, rfl⟩
  · exact ⟨s.clawback_period_total, s.clawback_period_start, rfl⟩

theorem pay_public_fee_does {public_fee : Int} (hnonneg : ¬ public_fee < 0)
    (h : pay_public_fee s public_fee = .ok s') : (public_fee ≤ s.shielded_pool_balance ∨ public_fee = 0) ∧
      Piece.Does env s s' (.pool (-public_fee)) := by
  unfold pay_public_fee at h
  split at h
  · simp at h
    obtain ⟨hcovered, -, rfl⟩ := h
    exact ⟨.inl hcovered, rfl⟩
  · cases h
    obtain rfl : public_fee = 0 := by omega
    exact ⟨.inr rfl, by simp [Piece.Does]⟩

/-! ## Steps -/

theorem permit_made {owner : Address} {deadline : Nat} {signature : BytesN 64}
    (h : permit X env s owner spender amount deadline signature = .ok s') :
    0 ≤ amount ∧ PermitValid X env s owner spender amount deadline signature ∧
      Does env [.nonce owner, .other] s s' := by
  simp [permit, increment_nonce, read_allowance_amount] at h
  obtain ⟨hamount, hdeadline, digest, hdigest, pk, hpk, hverify, -, -, rfl⟩ := h
  exact ⟨hamount, ⟨hdeadline, digest, pk, hdigest, hpk, hverify⟩,
    .cons rfl (.one (.of_allowance rewrite_allowance_eq))⟩

theorem execute_clawback_made {proposal_id : Nat} (h : execute_clawback env s proposal_id = .ok s') :
    ∃ p, s.clawback_proposal proposal_id = some p ∧
      Does env [.other, .spend p.target p.amount, .decrement_supply p.amount,
        .proposal proposal_id { p with executed := true }, .other] s s' := by
  simp only [execute_clawback, bind_eq_ok, require_eq_ok, orPanic_eq_ok, pure_eq_ok, store_clawback_record] at h
  obtain ⟨-, -, p, hfound, -, -, -, -, -, -, new_total, -, -, -, s₁, hspend, s₂, hburn, count, -, rfl⟩ := h
  have hperiod : Beside s (set_clawback_period_total env (get_clawback_period_total env s).2 new_total) := by
    obtain ⟨total, start, heq⟩ : ∃ total start, (get_clawback_period_total env s).2 =
      { s with clawback_period_total := total, clawback_period_start := start } := get_clawback_period_total_eq
    rw [heq]
    constructor <;> rfl
  refine ⟨p, hfound, .cons hperiod (.cons hspend (.cons hburn (.cons rfl (.one ?_))))⟩
  constructor <;> rfl

theorem unshield_made {nullifier remainder_commitment : BytesN 32}
    (h : unshield env s to_ amount nullifier remainder_commitment = .ok s') :
    0 < amount ∧ amount ≤ s.shielded_pool_balance ∧
      Does env [.nullifier nullifier, .other, .pool (-amount), .receive to_ amount] s s' := by
  simp only [unshield, bind_eq_ok, require_eq_ok, i128_op_eq_ok] at h
  obtain ⟨-, hamount, -, hcovered, s₁, hnullifier, s₂, hinsert, -, ⟨-, rfl⟩, hreceive⟩ := h
  have hbeside := insert_commitment_beside hinsert
  have hpool : s₂.shielded_pool_balance = s.shielded_pool_balance := by
    rw [hbeside.shielded_pool_balance]
    simp [spend_nullifier] at hnullifier
    obtain ⟨-, rfl⟩ := hnullifier
    rfl
  rw [← hpool] at hreceive
  exact ⟨by omega, by omega, .cons hnullifier (.cons hbeside (.cons rfl (.one hreceive)))⟩

theorem step_pieces {call : Call} (h : step X s env call = .ok s') :
    ∃ pieces, call.Made X env s pieces ∧ Does env pieces s s' := by
  cases call with
  | set_admin =>
    simp [step, set_admin] at h
    obtain ⟨-, rfl⟩ := h
    exact ⟨_, rfl, .one (by constructor <;> rfl)⟩
  | set_checkpoint_retention =>
    simp [step, set_checkpoint_retention] at h
    obtain ⟨-, rfl⟩ := h
    exact ⟨_, rfl, .one (by constructor <;> rfl)⟩
  | set_max_supply =>
    simp [step, set_max_supply] at h
    obtain ⟨-, -, rfl⟩ := h
    exact ⟨_, rfl, .one (by constructor <;> rfl)⟩
  | allowance =>
    simp [step, allowance, read_allowance_amount] at h
    subst h
    exact ⟨_, rfl, .one (.of_allowance read_allowance_eq)⟩
  | approve =>
    simp [step, approve, read_allowance_amount] at h
    obtain ⟨-, -, rfl⟩ := h
    exact ⟨_, rfl, .one (.of_allowance rewrite_allowance_eq)⟩
  | increase_allowance =>
    simp [step, increase_allowance] at h
    obtain ⟨-, -, -, rfl⟩ := h
    exact ⟨_, rfl, .one (.of_allowance rewrite_allowance_eq)⟩
  | decrease_allowance =>
    simp only [step, decrease_allowance, bind_eq_ok, pure_eq_ok] at h
    obtain ⟨-, -, -, -, new, -, rfl⟩ := h
    exact ⟨_, rfl, .one (.of_allowance rewrite_allowance_eq)⟩
  | transfer from_ to_ amount =>
    simp only [step, transfer, bind_eq_ok, require_auth_eq_ok, require_eq_ok] at h
    obtain ⟨-, hauth, -, hamount, hxfer⟩ := h
    exact ⟨_, ⟨hauth, by omega, rfl⟩, xfer_does hxfer⟩
  | transfer_from spender from_ to_ amount =>
    simp only [step, transfer_from, bind_eq_ok, require_auth_eq_ok, require_eq_ok] at h
    obtain ⟨-, hauth, -, hamount, s₁, hallowance, hxfer⟩ := h
    obtain ⟨hle, hbeside⟩ := spend_allowance_eq hallowance
    exact ⟨_, ⟨⟨hauth, hle⟩, by omega, rfl⟩, .cons hbeside (xfer_does hxfer)⟩
  | burn =>
    simp only [step, burn, bind_eq_ok, require_auth_eq_ok] at h
    obtain ⟨-, hauth, -, -, hburn⟩ := h
    exact ⟨_, ⟨hauth, rfl⟩, burn_balance_does hburn⟩
  | burn_from spender from_ amount =>
    simp only [step, burn_from, bind_eq_ok, require_auth_eq_ok] at h
    obtain ⟨-, hauth, -, -, s₁, hallowance, hburn⟩ := h
    obtain ⟨hle, hbeside⟩ := spend_allowance_eq hallowance
    exact ⟨_, ⟨⟨hauth, hle⟩, rfl⟩, .cons hbeside (burn_balance_does hburn)⟩
  | mint =>
    simp only [step, mint, bind_eq_ok, require_eq_ok] at h
    obtain ⟨-, -, -, hamount, -, -, hmint⟩ := h
    exact ⟨_, ⟨by omega, rfl⟩, mint_balance_does hmint⟩
  | set_governors =>
    simp [step, set_governors] at h
    obtain ⟨-, -, rfl⟩ := h
    exact ⟨_, rfl, .one (by constructor <;> rfl)⟩
  | propose_clawback target amount reason =>
    simp [step, propose_clawback] at h
    obtain ⟨-, hamount, -, rfl⟩ := h
    refine ⟨_, ⟨_, _, ?_, rfl⟩, .cons rfl (.one (by constructor <;> rfl))⟩
    exact hamount
  | approve_clawback proposal_id =>
    simp [step, approve_clawback] at h
    obtain ⟨-, proposal, hfound, -, -, -, rfl⟩ := h
    exact ⟨_, ⟨proposal, _, hfound, rfl⟩, .one rfl⟩
  | execute_clawback proposal_id =>
    obtain ⟨proposal, hfound, hdoes⟩ := execute_clawback_made h
    exact ⟨_, ⟨proposal, hfound, rfl⟩, hdoes⟩
  | set_clawback_period_limit =>
    simp [step, set_clawback_period_limit] at h
    obtain ⟨-, rfl⟩ := h
    exact ⟨_, rfl, .one (by constructor <;> rfl)⟩
  | permit =>
    obtain ⟨hamount, hvalid, hdoes⟩ := permit_made h
    exact ⟨_, ⟨hamount, hvalid, rfl⟩, hdoes⟩
  | transfer_with_permit =>
    simp only [step, transfer_with_permit, bind_eq_ok] at h
    obtain ⟨s₁, hpermit, s₂, hallowance, hxfer⟩ := h
    obtain ⟨hamount, hvalid, hdoes⟩ := permit_made hpermit
    exact ⟨_, ⟨hamount, hvalid, rfl⟩, hdoes.append (.cons (spend_allowance_eq hallowance).2 (xfer_does hxfer))⟩
  | delegate =>
    simp [step, delegate] at h
    obtain ⟨-, -, rfl⟩ := h
    exact ⟨_, rfl, .one (by constructor <;> rfl)⟩
  | undelegate =>
    simp [step, undelegate] at h
    obtain ⟨-, rfl⟩ := h
    exact ⟨_, rfl, .one (by constructor <;> rfl)⟩
  | batch_transfer =>
    simp only [step, batch_transfer, bind_eq_ok, require_auth_eq_ok] at h
    obtain ⟨-, hauth, -, -, sum, htotal, -, -, hxfers⟩ := h
    exact ⟨_, ⟨hauth, batch_total_nonneg htotal, rfl⟩, for_each_does (fun _ _ _ => xfer_does) hxfers⟩
  | batch_mint =>
    simp only [step, batch_mint, bind_eq_ok] at h
    obtain ⟨-, -, -, -, sum, htotal, -, -, hmints⟩ := h
    exact ⟨_, ⟨batch_total_nonneg htotal, rfl⟩, for_each_does (fun _ _ _ => mint_balance_does) hmints⟩
  | batch_approve =>
    simp only [step, batch_approve, bind_eq_ok] at h
    obtain ⟨-, -, -, -, s₁, hchecked, happroved⟩ := h
    have hread : Beside s s₁ := for_each_beside (fun _ _ _ => check_approval_beside) hchecked
    refine ⟨_, rfl, .one (hread.trans (for_each_beside (fun s item s' hs => ?_) happroved))⟩
    cases hs
    exact .of_allowance write_allowance_eq
  | shield =>
    simp only [step, shield, bind_eq_ok, require_eq_ok, require_auth_eq_ok, i128_eq_ok] at h
    obtain ⟨-, hauth, -, hamount, -, -, s₁, hspend, -, ⟨-, rfl⟩, hinsert⟩ := h
    exact ⟨_, ⟨hauth, by omega, rfl⟩, .cons hspend (.cons rfl (.one (insert_commitment_beside hinsert)))⟩
  | transfer_shielded nullifiers commitments public_fee =>
    simp only [step, transfer_shielded, bind_eq_ok, require_eq_ok] at h
    obtain ⟨-, hnonneg, s₁, hnullifiers, s₂, hcommitments, hfee⟩ := h
    obtain ⟨hpool, hspent⟩ := spend_nullifiers_does hnullifiers
    have hinserted : Beside s₁ s₂ := for_each_beside (fun _ _ _ => insert_commitment_beside) hcommitments
    obtain ⟨hcovered, hpaid⟩ := pay_public_fee_does hnonneg hfee
    rw [hinserted.shielded_pool_balance, hpool] at hcovered
    exact ⟨_, ⟨by omega, hcovered, rfl⟩, hspent.append (.cons hinserted (.one hpaid))⟩
  | unshield =>
    obtain ⟨hamount, hcovered, hdoes⟩ := unshield_made h
    exact ⟨_, ⟨hamount, hcovered, rfl⟩, hdoes⟩

end

end ZkVote.Token

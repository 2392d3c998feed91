import Mathlib.Data.Finset.Card
import ZkVote.Token.Supply

/-!
# The token: who has signed for a debit

A balance falls in a call that its owner has signed, or a spender with an allowance. Two entry
points ask neither: `execute_clawback` and `transfer_with_permit`.
-/

open Lib Lib.Outcome

namespace ZkVote.Token

/-- The account has signed the call, or a spender that may take as much from it now. -/
def Signed (env : Env) (s : TokenState) (a : Address) (amount : Int) : Prop :=
  env.auths a = true ∨ ∃ spender, env.auths spender = true ∧ amount ≤ (read_allowance_amount env s a spender).1

/-- Of the present governors, as many have approved as must, and one at least. -/
def QuorumReached (s : TokenState) (proposal : ClawbackProposal) : Prop :=
  0 < s.required_approvals ∧ s.required_approvals ≤ (proposal.approvals.toFinset ∩ s.governors.toFinset).card

/-- It uses up a permit of the account. -/
def Call.permits (a : Address) : Call → Prop
  | .permit owner .. | .transfer_with_permit owner .. => owner = a
  | _ => False

/-- The account's present nonce has signed for no earlier call. -/
def NonceUnused (before : List (TokenState × Env × Call)) (s : TokenState) (a : Address) : Prop :=
  ∀ e ∈ before, e.2.2.permits a → e.1.nonce a ≠ s.nonce a

/-- A permit of the account is spent on the one it names, who is the recipient. -/
def Permitted (X : TokenHost) (before : List (TokenState × Env × Call)) (env : Env) (s : TokenState)
    (a : Address) : Call → Prop
  | .transfer_with_permit owner spender to_ amount deadline signature =>
    owner = a ∧ spender = to_ ∧ PermitValid X env s owner spender amount deadline signature ∧
      NonceUnused before s a
  | _ => False

def ClawedBack (s : TokenState) (a : Address) : Call → Prop
  | .execute_clawback proposal_id =>
    ∃ proposal, s.clawback_proposal proposal_id = some proposal ∧ proposal.target = a ∧ QuorumReached s proposal
  | _ => False

/-- Every balance that the last call has lowered was signed for, permitted or clawed back. -/
def DebitsAuthorised (X : TokenHost) : List (TokenState × Env × Call) → TokenState → Prop
  | [], _ => True
  | (s, env, call) :: before, s' => ∀ a, s'.balance a < s.balance a →
    Signed env s a (s.balance a - s'.balance a) ∨ Permitted X before env s a call ∨ ClawedBack s a call

/-- A clawback has its quorum and a permit pays the spender it names, unless the debit is signed for or is none. -/
def Sanctioned (s : TokenState) (call : Env × Call) : Prop :=
  match call.2 with
  | .execute_clawback proposal_id => ∃ proposal, s.clawback_proposal proposal_id = some proposal ∧
    (QuorumReached s proposal ∨ Signed call.1 s proposal.target proposal.amount)
  | .transfer_with_permit owner spender to_ amount _ _ =>
    owner = to_ ∨ amount = 0 ∨ spender = to_ ∨ Signed call.1 s owner amount
  | _ => True

/-- It asks neither the owner of what it takes nor a spender. -/
def Call.unsigned : Call → Bool
  | .execute_clawback _ | .transfer_with_permit .. => true
  | _ => false

/-- A piece of a call takes `amount` at most, from nobody but `from_`. -/
structure Debits (from_ : Address) (amount : Int) (s s' : TokenState) : Prop where
  owner : s.balance from_ - amount ≤ s'.balance from_
  others : ∀ a, a ≠ from_ → s.balance a ≤ s'.balance a
  nonce : s'.nonce = s.nonce
  clawback_proposal : s'.clawback_proposal = s.clawback_proposal

section
variable {X : TokenHost} {env : Env} {s s' s'' : TokenState} {from_ to_ spender : Address} {amount : Int}

/-! ## Composition -/

theorem Debits.of_same (hbalance : s'.balance = s.balance) (hnonce : s'.nonce = s.nonce)
    (hproposal : s'.clawback_proposal = s.clawback_proposal) : Debits from_ 0 s s' := by
  refine ⟨?_, fun a _ => ?_, hnonce, hproposal⟩
  · rw [hbalance, sub_zero]
  · rw [hbalance]

theorem Debits.refl : Debits from_ 0 s s := .of_same rfl rfl rfl

theorem Debits.trans {m n : Int} (h : Debits from_ m s s') (h' : Debits from_ n s' s'') :
    Debits from_ (m + n) s s'' where
  owner := by
    have hfirst := h.owner
    have hsecond := h'.owner
    omega
  others := fun a ha => (h.others a ha).trans (h'.others a ha)
  nonce := h'.nonce.trans h.nonce
  clawback_proposal := h'.clawback_proposal.trans h.clawback_proposal

/-! ## Balances -/

/-- The balance of `from_` becomes `balance`; nonces and proposals stay. -/
structure SetsBalance (from_ : Address) (balance : Int) (s s' : TokenState) : Prop where
  balance : s'.balance = Function.update s.balance from_ balance
  nonce : s'.nonce = s.nonce
  clawback_proposal : s'.clawback_proposal = s.clawback_proposal

theorem SetsBalance.refl : SetsBalance from_ (s.balance from_) s s :=
  ⟨(Function.update_eq_self from_ s.balance).symm, rfl, rfl⟩

theorem receive_balance_sets (h : receive_balance env s to_ amount = .ok s') :
    SetsBalance to_ (s.balance to_ + amount) s s' := by
  unfold receive_balance at h
  split at h
  · rename_i h0
    cases h
    rw [h0, add_zero]
    exact .refl
  · simp at h
    obtain ⟨-, rfl⟩ := h
    exact ⟨rfl, rfl, rfl⟩

theorem spend_balance_sets (h : spend_balance env s from_ amount = .ok s') :
    SetsBalance from_ (s.balance from_ - amount) s s' := by
  unfold spend_balance at h
  split at h
  · rename_i h0
    cases h
    rw [h0, sub_zero]
    exact .refl
  · simp at h
    obtain ⟨-, -, rfl⟩ := h
    exact ⟨rfl, rfl, rfl⟩

theorem receive_balance_debits (hamount : 0 ≤ amount) (h : receive_balance env s to_ amount = .ok s') :
    Debits from_ 0 s s' := by
  have hsets := receive_balance_sets h
  have hle (a : Address) : s.balance a ≤ s'.balance a := by
    rw [hsets.balance, Function.update_apply]
    split
    · rename_i ha
      subst ha
      omega
    · exact le_rfl
  refine ⟨?_, fun a _ => hle a, hsets.nonce, hsets.clawback_proposal⟩
  rw [sub_zero]
  exact hle from_

theorem spend_balance_debits (h : spend_balance env s from_ amount = .ok s') : Debits from_ amount s s' := by
  have hsets := spend_balance_sets h
  refine ⟨?_, fun a ha => ?_, hsets.nonce, hsets.clawback_proposal⟩
  · rw [hsets.balance, Function.update_self]
  · rw [hsets.balance, Function.update_of_ne ha]

/-- What is sent to oneself is not lost. -/
theorem spend_receive_from (hspend : spend_balance env s from_ amount = .ok s')
    (hreceive : receive_balance env s' to_ amount = .ok s'') :
    s''.balance from_ = if from_ = to_ then s.balance from_ else s.balance from_ - amount := by
  rw [(receive_balance_sets hreceive).balance, (spend_balance_sets hspend).balance]
  split
  · rename_i hself
    subst hself
    rw [Function.update_self, Function.update_self, sub_add_cancel]
  · rename_i hother
    rw [Function.update_of_ne hother, Function.update_self]

/-! ## Pieces -/

/-- It takes from nobody else, and leaves nonces and proposals. -/
def Piece.TakesFrom (from_ : Address) : Piece → Prop
  | .spend owner _ => owner = from_
  | .receive _ amount => 0 ≤ amount
  | .nonce _ | .proposal .. => False
  | _ => True

def Piece.taken : Piece → Int
  | .spend _ amount => amount
  | _ => 0

theorem Piece.Does.debits {piece : Piece} (htakes : piece.TakesFrom from_) (h : piece.Does env s s') :
    Debits from_ piece.taken s s' := by
  cases piece with
  | other => exact .of_same h.balance h.nonce h.clawback_proposal
  | spend owner amount =>
    cases htakes
    exact spend_balance_debits h
  | receive to_ amount => exact receive_balance_debits htakes h
  | increment_supply amount =>
    simp [Piece.Does, Token.increment_supply] at h
    obtain ⟨-, -, rfl⟩ := h
    exact .of_same rfl rfl rfl
  | decrement_supply amount =>
    simp [Piece.Does, Token.decrement_supply] at h
    obtain ⟨-, -, -, rfl⟩ := h
    exact .of_same rfl rfl rfl
  | pool change =>
    cases h
    exact .of_same rfl rfl rfl
  | nullifier n =>
    simp [Piece.Does, spend_nullifier] at h
    obtain ⟨-, rfl⟩ := h
    exact .of_same rfl rfl rfl
  | nonce | proposal => cases htakes

theorem Does.debits {pieces : List Piece} (htakes : ∀ piece ∈ pieces, piece.TakesFrom from_)
    (h : Does env pieces s s') : Debits from_ (pieces.map Piece.taken).sum s s' := by
  induction pieces generalizing s with
  | nil =>
    cases h
    exact .refl
  | cons piece pieces ih =>
    rw [List.forall_mem_cons] at htakes
    obtain ⟨s₁, hpiece, hrest⟩ := h
    rw [List.map_cons, List.sum_cons]
    exact (Piece.Does.debits htakes.1 hpiece).trans (ih htakes.2 hrest)

/-! ## Permits and clawbacks -/

/-- What an accepted permit has checked, and all it changes but the allowance. -/
structure PermitSpent (X : TokenHost) (env : Env) (s : TokenState) (owner spender : Address) (amount : Int)
    (deadline : Nat) (signature : BytesN 64) (s' : TokenState) : Prop where
  amount_nonneg : ¬ amount < 0
  valid : PermitValid X env s owner spender amount deadline signature
  balance : s'.balance = s.balance
  nonce : s'.nonce = Function.update s.nonce owner (s.nonce owner + 1)
  clawback_proposal : s'.clawback_proposal = s.clawback_proposal

theorem permit_spent {owner : Address} {deadline : Nat} {signature : BytesN 64} (hamount : 0 ≤ amount)
    (hvalid : PermitValid X env s owner spender amount deadline signature)
    (h : Does env [.nonce owner, .other] s s') :
    PermitSpent X env s owner spender amount deadline signature s' := by
  obtain ⟨s₁, rfl, s₂, hbeside, rfl⟩ := h
  exact ⟨by omega, hvalid, hbeside.balance, hbeside.nonce, hbeside.clawback_proposal⟩

theorem transfer_with_permit_spent {owner : Address} {deadline : Nat} {signature : BytesN 64}
    (h : step X s env (.transfer_with_permit owner spender to_ amount deadline signature) = .ok s') :
    ∃ s₁, PermitSpent X env s owner spender amount deadline signature s₁ ∧ Debits owner amount s₁ s' ∧
      s'.balance owner = if owner = to_ then s.balance owner else s.balance owner - amount := by
  obtain ⟨pieces, ⟨hamount, hvalid, rfl⟩, s₁, hnonce, s₂, hother, hxfer⟩ := step_pieces h
  have hspent := permit_spent hamount hvalid (.cons hnonce (.one hother))
  have hdebits : Debits owner ([Piece.other, .spend owner amount, .receive to_ amount].map Piece.taken).sum s₂ s' :=
    hxfer.debits (by simp [Piece.TakesFrom, hamount])
  refine ⟨s₂, hspent, by simpa [Piece.taken] using hdebits, ?_⟩
  obtain ⟨s₃, hbeside, s₄, hspend, s₅, hreceive, rfl⟩ := hxfer
  rw [spend_receive_from hspend hreceive, hbeside.balance, hspent.balance]

/-- A clawback that is executed takes what it says, and is marked. -/
structure Executed (s : TokenState) (proposal_id : Nat) (proposal : ClawbackProposal) (s' : TokenState) :
    Prop where
  found : s.clawback_proposal proposal_id = some proposal
  balance : s'.balance =
    Function.update s.balance proposal.target (s.balance proposal.target - proposal.amount)
  nonce : s'.nonce = s.nonce
  clawback_proposal : s'.clawback_proposal =
    Function.update s.clawback_proposal proposal_id (some { proposal with executed := true })

theorem execute_clawback_executed {proposal_id : Nat}
    (h : step X s env (.execute_clawback proposal_id) = .ok s') : ∃ proposal, Executed s proposal_id proposal s' := by
  obtain ⟨pieces, ⟨proposal, hfound, rfl⟩, s₁, hperiod, s₂, hspend, s₃, hburn, s₄, rfl, s₅, hrecord, rfl⟩ :=
    step_pieces h
  have hspent := spend_balance_sets hspend
  simp [Piece.Does, Token.decrement_supply] at hburn
  obtain ⟨-, -, -, rfl⟩ := hburn
  refine ⟨proposal, hfound, ?_, ?_, ?_⟩
  · rw [hrecord.balance, hspent.balance, hperiod.balance]
  · rw [hrecord.nonce, hspent.nonce, hperiod.nonce]
  · rw [hrecord.clawback_proposal, hspent.clawback_proposal, hperiod.clawback_proposal]

/-! ## Steps -/

/-- A clawback is only ever proposed of something. -/
def Proposed (s : TokenState) : Prop :=
  ∀ proposal_id proposal, s.clawback_proposal proposal_id = some proposal → 0 < proposal.amount

/-- What an accepted call does to the balances, the nonces and the proposals. -/
structure StepDebits (env : Env) (s : TokenState) (call : Call) (s' : TokenState) : Prop where
  signed : call.unsigned = false →
    ∀ a, s'.balance a < s.balance a → Signed env s a (s.balance a - s'.balance a)
  nonce : ∀ a, s.nonce a ≤ s'.nonce a
  permits : ∀ a, call.permits a → s.nonce a < s'.nonce a
  proposed : Proposed s → Proposed s'

theorem Proposed.of_same (hproposal : s'.clawback_proposal = s.clawback_proposal) (h : Proposed s) :
    Proposed s' := by
  unfold Proposed
  rw [hproposal]
  exact h

theorem Proposed.update {proposal_id : Nat} {proposal : ClawbackProposal} (h : Proposed s)
    (hamount : 0 < proposal.amount)
    (hproposal : s'.clawback_proposal = Function.update s.clawback_proposal proposal_id (some proposal)) :
    Proposed s' := by
  intro i p hp
  rw [hproposal, Function.update_apply] at hp
  split at hp
  · cases hp
    exact hamount
  · exact h i p hp

/-- A call that takes from one account, by leave of someone who has signed. -/
theorem StepDebits.of_debits {call : Call} (hpermits : ∀ a, ¬ call.permits a) (h : Debits from_ amount s s')
    (hsigned : ∀ n, 0 < n → n ≤ amount → Signed env s from_ n) : StepDebits env s call s' where
  signed := fun _ a ha => by
    by_cases hfrom : a = from_
    · subst hfrom
      have howner := h.owner
      exact hsigned _ (by omega) (by omega)
    · have hothers := h.others a hfrom
      omega
  nonce := fun a => h.nonce ▸ le_rfl
  permits := fun a ha => absurd ha (hpermits a)
  proposed := .of_same h.clawback_proposal

theorem StepDebits.of_credits {call : Call} (hpermits : ∀ a, ¬ call.permits a)
    (h : Debits s.admin 0 s s') : StepDebits env s call s' :=
  .of_debits hpermits h fun n hpos hle => by omega

theorem StepDebits.of_proposal {call : Call} (hpermits : ∀ a, ¬ call.permits a) (hbalance : s'.balance = s.balance)
    (hnonce : s'.nonce = s.nonce) (hproposed : Proposed s → Proposed s') : StepDebits env s call s' where
  signed := fun _ a ha => by
    rw [hbalance] at ha
    omega
  nonce := fun a => hnonce ▸ le_rfl
  permits := fun a ha => absurd ha (hpermits a)
  proposed := hproposed

theorem PermitSpent.step {owner : Address} {deadline : Nat} {signature : BytesN 64} {call : Call}
    (hpermits : ∀ a, call.permits a → owner = a)
    (h : PermitSpent X env s owner spender amount deadline signature s')
    {n : Int} (hdebits : Debits owner n s' s'') (hsigned : call.unsigned = false → s'' = s') :
    StepDebits env s call s'' where
  signed := fun hcall a ha => by
    rw [hsigned hcall, h.balance] at ha
    omega
  nonce := fun a => by
    rw [hdebits.nonce, h.nonce, Function.update_apply]
    split
    · rename_i ha
      subst ha
      omega
    · exact le_rfl
  permits := fun a ha => by
    obtain rfl := hpermits a ha
    rw [hdebits.nonce, h.nonce, Function.update_self]
    omega
  proposed := .of_same (hdebits.clawback_proposal.trans h.clawback_proposal)

theorem step_debits {call : Call} (h : step X s env call = .ok s') : StepDebits env s call s' := by
  obtain ⟨pieces, hmade, hdoes⟩ := step_pieces h
  cases call with
  | transfer from_ to_ amount =>
    obtain ⟨hauth, hamount, rfl⟩ := hmade
    exact .of_debits (fun _ => id) (hdoes.debits (by simp [Piece.TakesFrom, hamount])) fun _ _ _ => .inl hauth
  | transfer_from spender from_ to_ amount =>
    obtain ⟨⟨hauth, hle⟩, hamount, rfl⟩ := hmade
    have hdebits : Debits from_ _ s s' := hdoes.debits (by simp [Piece.TakesFrom, hamount])
    simp only [List.map_cons, List.map_nil, List.sum_cons, List.sum_nil, Piece.taken, add_zero, zero_add] at hdebits
    exact .of_debits (fun _ => id) hdebits fun n _ hn => .inr ⟨spender, hauth, hn.trans hle⟩
  | burn from_ amount =>
    obtain ⟨hauth, rfl⟩ := hmade
    exact .of_debits (fun _ => id) (hdoes.debits (by simp [Piece.TakesFrom])) fun _ _ _ => .inl hauth
  | burn_from spender from_ amount =>
    obtain ⟨⟨hauth, hle⟩, rfl⟩ := hmade
    have hdebits : Debits from_ _ s s' := hdoes.debits (by simp [Piece.TakesFrom])
    simp only [List.map_cons, List.map_nil, List.sum_cons, List.sum_nil, Piece.taken, add_zero, zero_add] at hdebits
    exact .of_debits (fun _ => id) hdebits fun n _ hn => .inr ⟨spender, hauth, hn.trans hle⟩
  | mint to_ amount =>
    obtain ⟨hamount, rfl⟩ := hmade
    exact .of_credits (fun _ => id) (hdoes.debits (by simp [Piece.TakesFrom, hamount]))
  | propose_clawback =>
    obtain ⟨proposal_id, proposal, hamount, rfl⟩ := hmade
    obtain ⟨s₁, rfl, s₂, hbeside, rfl⟩ := hdoes
    exact .of_proposal (fun _ => id) hbeside.balance hbeside.nonce fun hs =>
      hs.update hamount hbeside.clawback_proposal
  | approve_clawback proposal_id =>
    obtain ⟨proposal, approvals, hfound, rfl⟩ := hmade
    obtain ⟨s₁, rfl, rfl⟩ := hdoes
    refine .of_proposal (fun _ => id) rfl rfl fun hs => hs.update ?_ rfl
    exact hs _ proposal hfound
  | execute_clawback =>
    obtain ⟨proposal, hexecuted⟩ := execute_clawback_executed h
    refine ⟨fun hsigned => (by cases hsigned), fun a => hexecuted.nonce ▸ le_rfl, fun _ => False.elim, fun hs => ?_⟩
    refine hs.update ?_ hexecuted.clawback_proposal
    exact hs _ proposal hexecuted.found
  | permit =>
    obtain ⟨hamount, hvalid, rfl⟩ := hmade
    exact (permit_spent hamount hvalid hdoes).step (fun _ => id) .refl fun _ => rfl
  | transfer_with_permit =>
    obtain ⟨s₁, hspent, hdebits, -⟩ := transfer_with_permit_spent h
    exact hspent.step (fun _ => id) hdebits fun hsigned => (by cases hsigned)
  | batch_transfer from_ transfers =>
    obtain ⟨hauth, hnonneg, rfl⟩ := hmade
    refine .of_debits (fun _ => id) (hdoes.debits ?_) fun _ _ _ => .inl hauth
    rw [List.forall_mem_flatMap]
    intro t ht
    simp [Piece.TakesFrom, hnonneg t ht]
  | batch_mint mints =>
    obtain ⟨hnonneg, rfl⟩ := hmade
    have hdebits : Debits s.admin _ s s' := hdoes.debits (by
      rw [List.forall_mem_flatMap]
      intro t ht
      simp [Piece.TakesFrom, hnonneg t ht])
    rw [sum_flatMap_eq_zero fun _ => by simp [Piece.taken]] at hdebits
    exact .of_credits (fun _ => id) hdebits
  | shield =>
    obtain ⟨hauth, hamount, rfl⟩ := hmade
    exact .of_debits (fun _ => id) (hdoes.debits (by simp [Piece.TakesFrom])) fun _ _ _ => .inl hauth
  | transfer_shielded =>
    obtain ⟨-, -, rfl⟩ := hmade
    have hdebits : Debits s.admin _ s s' := hdoes.debits (by
      rw [List.forall_mem_append, List.forall_mem_map]
      exact ⟨fun _ _ => trivial, by simp [Piece.TakesFrom]⟩)
    rw [List.map_append, List.sum_append, sum_map_nullifier fun _ => rfl] at hdebits
    exact .of_credits (fun _ => id) hdebits
  | unshield =>
    obtain ⟨hamount, -, rfl⟩ := hmade
    exact .of_credits (fun _ => id) (hdoes.debits (by simp [Piece.TakesFrom, hamount.le]))
  | _ =>
    obtain rfl := hmade
    exact .of_credits (fun _ => id) (hdoes.debits (by simp [Piece.TakesFrom]))

theorem StepDebits.authorised_of_signed {call : Call} {before : List (TokenState × Env × Call)}
    (h : StepDebits env s call s') (hcall : call.unsigned = false) :
    DebitsAuthorised X ((s, env, call) :: before) s' :=
  fun a ha => .inl (h.signed hcall a ha)

theorem sanctioned_of_signed {call : Call} (h : call.unsigned = false) : Sanctioned s (env, call) := by
  cases call with
  | execute_clawback | transfer_with_permit => cases h
  | _ => trivial

theorem Executed.authorised_iff {proposal_id : Nat} {proposal : ClawbackProposal}
    {before : List (TokenState × Env × Call)} (h : Executed s proposal_id proposal s')
    (hpositive : 0 < proposal.amount) :
    DebitsAuthorised X ((s, env, .execute_clawback proposal_id) :: before) s' ↔
      Sanctioned s (env, .execute_clawback proposal_id) := by
  have htarget : s'.balance proposal.target = s.balance proposal.target - proposal.amount := by
    rw [h.balance, Function.update_self]
  have hamount : s.balance proposal.target - s'.balance proposal.target = proposal.amount := by omega
  constructor
  · intro hauthorised
    refine ⟨proposal, h.found, ?_⟩
    rcases hauthorised proposal.target (by omega) with hsigned | hpermitted | ⟨p, hp, -, hquorum⟩
    · exact .inr (hamount ▸ hsigned)
    · cases hpermitted
    · rw [h.found] at hp
      cases hp
      exact .inl hquorum
  · rintro ⟨p, hp, hsanctioned⟩ a ha
    rw [h.found] at hp
    cases hp
    obtain rfl : a = proposal.target := by
      by_contra hother
      rw [h.balance, Function.update_of_ne hother] at ha
      omega
    rcases hsanctioned with hquorum | hsigned
    · exact .inr (.inr ⟨proposal, h.found, rfl, hquorum⟩)
    · exact .inl (hamount ▸ hsigned)

theorem transfer_with_permit_authorised_iff {owner : Address} {deadline : Nat} {signature : BytesN 64}
    {before : List (TokenState × Env × Call)} (hunused : NonceUnused before s owner)
    (h : step X s env (.transfer_with_permit owner spender to_ amount deadline signature) = .ok s') :
    DebitsAuthorised X ((s, env, .transfer_with_permit owner spender to_ amount deadline signature) :: before) s' ↔
      Sanctioned s (env, .transfer_with_permit owner spender to_ amount deadline signature) := by
  obtain ⟨s₁, hspent, hdebits, howner⟩ := transfer_with_permit_spent h
  have hnonneg := hspent.amount_nonneg
  constructor
  · intro hauthorised
    by_cases hself : owner = to_
    · exact .inl hself
    by_cases hzero : amount = 0
    · exact .inr (.inl hzero)
    rw [if_neg hself] at howner
    have hamount : s.balance owner - s'.balance owner = amount := by omega
    rcases hauthorised owner (by omega) with hsigned | ⟨-, hto, -⟩ | hclawed
    · exact .inr (.inr (.inr (hamount ▸ hsigned)))
    · exact .inr (.inr (.inl hto))
    · cases hclawed
  · intro hsanctioned a ha
    obtain rfl : a = owner := by
      by_contra hother
      have hkept := hdebits.others a hother
      rw [hspent.balance] at hkept
      omega
    have hdebit : a ≠ to_ ∧ s.balance a - s'.balance a = amount := by
      split at howner
      · omega
      · rename_i hother
        exact ⟨hother, by omega⟩
    obtain ⟨hother, hamount⟩ := hdebit
    rcases hsanctioned with hself | hzero | hto | hsigned
    · exact absurd hself hother
    · omega
    · exact .inr (.inl ⟨rfl, hto, hspent.valid, hunused⟩)
    · exact .inl (hamount ▸ hsigned)

end

/-! ## Runs -/

section
variable {X : TokenHost} {admin : Address} {log : List (TokenState × Env × Call)} {s s' : TokenState}
  {call : Env × Call}

theorem TokenRun.proposed (hrun : TokenRun X admin log s) : Proposed s :=
  Run.invariant (by simp [Proposed, constructor]) (fun _ _ _ hs h => (step_debits h).proposed hs) hrun

/-- The nonces of the permits that are used up are behind. -/
theorem TokenRun.nonces_behind (hrun : TokenRun X admin log s) (a : Address) :
    ∀ e ∈ log, e.2.2.permits a → e.1.nonce a < s.nonce a := by
  refine Run.invariant_log (P := fun log s => ∀ e ∈ log, e.2.2.permits a → e.1.nonce a < s.nonce a)
    (by simp) (fun log s call s' _ ih h => ?_) hrun
  have hstep := step_debits h
  rw [List.forall_mem_cons]
  exact ⟨hstep.permits a, fun e he hpermits => (ih e he hpermits).trans_le (hstep.nonce a)⟩

theorem TokenRun.nonceUnused (hrun : TokenRun X admin log s) (a : Address) : NonceUnused log s a :=
  fun e he hpermits => (hrun.nonces_behind a e he hpermits).ne

theorem TokenRun.authorised_iff (hrun : TokenRun X admin log s) (h : Accepts X s call s') :
    DebitsAuthorised X ((s, call) :: log) s' ↔ Sanctioned s call := by
  obtain ⟨env, call⟩ := call
  cases hunsigned : call.unsigned with
  | false => exact iff_of_true ((step_debits h).authorised_of_signed hunsigned) (sanctioned_of_signed hunsigned)
  | true =>
    cases call with
    | execute_clawback =>
      obtain ⟨proposal, hexecuted⟩ := execute_clawback_executed h
      exact hexecuted.authorised_iff (hrun.proposed _ proposal hexecuted.found)
    | transfer_with_permit => exact transfer_with_permit_authorised_iff (hrun.nonceUnused _) h
    | _ => cases hunsigned

/-- In every run, every call had leave for what it took from each account if and only if each clawback had the
governors' quorum and each transfer with a permit went to the spender that the permit names, or took nothing, or
the owner or a spender had signed for it. -/
theorem debits_authorised_iff (hrun : TokenRun X admin log s) :
    (∀ t ∈ Run.prefixes log s, DebitsAuthorised X t.1 t.2) ↔ ∀ e ∈ log, Sanctioned e.1 e.2 :=
  Run.forall_prefixes_iff (P := fun log s => DebitsAuthorised X log s) (C := Sanctioned) trivial
    (fun _ _ _ _ hrun _ h => TokenRun.authorised_iff hrun h) hrun

end

def spenderCalls : List Call := [.mint 5 100, .approve 5 6 30 2, .transfer_from 6 5 7 20, .burn 5 10]

theorem debits_authorised_iff_for_a_spender : ∃ log s, TokenRun sampleHost 0 log s ∧
    ((∀ t ∈ Run.prefixes log s, DebitsAuthorised sampleHost t.1 t.2) ↔ ∀ e ∈ log, Sanctioned e.1 e.2) ∧
    s.balance 5 = 70 ∧ s.balance 7 = 20 := by
  obtain ⟨log, s, hrun, htest⟩ := exists_run (X := sampleHost) (a := 0) spenderCalls
    (fun _ s => decide (s.balance 5 = 70 ∧ s.balance 7 = 20)) (by decide +kernel)
  exact ⟨log, s, hrun, debits_authorised_iff hrun, of_decide_eq_true htest⟩

/-- The governors are 7 and 8. The admin, who is neither, proposes to take 40 from account 5. -/
def clawbackCalls : List Call := [.set_governors [7, 8] 1, .mint 5 100, .propose_clawback 5 40 []]

/-- After the delay, signed by the admin alone. -/
def executeAlone : Env × Call :=
  ({ sampleEnv with sequence := 40000, auths := fun a => a = 0 }, .execute_clawback 1)

def losesToClawback (s : TokenState) : Bool :=
  decide (s.governors = [7, 8] ∧ s.required_approvals = 1 ∧ s.balance 5 = 100) &&
  (s.clawback_proposal 1).any (fun p => p.target == 5 && p.amount == 40 && p.approvals == [0]) &&
  s.allowance (5, 0) == none && (next sampleHost s executeAlone).any fun s' => s'.balance 5 == 60

/-- No governor has approved, and the account loses 40. -/
theorem clawback_without_governors : ∃ log s s', TokenRun sampleHost 0 log s ∧
    Accepts sampleHost s executeAlone s' ∧ s.governors = [7, 8] ∧ s.required_approvals = 1 ∧
    s.balance 5 = 100 ∧ s'.balance 5 = 60 ∧ ¬ DebitsAuthorised sampleHost ((s, executeAlone) :: log) s' := by
  obtain ⟨log, s, hrun, htest⟩ := exists_run (X := sampleHost) (a := 0) clawbackCalls
    (fun _ s => losesToClawback s) (by decide +kernel)
  simp only [losesToClawback, Bool.and_eq_true, Option.any_eq_true, beq_iff_eq, decide_eq_true_eq] at htest
  obtain ⟨⟨⟨⟨hgovernors, hrequired, hbefore⟩, proposal, hfound, ⟨htarget, hamount⟩, happrovals⟩, hnone⟩,
    s', hs, hafter⟩ := htest
  have haccepted : Accepts sampleHost s executeAlone s' := toOption_eq_some.mp hs
  refine ⟨log, s, s', hrun, haccepted, hgovernors, hrequired, hbefore, hafter, fun hauthorised => ?_⟩
  obtain ⟨p, hp, hsanctioned⟩ := (TokenRun.authorised_iff hrun haccepted).mp hauthorised
  rw [hfound] at hp
  cases hp
  rcases hsanctioned with ⟨-, hquorum⟩ | hauth | ⟨spender, hauth, hle⟩
  · rw [happrovals, hgovernors, hrequired] at hquorum
    exact absurd hquorum (by decide)
  · rw [htarget] at hauth
    exact absurd hauth (by decide)
  · obtain rfl : spender = 0 := of_decide_eq_true hauth
    rw [htarget, hamount] at hle
    simp [read_allowance_amount, read_allowance, hnone] at hle

end ZkVote.Token

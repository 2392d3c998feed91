import ZkVote.Token.Contract
import ZkVote.Token.Debits

/-!
# The token: allowances

A read lets an expired entry count for nothing and removes it. A write puts the new entry over
whatever was there.
-/

open Lib Lib.Outcome

namespace ZkVote.Token

abbrev Allowances := Address × Address → Option (Int × Nat)

/-- What an entry lets its spender take. -/
def live (env : Env) : Option (Int × Nat) → Int
  | some (amount, expiration_ledger) => if env.sequence ≤ expiration_ledger then amount else 0
  | none => 0

def expired (env : Env) (e : Option (Int × Nat)) : Bool := e.any fun e => decide (e.2 < env.sequence)

/-- The entries after a read of `key`. -/
def expire (env : Env) (key : Address × Address) (A : Allowances) : Allowances :=
  if expired env (A key) then Function.update A key none else A

/-- The entry that is written. -/
def entry (amount : Int) (expiration_ledger : Nat) : Option (Int × Nat) :=
  if amount = 0 ∧ expiration_ledger = 0 then none else some (amount, expiration_ledger)

section
variable {env : Env} {s s' : TokenState} {from_ spender : Address} {amount : Int} {expiration_ledger : Nat}
  {key key' : Address × Address} {A : Allowances}

/-! ## Reads and writes -/

@[simp] theorem live_entry : live env (entry amount expiration_ledger) =
    if env.sequence ≤ expiration_ledger then amount else 0 := by
  unfold entry
  split
  · next h => simp [live, h.1]
  · rfl

theorem expire_of_ne (hne : key' ≠ key) : expire env key A key' = A key' := by
  unfold expire
  split
  · rw [Function.update_of_ne hne]
  · rfl

theorem live_of_expired {e : Option (Int × Nat)} (h : expired env e = true) : live env e = 0 := by
  obtain ⟨⟨amount, expiration_ledger⟩, rfl, hlt⟩ := (Option.any_eq_true _ _).mp h
  exact if_neg (Nat.not_le.mpr (of_decide_eq_true hlt))

theorem live_expire : live env (expire env key A key') = live env (A key') := by
  by_cases hkey : key' = key
  · subst hkey
    unfold expire
    split
    · next hexpired =>
      rw [Function.update_self, live_of_expired hexpired]
      rfl
    · rfl
  · rw [expire_of_ne hkey]

/-- A write does not see what the read before it has removed. -/
theorem update_expire (e : Option (Int × Nat)) :
    Function.update (expire env key A) key e = Function.update A key e := by
  funext key'
  by_cases hkey : key' = key
  · subst hkey
    rw [Function.update_self, Function.update_self]
  · rw [Function.update_of_ne hkey, Function.update_of_ne hkey, expire_of_ne hkey]

theorem update_expire_of_ne (hne : key' ≠ key) (e : Option (Int × Nat)) :
    Function.update (expire env key A) key' e = expire env key (Function.update A key' e) := by
  have hentry : Function.update A key' e key = A key := Function.update_of_ne hne.symm e A
  unfold expire
  rw [hentry]
  split
  · exact (Function.update_comm hne e none A).symm
  · rfl

theorem read_allowance_snd :
    (read_allowance env s from_ spender).2 = { s with allowance := expire env (from_, spender) s.allowance } := by
  unfold read_allowance expire
  cases h : s.allowance (from_, spender) with
  | none => rfl
  | some e =>
    by_cases hle : env.sequence ≤ e.2
    · simp [expired, hle, Nat.not_lt.mpr hle]
    · simp [expired, hle, Nat.lt_of_not_le hle]

theorem read_allowance_amount_eq : read_allowance_amount env s from_ spender =
    (live env (s.allowance (from_, spender)), { s with allowance := expire env (from_, spender) s.allowance }) := by
  rw [read_allowance_amount, ← read_allowance_snd]
  refine Prod.ext ?_ rfl
  unfold read_allowance
  cases s.allowance (from_, spender) with
  | none => rfl
  | some e =>
    by_cases hle : env.sequence ≤ e.2
    · simp [live, hle]
    · simp [live, hle]

theorem write_allowance_entry : write_allowance s from_ spender amount expiration_ledger =
    { s with allowance := Function.update s.allowance (from_, spender) (entry amount expiration_ledger) } := by
  unfold write_allowance entry
  split <;> rfl

/-! ## Approvals -/

/-- All that an accepted approval does. -/
theorem approve_eq_ok : approve env s from_ spender amount expiration_ledger = .ok s' ↔ env.auths from_ = true ∧
    ¬ is_race_rejected (live env (s.allowance (from_, spender))) amount ∧
    s' = { s with
      allowance := Function.update s.allowance (from_, spender) (entry amount expiration_ledger) } := by
  rw [eq_comm (a := s')]
  simp [approve, read_allowance_amount_eq, write_allowance_entry, update_expire]

/-- All that the check of an approval does. -/
theorem check_approval_eq_ok {approval : Approval} : check_approval env from_ s approval = .ok s' ↔
    0 ≤ approval.2.1 ∧ ¬ is_race_rejected (live env (s.allowance (from_, approval.1))) approval.2.1 ∧
    s' = { s with allowance := expire env (from_, approval.1) s.allowance } := by
  obtain ⟨spender, amount, expiration_ledger⟩ := approval
  rw [eq_comm (a := s')]
  simp [check_approval, read_allowance_amount_eq]

end

end ZkVote.Token

/-!
## The token: permits

A permit writes an allowance that expires at ledger 0. Its signature is for the owner's nonce of
the moment, which it uses up.
-/

namespace ZkVote.Token

/-- A signature verifies under one key and for one message, and no two addresses have one key. -/
structure TokenHost.Binding (X : TokenHost) : Prop where
  verify : ∀ pk pk' message message' signature, X.ed25519_verify pk message signature = true →
    X.ed25519_verify pk' message' signature = true → pk = pk' ∧ message = message'
  keys : ∀ a a' key, address_to_32bytes X a = .ok key → address_to_32bytes X a' = .ok key → a = a'

/-- The signature of a permit. -/
def Call.signature : Call → Option (BytesN 64)
  | .permit _ _ _ _ signature => some signature
  | .transfer_with_permit _ _ _ _ _ signature => some signature
  | _ => none

/-- After a permit the spender may take its amount, the same permit would have served for a transfer of what the
owner has, and no signature is accepted again. -/
structure TakesEffect (X : TokenHost) (m : Moment TokenState (Env × Call)) : Prop where
  allowance : ∀ owner spender amount deadline signature,
    m.call.2 = .permit owner spender amount deadline signature → 1 ≤ m.call.1.sequence →
    (read_allowance_amount m.call.1 m.post owner spender).1 = amount
  transfer : ∀ owner spender to_ amount deadline signature,
    m.call.2 = .permit owner spender amount deadline signature → 1 ≤ m.call.1.sequence → amount ≤ m.pre.balance owner →
    (transfer_with_permit X m.call.1 m.pre owner spender to_ amount deadline signature).isOk = true
  once : ∀ signature, m.call.2.signature = some signature → ∀ e ∈ m.past, e.2.2.signature ≠ some signature

/-- A permit for nothing. -/
def PermitsNothing (m : Moment TokenState (Env × Call)) : Prop :=
  ∀ owner spender amount deadline signature, m.call.2 = .permit owner spender amount deadline signature →
    1 ≤ m.call.1.sequence → amount = 0

section
variable {X : TokenHost} {env : Env} {s s' : TokenState} {owner spender to_ : Address} {amount : Int}
  {deadline : Nat} {signature : BytesN 64} {admin : Address} {log : List (TokenState × Env × Call)} {call : Call}

/-- All that an accepted permit does. -/
theorem permit_eq_ok : permit X env s owner spender amount deadline signature = .ok s' ↔
    0 ≤ amount ∧ PermitValid X env s owner spender amount deadline signature ∧ s.nonce owner + 1 < 2 ^ 32 ∧
      ¬ is_race_rejected (live env (s.allowance (owner, spender))) amount ∧
      s' = { s with
        nonce := Function.update s.nonce owner (s.nonce owner + 1)
        allowance := Function.update s.allowance (owner, spender) (entry amount 0) } := by
  rw [eq_comm (a := s')]
  simp [permit, increment_nonce, read_allowance_amount_eq, write_allowance_entry, update_expire, PermitValid]
  intro hamount
  constructor
  · rintro ⟨hdeadline, digest, hdigest, pk, hpk, hverify, hfits, hrace, hpost⟩
    exact ⟨⟨hdeadline, digest, hdigest, pk, hpk, hverify⟩, hfits, hrace, hpost⟩
  · rintro ⟨⟨hdeadline, digest, hdigest, pk, hpk, hverify⟩, hfits, hrace, hpost⟩
    exact ⟨hdeadline, digest, hdigest, pk, hpk, hverify, hfits, hrace, hpost⟩

/-! ### Signatures -/

/-- A digest says under which nonce it was signed. -/
theorem nonce_of_digest {owner' spender' : Address} {amount' : Int} {nonce nonce' deadline' : Nat} {digest : Bytes}
    (hn : nonce < 2 ^ 32) (hn' : nonce' < 2 ^ 32)
    (h : build_permit_digest X owner spender amount nonce deadline = .ok digest)
    (h' : build_permit_digest X owner' spender' amount' nonce' deadline' = .ok digest) : nonce = nonce' := by
  simp [build_permit_digest] at h h'
  obtain ⟨contract, hcontract, key, -, key₁, -, rfl⟩ := h
  obtain ⟨contract', hcontract', key', -, key₁', -, heq⟩ := h'
  have hkeys := (List.append_inj heq (by simp)).2
  have hspender := (List.append_inj hkeys (by simp)).2
  have hamount := (List.append_inj hspender (by simp)).2
  have hrest := (List.append_inj hamount (by simp [i128_to_be_bytes])).2
  have hmod : nonce' % 2 ^ 32 = nonce % 2 ^ 32 := mod_of_toBeBytes (List.append_inj hrest (by simp)).1
  rw [Nat.mod_eq_of_lt hn', Nat.mod_eq_of_lt hn] at hmod
  exact hmod.symm

/-- An accepted call with a signature spends a nonce of an owner who gave the signature for it. -/
theorem signed_for_nonce (h : step X s env call = .ok s') (hsig : call.signature = some signature) :
    ∃ owner spender amount deadline, call.permits owner ∧ s.nonce owner + 1 < 2 ^ 32 ∧
      PermitValid X env s owner spender amount deadline signature := by
  cases call with
  | permit owner spender amount deadline signature =>
    cases hsig
    obtain ⟨-, hvalid, hfits, -⟩ := permit_eq_ok.mp h
    exact ⟨owner, spender, amount, deadline, rfl, hfits, hvalid⟩
  | transfer_with_permit owner spender to_ amount deadline signature =>
    cases hsig
    obtain ⟨s₁, hpermit, -⟩ := bind_eq_ok.mp h
    obtain ⟨-, hvalid, hfits, -⟩ := permit_eq_ok.mp hpermit
    exact ⟨owner, spender, amount, deadline, rfl, hfits, hvalid⟩
  | _ => cases hsig

theorem signature_once (hX : X.Binding) (hrun : TokenRun X admin log s) (h : step X s env call = .ok s')
    (hsig : call.signature = some signature) : ∀ e ∈ log, e.2.2.signature ≠ some signature := by
  intro e he hsig'
  obtain ⟨before, after, s₁, -, -, hs₁, -⟩ := Run.split hrun he
  obtain ⟨owner, spender, amount, deadline, hpermits, hfits, -, digest, pk, hdigest, hpk, hverify⟩ :=
    signed_for_nonce h hsig
  obtain ⟨owner', _, _, _, hpermits', hfits', -, digest', pk', hdigest', hpk', hverify'⟩ :=
    signed_for_nonce hs₁ hsig'
  obtain ⟨rfl, rfl⟩ := hX.verify _ _ _ _ _ hverify hverify'
  obtain rfl := hX.keys _ _ _ hpk hpk'
  refine hrun.nonceUnused owner e he hpermits' ?_
  exact nonce_of_digest (Nat.lt_of_succ_lt hfits') (Nat.lt_of_succ_lt hfits) hdigest' hdigest

/-! ### Allowances -/

theorem permit_live (hledger : 1 ≤ env.sequence)
    (h : permit X env s owner spender amount deadline signature = .ok s') :
    live env (s'.allowance (owner, spender)) = 0 := by
  have hentry : s'.allowance (owner, spender) = entry amount 0 := by
    obtain ⟨-, -, -, -, rfl⟩ := permit_eq_ok.mp h
    exact Function.update_self ..
  rw [hentry, live_entry, if_neg (Nat.not_le.mpr hledger)]

theorem permit_allowance (hledger : 1 ≤ env.sequence)
    (h : permit X env s owner spender amount deadline signature = .ok s') :
    (read_allowance_amount env s' owner spender).1 = 0 := by
  rw [read_allowance_amount_eq]
  exact permit_live hledger h

theorem xfer_zero (env : Env) (s : TokenState) (from_ to_ : Address) : xfer env s from_ to_ 0 = .ok s := rfl

theorem spend_allowance_zero (h : live env (s.allowance (owner, spender)) = 0) :
    ∃ s', spend_allowance env s owner spender 0 = .ok s' := by
  have hread : (read_allowance env s owner spender).1.1 = 0 := by
    rw [← h]
    exact congrArg Prod.fst read_allowance_amount_eq
  unfold spend_allowance
  generalize read_allowance env s owner spender = r at hread
  obtain ⟨⟨current, expiration_ledger⟩, s₁⟩ := r
  cases hread
  exact ⟨_, rfl⟩

theorem transfer_with_permit_zero (hledger : 1 ≤ env.sequence)
    (h : permit X env s owner spender 0 deadline signature = .ok s') :
    (transfer_with_permit X env s owner spender to_ 0 deadline signature).isOk = true := by
  obtain ⟨s₁, hspend⟩ := spend_allowance_zero (permit_live hledger h)
  rw [transfer_with_permit, h, ok_bind, hspend, ok_bind, xfer_zero]
  rfl

theorem takesEffect_iff (hX : X.Binding) (hrun : TokenRun X admin log s) (h : step X s env call = .ok s') :
    TakesEffect X ⟨log, s, (env, call), s'⟩ ↔ PermitsNothing ⟨log, s, (env, call), s'⟩ := by
  constructor
  · rintro heffect owner spender amount deadline signature rfl hledger
    rw [← heffect.allowance owner spender amount deadline signature rfl hledger]
    exact permit_allowance hledger h
  · intro hnothing
    refine ⟨?_, ?_, fun signature hsig => signature_once hX hrun h hsig⟩
    · rintro owner spender amount deadline signature rfl hledger
      obtain rfl := hnothing owner spender amount deadline signature rfl hledger
      exact permit_allowance hledger h
    · rintro owner spender to_ amount deadline signature rfl hledger -
      obtain rfl := hnothing owner spender amount deadline signature rfl hledger
      exact transfer_with_permit_zero hledger h

end

/-! ### A permit that grants nothing -/

/-- A message that starts with sixty zeros is signed by its last 64 bytes, under the second key in it. -/
def signedMessage (signature : BytesN 64) : Bytes := List.replicate 60 0 ++ signature.toList

def bindingHost : TokenHost where
  ed25519_verify := fun pk message signature =>
    decide (message = signedMessage signature ∧ pk.toList = ((signedMessage signature).drop 32).take 32)
  address_xdr := fun a => if a < 2 ^ 256 then List.replicate 8 0 ++ toBeBytes 32 a else []
  current_contract_address := 0

theorem bindingHost_key {a : Address} {key : BytesN 32} (h : address_to_32bytes bindingHost a = .ok key) :
    a < 2 ^ 256 ∧ key.toList = toBeBytes 32 a := by
  by_cases ha : a < 2 ^ 256
  · have hxdr : bindingHost.address_xdr a = List.replicate 8 0 ++ toBeBytes 32 a := if_pos ha
    simp [address_to_32bytes, hxdr] at h
    subst h
    refine ⟨ha, List.ext_getElem (by simp) fun i hi hi' => ?_⟩
    simp at hi hi' ⊢
    rw [Nat.add_comm]
    simp [hi']
  · have hxdr : bindingHost.address_xdr a = [] := if_neg ha
    simp [address_to_32bytes, hxdr] at h

theorem bindingHost_binding : bindingHost.Binding where
  verify pk pk' message message' signature h h' := by
    obtain ⟨hmessage, hpk⟩ := of_decide_eq_true h
    obtain ⟨hmessage', hpk'⟩ := of_decide_eq_true h'
    exact ⟨Vector.toList_inj.mp (hpk.trans hpk'.symm), hmessage.trans hmessage'.symm⟩
  keys a a' key h h' := by
    obtain ⟨ha, hkey⟩ := bindingHost_key h
    obtain ⟨ha', hkey'⟩ := bindingHost_key h'
    have hmod : a % 2 ^ 256 = a' % 2 ^ 256 := mod_of_toBeBytes (hkey.symm.trans hkey')
    rwa [Nat.mod_eq_of_lt ha, Nat.mod_eq_of_lt ha'] at hmod

/-- Account 5 permits account 6 an amount, until time 100. -/
def signFor (amount : Int) (nonce : Nat) : BytesN 64 :=
  let message := toBeBytes 32 5 ++ toBeBytes 32 6 ++ i128_to_be_bytes amount ++ toBeBytes 4 nonce ++ toBeBytes 8 100
  Vector.ofFn fun i => message.getD (28 + i) 0

def permitCall (amount : Int) (nonce : Nat) : Call := .permit 5 6 amount 100 (signFor amount nonce)

def refused (e : TokenError) : Outcome TokenError TokenState → Bool
  | .error (.error e') => decide (e' = e)
  | _ => false

theorem refused_iff {e : TokenError} {x : Outcome TokenError TokenState} : refused e x = true ↔ x = fail e := by
  unfold refused
  split
  · simp [fail]
  · next hne => exact iff_of_false (by decide) fun h => hne e h

end ZkVote.Token

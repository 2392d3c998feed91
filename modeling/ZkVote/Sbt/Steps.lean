import ZkVote.Sbt.Contract

/-!
# The membership token: what one call does

A call lets an address in, marks one as gone, moves a cooldown or a reputation, or
leaves all of these in every DAO as they were.
-/

open Lib Lib.Outcome

namespace ZkVote.Sbt

/-- The member that a call lets in. -/
def Call.enters : Call → Option (Nat × Address)
  | .mint dao_id to_ _ _ => some (dao_id, to_)
  | .mint_from_registry dao_id to_ => some (dao_id, to_)
  | .self_join dao_id member _ => some (dao_id, member)
  | _ => none

/-- The member that a call lets in from the registry. -/
def Call.registry_mints : Call → Option (Nat × Address)
  | .mint_from_registry dao_id to_ => some (dao_id, to_)
  | _ => none

/-- The member that a call marks as gone. -/
def Call.exits : Call → Option (Nat × Address)
  | .revoke dao_id member _ => some (dao_id, member)
  | .leave dao_id member => some (dao_id, member)
  | _ => none

/-- The cooldown that a call sets or clears. -/
def Call.cools : Call → Option (Nat × Address × Option Nat)
  | .set_election_cooldown dao_id member cooldown_end _ => some (dao_id, member, some cooldown_end)
  | .clear_election_cooldown dao_id member _ => some (dao_id, member, none)
  | _ => none

/-- The member whose reputation a call slashes. -/
def Call.slashes : Call → Option (Nat × Address)
  | .slash_reputation dao_id member _ _ => some (dao_id, member)
  | _ => none

structure SameList (d d' : SbtDao) : Prop where
  member_count : d'.member_count = d.member_count
  member_at_index : d'.member_at_index = d.member_at_index

/-- The address is put at the end of the list. -/
structure Enlisted (d d' : SbtDao) (a : Address) : Prop where
  member_count : d'.member_count = d.member_count + 1
  member_at_index : d'.member_at_index = Function.update d.member_at_index d.member_count (some a)

/-- The records of who is a member, since when, and of their list. -/
structure SameMembers (d d' : SbtDao) : Prop extends SameList d d' where
  member : d'.member = d.member
  minted_at : d'.minted_at = d.minted_at

/-- What any way in writes. -/
structure Entered (env : SbtEnv) (d d' : SbtDao) (a : Address) : Prop where
  member : d'.member = Function.update d.member a true
  minted_at : d'.minted_at = Function.update d.minted_at a (some ((d.minted_at a).getD env.timestamp))
  transfer_cooldown : d'.transfer_cooldown = d.transfer_cooldown
  reputation : d'.reputation = d.reputation

/-- The reputation of a member after it accrues an amount. -/
def accrued (d : SbtDao) (a : Address) (amount : Nat) : Nat :=
  min (saturatingAdd 32 ((d.reputation a).getD 0) amount) MAX_REPUTATION

/-- What an accepted call does to a DAO. -/
inductive Effect (env : SbtEnv) (call : Call) (dao_id : Nat) (d d' : SbtDao) : Prop where
  | join (a : Address) (hcall : call.enters = some (dao_id, a)) (hregistry : call.registry_mints = none)
      (hnot : has d a = false) (h : Entered env d d' a) (hrevoked : d'.revoked = Function.update d.revoked a false)
      (hlist : if d.member a = true then SameList d d' else Enlisted d d' a)
  | registry_mint (a : Address) (hcall : call.registry_mints = some (dao_id, a)) (hnot : has d a = false)
      (h : Entered env d d' a) (hrevoked : d'.revoked = d.revoked) (hlist : Enlisted d d' a)
  | exit (a : Address) (hcall : call.exits = some (dao_id, a)) (hmember : d.member a = true)
      (heq : d' = { d with revoked := Function.update d.revoked a true })
  | cool (a : Address) (cooldown : Option Nat) (hcall : call.cools = some (dao_id, a, cooldown))
      (heq : d' = { d with transfer_cooldown := Function.update d.transfer_cooldown a cooldown })
  | accrue (a : Address) (amount : Nat) (hslash : call.slashes = none) (henters : call.enters = none)
      (hamount : amount ≤ MAX_REPUTATION)
      (heq : d' = { d with reputation := Function.update d.reputation a (some (accrued d a amount)) })
  | slash (a : Address) (amount : Nat) (hcall : call.slashes = some (dao_id, a))
      (heq : d' = { d with reputation := Function.update d.reputation a (some ((d.reputation a).getD 0 - amount)) })
  | quiet (henters : ∀ a, call.enters ≠ some (dao_id, a)) (hsame : SameMembers d d') (hrevoked : d'.revoked = d.revoked)
      (hcooldown : d'.transfer_cooldown = d.transfer_cooldown) (hreputation : d'.reputation = d.reputation)

section
variable {env : SbtEnv} {s s' : MembershipSbt} {call : Call} {dao_id other : Nat} {d d' : SbtDao}

theorem Effect.of_eq (henters : ∀ a, call.enters ≠ some (dao_id, a)) (h : d' = d) : Effect env call dao_id d d' := by
  subst h
  exact .quiet henters ⟨⟨rfl, rfl⟩, rfl, rfl⟩ rfl rfl rfl

/-- A call writes to the DAO that it names. -/
theorem Effect.of_set_dao (h : Effect env call dao_id (s.daos dao_id) d)
    (hcall : ∀ i a, call.enters = some (i, a) → i = dao_id) :
    Effect env call other (s.daos other) ((s.set_dao dao_id d).daos other) := by
  rw [MembershipSbt.set_dao_daos, Function.update_apply]
  by_cases ho : other = dao_id
  · rw [if_pos ho, ho]
    exact h
  · rw [if_neg ho]
    exact .of_eq (fun a ha => ho (hcall other a ha)) rfl

theorem Effect.of_quiet (henters : call.enters = none) (hsame : SameMembers (s.daos dao_id) d)
    (hrevoked : d.revoked = (s.daos dao_id).revoked)
    (hcooldown : d.transfer_cooldown = (s.daos dao_id).transfer_cooldown)
    (hreputation : d.reputation = (s.daos dao_id).reputation) :
    Effect env call other (s.daos other) ((s.set_dao dao_id d).daos other) :=
  Effect.of_set_dao (.quiet (by simp [henters]) hsame hrevoked hcooldown hreputation) (by simp [henters])

theorem add_member_to_list_ok {a : Address} (h : add_member_to_list d a = .ok d') :
    d' = { d with
      member_at_index := Function.update d.member_at_index d.member_count (some a)
      member_count := d.member_count + 1 } := by
  simp only [add_member_to_list, bind_eq_ok, expect_eq_ok, checkedAdd_eq_some, pure_eq_ok] at h
  obtain ⟨_, ⟨-, rfl⟩, rfl⟩ := h
  rfl

theorem record_mint_time_eq (env : SbtEnv) (d : SbtDao) (a : Address) :
    record_mint_time env d a =
      { d with minted_at := Function.update d.minted_at a (some ((d.minted_at a).getD env.timestamp)) } := by
  unfold record_mint_time
  split
  · rename_i minted hminted
    rw [hminted, Option.getD_some, ← hminted, Function.update_eq_self]
  · rename_i hnone
    rw [hnone]
    rfl

theorem set_alias_eq (d : SbtDao) (a : Address) (encrypted_alias : Option Bytes) :
    ∃ aliases, set_alias d a encrypted_alias = { d with alias_ := aliases } := by
  unfold set_alias
  split
  · exact ⟨_, rfl⟩
  · exact ⟨d.alias_, rfl⟩

/-- The count of mints in an epoch may have been written before. -/
theorem join_effect {a : Address} {encrypted_alias : Option Bytes} {counts : Nat → Nat}
    (hcall : call.enters = some (dao_id, a)) (hregistry : call.registry_mints = none) (hnot : has d a = false)
    (h : join env { d with mint_epoch_count := counts } a encrypted_alias = .ok d') :
    Effect env call dao_id d d' := by
  obtain ⟨aliases, halias⟩ := set_alias_eq { d with
    mint_epoch_count := counts
    member := Function.update d.member a true
    revoked := Function.update d.revoked a false } a encrypted_alias
  by_cases hmember : d.member a = true
  · simp only [join, hmember, halias, record_mint_time_eq, Bool.true_eq_false, if_false, ok_bind, pure_eq_ok] at h
    subst h
    refine .join a hcall hregistry hnot ⟨rfl, rfl, rfl, rfl⟩ rfl ?_
    rw [if_pos hmember]
    exact ⟨rfl, rfl⟩
  · have hnew : d.member a = false := Bool.eq_false_iff.mpr hmember
    simp only [join, hnew, halias, record_mint_time_eq, if_true, bind_eq_ok, pure_eq_ok] at h
    obtain ⟨d₁, hlist, rfl⟩ := h
    rw [add_member_to_list_ok hlist]
    refine .join a hcall hregistry hnot ⟨rfl, rfl, rfl, rfl⟩ rfl ?_
    rw [if_neg hmember]
    exact ⟨rfl, rfl⟩

theorem mint_from_registry_effect {a : Address} (hnot : has d a = false)
    (h : add_member_to_list { d with member := Function.update d.member a true } a = .ok d') :
    Effect env (.mint_from_registry dao_id a) dao_id d (record_mint_time env d' a) := by
  rw [record_mint_time_eq, add_member_to_list_ok h]
  exact .registry_mint a rfl hnot ⟨rfl, rfl, rfl, rfl⟩ rfl ⟨rfl, rfl⟩

/-- What every accepted call does to every DAO. -/
theorem step_effect (h : step s env call = .ok s') (dao_id : Nat) :
    Effect env call dao_id (s.daos dao_id) (s'.daos dao_id) := by
  cases call with
  | mint d to_ admin encrypted_alias =>
    simp only [step, mint, count_mint, bind_eq_ok, require_eq_ok, pure_eq_ok] at h
    obtain ⟨_, -, _, -, _, hnot, d₁, ⟨_, -, rfl⟩, d₂, hjoin, rfl⟩ := h
    have heffect : Effect env (.mint d to_ admin encrypted_alias) d (s.daos d) d₂ := join_effect rfl rfl hnot hjoin
    exact heffect.of_set_dao (fun i a ha => by cases ha; rfl)
  | mint_from_registry d to_ =>
    simp only [step, mint_from_registry, bind_eq_ok, require_eq_ok, pure_eq_ok] at h
    obtain ⟨_, -, _, hnot, d₁, hlist, rfl⟩ := h
    exact (mint_from_registry_effect hnot hlist).of_set_dao (fun i a ha => by cases ha; rfl)
  | revoke d member admin =>
    simp only [step, revoke, bind_eq_ok, require_eq_ok, pure_eq_ok] at h
    obtain ⟨_, -, _, -, _, hmember, rfl⟩ := h
    exact .of_set_dao (.exit member rfl hmember rfl) (fun i a ha => by cases ha)
  | leave d member =>
    simp only [step, leave, bind_eq_ok, require_eq_ok, pure_eq_ok] at h
    obtain ⟨_, -, _, -, _, hmember, rfl⟩ := h
    exact .of_set_dao (.exit member rfl hmember rfl) (fun i a ha => by cases ha)
  | self_join d member encrypted_alias =>
    simp only [step, self_join, bind_eq_ok, require_eq_ok, pure_eq_ok] at h
    obtain ⟨_, -, _, -, _, -, _, hnot, d₁, hjoin, rfl⟩ := h
    have heffect : Effect env (.self_join d member encrypted_alias) d (s.daos d) d₁ := join_effect rfl rfl hnot hjoin
    exact heffect.of_set_dao (fun i a ha => by cases ha; rfl)
  | update_alias d member admin new_encrypted_alias =>
    simp only [step, update_alias, bind_eq_ok, pure_eq_ok] at h
    obtain ⟨_, -, _, -, _, -, rfl⟩ := h
    exact .of_quiet rfl ⟨⟨rfl, rfl⟩, rfl, rfl⟩ rfl rfl rfl
  | set_election_cooldown d member cooldown_end caller =>
    simp only [step, set_election_cooldown, bind_eq_ok, pure_eq_ok] at h
    obtain ⟨_, -, rfl⟩ := h
    exact .of_set_dao (.cool member (some cooldown_end) rfl rfl) (fun i a ha => by cases ha)
  | clear_election_cooldown d member caller =>
    simp only [step, clear_election_cooldown, bind_eq_ok, pure_eq_ok] at h
    obtain ⟨_, -, rfl⟩ := h
    exact .of_set_dao (.cool member none rfl rfl) (fun i a ha => by cases ha)
  | set_in_active_election d member active caller =>
    simp only [step, set_in_active_election, bind_eq_ok, pure_eq_ok] at h
    obtain ⟨_, -, rfl⟩ := h
    exact .of_quiet rfl ⟨⟨rfl, rfl⟩, rfl, rfl⟩ rfl rfl rfl
  | set_reputation_attestor d attestor allowed admin =>
    simp only [step, set_reputation_attestor, bind_eq_ok, pure_eq_ok] at h
    obtain ⟨_, -, _, -, rfl⟩ := h
    exact .of_quiet rfl ⟨⟨rfl, rfl⟩, rfl, rfl⟩ rfl rfl rfl
  | accrue_reputation d member amount attestor =>
    simp only [step, accrue_reputation, bind_eq_ok, require_eq_ok, pure_eq_ok] at h
    obtain ⟨_, -, _, -, _, hamount, rfl⟩ := h
    exact .of_set_dao (.accrue member amount rfl rfl (Nat.not_lt.mp hamount) rfl) (fun i a ha => by cases ha)
  | slash_reputation d member amount attestor =>
    simp only [step, slash_reputation, bind_eq_ok, pure_eq_ok] at h
    obtain ⟨_, -, rfl⟩ := h
    exact .of_set_dao (.slash member amount rfl rfl) (fun i a ha => by cases ha)

end

/-- Only the member signs. -/
def signedBy (member : Address) : SbtEnv := { sampleEnv with auths := fun a => a = member }

theorem exists_step {s : MembershipSbt} {env : SbtEnv} {call : Call} {test : MembershipSbt → Bool}
    (h : (step s env call).toOption.any test = true) : ∃ s', Accepts s (env, call) s' ∧ test s' = true := by
  obtain ⟨s', hs', htest⟩ := (Option.any_eq_true _ _).mp h
  exact ⟨s', toOption_eq_some.mp hs', htest⟩

end ZkVote.Sbt

/-!
## The membership token: revocation

A revoked member is let in again by the admin, or lets itself in where anyone may join.
The registry's own mint leaves the revocation standing.
-/

namespace ZkVote.Sbt

/-- The admin of the DAO mints to the member. -/
def AdminMints (dao_id : Nat) (member : Address) (e : MembershipSbt × SbtEnv × Call) : Prop :=
  ∃ admin encrypted_alias, e.2.2 = .mint dao_id member admin encrypted_alias ∧ e.2.1.auths admin = true ∧
    e.2.1.get_admin dao_id = some admin

/-- The member joins the DAO, which is open to all. -/
def JoinsOpen (dao_id : Nat) (member : Address) (e : MembershipSbt × SbtEnv × Call) : Prop :=
  ∃ encrypted_alias, e.2.2 = .self_join dao_id member encrypted_alias ∧ e.2.1.is_membership_open dao_id = some true

section
variable {registry member admin : Address} {env : SbtEnv} {s s' : MembershipSbt} {call : Call} {dao_id : Nat}
  {d d' : SbtDao} {after before : List (MembershipSbt × SbtEnv × Call)} {e : MembershipSbt × SbtEnv × Call}

theorem revoked_of_revoke (h : step s env (.revoke dao_id member admin) = .ok s') :
    (s'.daos dao_id).revoked member = true := by
  simp only [step, revoke, bind_eq_ok, pure_eq_ok] at h
  obtain ⟨_, -, _, -, _, -, rfl⟩ := h
  rw [MembershipSbt.set_dao_daos, Function.update_self]
  exact Function.update_self _ _ _

theorem Effect.revoked (h : Effect env call dao_id d d') (hd : d.revoked member = true) :
    d'.revoked member = true ∨ (call.enters = some (dao_id, member) ∧ call.registry_mints = none) := by
  cases h with
  | join a hcall hregistry hnot h hrevoked hlist =>
    by_cases ha : a = member
    · exact .inr ⟨ha ▸ hcall, hregistry⟩
    · rw [hrevoked, Function.update_of_ne (Ne.symm ha)]
      exact .inl hd
  | registry_mint a hcall hnot h hrevoked hlist =>
    rw [hrevoked]
    exact .inl hd
  | exit a hcall hmember heq =>
    rw [heq]
    by_cases ha : member = a
    · exact .inl (by rw [ha]; exact Function.update_self _ _ _)
    · exact .inl ((Function.update_of_ne ha _ _).trans hd)
  | cool a cooldown hcall heq =>
    rw [heq]
    exact .inl hd
  | accrue a amount hslash henters hamount heq =>
    rw [heq]
    exact .inl hd
  | slash a amount hcall heq =>
    rw [heq]
    exact .inl hd
  | quiet henters hsame hrevoked hcooldown hreputation =>
    rw [hrevoked]
    exact .inl hd

/-- Who lets a revoked member in. -/
theorem restores_cases (h : step s env call = .ok s') (hcall : call.enters = some (dao_id, member))
    (hregistry : call.registry_mints = none) :
    AdminMints dao_id member (s, env, call) ∨ JoinsOpen dao_id member (s, env, call) := by
  cases call with
  | mint d to_ admin encrypted_alias =>
    cases hcall
    simp only [step, mint, assert_dao_admin, bind_eq_ok, require_auth_eq_ok, expect_eq_ok, require_eq_ok] at h
    obtain ⟨_, hauth, _, ⟨dao_admin, hadmin, rfl⟩, -⟩ := h
    exact .inl ⟨_, encrypted_alias, rfl, hauth, hadmin⟩
  | self_join d a encrypted_alias =>
    cases hcall
    simp only [step, self_join, bind_eq_ok, expect_eq_ok, require_eq_ok] at h
    obtain ⟨_, -, membership_open, hopen, _, rfl, -⟩ := h
    exact .inr ⟨encrypted_alias, rfl, hopen⟩
  | mint_from_registry d to_ => cases hregistry
  | _ => cases hcall

/-- In every run, a member revoked by the admin has the token again only after the admin has minted to it, or after it
has joined while the DAO was open. -/
theorem revocation_lasts (hrun : SbtRun registry (after ++ e :: before) s)
    (hcall : e.2.2 = .revoke dao_id member admin) (hhas : has (s.daos dao_id) member = true) :
    ∃ x ∈ after, AdminMints dao_id member x ∨ JoinsOpen dao_id member x := by
  obtain ⟨s₀, env, call⟩ := e
  simp only at hcall
  subst hcall
  obtain ⟨s₁, -, hs, hafter⟩ := hrun.cut
  refine hafter.exists_breaking (P := fun s => (s.daos dao_id).revoked member = true) (revoked_of_revoke hs)
    (fun s call s' hrevoked hkept hstep => ?_) fun hrevoked => ?_
  · rcases (step_effect hstep dao_id).revoked hrevoked with hrevoked' | ⟨henters, hregistry⟩
    · exact hrevoked'
    · exact absurd (restores_cases hstep henters hregistry) hkept
  · rw [has, hrevoked] at hhas
    simp at hhas

end

theorem revocation_lasts_until_a_mint : ∃ after e before s, SbtRun 0 (after ++ e :: before) s ∧
    e.2.2 = .revoke 0 1 0 ∧ has (s.daos 0) 1 = true ∧ ∃ x ∈ after, AdminMints 0 1 x ∨ JoinsOpen 0 1 x := by
  obtain ⟨log, s, hrun, htest⟩ := exists_run (r := 0) [.mint 0 1 0 none]
    (fun _ s => (step s sampleEnv (.revoke 0 1 0)).toOption.any fun s' =>
      (step s' sampleEnv (.mint 0 1 0 none)).toOption.any fun s'' => has (s''.daos 0) 1) (by decide +kernel)
  obtain ⟨s', hs', htest'⟩ := exists_step htest
  obtain ⟨s'', hs'', hhas⟩ := exists_step htest'
  have hrun' : SbtRun 0 ([(s', sampleEnv, .mint 0 1 0 none)] ++ (s, sampleEnv, .revoke 0 1 0) :: log) s'' :=
    .call (.call hrun hs') hs''
  exact ⟨_, _, log, s'', hrun', rfl, hhas, revocation_lasts hrun' rfl hhas⟩

/-- The admin revokes member 1 of an open DAO, and member 1 joins again on its own signature. -/
theorem revoked_member_rejoins : ∃ e before s s', SbtRun 0 (e :: before) s ∧ e.2.2 = .revoke 0 1 0 ∧
    has (s.daos 0) 1 = false ∧ step s (signedBy 1) (.self_join 0 1 none) = .ok s' ∧ has (s'.daos 0) 1 = true := by
  obtain ⟨log, s, hrun, htest⟩ := exists_run (r := 0) [.mint 0 1 0 none]
    (fun _ s => (step s sampleEnv (.revoke 0 1 0)).toOption.any fun s' => !has (s'.daos 0) 1 &&
      (step s' (signedBy 1) (.self_join 0 1 none)).toOption.any fun s'' => has (s''.daos 0) 1) (by decide +kernel)
  obtain ⟨s', hs', htest'⟩ := exists_step htest
  rw [Bool.and_eq_true, Bool.not_eq_true'] at htest'
  obtain ⟨s'', hs'', hhas⟩ := exists_step htest'.2
  exact ⟨_, log, s', s'', .call hrun hs', rfl, htest'.1, hs'', hhas⟩

end ZkVote.Sbt

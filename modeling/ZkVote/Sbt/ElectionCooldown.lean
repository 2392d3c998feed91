import ZkVote.Sbt.Steps

/-!
# The membership token: the election cooldown

A cooldown holds a member in its DAO until a time. The member itself may set and clear it,
as the admin of the DAO may.
-/

open Lib Lib.Outcome

namespace ZkVote.Sbt

/-- The member or the admin of the DAO clears the cooldown, or sets one that ends before the time. -/
def Lowers (dao_id : Nat) (member : Address) (time : Nat) (e : MembershipSbt × SbtEnv × Call) : Prop :=
  ∃ caller, (e.2.2 = .clear_election_cooldown dao_id member caller ∨
      ∃ cooldown_end, cooldown_end < time ∧ e.2.2 = .set_election_cooldown dao_id member cooldown_end caller) ∧
    e.2.1.auths caller = true ∧ (caller = member ∨ e.2.1.get_admin dao_id = some caller)

/-- The member is held until the time, at least. -/
def HeldUntil (d : SbtDao) (member : Address) (time : Nat) : Prop :=
  ∃ cooldown_end, d.transfer_cooldown member = some cooldown_end ∧ time ≤ cooldown_end

section
variable {registry member caller : Address} {env : SbtEnv} {s s' : MembershipSbt} {call : Call} {dao_id time : Nat}
  {d d' : SbtDao} {after before : List (MembershipSbt × SbtEnv × Call)} {e : MembershipSbt × SbtEnv × Call}

theorem member_or_admin_eq_ok {u : Unit} : member_or_admin env dao_id member caller = .ok u ↔
    env.auths caller = true ∧ (caller = member ∨ env.get_admin dao_id = some caller) := by
  unfold member_or_admin assert_dao_admin
  by_cases hcaller : caller = member <;> simp [hcaller, pure, Except.pure]

theorem lowers_of_cools {cooldown : Option Nat} (h : step s env call = .ok s')
    (hcall : call.cools = some (dao_id, member, cooldown)) (hlow : ∀ t, cooldown = some t → t < time) :
    Lowers dao_id member time (s, env, call) := by
  cases call with
  | set_election_cooldown d a cooldown_end caller =>
    cases hcall
    simp only [step, set_election_cooldown, bind_eq_ok, member_or_admin_eq_ok] at h
    obtain ⟨_, hcaller, -⟩ := h
    exact ⟨caller, .inr ⟨cooldown_end, hlow cooldown_end rfl, rfl⟩, hcaller⟩
  | clear_election_cooldown d a caller =>
    cases hcall
    simp only [step, clear_election_cooldown, bind_eq_ok, member_or_admin_eq_ok] at h
    obtain ⟨_, hcaller, -⟩ := h
    exact ⟨caller, .inl rfl, hcaller⟩
  | _ => cases hcall

/-- Only a call that lowers the cooldown frees the member. -/
theorem HeldUntil.kept (hheld : HeldUntil (s.daos dao_id) member time) (h : step s env call = .ok s')
    (hkept : ¬ Lowers dao_id member time (s, env, call)) : HeldUntil (s'.daos dao_id) member time := by
  obtain ⟨cooldown_end, hcooldown, hle⟩ := hheld
  unfold HeldUntil
  cases step_effect h dao_id with
  | join a hcall hregistry hnot hentered hrevoked hlist =>
    rw [hentered.transfer_cooldown]
    exact ⟨cooldown_end, hcooldown, hle⟩
  | registry_mint a hcall hnot hentered hrevoked hlist =>
    rw [hentered.transfer_cooldown]
    exact ⟨cooldown_end, hcooldown, hle⟩
  | cool a cooldown hcall heq =>
    rw [heq]
    by_cases ha : member = a
    · subst ha
      by_cases hlow : ∀ t, cooldown = some t → t < time
      · exact absurd (lowers_of_cools h hcall hlow) hkept
      · push Not at hlow
        obtain ⟨t, rfl, ht⟩ := hlow
        exact ⟨t, Function.update_self _ _ _, ht⟩
    · exact ⟨cooldown_end, (Function.update_of_ne ha _ _).trans hcooldown, hle⟩
  | exit a hcall hmember heq =>
    rw [heq]
    exact ⟨cooldown_end, hcooldown, hle⟩
  | accrue a amount hslash henters hamount heq =>
    rw [heq]
    exact ⟨cooldown_end, hcooldown, hle⟩
  | slash a amount hcall heq =>
    rw [heq]
    exact ⟨cooldown_end, hcooldown, hle⟩
  | quiet henters hsame hrevoked hcool hreputation =>
    rw [hcool]
    exact ⟨cooldown_end, hcooldown, hle⟩

theorem HeldUntil.not_left (hheld : HeldUntil (s.daos dao_id) member time) (hbefore : env.timestamp < time) :
    step s env (.leave dao_id member) ≠ .ok s' := by
  obtain ⟨cooldown_end, hcooldown, hle⟩ := hheld
  intro h
  simp only [step, leave, bind_eq_ok, require_eq_ok, hcooldown, Option.any_some, decide_eq_false_iff_not] at h
  obtain ⟨_, -, _, hpast, -⟩ := h
  exact hpast (hbefore.trans_le hle)

theorem set_election_cooldown_ok (h : step s env (.set_election_cooldown dao_id member time caller) = .ok s') :
    HeldUntil (s'.daos dao_id) member time := by
  simp only [step, set_election_cooldown, bind_eq_ok, pure_eq_ok] at h
  obtain ⟨_, -, rfl⟩ := h
  rw [MembershipSbt.set_dao_daos, Function.update_self]
  exact ⟨time, Function.update_self _ _ _, le_rfl⟩

/-- In every run, a member with a cooldown leaves before its end only after the member itself or the admin of the DAO
has cleared it, or set one that ends earlier. -/
theorem cooldown_holds (hrun : SbtRun registry (after ++ e :: before) s)
    (hcall : e.2.2 = .set_election_cooldown dao_id member time caller) (hbefore : env.timestamp < time)
    (hleave : step s env (.leave dao_id member) = .ok s') : ∃ x ∈ after, Lowers dao_id member time x := by
  obtain ⟨s₀, env₀, call₀⟩ := e
  simp only at hcall
  subst hcall
  obtain ⟨s₁, -, hs, hafter⟩ := hrun.cut
  refine hafter.exists_breaking (P := fun s => HeldUntil (s.daos dao_id) member time) (set_election_cooldown_ok hs)
    (fun s call s' hheld hkept hstep => ?_) fun hheld => ?_
  · exact hheld.kept hstep hkept
  · exact hheld.not_left hbefore hleave

end

theorem cooldown_holds_until_cleared : ∃ after e before s s', SbtRun 0 (after ++ e :: before) s ∧
    e.2.2 = .set_election_cooldown 0 1 100 0 ∧ step s sampleEnv (.leave 0 1) = .ok s' ∧
    ∃ x ∈ after, Lowers 0 1 100 x := by
  obtain ⟨log, s, hrun, htest⟩ := exists_run (r := 0) [.mint 0 1 0 none]
    (fun _ s => (step s sampleEnv (.set_election_cooldown 0 1 100 0)).toOption.any fun s' =>
      (step s' sampleEnv (.clear_election_cooldown 0 1 0)).toOption.any fun s'' =>
        (step s'' sampleEnv (.leave 0 1)).isOk) (by decide +kernel)
  obtain ⟨s', hs', htest'⟩ := exists_step htest
  obtain ⟨s'', hs'', htest''⟩ := exists_step htest'
  obtain ⟨s₃, hs₃⟩ := isOk_iff.mp htest''
  have hrun' : SbtRun 0 ([(s', sampleEnv, .clear_election_cooldown 0 1 0)] ++
      (s, sampleEnv, .set_election_cooldown 0 1 100 0) :: log) s'' := .call (.call hrun hs') hs''
  exact ⟨_, _, log, s'', s₃, hrun', rfl, hs₃, cooldown_holds hrun' rfl (by decide) hs₃⟩

/-- The admin holds member 1 until time 100; member 1 clears the cooldown on its own signature, and leaves at time 0. -/
theorem member_frees_itself : ∃ log s s' s₃, SbtRun 0 log s ∧
    (s.daos 0).transfer_cooldown 1 = some 100 ∧ (∃ e ∈ log, e.2.2 = .set_election_cooldown 0 1 100 0) ∧
    step s (signedBy 1) (.clear_election_cooldown 0 1 1) = .ok s' ∧
    step s' (signedBy 1) (.leave 0 1) = .ok s₃ ∧ (signedBy 1).timestamp < 100 := by
  obtain ⟨log, s, hrun, htest⟩ := exists_run (r := 0) [.mint 0 1 0 none]
    (fun _ s => (step s sampleEnv (.set_election_cooldown 0 1 100 0)).toOption.any fun s' : MembershipSbt =>
      decide ((s'.daos 0).transfer_cooldown 1 = some 100) &&
      (step s' (signedBy 1) (.clear_election_cooldown 0 1 1)).toOption.any fun s'' =>
        (step s'' (signedBy 1) (.leave 0 1)).isOk) (by decide +kernel)
  obtain ⟨s', hs', htest'⟩ := exists_step htest
  rw [Bool.and_eq_true] at htest'
  obtain ⟨s'', hs'', htest''⟩ := exists_step htest'.2
  obtain ⟨s₃, hs₃⟩ := isOk_iff.mp htest''
  exact ⟨_, s', s'', s₃, .call hrun hs', of_decide_eq_true htest'.1, ⟨_, List.mem_cons_self, rfl⟩, hs'', hs₃, by decide⟩

end ZkVote.Sbt

import ZkVote.Sbt.Steps

/-!
# The membership token: the weight of a member

The weight grows with the age of the membership and with the reputation. No call moves the
start of a membership, and only a slash takes reputation away.
-/

open Lib Lib.Outcome

namespace ZkVote.Sbt

section
variable {registry member : Address} {env env' : SbtEnv} {s s' : MembershipSbt} {call : Call} {dao_id : Nat}
  {d d' : SbtDao} {log later : List (MembershipSbt × SbtEnv × Call)}

/-! ## Points -/

theorem points_mono (thresholds : List Nat) {v w : Nat} (h : v ≤ w) : points thresholds v ≤ points thresholds w := by
  refine List.countP_mono_left fun threshold _ hle => ?_
  exact decide_eq_true ((of_decide_eq_true hle).trans h)

theorem sybil_weight_of_has (h : has (s.daos dao_id) member = true) : sybil_weight env s dao_id member =
    min (BASE_WEIGHT + age_weight env s dao_id member + reputation_weight s dao_id member) MAX_SYBIL_WEIGHT := by
  unfold sybil_weight
  rw [if_neg (by simp [h])]
  simp only
  split <;> omega

theorem sybil_weight_of_not_has (h : has (s.daos dao_id) member = false) : sybil_weight env s dao_id member = 0 :=
  if_pos h

theorem sybil_weight_bounds (h : has (s.daos dao_id) member = true) :
    1 ≤ sybil_weight env s dao_id member ∧ sybil_weight env s dao_id member ≤ 10 := by
  have hbase : BASE_WEIGHT = 1 := rfl
  have hmax : MAX_SYBIL_WEIGHT = 10 := rfl
  rw [sybil_weight_of_has h]
  omega

theorem sybil_weight_eq_zero : sybil_weight env s dao_id member = 0 ↔ has (s.daos dao_id) member = false := by
  refine ⟨fun hzero => ?_, sybil_weight_of_not_has⟩
  by_contra hhas
  have hpositive : 1 ≤ sybil_weight env s dao_id member := (sybil_weight_bounds (Bool.not_eq_false _ ▸ hhas)).1
  omega

/-- Of an older membership the weight is not less, nor of a higher reputation. -/
theorem sybil_weight_mono (hhas : has (s'.daos dao_id) member = true)
    (hage : member_age_days env s dao_id member ≤ member_age_days env' s' dao_id member)
    (hreputation : reputation s dao_id member ≤ reputation s' dao_id member) :
    sybil_weight env s dao_id member ≤ sybil_weight env' s' dao_id member := by
  cases hbefore : has (s.daos dao_id) member with
  | false =>
    rw [sybil_weight_of_not_has hbefore]
    exact Nat.zero_le _
  | true =>
    have hages : age_weight env s dao_id member ≤ age_weight env' s' dao_id member := points_mono _ hage
    have hreputations : reputation_weight s dao_id member ≤ reputation_weight s' dao_id member :=
      points_mono _ hreputation
    rw [sybil_weight_of_has hbefore, sybil_weight_of_has hhas]
    omega

/-! ## What a call keeps -/

theorem Effect.minted_at (h : Effect env call dao_id d d') {minted : Nat} (hd : d.minted_at member = some minted) :
    d'.minted_at member = some minted := by
  have hentered : ∀ a, Entered env d d' a → d'.minted_at member = some minted := fun a ha => by
    rw [ha.minted_at, Function.update_apply]
    split
    · rename_i heq
      rw [← heq, hd, Option.getD_some]
    · exact hd
  cases h with
  | join a hcall hregistry hnot h hrevoked hlist => exact hentered a h
  | registry_mint a hcall hnot h hrevoked hlist => exact hentered a h
  | quiet henters hsame hrevoked hcooldown hreputation => rw [hsame.minted_at, hd]
  | exit a hcall hmember heq => rw [heq, hd]
  | cool a cooldown hcall heq => rw [heq, hd]
  | accrue a amount hslash henters hamount heq => rw [heq, hd]
  | slash a amount hcall heq => rw [heq, hd]

theorem le_accrued {a : Address} {amount : Nat} (h : (d.reputation a).getD 0 ≤ MAX_REPUTATION) :
    (d.reputation a).getD 0 ≤ accrued d a amount := by
  have hmax : MAX_REPUTATION ≤ 2 ^ 32 - 1 := by decide
  unfold accrued saturatingAdd
  omega

/-- Reputation is within its bound, and only a slash lowers it. -/
theorem Effect.reputation (h : Effect env call dao_id d d') (hd : (d.reputation member).getD 0 ≤ MAX_REPUTATION) :
    (d'.reputation member).getD 0 ≤ MAX_REPUTATION ∧
      (call.slashes ≠ some (dao_id, member) → (d.reputation member).getD 0 ≤ (d'.reputation member).getD 0) := by
  have hsame : d'.reputation member = d.reputation member → (d'.reputation member).getD 0 ≤ MAX_REPUTATION ∧
      (call.slashes ≠ some (dao_id, member) → (d.reputation member).getD 0 ≤ (d'.reputation member).getD 0) :=
    fun heq => by
      rw [heq]
      exact ⟨hd, fun _ => le_rfl⟩
  cases h with
  | join a hcall hregistry hnot h hrevoked hlist => exact hsame (by rw [h.reputation])
  | registry_mint a hcall hnot h hrevoked hlist => exact hsame (by rw [h.reputation])
  | quiet henters hsame' hrevoked hcooldown hreputation => exact hsame (by rw [hreputation])
  | exit a hcall hmember heq => exact hsame (by rw [heq])
  | cool a cooldown hcall heq => exact hsame (by rw [heq])
  | accrue a amount hslash henters hamount heq =>
    subst heq
    by_cases ha : member = a
    · subst ha
      simp only [Function.update_self, Option.getD_some]
      exact ⟨min_le_right _ _, fun _ => le_accrued hd⟩
    · exact hsame (Function.update_of_ne ha _ _)
  | slash a amount hcall heq =>
    subst heq
    by_cases ha : member = a
    · subst ha
      simp only [Function.update_self, Option.getD_some]
      exact ⟨(Nat.sub_le _ _).trans hd, fun hne => absurd hcall hne⟩
    · exact hsame (Function.update_of_ne ha _ _)

theorem SbtRun.reputation_le (hrun : SbtRun registry log s) (dao_id : Nat) (member : Address) :
    Sbt.reputation s dao_id member ≤ MAX_REPUTATION :=
  Run.invariant (P := fun s => Sbt.reputation s dao_id member ≤ MAX_REPUTATION) (Nat.zero_le _)
    (fun _ _ _ h hs => ((step_effect hs dao_id).reputation h).1) hrun

/-! ## From one state to a later one -/

theorem minted_at_kept (hlater : Run Accepts s later s') {minted : Nat}
    (h : (s.daos dao_id).minted_at member = some minted) : (s'.daos dao_id).minted_at member = some minted :=
  Run.invariant (P := fun s => (s.daos dao_id).minted_at member = some minted) h
    (fun _ _ _ h hs => (step_effect hs dao_id).minted_at h) hlater

theorem member_age_mono (hlater : Run Accepts s later s') (htime : env.timestamp ≤ env'.timestamp) :
    member_age_days env s dao_id member ≤ member_age_days env' s' dao_id member := by
  unfold member_age_days
  cases hminted : (s.daos dao_id).minted_at member with
  | none => exact Nat.zero_le _
  | some minted =>
    rw [minted_at_kept hlater hminted]
    exact Nat.div_le_div_right (Nat.sub_le_sub_right htime minted)

theorem reputation_mono (hlater : Run Accepts s later s') (hle : Sbt.reputation s dao_id member ≤ MAX_REPUTATION)
    (hquiet : ∀ e ∈ later, e.2.2.slashes ≠ some (dao_id, member)) :
    Sbt.reputation s dao_id member ≤ Sbt.reputation s' dao_id member := by
  have hkept : Sbt.reputation s dao_id member ≤ Sbt.reputation s' dao_id member ∧
      Sbt.reputation s' dao_id member ≤ MAX_REPUTATION := by
    refine Run.invariant_of (C := fun _ call => call.2.slashes ≠ some (dao_id, member))
      (P := fun s' => Sbt.reputation s dao_id member ≤ Sbt.reputation s' dao_id member ∧
        Sbt.reputation s' dao_id member ≤ MAX_REPUTATION) ⟨le_rfl, hle⟩ (fun s₁ call s₂ hP hC hs => ?_) hlater hquiet
    obtain ⟨hbound, hmono⟩ := (step_effect hs dao_id).reputation hP.2
    exact ⟨hP.1.trans (hmono hC), hbound⟩
  exact hkept.1

/-- In every reachable state, the weight of an address is 0 if and only if the address is no current member, and
otherwise from 1 to 10; its reputation is within its bound, so that no accrual overflows. In every later state the
start of its membership is the same, and the weight of a member at any later time is not less, unless a slash has come
in between. -/
theorem sybil_weight_law (hrun : SbtRun registry log s) (dao_id : Nat) (member : Address) :
    (∀ env, (sybil_weight env s dao_id member = 0 ↔ has (s.daos dao_id) member = false) ∧
      (has (s.daos dao_id) member = true →
        1 ≤ sybil_weight env s dao_id member ∧ sybil_weight env s dao_id member ≤ 10)) ∧
    (Sbt.reputation s dao_id member ≤ MAX_REPUTATION ∧
      ∀ amount, amount ≤ MAX_REPUTATION → Sbt.reputation s dao_id member + amount < 2 ^ 32) ∧
    ∀ later s', Run Accepts s later s' →
      (∀ minted, (s.daos dao_id).minted_at member = some minted →
        (s'.daos dao_id).minted_at member = some minted) ∧
      ((∀ e ∈ later, e.2.2.slashes ≠ some (dao_id, member)) → has (s'.daos dao_id) member = true →
        ∀ env env', env.timestamp ≤ env'.timestamp →
          sybil_weight env s dao_id member ≤ sybil_weight env' s' dao_id member) := by
  have hle := hrun.reputation_le dao_id member
  refine ⟨fun env => ⟨sybil_weight_eq_zero, sybil_weight_bounds⟩, ⟨hle, fun amount hamount => ?_⟩,
    fun later s' hlater => ⟨fun minted => minted_at_kept hlater, fun hquiet hhas env env' htime => ?_⟩⟩
  · have hmax : MAX_REPUTATION + MAX_REPUTATION < 2 ^ 32 := by decide
    omega
  · exact sybil_weight_mono hhas (member_age_mono hlater htime) (reputation_mono hlater hle hquiet)

end

theorem sybil_weight_law_after_accruing : ∃ log s, SbtRun 0 log s ∧ sybil_weight sampleEnv s 0 1 = 3 ∧
    (∀ env, (sybil_weight env s 0 1 = 0 ↔ has (s.daos 0) 1 = false) ∧
      (has (s.daos 0) 1 = true → 1 ≤ sybil_weight env s 0 1 ∧ sybil_weight env s 0 1 ≤ 10)) ∧
    (reputation s 0 1 ≤ MAX_REPUTATION ∧
      ∀ amount, amount ≤ MAX_REPUTATION → reputation s 0 1 + amount < 2 ^ 32) ∧
    ∀ later s', Run Accepts s later s' →
      (∀ minted, (s.daos 0).minted_at 1 = some minted → (s'.daos 0).minted_at 1 = some minted) ∧
      ((∀ e ∈ later, e.2.2.slashes ≠ some (0, 1)) → has (s'.daos 0) 1 = true →
        ∀ env env', env.timestamp ≤ env'.timestamp → sybil_weight env s 0 1 ≤ sybil_weight env' s' 0 1) := by
  obtain ⟨log, s, hrun, htest⟩ := exists_run (r := 0)
    [.mint 0 1 0 none, .set_reputation_attestor 0 2 true 0, .accrue_reputation 0 1 5 2]
    (fun _ s => decide (sybil_weight sampleEnv s 0 1 = 3)) (by decide +kernel)
  exact ⟨log, s, hrun, of_decide_eq_true htest, sybil_weight_law hrun 0 1⟩

end ZkVote.Sbt

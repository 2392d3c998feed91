import ZkVote.Threshold.Contract
import Mathlib.Algebra.BigOperators.Group.Finset.Basic
import Mathlib.Algebra.Order.BigOperators.Group.Finset
import Mathlib.Data.Finset.Card
import Mathlib.Order.Interval.Finset.Nat

/-!
# The threshold contract: the shares of the key

Who can keep the key from being finalized, and what it is.
-/

open Lib Lib.Outcome

namespace ZkVote.Threshold

/-! ## The law -/

def ThresholdState.participants (s : ThresholdState) : List Address := s.participant_list.getD []

/-- The participants with a share. -/
def ThresholdState.holders (s : ThresholdState) : Finset Address :=
  s.participants.toFinset.filter fun a => s.share a ≠ none

/-- The sum of their shares. -/
def ThresholdState.shareSum (s : ThresholdState) : Nat := ∑ a ∈ s.holders, (s.share a).getD 0

/-- Enough participants have submitted shares, and the key is not final. -/
structure Ready (s : ThresholdState) (cfg : DkgConfig) : Prop where
  config : s.config = some cfg
  unfinished : cfg.finalized = false
  enough : ∃ as : Finset Address, cfg.threshold ≤ as.card ∧
    ∀ a ∈ as, s.participant a = true ∧ ∃ x, s.share a = some x ∧ x ≠ 0

/-- The admin can finalize the key to the sum of the shares, it stays what it is, and the count is that of the shares. -/
structure DkgHolds (g1_add : G1Add) (s : ThresholdState) : Prop where
  finalizes : ∀ cfg env, Ready s cfg → env.auths cfg.admin = true →
    ∃ s', finalize_dkg env s = .ok (s.shareSum % 2 ^ 256, s') ∧ s'.final_key = some (s.shareSum % 2 ^ 256)
  kept : ∀ key log s', s.final_key = some key → Run (Accepts g1_add) s log s' → s'.final_key = some key
  counted : s.share_count.getD 0 = s.holders.card
  holders : ∀ a, s.share a ≠ none ↔ a ∈ s.holders

/-! ## The invariant -/

structure DkgOk (s : ThresholdState) : Prop where
  admin : ∀ cfg, s.config = some cfg → s.admin = some cfg.admin
  positive : ∀ cfg, s.config = some cfg → cfg.threshold ≠ 0
  unset : s.config = none → s.participants = []
  nodup : s.participants.Nodup
  members : ∀ a, s.participant a = true ↔ a ∈ s.participants
  shares : ∀ a x, s.share a = some x → a ∈ s.participants ∧ x ≠ 0
  counted : s.share_count.getD 0 = s.holders.card
  final : s.final_key ≠ none → ∃ cfg, s.config = some cfg ∧ cfg.finalized = true

section
variable {g1_add : G1Add} {env : Env} {s s' : ThresholdState} {cfg : DkgConfig} {a : Address} {x : U256}
  {log : List (ThresholdState × Env × Call)}

theorem DkgOk.mem_holders (h : DkgOk s) : s.share a ≠ none ↔ a ∈ s.holders := by
  unfold ThresholdState.holders
  rw [Finset.mem_filter, List.mem_toFinset]
  constructor
  · intro hshare
    obtain ⟨x, hx⟩ := Option.ne_none_iff_exists'.mp hshare
    exact ⟨(h.shares a x hx).1, hshare⟩
  · exact fun hmem => hmem.2

theorem assert_open_eq_ok : assert_open env s = .ok cfg ↔
    s.config = some cfg ∧ cfg.finalized = false ∧ s.admin = some cfg.admin ∧ env.auths cfg.admin = true := by
  simp only [assert_open, bind_eq_ok, orPanic_eq_ok, expect_eq_ok, require_auth_eq_ok, require_eq_ok, pure_eq_ok]
  constructor
  · rintro ⟨c, hc, admin, hadmin, _, hauth, _, rfl, _, hopen, rfl⟩
    exact ⟨hc, hopen, hadmin, hauth⟩
  · rintro ⟨hc, hopen, hadmin, hauth⟩
    exact ⟨cfg, hc, cfg.admin, hadmin, (), hauth, (), rfl, (), hopen, rfl⟩

/-! ## Steps -/

theorem initialize_dkg_ok {admin : Address} {threshold total : Nat} (hs : DkgOk s)
    (h : initialize_dkg env s admin threshold total = .ok s') : DkgOk s' := by
  simp only [initialize_dkg, bind_eq_ok, require_eq_ok, require_auth_eq_ok, pure_eq_ok] at h
  obtain ⟨-, hunset, -, -, -, -, -, hthreshold, rfl⟩ := h
  have hnone : ∀ a, s.share a = none := by
    intro a
    by_contra hshare
    obtain ⟨x, hx⟩ := Option.ne_none_iff_exists'.mp hshare
    have hmem := (hs.shares a x hx).1
    rw [hs.unset hunset] at hmem
    cases hmem
  have hfinal : s.final_key = none := by
    by_contra hne
    obtain ⟨cfg, hcfg, -⟩ := hs.final hne
    rw [hunset] at hcfg
    cases hcfg
  exact {
    admin := fun cfg hcfg => by cases hcfg; rfl
    positive := fun cfg hcfg => by
      cases hcfg
      exact fun hzero => hthreshold (.inl hzero)
    unset := fun _ => rfl
    nodup := List.nodup_nil
    members := fun a => by
      have hmembers := hs.members a
      rw [hs.unset hunset] at hmembers
      exact hmembers
    shares := fun a x hx => by
      rw [hnone a] at hx
      cases hx
    counted := rfl
    final := fun hne => absurd hfinal hne }

theorem add_participant_ok (hs : DkgOk s) (h : add_participant env s a = .ok s') : DkgOk s' := by
  simp only [add_participant, bind_eq_ok, require_eq_ok, pure_eq_ok, assert_open_eq_ok] at h
  obtain ⟨cfg, ⟨hcfg, hopen, -⟩, -, hnew, -, hroom, rfl⟩ := h
  have hnotMem : a ∉ s.participants := fun hmem => by
    rw [(hs.members a).mpr hmem] at hnew
    cases hnew
  have hnone : s.share a = none := by
    by_contra hshare
    obtain ⟨x, hx⟩ := Option.ne_none_iff_exists'.mp hshare
    exact hnotMem (hs.shares a x hx).1
  have hholders : ThresholdState.holders { s with
      participant := Function.update s.participant a true
      participant_list := some (s.participants ++ [a]) } = s.holders := by
    ext b
    simp only [ThresholdState.holders, ThresholdState.participants, Option.getD_some, Finset.mem_filter,
      List.mem_toFinset, List.mem_append, List.mem_singleton]
    constructor
    · rintro ⟨hmem | rfl, hshare⟩
      · exact ⟨hmem, hshare⟩
      · exact absurd hnone hshare
    · rintro ⟨hmem, hshare⟩
      exact ⟨.inl hmem, hshare⟩
  exact {
    admin := hs.admin
    positive := hs.positive
    unset := fun hunset => by
      rw [hcfg] at hunset
      cases hunset
    nodup := hs.nodup.append (List.nodup_singleton a) (by simpa using hnotMem)
    members := fun b => by
      change Function.update s.participant a true b = true ↔ b ∈ s.participants ++ [a]
      rw [List.mem_append, List.mem_singleton, Function.update_apply]
      by_cases hb : b = a
      · simp [hb]
      · simp [hb, hs.members b]
    shares := fun b x hx => ⟨List.mem_append_left _ (hs.shares b x hx).1, (hs.shares b x hx).2⟩
    counted := hs.counted.trans (congrArg Finset.card hholders.symm)
    final := hs.final }

theorem submit_share_ok (hs : DkgOk s) (h : submit_share env s a x = .ok s') : DkgOk s' := by
  simp [submit_share] at h
  obtain ⟨-, cfg, hcfg, hopen, hmember, hnone, hne, -, rfl⟩ := h
  have hmem : a ∈ s.participants := (hs.members a).mp hmember
  have hholders : ThresholdState.holders { s with
      share := Function.update s.share a (some x)
      share_count := some (s.share_count.getD 0 + 1) } = insert a s.holders := by
    ext b
    simp only [ThresholdState.holders, ThresholdState.participants, Finset.mem_insert, Finset.mem_filter,
      List.mem_toFinset, Function.update_apply]
    by_cases hb : b = a
    · subst hb
      simp only [true_or, if_true, ne_eq, reduceCtorEq, not_false_eq_true, and_true, iff_true]
      exact hmem
    · simp [hb]
  have hnew : a ∉ s.holders := fun h => (hs.mem_holders.mpr h) hnone
  exact {
    admin := hs.admin
    positive := hs.positive
    unset := hs.unset
    nodup := hs.nodup
    members := hs.members
    shares := fun b y hy => by
      simp only [Function.update_apply] at hy
      split at hy
      · next hb =>
        cases hy
        exact ⟨hb ▸ hmem, hne⟩
      · exact hs.shares b y hy
    counted := by
      rw [hholders, Finset.card_insert_of_notMem hnew, ← hs.counted]
      rfl
    final := hs.final }

/-- All that an accepted finalization says. -/
structure FinalizedKey (env : Env) (s s' : ThresholdState) (key : U256) (cfg : DkgConfig) : Prop where
  config : s.config = some cfg
  unfinished : cfg.finalized = false
  signed : env.auths cfg.admin = true
  added : ∃ agg, add_shares s.share s.participants 0 = .ok agg ∧ key = if agg = 0 then 1 else agg
  post : s' = { s with
    final_key := some key
    config := some { cfg with finalized := true }
    finalized := some true }

theorem finalize_dkg_finalized {key : U256} (h : finalize_dkg env s = .ok (key, s')) :
    ∃ cfg, FinalizedKey env s s' key cfg := by
  simp only [finalize_dkg, bind_eq_ok, require_eq_ok, pure_eq_ok, assert_open_eq_ok, Prod.mk.injEq] at h
  obtain ⟨cfg, ⟨hcfg, hopen, -, hauth⟩, -, -, agg, hagg, rfl, rfl⟩ := h
  exact ⟨cfg, hcfg, hopen, hauth, ⟨agg, hagg, rfl⟩, rfl⟩

theorem finalize_dkg_ok {key : U256} (hs : DkgOk s) (h : finalize_dkg env s = .ok (key, s')) : DkgOk s' := by
  obtain ⟨cfg, hfinalized⟩ := finalize_dkg_finalized h
  rw [hfinalized.post]
  exact {
    admin := fun c hc => by
      cases hc
      exact hs.admin cfg hfinalized.config
    positive := fun c hc => by
      cases hc
      exact hs.positive cfg hfinalized.config
    unset := fun hunset => by cases hunset
    nodup := hs.nodup
    members := hs.members
    shares := hs.shares
    counted := hs.counted
    final := fun _ => ⟨_, rfl, rfl⟩ }

/-- What is kept by a call that has nothing to do with the key. -/
structure SameDkg (s s' : ThresholdState) : Prop where
  config : s'.config = s.config
  admin : s'.admin = s.admin
  participant : s'.participant = s.participant
  participant_list : s'.participant_list = s.participant_list
  share : s'.share = s.share
  share_count : s'.share_count = s.share_count
  final_key : s'.final_key = s.final_key

theorem SameDkg.ok (h : SameDkg s s') (hs : DkgOk s) : DkgOk s' := by
  have hparticipants : s'.participants = s.participants := congrArg (Option.getD · []) h.participant_list
  have hholders : s'.holders = s.holders := by
    unfold ThresholdState.holders
    rw [hparticipants, h.share]
  constructor
  · rw [h.config, h.admin]
    exact hs.admin
  · rw [h.config]
    exact hs.positive
  · rw [h.config, hparticipants]
    exact hs.unset
  · rw [hparticipants]
    exact hs.nodup
  · rw [h.participant, hparticipants]
    exact hs.members
  · rw [h.share, hparticipants]
    exact hs.shares
  · rw [h.share_count, hholders]
    exact hs.counted
  · rw [h.final_key, h.config]
    exact hs.final

theorem init_analytics_same {min_cohort : Nat} {admin : Address}
    (h : init_analytics env s min_cohort admin = .ok s') : SameDkg s s' := by
  simp [init_analytics] at h
  obtain ⟨-, -, -, rfl⟩ := h
  exact ⟨rfl, rfl, rfl, rfl, rfl, rfl, rfl⟩

theorem submit_analytic_contribution_same {dao_id round_id : Nat} {c1 c2 : BytesN 64}
    (h : submit_analytic_contribution g1_add env s dao_id round_id c1 c2 a = .ok s') : SameDkg s s' := by
  simp [submit_analytic_contribution] at h
  obtain ⟨-, -, -, _, -, _, -, -, rfl⟩ := h
  exact ⟨rfl, rfl, rfl, rfl, rfl, rfl, rfl⟩

theorem DkgOk.step {call : Env × Call} (hs : DkgOk s) (h : Accepts g1_add s call s') : DkgOk s' := by
  obtain ⟨env, call⟩ := call
  unfold Accepts Threshold.step at h
  cases call with
  | initialize_dkg => exact initialize_dkg_ok hs h
  | add_participant => exact add_participant_ok hs h
  | submit_share => exact submit_share_ok hs h
  | finalize_dkg =>
    obtain ⟨⟨key, s''⟩, hkey, rfl⟩ := map_eq_ok.mp h
    exact finalize_dkg_ok hs hkey
  | init_analytics => exact (init_analytics_same h).ok hs
  | submit_analytic_contribution => exact (submit_analytic_contribution_same h).ok hs

theorem dkgOk_start : DkgOk {} where
  admin _ h := by cases h
  positive _ h := by cases h
  unset _ := rfl
  nodup := List.nodup_nil
  members _ := by simp [ThresholdState.participants]
  shares _ _ h := by cases h
  counted := rfl
  final h := absurd rfl h

theorem ThresholdRun.ok (hrun : ThresholdRun g1_add log s) : DkgOk s :=
  Run.invariant dkgOk_start (fun _ _ _ hs h => hs.step h) hrun

/-! ## The key stays -/

theorem final_key_step {call : Env × Call} {key : U256} (hs : DkgOk s) (hkey : s.final_key = some key)
    (h : Accepts g1_add s call s') : s'.final_key = some key := by
  obtain ⟨cfg, hcfg, hfinal⟩ := hs.final (by rw [hkey]; simp)
  obtain ⟨env, call⟩ := call
  unfold Accepts Threshold.step at h
  cases call with
  | initialize_dkg =>
    simp [initialize_dkg, hcfg] at h
  | add_participant =>
    simp only [add_participant, bind_eq_ok, assert_open_eq_ok] at h
    obtain ⟨cfg', ⟨hcfg', hopen, -⟩, -⟩ := h
    cases hcfg.symm.trans hcfg'
    cases hfinal.symm.trans hopen
  | submit_share =>
    simp [submit_share, hcfg, hfinal] at h
  | finalize_dkg =>
    obtain ⟨⟨key', s''⟩, hkey', rfl⟩ := map_eq_ok.mp h
    obtain ⟨cfg', hfinalized⟩ := finalize_dkg_finalized hkey'
    cases hcfg.symm.trans hfinalized.config
    cases hfinal.symm.trans hfinalized.unfinished
  | init_analytics =>
    rw [(init_analytics_same h).final_key, hkey]
  | submit_analytic_contribution =>
    rw [(submit_analytic_contribution_same h).final_key, hkey]

theorem final_key_run {key : U256} (hs : DkgOk s) (hkey : s.final_key = some key)
    (hrun : Run (Accepts g1_add) s log s') : s'.final_key = some key :=
  (Run.invariant (P := fun s => DkgOk s ∧ s.final_key = some key) ⟨hs, hkey⟩
    (fun _ _ _ hs h => ⟨hs.1.step h, final_key_step hs.1 hs.2 h⟩) hrun).2

/-! ## The sum -/

/-- The loop adds up what fits in a word, and traps on anything else. -/
theorem add_shares_eq_ok {share : Address → Option U256} {as : List Address} {agg total : U256} (hagg : agg < 2 ^ 256) :
    add_shares share as agg = .ok total ↔
      agg + (as.map fun a => (share a).getD 0).sum = total ∧ total < 2 ^ 256 := by
  induction as generalizing agg with
  | nil =>
    simp only [add_shares, Except.ok.injEq, List.map_nil, List.sum_nil, Nat.add_zero]
    exact ⟨fun heq => ⟨heq, heq ▸ hagg⟩, fun h => h.1⟩
  | cons a as ih =>
    unfold add_shares
    rw [List.map_cons, List.sum_cons]
    cases share a with
    | none => rw [ih hagg, Option.getD_none, Nat.zero_add]
    | some x =>
      simp only [bind_eq_ok, expect_eq_ok, checkedAdd_eq_some, Option.getD_some]
      constructor
      · rintro ⟨agg', ⟨hfits, rfl⟩, hrest⟩
        obtain ⟨hsum, htotal⟩ := (ih hfits).mp hrest
        exact ⟨(Nat.add_assoc ..).symm.trans hsum, htotal⟩
      · rintro ⟨hsum, htotal⟩
        have hassoc : agg + x + (as.map fun a => (share a).getD 0).sum = total := (Nat.add_assoc ..).trans hsum
        have hfits : agg + x < 2 ^ 256 := lt_of_le_of_lt (hassoc ▸ Nat.le_add_right ..) htotal
        exact ⟨agg + x, ⟨hfits, rfl⟩, (ih hfits).mpr ⟨hassoc, htotal⟩⟩

theorem DkgOk.sum_eq (hs : DkgOk s) : (s.participants.map fun a => (s.share a).getD 0).sum = s.shareSum := by
  unfold ThresholdState.shareSum ThresholdState.holders
  rw [Finset.sum_filter, ← List.sum_toFinset _ hs.nodup]
  apply Finset.sum_congr rfl
  intro a _
  cases s.share a <;> rfl

theorem Ready.card_le (h : Ready s cfg) (hs : DkgOk s) : cfg.threshold ≤ s.holders.card := by
  obtain ⟨as, hcard, has⟩ := h.enough
  refine hcard.trans (Finset.card_le_card fun a ha => ?_)
  obtain ⟨-, x, hx, -⟩ := has a ha
  exact hs.mem_holders.mp (by rw [hx]; simp)

theorem ready_of_card (hs : DkgOk s) (hcfg : s.config = some cfg) (hopen : cfg.finalized = false)
    (hcard : cfg.threshold ≤ s.holders.card) : Ready s cfg := by
  refine ⟨hcfg, hopen, s.holders, hcard, fun a ha => ?_⟩
  obtain ⟨x, hx⟩ := Option.ne_none_iff_exists'.mp (hs.mem_holders.mpr ha)
  obtain ⟨hmem, hne⟩ := hs.shares a x hx
  exact ⟨(hs.members a).mpr hmem, x, hx, hne⟩

/-- Nobody submits zero, so the sum is the key as it is. -/
theorem DkgOk.shareSum_ne_zero (hs : DkgOk s) (hready : Ready s cfg) : s.shareSum ≠ 0 := by
  have hcard := hready.card_le hs
  have hpositive := hs.positive cfg hready.config
  obtain ⟨a, ha⟩ := Finset.card_pos.mp (show 0 < s.holders.card by omega)
  obtain ⟨x, hx⟩ := Option.ne_none_iff_exists'.mp (hs.mem_holders.mpr ha)
  have hle : (s.share a).getD 0 ≤ s.shareSum :=
    Finset.single_le_sum (f := fun a => (s.share a).getD 0) (fun _ _ => Nat.zero_le _) ha
  rw [hx, Option.getD_some] at hle
  have hne : x ≠ 0 := (hs.shares a x hx).2
  intro hzero
  rw [hzero] at hle
  exact hne (Nat.le_zero.mp hle)

theorem finalize_dkg_eq_ok (hs : DkgOk s) (hready : Ready s cfg) (hauth : env.auths cfg.admin = true) {key : U256} :
    (∃ s', finalize_dkg env s = .ok (key, s')) ↔ key = s.shareSum ∧ s.shareSum < 2 ^ 256 := by
  have hsum : ∀ agg, add_shares s.share s.participants 0 = .ok agg ↔ s.shareSum = agg ∧ agg < 2 ^ 256 := by
    intro agg
    rw [add_shares_eq_ok (by norm_num), hs.sum_eq, Nat.zero_add]
  constructor
  · rintro ⟨s', h⟩
    obtain ⟨cfg', hfinalized⟩ := finalize_dkg_finalized h
    obtain ⟨agg, hagg, rfl⟩ := hfinalized.added
    obtain ⟨rfl, hfits⟩ := (hsum agg).mp hagg
    exact ⟨if_neg (hs.shareSum_ne_zero hready), hfits⟩
  · rintro ⟨rfl, hfits⟩
    refine ⟨{ s with
      final_key := some s.shareSum
      config := some { cfg with finalized := true }
      finalized := some true }, ?_⟩
    simp only [finalize_dkg, bind_eq_ok, require_eq_ok, pure_eq_ok, assert_open_eq_ok, Prod.mk.injEq]
    exact ⟨cfg, ⟨hready.config, hready.unfinished, hs.admin cfg hready.config, hauth⟩, (),
      by rw [hs.counted, not_lt]; exact hready.card_le hs, s.shareSum, (hsum _).mpr ⟨rfl, hfits⟩,
      if_neg (hs.shareSum_ne_zero hready), by rw [if_neg (hs.shareSum_ne_zero hready)]⟩

/-- The law holds in a state if and only if the shares add up without an overflow once the key can be finalized. -/
theorem dkg_holds_iff (hrun : ThresholdRun g1_add log s) :
    DkgHolds g1_add s ↔ ∀ cfg, Ready s cfg → s.shareSum < 2 ^ 256 := by
  have hs := hrun.ok
  constructor
  · intro h cfg hready
    obtain ⟨s', hok, -⟩ := h.finalizes cfg (.signedAt 0) hready rfl
    exact ((finalize_dkg_eq_ok hs hready rfl).mp ⟨s', hok⟩).2
  · intro hfits
    refine ⟨fun cfg env hready hauth => ?_, fun key log s' => final_key_run hs, hs.counted, fun a => hs.mem_holders⟩
    rw [Nat.mod_eq_of_lt (hfits cfg hready)]
    obtain ⟨s', hok⟩ := (finalize_dkg_eq_ok hs hready hauth).mpr ⟨rfl, hfits cfg hready⟩
    obtain ⟨cfg', hfinalized⟩ := finalize_dkg_finalized hok
    exact ⟨s', hok, by rw [hfinalized.post]⟩

end

/-! ## Two of two -/

def next (s : ThresholdState) (call : Env × Call) : Option ThresholdState :=
  (step (fun _ _ => none) s call.1 call.2).toOption

theorem exists_run (calls : List Call) (test : ThresholdState → Bool)
    (h : (Run.replay next (calls.map (Env.signedAt 0, ·)) [] {}).any (fun r => test r.2) = true) :
    ∃ log s, ThresholdRun (fun _ _ => none) log s ∧ test s = true := by
  refine Run.exists_of_replay (p := fun _ s => test s) (fun s call s' h => ?_) h
  exact toOption_eq_some.mp h

/-- The participants 1 and 2 submit `x` and `y`. -/
def twoShares (x y : U256) : List Call :=
  [.initialize_dkg 0 2 2, .add_participant 1, .add_participant 2, .submit_share 1 x, .submit_share 2 y]

theorem dkg_holds_iff_for_two_shares : ∃ log s, ThresholdRun (fun _ _ => none) log s ∧
    (DkgHolds (fun _ _ => none) s ↔ ∀ cfg, Ready s cfg → s.shareSum < 2 ^ 256) ∧ s.final_key = some 8 := by
  obtain ⟨log, s, hrun, htest⟩ := exists_run (twoShares 3 5 ++ [.finalize_dkg]) (fun s => s.final_key == some 8)
    (by decide +kernel)
  exact ⟨log, s, hrun, dkg_holds_iff hrun, eq_of_beq htest⟩

/-- The second participant submits a share that makes the sum overflow, and nobody can finalize the key. -/
theorem dkg_blocked : ∃ log s cfg, ThresholdRun (fun _ _ => none) log s ∧ Ready s cfg ∧
    (∀ env, (finalize_dkg env s).toOption = none) ∧ ¬ DkgHolds (fun _ _ => none) s := by
  obtain ⟨log, s, hrun, htest⟩ := exists_run (twoShares 1 (2 ^ 256 - 1))
    (fun s => decide (s.config = some ⟨0, 2, 2, false⟩ ∧ s.share_count = some 2 ∧
      s.participant_list = some [1, 2] ∧ s.share 1 = some 1 ∧ s.share 2 = some (2 ^ 256 - 1))) (by decide +kernel)
  obtain ⟨hcfg, hcount, hlist, hone, htwo⟩ := of_decide_eq_true htest
  have hs := hrun.ok
  have hcard : s.holders.card = 2 := by rw [← hs.counted, hcount, Option.getD_some]
  have hready := ready_of_card hs hcfg rfl hcard.ge
  have hsum : s.shareSum = 2 ^ 256 := by
    rw [← hs.sum_eq, ThresholdState.participants, hlist, Option.getD_some]
    simp [hone, htwo]
  have hfails : ∀ env, (finalize_dkg env s).toOption = none := by
    intro env
    cases hok : finalize_dkg env s with
    | error e => rfl
    | ok r =>
      obtain ⟨cfg', hfinalized⟩ := finalize_dkg_finalized hok
      cases hcfg.symm.trans hfinalized.config
      have hfits := ((finalize_dkg_eq_ok hs hready hfinalized.signed).mp ⟨r.2, hok⟩).2
      omega
  refine ⟨log, s, ⟨0, 2, 2, false⟩, hrun, hready, hfails, fun h => ?_⟩
  obtain ⟨s', hok, -⟩ := h.finalizes _ (.signedAt 0) hready rfl
  have hnone := hfails (.signedAt 0)
  rw [hok] at hnone
  cases hnone

end ZkVote.Threshold

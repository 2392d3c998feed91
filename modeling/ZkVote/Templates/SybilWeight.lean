import ZkVote.Sbt.Weight
import ZkVote.Templates.Membership
import ZkVote.Voting.Terms

/-!
# The circuit of the weighted ballots

`circuits/range_proof.circom`, `circuits/sybil_weight.circom`, `circuits/sybil_weighted_vote.circom`: the curve that
`membership-sbt` computes, as constraints.
-/

open Lib Lib.Outcome
open ZkVote.Prover (Fr SCALAR_MODULUS)

namespace ZkVote.Templates

/-! ## The templates -/

structure RangeProof (lib : Circomlib) (BITS : Nat) (input maxValue : Fr) : Prop where
  bits : ∃ bits : Nat → Fr, (∀ i < BITS, bits i * (bits i - 1) = 0) ∧
    (∑ i ∈ Finset.range BITS, bits i * 2 ^ i) = input
  leq : lib.LessEqThan BITS input maxValue 1

def AGE_THRESHOLDS : List Nat := [7, 30, 90, 180, 365]
def REP_THRESHOLDS : List Nat := [1, 5, 15, 40, 100]
def BASE_WEIGHT : Nat := 1
def MAX_WEIGHT : Nat := 10

/-- The outputs of one comparator for each threshold. -/
def Crosses (lib : Circomlib) (input : Fr) : List Nat → List Fr → Prop :=
  List.Forall₂ fun threshold out => lib.GreaterEqThan 32 input threshold out

def SybilWeightCurve (lib : Circomlib) (ageDays reputation weight : Fr) : Prop :=
  ∃ ageGe repGe overMax, Crosses lib ageDays AGE_THRESHOLDS ageGe ∧ Crosses lib reputation REP_THRESHOLDS repGe ∧
    lib.GreaterThan 8 (BASE_WEIGHT + ageGe.sum + repGe.sum) MAX_WEIGHT overMax ∧
    weight = (BASE_WEIGHT + ageGe.sum + repGe.sum) + overMax * (MAX_WEIGHT - (BASE_WEIGHT + ageGe.sum + repGe.sum))

structure AgeInDays (lib : Circomlib) (BITS : Nat) (mintedAt snapshotTime ageDays : Fr) : Prop where
  notFuture : lib.LessEqThan BITS mintedAt snapshotTime 1
  lower : lib.LessEqThan BITS (ageDays * 86400) (snapshotTime - mintedAt) 1
  upper : lib.LessThan BITS (snapshotTime - mintedAt) ((ageDays + 1) * 86400) 1

/-- The constraints between what is attested and the weight. -/
structure Weighs (lib : Circomlib) (mintedAt reputation ageDays snapshotTime voteWeight : Fr) : Prop where
  repRange : RangeProof lib 32 reputation 10000
  ageRange : RangeProof lib 32 ageDays 36500
  age : AgeInDays lib 40 mintedAt snapshotTime ageDays
  curve : SybilWeightCurve lib ageDays reputation voteWeight

/-- The private inputs that a plain ballot does not have. -/
structure Attested where
  subjectSecret : Fr
  attestationSalt : Fr
  mintedAt : Fr
  reputation : Fr
  ageDays : Fr

structure SybilWeightedVote (lib : Circomlib) (levels : Nat) (root nullifier daoId proposalId voteChoice numCandidates
    snapshotTime attestationCommitment voteWeight : Fr) (voter : Voter) (a : Attested) : Prop where
  included : MerkleTreeInclusionProof lib levels (voter.commitment lib) voter.path root
  attested : attestationCommitment =
    lib.Poseidon [daoId, a.subjectSecret, a.mintedAt, a.reputation, a.attestationSalt]
  weighs : Weighs lib a.mintedAt a.reputation a.ageDays snapshotTime voteWeight
  nullifier_eq : nullifier = lib.Poseidon [voter.secret, daoId, proposalId]
  validChoice : lib.LessThan 32 voteChoice numCandidates 1

/-! ## Numbers in the field -/

theorem val_natCast {n : Nat} (h : n < 2 ^ 252) : ((n : Nat) : Fr).val = n :=
  ZMod.val_natCast_of_lt (h.trans (by decide))

/-- Of an element of the field, or none: a comparator that has to say yes says what it compares. -/
theorem Compares.one {comparator : Nat → Fr → Fr → Fr → Prop} {holds : Nat → Nat → Bool}
    (h : Compares comparator holds) {n : Nat} {a b : Fr} (hn : n ≤ 252) (ha : a.val < 2 ^ n) (hb : b.val < 2 ^ n) :
    comparator n a b 1 ↔ holds a.val b.val = true := by
  rw [h n a b 1 hn ha hb]
  cases holds a.val b.val <;> simp

theorem sum_bits_lt {bits : Nat → Nat} (n : Nat) (h : ∀ i < n, bits i ≤ 1) :
    ∑ i ∈ Finset.range n, bits i * 2 ^ i < 2 ^ n := by
  induction n with
  | zero => simp
  | succ n ih =>
    have hlower := ih fun i hi => h i (by omega)
    have hbit := Nat.mul_le_mul_right (2 ^ n) (h n (by omega))
    rw [Finset.sum_range_succ, pow_succ]
    omega

theorem sum_bits_eq (v n : Nat) : ∑ i ∈ Finset.range n, v / 2 ^ i % 2 * 2 ^ i = v % 2 ^ n := by
  induction n with
  | zero => simp [Nat.mod_one]
  | succ n ih => rw [Finset.sum_range_succ, ih, Nat.mod_pow_succ, Nat.mul_comm]

section
variable {lib : Circomlib}

theorem rangeProof_iff (hlib : lib.Exact) {BITS : Nat} (hBITS : BITS ≤ 252) {input maxValue : Fr}
    (hmax : maxValue.val < 2 ^ BITS) : RangeProof lib BITS input maxValue ↔ input.val ≤ maxValue.val := by
  have hpow : 2 ^ BITS ≤ 2 ^ 252 := Nat.pow_le_pow_right (by decide) hBITS
  constructor
  · rintro ⟨⟨bits, hbinary, hsum⟩, hleq⟩
    have hbits : ∀ i < BITS, (bits i).val ≤ 1 := fun i hi => by
      rcases mul_sub_one_eq_zero.mp (hbinary i hi) with h | h <;> rw [h]
      · exact Nat.zero_le _
      · exact le_refl 1
    have hlt := @sum_bits_lt (fun i => (bits i).val) BITS hbits
    have hinput : input.val = ∑ i ∈ Finset.range BITS, (bits i).val * 2 ^ i := by
      rw [← hsum, ← val_natCast (hlt.trans_le hpow)]
      push_cast
      simp only [ZMod.natCast_zmod_val]
    exact of_decide_eq_true ((hlib.less_eq.one hBITS (hinput ▸ hlt) hmax).mp hleq)
  · intro hle
    have hlt := hle.trans_lt hmax
    refine ⟨⟨fun i => (input.val / 2 ^ i % 2 : Nat), fun i _ => ?_, ?_⟩,
      (hlib.less_eq.one hBITS hlt hmax).mpr (decide_eq_true hle)⟩
    · rcases Nat.mod_two_eq_zero_or_one (input.val / 2 ^ i) with h | h <;> simp [h]
    · have hsum := congrArg (Nat.cast (R := Fr)) (sum_bits_eq input.val BITS)
      rw [Nat.mod_eq_of_lt hlt, ZMod.natCast_zmod_val] at hsum
      refine Eq.trans ?_ hsum
      push_cast
      rfl

/-! ## The curve -/

theorem crosses_sum (hlib : lib.Exact) {input : Fr} (hinput : input.val < 2 ^ 32) {thresholds : List Nat}
    (hthresholds : ∀ t ∈ thresholds, t < 2 ^ 32) (sum : Fr) :
    (∃ outs, Crosses lib input thresholds outs ∧ outs.sum = sum) ↔ sum = (Sbt.points thresholds input.val : Nat) := by
  have hout : ∀ t ∈ thresholds, ∀ out, lib.GreaterEqThan 32 input (t : Nat) out ↔
      out = if t ≤ input.val then 1 else 0 := fun t ht out => by
    have hval : ((t : Nat) : Fr).val = t := val_natCast ((hthresholds t ht).trans (by decide))
    have h := hlib.greater_eq 32 input (t : Nat) out (by decide) hinput (by rw [hval]; exact hthresholds t ht)
    simpa only [hval, decide_eq_true_eq] using h
  have hcrosses : ∀ outs, Crosses lib input thresholds outs ↔
      outs = thresholds.map fun t => if t ≤ input.val then 1 else 0 := by
    clear hthresholds
    induction thresholds with
    | nil => simp [Crosses]
    | cons t thresholds ih =>
      rw [List.forall_mem_cons] at hout
      intro outs
      unfold Crosses at ih ⊢
      cases outs with
      | nil => simp
      | cons out outs => simp [hout.1, ih hout.2]
  have hsum : ∀ l : List Nat, (l.map fun t => if t ≤ input.val then (1 : Fr) else 0).sum =
      (Sbt.points l input.val : Nat) := by
    intro l
    induction l with
    | nil => rfl
    | cons t l ih =>
      rw [List.map_cons, List.sum_cons, ih]
      unfold Sbt.points
      by_cases ht : t ≤ input.val <;> simp [ht, add_comm]
  constructor
  · rintro ⟨outs, houts, rfl⟩
    rw [(hcrosses outs).mp houts, hsum]
  · rintro rfl
    exact ⟨_, (hcrosses _).mpr rfl, hsum _⟩

theorem points_le (thresholds : List Nat) (value : Nat) : Sbt.points thresholds value ≤ thresholds.length :=
  List.countP_le_length

theorem sybilWeightCurve_iff (hlib : lib.Exact) {ageDays reputation weight : Fr} (hage : ageDays.val < 2 ^ 32)
    (hreputation : reputation.val < 2 ^ 32) : SybilWeightCurve lib ageDays reputation weight ↔
      weight = (min (BASE_WEIGHT + Sbt.points AGE_THRESHOLDS ageDays.val +
        Sbt.points REP_THRESHOLDS reputation.val) MAX_WEIGHT : Nat) := by
  have hages := crosses_sum hlib hage (show ∀ t ∈ AGE_THRESHOLDS, t < 2 ^ 32 by decide)
  have hreputations := crosses_sum hlib hreputation (show ∀ t ∈ REP_THRESHOLDS, t < 2 ^ 32 by decide)
  have hfew := points_le AGE_THRESHOLDS ageDays.val
  have hfew' := points_le REP_THRESHOLDS reputation.val
  generalize Sbt.points AGE_THRESHOLDS ageDays.val = p at *
  generalize Sbt.points REP_THRESHOLDS reputation.val = q at *
  have hraw : ((BASE_WEIGHT : Nat) : Fr) + (p : Nat) + (q : Nat) = (BASE_WEIGHT + p + q : Nat) := by push_cast; rfl
  have hlt : BASE_WEIGHT + p + q < 2 ^ 8 := by
    have hbase : BASE_WEIGHT = 1 := rfl
    have hlength : AGE_THRESHOLDS.length = 5 := rfl
    have hlength' : REP_THRESHOLDS.length = 5 := rfl
    omega
  have hval : ((BASE_WEIGHT + p + q : Nat) : Fr).val = BASE_WEIGHT + p + q :=
    val_natCast (hlt.trans (by decide))
  have hmax : ((MAX_WEIGHT : Nat) : Fr).val = MAX_WEIGHT := val_natCast (by decide)
  have hover : ∀ out, lib.GreaterThan 8 (BASE_WEIGHT + p + q : Nat) (MAX_WEIGHT : Nat) out ↔
      out = if MAX_WEIGHT < BASE_WEIGHT + p + q then 1 else 0 := fun out => by
    have h := hlib.greater 8 (BASE_WEIGHT + p + q : Nat) (MAX_WEIGHT : Nat) out (by decide) (by rw [hval]; exact hlt)
      (by rw [hmax]; decide)
    simpa only [hval, hmax, decide_eq_true_eq] using h
  have hcap : ∀ out, out = (if MAX_WEIGHT < BASE_WEIGHT + p + q then (1 : Fr) else 0) →
      ((BASE_WEIGHT + p + q : Nat) : Fr) + out * ((MAX_WEIGHT : Nat) - (BASE_WEIGHT + p + q : Nat)) =
        (min (BASE_WEIGHT + p + q) MAX_WEIGHT : Nat) := by
    rintro _ rfl
    split
    · rename_i h
      rw [min_eq_right h.le]
      ring
    · rename_i h
      rw [min_eq_left (not_lt.mp h)]
      ring
  constructor
  · rintro ⟨ageGe, repGe, overMax, hageGe, hrepGe, hgreater, rfl⟩
    rw [(hages _).mp ⟨ageGe, hageGe, rfl⟩, (hreputations _).mp ⟨repGe, hrepGe, rfl⟩, hraw] at hgreater ⊢
    exact hcap overMax ((hover overMax).mp hgreater)
  · rintro rfl
    obtain ⟨ageGe, hageGe, hagesum⟩ := (hages _).mpr rfl
    obtain ⟨repGe, hrepGe, hrepsum⟩ := (hreputations _).mpr rfl
    refine ⟨ageGe, repGe, if MAX_WEIGHT < BASE_WEIGHT + p + q then 1 else 0, hageGe, hrepGe, ?_, ?_⟩
    · rw [hagesum, hrepsum, hraw]
      exact (hover _).mpr rfl
    · rw [hagesum, hrepsum, hraw]
      exact (hcap _ rfl).symm

/-! ## The age -/

theorem ageInDays_iff (hlib : lib.Exact) {m t days : Nat} (hm : m < 2 ^ 40) (ht : t < 2 ^ 40) (hdays : days ≤ 36500) :
    AgeInDays lib 40 (m : Nat) (t : Nat) (days : Nat) ↔ m ≤ t ∧ days = (t - m) / 86400 := by
  have hval : ∀ n : Nat, n < 2 ^ 40 → ((n : Nat) : Fr).val = n := fun n hn => val_natCast (hn.trans (by decide))
  have hlower : ((days : Nat) : Fr) * 86400 = (days * 86400 : Nat) := by push_cast; rfl
  have hupper : (((days : Nat) : Fr) + 1) * 86400 = ((days + 1) * 86400 : Nat) := by push_cast; rfl
  have hbound : days * 86400 < 2 ^ 40 := (Nat.mul_le_mul_right 86400 hdays).trans_lt (by decide)
  have hbound' : (days + 1) * 86400 < 2 ^ 40 :=
    (Nat.mul_le_mul_right 86400 (Nat.succ_le_succ hdays)).trans_lt (by decide)
  have hspan : t - m < 2 ^ 40 := (Nat.sub_le t m).trans_lt ht
  have hone : ∀ {comparator : Nat → Fr → Fr → Fr → Prop} {holds : Nat → Nat → Bool}, Compares comparator holds →
      ∀ a b : Nat, a < 2 ^ 40 → b < 2 ^ 40 → (comparator 40 (a : Nat) (b : Nat) 1 ↔ holds a b = true) :=
    fun {_ _} h a b ha hb => by
      rw [h.one (by decide) (by rwa [hval a ha]) (by rwa [hval b hb]), hval a ha, hval b hb]
  have helapsed : m ≤ t → ((t : Nat) : Fr) - (m : Nat) = (t - m : Nat) := fun h => (Nat.cast_sub h).symm
  constructor
  · rintro ⟨hfuture, hle, hlt⟩
    have hmt := of_decide_eq_true ((hone hlib.less_eq m t hm ht).mp hfuture)
    rw [helapsed hmt, hlower] at hle
    rw [helapsed hmt, hupper] at hlt
    have hle' := of_decide_eq_true ((hone hlib.less_eq (days * 86400) (t - m) hbound hspan).mp hle)
    have hlt' := of_decide_eq_true ((hone hlib.less (t - m) ((days + 1) * 86400) hspan hbound').mp hlt)
    exact ⟨hmt, by omega⟩
  · rintro ⟨hmt, heq⟩
    refine ⟨(hone hlib.less_eq m t hm ht).mpr (decide_eq_true hmt), ?_, ?_⟩
    · rw [helapsed hmt, hlower]
      exact (hone hlib.less_eq (days * 86400) (t - m) hbound hspan).mpr (decide_eq_true (by omega))
    · rw [helapsed hmt, hupper]
      exact (hone hlib.less (t - m) ((days + 1) * 86400) hspan hbound').mpr (decide_eq_true (by omega))

theorem weighs_iff (hlib : lib.Exact) {m t rep : Nat} (hm : m < 2 ^ 40) (ht : t < 2 ^ 40) (hrep : rep < 2 ^ 32)
    {ageDays weight : Fr} : Weighs lib (m : Nat) (rep : Nat) ageDays (t : Nat) weight ↔
      rep ≤ 10000 ∧ m ≤ t ∧ (t - m) / 86400 ≤ 36500 ∧ ageDays = ((t - m) / 86400 : Nat) ∧
        weight = (min (BASE_WEIGHT + Sbt.points AGE_THRESHOLDS ((t - m) / 86400) +
          Sbt.points REP_THRESHOLDS rep) MAX_WEIGHT : Nat) := by
  have hrepval : ((rep : Nat) : Fr).val = rep := val_natCast (hrep.trans (by decide))
  have hten : (10000 : Fr).val = 10000 := val_natCast (n := 10000) (by decide)
  have hcentury : (36500 : Fr).val = 36500 := val_natCast (n := 36500) (by decide)
  have hreps : RangeProof lib 32 (rep : Nat) 10000 ↔ _ := rangeProof_iff hlib (by decide) (by rw [hten]; decide)
  rw [hrepval, hten] at hreps
  have hages : RangeProof lib 32 ageDays 36500 ↔ _ := rangeProof_iff hlib (by decide) (by rw [hcentury]; decide)
  rw [hcentury] at hages
  have hcast : ageDays = (ageDays.val : Nat) := (ZMod.natCast_zmod_val ageDays).symm
  constructor
  · rintro ⟨hreprange, hagerange, hage, hcurve⟩
    have hle := hages.mp hagerange
    rw [hcast] at hage
    obtain ⟨hmt, hdays⟩ := (ageInDays_iff hlib hm ht hle).mp hage
    have hweight := (sybilWeightCurve_iff hlib (hle.trans_lt (by decide)) (by rw [hrepval]; exact hrep)).mp hcurve
    rw [hrepval, hdays] at hweight
    exact ⟨hreps.mp hreprange, hmt, hdays ▸ hle, hdays ▸ hcast, hweight⟩
  · rintro ⟨hreple, hmt, hle, rfl, rfl⟩
    have hval : (((t - m) / 86400 : Nat) : Fr).val = (t - m) / 86400 :=
      val_natCast (hle.trans_lt (by decide))
    refine ⟨hreps.mpr hreple, hages.mpr (by rw [hval]; exact hle), (ageInDays_iff hlib hm ht hle).mpr ⟨hmt, rfl⟩, ?_⟩
    refine (sybilWeightCurve_iff hlib (by rw [hval]; exact hle.trans_lt (by decide))
      (by rw [hrepval]; exact hrep)).mpr ?_
    rw [hval, hrepval]

/-! ## The two curves -/

/-- In every reachable state, with a membership and a reputation as `membership-sbt` has them, the constraints
leave one weight: the one that the contract would report at that time. -/
theorem weight_is_sybil_weight (hlib : lib.Exact) {registry member : Address} {env : Sbt.SbtEnv}
    {s : Sbt.MembershipSbt} {log : List (Sbt.MembershipSbt × Sbt.SbtEnv × Sbt.Call)} {dao_id minted : Nat}
    (hrun : Sbt.SbtRun registry log s) (hhas : Sbt.has (s.daos dao_id) member = true)
    (hminted : (s.daos dao_id).minted_at member = some minted) (hpast : minted ≤ env.timestamp)
    (htime : env.timestamp < 2 ^ 40) (hage : Sbt.member_age_days env s dao_id member ≤ 36500)
    (ageDays voteWeight : Fr) :
    Weighs lib (minted : Nat) (Sbt.reputation s dao_id member : Nat) ageDays (env.timestamp : Nat) voteWeight ↔
      ageDays = (Sbt.member_age_days env s dao_id member : Nat) ∧
        voteWeight = (Sbt.sybil_weight env s dao_id member : Nat) := by
  have hrep := hrun.reputation_le dao_id member
  have hdays : Sbt.member_age_days env s dao_id member = (env.timestamp - minted) / 86400 := by
    rw [Sbt.member_age_days, hminted]
    rfl
  rw [hdays] at hage ⊢
  rw [weighs_iff hlib (hpast.trans_lt htime) htime (hrep.trans_lt (by decide)), Sbt.sybil_weight_of_has hhas,
    Sbt.age_weight, hdays, Sbt.reputation_weight]
  constructor
  · rintro ⟨-, -, -, hday, hweight⟩
    exact ⟨hday, hweight⟩
  · rintro ⟨hday, hweight⟩
    exact ⟨hrep, hpast, hage, hday, hweight⟩

theorem weight_is_sybil_weight_after_accruing : ∃ log s, Sbt.SbtRun 0 log s ∧
    Sbt.sybil_weight Sbt.sampleEnv s 0 1 = 3 ∧ ∀ ageDays voteWeight : Fr,
      Weighs sampleLib (Sbt.sampleEnv.timestamp : Nat) (Sbt.reputation s 0 1 : Nat) ageDays
        (Sbt.sampleEnv.timestamp : Nat) voteWeight ↔
      ageDays = (Sbt.member_age_days Sbt.sampleEnv s 0 1 : Nat) ∧
        voteWeight = (Sbt.sybil_weight Sbt.sampleEnv s 0 1 : Nat) := by
  obtain ⟨log, s, hrun, htest⟩ := Sbt.exists_run (r := 0)
    [.mint 0 1 0 none, .set_reputation_attestor 0 2 true 0, .accrue_reputation 0 1 5 2]
    (fun _ s => decide (Sbt.sybil_weight Sbt.sampleEnv s 0 1 = 3 ∧ Sbt.has (s.daos 0) 1 = true ∧
      (s.daos 0).minted_at 1 = some Sbt.sampleEnv.timestamp ∧ Sbt.member_age_days Sbt.sampleEnv s 0 1 = 0))
    (by decide)
  obtain ⟨hweight, hhas, hminted, hage⟩ := of_decide_eq_true htest
  exact ⟨log, s, hrun, hweight, weight_is_sybil_weight sampleLib_exact hrun hhas hminted le_rfl (by decide)
    (by rw [hage]; decide)⟩

/-! ## The attestation -/

/-- The template on the public signals that the contract passes. -/
def SybilWeightedVote.Of (lib : Circomlib) (levels : Nat) : List U256 → Voter → Attested → Prop
  | [root, nullifier, daoId, proposalId, voteChoice, numCandidates, snapshotTime, attestationCommitment, voteWeight],
    voter, a => SybilWeightedVote lib levels root nullifier daoId proposalId voteChoice numCandidates snapshotTime
      attestationCommitment voteWeight voter a
  | _, _, _ => False

/-- Days of age and a reputation that are worth the weight. -/
def worth (weight : Nat) : Nat × Nat := if weight ≤ 6 then (0, (0 :: REP_THRESHOLDS).getD (weight - 1) 0)
  else (365, (0 :: REP_THRESHOLDS).getD (weight - 6) 0)

theorem worth_weighs (hlib : lib.Exact) {weight : Nat} (hpos : 1 ≤ weight) (hle : weight ≤ 10) :
    Weighs lib (0 : Nat) ((worth weight).2 : Nat) ((worth weight).1 : Nat) ((worth weight).1 * 86400 : Nat)
      (weight : Nat) := by
  have hworth : ∀ w < 11, 1 ≤ w → (worth w).1 ≤ 365 ∧ (worth w).2 ≤ 100 ∧
      min (BASE_WEIGHT + Sbt.points AGE_THRESHOLDS (worth w).1 + Sbt.points REP_THRESHOLDS (worth w).2) MAX_WEIGHT =
        w := by decide
  obtain ⟨hdays, hrep, heq⟩ := hworth weight (Nat.lt_succ_of_le hle) hpos
  have hyear : (worth weight).1 * 86400 < 2 ^ 40 := (Nat.mul_le_mul_right 86400 hdays).trans_lt (by decide)
  have hage : ((worth weight).1 * 86400 - 0) / 86400 = (worth weight).1 := by omega
  refine (weighs_iff hlib (by decide) hyear (hrep.trans_lt (by decide))).mpr ?_
  rw [hage, heq]
  exact ⟨hrep.trans (by decide), Nat.zero_le _, hdays.trans (by decide), rfl, rfl⟩

/-- The contract asks nobody for the attestation or for the time of the snapshot. Whoever casts a weighted ballot
could cast it, under the same nullifier, with any weight from 1 to 10 that the election's cap allows. -/
theorem weight_is_chosen (hlib : lib.Exact) {levels : Nat} {C : Voting.Crypto} {env : Voting.VotingEnv}
    {s s' : Voting.VotingState} {dao_id proposal_id : Nat} {vote_choice : Bool} {nullifier root : U256}
    {attestation_commitment : U256} {snapshot_time vote_weight : Nat} {proof : Voting.Proof} {voter : Voter}
    {a : Attested} (h : Voting.vote_sybil_weighted C env s dao_id proposal_id vote_choice nullifier root
      attestation_commitment snapshot_time vote_weight proof = .ok s')
    (hvoter : SybilWeightedVote.Of lib levels [root, nullifier, dao_id, proposal_id,
      Voting.vote_choice_index vote_choice,
      Voting.candidate_signal (Voting.election_config (s.elections dao_id proposal_id)).num_candidates, snapshot_time,
      attestation_commitment, vote_weight] voter a)
    (hcomplete : ∀ vk, (s.daos dao_id).keys.sybil_voting_key = some vk → ∀ signals voter a,
      SybilWeightedVote.Of lib levels signals voter a → ∃ proof, C.verify_groth16 vk proof signals = true)
    {weight : Nat} (hpos : 1 ≤ weight) (hle : weight ≤ 10)
    (hcap : weight ≤ Voting.sybil_weight_cap (s.elections dao_id proposal_id))
    (hroom : Voting.HasWeightRoom ((s.elections dao_id proposal_id).ballots.weighted_tally.getD {}) vote_choice
      weight) :
    ∃ attestation_commitment' snapshot_time' proof' s'', Voting.vote_sybil_weighted C env s dao_id proposal_id
      vote_choice nullifier root attestation_commitment' snapshot_time' weight proof' = .ok s'' := by
  simp only [Voting.vote_sybil_weighted] at h ⊢
  simp at h
  obtain ⟨hpaused, hlock, hnullifier, hroot, -, hzero, -, -, hunused, p, hp, hopen, heligible, vk, hvk, hcandidate, -,
    -, hcounts, -⟩ := h
  let opening : Attested :=
    ⟨a.subjectSecret, a.attestationSalt, (0 : Nat), ((worth weight).2 : Nat), ((worth weight).1 : Nat)⟩
  let commitment : Fr := lib.Poseidon [dao_id, opening.subjectSecret, opening.mintedAt, opening.reputation,
    opening.attestationSalt]
  have hsatisfied : SybilWeightedVote.Of lib levels [root, nullifier, dao_id, proposal_id,
      Voting.vote_choice_index vote_choice,
      Voting.candidate_signal (Voting.election_config (s.elections dao_id proposal_id)).num_candidates,
      (worth weight).1 * 86400, commitment.val, weight] voter opening := by
    refine ⟨hvoter.included, ?_, worth_weighs hlib hpos hle, hvoter.nullifier_eq, hvoter.validChoice⟩
    exact ZMod.natCast_zmod_val commitment
  obtain ⟨proof', hproof⟩ := hcomplete vk hvk _ _ _ hsatisfied
  refine ⟨commitment.val, (worth weight).1 * 86400, proof', ?_⟩
  have hbase : Voting.BASE_SYBIL_WEIGHT ≤ weight := hpos
  have hfield : commitment.val < Voting.BN254_FR_MODULUS := ZMod.val_lt commitment
  simp [hpaused, hlock, hnullifier, hroot, hzero, hunused, hp, hopen, heligible, hvk, hcandidate, hproof, hcounts,
    hbase, hfield, hcap, hroom]

end

/-- Every proof verifies. -/
def sampleCrypto : Voting.Crypto := { Voting.sampleCrypto with poseidon := sampleHashes.poseidon }

/-- The member whose commitment is 11, alone in a tree of one level. -/
def sampleVoter : Voter := ⟨(5 : Nat), (6 : Nat), (7 : Nat), [((13 : Nat), 0)]⟩

theorem sampleVoter_included : MerkleTreeInclusionProof sampleLib 1 (sampleVoter.commitment sampleLib) sampleVoter.path
    (14 : Nat) := by
  refine ⟨rfl, fun step hstep => ?_, by decide⟩
  obtain rfl := List.mem_singleton.mp hstep
  simp

/-- A world that agrees to every call, and whose tree has that member. -/
def memberEnv : Voting.VotingEnv :=
  { Voting.sampleEnv with
    tree := ((Run.replay (Tree.next sampleHashes) ((sampleMember 11).map fun c => (Tree.sampleEnv, c)) []
      (Tree.constructor sampleHashes 0)).map Prod.snd).getD (Tree.constructor sampleHashes 0) }

/-- The signals of a ballot of weight 1, under an attestation of nothing. -/
theorem sampleVoter_sybil : SybilWeightedVote.Of sampleLib 1 [14, 16, 0, 1, 1, Voting.candidate_signal 0, 0, 20, 1]
    sampleVoter ⟨0, 0, 0, 0, 0⟩ := by
  refine ⟨sampleVoter_included, by decide, ?_, by decide, ?_⟩
  · simpa [worth] using worth_weighs sampleLib_exact (le_refl 1) (by decide)
  · exact (sampleLib_exact.less.one (by decide) (by decide) (by decide)).mpr (by decide)

/-- The ballot of weight 1 could have been cast with weight 10. -/
theorem weight_is_chosen_for_a_member : ∃ log s, Voting.VotingRun sampleCrypto 0 0 log s ∧
    (Voting.vote_sybil_weighted sampleCrypto memberEnv s 0 1 true 16 14 20 0 1 Voting.sampleProof).isOk = true ∧
    ∃ attestation_commitment' snapshot_time' proof' s'', Voting.vote_sybil_weighted sampleCrypto memberEnv s 0 1 true 16
      14 attestation_commitment' snapshot_time' 10 proof' = .ok s'' := by
  obtain ⟨log, s, hrun, htest⟩ := Voting.exists_run_at (C := sampleCrypto) (r := 0) (g := 0)
    ((Voting.openElection 100 ++ [Voting.Call.dao (.set_sybil_vk 0 (Voting.sampleVk Voting.SYBIL_CIRCUIT_IC_LEN) 0)]).map
      fun c => (memberEnv, c))
    (fun _ s => (Voting.vote_sybil_weighted sampleCrypto memberEnv s 0 1 true 16 14 20 0 1 Voting.sampleProof).isOk &&
      decide ((Voting.election_config (s.elections 0 1)).num_candidates = 0 ∧
        10 ≤ Voting.sybil_weight_cap (s.elections 0 1) ∧ (s.elections 0 1).ballots.weighted_tally = none)) (by decide)
  rw [Bool.and_eq_true] at htest
  obtain ⟨hcount, hcap, htally⟩ := of_decide_eq_true htest.2
  obtain ⟨s', hs'⟩ := isOk_iff.mp htest.1
  have hvoter : SybilWeightedVote.Of sampleLib 1 [14, 16, 0, 1, 1,
      Voting.candidate_signal (Voting.election_config (s.elections 0 1)).num_candidates, 0, 20, 1] sampleVoter
      ⟨0, 0, 0, 0, 0⟩ := by
    rw [hcount]
    exact sampleVoter_sybil
  refine ⟨log, s, hrun, htest.1, weight_is_chosen sampleLib_exact hs' hvoter
    (fun _ _ _ _ _ _ => ⟨Voting.sampleProof, rfl⟩) (by decide) (by decide) hcap ?_⟩
  rw [htally]
  exact ⟨by decide, by decide⟩

end ZkVote.Templates

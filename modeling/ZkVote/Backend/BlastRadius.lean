import ZkVote.Backend.Approvals
import ZkVote.Lib.Sha256

/-!
# What a stolen hot key can do

What may pass without approval, what an approval is, and what is left during a halt.
-/

open Lib Lib.Outcome

namespace ZkVote.Relayer

/-! ## What is promised -/

/-- An operation that changes who controls an account or moves all of its value. -/
def StellarOperation.privileged : StellarOperation → Bool
  | .setOptions | .accountMerge _ | .allowTrust | .setTrustLineFlags | .revokeSponsorship _
  | .beginSponsoringFutureReserves | .clawback .. | .clawbackClaimableBalance => true
  | _ => false

def SigningPolicy.hotLimit (policy : SigningPolicy) (asset : StellarAsset) : Option Int :=
  (policy.limits.lookup asset.code <|> policy.limits.lookup "*").map TierLimits.hot

/-- Nothing is moved, or no more than the hot limit. -/
def SigningPolicy.WithinHot (policy : SigningPolicy) (asset : StellarAsset) (moved : ℕ∞) : Prop :=
  moved = 0 ∨ ∃ n : Nat, ∃ limit, moved = n ∧ policy.hotLimit asset = some limit ∧ (n : Int) ≤ limit

def StellarOperation.sweeps (safe : String) : StellarOperation → Bool
  | .payment destination _ _ => destination = safe
  | .accountMerge destination => destination = safe
  | .bumpSequence => true
  | _ => false

/-- The break-glass token passes for a warm transaction, and is good. -/
def ByBreakGlass (platform : Platform) (policy : SigningPolicy) (now : ℚ) (txHash : String) (tier : SigningTier)
    (auth : SignAuthorization) (Good : String → String → String → Prop) : Prop :=
  tier = .warm ∧ ∃ secret token, policy.breakGlassSecret = some secret ∧ auth.breakGlass = some token ∧
    Passes platform now "break-glass" secret txHash .warm token ∧ Good "break-glass" secret token

/-- The tokens of as many distinct co-signers as the tier needs pass, and are good. -/
def ByCosigners (platform : Platform) (policy : SigningPolicy) (now : ℚ) (txHash : String) (tier : SigningTier)
    (auth : SignAuthorization) (Good : String → String → String → Prop) : Prop :=
  ∃ ids : List String, ids.Nodup ∧ REQUIRED_APPROVALS tier ≤ ids.length ∧ ∀ id ∈ ids, ∃ secret,
    policy.cosigners.lookup id = some secret ∧ ∃ token ∈ auth.approvals.getD [],
      Passes platform now id secret txHash tier token ∧ Good id secret token

def Reached (platform : Platform) (policy : SigningPolicy) (now : ℚ) (txHash : String) (tier : SigningTier)
    (auth : SignAuthorization) (Good : String → String → String → Prop) : Prop :=
  ByBreakGlass platform policy now txHash tier auth Good ∨ ByCosigners platform policy now txHash tier auth Good

/-- The tiers are enabled, and this is no sweep. -/
def Gated (policy : SigningPolicy) (auth : SignAuthorization) : Prop :=
  policy.tiersEnabled ≠ some false ∧ auth.purpose ≠ some .sweep

/-- The same without any approval. -/
def SignAuthorization.alone (auth : SignAuthorization) : SignAuthorization :=
  { approvals := none, breakGlass := none, purpose := auth.purpose }

def Envelope.append (env : Envelope) (o : SourcedOperation) : Envelope :=
  { env with operations := env.operations ++ [o] }

structure Bounded (platform : Platform) (ledger : Ledger) (policy : SigningPolicy) (now : ℚ) (env : Envelope)
    (auth : SignAuthorization) : Prop where
  alone : Gated policy auth → (policy.authorize platform now env.parsed auth.alone).isOk = true →
    (∀ op ∈ env.ops, op.privileged = false) ∧ ∀ asset, policy.WithinHot asset (env.moved ledger asset)
  approved : Gated policy auth → ∀ c, policy.authorize platform now env.parsed auth = .ok c → c.tier ≠ .hot →
    Reached platform policy now env.parsed.hash c.tier auth fun id secret token =>
      Issued platform now id secret env.parsed.hash c.tier token
  /-- An issued token is good for no other hash and no other tier. -/
  exact : ∀ tier e txHash' tier' e', approvalMessage platform env.parsed.hash tier e =
    approvalMessage platform txHash' tier' e' → env.parsed.hash = txHash' ∧ tier = tier'
  appended : ∀ o, ∃ c c', policy.classify env.parsed = .ok c ∧ policy.classify (env.append o).parsed = .ok c' ∧
    TIER_RANK c.tier ≤ TIER_RANK c'.tier
  halted : policy.haltState.isSome = true → (policy.authorize platform now env.parsed auth).isOk = true →
    ∃ safe, policy.sweepSafeAccount = some safe ∧ ∀ op ∈ env.ops, op.sweeps safe = true

/-! ## When it is kept -/

/-- No operation is listed, and no total under a code is above the hot limit. -/
structure LooksHot (policy : SigningPolicy) (ops : List StellarOperation) : Prop where
  unlisted : ∀ op ∈ ops, op.listed = false
  within : ∀ code, Counts ops code → policy.tierOf code (totalOf ops code) = .hot

/-- If it looks hot, it revokes no sponsorship, and what is not counted takes no asset past its hot limit. -/
def SeesAll (ledger : Ledger) (policy : SigningPolicy) (env : Envelope) (auth : SignAuthorization) : Prop :=
  Gated policy auth → policy.haltState = none → LooksHot policy env.ops →
    (∀ op ∈ env.ops, ∀ entry, op ≠ .revokeSponsorship entry) ∧
      ∀ asset, env.uncounted ledger asset ≠ 0 → policy.WithinHot asset (env.moved ledger asset)

/-- What the gate asks of a transaction of this tier. -/
def Enough (platform : Platform) (policy : SigningPolicy) (now : ℚ) (txHash : String) (tier : SigningTier)
    (auth : SignAuthorization) : Prop :=
  ByBreakGlass platform policy now txHash tier auth (fun _ _ _ => True) ∨
    (∀ token ∈ auth.approvals.getD [], ¬ Throws platform policy now token) ∧
      ByCosigners platform policy now txHash tier auth fun _ _ _ => True

/-- If the tokens are enough, those are whose expiry is written without a point. -/
def NoneForged (platform : Platform) (policy : SigningPolicy) (now : ℚ) (env : Envelope) (auth : SignAuthorization) :
    Prop :=
  Gated policy auth → policy.haltState = none → policy.tierFor env.ops ≠ .hot →
    Enough platform policy now env.parsed.hash (policy.tierFor env.ops) auth →
    Reached platform policy now env.parsed.hash (policy.tierFor env.ops) auth fun _ _ token =>
      pointed platform now token = false

section
variable {platform : Platform} {ledger : Ledger} {policy : SigningPolicy} {now : ℚ} {env : Envelope}
  {auth : SignAuthorization} {tx : Tx} {c : TierClassification} {txHash : String} {tier : SigningTier}
  {op : StellarOperation} {asset : StellarAsset}

/-! ## The gate -/

theorem byBreakGlass_iff : (tier = .warm ∧ auth.breakGlass.getD "" ≠ "" ∧
    policy.verifyBreakGlass platform now (auth.breakGlass.getD "") txHash = true) ↔
      ByBreakGlass platform policy now txHash tier auth fun _ _ _ => True := by
  unfold ByBreakGlass
  rw [verifyBreakGlass_iff]
  constructor
  · rintro ⟨hwarm, hne, secret, hsecret, hpasses⟩
    cases hglass : auth.breakGlass with
    | none =>
      rw [hglass] at hne
      exact absurd rfl hne
    | some token =>
      rw [hglass] at hpasses
      exact ⟨hwarm, secret, token, hsecret, rfl, hpasses, trivial⟩
  · rintro ⟨hwarm, secret, token, hsecret, hglass, hpasses, -⟩
    rw [hglass]
    refine ⟨hwarm, ?_, secret, hsecret, hpasses⟩
    rintro rfl
    obtain ⟨-, -, e, hlive, -⟩ := hpasses
    cases hlive

theorem byCosigners_iff : (∃ ids, policy.validApprovers platform now (auth.approvals.getD []) txHash tier = .ok ids ∧
    REQUIRED_APPROVALS tier ≤ ids.length) ↔
      (∀ token ∈ auth.approvals.getD [], ¬ Throws platform policy now token) ∧
        ByCosigners platform policy now txHash tier auth fun _ _ _ => True := by
  rw [validApprovers_iff]
  unfold ByCosigners
  simp only [and_true]

theorem required_eq_zero_iff : REQUIRED_APPROVALS tier = 0 ↔ tier = .hot := by cases tier <;> decide

theorem authorize_eq_ok (hgated : Gated policy auth) : policy.authorize platform now tx auth = .ok c ↔
    policy.haltState = none ∧ policy.classify tx = .ok c ∧
      (c.tier = .hot ∨ Enough platform policy now tx.hash c.tier auth) := by
  unfold SigningPolicy.authorize Enough
  rw [if_neg hgated.2]
  cases policy.haltState with
  | some halt => simp [fail]
  | none =>
    simp only [bind_eq_ok, if_neg hgated.1, ite_eq_ok, require_eq_ok, pure_eq_ok, exists_and_left, exists_const,
      required_eq_zero_iff, true_and, byBreakGlass_iff, ← byCosigners_iff]
    constructor
    · rintro ⟨c', hclassify, ⟨hhot, rfl⟩ | ⟨-, ⟨hglass, rfl⟩ | ⟨-, ids, hids, hlength, rfl⟩⟩⟩
      · exact ⟨hclassify, .inl hhot⟩
      · exact ⟨hclassify, .inr (.inl hglass)⟩
      · exact ⟨hclassify, .inr (.inr ⟨ids, hids, hlength⟩)⟩
    · rintro ⟨hclassify, hpasses⟩
      refine ⟨c, hclassify, ?_⟩
      by_cases hhot : c.tier = .hot
      · exact .inl ⟨hhot, rfl⟩
      · refine .inr ⟨hhot, ?_⟩
        by_cases hglass : ByBreakGlass platform policy now tx.hash c.tier auth fun _ _ _ => True
        · exact .inl ⟨hglass, rfl⟩
        · obtain ⟨ids, hids, hlength⟩ := (hpasses.resolve_left hhot).resolve_left hglass
          exact .inr ⟨hglass, ids, hids, hlength, rfl⟩

theorem not_enough_alone (htier : tier ≠ .hot) : ¬ Enough platform policy now txHash tier auth.alone := by
  rintro (⟨-, secret, token, -, hglass, -⟩ | ⟨-, ids, -, hlength, hids⟩)
  · cases hglass
  · have hpos : 0 < ids.length := by
      refine Nat.lt_of_lt_of_le (Nat.pos_of_ne_zero ?_) hlength
      exact required_eq_zero_iff.not.mpr htier
    obtain ⟨id, hid⟩ := List.exists_mem_of_length_pos hpos
    obtain ⟨secret, -, token, htoken, -⟩ := hids id hid
    cases htoken

/-- Without any approval, it takes the hot tier and no halt. -/
theorem authorize_alone_iff (hgated : Gated policy auth) :
    (policy.authorize platform now env.parsed auth.alone).isOk = true ↔
      policy.haltState = none ∧ policy.tierFor env.ops = .hot := by
  have halone : Gated policy auth.alone := hgated
  obtain ⟨c, hclassify, htier⟩ := classify_parsed policy env
  rw [isOk_iff]
  constructor
  · rintro ⟨c', hok⟩
    obtain ⟨hhalt, hclassify', hpasses⟩ := (authorize_eq_ok halone).mp hok
    cases hclassify.symm.trans hclassify'
    refine ⟨hhalt, ?_⟩
    by_contra hnot
    exact not_enough_alone (htier ▸ hnot) (hpasses.resolve_left (htier ▸ hnot))
  · rintro ⟨hhalt, hhot⟩
    exact ⟨c, (authorize_eq_ok halone).mpr ⟨hhalt, hclassify, .inl (htier.trans hhot)⟩⟩

/-! ## The hot tier -/

theorem listed_iff : op.listed = true ↔ op.privileged = true ∧ ∀ entry, op ≠ .revokeSponsorship entry := by
  unfold StellarOperation.listed
  rw [decide_eq_true_iff]
  cases op with
  | revokeSponsorship entry =>
    refine iff_of_false ?_ fun h => h.2 entry rfl
    cases entry <;> decide
  | _ => simp [StellarOperation.parsed, Operation.type, PRIVILEGED_OPS, StellarOperation.privileged]

theorem looksHot_iff : LooksHot policy env.ops ↔ policy.tierFor env.ops = .hot := by
  rw [tierFor_eq_hot_iff, List.any_eq_false]
  simp only [Bool.not_eq_true]
  exact ⟨fun h => ⟨h.unlisted, h.within⟩, fun h => ⟨h.1, h.2⟩⟩

theorem limit_of_hot {code : String} {total : Int} (h : policy.tierOf code total = .hot) :
    ∃ l, (policy.limits.lookup code <|> policy.limits.lookup "*") = some l ∧ total ≤ l.hot := by
  unfold SigningPolicy.tierOf at h
  split at h
  · cases h
  · unfold assetTier at h
    split at h
    · cases h
    · next l hl =>
      refine ⟨l, hl, ?_⟩
      by_contra habove
      rw [if_neg habove] at h
      split at h <;> cases h

/-- In a transaction that looks hot, what is counted is within the hot limit. -/
theorem LooksHot.within_of_counted (h : LooksHot policy env.ops) (hnone : env.uncounted ledger asset = 0) :
    policy.WithinHot asset (env.moved ledger asset) := by
  have hle : env.moved ledger asset ≤ _ := env.moved_le asset
  rw [hnone, zero_add] at hle
  by_cases hcounts : Counts env.ops asset.code
  · obtain ⟨l, hl, hlimit⟩ := limit_of_hot (h.within asset.code hcounts)
    obtain ⟨n, hn⟩ := ENat.ne_top_iff_exists.mp (ne_top_of_le_ne_top (ENat.natCast_ne_top _) hle)
    rw [← hn] at hle ⊢
    have hcount : n ≤ totalOf env.ops asset.code := by exact_mod_cast hle
    refine .inr ⟨n, l.hot, rfl, ?_, (Int.ofNat_le.mpr hcount).trans hlimit⟩
    rw [SigningPolicy.hotLimit, hl]
    rfl
  · rw [totalOf_eq_zero hcounts, Nat.cast_zero] at hle
    exact .inl (nonpos_iff_eq_zero.mp hle)

theorem seesAll_iff (platform : Platform) (now : ℚ) : SeesAll ledger policy env auth ↔
    (Gated policy auth → (policy.authorize platform now env.parsed auth.alone).isOk = true →
      (∀ op ∈ env.ops, op.privileged = false) ∧ ∀ asset, policy.WithinHot asset (env.moved ledger asset)) := by
  unfold SeesAll
  refine forall_congr' fun hgated => ?_
  rw [authorize_alone_iff hgated, and_imp]
  refine forall_congr' fun _ => ?_
  rw [← looksHot_iff]
  refine forall_congr' fun hhot => and_congr (forall_congr' fun op => forall_congr' fun hop => ?_) ?_
  · constructor
    · intro hnone
      rw [Bool.eq_false_iff]
      intro hprivileged
      exact Bool.false_ne_true ((hhot.unlisted op hop).symm.trans (listed_iff.mpr ⟨hprivileged, hnone⟩))
    · rintro hprivileged entry rfl
      cases hprivileged
  · refine ⟨fun h asset => ?_, fun h asset _ => h asset⟩
    by_cases hnone : env.uncounted ledger asset = 0
    · exact hhot.within_of_counted hnone
    · exact h asset hnone

/-! ## Approvals -/

theorem reached_congr {Good Good' : String → String → String → Prop}
    (h : ∀ id secret token, Passes platform now id secret txHash tier token →
      (Good id secret token ↔ Good' id secret token)) :
    Reached platform policy now txHash tier auth Good ↔ Reached platform policy now txHash tier auth Good' := by
  refine or_congr ?_ ?_
  · refine and_congr_right fun hwarm => exists_congr fun secret => exists_congr fun token => ?_
    subst hwarm
    exact and_congr_right fun _ => and_congr_right fun _ => and_congr_right fun hpasses => h _ _ _ hpasses
  · refine exists_congr fun ids => and_congr_right fun _ => and_congr_right fun _ => forall_congr' fun id => ?_
    refine forall_congr' fun _ => exists_congr fun secret => and_congr_right fun _ => exists_congr fun token => ?_
    exact and_congr_right fun _ => and_congr_right fun hpasses => h _ _ _ hpasses

theorem noneForged_iff (hplatform : platform.Documented) : NoneForged platform policy now env auth ↔
    (Gated policy auth → ∀ c, policy.authorize platform now env.parsed auth = .ok c → c.tier ≠ .hot →
      Reached platform policy now env.parsed.hash c.tier auth fun id secret token =>
        Issued platform now id secret env.parsed.hash c.tier token) := by
  obtain ⟨c, hclassify, htier⟩ := classify_parsed policy env
  unfold NoneForged
  refine forall_congr' fun hgated => ?_
  rw [← htier]
  constructor
  · intro h c' hok hnot
    obtain ⟨hhalt, hclassify', hpasses⟩ := (authorize_eq_ok hgated).mp hok
    cases hclassify.symm.trans hclassify'
    exact (reached_congr fun _ _ _ hpasses => hpasses.issued_iff hplatform).mpr
      (h hhalt hnot (hpasses.resolve_left hnot))
  · intro h hhalt hnot henough
    exact (reached_congr fun _ _ _ hpasses => hpasses.issued_iff hplatform).mp
      (h c ((authorize_eq_ok hgated).mpr ⟨hhalt, hclassify, .inr henough⟩) hnot)

/-! ## Halts -/

theorem sweepOperation_parsed {safe : String} : sweepOperation safe op.parsed = op.sweeps safe := by
  cases op <;> simp [sweepOperation, StellarOperation.parsed, StellarOperation.sweeps, Bool.beq_eq_decide_eq]

theorem halted_sweeps (hhalt : policy.haltState.isSome = true)
    (hok : (policy.authorize platform now env.parsed auth).isOk = true) :
    ∃ safe, policy.sweepSafeAccount = some safe ∧ ∀ op ∈ env.ops, op.sweeps safe = true := by
  obtain ⟨c, hok⟩ := isOk_iff.mp hok
  unfold SigningPolicy.authorize at hok
  split at hok
  · rw [bind_eq_ok] at hok
    obtain ⟨_, hshape, -⟩ := hok
    simp only [assertSweepShape, bind_eq_ok, require_eq_ok, transactionOperations_parsed] at hshape
    obtain ⟨_, hsafe, -, hall⟩ := hshape
    cases hdestination : policy.sweepSafeAccount with
    | none =>
      rw [hdestination] at hsafe
      exact absurd rfl hsafe
    | some safe =>
      rw [hdestination] at hall
      refine ⟨safe, rfl, fun op hop => ?_⟩
      rw [← sweepOperation_parsed]
      exact List.all_eq_true.mp hall _ (List.mem_map_of_mem hop)
  · obtain ⟨halt, hsome⟩ := Option.isSome_iff_exists.mp hhalt
    rw [hsome] at hok
    cases hok

/-- The policy bounds the blast radius exactly if it sees all that a hot transaction does, and no forged token is
needed. -/
theorem blast_radius_iff (hplatform : platform.Documented) : Bounded platform ledger policy now env auth ↔
    SeesAll ledger policy env auth ∧ NoneForged platform policy now env auth := by
  rw [seesAll_iff platform now, noneForged_iff hplatform]
  refine ⟨fun h => ⟨h.alone, h.approved⟩, fun h => ⟨h.1, h.2, fun tier e txHash' tier' e' => ?_, fun o => ?_, ?_⟩⟩
  · exact approvalMessage_inj hplatform
  · obtain ⟨c, hclassify, htier⟩ := classify_parsed policy env
    obtain ⟨c', hclassify', htier'⟩ := classify_parsed policy (env.append o)
    have hops : (env.append o).ops = env.ops ++ [o.operation] := List.map_append
    refine ⟨c, c', hclassify, hclassify', ?_⟩
    rw [htier, htier', hops]
    exact rank_tierFor_append
  · exact halted_sweeps

end

/-! ## A platform -/

/-- Numbers are texts of digits below 2^53, but for one. -/
def samplePlatform : Platform where
  Number s := if s = "15e20" then some 1500000000000000000000 else
    ((readNat s.toList).filter (· < 2 ^ 53)).map Nat.cast
  text q := if q = 1500000000000000000000 then "1.5e+21" else (q.num.toNat % 2 ^ 53).repr
  hmac secret message := toHex (hmacSha256 (utf8 secret) (utf8 message))

theorem samplePlatform_documented : samplePlatform.Documented where
  hmac_hex secret message := ⟨_, length_hmacSha256 _ _, rfl⟩
  text_short q := by
    dsimp only [samplePlatform]
    split
    · decide
    · have hlt : q.num.toNat % 2 ^ 53 < 10 ^ 63 := (Nat.mod_lt _ (by decide)).trans (by decide)
      rw [Nat.toList_repr]
      exact Nat.lt_succ_of_le ((Nat.length_toDigits_le_iff (by decide) (by decide)).mpr hlt)
  text_colon q := by
    dsimp only [samplePlatform]
    split
    · decide
    · intro hcolon
      cases isDigit_of_mem_repr hcolon

def relayerAccount : String := "GAAQCAIBAEAQCAIBAEAQCAIBAEAQCAIBAEAQCAIBAEAQCAIBAEAQDZ7H"

def safeAccount : String := "GABAEAQCAIBAEAQCAIBAEAQCAIBAEAQCAIBAEAQCAIBAEAQCAIBAEJXA"

def payeeAccount : String := "GAAACAQDAQCQMBYIBEFAWDANBYHRAEISCMKBKFQXDAMRUGY4DUPB7JZX"

def sampleLedger : Ledger where
  ours account := account = relayerAccount
  pool _ := none
  invoked _ _ _ _ := 0

def samplePolicy : SigningPolicy where
  limits := [("XLM", ⟨100000000000, 1000000000000⟩), ("*", ⟨1000000000, 10000000000⟩)]
  cosigners := [("ops-a", "secret1"), ("ops-b", "secret2")]
  breakGlassSecret := none
  sweepSafeAccount := some safeAccount
  tiersEnabled := some true
  haltState := none

def sampleEnvelope (op : StellarOperation) : Envelope where
  source := relayerAccount
  operations := [⟨none, op⟩]
  feeSource := none
  hash := List.replicate 32 0xab
  signatures := []

/-- 20000 lumens, above the hot limit, with the token of one co-signer. -/
def warmApproval : SignAuthorization where
  approvals :=
    some [issueApproval samplePlatform "ops-a" "secret1" (toHex (List.replicate 32 0xab)) .warm 1700000060000]
  breakGlass := none
  purpose := none

theorem blast_radius_iff_with_approval :
    (Bounded samplePlatform sampleLedger samplePolicy 1700000000000
        (sampleEnvelope (.payment payeeAccount .native 200000000000)) warmApproval ↔
      SeesAll sampleLedger samplePolicy (sampleEnvelope (.payment payeeAccount .native 200000000000)) warmApproval ∧
        NoneForged samplePlatform samplePolicy 1700000000000
          (sampleEnvelope (.payment payeeAccount .native 200000000000)) warmApproval) ∧
      (samplePolicy.authorize samplePlatform 1700000000000
        (sampleEnvelope (.payment payeeAccount .native 200000000000)).parsed warmApproval).isOk = true :=
  ⟨blast_radius_iff samplePlatform_documented, by decide +kernel⟩

/-- Two tokens that anybody can write. -/
def forgedApprovals : SignAuthorization where
  approvals := some ["ops-a.15e20.5e", "ops-b.15e20.5e"]
  breakGlass := none
  purpose := none

/-- An offer of a million lumens is signed by the hot key alone, and a payment of a million with two forged tokens. -/
theorem offer_signed_alone_and_tokens_forged :
    ¬ Bounded samplePlatform sampleLedger samplePolicy 1700000000000
      (sampleEnvelope (.manageSellOffer .native 10000000000000)) warmApproval ∧
    ¬ Bounded samplePlatform sampleLedger samplePolicy 1700000000000
      (sampleEnvelope (.payment payeeAccount .native 10000000000000)) forgedApprovals := by
  have hgated (auth : SignAuthorization) (h : auth.purpose = none) : Gated samplePolicy auth :=
    ⟨by decide, by rw [h]; decide⟩
  constructor
  · intro h
    obtain ⟨-, hwithin⟩ := h.alone (hgated _ rfl) (by decide +kernel)
    have hmoved : (sampleEnvelope (.manageSellOffer .native 10000000000000)).moved sampleLedger .native =
        (10000000000000 : Nat) := by
      simp [sampleEnvelope, Envelope.moved, SourcedOperation.moved, StellarOperation.moved, sampleLedger, amountOf]
    rcases hwithin .native with hzero | ⟨n, limit, hn, hlimit, hle⟩
    · rw [hmoved] at hzero
      cases hzero
    · rw [hmoved] at hn
      cases hlimit
      have heq : (10000000000000 : Nat) = n := by exact_mod_cast hn
      subst heq
      revert hle
      decide
  · intro h
    have hok : (samplePolicy.authorize samplePlatform 1700000000000
        (sampleEnvelope (.payment payeeAccount .native 10000000000000)).parsed forgedApprovals).isOk = true := by
      decide +kernel
    obtain ⟨c, hok⟩ := isOk_iff.mp hok
    obtain ⟨c', hclassify, htier⟩ := classify_parsed samplePolicy
      (sampleEnvelope (.payment payeeAccount .native 10000000000000))
    obtain ⟨-, hclassify', -⟩ := (authorize_eq_ok (hgated _ rfl)).mp hok
    cases hclassify.symm.trans hclassify'
    have hcold : c.tier = .cold := htier.trans (by decide +kernel)
    have hpointed : ∀ token ∈ forgedApprovals.approvals.getD [], pointed samplePlatform 1700000000000 token = true := by
      decide +kernel
    rcases h.approved (hgated _ rfl) c hok (by rw [hcold]; decide) with ⟨hwarm, -⟩ | ⟨ids, -, hlength, hids⟩
    · rw [hcold] at hwarm
      cases hwarm
    · rw [hcold] at hlength
      obtain ⟨id, hid⟩ := List.exists_mem_of_length_pos (Nat.lt_of_lt_of_le (by decide) hlength)
      obtain ⟨secret, -, token, htoken, hpasses, hissued⟩ := hids id hid
      have hwhole := (hpasses.issued_iff samplePlatform_documented).mp hissued
      exact Bool.false_ne_true (hwhole.symm.trans (hpointed token htoken))

end ZkVote.Relayer

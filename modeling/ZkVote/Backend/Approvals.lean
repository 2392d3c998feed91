import Mathlib.Data.List.ReduceOption
import ZkVote.Backend.SigningTiers
import ZkVote.Lib.Reading

/-!
# Approvals

A token passes where its third part is that of the token that would be issued for its expiry. That is
the HMAC, unless the expiry is written with a point.
-/

open Lib Lib.Outcome

namespace ZkVote.Relayer

/-- What is documented of the platform. -/
structure Platform.Documented (platform : Platform) : Prop where
  hmac_hex : ∀ secret message, ∃ digest : Bytes, digest.length = 32 ∧ platform.hmac secret message = toHex digest
  text_short : ∀ q, (platform.text q).toList.length < 64
  text_colon : ∀ q, ':' ∉ (platform.text q).toList

def approvalMessage (platform : Platform) (txHash : String) (tier : SigningTier) (expiresAt : ℚ) : String :=
  s!"zkvote-relayer-approval:v1:{txHash}:{tier.text}:{platform.text expiresAt}"

/-- A token that is live, and whose third part is the HMAC of its identity for this hash and tier. -/
def Issued (platform : Platform) (now : ℚ) (id secret txHash : String) (tier : SigningTier) (token : String) : Prop :=
  (splitPoints token).getD 0 "" = id ∧ ∃ expiresAt, liveUntil platform now (splitPoints token)[1]? = some expiresAt ∧
    macEquals ((splitPoints token).getD 2 "")
      (platform.hmac secret (approvalMessage platform txHash tier expiresAt)) = true

/-- The expiry is written with a point. -/
def pointed (platform : Platform) (now : ℚ) (token : String) : Bool :=
  (liveUntil platform now (splitPoints token)[1]?).any fun expiresAt => (platform.text expiresAt).toList.contains '.'

/-- What the policy asks of a token. -/
def Passes (platform : Platform) (now : ℚ) (id secret txHash : String) (tier : SigningTier) (token : String) : Prop :=
  (splitPoints token).getD 0 "" = id ∧ secret ≠ "" ∧
    ∃ expiresAt, liveUntil platform now (splitPoints token)[1]? = some expiresAt ∧
      macEquals ((splitPoints token).getD 2 "")
        ((splitPoints (issueApproval platform id secret txHash tier expiresAt)).getD 2 "") = true

/-- A live token of what the record of co-signers has from its prototype. -/
def Throws (platform : Platform) (policy : SigningPolicy) (now : ℚ) (token : String) : Prop :=
  (splitPoints token).getD 0 "" ∈ OBJECT_KEYS ∧ policy.cosigners.lookup ((splitPoints token).getD 0 "") = none ∧
    (liveUntil platform now (splitPoints token)[1]?).isSome = true

section
variable {platform : Platform} {policy : SigningPolicy} {now : ℚ} {id secret txHash token : String} {tier : SigningTier}
  {tokens : List String}

/-! ## Parts -/

theorem not_mem_first_part (token : String) : '.' ∉ ((splitPoints token).getD 0 "").toList := by
  obtain ⟨first, rest, hsplit, hfirst, -⟩ := exists_first_part '.' token.toList
  unfold splitPoints
  rw [hsplit, List.map_cons, List.getD_cons_zero, String.toList_ofList]
  exact hfirst

theorem issueApproval_toList (expiresAt : ℚ) : (issueApproval platform id secret txHash tier expiresAt).toList =
    id.toList ++ '.' :: ((platform.text expiresAt).toList ++
      '.' :: (platform.hmac secret (approvalMessage platform txHash tier expiresAt)).toList) := by
  have hjoin (a b c : String) : (s!"{a}.{b}.{c}").toList = a.toList ++ '.' :: (b.toList ++ '.' :: c.toList) := by
    have hpoint : ".".toList = ['.'] := rfl
    simp only [String.toList_append, toString, hpoint, List.append_assoc, List.cons_append, List.nil_append]
  exact hjoin id (platform.text expiresAt) (platform.hmac secret (approvalMessage platform txHash tier expiresAt))

theorem Platform.Documented.hmac_point (hplatform : platform.Documented) (message : String) :
    '.' ∉ (platform.hmac secret message).toList := by
  obtain ⟨digest, -, hhex⟩ := hplatform.hmac_hex secret message
  rw [hhex, toHex, String.toList_ofList]
  intro hpoint
  obtain ⟨n, hn, hdigit⟩ := exists_of_mem_hexChars hpoint
  revert n
  decide

/-- Without a point in the expiry, the third part is the HMAC. -/
theorem third_part_of_whole {expiresAt : ℚ} (hplatform : platform.Documented) (hid : '.' ∉ id.toList)
    (hwhole : '.' ∉ (platform.text expiresAt).toList) :
    (splitPoints (issueApproval platform id secret txHash tier expiresAt)).getD 2 "" =
      platform.hmac secret (approvalMessage platform txHash tier expiresAt) := by
  unfold splitPoints
  rw [issueApproval_toList, List.splitOn_append_cons_self_of_not_mem hid,
    List.splitOn_append_cons_self_of_not_mem hwhole, List.splitOn_eq_singleton (hplatform.hmac_point _)]
  exact String.ofList_toList

/-- With a point, it is a piece of the expiry. -/
theorem third_part_of_pointed {expiresAt : ℚ} (hplatform : platform.Documented) (hid : '.' ∉ id.toList)
    (hpoint : '.' ∈ (platform.text expiresAt).toList) :
    ((splitPoints (issueApproval platform id secret txHash tier expiresAt)).getD 2 "").toList.length < 64 := by
  obtain ⟨whole, fraction, htext, hwhole⟩ := List.eq_append_cons_of_mem hpoint
  obtain ⟨first, rest, hsplit, -, hle⟩ := exists_first_part '.' fraction
  have hshort := hplatform.text_short expiresAt
  rw [htext, List.length_append, List.length_cons] at hshort
  unfold splitPoints
  rw [issueApproval_toList, htext, List.append_assoc, List.cons_append, List.splitOn_append_cons_self_of_not_mem hid,
    List.splitOn_append_cons_self_of_not_mem hwhole, List.splitOn_append_cons_self, hsplit]
  show (String.ofList first).toList.length < 64
  rw [String.toList_ofList]
  omega

/-! ## What passes -/

theorem macEquals_iff {a b : String} : macEquals a b = true ↔ fromHex a = fromHex b ∧ 0 < (fromHex a).length := by
  unfold macEquals
  simp only [Bool.and_eq_true, beq_iff_eq, decide_eq_true_eq]
  constructor
  · rintro ⟨⟨-, hpos⟩, heq⟩
    exact ⟨heq, hpos⟩
  · rintro ⟨heq, hpos⟩
    exact ⟨⟨congrArg List.length heq, hpos⟩, heq⟩

/-- A token that passes was issued exactly if its expiry is written without a point. -/
theorem Passes.issued_iff (hplatform : platform.Documented) (h : Passes platform now id secret txHash tier token) :
    Issued platform now id secret txHash tier token ↔ pointed platform now token = false := by
  obtain ⟨rfl, -, expiresAt, hlive, hmac⟩ := h
  have hpointed : pointed platform now token = (platform.text expiresAt).toList.contains '.' := by
    rw [pointed, hlive]
    rfl
  rw [hpointed, Bool.eq_false_iff, ne_eq, List.contains_iff_mem]
  constructor
  · rintro ⟨-, e, he, hissued⟩ hpoint
    cases hlive.symm.trans he
    -- the two third parts would be of different lengths
    have hshort : ((splitPoints (issueApproval platform ((splitPoints token).getD 0 "") secret txHash tier
      expiresAt)).getD 2 "").toList.length < 64 := third_part_of_pointed hplatform (not_mem_first_part token) hpoint
    obtain ⟨digest, hlength, hhex⟩ := hplatform.hmac_hex secret (approvalMessage platform txHash tier expiresAt)
    rw [macEquals_iff] at hmac hissued
    have hbytes := hissued.1.symm.trans hmac.1
    rw [hhex, fromHex_toHex] at hbytes
    have hle := length_readHex (((splitPoints (issueApproval platform ((splitPoints token).getD 0 "") secret txHash tier
      expiresAt)).getD 2 "").toList)
    have hsame := congrArg List.length hbytes
    unfold fromHex at hsame
    omega
  · intro hwhole
    refine ⟨rfl, expiresAt, hlive, ?_⟩
    rw [← third_part_of_whole hplatform (not_mem_first_part token) hwhole]
    exact hmac

theorem approver_eq_some : approver platform policy now txHash tier token = .ok (some id) ↔
    ∃ secret, policy.cosigners.lookup id = some secret ∧ Passes platform now id secret txHash tier token := by
  unfold approver Passes
  dsimp only
  cases hlive : liveUntil platform now (splitPoints token)[1]? with
  | none => simp
  | some expiresAt =>
    cases hlookup : policy.cosigners.lookup ((splitPoints token).getD 0 "") with
    | none =>
      constructor
      · intro h
        simp at h
      · rintro ⟨secret, hsecret, rfl, -⟩
        cases hlookup.symm.trans hsecret
    | some secret =>
      dsimp only
      constructor
      · intro h
        simp only [pure_eq_ok] at h
        split at h
        · next hpass =>
          cases h
          exact ⟨secret, hlookup, rfl, hpass.1, expiresAt, rfl, hpass.2⟩
        · cases h
      · rintro ⟨secret', hsecret, rfl, hne, e, he, hmac⟩
        cases hlookup.symm.trans hsecret
        cases he
        rw [if_pos ⟨hne, hmac⟩]
        rfl

theorem exists_approver_iff : (∃ found, approver platform policy now txHash tier token = .ok found) ↔
    ¬ Throws platform policy now token := by
  unfold approver Throws
  dsimp only
  cases liveUntil platform now (splitPoints token)[1]? with
  | none => simp
  | some expiresAt =>
    cases policy.cosigners.lookup ((splitPoints token).getD 0 "") with
    | none => simp
    | some secret => simp

theorem verifyBreakGlass_iff : policy.verifyBreakGlass platform now token txHash = true ↔
    ∃ secret, policy.breakGlassSecret = some secret ∧ Passes platform now "break-glass" secret txHash .warm token := by
  unfold SigningPolicy.verifyBreakGlass Passes
  cases policy.breakGlassSecret with
  | none => simp
  | some secret =>
    dsimp only
    cases liveUntil platform now (splitPoints token)[1]? with
    | none => simp
    | some expiresAt =>
      simp [and_assoc, and_left_comm]

theorem validApprovers_iff {required : Nat} :
    (∃ ids, policy.validApprovers platform now tokens txHash tier = .ok ids ∧ required ≤ ids.length) ↔
      (∀ token ∈ tokens, ¬ Throws platform policy now token) ∧
        ∃ ids : List String, ids.Nodup ∧ required ≤ ids.length ∧ ∀ id ∈ ids, ∃ secret,
          policy.cosigners.lookup id = some secret ∧ ∃ token ∈ tokens,
            Passes platform now id secret txHash tier token := by
  have hthrows : (∀ token ∈ tokens, ¬ Throws platform policy now token) ↔
      ∃ found, tokens.mapM (approver platform policy now txHash tier) = .ok found := by
    rw [exists_mapM_iff]
    exact forall_congr' fun token => forall_congr' fun _ => exists_approver_iff.symm
  have hmem {found : List (Option String)} (hfound : tokens.mapM (approver platform policy now txHash tier) = .ok found)
      (id : String) : id ∈ found.reduceOption.dedup ↔ ∃ secret, policy.cosigners.lookup id = some secret ∧
        ∃ token ∈ tokens, Passes platform now id secret txHash tier token := by
    rw [List.mem_dedup, List.reduceOption_mem_iff, mem_mapM_iff hfound]
    simp only [approver_eq_some]
    exact ⟨fun ⟨token, htoken, secret, hsecret, hpasses⟩ => ⟨secret, hsecret, token, htoken, hpasses⟩,
      fun ⟨secret, hsecret, token, htoken, hpasses⟩ => ⟨token, htoken, secret, hsecret, hpasses⟩⟩
  unfold SigningPolicy.validApprovers
  rw [hthrows]
  constructor
  · rintro ⟨ids, hids, hlength⟩
    obtain ⟨found, hfound, hids⟩ := bind_eq_ok.mp hids
    cases hids
    exact ⟨⟨found, hfound⟩, _, List.nodup_dedup _, hlength, fun id hid => (hmem hfound id).mp hid⟩
  · rintro ⟨⟨found, hfound⟩, ids, hnodup, hlength, hids⟩
    refine ⟨_, bind_eq_ok.mpr ⟨found, hfound, rfl⟩, hlength.trans ?_⟩
    exact (hnodup.subperm fun id hid => (hmem hfound id).mpr (hids id hid)).length_le

/-! ## What a message says -/

theorem approvalMessage_toList (expiresAt : ℚ) : (approvalMessage platform txHash tier expiresAt).toList =
    "zkvote-relayer-approval:v1:".toList ++ (txHash.toList ++ ':' :: tier.text.toList) ++
      ':' :: (platform.text expiresAt).toList := by
  have hjoin (a b c d : String) : (s!"{a}{b}:{c}:{d}").toList =
      a.toList ++ (b.toList ++ ':' :: c.toList) ++ ':' :: d.toList := by
    have hcolon : ":".toList = [':'] := rfl
    simp only [String.toList_append, toString, hcolon, List.append_assoc, List.cons_append, List.nil_append]
  exact hjoin "zkvote-relayer-approval:v1:" txHash tier.text (platform.text expiresAt)

/-- The hash and the tier can be read off the message. -/
theorem approvalMessage_inj {txHash' : String} {tier' : SigningTier} {e e' : ℚ} (hplatform : platform.Documented)
    (h : approvalMessage platform txHash tier e = approvalMessage platform txHash' tier' e') :
    txHash = txHash' ∧ tier = tier' := by
  have hlist := congrArg String.toList h
  have htier (tier : SigningTier) : ':' ∉ tier.text.toList := by cases tier <;> decide
  rw [approvalMessage_toList, approvalMessage_toList] at hlist
  obtain ⟨hfront, -⟩ := append_cons_inj_right (hplatform.text_colon e) (hplatform.text_colon e') hlist
  obtain ⟨hhash, htext⟩ := append_cons_inj_right (htier tier) (htier tier') (List.append_cancel_left hfront)
  refine ⟨String.toList_injective hhash, ?_⟩
  revert htext
  cases tier <;> cases tier' <;> decide

end

end ZkVote.Relayer

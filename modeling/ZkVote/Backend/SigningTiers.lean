import Mathlib.Algebra.BigOperators.Group.List.Basic
import ZkVote.Backend.Operations

/-!
# The tier of a transaction

The amounts of the SDK are read back, so the policy never fails on a transaction, and its tier is the
least one that every total under a code allows.
-/

open Lib Lib.Outcome

namespace ZkVote.Relayer

section
variable {policy : SigningPolicy} {op : StellarOperation} {ops : List StellarOperation} {env : Envelope}
  {code : String} {n : Nat} {values : List (String × Int)} {tier tier' : SigningTier}

/-! ## Amounts -/

theorem splitPoints_of_two {whole fraction : List Char} (hwhole : '.' ∉ whole) (hfraction : '.' ∉ fraction) :
    splitPoints (String.ofList (whole ++ '.' :: fraction)) = [String.ofList whole, String.ofList fraction] := by
  unfold splitPoints
  rw [String.toList_ofList, List.splitOn_append_cons_self_of_not_mem hwhole, List.splitOn_eq_singleton hfraction]
  rfl

theorem not_mem_of_digits {cs : List Char} (hdigits : ∀ c ∈ cs, c.isDigit = true) : '.' ∉ cs := by
  intro hmem
  have hdot := hdigits '.' hmem
  cases hdot

theorem bigInt_of_digits {cs : List Char} (hne : cs ≠ []) (hdigits : ∀ c ∈ cs, c.isDigit = true) :
    bigInt cs = .ok (Nat.ofDigitChars 10 cs 0 : Int) := by
  rw [bigInt, readInt_of_digits hne hdigits]
  rfl

/-- Seven digits after the point are taken as they are. -/
theorem xlmToStroops_of_digits {whole fraction : List Char} (hne : whole ≠ []) (hlength : fraction.length = 7)
    (hwhole : ∀ c ∈ whole, c.isDigit = true) (hfraction : ∀ c ∈ fraction, c.isDigit = true) :
    xlmToStroops (String.ofList (whole ++ '.' :: fraction)) =
      .ok ((Nat.ofDigitChars 10 whole 0 : Int) * STROOPS + (Nat.ofDigitChars 10 fraction 0 : Int)) := by
  have hfractionNe : fraction ≠ [] := List.ne_nil_of_length_pos (hlength ▸ Nat.succ_pos 6)
  have htext : String.ofList whole ≠ "" := by
    intro hempty
    exact hne (String.toList_ofList.symm.trans (congrArg String.toList hempty))
  have htake : (String.ofList fraction ++ "0000000").toList.take 7 = fraction := by
    rw [String.toList_append, String.toList_ofList, List.take_left' hlength]
  unfold xlmToStroops
  rw [splitPoints_of_two (not_mem_of_digits hwhole) (not_mem_of_digits hfraction)]
  show (do
    let w ← bigInt (if String.ofList whole = "" then "0" else String.ofList whole).toList
    let f ← bigInt ((String.ofList fraction ++ "0000000").toList.take 7)
    return w * STROOPS + f) = _
  rw [if_neg htext, String.toList_ofList, htake, bigInt_of_digits hne hwhole, bigInt_of_digits hfractionNe hfraction]
  rfl

theorem xlmToStroops_toFixed7 (n : Nat) : xlmToStroops (toFixed7 n) = .ok (n : Int) := by
  obtain ⟨hlength, hfraction, hvalue⟩ :=
    StellarAmount.fractional_digits (Nat.mod_lt n (by decide : 0 < StellarAmount.STROOPS_PER_UNIT))
  have hsum : n / StellarAmount.STROOPS_PER_UNIT * StellarAmount.STROOPS_PER_UNIT +
      n % StellarAmount.STROOPS_PER_UNIT = n := Nat.div_add_mod' n _
  unfold toFixed7
  rw [xlmToStroops_of_digits repr_ne_nil hlength (fun c hc => isDigit_of_mem_repr hc) hfraction, hvalue,
    Nat.toList_repr, Nat.ofDigitChars_ten_toDigits]
  have hint : ((n / StellarAmount.STROOPS_PER_UNIT : Nat) : Int) * STROOPS +
      ((n % StellarAmount.STROOPS_PER_UNIT : Nat) : Int) = (n : Int) := by
    exact_mod_cast congrArg Nat.cast hsum
  rw [hint]

theorem operationValue_parsed (op : StellarOperation) :
    operationValue op.parsed = .ok (op.counted.map fun value => (value.1.code, (value.2 : Int))) := by
  have hvalue (asset : Asset) (n : Nat) : (do return some (assetCode asset, ← xlmToStroops (toFixed7 n))) =
      (.ok (some (assetCode asset, (n : Int))) : Outcome SigningRefusedError (Option (String × Int))) := by
    rw [xlmToStroops_toFixed7]
    rfl
  cases op with
  | createAccount destination startingBalance => exact hvalue .native startingBalance
  | payment destination asset amount => exact hvalue asset.parsed amount
  | pathPaymentStrictReceive sendAsset sendMax => exact hvalue sendAsset.parsed sendMax
  | pathPaymentStrictSend sendAsset sendAmount => exact hvalue sendAsset.parsed sendAmount
  | createClaimableBalance asset amount => exact hvalue asset.parsed amount
  | _ => rfl

/-! ## Totals -/

/-- Some operation counts under the code. -/
def Counts (ops : List StellarOperation) (code : String) : Prop :=
  ∃ op ∈ ops, ∃ a n, op.counted = some (a, n) ∧ a.code = code

/-- The values as a function of their codes: the one is raised, and the others stay. -/
theorem addValue_map {codes : List String} {f g : String → Int} {n : Int} (hnodup : codes.Nodup)
    (hzero : code ∉ codes → f code = 0) (hcode : g code = f code + n) (hother : ∀ c, c ≠ code → g c = f c) :
    addValue code n (codes.map fun c => (c, f c)) =
      (if code ∈ codes then codes else codes ++ [code]).map fun c => (c, g c) := by
  induction codes with
  | nil =>
    rw [hzero List.not_mem_nil, zero_add] at hcode
    exact congrArg (fun m => [(code, m)]) hcode.symm
  | cons c codes ih =>
    rw [List.nodup_cons] at hnodup
    rw [List.map_cons, addValue]
    by_cases hc : c = code
    · subst hc
      have hrest : (codes.map fun c => (c, f c)) = codes.map fun c => (c, g c) := by
        refine List.map_congr_left fun c' hc' => ?_
        rw [hother c' fun h => hnodup.1 (h ▸ hc')]
      rw [if_pos rfl, if_pos List.mem_cons_self, List.map_cons, hcode, hrest]
    · have hmem : code ∈ c :: codes ↔ code ∈ codes := List.mem_cons.trans (or_iff_right (Ne.symm hc))
      rw [if_neg hc, ih hnodup.2 fun hnone => hzero (hmem.not.mpr hnone), ← hother c hc]
      by_cases hin : code ∈ codes
      · rw [if_pos hin, if_pos (hmem.mpr hin), List.map_cons]
      · rw [if_neg hin, if_neg (hmem.not.mpr hin), List.cons_append, List.map_cons]

theorem totalOf_append : totalOf (ops ++ [op]) code = totalOf ops code + op.countedOf code := by
  rw [totalOf, List.map_append, List.sum_append]
  rfl

theorem counts_append :
    Counts (ops ++ [op]) code ↔ Counts ops code ∨ ∃ a n, op.counted = some (a, n) ∧ a.code = code := by
  unfold Counts
  simp only [List.mem_append, List.mem_singleton, or_and_right, exists_or, exists_eq_left]

theorem totalOf_eq_zero (h : ¬ Counts ops code) : totalOf ops code = 0 := by
  refine List.sum_eq_zero fun n hn => ?_
  obtain ⟨op, hop, rfl⟩ := List.mem_map.mp hn
  unfold StellarOperation.countedOf
  split
  · next a n hcounted => exact if_neg fun hcode => h ⟨op, hop, a, n, hcounted, hcode⟩
  · rfl

/-- The values are the totals under the codes that are counted. -/
theorem valueOf_parsed (ops : List StellarOperation) : ∃ codes : List String, codes.Nodup ∧
    (∀ code, code ∈ codes ↔ Counts ops code) ∧
    valueOf (ops.map StellarOperation.parsed) = .ok (codes.map fun code => (code, (totalOf ops code : Int))) := by
  induction ops using List.reverseRecOn with
  | nil => exact ⟨[], .nil, fun code => by simp [Counts], rfl⟩
  | append_singleton ops op ih =>
    obtain ⟨codes, hnodup, hcodes, hvalues⟩ := ih
    have hstep : valueOf ((ops ++ [op]).map StellarOperation.parsed) =
        valueOf (ops.map StellarOperation.parsed) >>= fun values => addOperation values op.parsed := by
      unfold valueOf
      rw [List.map_append, List.foldlM_append]
      exact congrArg _ (funext fun values => List.foldlM_cons.trans (bind_pure _))
    rw [hstep, hvalues, ok_bind, addOperation, operationValue_parsed]
    cases hcounted : op.counted with
    | none =>
      have hsame (code : String) : totalOf (ops ++ [op]) code = totalOf ops code := by
        rw [totalOf_append, op.countedOf_of_none hcounted, Nat.add_zero]
      refine ⟨codes, hnodup, fun code => ?_, ?_⟩
      · rw [hcodes, counts_append, hcounted]
        simp
      · simp only [hsame]
        rfl
    | some value =>
      obtain ⟨a, n⟩ := value
      have hadd : addValue a.code n (codes.map fun code => (code, (totalOf ops code : Int))) =
          (if a.code ∈ codes then codes else codes ++ [a.code]).map
            fun code => (code, (totalOf (ops ++ [op]) code : Int)) := by
        refine addValue_map hnodup (fun hnone => ?_) ?_ fun code hne => ?_
        · rw [totalOf_eq_zero ((hcodes _).not.mp hnone), Nat.cast_zero]
        · rw [totalOf_append, op.countedOf_of_some hcounted, if_pos rfl, Nat.cast_add]
        · rw [totalOf_append, op.countedOf_of_some hcounted, if_neg (Ne.symm hne), Nat.add_zero]
      refine ⟨_, ?_, fun code => ?_, congrArg Except.ok hadd⟩
      · split
        · exact hnodup
        · next hnew => exact hnodup.append (List.nodup_singleton _) (List.disjoint_singleton.mpr hnew)
      · rw [counts_append, hcounted, ← hcodes]
        split
        · next hin =>
          refine ⟨.inl, ?_⟩
          rintro (h | ⟨a', n', heq, rfl⟩)
          · exact h
          · cases heq
            exact hin
        · simp [eq_comm]

/-! ## Tiers -/

theorem rank_injective : Function.Injective TIER_RANK := by
  intro a b
  cases a <;> cases b <;> decide

theorem rank_higherTier_le_iff {r : Nat} :
    TIER_RANK (higherTier tier tier') ≤ r ↔ TIER_RANK tier ≤ r ∧ TIER_RANK tier' ≤ r := by
  unfold higherTier
  split <;> omega

theorem rank_foldl_le_iff {α : Type} {f : α → SigningTier} {xs : List α} {start : SigningTier} {r : Nat} :
    TIER_RANK (xs.foldl (fun tier x => higherTier tier (f x)) start) ≤ r ↔
      TIER_RANK start ≤ r ∧ ∀ x ∈ xs, TIER_RANK (f x) ≤ r := by
  induction xs generalizing start with
  | nil => exact (and_iff_left (List.forall_mem_nil _)).symm
  | cons x xs ih => rw [List.foldl_cons, ih, rank_higherTier_le_iff, List.forall_mem_cons, and_assoc]

theorem rank_assetTier_mono {limits : Option TierLimits} {m n : Int} (h : m ≤ n) :
    TIER_RANK (assetTier limits m) ≤ TIER_RANK (assetTier limits n) := by
  cases limits with
  | none => exact le_rfl
  | some l =>
    unfold assetTier
    dsimp only
    split_ifs <;> first | decide | omega

theorem rank_tierOf_mono {m n : Int} (h : m ≤ n) :
    TIER_RANK (policy.tierOf code m) ≤ TIER_RANK (policy.tierOf code n) := by
  unfold SigningPolicy.tierOf
  split
  · exact le_rfl
  · exact rank_assetTier_mono h

/-- The policy finds the operation in its list. -/
def StellarOperation.listed (op : StellarOperation) : Bool := op.parsed.type ∈ PRIVILEGED_OPS

/-- Cold with a listed operation, and otherwise the highest tier of the totals under the codes. -/
def SigningPolicy.tierFor (policy : SigningPolicy) (ops : List StellarOperation) : SigningTier :=
  (ops.filterMap StellarOperation.counted).foldl
    (fun tier value => higherTier tier (policy.tierOf value.1.code (totalOf ops value.1.code)))
    (if ops.any StellarOperation.listed = true then .cold else .hot)

theorem counts_iff : Counts ops code ↔ ∃ value ∈ ops.filterMap StellarOperation.counted, value.1.code = code := by
  simp only [List.mem_filterMap]
  constructor
  · rintro ⟨op, hop, a, n, hcounted, rfl⟩
    exact ⟨(a, n), ⟨op, hop, hcounted⟩, rfl⟩
  · rintro ⟨⟨a, n⟩, ⟨op, hop, hcounted⟩, rfl⟩
    exact ⟨op, hop, a, n, hcounted, rfl⟩

theorem rank_tierFor_le_iff {r : Nat} : TIER_RANK (policy.tierFor ops) ≤ r ↔
    TIER_RANK (if ops.any StellarOperation.listed = true then .cold else .hot) ≤ r ∧
      ∀ code, Counts ops code → TIER_RANK (policy.tierOf code (totalOf ops code)) ≤ r := by
  unfold SigningPolicy.tierFor
  rw [rank_foldl_le_iff]
  refine and_congr_right fun _ => ⟨fun h code hcounts => ?_, fun h value hvalue => ?_⟩
  · obtain ⟨value, hvalue, rfl⟩ := counts_iff.mp hcounts
    exact h value hvalue
  · exact h _ (counts_iff.mpr ⟨value, hvalue, rfl⟩)

theorem transactionOperations_parsed (env : Envelope) :
    transactionOperations env.parsed = env.ops.map StellarOperation.parsed := by
  unfold transactionOperations Envelope.parsed
  cases env.feeSource <;> rfl

theorem classify_parsed (policy : SigningPolicy) (env : Envelope) :
    ∃ c, policy.classify env.parsed = .ok c ∧ c.tier = policy.tierFor env.ops := by
  obtain ⟨codes, -, hcodes, hvalues⟩ := valueOf_parsed env.ops
  have hlisted : 0 < (((env.ops.map StellarOperation.parsed).map Operation.type).filter (· ∈ PRIVILEGED_OPS)).length ↔
      env.ops.any StellarOperation.listed = true := by
    rw [List.length_pos_iff_exists_mem]
    simp [StellarOperation.listed]
  unfold SigningPolicy.classify
  rw [transactionOperations_parsed]
  dsimp only
  rw [hvalues]
  refine ⟨_, rfl, rank_injective (eq_of_forall_ge_iff fun r => ?_)⟩
  rw [rank_tierFor_le_iff, List.foldl_map, rank_foldl_le_iff]
  simp only [gt_iff_lt, hlisted]
  exact and_congr_right fun _ => forall_congr' fun code => imp_congr_left (hcodes code)

/-- Whatever is appended, the tier is not lower. -/
theorem rank_tierFor_append : TIER_RANK (policy.tierFor ops) ≤ TIER_RANK (policy.tierFor (ops ++ [op])) := by
  obtain ⟨hstart, htotals⟩ := rank_tierFor_le_iff.mp (le_refl (TIER_RANK (policy.tierFor (ops ++ [op]))))
  refine rank_tierFor_le_iff.mpr ⟨?_, fun code hcounts => ?_⟩
  · refine le_trans ?_ hstart
    rw [List.any_append]
    cases ops.any StellarOperation.listed with
    | true => exact le_rfl
    | false => exact Nat.zero_le _
  · have hmore : (totalOf ops code : Int) ≤ totalOf (ops ++ [op]) code := by
      rw [totalOf_append, Nat.cast_add]
      exact Int.le_add_of_nonneg_right (Int.natCast_nonneg _)
    exact (rank_tierOf_mono hmore).trans (htotals code (counts_append.mpr (.inl hcounts)))

theorem tierFor_eq_hot_iff : policy.tierFor ops = .hot ↔ ops.any StellarOperation.listed = false ∧
    ∀ code, Counts ops code → policy.tierOf code (totalOf ops code) = .hot := by
  have hzero (tier : SigningTier) : TIER_RANK tier ≤ 0 ↔ tier = .hot := by cases tier <;> decide
  rw [← hzero, rank_tierFor_le_iff, hzero]
  refine and_congr ?_ (forall_congr' fun code => imp_congr_right fun _ => hzero _)
  cases ops.any StellarOperation.listed <;> decide

end

end ZkVote.Relayer

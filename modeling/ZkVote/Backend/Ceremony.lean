import ZkVote.Backend.Decryption
import ZkVote.Backend.Registrations
import Mathlib.Data.Bool.Count

/-!
# The decryption ceremony

What `finalize` returns against the ballots that were cast, whatever points are submitted to it.
-/

open Lib

namespace ZkVote.EncryptedTally

open ElGamal

variable {P : Type} [AddCommGroup P] {G H : P}

/-- The ciphertext of a vote under the key `H`. -/
def BallotFor (G H : P) (yes : Bool) (b : BallotCiphertext P) : Prop :=
  ∃ r : Nat, b.c1 = r • G ∧ b.cYes = r • H + (if yes then G else 0) ∧ b.cNo = r • H + (if yes then 0 else G)

/-- The key and its shares are as `createElection` makes them. -/
structure Prepared (G : P) (election : EncryptedElection P) : Prop where
  key : election.publicKey = election.privateKey • G
  shares : ∃ total randoms,
    createShares election.privateKey election.threshold total randoms = .ok election.authorities

theorem prepared_newElection {params : CreateParams} {privateKey : Nat} {randoms : Nat → Nat} {now : Int}
    {election : EncryptedElection P} (h : newElection G params privateKey randoms now = .ok election) :
    Prepared G election := by
  unfold newElection at h
  simp only at h
  split at h
  · cases h
  · next shares hshares =>
    cases h
    exact ⟨rfl, _, _, hshares⟩

/-- Whatever happens to an election, it keeps its key and its shares. -/
theorem prepared_of_run {s : Service P} {log : List (Service P × Event P)} (hrun : Run (Step G) {} log s) :
    ∀ election ∈ s.objects, Prepared G election := by
  refine hrun.invariant (P := fun s => ∀ election ∈ s.objects, Prepared G election) (by simp) ?_
  intro s e s' h hstep
  have hupdate : ∀ ref before after, s.objects[ref]? = some before →
      (Prepared G before → Prepared G after) → ∀ election ∈ s.objects.set ref after, Prepared G election := by
    intro ref before after hget hkeeps election helection
    rcases List.mem_or_eq_of_mem_set helection with hmem | rfl
    · exact h election hmem
    · exact hkeeps (h before (List.mem_of_getElem? hget))
  unfold Step next at hstep
  cases e with
  | createElection params =>
    simp only at hstep
    cases hcreate : createElection s params with
    | error failure =>
      rw [hcreate] at hstep
      cases hstep
    | ok s₁ =>
      rw [hcreate] at hstep
      cases hstep
      rw [createElection_ok hcreate]
      exact h
  | finishCreation k privateKey randoms now =>
    simp only [finishCreation] at hstep
    split at hstep
    · cases hstep
    split at hstep
    · cases hstep
      exact h
    next election hnew =>
    cases hstep
    intro election' hmem
    rcases List.mem_append.mp hmem with hmem | hmem
    · exact h election' hmem
    · rw [List.mem_singleton.mp hmem]
      exact prepared_newElection hnew
  | registerBallot electionId ballot now =>
    simp only at hstep
    cases hregister : registerBallot s electionId ballot now with
    | error failure =>
      rw [hregister] at hstep
      cases hstep
    | ok s₁ =>
      rw [hregister] at hstep
      cases hstep
      obtain ⟨ref, election, b, -, hget, ⟨-, rfl⟩ | ⟨aggregate, -, rfl⟩⟩ := registerBallot_ok hregister
      · exact hupdate ref election _ hget fun h => ⟨h.key, h.shares⟩
      · exact hupdate ref election _ hget fun h => ⟨h.key, h.shares⟩
  | resume k =>
    simp only [resume] at hstep
    split at hstep
    · cases hstep
    split at hstep
    · cases hstep
    next election hget =>
    split at hstep
    · cases hstep
    split at hstep
    · cases hstep
      exact h
    · cases hstep
      exact h
    · cases hstep
      exact hupdate _ election _ hget fun h => ⟨h.key, h.shares⟩
  | finalized ref result =>
    obtain ⟨election, hget, rfl⟩ := Option.map_eq_some_iff.mp hstep
    exact hupdate ref election _ hget fun h => ⟨h.key, h.shares⟩

theorem ballotFor_encryptBallot {vote : Bool} {randomness : Nat} {b : BallotCiphertext P}
    (h : encryptBallot G H vote randomness = .ok b) : BallotFor G H vote b := by
  unfold encryptBallot at h
  simp only at h
  split at h
  · cases h
  · cases h
    exact ⟨_, rfl, rfl, rfl⟩

/-! ## The aggregate of the votes -/

theorem sumOf_votes {votes : List Bool} {ballots : List (BallotCiphertext P)}
    (h : List.Forall₂ (BallotFor G H) votes ballots) :
    ∃ r : Nat, sumOf ballots =
      { c1 := r • G
        cYes := r • H + votes.count true • G
        cNo := r • H + votes.count false • G } := by
  induction h with
  | nil => exact ⟨0, by simp [sumOf]⟩
  | @cons vote ballot votes ballots hballot _ ih =>
    obtain ⟨r, h1, h2, h3⟩ := hballot
    obtain ⟨rest, hrest⟩ := ih
    simp only [sumOf, Aggregate.mk.injEq] at hrest
    obtain ⟨hc1, hcYes, hcNo⟩ := hrest
    refine ⟨r + rest, ?_⟩
    simp only [sumOf, List.map_cons, List.sum_cons, Aggregate.mk.injEq, hc1, hcYes, hcNo, h1, h2, h3]
    refine ⟨by rw [add_smul], ?_, ?_⟩
    · cases vote
      · simp [add_smul]
        abel
      · simp [add_smul]
        abel
    · cases vote
      · simp [add_smul]
        abel
      · simp [add_smul]
        abel

theorem length_votes {votes : List Bool} {ballots : List (BallotCiphertext P)}
    (h : List.Forall₂ (BallotFor G H) votes ballots) :
    ballots.length = votes.count true + votes.count false := by
  rw [← h.length_eq, List.count_true_add_count_false]

/-! ## Any points -/

variable [DecidableEq P]

theorem bind_ok {α β : Type} {x : Except Failure α} {f : α → Except Failure β} {b : β} :
    (x >>= f) = .ok b ↔ ∃ a, x = .ok a ∧ f a = .ok b := by
  cases x <;> simp [bind, Except.bind]

theorem ok_bind {α β : Type} (a : α) (f : α → Except Failure β) : (.ok a : Except Failure α) >>= f = f a := rfl

theorem uncaught_ok {α : Type} {x : Except String α} {a : α} : uncaught x = .ok a ↔ x = .ok a := by
  cases x <;> simp [uncaught]

theorem decryptTotals_ok {election : EncryptedElection P} {aggregate : Aggregate P} {unique : List (Share P)}
    {yesVotes noVotes : Nat} :
    decryptTotals G election aggregate unique = .ok (yesVotes, noVotes) ↔
      ∃ combined, combineDecryptionShares unique = .ok combined ∧
        discreteLog G (aggregate.cYes + -combined) (dlogMax election.ballots.length) = .ok yesVotes ∧
        discreteLog G (aggregate.cNo + -combined) (dlogMax election.ballots.length) = .ok noVotes ∧
        yesVotes + noVotes = election.ballots.length := by
  unfold decryptTotals decryptWithCombinedShare
  simp only [bind_ok, uncaught_ok]
  constructor
  · rintro ⟨combined, hcombined, yes, hyes, no, hno, h⟩
    split at h
    · next hsum =>
      cases h
      exact ⟨combined, hcombined, hyes, hno, hsum⟩
    · cases h
  · rintro ⟨combined, hcombined, hyes, hno, hsum⟩
    exact ⟨combined, hcombined, _, hyes, _, hno, by rw [if_pos hsum]⟩

omit [DecidableEq P] in
/-- Twice nothing is nothing in a group of odd order. -/
theorem eq_zero_of_two_smul {Q : P} (hQ : BABYJUB_SUBORDER • Q = 0) (htwo : 2 • Q = 0) : Q = 0 := by
  have hodd : BABYJUB_SUBORDER = BABYJUB_SUBORDER / 2 * 2 + 1 := by decide
  rw [hodd, add_smul, mul_smul, htwo, smul_zero, zero_add, one_smul] at hQ
  exact hQ

omit [DecidableEq P] in
theorem smul_G_eq_zero (hG : addOrderOf G = BABYJUB_SUBORDER) : BABYJUB_SUBORDER • G = 0 := by
  rw [← hG]
  exact addOrderOf_nsmul_eq_zero G

omit [DecidableEq P] in
/-- What the shares are off by is nothing, if the counts they lead to add up. -/
theorem offset_eq_zero (hG : addOrderOf G = BABYJUB_SUBORDER) {offset : P} {yes no yes' no' : Nat}
    (hyes : yes • G + offset = yes' • G) (hno : no • G + offset = no' • G) (hsum : yes' + no' = yes + no) :
    offset = 0 := by
  have hzero := smul_G_eq_zero hG
  have hoffset : offset = yes' • G - yes • G := by
    rw [← hyes]
    abel
  apply eq_zero_of_two_smul
  · rw [hoffset, smul_sub, smul_comm, hzero, smul_comm, hzero]
    simp
  · have hboth : (yes + no) • G + 2 • offset = (yes' + no') • G := by
      rw [add_smul, add_smul, ← hyes, ← hno, two_smul]
      abel
    rw [hsum] at hboth
    simpa using hboth

theorem dlogMax_pos (n : Nat) : 0 < dlogMax n := by
  unfold dlogMax
  omega

/-- A ceremony that ends counts right. -/
theorem counts_exact (hG : addOrderOf G = BABYJUB_SUBORDER) {r : Nat} {combined : P} {yes no yes' no' : Nat}
    (hyes : discreteLog G (r • H + yes • G + -combined) (dlogMax (yes + no)) = .ok yes')
    (hno : discreteLog G (r • H + no • G + -combined) (dlogMax (yes + no)) = .ok no')
    (hsum : yes' + no' = yes + no) : yes' = yes ∧ no' = no := by
  have hyesPoint := discreteLog_ok hyes
  have hnoPoint := discreteLog_ok hno
  have hoffset : r • H + -combined = 0 := by
    apply offset_eq_zero hG _ _ hsum
    · rw [← hyesPoint]
      abel
    · rw [← hnoPoint]
      abel
  have hrearrange : ∀ n : Nat, r • H + n • G + -combined = n • G := by
    intro n
    calc r • H + n • G + -combined = r • H + -combined + n • G := by abel
      _ = n • G := by rw [hoffset, zero_add]
  rcases Nat.le_total (ceilSqrt (dlogMax (yes + no))) (addOrderOf G) with hsmall | hlarge
  · have hle := discreteLog_least hyes hsmall (hrearrange yes)
    have hle' := discreteLog_least hno hsmall (hrearrange no)
    omega
  · -- So many ballots that one step reaches the whole subgroup: the counts would be too small for them.
    have hpos : 0 < addOrderOf G := by
      rw [hG]
      decide
    have hlt := discreteLog_lt hyes hlarge hpos (hrearrange yes)
    have hlt' := discreteLog_lt hno hlarge hpos (hrearrange no)
    have hsquare := ceilSqrt_pred (dlogMax (yes + no))
    have hbig : 2000000 < ceilSqrt (dlogMax (yes + no)) := by
      refine lt_of_lt_of_le ?_ hlarge
      rw [hG]
      decide
    exfalso
    unfold dlogMax at *
    generalize ceilSqrt (max 1000000 ((yes + no) * 2 + 10)) = m at *
    obtain ⟨m, rfl⟩ : ∃ k, m = k + 1 := ⟨m - 1, by omega⟩
    rw [Nat.add_sub_cancel] at hsquare
    have hbound : max 1000000 ((yes + no) * 2 + 10) ≤ 4 * m + 1000010 := by omega
    nlinarith

/-! ## Honest approvals -/

/-- `unique.set` on the indices alone. -/
def setIndex (unique : List Nat) (i : Nat) : List Nat := if i ∈ unique then unique else unique ++ [i]

omit [AddCommGroup P] [DecidableEq P] in
theorem setApproval_map {f : Nat → Share P} (hf : ∀ i, (f i).index = i) (i : Nat) (unique : List Nat) :
    setApproval (f i) (unique.map f) = (setIndex unique i).map f := by
  induction unique with
  | nil => simp [setApproval, setIndex]
  | cons j unique ih =>
    rw [List.map_cons]
    unfold setApproval
    rw [hf, hf]
    by_cases hij : j = i
    · subst hij
      simp [setIndex]
    · rw [if_neg hij, ih]
      unfold setIndex
      by_cases hmem : i ∈ unique
      · simp [hmem]
      · simp [hmem, Ne.symm hij]

omit [AddCommGroup P] [DecidableEq P] in
theorem collectApprovals_map {f : Nat → Share P} (hf : ∀ i, (f i).index = i) {authorities : List (Share Nat)}
    (indices : List Nat) (hknown : ∀ i ∈ indices, authorities.any (·.index = i) = true) (unique : List Nat) :
    collectApprovals authorities (indices.map f) (unique.map f) = .ok ((indices.foldl setIndex unique).map f) := by
  induction indices generalizing unique with
  | nil => rfl
  | cons i indices ih =>
    rw [List.forall_mem_cons] at hknown
    rw [List.map_cons]
    unfold collectApprovals
    rw [hf, if_pos hknown.1, setApproval_map hf, ih hknown.2, List.foldl_cons]

theorem setIndex_spec {unique : List Nat} (h : unique.Nodup) (i : Nat) :
    (setIndex unique i).Nodup ∧ ∀ j, j ∈ setIndex unique i ↔ j ∈ unique ∨ j = i := by
  unfold setIndex
  split
  · next hmem =>
    refine ⟨h, fun j => ⟨Or.inl, ?_⟩⟩
    rintro (hj | rfl)
    · exact hj
    · exact hmem
  · next hnot =>
    constructor
    · rw [List.nodup_append']
      exact ⟨h, List.nodup_singleton i, by simpa using hnot⟩
    · simp

theorem foldl_setIndex (indices : List Nat) {unique : List Nat} (h : unique.Nodup) :
    (indices.foldl setIndex unique).Nodup ∧
      ∀ j, j ∈ indices.foldl setIndex unique ↔ j ∈ unique ∨ j ∈ indices := by
  induction indices generalizing unique with
  | nil => exact ⟨h, by simp⟩
  | cons i indices ih =>
    obtain ⟨hnodup, hmem⟩ := setIndex_spec h i
    obtain ⟨hnodup', hmem'⟩ := ih hnodup
    refine ⟨hnodup', fun j => ?_⟩
    rw [List.foldl_cons, hmem', hmem, List.mem_cons]
    tauto

/-- As many approvals count as there are different authorities. -/
theorem length_unique (indices : List Nat) : (indices.foldl setIndex []).length = indices.dedup.length := by
  obtain ⟨hnodup, hmem⟩ := foldl_setIndex indices List.nodup_nil
  apply List.Perm.length_eq
  rw [List.perm_ext_iff_of_nodup hnodup (List.nodup_dedup indices)]
  intro j
  rw [hmem, List.mem_dedup]
  simp

omit [DecidableEq P] in
theorem createApproval_ok {election : EncryptedElection P} {aggregate : Aggregate P} {total : Nat}
    {randoms : Nat → Nat} (haggregate : election.aggregate = some aggregate)
    (hshares : createShares election.privateKey election.threshold total randoms = .ok election.authorities)
    {approval : Share P} (h : createApproval election approval.index = .ok approval) :
    approval = shareOf aggregate.c1
        (evalShare (election.privateKey :: (List.range (election.threshold - 1)).map randoms)) approval.index ∧
      approval.index ≤ 2 ^ 32 ∧ election.authorities.any (·.index = approval.index) = true := by
  obtain ⟨-, htotal, hauthorities⟩ := createShares_ok hshares
  unfold createApproval at h
  split at h
  · cases h
  split at h
  · cases h
  next authority hfind =>
  have hmem := List.mem_of_find?_eq_some hfind
  have hindex : authority.index = approval.index := by simpa using List.find?_some hfind
  have hany : election.authorities.any (·.index = approval.index) = true :=
    List.any_eq_true.mpr ⟨authority, hmem, by simpa using hindex⟩
  rw [hauthorities] at hmem
  obtain ⟨i, hi, hauthority⟩ := List.mem_map.mp hmem
  rw [List.mem_range] at hi
  rw [← hauthority] at hindex
  simp only at hindex
  rw [haggregate] at h
  simp only [Except.ok.injEq] at h
  refine ⟨?_, by omega, hany⟩
  rw [← h, ← hauthority]
  simp only [shareOf, generateDecryptionShare, hindex]

theorem ceilSqrt_le_order {n : Nat} (h : n < BABYJUB_SUBORDER) : ceilSqrt (dlogMax n) ≤ BABYJUB_SUBORDER := by
  by_contra hlarge
  have hsquare := ceilSqrt_pred (dlogMax n)
  have hpred : BABYJUB_SUBORDER ≤ ceilSqrt (dlogMax n) - 1 := by omega
  have hle := (Nat.mul_le_mul hpred hpred).trans hsquare
  have hbig : 2000000 < BABYJUB_SUBORDER := by decide
  unfold dlogMax at hle
  have hmax : max 1000000 (n * 2 + 10) ≤ 2 * BABYJUB_SUBORDER + 1000010 := by omega
  generalize BABYJUB_SUBORDER = order at *
  nlinarith

theorem discreteLog_exact (hG : addOrderOf G = BABYJUB_SUBORDER) {y n : Nat} (hy : y ≤ n)
    (hn : n < BABYJUB_SUBORDER) : discreteLog G (y • G) (dlogMax n) = .ok y := by
  have hmax : y ≤ dlogMax n := by
    unfold dlogMax
    omega
  obtain ⟨x, hx⟩ := discreteLog_complete (G := G) (dlogMax_pos n) hmax
  have hle := discreteLog_least hx (by rw [hG]; exact ceilSqrt_le_order hn) rfl
  have hpoint := discreteLog_ok hx
  have heq : y = x := by
    apply nsmul_injOn_Iio_addOrderOf (x := G) _ _ hpoint
    · rw [Set.mem_Iio, hG]
      omega
    · rw [Set.mem_Iio, hG]
      omega
  rw [hx, heq]

theorem decryptTotals_honest (hG : addOrderOf G = BABYJUB_SUBORDER) {election : EncryptedElection P}
    (hkey : election.publicKey = election.privateKey • G) (randoms : Nat → Nat) (hthreshold : 1 ≤ election.threshold)
    {votes : List Bool} (hballots : List.Forall₂ (BallotFor G election.publicKey) votes election.ballots)
    (hrange : election.ballots.length < BABYJUB_SUBORDER) {indices : List Nat} (hnodup : indices.Nodup)
    (hindices : ∀ j ∈ indices, j ≤ 2 ^ 32) (henough : election.threshold ≤ indices.length) :
    decryptTotals G election (sumOf election.ballots) (indices.map (shareOf (sumOf election.ballots).c1
      (evalShare (election.privateKey :: (List.range (election.threshold - 1)).map randoms)))) =
      .ok (votes.count true, votes.count false) := by
  obtain ⟨r, hsum⟩ := sumOf_votes hballots
  have hlength := length_votes hballots
  have hzero : BABYJUB_SUBORDER • r • G = 0 := by
    rw [smul_comm, smul_G_eq_zero hG, smul_zero]
  have hcombined := combine_ok hzero election.privateKey randoms hthreshold hnodup hindices henough
  have hclear : ∀ n : Nat, r • election.publicKey + n • G + -(election.privateKey • r • G) = n • G := by
    intro n
    rw [hkey, smul_comm r]
    abel
  rw [decryptTotals_ok, hsum]
  refine ⟨_, hcombined, ?_, ?_, hlength.symm⟩
  · rw [hclear]
    exact discreteLog_exact hG (by omega) hrange
  · rw [hclear]
    exact discreteLog_exact hG (by omega) hrange

/-! ## The ceremony -/

theorem finalize_ok {format : Format P} {election after : EncryptedElection P} {approvals : List (Share P)}
    {now : Int} {result : EncryptedTallyResult}
    (h : finalize G format election approvals now = .ok (result, after)) :
    ∃ aggregate unique, election.aggregate = some aggregate ∧
      decryptTotals G election aggregate unique = .ok (result.yesVotes, result.noVotes) := by
  unfold finalize at h
  split at h
  · cases h
  split at h
  · cases h
  split at h
  · cases h
  next aggregate haggregate =>
  obtain ⟨unique, -, h⟩ := bind_ok.mp h
  split at h
  · cases h
  obtain ⟨⟨yesVotes, noVotes⟩, htotals, h⟩ := bind_ok.mp h
  cases h
  exact ⟨aggregate, unique, haggregate, htotals⟩

/-- Whatever is submitted, a result that comes out has the votes of the ballots. And one comes out of
honest shares of enough authorities. -/
theorem ceremony_exact (hG : addOrderOf G = BABYJUB_SUBORDER) (format : Format P) (election : EncryptedElection P)
    (hprepared : Prepared G election) (votes : List Bool)
    (hballots : List.Forall₂ (BallotFor G election.publicKey) votes election.ballots)
    (hsum : election.aggregate = some (sumOf election.ballots)) (approvals : List (Share P)) (now : Int) :
    (∀ result after, finalize G format election approvals now = .ok (result, after) →
      result.yesVotes = votes.count true ∧ result.noVotes = votes.count false) ∧
    (election.finalized = false → election.endTime < now → election.ballots.length < BABYJUB_SUBORDER →
      (∀ approval ∈ approvals, createApproval election approval.index = .ok approval) →
      election.threshold ≤ (approvals.map Share.index).dedup.length →
      ∃ result after, finalize G format election approvals now = .ok (result, after)) := by
  constructor
  · intro result after h
    obtain ⟨aggregate, unique, haggregate, htotals⟩ := finalize_ok h
    rw [hsum] at haggregate
    cases haggregate
    obtain ⟨combined, -, hyes, hno, hcounts⟩ := decryptTotals_ok.mp htotals
    obtain ⟨r, hvotes⟩ := sumOf_votes hballots
    rw [hvotes] at hyes hno
    rw [length_votes hballots] at hyes hno hcounts
    exact counts_exact hG hyes hno hcounts
  · intro hopen hclosed hrange hhonest henough
    obtain ⟨total, randoms, hshares⟩ := hprepared.shares
    have hthreshold := (createShares_ok hshares).1
    have hshape := fun approval happroval => createApproval_ok hsum hshares (hhonest approval happroval)
    -- The approvals are the shares for their indices.
    have happrovals : approvals = (approvals.map Share.index).map (shareOf (sumOf election.ballots).c1
        (evalShare (election.privateKey :: (List.range (election.threshold - 1)).map randoms))) := by
      rw [List.map_map]
      conv_lhs => rw [← List.map_id approvals]
      apply List.map_congr_left
      intro approval happroval
      exact (hshape approval happroval).1
    have hknown : ∀ i ∈ approvals.map Share.index, election.authorities.any (·.index = i) = true := by
      intro i hi
      obtain ⟨approval, happroval, rfl⟩ := List.mem_map.mp hi
      exact (hshape approval happroval).2.2
    have hcollect := collectApprovals_map (f := shareOf (sumOf election.ballots).c1
      (evalShare (election.privateKey :: (List.range (election.threshold - 1)).map randoms))) (fun _ => rfl)
      (approvals.map Share.index) hknown []
    obtain ⟨hnodup, hmem⟩ := foldl_setIndex (approvals.map Share.index) List.nodup_nil
    have hindices : ∀ j ∈ (approvals.map Share.index).foldl setIndex [], j ≤ 2 ^ 32 := by
      intro j hj
      rw [hmem] at hj
      obtain ⟨approval, happroval, rfl⟩ := List.mem_map.mp (hj.resolve_left (List.not_mem_nil))
      exact (hshape approval happroval).2.1
    rw [← length_unique] at henough
    have htotals := decryptTotals_honest hG hprepared.key randoms hthreshold hballots hrange hnodup hindices
      henough
    rw [← happrovals, List.map_nil] at hcollect
    unfold finalize
    rw [if_neg (by simp [hopen]), if_neg (by omega), hsum]
    simp only [hcollect, ok_bind]
    rw [if_neg (by simpa using henough)]
    simp only [htotals, ok_bind]
    exact ⟨_, _, rfl⟩

/-! ## A ceremony of two out of three -/

def sampleBallots : List (BallotCiphertext CurveModel) := [ballotOf 3 true, ballotOf 4 false, ballotOf 9 true]

/-- The shares lie on `5 + 11 x`. -/
def sampleElection : EncryptedElection CurveModel where
  electionId := "e"
  publicKey := 5 • base8
  privateKey := 5
  threshold := 2
  authorities := [⟨1, 16⟩, ⟨2, 27⟩, ⟨3, 38⟩]
  endTime := 1000
  createdAt := 1
  ballots := sampleBallots
  aggregate := some (sumOf sampleBallots)

def sampleApprovals : List (Share CurveModel) :=
  [⟨3, 38 • (sumOf sampleBallots).c1⟩, ⟨1, 16 • (sumOf sampleBallots).c1⟩]

def plainFormat : Format CurveModel where
  pointToHex := fun p => toString p.val
  transcriptHash := fun t => t.electionId

theorem addOrderOf_base8 : addOrderOf base8 = BABYJUB_SUBORDER := by
  unfold base8
  rw [show (8 : CurveModel) = ((8 : Nat) : CurveModel) from rfl, ZMod.addOrderOf_coe 8 (by decide)]
  decide

theorem ceremony_exact_two_of_three : ∃ result after,
    finalize base8 plainFormat sampleElection sampleApprovals 1001 = .ok (result, after) ∧
      result.yesVotes = 2 ∧ result.noVotes = 1 := by
  have hprepared : Prepared base8 sampleElection := ⟨rfl, 3, fun _ => 11, by decide +kernel⟩
  have hfirst : encryptBallot base8 (5 • base8) true 3 = .ok (ballotOf 3 true) := by decide +kernel
  have hsecond : encryptBallot base8 (5 • base8) false 4 = .ok (ballotOf 4 false) := by decide +kernel
  have hthird : encryptBallot base8 (5 • base8) true 9 = .ok (ballotOf 9 true) := by decide +kernel
  have hballots : List.Forall₂ (BallotFor base8 sampleElection.publicKey) [true, false, true] sampleElection.ballots :=
    .cons (ballotFor_encryptBallot hfirst)
      (.cons (ballotFor_encryptBallot hsecond) (.cons (ballotFor_encryptBallot hthird) .nil))
  obtain ⟨hsound, hcomplete⟩ := ceremony_exact addOrderOf_base8 plainFormat sampleElection hprepared
    [true, false, true] hballots rfl sampleApprovals 1001
  obtain ⟨result, after, h⟩ := hcomplete rfl (by decide) (by decide) (by decide +kernel) (by decide +kernel)
  exact ⟨result, after, h, hsound result after h⟩

end ZkVote.EncryptedTally

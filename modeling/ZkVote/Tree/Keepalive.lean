import ZkVote.Sbt.Contract
import ZkVote.Tree.Steps

/-!
# The membership tree: keepalive

The sweep walks the leaves of a DAO page by page, and beside them the list of members that
the SBT contract keeps. A page asks for `end - start` members, which is an unsigned difference.
-/

open Lib Lib.Outcome
open ZkVote.Sbt (MembershipSbt)

namespace ZkVote.Tree

def SWEEP_MAX_RECORDS : Nat := 50

/-- `DataKey`, of which the keys that the sweep touches. -/
inductive DataKey where
  | LeafIndex (dao_id : Nat) (commitment : U256)
  | MemberLeafIndex (dao_id : Nat) (member : Address)
  | NextLeafIndex (dao_id : Nat)
  | TreeDepth (dao_id : Nat)
  | Roots (dao_id : Nat)
  | LeafValue (dao_id index : Nat)
  | NextRootIndex (dao_id : Nat)
  | RootIndex (dao_id : Nat) (root : U256)
  | MinValidRootIdx (dao_id : Nat)
  | CommitmentUsed (dao_id : Nat) (commitment : U256)
  | MaxRoots (dao_id : Nat)
  | LastRegistrationAt (dao_id : Nat) (member : Address)
  deriving DecidableEq

/-- The key of an entry, if it is there. -/
def present (entry : Bool) (key : DataKey) : List DataKey := if entry then [key] else []

/-- The records that every page extends: the small fixed set, and the root history. -/
def structural_keys (d : DaoTree) (dao_id : Nat) : List DataKey :=
  present d.tree_depth.isSome (.TreeDepth dao_id) ++ present d.next_leaf_index.isSome (.NextLeafIndex dao_id) ++
    present d.next_root_index.isSome (.NextRootIndex dao_id) ++ present d.roots.isSome (.Roots dao_id) ++
    present d.max_roots.isSome (.MaxRoots dao_id) ++
    present d.min_valid_root_idx.isSome (.MinValidRootIdx dao_id) ++
    (d.roots.getD []).flatMap fun root => present (d.root_index root).isSome (.RootIndex dao_id root)

def leaf_keys (d : DaoTree) (dao_id i : Nat) : List DataKey :=
  match d.leaf_value i with
  | some commitment =>
    .LeafValue dao_id i :: (present (d.commitment_used commitment) (.CommitmentUsed dao_id commitment) ++
      present (d.leaf_index commitment).isSome (.LeafIndex dao_id commitment))
  | none => []

def member_keys (d : DaoTree) (dao_id : Nat) (member : Address) : List DataKey :=
  present (d.member_leaf_index member).isSome (.MemberLeafIndex dao_id member) ++
    present (d.last_registration_at member).isSome (.LastRegistrationAt dao_id member)

/-- One round of the loop: leaf `i`, and the member at the same place of the window. -/
def sweep_round (d : DaoTree) (dao_id : Nat) (members : List Address) (start i : Nat) : List DataKey :=
  leaf_keys d dao_id i ++
    match members[i - start]? with
    | some member => member_keys d dao_id member
    | none => []

/-- The leaves it has gone through, and the keys whose TTL it extends. -/
def sweep_dao (t : MembershipTree) (sbt : MembershipSbt) (dao_id start limit : Nat) :
    Outcome TreeError (Nat × List DataKey) := do
  let limit := pageSize SWEEP_MAX_RECORDS limit
  let d := t.daos dao_id
  let next_leaf := d.next_leaf_index.getD 0
  let end_ := min next_leaf (saturatingAdd 64 start limit)
  -- `end - start` traps below zero.
  trapUnless (start ≤ end_)
  let members ← expect (Sbt.get_members sbt dao_id start (end_ - start)).toOption
  let window := List.range' start (end_ - start)
  return (window.length, structural_keys d dao_id ++ window.flatMap (sweep_round d dao_id members start))

/-- The caller's loop, with the keys of all its pages. -/
def SweptFrom (t : MembershipTree) (sbt : MembershipSbt) (dao_id limit start : Nat) (keys : List DataKey) : Prop :=
  Swept 64 (fun cursor => sweep_dao t sbt dao_id cursor limit) (pageSize SWEEP_MAX_RECORDS limit) start keys

/-- The loop ends, and has extended the leaf index of every registered member. -/
def KeptAlive (t : MembershipTree) (sbt : MembershipSbt) (dao_id limit : Nat) : Prop :=
  ∃ keys, SweptFrom t sbt dao_id limit 0 keys ∧
    ∀ member, ((t.daos dao_id).member_leaf_index member).isSome = true → .MemberLeafIndex dao_id member ∈ keys

/-- A place of the list of members, below a bound. -/
def ListedBelow (sbt : MembershipSbt) (dao_id bound : Nat) (member : Address) : Prop :=
  ∃ i, i < bound ∧ i < Sbt.get_member_count sbt dao_id ∧ Sbt.get_member_at_index sbt dao_id i = some member

section
variable {t : MembershipTree} {sbt : MembershipSbt} {d : DaoTree} {dao_id start limit count : Nat} {keys : List DataKey}
  {k : DataKey} {members : List Address} {member : Address}

/-! ## Pages -/

theorem get_members_ok {offset n : Nat} (h : Sbt.get_members sbt dao_id offset n = .ok members) :
    members.length ≤ n ∧ ∀ member, member ∈ members ↔ ∃ i, offset ≤ i ∧
      i < min (offset + n) (Sbt.get_member_count sbt dao_id) ∧ Sbt.get_member_at_index sbt dao_id i = some member := by
  simp [Sbt.get_members] at h
  obtain ⟨-, rfl⟩ := h
  constructor
  · refine le_trans (List.length_filterMap_le _ _) ?_
    rw [List.length_range']
    omega
  · intro member
    simp only [List.mem_filterMap, List.mem_range'_1]
    refine exists_congr fun i => ?_
    rw [← and_assoc]
    refine and_congr_left fun _ => ?_
    omega

/-- A page answers up to the last leaf, with a window of leaves and the members at the same places of the list. -/
theorem sweep_dao_ok (hfits : (t.daos dao_id).next_leaf_index.getD 0 < 2 ^ 32)
    (h : sweep_dao t sbt dao_id start limit = .ok (count, keys)) :
    start + count = min ((t.daos dao_id).next_leaf_index.getD 0) (start + pageSize SWEEP_MAX_RECORDS limit) ∧
      ∀ k, k ∈ keys ↔ k ∈ structural_keys (t.daos dao_id) dao_id ∨ ∃ i, start ≤ i ∧ i < start + count ∧
        (k ∈ leaf_keys (t.daos dao_id) dao_id i ∨ ∃ member, i < Sbt.get_member_count sbt dao_id ∧
          Sbt.get_member_at_index sbt dao_id i = some member ∧ k ∈ member_keys (t.daos dao_id) dao_id member) := by
  simp only [sweep_dao, bind_eq_ok, trapUnless_eq_ok, expect_eq_ok, toOption_eq_some, pure_eq_ok, Prod.mk.injEq] at h
  obtain ⟨-, hle, members, hmembers, rfl, rfl⟩ := h
  obtain ⟨hlength, hmem⟩ := get_members_ok hmembers
  have hend : min ((t.daos dao_id).next_leaf_index.getD 0)
      (saturatingAdd 64 start (pageSize SWEEP_MAX_RECORDS limit)) =
      min ((t.daos dao_id).next_leaf_index.getD 0) (start + pageSize SWEEP_MAX_RECORDS limit) := by
    unfold saturatingAdd
    omega
  rw [hend] at hle hlength hmem ⊢
  rw [List.length_range']
  refine ⟨by omega, fun k => ?_⟩
  rw [List.mem_append, List.mem_flatMap]
  refine or_congr_right ⟨?_, ?_⟩
  · rintro ⟨i, hi, hk⟩
    rw [List.mem_range'_1] at hi
    rcases List.mem_append.mp hk with hk | hk
    · exact ⟨i, hi.1, hi.2, .inl hk⟩
    · split at hk
      · next member hmember =>
        obtain ⟨j, hj, hjlt, hat⟩ := (hmem member).mp (List.mem_of_getElem? hmember)
        exact ⟨j, hj, by omega, .inr ⟨member, by omega, hat, hk⟩⟩
      · exact absurd hk List.not_mem_nil
  · rintro ⟨i, hi, hilt, hk | ⟨member, hcount, hat, hk⟩⟩
    · exact ⟨i, List.mem_range'_1.mpr ⟨hi, hilt⟩, List.mem_append.mpr (.inl hk)⟩
    · -- The members of a window may be fewer than its leaves, but never more.
      obtain ⟨j, hj, hmember⟩ := List.mem_iff_getElem.mp ((hmem member).mpr ⟨i, hi, by omega, hat⟩)
      refine ⟨start + j, List.mem_range'_1.mpr ⟨by omega, by omega⟩, List.mem_append.mpr (.inr ?_)⟩
      rw [show start + j - start = j by omega, List.getElem?_eq_getElem hj, hmember]
      exact hk

/-- A page past the last leaf traps. -/
theorem exists_page_iff (hfits : (t.daos dao_id).next_leaf_index.getD 0 < 2 ^ 32) :
    (∃ count keys, sweep_dao t sbt dao_id start limit = .ok (count, keys)) ↔
      start ≤ (t.daos dao_id).next_leaf_index.getD 0 := by
  constructor
  · rintro ⟨count, keys, h⟩
    have hcount := (sweep_dao_ok hfits h).1
    omega
  · intro hle
    have hend : start ≤ min ((t.daos dao_id).next_leaf_index.getD 0)
        (saturatingAdd 64 start (pageSize SWEEP_MAX_RECORDS limit)) := by
      unfold saturatingAdd
      omega
    have hroom : start + (min ((t.daos dao_id).next_leaf_index.getD 0)
        (saturatingAdd 64 start (pageSize SWEEP_MAX_RECORDS limit)) - start) < 2 ^ 64 := by
      omega
    simp only [sweep_dao, Sbt.get_members, checkedAdd, if_pos hroom, expect, ok_bind, trapUnless, if_pos hend]
    exact ⟨_, _, rfl⟩

theorem page_traps (h : (t.daos dao_id).next_leaf_index.getD 0 < start) :
    sweep_dao t sbt dao_id start limit = trap := by
  have hnot : ¬ start ≤ min ((t.daos dao_id).next_leaf_index.getD 0)
      (saturatingAdd 64 start (pageSize SWEEP_MAX_RECORDS limit)) := by
    omega
  simp only [sweep_dao, trapUnless, if_neg hnot]
  rfl

/-- What a place of the two lists has a page extend. -/
def PlaceHolds (t : MembershipTree) (sbt : MembershipSbt) (dao_id i : Nat) (k : DataKey) : Prop :=
  k ∈ leaf_keys (t.daos dao_id) dao_id i ∨ ∃ member, i < Sbt.get_member_count sbt dao_id ∧
    Sbt.get_member_at_index sbt dao_id i = some member ∧ k ∈ member_keys (t.daos dao_id) dao_id member

theorem windows (hfits : (t.daos dao_id).next_leaf_index.getD 0 < 2 ^ 32) :
    Windows (fun cursor => sweep_dao t sbt dao_id cursor limit) (pageSize SWEEP_MAX_RECORDS limit)
      ((t.daos dao_id).next_leaf_index.getD 0) (fun k => k ∈ structural_keys (t.daos dao_id) dao_id)
      (PlaceHolds t sbt dao_id) := by
  intro start count keys hpage k
  obtain ⟨hcount, hkeys⟩ := sweep_dao_ok hfits hpage
  rw [hkeys, hcount]
  rfl

/-- The loop comes to a page past the last leaf, unless the last page is full. -/
theorem Swept.dvd {cursor : Nat} (hfits : (t.daos dao_id).next_leaf_index.getD 0 < 2 ^ 32)
    (h : SweptFrom t sbt dao_id limit cursor keys) (hcursor : pageSize SWEEP_MAX_RECORDS limit ∣ cursor) :
    pageSize SWEEP_MAX_RECORDS limit ∣ (t.daos dao_id).next_leaf_index.getD 0 := by
  have hsize : 0 < pageSize SWEEP_MAX_RECORDS limit := pageSize_pos (by decide)
  induction h with
  | @last start keys hpage =>
    have hcount := (sweep_dao_ok hfits hpage).1
    have hle := (exists_page_iff hfits).mp ⟨_, _, hpage⟩
    rwa [show (t.daos dao_id).next_leaf_index.getD 0 = start by omega]
  | next hpage _ hnext _ ih =>
    rw [checkedAdd_eq_some] at hnext
    refine ih ?_
    rw [← hnext.2]
    exact Nat.dvd_add hcursor (Nat.dvd_refl _)

theorem exists_swept_of_dvd (hfits : (t.daos dao_id).next_leaf_index.getD 0 < 2 ^ 32)
    (hdvd : pageSize SWEEP_MAX_RECORDS limit ∣ (t.daos dao_id).next_leaf_index.getD 0) :
    ∃ keys, SweptFrom t sbt dao_id limit 0 keys := by
  have hsize : pageSize SWEEP_MAX_RECORDS limit ≤ SWEEP_MAX_RECORDS := pageSize_le
  have hmax : SWEEP_MAX_RECORDS = 50 := rfl
  have hroom : (t.daos dao_id).next_leaf_index.getD 0 + pageSize SWEEP_MAX_RECORDS limit ≤ 2 ^ 64 := by omega
  refine exists_swept
    (fun cursor => cursor ≤ (t.daos dao_id).next_leaf_index.getD 0 ∧ pageSize SWEEP_MAX_RECORDS limit ∣ cursor)
    (pageSize_pos (by decide)) hroom ?_ 0 ⟨Nat.zero_le _, dvd_zero _⟩
  rintro cursor ⟨hle, hcursor⟩
  obtain ⟨count, keys, hpage⟩ : ∃ count keys, sweep_dao t sbt dao_id cursor limit = .ok (count, keys) :=
    (exists_page_iff hfits).mpr hle
  refine ⟨count, keys, hpage, fun hcount => ?_⟩
  have hlt : cursor < (t.daos dao_id).next_leaf_index.getD 0 := by
    have := (sweep_dao_ok hfits hpage).1
    omega
  have hpage : pageSize SWEEP_MAX_RECORDS limit ≤ (t.daos dao_id).next_leaf_index.getD 0 - cursor :=
    Nat.le_of_dvd (by omega) (Nat.dvd_sub hdvd hcursor)
  exact ⟨hlt, by omega, Nat.dvd_add hcursor (Nat.dvd_refl _)⟩

/-- The keys of all pages together. -/
theorem SweptFrom.mem_iff (hfits : (t.daos dao_id).next_leaf_index.getD 0 < 2 ^ 32)
    (h : SweptFrom t sbt dao_id limit 0 keys) : k ∈ keys ↔ k ∈ structural_keys (t.daos dao_id) dao_id ∨
      ∃ i, i < (t.daos dao_id).next_leaf_index.getD 0 ∧ PlaceHolds t sbt dao_id i k := by
  have hsize : 0 < pageSize SWEEP_MAX_RECORDS limit := pageSize_pos (by decide)
  rw [Swept.mem_iff h (windows hfits)]
  · simp only [Nat.zero_le, true_and]
  · intro next touched _ hpage i k hi hlt
    have hcount := (sweep_dao_ok hfits hpage).1
    have hle := (exists_page_iff hfits).mp ⟨_, _, hpage⟩
    omega

theorem mem_present {entry : Bool} {key : DataKey} : k ∈ present entry key ↔ entry = true ∧ k = key := by
  cases entry <;> simp [present]

/-- A member's leaf index is extended through the list of members alone. -/
theorem placeHolds_member_iff {i : Nat} : PlaceHolds t sbt dao_id i (.MemberLeafIndex dao_id member) ↔
    ((t.daos dao_id).member_leaf_index member).isSome = true ∧ i < Sbt.get_member_count sbt dao_id ∧
      Sbt.get_member_at_index sbt dao_id i = some member := by
  have hleaf : .MemberLeafIndex dao_id member ∉ leaf_keys (t.daos dao_id) dao_id i := by
    unfold leaf_keys
    split <;> simp [mem_present]
  simp only [PlaceHolds, hleaf, false_or, member_keys, List.mem_append, mem_present, DataKey.MemberLeafIndex.injEq,
    true_and, reduceCtorEq, and_false, or_false]
  constructor
  · rintro ⟨member', hcount, hat, hsome, rfl⟩
    exact ⟨hsome, hcount, hat⟩
  · rintro ⟨hsome, hcount, hat⟩
    exact ⟨member, hcount, hat, hsome, rfl⟩

theorem member_notMem_structural : .MemberLeafIndex dao_id member ∉ structural_keys d dao_id := by
  simp [structural_keys, mem_present]

theorem keptAlive_iff (hfits : (t.daos dao_id).next_leaf_index.getD 0 < 2 ^ 32) : KeptAlive t sbt dao_id limit ↔
    pageSize SWEEP_MAX_RECORDS limit ∣ (t.daos dao_id).next_leaf_index.getD 0 ∧
      ∀ member, ((t.daos dao_id).member_leaf_index member).isSome = true →
        ListedBelow sbt dao_id ((t.daos dao_id).next_leaf_index.getD 0) member := by
  have hcovered : ∀ keys, SweptFrom t sbt dao_id limit 0 keys → ∀ member,
      ((t.daos dao_id).member_leaf_index member).isSome = true →
      (.MemberLeafIndex dao_id member ∈ keys ↔
        ListedBelow sbt dao_id ((t.daos dao_id).next_leaf_index.getD 0) member) := by
    intro keys hkeys member hsome
    rw [hkeys.mem_iff hfits, or_iff_right member_notMem_structural]
    refine exists_congr fun i => and_congr_right fun _ => ?_
    rw [placeHolds_member_iff, and_iff_right hsome]
  constructor
  · rintro ⟨keys, hkeys, hall⟩
    refine ⟨Swept.dvd hfits hkeys (Nat.dvd_zero _), fun member hsome => ?_⟩
    exact (hcovered keys hkeys member hsome).mp (hall member hsome)
  · rintro ⟨hdvd, hall⟩
    obtain ⟨keys, hkeys⟩ : ∃ keys, SweptFrom t sbt dao_id limit 0 keys := exists_swept_of_dvd hfits hdvd
    exact ⟨keys, hkeys, fun member hsome => (hcovered keys hkeys member hsome).mpr (hall member hsome)⟩

end

/-! ## Reachable trees -/

section
variable {H : Hashes} {t : MembershipTree} {registry : Address} {log : List (MembershipTree × TreeEnv × Call)}

theorem Represents.leaves_fit {d : DaoTree} {m : Members} (h : Represents H d m) : d.next_leaf_index.getD 0 < 2 ^ 32 := by
  have hle : m.size ≤ 2 ^ MAX_TREE_DEPTH := le_trans m.size_le (Nat.pow_le_pow_right (by decide) m.depth_le)
  have hmax : (2 : Nat) ^ MAX_TREE_DEPTH < 2 ^ 32 := by decide
  rw [h.next_leaf_index, Option.getD_some]
  omega

theorem TreeRun.leaves_fit (hrun : TreeRun H registry log t) (dao_id : Nat) :
    (t.daos dao_id).next_leaf_index.getD 0 < 2 ^ 32 := by
  refine Run.invariant_log (P := fun _ t => (t.daos dao_id).next_leaf_index.getD 0 < 2 ^ 32)
    (show 0 < 2 ^ 32 by decide)
    (fun log t call t' hr h hs => ?_) hrun
  cases (step_ok (TreeRun.ok hr) hs).daos dao_id with
  | keep same => rwa [same.next_leaf_index]
  | init m hi => exact hi.after.leaves_fit
  | register m commitment member room k _ _ hr => exact hr.after.leaves_fit
  | remove m member index hlt k _ _ hr => exact hr.after.leaves_fit

/-- The loop keeps the registered members alive when the last page is full, and the list of members names each of
them before it comes to as many members as there are leaves. -/
theorem members_kept_alive_iff (hrun : TreeRun H registry log t) (sbt : MembershipSbt) (dao_id limit : Nat) :
    KeptAlive t sbt dao_id limit ↔
      pageSize SWEEP_MAX_RECORDS limit ∣ (t.daos dao_id).next_leaf_index.getD 0 ∧
        ∀ member, ((t.daos dao_id).member_leaf_index member).isSome = true →
          ListedBelow sbt dao_id ((t.daos dao_id).next_leaf_index.getD 0) member :=
  keptAlive_iff (TreeRun.leaves_fit hrun dao_id)

end

/-! ## One member -/

/-- DAO 0, of whose tree account 1 has the only leaf. -/
def oneMember : List Call := [.init_tree 0 2 "BN254" 0, .register_from_registry 0 7 1]

def oneToken : List Sbt.Call := [.mint_from_registry 0 1]

theorem members_kept_alive_iff_for_one : ∃ log t log' sbt, TreeRun sampleHashes 0 log t ∧ Sbt.SbtRun 0 log' sbt ∧
    (KeptAlive t sbt 0 1 ↔ pageSize SWEEP_MAX_RECORDS 1 ∣ (t.daos 0).next_leaf_index.getD 0 ∧
      ∀ member, ((t.daos 0).member_leaf_index member).isSome = true →
        ListedBelow sbt 0 ((t.daos 0).next_leaf_index.getD 0) member) ∧
    ((t.daos 0).member_leaf_index 1).isSome = true := by
  obtain ⟨log, t, hrun, htest⟩ := exists_run (H := sampleHashes) (r := 0) oneMember
    (fun _ t => ((t.daos 0).member_leaf_index 1).isSome) (by decide +kernel)
  obtain ⟨log', sbt, hsbt, -⟩ := Sbt.exists_run (r := 0) oneToken (fun _ _ => true) (by decide +kernel)
  exact ⟨log, t, log', sbt, hrun, hsbt, members_kept_alive_iff hrun sbt 0 1, htest⟩

theorem second_page_traps : ∃ log t log' sbt, TreeRun sampleHashes 0 log t ∧ Sbt.SbtRun 0 log' sbt ∧
    ((t.daos 0).member_leaf_index 1).isSome = true ∧ Sbt.get_members sbt 0 0 1 = .ok [1] ∧
    (∃ keys, sweep_dao t sbt 0 0 0 = .ok (1, keys)) ∧ sweep_dao t sbt 0 50 0 = trap ∧ ¬ KeptAlive t sbt 0 0 := by
  obtain ⟨log, t, hrun, htest⟩ := exists_run (H := sampleHashes) (r := 0) oneMember
    (fun _ t => decide ((t.daos 0).next_leaf_index = some 1 ∧ ((t.daos 0).member_leaf_index 1).isSome = true))
    (by decide +kernel)
  obtain ⟨log', sbt, hsbt, hlisted⟩ := Sbt.exists_run (r := 0) oneToken
    (fun _ sbt => decide ((Sbt.get_members sbt 0 0 1).toOption = some [1])) (by decide +kernel)
  obtain ⟨hleaves, hmember⟩ := of_decide_eq_true htest
  have hfits := TreeRun.leaves_fit hrun 0
  refine ⟨log, t, log', sbt, hrun, hsbt, hmember, toOption_eq_some.mp (of_decide_eq_true hlisted), ?_, ?_, ?_⟩
  · obtain ⟨count, keys, hpage⟩ : ∃ count keys, sweep_dao t sbt 0 0 0 = .ok (count, keys) :=
      (exists_page_iff hfits).mpr (Nat.zero_le _)
    have hcount := (sweep_dao_ok hfits hpage).1
    rw [hleaves] at hcount
    obtain rfl : count = 1 := by
      rw [← Nat.zero_add count, hcount]
      decide
    exact ⟨keys, hpage⟩
  · refine page_traps ?_
    rw [hleaves]
    decide
  · intro hkept
    have hdvd := ((keptAlive_iff hfits).mp hkept).1
    rw [hleaves] at hdvd
    exact absurd hdvd (by decide)

end ZkVote.Tree

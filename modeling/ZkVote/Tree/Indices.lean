import ZkVote.Tree.Revocation

/-!
# The membership tree: the indices of the roots

Every root that a DAO gets is given an index. The empty root has index 0, and the
counter that numbers the others starts at 0 as well.
-/

open Lib Lib.Outcome

namespace ZkVote.Tree

/-- The current root and its index. -/
def currentEntry (d : DaoTree) : Option (U256 × Nat) := do
  let roots ← d.roots
  let root ← roots.getLast?
  let root_index ← d.root_index root
  return (root, root_index)

/-- The call initialises the tree of the DAO, registers a member in it or removes one. -/
def Publishes (dao_id : Nat) (t : MembershipTree) (call : Call) (t' : MembershipTree) : Prop :=
  ((t.daos dao_id).tree_depth = none ∧ (t'.daos dao_id).tree_depth ≠ none) ∨
    call.registers.map Prod.fst = some dao_id ∨ call.removes.map Prod.fst = some dao_id

instance (dao_id : Nat) (t : MembershipTree) (call : Call) (t' : MembershipTree) :
    Decidable (Publishes dao_id t call t') := inferInstanceAs (Decidable (_ ∨ _ ∨ _))

/-- The roots a DAO was given and the index of each, the last one first. -/
def assigned (dao_id : Nat) (log : List (MembershipTree × TreeEnv × Call)) (t : MembershipTree) :
    List (U256 × Nat) :=
  (Run.transitions log t).filterMap fun s =>
    if Publishes dao_id s.1 s.2.1.2 s.2.2 then currentEntry (s.2.2.daos dao_id) else none

/-- Each index is above the ones before it, and the current root has the last of them. -/
structure IndexMonotone (dao_id : Nat) (log : List (MembershipTree × TreeEnv × Call)) (t : MembershipTree) :
    Prop where
  increasing : ((assigned dao_id log t).map Prod.snd).Pairwise (· > ·)
  distinct : ∀ p ∈ assigned dao_id log t, ∀ q ∈ assigned dao_id log t, p.2 = q.2 → p.1 = q.1
  current : (t.daos dao_id).tree_depth ≠ none → ∃ k, curr_idx t dao_id = .ok k ∧
    k ∈ (assigned dao_id log t).map Prod.snd ∧ ∀ j ∈ (assigned dao_id log t).map Prod.snd, j ≤ k

section
variable {H : Hashes} {registry : Address} {dao_id n : Nat} {d d' : DaoTree} {t t' : MembershipTree}
  {log : List (MembershipTree × TreeEnv × Call)} {call : Call} {env : TreeEnv} {entries : List (U256 × Nat)}

/-! ## The current root -/

theorem currentEntry_eq {root : U256} {k : Nat} (hroots : ∃ roots, d.roots = some (roots ++ [root]))
    (hindex : d.root_index root = some k) : currentEntry d = some (root, k) := by
  obtain ⟨roots, hroots⟩ := hroots
  simp [currentEntry, hroots, hindex]

theorem curr_idx_eq {root : U256} {k : Nat} (h : currentEntry (t.daos dao_id) = some (root, k)) :
    curr_idx t dao_id = .ok k := by
  simp only [currentEntry, Option.bind_eq_bind, Option.bind_eq_some_iff, Option.pure_def, Option.some.injEq,
    Prod.mk.injEq] at h
  obtain ⟨roots, hroots, last, hlast, index, hindex, rfl, rfl⟩ := h
  rw [List.getLast?_eq_getElem?] at hlast
  simp [curr_idx, current_root, root_idx, hroots, hlast, hindex, orPanic]

theorem Published.currentEntry {root : U256} {k : Nat} {m : Members} (hp : Published d d' root k)
    (hd : Represents H d m) : currentEntry d' = some (root, k) := by
  refine currentEntry_eq (hp.roots_eq hd) ?_
  obtain ⟨roots, -, -, hindex⟩ := hp.roots
  rw [hindex, Function.update_self]

/-! ## The indices of a run -/

/-- After the empty root come `n` others, with the indices from 0 on. -/
structure Numbered (d : DaoTree) (entries : List (U256 × Nat)) (n : Nat) : Prop where
  next : d.next_root_index = some n
  indices : entries.map Prod.snd = (List.range n).reverse ++ [0]
  current : ∃ root, currentEntry d = some (root, n - 1)
  unused : n = 0 ↔ d.next_leaf_index = some 0

theorem Numbered.of_same (h : Numbered d entries n) (same : SameTree d d') : Numbered d' entries n where
  next := same.next_root_index ▸ h.next
  indices := h.indices
  current := by
    unfold Tree.currentEntry
    rw [same.roots, same.root_index]
    exact h.current
  unused := same.next_leaf_index ▸ h.unused

theorem Initialised.numbered {m : Members} (h : Initialised H d d' m) {root : U256} {k : Nat}
    (hcurrent : currentEntry d' = some (root, k)) : Numbered d' [(root, k)] 0 := by
  have hentry : currentEntry d' = some (m.root H, 0) :=
    currentEntry_eq ⟨[], h.roots⟩ (by rw [h.root_index, Function.update_self])
  rw [hentry] at hcurrent
  cases hcurrent
  refine ⟨h.next_root_index, rfl, ⟨_, hentry⟩, ?_⟩
  simp [h.after.next_leaf_index, h.size_eq]

theorem Numbered.publish {root : U256} {k size : Nat} {m : Members} (h : Numbered d entries n)
    (hd : Represents H d m) (hp : Published d d' root k) (hsize : d'.next_leaf_index = some size) (hpos : 0 < size) :
    currentEntry d' = some (root, k) ∧ Numbered d' ((root, k) :: entries) (n + 1) := by
  have hk : k = n := by rw [hp.index_eq, h.next, Option.getD_some]
  have hentry := hp.currentEntry hd
  refine ⟨hentry, ⟨hk ▸ hp.next_root_index, ?_, ⟨root, ?_⟩, ?_⟩⟩
  · rw [List.map_cons, h.indices, List.range_succ, List.reverse_append, hk]
    rfl
  · rw [hentry, hk, Nat.add_sub_cancel]
  · rw [hsize, Option.some.injEq]
    omega

theorem assigned_cons {p : U256 × Nat} (hpublishes : Publishes dao_id t call t')
    (hentry : currentEntry (t'.daos dao_id) = some p) :
    assigned dao_id ((t, env, call) :: log) t' = p :: assigned dao_id log t := by
  unfold assigned
  rw [Run.transitions, List.filterMap_cons_some]
  rw [if_pos hpublishes, hentry]

theorem assigned_cons_of_not (hpublishes : ¬ Publishes dao_id t call t') :
    assigned dao_id ((t, env, call) :: log) t' = assigned dao_id log t := by
  unfold assigned
  rw [Run.transitions, List.filterMap_cons_none]
  rw [if_neg hpublishes]

theorem SameTree.not_publishes (same : SameTree (t.daos dao_id) (t'.daos dao_id))
    (hregisters : ∀ c a, call.registers ≠ some (dao_id, c, a)) (hremoves : ∀ a, call.removes ≠ some (dao_id, a)) :
    ¬ Publishes dao_id t call t' := by
  rintro (⟨hnone, hsome⟩ | hcall | hcall)
  · rw [same.tree_depth] at hsome
    exact hsome hnone
  · obtain ⟨⟨d, c, a⟩, hcall, hd⟩ := Option.map_eq_some_iff.mp hcall
    exact hregisters c a (hcall.trans (congrArg some (Prod.ext hd rfl)))
  · obtain ⟨⟨d, a⟩, hcall, hd⟩ := Option.map_eq_some_iff.mp hcall
    exact hremoves a (hcall.trans (congrArg some (Prod.ext hd rfl)))

/-- The counter has moved if and only if a member has been registered. -/
structure Counted (d : DaoTree) (entries : List (U256 × Nat)) (regs : List (U256 × Option Nat)) (n : Nat) :
    Prop where
  numbered : Numbered d entries n
  registered : regs = [] ↔ n = 0

/-- The tree of the DAO has no root yet, or `n` roots after the empty one. -/
def Counts (d : DaoTree) (entries : List (U256 × Nat)) (regs : List (U256 × Option Nat)) : Prop :=
  (d.tree_depth = none ∧ entries = [] ∧ regs = []) ∨ ∃ n, Counted d entries regs n

theorem Counts.counted {m : Members} {regs : List (U256 × Option Nat)} (h : Counts d entries regs)
    (hd : Represents H d m) : ∃ n, Counted d entries regs n := by
  rcases h with ⟨hnone, -⟩ | h
  · rw [hd.tree_depth] at hnone
    cases hnone
  · exact h

theorem DaoStep.counts (hstep : DaoStep H call dao_id (t.daos dao_id) (t'.daos dao_id))
    (h : Counts (t.daos dao_id) (assigned dao_id log t) (registrations dao_id log)) :
    Counts (t'.daos dao_id) (assigned dao_id ((t, env, call) :: log) t')
      (registrations dao_id ((t, env, call) :: log)) := by
  cases hstep with
  | keep same hregisters hremoves =>
    rw [assigned_cons_of_not (same.not_publishes hregisters hremoves), registrations_cons_of_ne hregisters]
    rcases h with ⟨hnone, hempty⟩ | ⟨n, hcounted⟩
    · exact .inl ⟨same.tree_depth.trans hnone, hempty⟩
    · exact .inr ⟨n, hcounted.numbered.of_same same, hcounted.registered⟩
  | init m hi hregisters hremoves =>
    have hdepth : (t'.daos dao_id).tree_depth ≠ none := by simp [hi.after.tree_depth]
    have hentry : currentEntry (t'.daos dao_id) = some (m.root H, 0) :=
      currentEntry_eq ⟨[], hi.roots⟩ (by rw [hi.root_index, Function.update_self])
    rw [assigned_cons (.inl ⟨hi.before.tree_depth, hdepth⟩) hentry, registrations_cons_of_ne hregisters]
    rcases h with ⟨-, hentries, hregs⟩ | ⟨n, hcounted⟩
    · rw [hentries, hregs]
      exact .inr ⟨0, hi.numbered hentry, by simp⟩
    · obtain ⟨root, hcurrent⟩ := hcounted.numbered.current
      simp [currentEntry, hi.before.roots] at hcurrent
  | register m commitment member room k hcall hremoves hr =>
    obtain ⟨n, hcounted⟩ := h.counted hr.before
    obtain ⟨hentry, hnumbered⟩ := hcounted.numbered.publish hr.before hr.published hr.after.next_leaf_index
      (Nat.succ_pos m.size)
    have hpublishes : Publishes dao_id t call t' := .inr (.inl (by rw [hcall]; rfl))
    rw [assigned_cons hpublishes hentry, registrations_cons_of_registers hcall]
    exact .inr ⟨n + 1, hnumbered, by simp⟩
  | remove m member index hlt k hcall hregisters hr =>
    obtain ⟨n, hcounted⟩ := h.counted hr.before
    have hpos : 0 < m.size := Nat.zero_lt_of_lt hlt
    obtain ⟨hentry, hnumbered⟩ := hcounted.numbered.publish hr.before hr.published hr.after.next_leaf_index hpos
    have hpublishes : Publishes dao_id t call t' := .inr (.inr (by rw [hcall]; rfl))
    rw [assigned_cons hpublishes hentry, registrations_cons_of_ne hregisters]
    -- a member was registered before it is removed
    have hn : n ≠ 0 := by
      intro hzero
      have hnone := hcounted.numbered.unused.mp hzero
      rw [hr.before.next_leaf_index, Option.some.injEq] at hnone
      omega
    refine .inr ⟨n + 1, hnumbered, ?_⟩
    rw [hcounted.registered]
    omega

theorem TreeRun.counts (hrun : TreeRun H registry log t) (dao_id : Nat) :
    Counts (t.daos dao_id) (assigned dao_id log t) (registrations dao_id log) :=
  Run.invariant_log
    (P := fun log t => Counts (t.daos dao_id) (assigned dao_id log t) (registrations dao_id log))
    (.inl ⟨rfl, rfl, rfl⟩) (fun _ _ _ _ hr h hs => ((step_ok (TreeRun.ok hr) hs).daos dao_id).counts h) hrun

/-! ## The first member -/

theorem Counted.indexMonotone_iff {regs : List (U256 × Option Nat)}
    (h : Counted (t.daos dao_id) (assigned dao_id log t) regs n) : IndexMonotone dao_id log t ↔ n = 0 := by
  have hindices := h.numbered.indices
  constructor
  · intro hmonotone
    have hincreasing := hmonotone.increasing
    rw [hindices, List.pairwise_append] at hincreasing
    by_contra hn
    have hzero : 0 ∈ (List.range n).reverse := by
      rw [List.mem_reverse, List.mem_range]
      omega
    exact absurd (hincreasing.2.2 0 hzero 0 (List.mem_singleton_self 0)) (lt_irrefl 0)
  · rintro rfl
    obtain ⟨root, hcurrent⟩ := h.numbered.current
    have hone : (assigned dao_id log t).map Prod.snd = [0] := hindices
    obtain ⟨p, hp, -⟩ := List.map_eq_singleton_iff.mp hone
    refine ⟨?_, ?_, fun _ => ⟨0, curr_idx_eq hcurrent, ?_⟩⟩
    · rw [hone]
      exact List.pairwise_singleton _ 0
    · rw [hp]
      simp
    · rw [hone]
      simp

/-- In every run and for every DAO, the indices of the roots increase strictly, no two roots share one and the
current root has the largest, if and only if no member has been registered in the DAO. -/
theorem index_monotone_iff (hrun : TreeRun H registry log t) (dao_id : Nat) :
    IndexMonotone dao_id log t ↔ registrations dao_id log = [] := by
  rcases hrun.counts dao_id with ⟨hnone, hentries, hregs⟩ | ⟨n, hcounted⟩
  · refine iff_of_true ⟨?_, ?_, fun hsome => absurd hnone hsome⟩ hregs
    · rw [hentries]
      exact List.Pairwise.nil
    · rw [hentries]
      simp
  · rw [hcounted.indexMonotone_iff, hcounted.registered]

end

theorem index_monotone_iff_for_a_member : ∃ log t, TreeRun sampleHashes 0 log t ∧
    (IndexMonotone 0 log t ↔ registrations 0 log = []) ∧ (t.daos 0).next_root_index = some 1 := by
  obtain ⟨log, t, hrun, htest⟩ := exists_run (H := sampleHashes) (r := 0)
    [.init_tree 0 1 "BN254" 0, .register_from_registry 0 7 1]
    (fun _ t => decide ((t.daos 0).next_root_index = some 1)) (by decide +kernel)
  exact ⟨log, t, hrun, index_monotone_iff hrun 0, of_decide_eq_true htest⟩

/-- The empty root and the root of the first member both have index 0. -/
theorem first_member_shares_index : ∃ log t, TreeRun sampleHashes 0 log t ∧
    ¬ IndexMonotone 0 log t ∧ ∃ p ∈ assigned 0 log t, ∃ q ∈ assigned 0 log t, p.2 = q.2 ∧ p.1 ≠ q.1 := by
  obtain ⟨log, t, hrun, htest⟩ := exists_run (H := sampleHashes) (r := 0)
    [.init_tree 0 1 "BN254" 0, .register_from_registry 0 7 1]
    (fun log t => (assigned 0 log t).any fun p => (assigned 0 log t).any fun q =>
      decide (p.2 = q.2 ∧ p.1 ≠ q.1)) (by decide +kernel)
  obtain ⟨p, hp, hq⟩ := List.any_eq_true.mp htest
  obtain ⟨q, hq, hpq⟩ := List.any_eq_true.mp hq
  obtain ⟨hsame, hne⟩ := of_decide_eq_true hpq
  exact ⟨log, t, hrun, fun hmonotone => hne (hmonotone.distinct p hp q hq hsame), p, hp, q, hq, hsame, hne⟩

end ZkVote.Tree

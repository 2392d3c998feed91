import ZkVote.Tree.Asides
import ZkVote.Tree.Indices

/-!
# The membership tree: the cap on the root history

A publication drops the oldest root when the history is too long, one root and no more.
A cap that was lowered below the length of the history is not caught up with.
-/

open Lib Lib.Outcome

namespace ZkVote.Tree

/-- The number of roots a DAO retains. -/
def retained (d : DaoTree) : Nat := (d.roots.getD []).length

/-- The last cap that was set is below the number of roots retained at that time. -/
def LoweredBelow (dao_id : Nat) : List (MembershipTree × TreeEnv × Call) → Prop
  | [] => False
  | (t, _, call) :: log =>
    match call.caps with
    | some (d, n) => if d = dao_id then n < retained (t.daos dao_id) else LoweredBelow dao_id log
    | none => LoweredBelow dao_id log

/-- The history is within its cap, and holds the roots published last in their order. -/
def HistoryBounded (dao_id : Nat) (log : List (MembershipTree × TreeEnv × Call)) (t : MembershipTree) : Prop :=
  ∃ roots, (t.daos dao_id).roots = some roots ∧ roots.length ≤ get_max_roots (t.daos dao_id) ∧
    roots.reverse <+: (assigned dao_id log t).map Prod.fst

section
variable {H : Hashes} {registry : Address} {dao_id : Nat} {d d' : DaoTree} {t t' : MembershipTree}
  {log : List (MembershipTree × TreeEnv × Call)} {call : Call} {env : TreeEnv}

theorem loweredBelow_cons_of_caps {n : Nat} (h : call.caps = some (dao_id, n)) :
    LoweredBelow dao_id ((t, env, call) :: log) ↔ n < retained (t.daos dao_id) := by
  unfold LoweredBelow
  rw [h]
  simp

theorem loweredBelow_cons_of_not (h : ∀ n, call.caps ≠ some (dao_id, n)) :
    LoweredBelow dao_id ((t, env, call) :: log) ↔ LoweredBelow dao_id log := by
  conv_lhs => unfold LoweredBelow
  split
  · rename_i d n hcaps
    have hne : d ≠ dao_id := by
      rintro rfl
      exact h n hcaps
    rw [if_neg hne]
  · exact Iff.rfl

/-! ## One publication -/

theorem keptRoots_length (max : Nat) (roots : List U256) (root : U256) :
    max < (keptRoots max (roots ++ [root])).length ↔ max < roots.length := by
  unfold keptRoots
  split
  · rename_i hmax
    rw [List.length_append, List.length_singleton] at hmax
    rw [List.length_tail, List.length_append, List.length_singleton, Nat.add_sub_cancel]
  · rename_i hmax
    rw [List.length_append, List.length_singleton] at hmax ⊢
    omega

theorem keptRoots_prefix {max : Nat} {roots published : List U256} (root : U256)
    (h : roots.reverse <+: published) : (keptRoots max (roots ++ [root])).reverse <+: root :: published := by
  have hall : (roots ++ [root]).reverse <+: root :: published := by
    rw [List.reverse_append]
    exact (List.prefix_cons_inj root).mpr h
  unfold keptRoots
  split
  · rw [← List.dropLast_reverse]
    exact (List.dropLast_prefix _).trans hall
  · exact hall

/-- A call publishes a root at the end of the history, or leaves the history as it is. -/
theorem DaoStep.publishes_cases (h : DaoStep H call dao_id (t.daos dao_id) (t'.daos dao_id))
    (hmax : 0 < get_max_roots (t.daos dao_id)) :
    (¬ Publishes dao_id t call t' ∧ (t'.daos dao_id).roots = (t.daos dao_id).roots) ∨
    (Publishes dao_id t call t' ∧ ∃ root k, currentEntry (t'.daos dao_id) = some (root, k) ∧
      (t'.daos dao_id).roots = some (keptRoots (get_max_roots (t.daos dao_id))
        ((t.daos dao_id).roots.getD [] ++ [root]))) := by
  cases h with
  | keep same hregisters hremoves => exact .inl ⟨same.not_publishes hregisters hremoves, same.roots⟩
  | init m hi =>
    have hdepth : (t'.daos dao_id).tree_depth ≠ none := by simp [hi.after.tree_depth]
    refine .inr ⟨.inl ⟨hi.before.tree_depth, hdepth⟩, m.root H, 0, ?_, ?_⟩
    · exact currentEntry_eq ⟨[], hi.roots⟩ (by rw [hi.root_index, Function.update_self])
    · rw [hi.roots, hi.before.roots, keptRoots, if_neg (by simpa using hmax.ne')]
      rfl
  | register m commitment member room k hcall hremoves hr =>
    obtain ⟨roots, hroots, hkept, -⟩ := hr.published.roots
    refine .inr ⟨.inr (.inl (by rw [hcall]; rfl)), _, k, hr.published.currentEntry hr.before, ?_⟩
    rw [hkept, hroots, Option.getD_some]
  | remove m member index hlt k hcall hregisters hr =>
    obtain ⟨roots, hroots, hkept, -⟩ := hr.published.roots
    refine .inr ⟨.inr (.inr (by rw [hcall]; rfl)), _, k, hr.published.currentEntry hr.before, ?_⟩
    rw [hkept, hroots, Option.getD_some]

/-! ## The runs -/

/-- The history is past its cap only if the cap was lowered to that, and holds the latest roots. -/
structure Retains (dao_id : Nat) (log : List (MembershipTree × TreeEnv × Call)) (t : MembershipTree) : Prop where
  lowered : LoweredBelow dao_id log ↔ get_max_roots (t.daos dao_id) < retained (t.daos dao_id)
  max_pos : 0 < get_max_roots (t.daos dao_id)
  newest : ((t.daos dao_id).roots.getD []).reverse <+: (assigned dao_id log t).map Prod.fst

theorem Retains.publish {root : U256} {k : Nat} (h : Retains dao_id log t)
    (hpublishes : Publishes dao_id t call t') (hentry : currentEntry (t'.daos dao_id) = some (root, k))
    (hroots : (t'.daos dao_id).roots =
      some (keptRoots (get_max_roots (t.daos dao_id)) ((t.daos dao_id).roots.getD [] ++ [root]))) :
    (get_max_roots (t.daos dao_id) < retained (t'.daos dao_id) ↔
      get_max_roots (t.daos dao_id) < retained (t.daos dao_id)) ∧
    ((t'.daos dao_id).roots.getD []).reverse <+: (assigned dao_id ((t, env, call) :: log) t').map Prod.fst := by
  unfold retained
  rw [hroots, Option.getD_some, assigned_cons hpublishes hentry]
  exact ⟨keptRoots_length _ _ root, keptRoots_prefix root h.newest⟩

theorem Retains.step (h : Retains dao_id log t) (hok : TreeOk H t) (hs : Tree.step H t env call = .ok t') :
    Retains dao_id ((t, env, call) :: log) t' := by
  have haside := step_aside hs dao_id
  have hnewest : (get_max_roots (t.daos dao_id) < retained (t'.daos dao_id) ↔
      get_max_roots (t.daos dao_id) < retained (t.daos dao_id)) ∧
      ((t'.daos dao_id).roots.getD []).reverse <+: (assigned dao_id ((t, env, call) :: log) t').map Prod.fst := by
    rcases ((step_ok hok hs).daos dao_id).publishes_cases h.max_pos with
      ⟨hnot, hroots⟩ | ⟨hpublishes, root, k, hentry, hroots⟩
    · unfold retained
      rw [hroots, assigned_cons_of_not hnot]
      exact ⟨Iff.rfl, h.newest⟩
    · exact h.publish hpublishes hentry hroots
  refine ⟨?_, ?_, hnewest.2⟩
  · by_cases hcaps : ∃ n, call.caps = some (dao_id, n)
    · obtain ⟨n, hn⟩ := hcaps
      obtain ⟨-, heq⟩ := haside.capped n hn
      rw [loweredBelow_cons_of_caps hn, heq]
      rfl
    · have hnot := not_exists.mp hcaps
      have hmax : get_max_roots (t'.daos dao_id) = get_max_roots (t.daos dao_id) := by
        unfold get_max_roots
        rw [haside.max_roots hnot]
      rw [loweredBelow_cons_of_not hnot, hmax, h.lowered, hnewest.1]
  · by_cases hcaps : ∃ n, call.caps = some (dao_id, n)
    · obtain ⟨n, hn⟩ := hcaps
      obtain ⟨hmin, heq⟩ := haside.capped n hn
      rw [heq]
      exact Nat.lt_of_lt_of_le (by decide) hmin
    · unfold get_max_roots
      rw [haside.max_roots (not_exists.mp hcaps)]
      exact h.max_pos

theorem TreeRun.retains (hrun : TreeRun H registry log t) (dao_id : Nat) : Retains dao_id log t := by
  refine Run.invariant_log (P := Retains dao_id) ⟨?_, ?_, ?_⟩
    (fun log t call t' hr h hs => h.step (TreeRun.ok hr) hs) hrun
  · simp [LoweredBelow, retained, constructor]
  · exact Nat.lt_of_lt_of_le (by decide) (le_refl DEFAULT_MAX_ROOTS)
  · simp [constructor]

theorem Publishes.not_caps (h : Publishes dao_id t call t')
    (haside : Aside H env call dao_id (t.daos dao_id) (t'.daos dao_id)) (n : Nat) :
    call.caps ≠ some (dao_id, n) := by
  intro hcaps
  obtain ⟨-, heq⟩ := haside.capped n hcaps
  rcases h with ⟨hnone, hsome⟩ | hcall | hcall
  · rw [heq] at hsome
    exact hsome hnone
  · cases call <;> simp_all [Call.registers, Call.caps]
  · cases call <;> simp_all [Call.removes, Call.caps]

/-- In every run and for every DAO, each call that publishes a root leaves the history within the cap in force,
with the roots published last in their order, if and only if no root is published while the cap is one that was
set below the number of roots retained at that time. -/
theorem root_history_bounded_iff (hrun : TreeRun H registry log t) (dao_id : Nat) :
    (∀ m ∈ Run.moments log t, Publishes dao_id m.pre m.call.2 m.post →
      HistoryBounded dao_id ((m.pre, m.call) :: m.past) m.post) ↔
    ∀ m ∈ Run.moments log t, Publishes dao_id m.pre m.call.2 m.post → ¬ LoweredBelow dao_id m.past := by
  refine Run.forall_moments_iff (fun log t call t' hr hs => imp_congr_right fun hpublishes => ?_) hrun
  have hbefore := TreeRun.retains hr dao_id
  have hafter := hbefore.step (TreeRun.ok hr) hs
  rw [← loweredBelow_cons_of_not (hpublishes.not_caps (step_aside hs dao_id)), hafter.lowered, not_lt]
  rcases ((step_ok (TreeRun.ok hr) hs).daos dao_id).publishes_cases hbefore.max_pos with
    ⟨hnot, -⟩ | ⟨-, root, k, -, hroots⟩
  · exact absurd hpublishes hnot
  · have hnewest := hafter.newest
    unfold HistoryBounded retained
    rw [hroots] at hnewest ⊢
    constructor
    · rintro ⟨roots, heq, hle, -⟩
      rwa [heq]
    · exact fun hle => ⟨_, rfl, hle, hnewest⟩

end

/-- A tree with eleven members, and then twelve roots. -/
def elevenMembers : List Call :=
  .init_tree 0 4 "BN254" 0 :: (List.range 11).map fun i => .register_from_registry 0 (i + 7) (i + 1)

theorem root_history_bounded_iff_for_twelve_roots : ∃ log t, TreeRun sampleHashes 0 log t ∧
    ((∀ m ∈ Run.moments log t, Publishes 0 m.pre m.call.2 m.post →
      HistoryBounded 0 ((m.pre, m.call) :: m.past) m.post) ↔
      ∀ m ∈ Run.moments log t, Publishes 0 m.pre m.call.2 m.post → ¬ LoweredBelow 0 m.past) ∧
    retained (t.daos 0) = 12 := by
  obtain ⟨log, t, hrun, htest⟩ := exists_run (H := sampleHashes) (r := 0) elevenMembers
    (fun _ t => decide (retained (t.daos 0) = 12)) (by decide +kernel)
  exact ⟨log, t, hrun, root_history_bounded_iff hrun 0, of_decide_eq_true htest⟩

/-- The cap is lowered to ten; the next publication keeps twelve roots. -/
theorem lowered_cap_is_exceeded : ∃ log t, TreeRun sampleHashes 0 log t ∧
    (∃ m ∈ Run.moments log t, Publishes 0 m.pre m.call.2 m.post ∧
      ¬ HistoryBounded 0 ((m.pre, m.call) :: m.past) m.post) ∧
    get_max_roots (t.daos 0) = 10 ∧ retained (t.daos 0) = 12 := by
  obtain ⟨log, t, hrun, htest⟩ := exists_run (H := sampleHashes) (r := 0)
    (elevenMembers ++ [.set_max_roots 0 10 0, .register_from_registry 0 18 12])
    (fun log t => (Run.moments log t).any (fun m => decide (Publishes 0 m.pre m.call.2 m.post ∧
      get_max_roots (m.post.daos 0) < retained (m.post.daos 0))) &&
      decide (get_max_roots (t.daos 0) = 10 ∧ retained (t.daos 0) = 12)) (by decide +kernel)
  rw [Bool.and_eq_true] at htest
  obtain ⟨m, hm, hbad⟩ := List.any_eq_true.mp htest.1
  obtain ⟨hpublishes, hlong⟩ := of_decide_eq_true hbad
  refine ⟨log, t, hrun, ⟨m, hm, hpublishes, ?_⟩, of_decide_eq_true htest.2⟩
  rintro ⟨roots, hroots, hle, -⟩
  rw [retained, hroots, Option.getD_some] at hlong
  omega

end ZkVote.Tree

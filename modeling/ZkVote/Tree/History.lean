import ZkVote.Tree.Roots

/-!
# The membership tree: the root history and its index

`root_eligibility` answers from `RootIndex` alone, and the source says that the
index agrees with the history by construction. It does until a root leaves the
history while a second copy of it stays.
-/

open Lib Lib.Outcome

namespace ZkVote.Tree

/-! ## Agreement -/

/-- `root_eligibility` accepts what `root_ok` accepts and the two floors allow. -/
def EligibilityExact (t : MembershipTree) (dao_id : Nat) : Prop :=
  ∀ root earliest, root_eligibility t dao_id root earliest = 0 ↔
    root_ok t dao_id root = true ∧
      ∃ k, (t.daos dao_id).root_index root = some k ∧ earliest ≤ k ∧ min_root t dao_id ≤ k

/-- Every root of the history is indexed, and the current index can be asked for. -/
def HistoryIndexed (t : MembershipTree) (dao_id : Nat) : Prop :=
  (∀ roots, (t.daos dao_id).roots = some roots →
    ∀ r ∈ roots, ∃ k, (t.daos dao_id).root_index r = some k) ∧
  ((t.daos dao_id).tree_depth ≠ none → ∃ k, curr_idx t dao_id = .ok k)

def RootsAgree (t : MembershipTree) : Prop :=
  ∀ dao_id, EligibilityExact t dao_id ∧ HistoryIndexed t dao_id

/-- The index has an entry for the roots of the history, and for no other. -/
def IndexMatches (d : DaoTree) : Prop :=
  ∀ r, (∃ k, d.root_index r = some k) ↔ ∃ roots, d.roots = some roots ∧ r ∈ roots

theorem root_ok_iff {t : MembershipTree} {dao_id : Nat} {root : U256} :
    root_ok t dao_id root = true ↔ ∃ roots, (t.daos dao_id).roots = some roots ∧ root ∈ roots := by
  unfold root_ok
  cases (t.daos dao_id).roots <;> simp

theorem root_eligibility_eq_zero {t : MembershipTree} {dao_id : Nat} {root : U256} {earliest : Nat} :
    root_eligibility t dao_id root earliest = 0 ↔
      ∃ k, (t.daos dao_id).root_index root = some k ∧ earliest ≤ k ∧ min_root t dao_id ≤ k := by
  unfold root_eligibility
  cases (t.daos dao_id).root_index root with
  | none => simp
  | some k =>
    simp only [Option.some.injEq, exists_eq_left']
    split
    · omega
    · split <;> omega

theorem IndexMatches.agree {H : Hashes} {t : MembershipTree} (hok : TreeOk H t)
    (h : ∀ dao_id, IndexMatches (t.daos dao_id)) : RootsAgree t := by
  intro dao_id
  refine ⟨fun root earliest => ?_, fun roots hroots r hr => (h dao_id r).mpr ⟨roots, hroots, hr⟩,
    fun hdepth => ?_⟩
  · rw [root_eligibility_eq_zero, root_ok_iff, ← h dao_id root]
    constructor
    · rintro ⟨k, hk, hfloors⟩
      exact ⟨⟨k, hk⟩, k, hk, hfloors⟩
    · exact fun hr => hr.2
  · obtain ⟨m, hm⟩ := (hok.daos dao_id).represents hdepth
    obtain ⟨roots, hroots⟩ := hm.roots
    obtain ⟨k, hk⟩ := (h dao_id (m.root H)).mpr ⟨_, hroots, by simp⟩
    exact ⟨k, by simp [curr_idx, hm.current_root, root_idx, hk, orPanic]⟩

/-! ## Evictions -/

/-- The leaf a call writes: its DAO, its index and its value. -/
def Call.writes (t : MembershipTree) (call : Call) : Option (Nat × Nat × U256) :=
  match call.registers with
  | some (dao_id, commitment, _) =>
    (t.daos dao_id).next_leaf_index.map fun index => (dao_id, index, commitment)
  | none =>
    match call.removes with
    | some (dao_id, member) =>
      ((t.daos dao_id).member_leaf_index member).map fun index => (dao_id, index, zero_value)
    | none => none

/-- The Merkle root over the stored leaves with one of them replaced. -/
def rootAfter (H : Hashes) (d : DaoTree) (index : Nat) (value : U256) : U256 :=
  merkleRoot H (d.poseidon_field.getD "BN254") (d.tree_depth.getD 0)
    (Function.update (leafVector d (d.next_leaf_index.getD 0)) index value)

/-- The call pushes the oldest root out of a full history that holds another copy of it, and does not
publish that root again. -/
def DropsCopy (H : Hashes) (t : MembershipTree) (call : Call) : Prop :=
  ∃ dao_id index value oldest rest, call.writes t = some (dao_id, index, value) ∧
    (t.daos dao_id).roots = some (oldest :: rest) ∧
    get_max_roots (t.daos dao_id) < rest.length + 2 ∧
    oldest ∈ rest ∧ rootAfter H (t.daos dao_id) index value ≠ oldest

section
variable {H : Hashes} {d d' : DaoTree} {m : Members} {root : U256} {k dao_id : Nat}

theorem Represents.rootAfter_append (hd : Represents H d m) {x : U256} (h : m.size < 2 ^ m.depth) :
    rootAfter H d m.size x = (m.append x h).root H := by
  rw [rootAfter, hd.poseidon_field, hd.tree_depth, hd.next_leaf_index]
  simp only [Option.getD_some, ← hd.leaf_eq]
  rfl

theorem Represents.rootAfter_clear (hd : Represents H d m) {index : Nat} (h : index < m.size) :
    rootAfter H d index zero_value = (m.clear index h).root H := by
  rw [rootAfter, hd.poseidon_field, hd.tree_depth, hd.next_leaf_index]
  simp only [Option.getD_some, ← hd.leaf_eq]
  rfl

theorem Represents.roots_cons (hd : Represents H d m) : ∃ oldest rest, d.roots = some (oldest :: rest) := by
  obtain ⟨roots, hroots⟩ := hd.roots
  cases roots with
  | nil => exact ⟨_, _, hroots⟩
  | cons x xs => exact ⟨_, _, hroots⟩

theorem Published.cons {oldest : U256} {rest : List U256} (hp : Published d d' root k)
    (hroots : d.roots = some (oldest :: rest)) :
    (get_max_roots d < rest.length + 2 ∧ d'.roots = some (rest ++ [root]) ∧
      d'.root_index = Function.update (Function.update d.root_index oldest none) root (some k)) ∨
    (¬ get_max_roots d < rest.length + 2 ∧ d'.roots = some (oldest :: rest ++ [root]) ∧
      d'.root_index = Function.update d.root_index root (some k)) := by
  obtain ⟨roots, hr, hkept, hindex⟩ := hp.roots
  rw [hroots, Option.some.injEq] at hr
  subst hr
  have hlength : (oldest :: rest ++ [root]).length = rest.length + 2 := by simp
  by_cases hmax : get_max_roots d < rest.length + 2
  · refine .inl ⟨hmax, ?_, ?_⟩
    · rw [hkept, keptRoots, hlength, if_pos hmax]
      rfl
    · rw [hindex, keptIndex, hlength, if_pos hmax]
      rfl
  · refine .inr ⟨hmax, ?_, ?_⟩
    · rw [hkept, keptRoots, hlength, if_neg hmax]
    · rw [hindex, keptIndex, hlength, if_neg hmax]

/-- Publishing keeps the match, unless a copy of the evicted root stays. -/
theorem Published.indexMatches {oldest : U256} {rest : List U256} (hp : Published d d' root k)
    (hroots : d.roots = some (oldest :: rest)) (h : IndexMatches d)
    (hdrop : get_max_roots d < rest.length + 2 → oldest ∈ rest → root = oldest) : IndexMatches d' := by
  intro r
  have hr := h r
  simp only [hroots, Option.some.injEq, exists_eq_left', List.mem_cons] at hr
  rcases hp.cons hroots with ⟨hmax, hkept, hindex⟩ | ⟨hmax, hkept, hindex⟩
  · simp only [hkept, hindex, Option.some.injEq, exists_eq_left', Function.update_apply, List.mem_append,
      List.mem_singleton]
    by_cases hnew : r = root
    · simp [hnew]
    · by_cases hold : r = oldest
      · have hgone : oldest ∉ rest := fun hmem => hnew (hold.trans (hdrop hmax hmem).symm)
        simp [hold, hgone, (hold ▸ hnew : oldest ≠ root)]
      · simp [hnew, hold, hr]
  · simp only [hkept, hindex, Option.some.injEq, exists_eq_left', Function.update_apply, List.mem_append,
      List.mem_cons]
    by_cases hnew : r = root
    · simp [hnew]
    · simp [hnew, hr]

/-- The dropped copy is in the history without an index. -/
theorem Published.not_indexed {oldest : U256} {rest : List U256} (hp : Published d d' root k)
    (hroots : d.roots = some (oldest :: rest)) (hmax : get_max_roots d < rest.length + 2)
    (hmem : oldest ∈ rest) (hne : root ≠ oldest) :
    d'.roots = some (rest ++ [root]) ∧ oldest ∈ rest ++ [root] ∧ d'.root_index oldest = none := by
  rcases hp.cons hroots with ⟨_, hkept, hindex⟩ | ⟨hmax', _, _⟩
  · refine ⟨hkept, List.mem_append_left _ hmem, ?_⟩
    rw [hindex, Function.update_of_ne hne.symm, Function.update_self]
  · exact absurd hmax hmax'

/-! ## Runs -/

variable {t t' : MembershipTree} {env : TreeEnv} {call : Call}

theorem DaoStep.indexMatches (hstep : DaoStep H call dao_id (t.daos dao_id) (t'.daos dao_id))
    (h : IndexMatches (t.daos dao_id)) (hdrop : ¬ DropsCopy H t call) : IndexMatches (t'.daos dao_id) := by
  cases hstep with
  | keep same =>
    intro r
    rw [same.root_index, same.roots]
    exact h r
  | init m hi =>
    intro r
    rw [hi.roots, hi.root_index]
    by_cases hr : r = m.root H <;> simp [hr]
  | register m commitment member room k hcall hremoves hr =>
    obtain ⟨oldest, rest, hroots⟩ := hr.before.roots_cons
    refine hr.published.indexMatches hroots h fun hmax hmem => ?_
    by_contra hne
    refine hdrop ⟨dao_id, m.size, commitment, oldest, rest, ?_, hroots, hmax, hmem, ?_⟩
    · simp [Call.writes, hcall, hr.before.next_leaf_index]
    · rwa [hr.before.rootAfter_append room]
  | remove m member index hlt k hcall hregisters hr =>
    obtain ⟨oldest, rest, hroots⟩ := hr.before.roots_cons
    refine hr.published.indexMatches hroots h fun hmax hmem => ?_
    by_contra hne
    have hnone : call.registers = none := by
      cases call <;> simp_all [Call.registers, Call.removes]
    refine hdrop ⟨dao_id, index, zero_value, oldest, rest, ?_, hroots, hmax, hmem, ?_⟩
    · simp [Call.writes, hcall, hnone, hr.member_at]
    · rwa [hr.before.rootAfter_clear hlt]

theorem DropsCopy.disagree (hok : TreeOk H t) (hstep : step H t env call = .ok t')
    (hdrop : DropsCopy H t call) : ¬ RootsAgree t' := by
  obtain ⟨dao_id, index, value, oldest, rest, hwrites, hroots, hmax, hmem, hne⟩ := hdrop
  intro hagree
  have hlost : ∃ roots, (t'.daos dao_id).roots = some roots ∧ oldest ∈ roots ∧
      (t'.daos dao_id).root_index oldest = none := by
    cases (step_ok hok hstep).daos dao_id with
    | keep same hregisters hremoves =>
      unfold Call.writes at hwrites
      split at hwrites
      · rename_i d c a hcall
        simp only [Option.map_eq_some_iff, Prod.mk.injEq] at hwrites
        obtain ⟨_, _, rfl, _⟩ := hwrites
        exact absurd hcall (hregisters c a)
      · split at hwrites
        · rename_i d a hcall
          simp only [Option.map_eq_some_iff, Prod.mk.injEq] at hwrites
          obtain ⟨_, _, rfl, _⟩ := hwrites
          exact absurd hcall (hremoves a)
        · cases hwrites
    | init m hi =>
      rw [hi.before.roots] at hroots
      cases hroots
    | register m commitment member room k hcall hremoves hr =>
      simp only [Call.writes, hcall, hr.before.next_leaf_index, Option.map_some, Option.some.injEq,
        Prod.mk.injEq, true_and] at hwrites
      obtain ⟨rfl, rfl⟩ := hwrites
      rw [hr.before.rootAfter_append room] at hne
      exact ⟨_, hr.published.not_indexed hroots hmax hmem hne⟩
    | remove m member i hlt k hcall hregisters hr =>
      have hnone : call.registers = none := by
        cases call <;> simp_all [Call.registers, Call.removes]
      simp only [Call.writes, hcall, hnone, hr.member_at, Option.map_some, Option.some.injEq,
        Prod.mk.injEq, true_and] at hwrites
      obtain ⟨rfl, rfl⟩ := hwrites
      rw [hr.before.rootAfter_clear hlt] at hne
      exact ⟨_, hr.published.not_indexed hroots hmax hmem hne⟩
  obtain ⟨roots, hroots', hmem', hnone⟩ := hlost
  obtain ⟨k, hk⟩ := (hagree dao_id).2.1 roots hroots' oldest hmem'
  rw [hnone] at hk
  cases hk

end

theorem TreeRun.indexMatches {H : Hashes} {registry : Address} {log : List (MembershipTree × TreeEnv × Call)}
    {t : MembershipTree} (hrun : TreeRun H registry log t) (hlog : ∀ e ∈ log, ¬ DropsCopy H e.1 e.2.2) :
    ∀ dao_id, IndexMatches (t.daos dao_id) := by
  have hinv : TreeOk H t ∧ ∀ dao_id, IndexMatches (t.daos dao_id) :=
    Run.invariant_of (P := fun t => TreeOk H t ∧ ∀ dao_id, IndexMatches (t.daos dao_id))
      (C := fun t (call : TreeEnv × Call) => ¬ DropsCopy H t call.2)
      ⟨constructor_ok registry, fun dao_id r => by simp [Tree.constructor]⟩
      (fun s i s' hP hC (hs : Accepts H s i s') =>
        have hstep := step_ok hP.1 hs
        ⟨⟨hstep.cache, fun d => (hstep.daos d).daoOk (hP.1.daos d)⟩,
          fun d => (hstep.daos d).indexMatches (hP.2 d) hC⟩)
      hrun hlog
  exact hinv.2

/-- In every run, the answers agree in every state passed if and only if no accepted call evicts a root of
which the history keeps another copy. -/
theorem roots_agree_iff (H : Hashes) {registry : Address} {log : List (MembershipTree × TreeEnv × Call)}
    {t : MembershipTree} (hrun : TreeRun H registry log t) :
    (∀ s ∈ Run.states log t, RootsAgree s) ↔ ∀ e ∈ log, ¬ DropsCopy H e.1 e.2.2 :=
  Run.forall_states_iff (C := fun t (call : TreeEnv × Call) => ¬ DropsCopy H t call.2)
    (fun _ _ hr hlog => IndexMatches.agree (TreeRun.ok hr) (TreeRun.indexMatches hr hlog))
    (fun _ _ _ _ hr hs hC => (not_not.mp hC).disagree (TreeRun.ok hr) hs) hrun

theorem roots_agree_iff_after_a_removal : ∃ log t, TreeRun sampleHashes 0 log t ∧
    ((∀ s ∈ Run.states log t, RootsAgree s) ↔ ∀ e ∈ log, ¬ DropsCopy sampleHashes e.1 e.2.2) := by
  obtain ⟨log, t, hrun, -⟩ := exists_run (H := sampleHashes) (r := 0)
    [.init_tree 0 2 "BN254" 0, .register_from_registry 0 7 1, .remove_member 0 1 0]
    (fun _ _ => true) (by decide +kernel)
  exact ⟨log, t, hrun, roots_agree_iff sampleHashes hrun⟩

/-- A removal publishes the root of the empty tree a second time. With a history of ten roots, the eighth
registration after that evicts the first copy and with it the index of the second. -/
def evictingCalls : List Call :=
  [.init_tree 0 4 "BN254" 0, .set_max_roots 0 10 0, .register_from_registry 0 7 1, .remove_member 0 1 0]
    ++ (List.range 8).map fun i => .register_from_registry 0 (10 + i) (10 + i)

/-- The history holds the root of the empty tree, and the index does not. -/
def emptyRootLost (t : MembershipTree) : Bool :=
  let root := merkleRoot sampleHashes "BN254" 4 fun _ => zero_value
  root_ok t 0 root && ((t.daos 0).root_index root).isNone

theorem evicted_copy_loses_index : ∃ log t, TreeRun sampleHashes 0 log t ∧ ¬ RootsAgree t := by
  obtain ⟨log, t, hrun, htest⟩ := exists_run (H := sampleHashes) (r := 0) evictingCalls
    (fun _ t => emptyRootLost t) (by decide +kernel)
  refine ⟨log, t, hrun, fun hagree => ?_⟩
  obtain ⟨hok, hnone⟩ := Bool.and_eq_true_iff.mp htest
  obtain ⟨roots, hroots, hmem⟩ := root_ok_iff.mp hok
  obtain ⟨k, hk⟩ := (hagree 0).2.1 roots hroots _ hmem
  rw [hk] at hnone
  cases hnone

end ZkVote.Tree

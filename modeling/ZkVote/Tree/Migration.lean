import Mathlib.Data.List.Induction
import Mathlib.Data.List.Nodup
import ZkVote.Tree.Asides

/-!
# The membership tree: the post-quantum roots

`migrate_roots_to_pq` gathers the roots of the history that have no index yet, and
stores what it gathered in place of what an earlier migration has stored.
-/

open Lib Lib.Outcome

namespace ZkVote.Tree

/-- Migrations of the DAO in the log. -/
def migrations (dao_id : Nat) (log : List (MembershipTree × TreeEnv × Call)) : Nat :=
  log.countP fun e => e.2.2.migrates = some dao_id

/-- No root is lost from the list, and each root of the history is on it once. -/
structure KeepsMigrated (H : Hashes) (dao_id : Nat) (d d' : DaoTree) : Prop where
  kept : ∀ r ∈ d.sha3_roots.getD [], r ∈ d'.sha3_roots.getD []
  once : ∀ roots, d.roots = some roots → ∀ root ∈ roots,
    (d'.sha3_roots.getD []).count (pq_root_of H dao_id root) = 1

/-- The call migrates the roots of the DAO. -/
def Migrates (dao_id : Nat) (m : Moment MembershipTree (TreeEnv × Call)) : Prop :=
  m.call.2.migrates = some dao_id

section
variable {H : Hashes} {registry : Address} {dao_id : Nat} {d d' : DaoTree} {t t' : MembershipTree}
  {log : List (MembershipTree × TreeEnv × Call)} {call : Call} {env : TreeEnv}

/-! ## The loop -/

/-- The loop has gone through `xs`, from the index map `index₀`. -/
structure Gathered (index₀ : U256 → Option Nat) (xs : List U256)
    (acc : List U256 × Nat × (U256 → Option Nat)) : Prop where
  nodup : acc.1.Nodup
  mem : ∀ x, x ∈ acc.1 ↔ x ∈ xs ∧ index₀ x = none
  indexed : ∀ x, acc.2.2 x = none ↔ index₀ x = none ∧ x ∉ xs

theorem Gathered.start (index₀ : U256 → Option Nat) (n : Nat) : Gathered index₀ [] ([], n, index₀) :=
  ⟨List.nodup_nil, by simp, by simp⟩

theorem Gathered.migrate_root {index₀ : U256 → Option Nat} {xs : List U256}
    {acc : List U256 × Nat × (U256 → Option Nat)} (h : Gathered index₀ xs acc) (x : U256) :
    Gathered index₀ (xs ++ [x]) (migrate_root x acc) := by
  obtain ⟨sha3_roots, next_idx, index⟩ := acc
  have hmem : ∀ y, y ∈ sha3_roots ↔ y ∈ xs ∧ index₀ y = none := h.mem
  have hindexed : ∀ y, index y = none ↔ index₀ y = none ∧ y ∉ xs := h.indexed
  unfold Tree.migrate_root
  cases hx : index x with
  | some k =>
    -- indexed before the migration, or gathered already
    have hold : ¬ (index₀ x = none ∧ x ∉ xs) := fun hnone => by
      have hnew := (hindexed x).mpr hnone
      simp [hx] at hnew
    simp only [hx]
    refine ⟨h.nodup, fun y => ?_, fun y => ?_⟩
    · rw [hmem, List.mem_append, List.mem_singleton]
      grind
    · rw [hindexed, List.mem_append, List.mem_singleton]
      grind
  | none =>
    obtain ⟨hindex, hnew⟩ := (hindexed x).mp hx
    simp only [hx]
    refine ⟨?_, fun y => ?_, fun y => ?_⟩
    · rw [List.nodup_append]
      refine ⟨h.nodup, List.nodup_singleton x, fun a ha b hb heq => hnew ?_⟩
      rw [← List.mem_singleton.mp hb, ← heq]
      exact ((hmem a).mp ha).1
    · rw [List.mem_append, List.mem_singleton, List.mem_append, List.mem_singleton, hmem]
      grind
    · simp only [Function.update_apply, List.mem_append, List.mem_singleton]
      have hy := hindexed y
      grind

theorem migrated_gathered (H : Hashes) (dao_id : Nat) (d : DaoTree) (roots : List U256) :
    Gathered d.sha3_root_index (roots.map (pq_root_of H dao_id)) (migrated H dao_id d roots) := by
  unfold migrated
  induction roots using List.reverseRecOn with
  | nil => exact Gathered.start _ _
  | append_singleton roots root ih =>
    rw [List.foldl_append, List.map_append]
    exact ih.migrate_root (pq_root_of H dao_id root)

/-! ## One migration -/

theorem Aside.gathered (h : Aside H env call dao_id d d') (hcall : call.migrates = some dao_id) :
    ∃ roots new, d.roots = some roots ∧ d'.sha3_roots = some new ∧ new.Nodup ∧
      (∀ x, x ∈ new ↔ x ∈ roots.map (pq_root_of H dao_id) ∧ d.sha3_root_index x = none) ∧
      ∀ x, d'.sha3_root_index x = none ↔
        d.sha3_root_index x = none ∧ x ∉ roots.map (pq_root_of H dao_id) := by
  obtain ⟨roots, hroots, hnew, hindex⟩ := h.migrated hcall
  have hgathered := migrated_gathered H dao_id d roots
  refine ⟨roots, _, hroots, hnew, hgathered.nodup, hgathered.mem, ?_⟩
  rw [hindex]
  exact hgathered.indexed

/-- What the migrations before have left. -/
structure MigratedSoFar (d : DaoTree) (n : Nat) : Prop where
  fresh : n = 0 → d.sha3_roots = none ∧ ∀ x, d.sha3_root_index x = none
  first : n = 1 → ∃ x ∈ d.sha3_roots.getD [], d.sha3_root_index x ≠ none

theorem Aside.migratedSoFar {n : Nat} (h : Aside H env call dao_id d d') (hok : DaoOk H d)
    (hd : MigratedSoFar d n) :
    MigratedSoFar d' (n + if call.migrates = some dao_id then 1 else 0) := by
  by_cases hcall : call.migrates = some dao_id
  · rw [if_pos hcall]
    refine ⟨fun h0 => by omega, fun h1 => ?_⟩
    obtain ⟨-, hindex⟩ := hd.fresh (by omega)
    obtain ⟨roots, new, hroots, hnew, -, hmem, hindexed⟩ := h.gathered hcall
    obtain ⟨m, hm⟩ : ∃ m, Represents H d m := by
      rcases hok with hun | hm
      · rw [hun.roots] at hroots
        cases hroots
      · exact hm
    obtain ⟨old, hold⟩ := hm.roots
    rw [hroots, Option.some.injEq] at hold
    have hroot : pq_root_of H dao_id (m.root H) ∈ roots.map (pq_root_of H dao_id) := by
      rw [hold]
      exact List.mem_map_of_mem (by simp)
    refine ⟨pq_root_of H dao_id (m.root H), ?_, fun hnone => ?_⟩
    · rw [hnew, Option.getD_some, hmem]
      exact ⟨hroot, hindex _⟩
    · exact ((hindexed _).mp hnone).2 hroot
  · rw [if_neg hcall]
    obtain ⟨hroots, hindex⟩ := h.sha3 hcall
    refine ⟨?_, ?_⟩
    · rw [hroots, hindex]
      exact hd.fresh
    · rw [hroots, hindex]
      exact hd.first

theorem migrations_cons (e : MembershipTree × TreeEnv × Call) :
    migrations dao_id (e :: log) = migrations dao_id log + if e.2.2.migrates = some dao_id then 1 else 0 := by
  unfold migrations
  rw [List.countP_cons]
  simp

theorem TreeRun.migratedSoFar (hrun : TreeRun H registry log t) (dao_id : Nat) :
    MigratedSoFar (t.daos dao_id) (migrations dao_id log) := by
  refine Run.invariant_log (P := fun log t => MigratedSoFar (t.daos dao_id) (migrations dao_id log))
    ⟨fun _ => ⟨rfl, fun _ => rfl⟩, fun h => ?_⟩ (fun log t call t' hr h hs => ?_) hrun
  · cases h
  · rw [migrations_cons]
    exact (step_aside hs dao_id).migratedSoFar ((TreeRun.ok hr).daos dao_id) h

/-! ## Migrating again -/

/-- Up to the second one, a migration keeps the roots if and only if it is the first. -/
theorem Aside.keepsMigrated_iff {n : Nat} (h : Aside H env call dao_id d d') (hd : MigratedSoFar d n)
    (hle : n ≤ 1) (hcall : call.migrates = some dao_id) : KeepsMigrated H dao_id d d' ↔ n = 0 := by
  obtain ⟨roots, new, hroots, hnew, hnodup, hmem, -⟩ := h.gathered hcall
  constructor
  · intro hkeeps
    by_contra hne
    obtain ⟨x, hx, hindex⟩ := hd.first (by omega)
    have hkept := hkeeps.kept x hx
    rw [hnew, Option.getD_some, hmem] at hkept
    exact hindex hkept.2
  · intro h0
    obtain ⟨hnone, hindex⟩ := hd.fresh h0
    refine ⟨?_, fun roots' hroots' root hroot => ?_⟩
    · rw [hnone]
      simp
    · rw [hroots, Option.some.injEq] at hroots'
      rw [hnew, Option.getD_some]
      refine List.count_eq_one_of_mem hnodup ((hmem _).mpr ⟨?_, hindex _⟩)
      rw [hroots']
      exact List.mem_map_of_mem hroot

theorem migrations_le (hrun : TreeRun H registry log t)
    (h : ∀ m ∈ Run.moments log t, Migrates dao_id m → migrations dao_id m.past = 0) :
    migrations dao_id log ≤ 1 := by
  induction hrun with
  | start => exact Nat.zero_le 1
  | call hr hs ih =>
    rw [Run.moments, List.forall_mem_cons] at h
    rw [migrations_cons]
    split
    · rename_i hcall
      rw [h.1 hcall]
    · exact ih h.2

/-- In every run and for every DAO, each migration keeps the roots migrated before and lists every root of the
history once, if and only if no migration comes after another. -/
theorem migration_monotone_iff (hrun : TreeRun H registry log t) (dao_id : Nat) :
    (∀ m ∈ Run.moments log t, Migrates dao_id m →
      KeepsMigrated H dao_id (m.pre.daos dao_id) (m.post.daos dao_id)) ↔
    ∀ m ∈ Run.moments log t, Migrates dao_id m → migrations dao_id m.past = 0 := by
  refine Run.forall_moments_iff_of_past (fun log t call t' hr hpast hs => ?_) hrun
  exact imp_congr_right fun hcall => (step_aside hs dao_id).keepsMigrated_iff (TreeRun.migratedSoFar hr dao_id)
    (migrations_le hr hpast) hcall

end

theorem migration_monotone_iff_for_two_roots : ∃ log t, TreeRun sampleHashes 0 log t ∧
    ((∀ m ∈ Run.moments log t, Migrates 0 m → KeepsMigrated sampleHashes 0 (m.pre.daos 0) (m.post.daos 0)) ↔
      ∀ m ∈ Run.moments log t, Migrates 0 m → migrations 0 m.past = 0) ∧
    (t.daos 0).sha3_roots.map List.length = some 2 := by
  obtain ⟨log, t, hrun, htest⟩ := exists_run (H := sampleHashes) (r := 0)
    [.init_tree 0 1 "BN254" 0, .register_from_registry 0 7 1, .migrate_roots_to_pq 0 0]
    (fun _ t => decide ((t.daos 0).sha3_roots.map List.length = some 2)) (by decide +kernel)
  exact ⟨log, t, hrun, migration_monotone_iff hrun 0, of_decide_eq_true htest⟩

/-- A second migration finds every root indexed and stores an empty list. -/
theorem second_migration_drops_all : ∃ log t, TreeRun sampleHashes 0 log t ∧
    (∃ m ∈ Run.moments log t, Migrates 0 m ∧
      ¬ KeepsMigrated sampleHashes 0 (m.pre.daos 0) (m.post.daos 0)) ∧
    (t.daos 0).sha3_roots = some [] := by
  obtain ⟨log, t, hrun, htest⟩ := exists_run (H := sampleHashes) (r := 0)
    [.init_tree 0 1 "BN254" 0, .migrate_roots_to_pq 0 0, .migrate_roots_to_pq 0 0]
    (fun log t => (Run.moments log t).any (fun m => decide (m.call.2.migrates = some 0 ∧
      ((m.pre.daos 0).sha3_roots.getD []).any (fun r => ((m.post.daos 0).sha3_roots.getD []).contains r = false))) &&
      decide ((t.daos 0).sha3_roots = some [])) (by decide +kernel)
  rw [Bool.and_eq_true] at htest
  obtain ⟨m, hm, hlost⟩ := List.any_eq_true.mp htest.1
  obtain ⟨hcall, hlost⟩ := of_decide_eq_true hlost
  obtain ⟨r, hr, hnot⟩ := List.any_eq_true.mp hlost
  refine ⟨log, t, hrun, ⟨m, hm, hcall, fun hkeeps => ?_⟩, of_decide_eq_true htest.2⟩
  have hin := hkeeps.kept r hr
  simp [hin] at hnot

end ZkVote.Tree

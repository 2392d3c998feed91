import ZkVote.Lib.Paging
import ZkVote.Registry.Steps

/-!
# The DAO registry: keepalive

The sweep extends the TTL of the records of one page. DAOs are numbered from one, the
cursor counts from zero, and a page stops before the number of DAOs.
-/

open Lib Lib.Outcome

namespace ZkVote.Registry

def SWEEP_MAX_DAOS : Nat := 50

def dao_key (dao_id : Nat) : Symbol × Nat := ("dao", dao_id)

/-- The loop of the sweep from `id` on: how many records it finds, and the keys whose TTL it extends. -/
def sweep_from (s : DaoRegistry) : Nat → Nat → Nat × List (Symbol × Nat)
  | _, 0 => (0, [])
  | id, rounds + 1 =>
    let (swept, keys) := sweep_from s (id + 1) rounds
    if (s.dao id).isSome then (swept + 1, dao_key id :: keys) else (swept, keys)

def sweep_dao (s : DaoRegistry) (start limit : Nat) : Outcome RegistryError (Nat × List (Symbol × Nat)) :=
  let limit := pageSize SWEEP_MAX_DAOS limit
  let end_ := min s.dao_count (saturatingAdd 64 start limit)
  .ok (sweep_from s start (end_ - start))

/-- The caller's loop, with the keys of all its pages. -/
def SweptFrom (s : DaoRegistry) (limit start : Nat) (keys : List (Symbol × Nat)) : Prop :=
  Swept 64 (fun cursor => sweep_dao s cursor limit) (pageSize SWEEP_MAX_DAOS limit) start keys

/-- The loop ends, and has extended the entry of every DAO and no other of the ids that are given out. -/
def KeptAlive (s : DaoRegistry) (limit start : Nat) : Prop :=
  ∃ keys, SweptFrom s limit start keys ∧ (∀ id, (s.dao id).isSome = true → dao_key id ∈ keys) ∧
    ∀ id, dao_key id ∈ keys ↔ 1 ≤ id ∧ id ≤ s.dao_count

/-- The ids of the DAOs. -/
structure Numbered (s : DaoRegistry) : Prop where
  isSome_iff : ∀ id, (s.dao id).isSome = true ↔ 1 ≤ id ∧ id ≤ s.dao_count
  fits : s.dao_count < 2 ^ 64

section
variable {env : Env} {s s' : DaoRegistry} {call : Call} {calls : List Invocation}
  {log : List (DaoRegistry × Env × Call)} {limit start count id : Nat} {keys : List (Symbol × Nat)}
  {k : Symbol × Nat}

/-! ## Ids -/

theorem Numbered.step (h : Numbered s) (hs : DaosStep s s') : Numbered s' := by
  cases hs with
  | same hcount hdao =>
    constructor
    · intro id
      rw [hdao, hcount]
      exact h.isSome_iff id
    · rw [hcount]
      exact h.fits
  | created hfits hcount hdao =>
    constructor
    · intro id
      rw [hdao, hcount]
      by_cases hid : id = s.dao_count + 1
      · subst hid
        rw [Function.update_self]
        simp
      · rw [Function.update_of_ne hid, h.isSome_iff]
        omega
    · rw [hcount]
      exact hfits

theorem RegistryRun.numbered (hrun : RegistryRun log s) : Numbered s := by
  refine Run.invariant ?_ (fun s call s' h hs => h.step (step_effect hs.choose_spec).daos) hrun
  constructor
  · intro id
    change (none : Option DaoInfo).isSome = true ↔ 1 ≤ id ∧ id ≤ 0
    simp
    omega
  · decide

/-! ## Pages -/

theorem dao_key_injective {id id' : Nat} (h : dao_key id = dao_key id') : id = id' := congrArg Prod.snd h

theorem sweep_dao_eq (s : DaoRegistry) (start limit : Nat) : sweep_dao s start limit = .ok (sweep_from s start
    (min s.dao_count (saturatingAdd 64 start (pageSize SWEEP_MAX_DAOS limit)) - start)) := rfl

theorem sweep_from_succ (s : DaoRegistry) (id rounds : Nat) : sweep_from s id (rounds + 1) =
    if (s.dao id).isSome then
      ((sweep_from s (id + 1) rounds).1 + 1, dao_key id :: (sweep_from s (id + 1) rounds).2)
    else sweep_from s (id + 1) rounds := rfl

theorem mem_sweep_from {rounds : Nat} :
    k ∈ (sweep_from s start rounds).2 ↔ ∃ i, start ≤ i ∧ i < start + rounds ∧ (s.dao i).isSome = true ∧ k = dao_key i := by
  induction rounds generalizing start with
  | zero =>
    simp only [sweep_from, List.not_mem_nil, false_iff]
    rintro ⟨i, hle, hlt, -⟩
    omega
  | succ rounds ih =>
    have hrest : k ∈ (sweep_from s start (rounds + 1)).2 ↔
        (s.dao start).isSome = true ∧ k = dao_key start ∨ k ∈ (sweep_from s (start + 1) rounds).2 := by
      rw [sweep_from_succ]
      split <;> simp [*]
    rw [hrest, ih]
    constructor
    · rintro (⟨hsome, rfl⟩ | ⟨i, hle, hlt, hi⟩)
      · exact ⟨start, Nat.le_refl _, by omega, hsome, rfl⟩
      · exact ⟨i, by omega, by omega, hi⟩
    · rintro ⟨i, hle, hlt, hsome, rfl⟩
      by_cases hi : i = start
      · subst hi
        exact .inl ⟨hsome, rfl⟩
      · exact .inr ⟨i, by omega, by omega, hsome, rfl⟩

/-- The sweep counts the records it extends. -/
theorem length_sweep_from {rounds : Nat} : (sweep_from s start rounds).2.length = (sweep_from s start rounds).1 := by
  induction rounds generalizing start with
  | zero => rfl
  | succ rounds ih =>
    rw [sweep_from_succ]
    split <;> simp [ih]

theorem windows (h : Numbered s) : Windows (fun cursor => sweep_dao s cursor limit) (pageSize SWEEP_MAX_DAOS limit)
    s.dao_count (fun _ => False) (fun i k => (s.dao i).isSome = true ∧ k = dao_key i) := by
  intro start count keys hpage k
  have hfits := h.fits
  have hkeys : keys = (sweep_from s start
      (min s.dao_count (saturatingAdd 64 start (pageSize SWEEP_MAX_DAOS limit)) - start)).2 := by
    rw [Except.ok.inj hpage]
  rw [hkeys, mem_sweep_from, false_or]
  unfold saturatingAdd
  refine exists_congr fun i => ?_
  constructor
  · rintro ⟨hle, hlt, hi⟩
    exact ⟨hle, by omega, hi⟩
  · rintro ⟨hle, hlt, hi⟩
    exact ⟨hle, by omega, hi⟩

/-- The last id is never below the number of DAOs. -/
theorem SweptFrom.lt_of_mem (h : SweptFrom s limit start keys) (hs : Numbered s) (hid : dao_key id ∈ keys) :
    id < s.dao_count := by
  rcases Swept.of_mem h (windows hs) hid with hno | ⟨i, -, hlt, -, heq⟩
  · exact hno.elim
  · rw [dao_key_injective heq]
    exact hlt

theorem exists_sweptFrom (hroom : s.dao_count + SWEEP_MAX_DAOS ≤ 2 ^ 64) (limit start : Nat) :
    ∃ keys, SweptFrom s limit start keys := by
  have hsize : pageSize SWEEP_MAX_DAOS limit ≤ SWEEP_MAX_DAOS := pageSize_le
  have hfits : s.dao_count + pageSize SWEEP_MAX_DAOS limit ≤ 2 ^ 64 := by omega
  refine exists_swept (fun _ => True) (pageSize_pos (by decide)) hfits
    (fun cursor _ => ⟨_, _, rfl, fun hcount => ⟨?_, trivial⟩⟩) start trivial
  by_contra hge
  refine hcount ?_
  rw [show min s.dao_count (saturatingAdd 64 cursor (pageSize SWEEP_MAX_DAOS limit)) - cursor = 0 by omega]
  rfl

/-- With pages of two records or more, or from one on, the loop extends all records but the last. -/
theorem SweptFrom.mem_iff (h : SweptFrom s limit start keys) (hs : Numbered s) (hstart : start ≤ 1)
    (hsize : 2 ≤ start + pageSize SWEEP_MAX_DAOS limit) : dao_key id ∈ keys ↔ 1 ≤ id ∧ id < s.dao_count := by
  have hmem := Swept.mem_iff (k := dao_key id) h (windows hs) ?_
  · rw [hmem, false_or]
    constructor
    · rintro ⟨i, -, hlt, hsome, heq⟩
      rw [← dao_key_injective heq] at hsome hlt
      exact ⟨((hs.isSome_iff id).mp hsome).1, hlt⟩
    · rintro ⟨hpos, hlt⟩
      exact ⟨id, by omega, hlt, (hs.isSome_iff id).mpr ⟨hpos, by omega⟩, rfl⟩
  · -- Of the ids that a page walks, only 0 has no record.
    intro next touched hle hpage i k hi hlt hik
    have hfits := hs.fits
    have hnone : ∀ j, next ≤ j → j < min s.dao_count (next + pageSize SWEEP_MAX_DAOS limit) →
        (s.dao j).isSome = false := by
      intro j hj hjlt
      by_contra hsome
      have hj : dao_key j ∈ touched :=
        (windows hs next 0 touched hpage _).mpr (.inr ⟨j, hj, hjlt, Bool.of_not_eq_false hsome, rfl⟩)
      have hlength : touched.length = 0 := by
        have hok := Except.ok.inj hpage
        rw [show touched = _ from (congrArg Prod.snd hok).symm, length_sweep_from]
        exact congrArg Prod.fst hok
      rw [List.eq_nil_of_length_eq_zero hlength] at hj
      exact List.not_mem_nil hj
    have hpos := ((hs.isSome_iff i).mp hik.1).1
    have hsome := (hs.isSome_iff (max next 1)).mpr (by omega)
    rw [hnone (max next 1) (by omega) (by omega)] at hsome
    exact absurd hsome (by decide)

/-- The last DAO is the one that no loop reaches. -/
theorem not_keptAlive (hs : Numbered s) (hpos : 1 ≤ s.dao_count) : ¬ KeptAlive s limit start := by
  rintro ⟨keys, hkeys, hall, -⟩
  have hlast : dao_key s.dao_count ∈ keys := hall _ ((hs.isSome_iff _).mpr ⟨hpos, Nat.le_refl _⟩)
  exact Nat.lt_irrefl _ (hkeys.lt_of_mem hs hlast)

theorem keptAlive_of_none (hs : Numbered s) (hnone : s.dao_count = 0) : KeptAlive s limit start := by
  have hpage : sweep_dao s start limit = .ok (0, []) := by
    rw [sweep_dao_eq, hnone, Nat.zero_min, Nat.zero_sub]
    rfl
  refine ⟨[], .last hpage, fun id hid => ?_, fun id => ?_⟩
  · have := (hs.isSome_iff id).mp hid
    omega
  · simp only [List.not_mem_nil, false_iff]
    omega

/-- Wherever the loop starts: it keeps every DAO alive when there is none. -/
theorem all_daos_swept_iff (hrun : RegistryRun log s) (limit start : Nat) :
    KeptAlive s limit start ↔ s.dao_count = 0 := by
  have hs := RegistryRun.numbered hrun
  constructor
  · intro hkept
    by_contra hne
    exact not_keptAlive hs (by omega) hkept
  · exact keptAlive_of_none hs

end

/-! ## One DAO -/

def oneDao : List (Env × Call) := [(.signedAt 10, .create_dao [] 0 true true none)]

theorem all_daos_swept_iff_for_one : ∃ log s, RegistryRun log s ∧ (KeptAlive s 0 0 ↔ s.dao_count = 0) ∧
    s.dao_count = 1 := by
  obtain ⟨log, s, hrun, htest⟩ := exists_run oneDao (fun _ s => s.dao_count == 1) (by decide +kernel)
  exact ⟨log, s, hrun, all_daos_swept_iff hrun 0 0, eq_of_beq htest⟩

theorem only_dao_left_out : ∃ log s, RegistryRun log s ∧ (s.dao 1).isSome = true ∧ SweptFrom s 0 0 [] ∧
    ¬ KeptAlive s 0 0 := by
  obtain ⟨log, s, hrun, htest⟩ := exists_run oneDao
    (fun _ s => decide (s.dao_count = 1 ∧ (s.dao 0).isSome = false)) (by decide +kernel)
  obtain ⟨hcount, hzero⟩ := of_decide_eq_true htest
  have hs := RegistryRun.numbered hrun
  have hpage : sweep_dao s 0 0 = .ok (0, []) := by
    rw [sweep_dao_eq, hcount]
    change Except.ok (sweep_from s 0 1) = _
    rw [sweep_from_succ, hzero]
    rfl
  refine ⟨log, s, hrun, (hs.isSome_iff 1).mpr ⟨Nat.le_refl _, hcount.ge⟩, .last hpage, not_keptAlive hs hcount.ge⟩

end ZkVote.Registry

import Mathlib.Data.List.Nodup
import ZkVote.Sbt.Steps

/-!
# The membership token: the list of members

Every address that ever was a member is on the list. A mint puts an address on it once; the
mint of the registry puts an address that was revoked on it again.
-/

open Lib Lib.Outcome

namespace ZkVote.Sbt

/-- The list is dense, without repetition, and of the addresses that ever entered. -/
structure Enumerated (dao_id : Nat) (log : List (MembershipSbt × SbtEnv × Call)) (s : MembershipSbt) : Prop where
  present : ∀ i, i < get_member_count s dao_id → get_member_at_index s dao_id i ≠ none
  distinct : ∀ i j, i < j → j < get_member_count s dao_id →
    get_member_at_index s dao_id i ≠ get_member_at_index s dao_id j
  entered : ∀ a, (∃ i, i < get_member_count s dao_id ∧ get_member_at_index s dao_id i = some a) ↔
    ∃ e ∈ log, e.2.2.enters = some (dao_id, a)

/-- The registry mints to an address that has a member entry. -/
def Remints (dao_id : Nat) (e : MembershipSbt × SbtEnv × Call) : Prop :=
  ∃ a, e.2.2.registry_mints = some (dao_id, a) ∧ (e.1.daos dao_id).member a = true

/-- What is stored is the list, of the addresses that have a member entry. -/
structure Roster (dao_id : Nat) (log : List (MembershipSbt × SbtEnv × Call)) (d : SbtDao) (l : List Address) :
    Prop where
  at_index : ∀ i, d.member_at_index i = l[i]?
  count : d.member_count = l.length
  mem : ∀ a, a ∈ l ↔ d.member a = true
  entered : ∀ a, d.member a = true ↔ ∃ e ∈ log, e.2.2.enters = some (dao_id, a)
  nodup : l.Nodup ↔ ∀ e ∈ log, ¬ Remints dao_id e

section
variable {registry : Address} {env : SbtEnv} {s s' : MembershipSbt} {call : Call} {dao_id : Nat}
  {d d' : SbtDao} {log : List (MembershipSbt × SbtEnv × Call)} {l : List Address} {a : Address}

theorem enters_of_registry_mints (h : call.registry_mints = some (dao_id, a)) : call.enters = some (dao_id, a) := by
  cases call <;> simp_all [Call.registry_mints, Call.enters]

/-! ## One call -/

theorem Roster.same (h : Roster dao_id log (s.daos dao_id) l) (hlist : SameList (s.daos dao_id) d')
    (hmember : d'.member = (s.daos dao_id).member) (henters : ∀ a, call.enters ≠ some (dao_id, a)) :
    Roster dao_id ((s, env, call) :: log) d' l where
  at_index := hlist.member_at_index ▸ h.at_index
  count := hlist.member_count ▸ h.count
  mem := hmember ▸ h.mem
  entered := fun b => by
    rw [hmember, h.entered]
    simp [henters b]
  nodup := by
    rw [h.nodup, List.forall_mem_cons, and_iff_right]
    rintro ⟨b, hmints, -⟩
    exact henters b (enters_of_registry_mints hmints)

/-- An address that has a member entry stays where it is on the list. -/
theorem Roster.rejoin (h : Roster dao_id log (s.daos dao_id) l) (hlist : SameList (s.daos dao_id) d')
    (hmember : d'.member = Function.update (s.daos dao_id).member a true) (ha : (s.daos dao_id).member a = true)
    (henters : call.enters = some (dao_id, a)) (hremints : ¬ Remints dao_id (s, env, call)) :
    Roster dao_id ((s, env, call) :: log) d' l := by
  have hsame : d'.member = (s.daos dao_id).member := by
    rw [hmember, ← ha, Function.update_eq_self]
  refine ⟨hlist.member_at_index ▸ h.at_index, hlist.member_count ▸ h.count, hsame ▸ h.mem, fun b => ?_, ?_⟩
  · rw [hsame, h.entered]
    by_cases hb : b = a
    · have hbefore := (h.entered a).mp ha
      simp [hb, henters, hbefore]
    · have hne : ¬ a = b := fun heq => hb heq.symm
      simp [hne, henters]
  · rw [h.nodup, List.forall_mem_cons, and_iff_right hremints]

theorem getElem?_concat (l : List Address) (a : Address) :
    (fun i => (l ++ [a])[i]?) = Function.update (fun i => l[i]?) l.length (some a) := by
  funext i
  rw [Function.update_apply]
  split
  · rename_i heq
    rw [heq]
    simp
  · rename_i hne
    rcases Nat.lt_or_gt_of_ne hne with hlt | hgt
    · rw [List.getElem?_append_left hlt]
    · rw [List.getElem?_eq_none (by simp; omega), List.getElem?_eq_none (by omega)]

/-- The address may be on the list already: then the call is a second mint of the registry. -/
theorem Roster.enlist (h : Roster dao_id log (s.daos dao_id) l) (hlist : Enlisted (s.daos dao_id) d' a)
    (hmember : d'.member = Function.update (s.daos dao_id).member a true)
    (henters : call.enters = some (dao_id, a))
    (hremints : Remints dao_id (s, env, call) ↔ (s.daos dao_id).member a = true) :
    Roster dao_id ((s, env, call) :: log) d' (l ++ [a]) where
  at_index := fun i => by
    rw [hlist.member_at_index, h.count, show (s.daos dao_id).member_at_index = fun i => l[i]? from funext h.at_index,
      ← getElem?_concat]
  count := by
    rw [hlist.member_count, h.count, List.length_append, List.length_singleton]
  mem := fun b => by
    rw [List.mem_append, List.mem_singleton, h.mem, hmember, Function.update_apply]
    by_cases hb : b = a <;> simp [hb]
  entered := fun b => by
    rw [hmember, Function.update_apply]
    by_cases hb : b = a
    · simp [hb, henters]
    · have hne : ¬ a = b := fun heq => hb heq.symm
      simp [hb, hne, henters, h.entered b]
  nodup := by
    rw [List.forall_mem_cons, hremints, ← h.nodup, ← h.mem, List.nodup_append]
    constructor
    · rintro ⟨hl, -, hdisjoint⟩
      exact ⟨fun ha => hdisjoint a ha a (List.mem_singleton_self a) rfl, hl⟩
    · rintro ⟨ha, hl⟩
      refine ⟨hl, List.nodup_singleton a, fun b hb c hc heq => ha ?_⟩
      rw [← List.mem_singleton.mp hc, ← heq]
      exact hb

theorem Effect.roster (heffect : Effect env call dao_id (s.daos dao_id) d') (h : Roster dao_id log (s.daos dao_id) l) :
    ∃ l', Roster dao_id ((s, env, call) :: log) d' l' := by
  cases heffect with
  | join a hcall hregistry hnot hentered hrevoked hlist =>
    have hremints : ¬ Remints dao_id (s, env, call) := by
      rintro ⟨b, hmints, -⟩
      rw [hregistry] at hmints
      cases hmints
    split at hlist
    · rename_i hmember
      exact ⟨l, h.rejoin hlist hentered.member hmember hcall hremints⟩
    · rename_i hmember
      exact ⟨l ++ [a], h.enlist hlist hentered.member hcall (iff_of_false hremints hmember)⟩
  | registry_mint a hcall hnot hentered hrevoked hlist =>
    refine ⟨l ++ [a], h.enlist hlist hentered.member (enters_of_registry_mints hcall) ⟨?_, fun hmember => ?_⟩⟩
    · rintro ⟨b, hmints, hmember⟩
      rw [hcall, Option.some.injEq, Prod.mk.injEq] at hmints
      rw [hmints.2]
      exact hmember
    · exact ⟨a, hcall, hmember⟩
  | exit a hcall hmember heq =>
    subst heq
    exact ⟨l, h.same ⟨rfl, rfl⟩ rfl (by cases call <;> simp_all [Call.exits, Call.enters])⟩
  | cool a cooldown hcall heq =>
    subst heq
    exact ⟨l, h.same ⟨rfl, rfl⟩ rfl (by cases call <;> simp_all [Call.cools, Call.enters])⟩
  | accrue a amount hslash henters hamount heq =>
    subst heq
    exact ⟨l, h.same ⟨rfl, rfl⟩ rfl (by simp [henters])⟩
  | slash a amount hcall heq =>
    subst heq
    exact ⟨l, h.same ⟨rfl, rfl⟩ rfl (by cases call <;> simp_all [Call.slashes, Call.enters])⟩
  | quiet henters hsame hrevoked hcooldown hreputation =>
    exact ⟨l, h.same hsame.toSameList hsame.member henters⟩

theorem SbtRun.roster (hrun : SbtRun registry log s) (dao_id : Nat) :
    ∃ l, Roster dao_id log (s.daos dao_id) l := by
  refine Run.invariant_log (P := fun log s => ∃ l, Roster dao_id log (s.daos dao_id) l) ⟨[], ?_⟩
    (fun log s call s' hr h hs => ?_) hrun
  · exact ⟨fun _ => rfl, rfl, by simp [constructor], by simp [constructor], by simp⟩
  · obtain ⟨l, hl⟩ := h
    exact (step_effect hs dao_id).roster hl

/-! ## The list -/

theorem Roster.enumerated_iff (h : Roster dao_id log (s.daos dao_id) l) : Enumerated dao_id log s ↔ l.Nodup := by
  have hat : ∀ i, get_member_at_index s dao_id i = l[i]? := h.at_index
  have hcount : get_member_count s dao_id = l.length := h.count
  rw [List.nodup_iff_getElem?_ne_getElem?]
  constructor
  · intro henumerated i j hlt hj
    rw [← hat, ← hat]
    exact henumerated.distinct i j hlt (by rwa [hcount])
  · intro hdistinct
    refine ⟨fun i hi => ?_, fun i j hlt hj => ?_, fun a => ?_⟩
    · rw [hcount] at hi
      rw [hat, List.getElem?_eq_getElem hi]
      simp
    · rw [hat, hat]
      exact hdistinct i j hlt (by rwa [hcount] at hj)
    · rw [← h.entered, ← h.mem, List.mem_iff_getElem?]
      constructor
      · rintro ⟨i, -, hi⟩
        exact ⟨i, by rw [← hat, hi]⟩
      · rintro ⟨i, hi⟩
        obtain ⟨hlt, -⟩ := List.getElem?_eq_some_iff.mp hi
        exact ⟨i, by rwa [hcount], by rw [hat, hi]⟩

/-- In every reachable state and for every DAO, the list of members is dense, without repetition, and of the addresses
that ever entered, if and only if the registry has not minted to an address with a member entry. -/
theorem members_enumerated_iff (hrun : SbtRun registry log s) (dao_id : Nat) :
    Enumerated dao_id log s ↔ ∀ e ∈ log, ¬ Remints dao_id e := by
  obtain ⟨l, hl⟩ := hrun.roster dao_id
  rw [hl.enumerated_iff, hl.nodup]

end

theorem members_enumerated_iff_for_a_rejoin : ∃ log s, SbtRun 0 log s ∧
    (Enumerated 0 log s ↔ ∀ e ∈ log, ¬ Remints 0 e) ∧ get_member_count s 0 = 1 := by
  obtain ⟨log, s, hrun, htest⟩ := exists_run (r := 0) [.mint 0 1 0 none, .revoke 0 1 0, .self_join 0 1 none]
    (fun _ s => decide (get_member_count s 0 = 1)) (by decide +kernel)
  exact ⟨log, s, hrun, members_enumerated_iff hrun 0, of_decide_eq_true htest⟩

/-- The registry mints to a revoked address, which is then on the list twice. -/
theorem reminted_member_listed_twice : ∃ log s, SbtRun 0 log s ∧ ¬ Enumerated 0 log s ∧
    get_member_at_index s 0 0 = some 1 ∧ get_member_at_index s 0 1 = some 1 := by
  obtain ⟨log, s, hrun, htest⟩ := exists_run (r := 0) [.mint 0 1 0 none, .revoke 0 1 0, .mint_from_registry 0 1]
    (fun _ s => decide (get_member_count s 0 = 2 ∧ get_member_at_index s 0 0 = some 1 ∧
      get_member_at_index s 0 1 = some 1)) (by decide +kernel)
  obtain ⟨hcount, hfirst, hsecond⟩ := of_decide_eq_true htest
  refine ⟨log, s, hrun, fun henumerated => ?_, hfirst, hsecond⟩
  exact henumerated.distinct 0 1 (by decide) (by rw [hcount]; decide) (hfirst.trans hsecond.symm)

end ZkVote.Sbt

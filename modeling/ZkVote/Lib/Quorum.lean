import Mathlib.Data.Finset.Card
import Mathlib.Tactic.Common

/-!
# Quorums

How many of those who signed still count, when who counts may have changed since.
-/

namespace Lib

variable {α : Type} [DecidableEq α]

/-- The distinct signers that count. -/
def backers (signatures : List α) (counts : α → Bool) : Finset α :=
  signatures.toFinset.filter fun a => counts a = true

/-- The signatures of those that do not count. -/
def lapsed (signatures : List α) (counts : α → Bool) : Nat := (signatures.filter fun a => !counts a).length

variable {signatures : List α} {counts : α → Bool} {a : α}

@[simp] theorem mem_backers : a ∈ backers signatures counts ↔ a ∈ signatures ∧ counts a = true := by
  simp [backers]

theorem card_backers (h : signatures.Nodup) : (backers signatures counts).card = (signatures.filter counts).length := by
  have hfilter : backers signatures counts = (signatures.filter counts).toFinset := by
    ext a
    simp
  rw [hfilter, List.toFinset_card_of_nodup (h.filter _)]

theorem card_backers_add_lapsed (h : signatures.Nodup) :
    (backers signatures counts).card + lapsed signatures counts = signatures.length := by
  rw [card_backers h, lapsed]
  simp [signatures.length_eq_length_filter_add counts]

/-- The quorum holds if there are enough signatures to spare for the lapsed ones. -/
theorem quorum_iff (h : signatures.Nodup) {n : Nat} :
    n ≤ (backers signatures counts).card ↔ lapsed signatures counts + n ≤ signatures.length := by
  have hsum : (backers signatures counts).card + lapsed signatures counts = signatures.length :=
    card_backers_add_lapsed h
  omega

/-- A list of members, without repetition, is as long as their number allows. -/
theorem exists_nodup_iff {members : List α} {n : Nat} :
    (∃ l : List α, l.Nodup ∧ (∀ a ∈ l, a ∈ members) ∧ n ≤ l.length) ↔ n ≤ members.toFinset.card := by
  constructor
  · rintro ⟨l, hnodup, hmem, hn⟩
    rw [← List.toFinset_card_of_nodup hnodup] at hn
    refine hn.trans (Finset.card_le_card fun a ha => ?_)
    rw [List.mem_toFinset] at ha ⊢
    exact hmem a ha
  · intro hn
    exact ⟨members.dedup, members.nodup_dedup, fun a ha => List.mem_dedup.mp ha,
      by rwa [← List.card_toFinset]⟩

end Lib

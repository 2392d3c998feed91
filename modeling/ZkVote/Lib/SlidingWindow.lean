import Mathlib.Order.Lattice
import Mathlib.Tactic.Common

/-!
# Sliding windows

A list of times, from the front of which what is before a cutoff is dropped now and then, tells what the
complete list has from a cutoff on.
-/

namespace Lib.SlidingWindow

variable {α : Type} [LinearOrder α] {kept history : List α} {cutoff cutoff' x : α}

/-- What is in the window that the cutoff opens. -/
def since (cutoff : α) (ts : List α) : List α := ts.filter fun t => cutoff ≤ t

theorem length_since_reverse (ts : List α) : (since cutoff ts.reverse).length = (since cutoff ts).length := by
  unfold since
  rw [List.filter_reverse, List.length_reverse]

theorem dropWhile_dropWhile (h : cutoff ≤ cutoff') (ts : List α) :
    (ts.dropWhile fun t => decide (t < cutoff)).dropWhile (fun t => decide (t < cutoff')) =
      ts.dropWhile fun t => decide (t < cutoff') := by
  induction ts with
  | nil => rfl
  | cons t ts ih =>
    by_cases ht : t < cutoff
    · have ht' : t < cutoff' := ht.trans_le h
      rw [List.dropWhile_cons_of_pos (by simpa using ht), List.dropWhile_cons_of_pos (by simpa using ht'), ih]
    · rw [List.dropWhile_cons_of_neg (by simpa using ht)]

/-- Once there is a time from the cutoff on, all that follow are. -/
def Steady (cutoff : α) (ts : List α) : Prop := ts.Pairwise fun t t' => cutoff ≤ t → cutoff ≤ t'

/-- What is kept tells the windows that open at the bound or later, of a history that is steady there. -/
def Keeps (kept history : List α) (bound : α) : Prop :=
  ∀ cutoff ≥ bound, Steady cutoff history → kept.dropWhile (fun t => decide (t < cutoff)) = since cutoff history

namespace Keeps

variable {bound : α}

theorem nil : Keeps [] [] bound := fun _ _ _ => rfl

theorem dropWhile (h : Keeps kept history bound) (hle : cutoff ≤ bound) :
    Keeps (kept.dropWhile fun t => decide (t < cutoff)) history bound := by
  intro cutoff' hge hsteady
  rw [dropWhile_dropWhile (hle.trans hge), h cutoff' hge hsteady]

theorem append (h : Keeps kept history bound) : Keeps (kept ++ [x]) (history ++ [x]) bound := by
  intro cutoff hge hsteady
  unfold Steady at hsteady
  rw [List.pairwise_append] at hsteady
  obtain ⟨hhistory, -, hlast⟩ := hsteady
  have hkept := h cutoff hge hhistory
  rw [List.dropWhile_append, hkept]
  unfold since
  rw [List.filter_append]
  by_cases hempty : history.filter (fun t => cutoff ≤ t) = []
  · rw [hempty]
    by_cases hx : x < cutoff
    · have hout : ¬ cutoff ≤ x := not_le.mpr hx
      simp [hx, hout]
    · simp [hx, not_lt.mp hx]
  · obtain ⟨t, ht⟩ := List.exists_mem_of_ne_nil _ hempty
    obtain ⟨hmem, hin⟩ := List.mem_filter.mp ht
    have hx : cutoff ≤ x := hlast t hmem x List.mem_cons_self (by simpa using hin)
    simp [hempty, hx]

end Keeps

end Lib.SlidingWindow

import Mathlib.Data.List.Basic
import Mathlib.Logic.Function.Basic

/-!
# Histories

A list of dated entries, the oldest first, and the entry that was the latest one at a
given time. A history may lose its oldest entries: it answers for the times since the first it kept.
-/

namespace Lib.History

variable {α : Type} {time : α → Nat} {l init : List α} {x new : α} {n t : Nat}

/-- The last entry that is not after the time. -/
def latest (time : α → Nat) (t : Nat) (l : List α) : Option α := (l.filter fun x => time x ≤ t).getLast?

/-- The history reaches back to the time. -/
def Kept (time : α → Nat) (l : List α) (t : Nat) : Prop := ∀ x, l.head? = some x → time x ≤ t

def Ascending (time : α → Nat) (l : List α) : Prop := l.Pairwise fun x y => time x < time y

theorem Ascending.of_concat (h : Ascending time (init ++ [x])) :
    Ascending time init ∧ ∀ y ∈ init, time y < time x := by
  rw [Ascending, List.pairwise_append] at h
  exact ⟨h.1, fun y hy => h.2.2 y hy x (List.mem_singleton_self x)⟩

theorem Ascending.concat (h : Ascending time init) (hlt : ∀ y ∈ init, time y < time x) :
    Ascending time (init ++ [x]) := by
  rw [Ascending, List.pairwise_append]
  refine ⟨h, List.pairwise_singleton _ x, fun y hy z hz => ?_⟩
  rw [List.mem_singleton.mp hz]
  exact hlt y hy

theorem Ascending.drop (h : Ascending time l) (k : Nat) : Ascending time (l.drop k) :=
  List.Pairwise.sublist (List.drop_sublist k l) h

theorem latest_concat_of_lt (h : t < time x) : latest time t (init ++ [x]) = latest time t init := by
  unfold latest
  rw [List.filter_append, List.filter_singleton, decide_eq_false (by omega)]
  simp

theorem latest_of_le (h : ∀ x ∈ l, time x ≤ t) : latest time t l = l.getLast? := by
  unfold latest
  rw [List.filter_eq_self.mpr fun x hx => decide_eq_true (h x hx)]

theorem latest_of_split {k : Nat} (hbefore : ∀ i x, i < k → l[i]? = some x → time x ≤ t)
    (hafter : ∀ i x, k ≤ i → l[i]? = some x → t < time x) : latest time t l = (l.take k).getLast? := by
  have htake : (l.take k).filter (fun x => time x ≤ t) = l.take k := by
    refine List.filter_eq_self.mpr fun x hx => decide_eq_true ?_
    obtain ⟨i, hi⟩ := List.mem_iff_getElem?.mp hx
    rw [List.getElem?_take] at hi
    split at hi
    · rename_i hlt
      exact hbefore i x hlt hi
    · cases hi
  have hdrop : (l.drop k).filter (fun x => time x ≤ t) = [] := by
    refine List.filter_eq_nil_iff.mpr fun x hx hle => ?_
    obtain ⟨i, hi⟩ := List.mem_iff_getElem?.mp hx
    rw [List.getElem?_drop] at hi
    have hlt := hafter (k + i) x (Nat.le_add_right k i) hi
    have hle := of_decide_eq_true hle
    omega
  have hfilter : l.filter (fun x => time x ≤ t) = l.take k := by
    conv_lhs => rw [← List.take_append_drop k l]
    rw [List.filter_append, htake, hdrop, List.append_nil]
  rw [latest, hfilter]

theorem Kept.of_drop (hasc : Ascending time l) {k : Nat} (hne : l.drop k ≠ [])
    (h : Kept time (l.drop k) t) : Kept time l t ∧ latest time t (l.drop k) = latest time t l := by
  obtain ⟨y, rest, hdrop⟩ := List.exists_cons_of_ne_nil hne
  have hsplit : l.take k ++ y :: rest = l := by rw [← hdrop, List.take_append_drop]
  have hy : time y ≤ t := h y (by rw [hdrop]; rfl)
  refine ⟨fun x hx => ?_, ?_⟩
  · rw [← hsplit] at hasc hx
    cases htake : l.take k with
    | nil =>
      rw [htake] at hx
      cases hx
      exact hy
    | cons z zs =>
      rw [htake] at hasc hx
      have hzx : z = x := Option.some.inj hx
      have hlt := (List.pairwise_append.mp hasc).2.2 z (List.mem_cons_self ..) y (List.mem_cons_self ..)
      rw [hzx] at hlt
      omega
  · rw [latest, latest, hdrop]
    conv_rhs => rw [← hsplit]
    rw [List.filter_append, List.getLast?_append_of_ne_nil]
    simp [hy]

/-- Only the last entry, which is after the time, has been replaced. -/
theorem Kept.of_replace (hx : t < time x) (hnew : t < time new) (h : Kept time (init ++ [new]) t) :
    Kept time (init ++ [x]) t ∧ latest time t (init ++ [new]) = latest time t (init ++ [x]) := by
  refine ⟨?_, by rw [latest_concat_of_lt hnew, latest_concat_of_lt hx]⟩
  cases init with
  | nil =>
    have hle := h new rfl
    omega
  | cons y ys => exact h

theorem Kept.of_concat (hnew : t < time new) (h : Kept time (init ++ [new]) t) :
    init ≠ [] ∧ Kept time init t ∧ latest time t (init ++ [new]) = latest time t init := by
  cases init with
  | nil =>
    have hle := h new rfl
    omega
  | cons y ys => exact ⟨by simp, h, latest_concat_of_lt hnew⟩

end Lib.History

/-!
## Records

A table of records beside a history. For each key the history says that there is no record, or
what the record must say. A change of one record leaves the others as they were.
-/

namespace Lib

variable {κ ρ : Type}

structure Records (table : κ → Option ρ) (Absent : κ → Prop) (Logged : κ → ρ → Prop) : Prop where
  absent : ∀ k, table k = none → Absent k
  logged : ∀ k r, table k = some r → Logged k r

namespace Records

variable {table : κ → Option ρ} {Absent Absent' : κ → Prop} {Logged Logged' : κ → ρ → Prop}

theorem empty (h : ∀ k, Absent k) : Records (fun _ => none) Absent Logged := ⟨fun k _ => h k, nofun⟩

/-- The history goes on, the table stays. -/
theorem mono (h : Records table Absent Logged) (habsent : ∀ k, Absent k → Absent' k)
    (hlogged : ∀ k r, Logged k r → Logged' k r) : Records table Absent' Logged' :=
  ⟨fun k hk => habsent k (h.absent k hk), fun k r hr => hlogged k r (h.logged k r hr)⟩

/-- The history goes on with one key, whose record is written. -/
theorem update [DecidableEq κ] {k : κ} {r : ρ} (h : Records table Absent Logged) (hnew : Logged' k r)
    (habsent : ∀ k', k' ≠ k → Absent k' → Absent' k') (hlogged : ∀ k', k' ≠ k → ∀ r', Logged k' r' → Logged' k' r') :
    Records (Function.update table k (some r)) Absent' Logged' := by
  refine ⟨fun k' hk' => ?_, fun k' r' hr' => ?_⟩
  all_goals by_cases hkey : k' = k
  · subst hkey
    rw [Function.update_self] at hk'
    cases hk'
  · rw [Function.update_of_ne hkey] at hk'
    exact habsent k' hkey (h.absent k' hk')
  · subst hkey
    rw [Function.update_self] at hr'
    cases hr'
    exact hnew
  · rw [Function.update_of_ne hkey] at hr'
    exact hlogged k' hkey r' (h.logged k' r' hr')

end Records
end Lib

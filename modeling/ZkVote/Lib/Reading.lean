import Mathlib.Data.List.Basic
import ZkVote.Lib.Bytes
import ZkVote.Lib.Outcome

/-!
# Reading from byte strings

An index out of range is `none`. A call that is put together from such reads
traps unless every one of them is in range.
-/

namespace Lib

variable {α β ε : Type}

/-! ## Slices -/

def slice (b : Bytes) (lo hi : Nat) : Option Bytes :=
  if lo ≤ hi ∧ hi ≤ b.length then some ((b.drop lo).take (hi - lo)) else none

@[simp] theorem slice_eq_some {b x : Bytes} {lo hi : Nat} :
    slice b lo hi = some x ↔ (lo ≤ hi ∧ hi ≤ b.length) ∧ (b.drop lo).take (hi - lo) = x := by
  unfold slice
  split <;> simp [*]

/-- The piece between what stands before and behind it. -/
theorem slice_append {b x : Bytes} {lo hi : Nat} (pre post : Bytes) (hb : b = pre ++ (x ++ post)) (hlo : pre.length = lo)
    (hhi : lo + x.length = hi) : slice b lo hi = some x := by
  subst hb hlo hhi
  rw [slice_eq_some]
  refine ⟨⟨by omega, by simp⟩, ?_⟩
  rw [List.drop_left, Nat.add_sub_cancel_left, List.take_left]

/-- Lowest byte first. -/
def fromLe (b : Bytes) : Nat := fromBeBytes b.reverse

/-! ## Lists of reads -/

theorem mapM_eq_some_iff {f : α → Option β} {l : List α} {ys : List β} :
    l.mapM f = some ys ↔ l.map f = ys.map some := by
  induction l generalizing ys with
  | nil => cases ys <;> simp
  | cons x l ih =>
    rw [List.mapM_cons]
    cases hx : f x with
    | none => cases ys <;> simp [hx]
    | some y =>
      cases ys with
      | nil => cases l.mapM f <;> simp
      | cons y' ys =>
        rw [List.map_cons, List.map_cons, hx, List.cons.injEq, Option.some.injEq, ← ih]
        simp only [Option.bind_eq_bind, Option.bind_some, Option.pure_def, Option.bind_eq_some_iff,
          Option.some.injEq, List.cons.injEq]
        constructor
        · rintro ⟨zs, hzs, rfl, rfl⟩
          exact ⟨rfl, hzs⟩
        · rintro ⟨rfl, hzs⟩
          exact ⟨ys, hzs, rfl, rfl⟩

theorem length_of_mapM {f : α → Option β} {l : List α} {ys : List β} (h : l.mapM f = some ys) :
    ys.length = l.length := by
  have hmap := congrArg List.length (mapM_eq_some_iff.mp h)
  simpa using hmap.symm

theorem mapM_isSome_iff {f : α → Option β} {l : List α} : (l.mapM f).isSome ↔ ∀ x ∈ l, (f x).isSome := by
  induction l with
  | nil => simp
  | cons x l ih =>
    rw [List.mapM_cons, List.forall_mem_cons, ← ih]
    cases f x with
    | none => simp
    | some y => cases l.mapM f <;> simp

theorem forall₂_of_mapM {f : α → Except ε β} {l : List α} {ys : List β} (h : l.mapM f = .ok ys) :
    List.Forall₂ (fun x y => f x = .ok y) l ys := by
  induction l generalizing ys with
  | nil =>
    cases h
    exact .nil
  | cons x l ih =>
    rw [List.mapM_cons] at h
    cases hx : f x with
    | error e =>
      rw [hx] at h
      cases h
    | ok y =>
      cases hrest : l.mapM f with
      | error e =>
        rw [hx, hrest] at h
        cases h
      | ok rest =>
        rw [hx, hrest] at h
        cases h
        exact .cons hx (ih hrest)

theorem mem_mapM_iff {f : α → Except ε β} {l : List α} {ys : List β} (h : l.mapM f = .ok ys) {y : β} :
    y ∈ ys ↔ ∃ x ∈ l, f x = .ok y := by
  have hall := forall₂_of_mapM h
  clear h
  induction hall with
  | nil => simp
  | @cons x y' l ys hx _ ih =>
    simp only [List.mem_cons, ih, exists_eq_or_imp, hx, Except.ok.injEq, eq_comm (a := y')]

theorem exists_mapM_iff {f : α → Except ε β} {l : List α} :
    (∃ ys, l.mapM f = .ok ys) ↔ ∀ x ∈ l, ∃ y, f x = .ok y := by
  induction l with
  | nil => exact iff_of_true ⟨[], rfl⟩ (List.forall_mem_nil _)
  | cons x l ih =>
    rw [List.forall_mem_cons, ← ih, List.mapM_cons]
    cases hx : f x with
    | error e => exact iff_of_false (fun ⟨_, h⟩ => by cases h) fun ⟨⟨_, h⟩, _⟩ => by cases h
    | ok y =>
      cases hrest : l.mapM f with
      | error e => exact iff_of_false (fun ⟨_, h⟩ => by cases h) fun ⟨_, _, h⟩ => by cases h
      | ok ys => exact iff_of_true ⟨_, rfl⟩ ⟨⟨y, rfl⟩, ys, rfl⟩

theorem bind_isSome_iff {x : Option α} {f : α → Option β} :
    (x >>= f).isSome ↔ ∃ a, x = some a ∧ (f a).isSome := by
  cases x <;> simp

/-! ## Calls that do not trap -/

namespace Outcome

/-- The call returns, with a value or with an error. -/
def Safe (x : Outcome ε α) : Prop := x ≠ .error .trap

@[simp] theorem safe_ok (a : α) : Safe (.ok a : Outcome ε α) := by simp [Safe]

@[simp] theorem safe_pure (a : α) : Safe (pure a : Outcome ε α) := safe_ok a

@[simp] theorem safe_fail (e : ε) : Safe (fail e : Outcome ε α) := by simp [Safe, fail]

@[simp] theorem safe_require {p : Prop} [Decidable p] {e : ε} : Safe (require p e) := by
  unfold require
  split <;> simp

@[simp] theorem safe_orPanic {o : Option α} {e : ε} : Safe (orPanic o e) := by
  cases o <;> simp [orPanic]

@[simp] theorem safe_expect {o : Option α} : Safe (expect o : Outcome ε α) ↔ o.isSome := by
  cases o <;> simp [expect, trap, Safe]

@[simp] theorem safe_bind {x : Outcome ε α} {f : α → Outcome ε β} :
    Safe (x >>= f) ↔ Safe x ∧ ∀ a, x = .ok a → Safe (f a) := by
  cases x with
  | ok a => simp [Safe]
  | error p => simp [Safe]

end Outcome
end Lib

/-!
## Texts with separators

What stands before the first separator, or behind the last one, can be read off.
-/

namespace Lib

variable {α : Type} [BEq α] [LawfulBEq α] {c : α} {xs xs' ys ys' : List α}

theorem append_cons_inj_left (hxs : c ∉ xs) (hxs' : c ∉ xs') (h : xs ++ c :: ys = xs' ++ c :: ys') :
    xs = xs' ∧ ys = ys' := by
  have hsplit := congrArg (List.splitOn c) h
  rw [List.splitOn_append_cons_self_of_not_mem hxs, List.splitOn_append_cons_self_of_not_mem hxs'] at hsplit
  obtain rfl : xs = xs' := (List.cons.inj hsplit).1
  exact ⟨rfl, (List.cons.inj (List.append_cancel_left h)).2⟩

theorem append_cons_inj_right (hys : c ∉ ys) (hys' : c ∉ ys') (h : xs ++ c :: ys = xs' ++ c :: ys') :
    xs = xs' ∧ ys = ys' := by
  have hreverse := congrArg List.reverse h
  rw [List.reverse_append, List.reverse_append, List.reverse_cons, List.reverse_cons, List.append_assoc,
    List.append_assoc, List.singleton_append, List.singleton_append] at hreverse
  obtain ⟨hback, hfront⟩ := append_cons_inj_left (by simpa using hys) (by simpa using hys') hreverse
  exact ⟨List.reverse_injective hfront, List.reverse_injective hback⟩

theorem exists_first_part (c : α) (xs : List α) :
    ∃ first rest, xs.splitOn c = first :: rest ∧ c ∉ first ∧ first.length ≤ xs.length := by
  by_cases hmem : c ∈ xs
  · obtain ⟨first, rest, rfl, hfirst⟩ := List.eq_append_cons_of_mem hmem
    refine ⟨first, rest.splitOn c, List.splitOn_append_cons_self_of_not_mem hfirst rest, hfirst, ?_⟩
    rw [List.length_append]
    omega
  · exact ⟨xs, [], List.splitOn_eq_singleton hmem, hmem, Nat.le_refl _⟩

end Lib

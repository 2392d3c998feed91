import Mathlib.Data.List.Induction
import Mathlib.Tactic.Common

/-!
# Storage classes

A key has an entry of its own in each class of storage. Extending the TTL of an entry
that is not there is an error, whatever the other classes hold.
-/

namespace Lib

inductive StorageClass where
  | Instance | Persistent | Temporary
  deriving DecidableEq, Repr

/-- The keys that have an entry. -/
abbrev Entries (κ : Type) := StorageClass → κ → Bool

inductive Access (κ : Type) where
  | set (storage : StorageClass) (key : κ)
  | extend_ttl (storage : StorageClass) (key : κ)
  deriving DecidableEq

variable {κ : Type} [DecidableEq κ] {entries : Entries κ} {storage : StorageClass} {key : κ} {as bs : List (Access κ)}

def Entries.set (entries : Entries κ) (storage : StorageClass) (key : κ) : Entries κ :=
  fun storage' key' => decide (storage' = storage ∧ key' = key) || entries storage' key'

@[simp] theorem Entries.set_eq_true {storage' : StorageClass} {key' : κ} :
    entries.set storage key storage' key' = true ↔
      storage' = storage ∧ key' = key ∨ entries storage' key' = true := by
  simp [Entries.set]

/-- The entries after some accesses. -/
def Entries.after (entries : Entries κ) : List (Access κ) → Entries κ
  | [] => entries
  | .set storage key :: as => (entries.set storage key).after as
  | .extend_ttl _ _ :: as => entries.after as

/-- Each extension finds its entry. -/
def Survives (entries : Entries κ) : List (Access κ) → Prop
  | [] => True
  | .set storage key :: as => Survives (entries.set storage key) as
  | .extend_ttl storage key :: as => entries storage key = true ∧ Survives entries as

@[simp] theorem survives_nil : Survives entries [] := trivial
@[simp] theorem survives_set : Survives entries (.set storage key :: as) ↔ Survives (entries.set storage key) as := .rfl
@[simp] theorem survives_extend_ttl :
    Survives entries (.extend_ttl storage key :: as) ↔ entries storage key = true ∧ Survives entries as := .rfl

theorem Entries.after_eq_true :
    entries.after as storage key = true ↔ entries storage key = true ∨ .set storage key ∈ as := by
  induction as generalizing entries with
  | nil => simp [Entries.after]
  | cons a as ih =>
    cases a with
    | set storage' key' =>
      rw [Entries.after, ih, Entries.set_eq_true, List.mem_cons, Access.set.injEq]
      tauto
    | extend_ttl storage' key' =>
      rw [Entries.after, ih, List.mem_cons]
      simp

theorem survives_append : Survives entries (as ++ bs) ↔ Survives entries as ∧ Survives (entries.after as) bs := by
  induction as generalizing entries with
  | nil => simp [Entries.after]
  | cons a as ih =>
    cases a with
    | set storage key => exact ih
    | extend_ttl storage key =>
      rw [List.cons_append, survives_extend_ttl, survives_extend_ttl, ih, and_assoc]
      rfl

/-- What is extended was there from the start, or has been set on the way. -/
theorem survives_iff : Survives entries as ↔ ∀ before storage key after,
    as = before ++ .extend_ttl storage key :: after → entries storage key = true ∨ .set storage key ∈ before := by
  constructor
  · rintro hsafe before storage key after rfl
    rw [survives_append, survives_extend_ttl, Entries.after_eq_true] at hsafe
    exact hsafe.2.1
  · intro hfound
    induction as using List.reverseRecOn with
    | nil => trivial
    | append_singleton as a ih =>
      rw [survives_append]
      constructor
      · apply ih
        rintro before storage key after rfl
        exact hfound before storage key (after ++ [a]) (by simp)
      · cases a with
        | set storage key => trivial
        | extend_ttl storage key =>
          rw [survives_extend_ttl, Entries.after_eq_true]
          exact ⟨hfound as storage key [] rfl, trivial⟩

theorem Survives.mono {entries' : Entries κ} (h : Survives entries as)
    (hle : ∀ storage key, entries storage key = true → entries' storage key = true) : Survives entries' as := by
  rw [survives_iff] at h ⊢
  exact fun before storage key after heq => (h before storage key after heq).imp_left (hle storage key)

theorem Survives.append (has : Survives entries as) (hbs : Survives entries bs) : Survives entries (as ++ bs) :=
  survives_append.mpr ⟨has, hbs.mono fun _ _ h => Entries.after_eq_true.mpr (.inl h)⟩

end Lib

import Mathlib.Algebra.Group.Int.Defs
import Mathlib.Algebra.Group.Nat.Defs
import Mathlib.Tactic.Common

/-!
# Calls that may panic

A contract call returns a value, or panics and leaves no trace. These are the
guards of such a call and the rules that take a successful one apart.
-/

namespace Lib

/-- A panic with an error code of the contract, or a host trap. -/
inductive Panic (ε : Type) where
  | error (e : ε)
  | trap
  deriving DecidableEq, Repr

abbrev Outcome (ε α : Type) := Except (Panic ε) α

namespace Outcome

variable {ε α β : Type}

def fail (e : ε) : Outcome ε α := .error (.error e)

/-- `expect`, `unwrap`, an overflow, a missing authorisation. -/
def trap : Outcome ε α := .error .trap

def require (p : Prop) [Decidable p] (e : ε) : Outcome ε Unit :=
  if p then .ok () else fail e

def trapUnless (p : Prop) [Decidable p] : Outcome ε Unit :=
  if p then .ok () else trap

/-- `unwrap_or_else(|| panic_with_error!(..))`. -/
def orPanic (o : Option α) (e : ε) : Outcome ε α :=
  match o with
  | some a => .ok a
  | none => fail e

def expect (o : Option α) : Outcome ε α :=
  match o with
  | some a => .ok a
  | none => trap

/-! ## A successful call, taken apart -/

@[simp] theorem require_eq_ok {p : Prop} [Decidable p] {e : ε} {u : Unit} :
    require p e = .ok u ↔ p := by
  unfold require fail
  split <;> simp [*]

theorem require_of {p : Prop} [Decidable p] {e : ε} (h : p) : require p e = .ok () := if_pos h

theorem require_of_not {p : Prop} [Decidable p] {e : ε} (h : ¬p) : require p e = fail e := if_neg h

@[simp] theorem trapUnless_eq_ok {p : Prop} [Decidable p] {u : Unit} :
    (trapUnless p : Outcome ε Unit) = .ok u ↔ p := by
  unfold trapUnless trap
  split <;> simp [*]

@[simp] theorem orPanic_eq_ok {o : Option α} {e : ε} {a : α} :
    orPanic o e = .ok a ↔ o = some a := by
  cases o <;> simp [orPanic, fail]

@[simp] theorem expect_eq_ok {o : Option α} {a : α} :
    (expect o : Outcome ε α) = .ok a ↔ o = some a := by
  cases o <;> simp [expect, trap]

@[simp] theorem fail_ne_ok {e : ε} {a : α} : (fail e : Outcome ε α) ≠ .ok a := by
  simp [fail]

@[simp] theorem trap_ne_ok {a : α} : (trap : Outcome ε α) ≠ .ok a := by
  simp [trap]

@[simp] theorem pure_eq_ok {a b : α} : (pure a : Outcome ε α) = .ok b ↔ a = b := by
  simp [pure, Except.pure]

@[simp] theorem bind_eq_ok {x : Outcome ε α} {f : α → Outcome ε β} {b : β} :
    (x >>= f) = .ok b ↔ ∃ a, x = .ok a ∧ f a = .ok b := by
  cases x <;> simp [bind, Except.bind]

@[simp] theorem map_eq_ok {x : Outcome ε α} {f : α → β} {b : β} :
    f <$> x = .ok b ↔ ∃ a, x = .ok a ∧ f a = b := by
  cases x <;> simp [Functor.map, Except.map]

@[simp] theorem ite_eq_ok {p : Prop} [Decidable p] {x y : Outcome ε α} {a : α} :
    (if p then x else y) = .ok a ↔ (p ∧ x = .ok a) ∨ (¬ p ∧ y = .ok a) := by
  split <;> simp [*]

@[simp] theorem toOption_eq_some {x : Outcome ε α} {a : α} : x.toOption = some a ↔ x = .ok a := by
  cases x <;> simp [Except.toOption]

@[simp] theorem ok_bind (a : α) (f : α → Outcome ε β) : (.ok a : Outcome ε α) >>= f = f a := rfl

@[simp] theorem error_bind (p : Panic ε) (f : α → Outcome ε β) :
    (.error p : Outcome ε α) >>= f = .error p := rfl

/-- Whether the call succeeds. -/
def isOk : Outcome ε α → Bool
  | .ok _ => true
  | .error _ => false

@[simp] theorem isOk_iff {x : Outcome ε α} : x.isOk = true ↔ ∃ a, x = .ok a := by
  cases x <;> simp [isOk]

/-! ## An error that a call does not end in -/

theorem bind_ne_fail {x : Outcome ε α} {f : α → Outcome ε β} {e : ε} (hx : x ≠ fail e) (hf : ∀ a, f a ≠ fail e) :
    (x >>= f) ≠ fail e := by
  cases x with
  | ok a => exact hf a
  | error p =>
    intro h
    exact hx (congrArg Except.error (Except.error.inj h))

theorem require_ne_fail {p : Prop} [Decidable p] {e e' : ε} (h : p ∨ e ≠ e') : require p e ≠ fail e' := by
  unfold require fail
  split
  · simp
  · next hp => simpa using h.resolve_left hp

theorem orPanic_ne_fail {o : Option α} {e e' : ε} (h : e ≠ e') : orPanic o e ≠ fail e' := by
  cases o <;> simp [orPanic, fail, h]

/-! ## Checked arithmetic -/

/-- `checked_add` on an unsigned integer of `w` bits. -/
def checkedAdd (w a b : Nat) : Option Nat :=
  if a + b < 2 ^ w then some (a + b) else none

@[simp] theorem checkedAdd_eq_some {w a b c : Nat} :
    checkedAdd w a b = some c ↔ a + b < 2 ^ w ∧ a + b = c := by
  unfold checkedAdd
  split <;> simp [*]

/-- The value, if a signed integer of `w` bits can hold it. -/
def checkedInt (w : Nat) (a : Int) : Option Int :=
  if -2 ^ (w - 1) ≤ a ∧ a < 2 ^ (w - 1) then some a else none

@[simp] theorem checkedInt_eq_some {w : Nat} {a b : Int} :
    checkedInt w a = some b ↔ (-2 ^ (w - 1) ≤ a ∧ a < 2 ^ (w - 1)) ∧ a = b := by
  unfold checkedInt
  split <;> simp [*]

/-- `saturating_add` on an unsigned integer of `w` bits. -/
def saturatingAdd (w a b : Nat) : Nat := min (a + b) (2 ^ w - 1)

end Outcome
end Lib

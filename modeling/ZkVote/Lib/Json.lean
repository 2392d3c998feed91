import Mathlib.Data.List.Basic

/-!
# Strings in JSON

What is quoted can be told from what follows it. A reader who starts anywhere in a text sees which
characters stand outside the quotes from then on.
-/

namespace Lib.Json

def quotationMark : Char := '\x22'

def backslash : Char := '\x5c'

/-- The letter of a short escape. -/
def short (c : Char) : Option Char :=
  if c = quotationMark then some quotationMark
  else if c = backslash then some backslash
  else if c = '\x08' then some 'b'
  else if c = '\x0c' then some 'f'
  else if c = '\n' then some 'n'
  else if c = '\r' then some 'r'
  else if c = '\t' then some 't'
  else none

def escape (c : Char) : List Char :=
  match short c with
  | some d => [backslash, d]
  | none =>
    if c.toNat < 32 then
      [backslash, 'u', '0', '0', (c.toNat / 16).digitChar, (c.toNat % 16).digitChar]
    else [c]

/-- `JSON.stringify` of a string. -/
def quote (cs : List Char) : List Char := quotationMark :: cs.flatMap escape ++ [quotationMark]

/-! ## Reading back -/

/-- The character of a short escape. -/
def long (d : Char) : Char :=
  if d = 'b' then '\x08'
  else if d = 'f' then '\x0c'
  else if d = 'n' then '\n'
  else if d = 'r' then '\r'
  else if d = 't' then '\t'
  else d

theorem short_eq_some {c d : Char} (h : short c = some d) : long d = c ∧ d ≠ 'u' := by
  unfold short at h
  split_ifs at h <;> cases h <;> subst_vars <;> decide

/-- A character is escaped by a letter or by its number, or stands for itself. -/
inductive Escapes (c : Char) : List Char → Prop
  | letter {d : Char} (h : short c = some d) : Escapes c [backslash, d]
  | number (hlt : c.toNat < 32) :
      Escapes c [backslash, 'u', '0', '0', (c.toNat / 16).digitChar, (c.toNat % 16).digitChar]
  | itself (hquotation : c ≠ quotationMark) (hbackslash : c ≠ backslash) : Escapes c [c]

theorem escape_escapes (c : Char) : Escapes c (escape c) := by
  unfold escape
  cases h : short c with
  | some d => exact .letter h
  | none =>
    dsimp only
    split
    · next hlt => exact .number hlt
    · refine .itself ?_ ?_
      all_goals
        rintro rfl
        cases h

theorem digits_injective : ∀ m n : Fin 32, (m.val / 16).digitChar = (n.val / 16).digitChar →
    (m.val % 16).digitChar = (n.val % 16).digitChar → m = n := by decide

theorem Escapes.inj {c c' : Char} {e e' rest rest' : List Char} (h : Escapes c e) (h' : Escapes c' e')
    (heq : e ++ rest = e' ++ rest') : c = c' ∧ rest = rest' := by
  cases h with
  | letter hd =>
    obtain ⟨rfl, hu⟩ := short_eq_some hd
    cases h' with
    | letter hd' =>
      obtain ⟨rfl, -⟩ := short_eq_some hd'
      simp only [List.cons_append, List.nil_append, List.cons.injEq, true_and] at heq
      exact ⟨congrArg long heq.1, heq.2⟩
    | number => exact absurd (List.cons.inj (List.cons.inj heq).2).1 hu
    | itself _ hbackslash => exact absurd (List.cons.inj heq).1.symm hbackslash
  | number hlt =>
    cases h' with
    | letter hd' => exact absurd (List.cons.inj (List.cons.inj heq).2).1.symm (short_eq_some hd').2
    | number hlt' =>
      simp only [List.cons_append, List.nil_append, List.cons.injEq, true_and] at heq
      have hsame := digits_injective ⟨c.toNat, hlt⟩ ⟨c'.toNat, hlt'⟩ heq.1 heq.2.1
      exact ⟨Char.toNat_inj.mp (Fin.mk.inj hsame), heq.2.2⟩
    | itself _ hbackslash => exact absurd (List.cons.inj heq).1.symm hbackslash
  | itself _ hbackslash =>
    cases h' with
    | letter | number => exact absurd (List.cons.inj heq).1 hbackslash
    | itself => exact List.cons.inj heq

theorem Escapes.head {c : Char} {e : List Char} (h : Escapes c e) (rest rest' : List Char) :
    e ++ rest ≠ quotationMark :: rest' := by
  intro heq
  cases h with
  | letter | number => exact absurd (List.cons.inj heq).1 (by decide)
  | itself hquotation _ => exact hquotation (List.cons.inj heq).1

theorem quote_append_inj {cs cs' rest rest' : List Char} (h : quote cs ++ rest = quote cs' ++ rest') :
    cs = cs' ∧ rest = rest' := by
  simp only [quote, List.cons_append, List.append_assoc, List.cons.injEq, true_and, List.nil_append] at h
  induction cs generalizing cs' with
  | nil =>
    cases cs' with
    | nil => exact ⟨rfl, (List.cons.inj h).2⟩
    | cons c' cs' =>
      rw [List.flatMap_cons, List.append_assoc] at h
      exact absurd h.symm ((escape_escapes c').head _ _)
  | cons c cs ih =>
    cases cs' with
    | nil =>
      rw [List.flatMap_cons, List.append_assoc] at h
      exact absurd h ((escape_escapes c).head _ _)
    | cons c' cs' =>
      rw [List.flatMap_cons, List.flatMap_cons, List.append_assoc, List.append_assoc] at h
      obtain ⟨rfl, hrest⟩ := (escape_escapes c).inj (escape_escapes c') h
      obtain ⟨rfl, rfl⟩ := ih hrest
      exact ⟨rfl, rfl⟩

/-! ## Inside and outside -/

inductive Place where
  | outside | inside | escaped
  deriving DecidableEq

def advance : Place → Char → Place
  | .outside, c => if c = quotationMark then .inside else .outside
  | .inside, c => if c = quotationMark then .outside else if c = backslash then .escaped else .inside
  | .escaped, _ => .inside

/-- Read from the place, only characters that are allowed stand outside the quotes. -/
def Lexes (allowed : Char → Prop) : Place → List Char → Prop
  | _, [] => True
  | p, c :: cs => (p = .outside → c = quotationMark ∨ allowed c) ∧ Lexes allowed (advance p c) cs

variable {allowed : Char → Prop} {p : Place} {cs rest : List Char}

theorem Lexes.suffix (h : Lexes allowed p (cs ++ rest)) : ∃ q, Lexes allowed q rest := by
  induction cs generalizing p with
  | nil => exact ⟨p, h⟩
  | cons c cs ih => exact ih h.2

theorem Lexes.cons {c : Char} (hc : c ≠ quotationMark) (hallowed : allowed c) (h : Lexes allowed .outside cs) :
    Lexes allowed .outside (c :: cs) := by
  refine ⟨fun _ => .inr hallowed, ?_⟩
  rw [advance, if_neg hc]
  exact h

theorem advance_digitChar : ∀ d < 16, advance .inside d.digitChar = .inside := by decide

theorem Lexes.escape (c : Char) (h : Lexes allowed .inside rest) : Lexes allowed .inside (escape c ++ rest) := by
  have hescapes := escape_escapes c
  generalize Json.escape c = e at hescapes
  cases hescapes with
  | letter => exact ⟨nofun, nofun, h⟩
  | number hlt =>
    have hhigh := advance_digitChar (c.toNat / 16) (by omega)
    have hlow := advance_digitChar (c.toNat % 16) (by omega)
    refine ⟨nofun, nofun, nofun, nofun, nofun, ?_⟩
    change Lexes allowed (advance .inside (c.toNat / 16).digitChar) _
    rw [hhigh]
    refine ⟨nofun, ?_⟩
    rw [hlow]
    exact h
  | itself hquotation hbackslash =>
    refine ⟨nofun, ?_⟩
    rw [advance, if_neg hquotation, if_neg hbackslash]
    exact h

theorem Lexes.quote (h : Lexes allowed .outside rest) : Lexes allowed .outside (quote cs ++ rest) := by
  refine ⟨fun _ => .inl rfl, ?_⟩
  change Lexes allowed .inside (cs.flatMap Json.escape ++ [quotationMark] ++ rest)
  rw [List.append_assoc]
  induction cs with
  | nil => exact ⟨nofun, h⟩
  | cons c cs ih =>
    rw [List.flatMap_cons, List.append_assoc]
    exact ih.escape c

end Lib.Json

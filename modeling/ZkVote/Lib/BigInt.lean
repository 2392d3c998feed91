import ZkVote.Lib.Decimal
import ZkVote.Lib.Bytes

/-!
# JavaScript's big integers

How a text is read as one, and how one is written in base 16.
-/

namespace Lib

/-! ## Reading -/

/-- `WhiteSpace` and `LineTerminator`. -/
def isWhiteSpace (c : Char) : Bool :=
  c.toNat ∈ [0x9, 0xA, 0xB, 0xC, 0xD, 0x20, 0xA0, 0x1680, 0x2028, 0x2029, 0x202F, 0x205F, 0x3000, 0xFEFF] ∨
    (0x2000 ≤ c.toNat ∧ c.toNat ≤ 0x200A)

def trim (cs : List Char) : List Char :=
  ((cs.dropWhile isWhiteSpace).reverse.dropWhile isWhiteSpace).reverse

/-- Digits of the base only, and at least one. -/
def readDigits (base : Nat) (cs : List Char) : Option Nat :=
  if cs = [] then none
  else cs.foldlM (fun acc c => do
    let digit ← hexValue c
    if digit < base then some (acc * base + digit) else none) 0

/-- `BigInt(text)`; `none` where it throws. A base excludes a sign, and no digits at all are zero. -/
def readBigInt (text : String) : Option Int :=
  match trim text.toList with
  | [] => some 0
  | '0' :: 'x' :: cs => (readDigits 16 cs).map Int.ofNat
  | '0' :: 'X' :: cs => (readDigits 16 cs).map Int.ofNat
  | '0' :: 'o' :: cs => (readDigits 8 cs).map Int.ofNat
  | '0' :: 'O' :: cs => (readDigits 8 cs).map Int.ofNat
  | '0' :: 'b' :: cs => (readDigits 2 cs).map Int.ofNat
  | '0' :: 'B' :: cs => (readDigits 2 cs).map Int.ofNat
  | '+' :: cs => (readNat cs).map Int.ofNat
  | cs => readInt cs

theorem trim_of_forall {cs : List Char} (h : ∀ c ∈ cs, isWhiteSpace c = false) : trim cs = cs := by
  have hdrop : ∀ cs : List Char, (∀ c ∈ cs, isWhiteSpace c = false) → cs.dropWhile isWhiteSpace = cs := by
    intro cs hcs
    cases cs with
    | nil => rfl
    | cons c cs => rw [List.dropWhile_cons_of_neg (by rw [hcs c List.mem_cons_self]; decide)]
  unfold trim
  rw [hdrop cs h, hdrop cs.reverse fun c hc => h c (List.mem_reverse.mp hc), List.reverse_reverse]

theorem isWhiteSpace_of_isDigit {c : Char} (h : c.isDigit = true) : isWhiteSpace c = false := by
  obtain ⟨k, hk, rfl⟩ := exists_of_isDigit h
  revert k
  decide

theorem readBigInt_of_digits {cs : List Char} (hne : cs ≠ []) (hdigits : ∀ c ∈ cs, c.isDigit = true) :
    readBigInt (String.ofList cs) = some (Nat.ofDigitChars 10 cs 0 : Int) := by
  have hread := readInt_of_digits hne hdigits
  unfold readBigInt
  rw [String.toList_ofList, trim_of_forall fun c hc => isWhiteSpace_of_isDigit (hdigits c hc)]
  revert hread hdigits hne
  generalize Nat.ofDigitChars 10 cs 0 = value
  intro hne hdigits hread
  -- neither the letter of a base nor a sign is a digit
  split
  · exact absurd rfl hne
  all_goals first
    | exact hread
    | exact absurd (hdigits _ (List.mem_cons_of_mem _ List.mem_cons_self)) (by decide)
    | exact absurd (hdigits _ List.mem_cons_self) (by decide)

/-- A number is read back from its decimal digits. -/
theorem readBigInt_repr (n : Nat) : readBigInt n.repr = some (n : Int) := by
  have hread := readBigInt_of_digits (repr_ne_nil (n := n)) fun c hc => isDigit_of_mem_repr hc
  rw [String.ofList_toList] at hread
  rw [hread, Nat.toList_repr, Nat.ofDigitChars_ten_toDigits]

/-! ## Writing -/

/-- `toString(16)`. -/
def toString16 : Int → List Char
  | .ofNat n => Nat.toDigits 16 n
  | .negSucc n => '-' :: Nat.toDigits 16 (n + 1)

/-- `padStart` with a character. -/
def padStart (width : Nat) (fill : Char) (cs : List Char) : List Char := List.replicate (width - cs.length) fill ++ cs

/-- The low `w` digits of `n` in base 16, most significant first. -/
def hexDigits (w n : Nat) : List Char := (List.range w).reverse.map fun i => (n / 16 ^ i % 16).digitChar

theorem hexDigits_succ (w n : Nat) : hexDigits (w + 1) n = (n / 16 ^ w % 16).digitChar :: hexDigits w n := by
  unfold hexDigits
  rw [List.range_succ, List.reverse_append]
  rfl

theorem hexDigits_succ_right (w n : Nat) : hexDigits (w + 1) n = hexDigits w (n / 16) ++ [(n % 16).digitChar] := by
  unfold hexDigits
  rw [List.range_succ_eq_map, List.reverse_cons, List.map_append, ← List.map_reverse, List.map_map]
  congr 1
  · apply List.map_congr_left
    intro i _
    rw [Function.comp_apply, pow_succ', Nat.div_div_eq_div_mul]
  · simp

theorem hexDigits_zero (w : Nat) : hexDigits w 0 = List.replicate w '0' := by
  induction w with
  | zero => rfl
  | succ w ih =>
    rw [hexDigits_succ, ih, List.replicate_succ, Nat.zero_div, Nat.zero_mod]
    rfl

theorem padStart_toDigits {w n : Nat} (h : n < 16 ^ (w + 1)) :
    padStart (w + 1) '0' (Nat.toDigits 16 n) = hexDigits (w + 1) n := by
  induction w generalizing n with
  | zero =>
    have hn : n < 16 := by omega
    rw [Nat.toDigits_of_lt_base hn, hexDigits_succ_right, Nat.mod_eq_of_lt hn]
    rfl
  | succ w ih =>
    rw [hexDigits_succ_right]
    by_cases hn : n < 16
    · rw [Nat.toDigits_of_lt_base hn, Nat.div_eq_of_lt hn, hexDigits_zero, Nat.mod_eq_of_lt hn]
      rfl
    · have hdiv : n / 16 < 16 ^ (w + 1) := by
        rw [pow_succ] at h
        omega
      rw [Nat.toDigits_of_base_le (by decide) (by omega), ← ih hdiv]
      unfold padStart
      rw [List.length_append, List.length_singleton, List.append_assoc, Nat.add_sub_add_right]

theorem hexValue_digitChar {d : Nat} (h : d < 16) : hexValue d.digitChar = some d := by
  revert d
  decide

theorem readHex_hexDigits (w n : Nat) : readHex (hexDigits (2 * w) n) = toBeBytes w n := by
  induction w with
  | zero => rfl
  | succ w ih =>
    have hhigh : n / 16 ^ (2 * w + 1) % 16 < 16 := Nat.mod_lt _ (by decide)
    have hlow : n / 16 ^ (2 * w) % 16 < 16 := Nat.mod_lt _ (by decide)
    have hbyte : 16 * (n / 16 ^ (2 * w + 1) % 16) + n / 16 ^ (2 * w) % 16 = n / 256 ^ w % 256 := by
      have hpow : 256 ^ w = 16 ^ (2 * w) := by rw [pow_mul]; norm_num
      rw [hpow, pow_succ, ← Nat.div_div_eq_div_mul]
      omega
    rw [Nat.mul_succ, hexDigits_succ, hexDigits_succ, toBeBytes_succ]
    unfold readHex
    rw [hexValue_digitChar hhigh, hexValue_digitChar hlow]
    simp only [hbyte, ih]

theorem mem_toDigits {n : Nat} {c : Char} (h : c ∈ Nat.toDigits 16 n) : ∃ d < 16, c = d.digitChar := by
  induction n using Nat.strongRecOn with
  | ind n ih =>
    by_cases hn : n < 16
    · rw [Nat.toDigits_of_lt_base hn, List.mem_singleton] at h
      exact ⟨n, hn, h⟩
    · rw [Nat.toDigits_of_base_le (by decide) (by omega), List.mem_append, List.mem_singleton] at h
      rcases h with hhigh | hlow
      · exact ih (n / 16) (by omega) hhigh
      · exact ⟨n % 16, Nat.mod_lt n (by decide), hlow⟩

theorem toDigits_injective {m n : Nat} (h : Nat.toDigits 16 m = Nat.toDigits 16 n) : m = n := by
  have hdigit : ∀ {a b : Nat}, a < 16 → b < 16 → a.digitChar = b.digitChar → a = b := by
    intro a b ha hb heq
    have hvalue := hexValue_digitChar ha
    rw [heq, hexValue_digitChar hb] at hvalue
    exact (Option.some.inj hvalue).symm
  have hne : ∀ k, Nat.toDigits 16 k ≠ [] := fun k => Nat.toDigits_ne_nil
  induction m using Nat.strongRecOn generalizing n with
  | ind m ih =>
    by_cases hm : m < 16
    · rw [Nat.toDigits_of_lt_base hm] at h
      by_cases hn : n < 16
      · rw [Nat.toDigits_of_lt_base hn, List.cons.injEq] at h
        exact hdigit hm hn h.1
      · rw [Nat.toDigits_of_base_le (by decide) (by omega)] at h
        exact absurd (List.append_eq_singleton_iff.mp h.symm) (by simp [hne])
    · rw [Nat.toDigits_of_base_le (n := m) (by decide) (by omega)] at h
      by_cases hn : n < 16
      · rw [Nat.toDigits_of_lt_base hn] at h
        exact absurd (List.append_eq_singleton_iff.mp h) (by simp [hne])
      · rw [Nat.toDigits_of_base_le (n := n) (by decide) (by omega)] at h
        obtain ⟨hhigh, hlow⟩ := List.append_inj' h rfl
        have hdiv := ih (m / 16) (by omega) hhigh
        have hmod := hdigit (Nat.mod_lt m (by decide)) (Nat.mod_lt n (by decide)) (List.cons.inj hlow).1
        omega

theorem toString16_injective {a b : Int} (h : toString16 a = toString16 b) : a = b := by
  have hsign : ∀ n k : Nat, Nat.toDigits 16 n ≠ '-' :: Nat.toDigits 16 k := by
    intro n k heq
    have hmem : '-' ∈ Nat.toDigits 16 n := by
      rw [heq]
      exact List.mem_cons_self
    obtain ⟨d, hd, hc⟩ := mem_toDigits hmem
    revert d
    decide
  cases a with
  | ofNat m =>
    cases b with
    | ofNat n => exact congrArg Int.ofNat (toDigits_injective h)
    | negSucc n => exact absurd h (hsign _ _)
  | negSucc m =>
    cases b with
    | ofNat n => exact absurd h.symm (hsign _ _)
    | negSucc n =>
      have hsucc := toDigits_injective (List.cons.inj h).2
      exact congrArg Int.negSucc (Nat.succ.inj hsucc)

theorem colon_notMem_toString16 (a : Int) : ':' ∉ toString16 a := by
  have hdigits : ∀ n : Nat, ':' ∉ Nat.toDigits 16 n := by
    intro n hmem
    obtain ⟨d, hd, hc⟩ := mem_toDigits hmem
    revert d
    decide
  cases a with
  | ofNat n => exact hdigits n
  | negSucc n => exact List.not_mem_cons_of_ne_of_not_mem (by decide) (hdigits _)

/-! ## Reading what was written -/

theorem readDigits_hexDigits {w : Nat} (hw : w ≠ 0) (n : Nat) : readDigits 16 (hexDigits w n) = some (n % 16 ^ w) := by
  have hfold : ∀ w n : Nat, (hexDigits w n).foldlM (fun acc c => do
      let digit ← hexValue c
      if digit < 16 then some (acc * 16 + digit) else none) 0 = some (n % 16 ^ w) := by
    intro w
    induction w with
    | zero => intro n; simp [hexDigits, Nat.mod_one]
    | succ w ih =>
      intro n
      have hlt : n % 16 < 16 := Nat.mod_lt n (by decide)
      have hvalue : n / 16 % 16 ^ w * 16 + n % 16 = n % 16 ^ (w + 1) := by
        rw [pow_succ', Nat.mod_mul]
        omega
      rw [hexDigits_succ_right, List.foldlM_append, ih]
      simp only [List.foldlM_cons, List.foldlM_nil, Option.bind_eq_bind, Option.bind_some, hexValue_digitChar hlt,
        if_pos hlt, hvalue, Option.pure_def]
  have hne : hexDigits w n ≠ [] := by
    obtain ⟨w, rfl⟩ := Nat.exists_eq_succ_of_ne_zero hw
    rw [hexDigits_succ]
    exact List.cons_ne_nil _ _
  unfold readDigits
  rw [if_neg hne, hfold]

theorem readBigInt_hexDigits {w n : Nat} (hw : w ≠ 0) (hn : n < 16 ^ w) :
    readBigInt (String.ofList ('0' :: 'x' :: hexDigits w n)) = some (n : Int) := by
  have hdigit : ∀ d < 16, isWhiteSpace (Nat.digitChar d) = false := by decide
  have hblank : ∀ c ∈ '0' :: 'x' :: hexDigits w n, isWhiteSpace c = false := by
    intro c hc
    rcases List.mem_cons.mp hc with rfl | hc
    · decide
    · rcases List.mem_cons.mp hc with rfl | hc
      · decide
      · obtain ⟨i, _, rfl⟩ := List.mem_map.mp hc
        exact hdigit _ (Nat.mod_lt _ (by decide))
  unfold readBigInt
  rw [String.toList_ofList, trim_of_forall hblank]
  change (readDigits 16 (hexDigits w n)).map Int.ofNat = some (n : Int)
  rw [readDigits_hexDigits hw, Nat.mod_eq_of_lt hn]
  rfl

end Lib

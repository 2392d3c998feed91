import Mathlib.Data.Nat.Digits.Defs
import Mathlib.Tactic.Common

/-! # Byte strings -/

namespace Lib

abbrev Bytes := List UInt8

/-- A byte string of a fixed length. -/
abbrev BytesN (n : Nat) := Vector UInt8 n

/-- The low `w` bytes of `n`, most significant first. -/
def toBeBytes (w n : Nat) : Bytes :=
  (List.range w).reverse.map fun i => UInt8.ofNat (n / 256 ^ i % 256)

def fromBeBytes (bs : Bytes) : Nat :=
  bs.foldl (fun acc b => acc * 256 + b.toNat) 0

theorem toBeBytes_succ (w n : Nat) : toBeBytes (w + 1) n = UInt8.ofNat (n / 256 ^ w % 256) :: toBeBytes w n := by
  unfold toBeBytes
  rw [List.range_succ, List.reverse_append]
  rfl

@[simp] theorem length_toBeBytes (w n : Nat) : (toBeBytes w n).length = w := by
  simp [toBeBytes]

theorem mod_of_toBeBytes {w a b : Nat} (h : toBeBytes w a = toBeBytes w b) : a % 256 ^ w = b % 256 ^ w := by
  induction w with
  | zero => rw [Nat.pow_zero, Nat.mod_one, Nat.mod_one]
  | succ w ih =>
    rw [toBeBytes_succ, toBeBytes_succ, List.cons.injEq] at h
    have hdigit := congrArg UInt8.toNat h.1
    rw [UInt8.toNat_ofNat', UInt8.toNat_ofNat', Nat.mod_mod, Nat.mod_mod] at hdigit
    rw [Nat.mod_pow_succ, Nat.mod_pow_succ, ih h.2, hdigit]

theorem fromBeBytes_cons (b : UInt8) (bs : Bytes) :
    fromBeBytes (b :: bs) = b.toNat * 256 ^ bs.length + fromBeBytes bs := by
  have hfold : ∀ (bs : Bytes) (acc : Nat),
      bs.foldl (fun acc b => acc * 256 + b.toNat) acc = acc * 256 ^ bs.length + fromBeBytes bs := by
    intro bs
    induction bs with
    | nil =>
      intro acc
      simp [fromBeBytes]
    | cons c bs ih =>
      intro acc
      unfold fromBeBytes
      rw [List.foldl_cons, List.foldl_cons, ih, ih, List.length_cons]
      ring
  unfold fromBeBytes
  rw [List.foldl_cons, hfold, Nat.zero_mul, Nat.zero_add]
  rfl

theorem fromBeBytes_toBeBytes (w n : Nat) : fromBeBytes (toBeBytes w n) = n % 256 ^ w := by
  induction w with
  | zero => simp [toBeBytes, fromBeBytes, Nat.mod_one]
  | succ w ih =>
    rw [toBeBytes_succ, fromBeBytes_cons, ih, length_toBeBytes, UInt8.toNat_ofNat', Nat.mod_mod, Nat.mod_pow_succ]
    ring

/-- Strings of one length can be told apart when they are strung together. -/
theorem flatten_injective {n : Nat} (hn : 0 < n) :
    Function.Injective fun xs : List (BytesN n) => (xs.map Vector.toList).flatten := by
  intro xs ys h
  simp only at h
  induction xs generalizing ys with
  | nil =>
    cases ys with
    | nil => rfl
    | cons y ys =>
      have hlength := congrArg List.length h
      simp at hlength
      omega
  | cons x xs ih =>
    cases ys with
    | nil =>
      have hlength := congrArg List.length h
      simp at hlength
      omega
    | cons y ys =>
      simp only [List.map_cons, List.flatten_cons] at h
      obtain ⟨hhead, htail⟩ := List.append_inj h (by simp)
      rw [Vector.toList_inj.mp hhead, ih htail]

theorem length_flatten {n : Nat} (xs : List (BytesN n)) :
    (xs.map Vector.toList).flatten.length = n * xs.length := by
  induction xs with
  | nil => rfl
  | cons x xs ih =>
    rw [List.map_cons, List.flatten_cons, List.length_append, ih, List.length_cons, Vector.length_toList]
    ring

/-! ## Texts and their bytes -/

/-- The text in UTF-8. -/
def utf8 (s : String) : Bytes := s.toByteArray.data.toList

def hexDigit (n : Nat) : Char :=
  if n < 10 then Char.ofNat (48 + n) else Char.ofNat (87 + n)

def hexValue (c : Char) : Option Nat :=
  if '0' ≤ c ∧ c ≤ '9' then some (c.toNat - 48)
  else if 'a' ≤ c ∧ c ≤ 'f' then some (c.toNat - 87)
  else if 'A' ≤ c ∧ c ≤ 'F' then some (c.toNat - 55)
  else none

def hexChars : Bytes → List Char
  | [] => []
  | b :: bs => hexDigit (b.toNat / 16) :: hexDigit (b.toNat % 16) :: hexChars bs

/-- Two lower-case digits a byte. -/
def toHex (bs : Bytes) : String := String.ofList (hexChars bs)

/-- Reads pairs of digits, up to the first that is none. -/
def readHex : List Char → Bytes
  | a :: b :: cs =>
    match hexValue a, hexValue b with
    | some h, some l => UInt8.ofNat (16 * h + l) :: readHex cs
    | _, _ => []
  | _ => []

def fromHex (s : String) : Bytes := readHex s.toList

theorem hexValue_hexDigit {n : Nat} (h : n < 16) : hexValue (hexDigit n) = some n := by
  revert n
  decide

theorem exists_of_mem_hexChars {bs : Bytes} {c : Char} (h : c ∈ hexChars bs) : ∃ n < 16, c = hexDigit n := by
  induction bs with
  | nil => exact absurd h List.not_mem_nil
  | cons b bs ih =>
    have hb : b.toNat < 256 := b.toNat_lt
    rcases List.mem_cons.mp h with rfl | h
    · exact ⟨_, by omega, rfl⟩
    · rcases List.mem_cons.mp h with rfl | h
      · exact ⟨_, by omega, rfl⟩
      · exact ih h

theorem length_readHex (cs : List Char) : 2 * (readHex cs).length ≤ cs.length := by
  induction cs using readHex.induct with
  | case1 a b cs h l ha hb ih =>
    simp only [readHex, ha, hb, List.length_cons]
    omega
  | case2 a b cs hnone =>
    unfold readHex
    split
    · next h l ha hb => exact absurd hb (hnone h l ha)
    · exact Nat.zero_le _
  | case3 cs hshort =>
    unfold readHex
    split
    · next a b cs => exact absurd rfl (hshort a b cs)
    · exact Nat.zero_le _

theorem readHex_hexChars (bs : Bytes) : readHex (hexChars bs) = bs := by
  induction bs with
  | nil => rfl
  | cons b bs ih =>
    have hb : b.toNat < 256 := b.toNat_lt
    unfold hexChars readHex
    rw [hexValue_hexDigit (by omega), hexValue_hexDigit (by omega)]
    simp only [ih, List.cons.injEq, and_true]
    apply UInt8.toNat_inj.mp
    simp
    omega

theorem utf8_injective : Function.Injective utf8 := by
  intro s t h
  apply String.toByteArray_inj.mp
  exact ByteArray.ext (Array.toList_inj.mp h)

theorem utf8_append (s t : String) : utf8 (s ++ t) = utf8 s ++ utf8 t := by
  unfold utf8
  rw [String.toByteArray_append, ByteArray.data_append, Array.toList_append]

theorem utf8Size_hexDigit {n : Nat} (h : n < 16) : (hexDigit n).utf8Size = 1 := by
  revert n
  decide

theorem length_utf8_toHex (bs : Bytes) : (utf8 (toHex bs)).length = 2 * bs.length := by
  have hchars : ((hexChars bs).map Char.utf8Size).sum = 2 * bs.length := by
    induction bs with
    | nil => rfl
    | cons b bs ih =>
      have hb : b.toNat < 256 := b.toNat_lt
      unfold hexChars
      rw [List.map_cons, List.map_cons, List.sum_cons, List.sum_cons, ih, utf8Size_hexDigit (by omega),
        utf8Size_hexDigit (by omega), List.length_cons]
      omega
  rw [← hchars]
  unfold utf8 toHex
  rw [String.toByteArray_ofList]
  generalize hexChars bs = cs
  induction cs with
  | nil => rfl
  | cons c cs ih =>
    rw [List.utf8Encode_cons, ByteArray.data_append, Array.toList_append, List.length_append, ih, List.map_cons,
      List.sum_cons]
    simp [List.utf8Encode]

@[simp] theorem fromHex_toHex (bs : Bytes) : fromHex (toHex bs) = bs := by
  unfold fromHex toHex
  rw [String.toList_ofList, readHex_hexChars]

theorem toHex_injective : Function.Injective toHex := by
  intro a b h
  rw [← fromHex_toHex a, h, fromHex_toHex]

/-- The bytes, if there are as many as that. -/
def toBytesN (n : Nat) (bs : Bytes) : Option (BytesN n) :=
  if h : bs.length = n then some (Vector.mk bs.toArray (by simpa using h)) else none

@[simp] theorem toBytesN_toList {n : Nat} (v : BytesN n) : toBytesN n v.toList = some v := by
  unfold toBytesN
  rw [dif_pos v.length_toList]
  rfl

/-! ## Byte strings as runs of big-endian words -/

/-- The first `n` bytes, zeros where there are none. -/
def padTo (n : Nat) (bs : Bytes) : BytesN n := Vector.ofFn fun i => bs.getD i 0

theorem toList_padTo {n : Nat} {bs : Bytes} (h : bs.length = n) : (padTo n bs).toList = bs := by
  subst h
  apply List.ext_getElem
  · simp
  · intro i h1 h2
    simp [padTo]

theorem padTo_toList {n : Nat} (v : BytesN n) : padTo n v.toList = v := by
  apply Vector.toList_inj.mp
  rw [toList_padTo v.length_toList]

theorem fromBeBytes_lt (bs : Bytes) : fromBeBytes bs < 256 ^ bs.length := by
  induction bs with
  | nil => simp [fromBeBytes]
  | cons b bs ih =>
    have hb : b.toNat + 1 ≤ 256 := b.toNat_lt
    have hscaled := Nat.mul_le_mul_right (256 ^ bs.length) hb
    rw [fromBeBytes_cons, List.length_cons, Nat.pow_succ]
    rw [Nat.add_mul, Nat.one_mul] at hscaled
    omega

theorem toBeBytes_fromBeBytes (bs : Bytes) : toBeBytes bs.length (fromBeBytes bs) = bs := by
  induction bs with
  | nil => rfl
  | cons b bs ih =>
    have hlt := fromBeBytes_lt bs
    have hlow : ∀ n w, toBeBytes w (b.toNat * 256 ^ w + n) = toBeBytes w n := by
      intro n w
      apply List.map_congr_left
      intro i hi
      have hi : i < w := by simpa using hi
      have hsplit : b.toNat * 256 ^ w = 256 ^ i * (256 * (b.toNat * 256 ^ (w - i - 1))) := by
        have hw : w = i + (1 + (w - i - 1)) := by omega
        conv_lhs => rw [hw, pow_add, pow_add, pow_one]
        ring
      rw [hsplit, Nat.mul_add_div (Nat.pow_pos (by omega)), Nat.mul_add_mod]
    rw [List.length_cons, toBeBytes_succ, fromBeBytes_cons, hlow, ih, Nat.mul_comm,
      Nat.mul_add_div (Nat.pow_pos (by omega)), Nat.div_eq_of_lt hlt, Nat.add_zero, Nat.mod_eq_of_lt b.toNat_lt]
    simp

/-- The run of `w` bytes with that index. -/
def word (w : Nat) (bs : Bytes) (i : Nat) : Bytes := (bs.drop (w * i)).take w

def ofWords (w : Nat) (xs : List Nat) : Bytes := (xs.map (toBeBytes w)).flatten

@[simp] theorem length_ofWords (w : Nat) (xs : List Nat) : (ofWords w xs).length = w * xs.length := by
  induction xs with
  | nil => rfl
  | cons x xs ih =>
    unfold ofWords at ih ⊢
    rw [List.map_cons, List.flatten_cons, List.length_append, ih, length_toBeBytes, List.length_cons]
    ring

theorem word_append (w : Nat) (xs ys : Bytes) (hx : xs.length = w) (i : Nat) :
    word w (xs ++ ys) (i + 1) = word w ys i := by
  unfold word
  rw [Nat.mul_add, Nat.mul_one, Nat.add_comm, ← List.drop_drop, List.drop_left' hx]

theorem word_append_zero (w : Nat) (xs ys : Bytes) (hx : xs.length = w) : word w (xs ++ ys) 0 = xs := by
  unfold word
  rw [Nat.mul_zero, List.drop_zero, List.take_left' hx]

theorem word_ofWords (w : Nat) (xs : List Nat) (i : Nat) (hi : i < xs.length) :
    word w (ofWords w xs) i = toBeBytes w xs[i] := by
  induction xs generalizing i with
  | nil => simp at hi
  | cons x xs ih =>
    unfold ofWords
    rw [List.map_cons, List.flatten_cons]
    cases i with
    | zero => exact word_append_zero w _ _ (length_toBeBytes w x)
    | succ i =>
      rw [word_append w _ _ (length_toBeBytes w x)]
      exact ih i (by simpa using hi)

theorem exists_words {w k : Nat} {bs : Bytes} (hlength : bs.length = w * k) :
    ∃ xs : List Nat, xs.length = k ∧ (∀ x ∈ xs, x < 256 ^ w) ∧ bs = ofWords w xs := by
  induction k generalizing bs with
  | zero =>
    rw [Nat.mul_zero, List.length_eq_zero_iff] at hlength
    exact ⟨[], rfl, by simp, hlength⟩
  | succ k ih =>
    have htail : (bs.drop w).length = w * k := by
      rw [List.length_drop, hlength, Nat.mul_succ]
      omega
    obtain ⟨xs, hxs, hsmall, hrest⟩ := ih htail
    have hhead : (bs.take w).length = w := by
      rw [List.length_take, hlength, Nat.mul_succ]
      omega
    have hlt := fromBeBytes_lt (bs.take w)
    have hread := toBeBytes_fromBeBytes (bs.take w)
    rw [hhead] at hlt hread
    refine ⟨fromBeBytes (bs.take w) :: xs, by simp [hxs], by simpa [hlt] using hsmall, ?_⟩
    unfold ofWords at hrest ⊢
    rw [List.map_cons, List.flatten_cons, hread, ← hrest, List.take_append_drop]

end Lib

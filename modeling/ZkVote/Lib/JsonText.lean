import Mathlib.Data.List.Forall2
import Mathlib.Data.List.Nodup
import Mathlib.Data.List.Perm.Basic
import ZkVote.Lib.BigInt

/-!
# JSON texts

Texts of UTF-16 code units, the values of the language that hold data, and `JSON.parse`. What is printed of the parts
of a value is read back as the parts.
-/

namespace Lib.JsonText

/-- A string of the language: code units, paired or not. -/
abbrev Text := List UInt16

def charUnits (c : Char) : Text :=
  if c.toNat < 0x10000 then [UInt16.ofNat c.toNat]
  else
    [UInt16.ofNat (0xD800 + (c.toNat - 0x10000) / 0x400), UInt16.ofNat (0xDC00 + (c.toNat - 0x10000) % 0x400)]

def units (s : String) : Text := s.toList.flatMap charUnits

def quotationMark : UInt16 := 0x22

def backslash : UInt16 := 0x5C

def comma : UInt16 := 0x2C

def colon : UInt16 := 0x3A

def openBracket : UInt16 := 0x5B

def closeBracket : UInt16 := 0x5D

def openBrace : UInt16 := 0x7B

def closeBrace : UInt16 := 0x7D

/-! ## Surrogates -/

def isHigh (u : UInt16) : Bool := 0xD800 ≤ u ∧ u ≤ 0xDBFF

def isLow (u : UInt16) : Bool := 0xDC00 ≤ u ∧ u ≤ 0xDFFF

/-- Every surrogate is half of a pair. -/
inductive WellFormed : Text → Prop
  | nil : WellFormed []
  | unit {u : UInt16} {t : Text} (hhigh : isHigh u = false) (hlow : isLow u = false) (h : WellFormed t) :
      WellFormed (u :: t)
  | pair {high low : UInt16} {t : Text} (hhigh : isHigh high = true) (hlow : isLow low = true) (h : WellFormed t) :
      WellFormed (high :: low :: t)

/-- What is left of a text that is encoded in UTF-8: a half that stands alone is replaced. -/
def toWellFormed : Text → Text
  | [] => []
  | [u] => if isHigh u || isLow u then [0xFFFD] else [u]
  | u :: v :: rest =>
    if isHigh u && isLow v then u :: v :: toWellFormed rest
    else (if isHigh u || isLow u then 0xFFFD else u) :: toWellFormed (v :: rest)

variable {s t : Text} {u : UInt16}

theorem WellFormed.append (hs : WellFormed s) (ht : WellFormed t) : WellFormed (s ++ t) := by
  induction hs with
  | nil => exact ht
  | unit hhigh hlow _ ih => exact .unit hhigh hlow ih
  | pair hhigh hlow _ ih => exact .pair hhigh hlow ih

theorem WellFormed.of_forall (h : ∀ u ∈ t, isHigh u = false ∧ isLow u = false) : WellFormed t := by
  induction t with
  | nil => exact .nil
  | cons u t ih =>
    rw [List.forall_mem_cons] at h
    exact .unit h.1.1 h.1.2 (ih h.2)

theorem toWellFormed_eq (h : WellFormed t) : toWellFormed t = t := by
  induction h with
  | nil => rfl
  | @unit u t hhigh hlow _ ih =>
    cases t with
    | nil => simp [toWellFormed, hhigh, hlow]
    | cons v rest => simp [toWellFormed, hhigh, hlow, ih]
  | pair hhigh hlow _ ih => simp [toWellFormed, hhigh, hlow, ih]

/-! ## Strings -/

/-- The letter of a short escape. -/
def short (u : UInt16) : Option UInt16 :=
  if u = quotationMark then some quotationMark
  else if u = backslash then some backslash
  else if u = 0x08 then some 0x62
  else if u = 0x0C then some 0x66
  else if u = 0x0A then some 0x6E
  else if u = 0x0D then some 0x72
  else if u = 0x09 then some 0x74
  else none

/-- What the letter stands for; `u` is not one of these. -/
def long (letter : UInt16) : Option UInt16 :=
  if letter = quotationMark then some quotationMark
  else if letter = backslash then some backslash
  else if letter = 0x2F then some 0x2F
  else if letter = 0x62 then some 0x08
  else if letter = 0x66 then some 0x0C
  else if letter = 0x6E then some 0x0A
  else if letter = 0x72 then some 0x0D
  else if letter = 0x74 then some 0x09
  else none

def hexUnit (digit : Nat) : UInt16 := UInt16.ofNat digit.digitChar.toNat

def readHexUnit (u : UInt16) : Option Nat := hexValue (Char.ofNat u.toNat)

/-- `\uXXXX`. -/
def numbered (u : UInt16) : Text :=
  [backslash, 0x75, hexUnit (u.toNat / 4096), hexUnit (u.toNat / 256 % 16), hexUnit (u.toNat / 16 % 16),
    hexUnit (u.toNat % 16)]

def readNumbered (a b c d : UInt16) : Option UInt16 := do
  let a ← readHexUnit a
  let b ← readHexUnit b
  let c ← readHexUnit c
  let d ← readHexUnit d
  some (UInt16.ofNat (a * 4096 + b * 256 + c * 16 + d))

/-- A unit that is not half of a pair. -/
def escape (u : UInt16) : Text :=
  match short u with
  | some letter => [backslash, letter]
  | none => if u < 0x20 ∨ isHigh u ∨ isLow u then numbered u else [u]

def escapeText : Text → Text
  | [] => []
  | [u] => escape u
  | u :: v :: rest =>
    if isHigh u && isLow v then u :: v :: escapeText rest else escape u ++ escapeText (v :: rest)

/-- `JSON.stringify` of a string. -/
def quote (t : Text) : Text := quotationMark :: escapeText t ++ [quotationMark]

/-- What is read after the first quotation mark, and what comes after the last. -/
def readString : Text → Option (Text × Text)
  | [] => none
  | u :: tail =>
    if u = quotationMark then some ([], tail)
    else if u = backslash then
      match tail with
      | [] => none
      | letter :: rest =>
        if letter = 0x75 then
          match rest with
          | a :: b :: c :: d :: rest =>
            match readNumbered a b c d with
            | none => none
            | some v => (readString rest).map fun r => (v :: r.1, r.2)
          | _ => none
        else
          match long letter with
          | none => none
          | some v => (readString rest).map fun r => (v :: r.1, r.2)
    else if u < 0x20 then none
    else (readString tail).map fun r => (u :: r.1, r.2)

theorem hexUnit_spec : ∀ digit < 16,
    readHexUnit (hexUnit digit) = some digit ∧ isHigh (hexUnit digit) = false ∧ isLow (hexUnit digit) = false := by
  decide

theorem readNumbered_numbered (u : UInt16) :
    readNumbered (hexUnit (u.toNat / 4096)) (hexUnit (u.toNat / 256 % 16)) (hexUnit (u.toNat / 16 % 16))
      (hexUnit (u.toNat % 16)) = some u := by
  have hu := u.toNat_lt
  have hvalue : u.toNat / 4096 * 4096 + u.toNat / 256 % 16 * 256 + u.toNat / 16 % 16 * 16 + u.toNat % 16 = u.toNat := by
    omega
  unfold readNumbered
  rw [(hexUnit_spec _ (by omega)).1, (hexUnit_spec _ (by omega)).1, (hexUnit_spec _ (by omega)).1,
    (hexUnit_spec _ (by omega)).1]
  simp only [Option.bind_eq_bind, Option.bind_some, hvalue, UInt16.ofNat_toNat]

theorem short_spec {letter : UInt16} (h : short u = some letter) :
    long letter = some u ∧ letter ≠ 0x75 ∧ isHigh letter = false ∧ isLow letter = false := by
  unfold short at h
  split_ifs at h <;> cases h <;> subst_vars <;> decide

theorem short_none (h : short u = none) : u ≠ quotationMark ∧ u ≠ backslash := by
  constructor
  all_goals
    rintro rfl
    revert h
    decide

theorem readString_escape (u : UInt16) (rest : Text) :
    readString (escape u ++ rest) = (readString rest).map fun r => (u :: r.1, r.2) := by
  unfold escape
  cases hshort : short u with
  | some letter =>
    obtain ⟨hlong, hu, -⟩ := short_spec hshort
    simp only [List.cons_append, List.nil_append]
    rw [readString.eq_def]
    simp only [show backslash ≠ quotationMark by decide, hu, hlong, if_true, if_false]
  | none =>
    simp only
    split
    · simp only [numbered, List.cons_append, List.nil_append]
      rw [readString.eq_def]
      simp only [show backslash ≠ quotationMark by decide, if_true, if_false, readNumbered_numbered]
    · next hplain =>
      obtain ⟨hquotation, hbackslash⟩ := short_none hshort
      simp only [List.cons_append, List.nil_append]
      rw [readString.eq_def]
      simp only [hquotation, hbackslash, show ¬ u < 0x20 from fun h => hplain (.inl h), if_false]

/-- A surrogate stands for itself. -/
theorem readString_surrogate (h : isHigh u = true ∨ isLow u = true) (rest : Text) :
    readString (u :: rest) = (readString rest).map fun r => (u :: r.1, r.2) := by
  have hle : 0xD800 ≤ u := by
    rcases h with h | h
    · simp only [isHigh, decide_eq_true_eq] at h
      exact h.1
    · simp only [isLow, decide_eq_true_eq] at h
      exact UInt16.le_trans (by decide) h.1
  have hquotation : u ≠ quotationMark := by
    rintro rfl
    exact absurd hle (by decide)
  have hbackslash : u ≠ backslash := by
    rintro rfl
    exact absurd hle (by decide)
  have hcontrol : ¬ u < 0x20 := by
    intro hlt
    exact absurd (UInt16.lt_of_le_of_lt hle hlt) (by decide)
  rw [readString.eq_def]
  simp only [hquotation, hbackslash, hcontrol, if_false]

theorem readString_end (rest : Text) : readString (quotationMark :: rest) = some ([], rest) := by
  rw [readString.eq_def]
  simp only [if_true]

theorem readString_escapeText (t rest : Text) :
    readString (escapeText t ++ quotationMark :: rest) = some (t, rest) := by
  induction t using escapeText.induct with
  | case1 => exact readString_end rest
  | case2 u =>
    rw [escapeText, readString_escape, readString_end]
    rfl
  | case3 u v rest' hpair ih =>
    obtain ⟨hhigh, hlow⟩ := Bool.and_eq_true_iff.mp hpair
    rw [escapeText, if_pos hpair, List.cons_append, List.cons_append, readString_surrogate (.inl hhigh),
      readString_surrogate (.inr hlow), ih]
    rfl
  | case4 u v rest' hpair ih =>
    rw [escapeText, if_neg hpair, List.append_assoc, readString_escape, ih]
    rfl

theorem wellFormed_escape (u : UInt16) : WellFormed (escape u) := by
  unfold escape
  cases hshort : short u with
  | some letter =>
    obtain ⟨-, -, hhigh, hlow⟩ := short_spec hshort
    exact .unit (by decide) (by decide) (.unit hhigh hlow .nil)
  | none =>
    simp only
    have hu := u.toNat_lt
    split
    · apply WellFormed.of_forall
      simp only [numbered, List.forall_mem_cons]
      refine ⟨by decide, by decide, ?_, ?_, ?_, ?_, by simp⟩
      all_goals exact (hexUnit_spec _ (by omega)).2
    · next hplain =>
      simp only [not_or, Bool.not_eq_true] at hplain
      exact .unit hplain.2.1 hplain.2.2 .nil

theorem wellFormed_quote (t : Text) : WellFormed (quote t) := by
  have hbody : WellFormed (escapeText t) := by
    induction t using escapeText.induct with
    | case1 => exact .nil
    | case2 u => exact wellFormed_escape u
    | case3 u v rest hpair ih =>
      obtain ⟨hhigh, hlow⟩ := Bool.and_eq_true_iff.mp hpair
      rw [escapeText, if_pos hpair]
      exact .pair hhigh hlow ih
    | case4 u v rest hpair ih =>
      rw [escapeText, if_neg hpair]
      exact (wellFormed_escape u).append ih
  unfold quote
  rw [List.cons_append]
  exact .unit (by decide) (by decide) (hbody.append (.unit (by decide) (by decide) .nil))

/-! ## Values -/

/-- What holds data: an object has its own entries and a prototype, `none` being that of every literal. -/
inductive Value (ν : Type) where
  | null
  | bool (b : Bool)
  | num (n : ν)
  | str (t : Text)
  | arr (items : List (Value ν))
  | obj (proto : Option (Value ν)) (entries : List (Text × Value ν))

variable {ν : Type}

@[elab_as_elim, induction_eliminator]
theorem Value.induct {P : Value ν → Prop} (null : P .null) (bool : ∀ b, P (.bool b)) (num : ∀ n, P (.num n))
    (str : ∀ t, P (.str t)) (arr : ∀ items, (∀ v ∈ items, P v) → P (.arr items))
    (obj : ∀ proto entries, (∀ v ∈ proto, P v) → (∀ e ∈ entries, P e.2) → P (.obj proto entries)) (v : Value ν) :
    P v := by
  refine @Value.rec ν P (fun items => ∀ v ∈ items, P v) (fun proto => ∀ v ∈ proto, P v)
    (fun entries => ∀ e ∈ entries, P e.2) (fun e => P e.2) null bool num str arr obj ?_ ?_ ?_ ?_ ?_ ?_ ?_ v
  · simp
  · intro v items hv hitems
    exact List.forall_mem_cons.mpr ⟨hv, hitems⟩
  · simp
  · intro v hv
    simpa using hv
  · simp
  · intro e entries he hentries
    exact List.forall_mem_cons.mpr ⟨he, hentries⟩
  · intro key v hv
    exact hv

/-- Numbers, `-0` and `0` being one: their text and how a text is read. -/
structure Numbers (ν : Type) where
  text : ν → Text
  read : Text → Option ν
  isFinite : ν → Bool

/-- A unit that may stand in a number. -/
def isNumberUnit (u : UInt16) : Bool :=
  (0x30 ≤ u ∧ u ≤ 0x39) ∨ u = 0x2D ∨ u = 0x2B ∨ u = 0x2E ∨ u = 0x65 ∨ u = 0x45

/-- The text of a finite number is a number in JSON, and is read as it. -/
structure Numbers.Lawful (numbers : Numbers ν) : Prop where
  read_text : ∀ n, numbers.isFinite n = true → numbers.read (numbers.text n) = some n
  ne_nil : ∀ n, numbers.isFinite n = true → numbers.text n ≠ []
  isNumberUnit : ∀ n, numbers.isFinite n = true → ∀ u ∈ numbers.text n, JsonText.isNumberUnit u = true

/-! ## `JSON.parse` -/

def isSpace (u : UInt16) : Bool := u = 0x20 ∨ u = 0x09 ∨ u = 0x0A ∨ u = 0x0D

def skip (t : Text) : Text := t.dropWhile isSpace

/-- An entry that is there already keeps its place. -/
def setEntry (entries : List (Text × Value ν)) (entry : Text × Value ν) : List (Text × Value ν) :=
  if entries.any fun e => e.1 = entry.1 then entries.map fun e => if e.1 = entry.1 then entry else e
  else entries ++ [entry]

def WORDS : List (Text × Value ν) :=
  [(units "null", .null), (units "true", .bool true), (units "false", .bool false)]

/-- The items of an array up to its end. -/
def parseItems (parse : Text → Option (Value ν × Text)) : Nat → Text → Option (List (Value ν) × Text)
  | 0, _ => none
  | n + 1, t =>
    match parse t with
    | none => none
    | some (v, rest) =>
      match skip rest with
      | [] => none
      | u :: rest =>
        if u = comma then (parseItems parse n rest).map fun r => (v :: r.1, r.2)
        else if u = closeBracket then some ([v], rest)
        else none

/-- The members of an object up to its end. -/
def parseMembers (parse : Text → Option (Value ν × Text)) : Nat → Text → Option (List (Text × Value ν) × Text)
  | 0, _ => none
  | n + 1, t =>
    match skip t with
    | [] => none
    | u :: rest =>
      if u = quotationMark then
        match readString rest with
        | none => none
        | some (key, rest) =>
          match skip rest with
          | [] => none
          | u :: rest =>
            if u = colon then
              match parse rest with
              | none => none
              | some (v, rest) =>
                match skip rest with
                | [] => none
                | u :: rest =>
                  if u = comma then (parseMembers parse n rest).map fun r => ((key, v) :: r.1, r.2)
                  else if u = closeBrace then some ([(key, v)], rest)
                  else none
            else none
      else none

variable (numbers : Numbers ν)

/-- A value and what comes after it, with at most `fuel` values inside each other. -/
def parseValue : Nat → Text → Option (Value ν × Text)
  | 0, _ => none
  | fuel + 1, t =>
    match skip t with
    | [] => none
    | u :: rest =>
      if u = quotationMark then (readString rest).map fun r => (.str r.1, r.2)
      else if u = openBracket then
        match skip rest with
        | [] => none
        | v :: after =>
          if v = closeBracket then some (.arr [], after)
          else (parseItems (parseValue fuel) fuel rest).map fun r => (.arr r.1, r.2)
      else if u = openBrace then
        match skip rest with
        | [] => none
        | v :: after =>
          if v = closeBrace then some (.obj none [], after)
          else (parseMembers (parseValue fuel) fuel rest).map fun r => (.obj none (r.1.foldl setEntry []), r.2)
      else
        match WORDS.find? fun word => word.1.isPrefixOf (u :: rest) with
        | some (word, v) => some (v, (u :: rest).drop word.length)
        | none =>
          (numbers.read ((u :: rest).takeWhile isNumberUnit)).map fun n =>
            (.num n, (u :: rest).dropWhile isNumberUnit)

/-- `none` where it throws. -/
def parse (t : Text) : Option (Value ν) :=
  match parseValue numbers (t.length + 1) t with
  | none => none
  | some (v, rest) => if skip rest = [] then some v else none

/-! ## What is printed is read back -/

def Stops (t : Text) : Prop := ∀ u ∈ t.head?, isNumberUnit u = false

/-- The text of a value, wherever it stands. -/
structure Reads (t : Text) (v : Value ν) : Prop where
  starts : ∃ u tail, t = u :: tail ∧ isSpace u = false ∧ u ≠ closeBracket
  reads : ∀ fuel rest, t.length ≤ fuel → Stops rest → parseValue numbers fuel (t ++ rest) = some (v, rest)

variable {numbers} {v : Value ν} {rest : Text}

theorem skip_cons (h : isSpace u = false) (rest : Text) : skip (u :: rest) = u :: rest := by
  unfold skip
  rw [List.dropWhile_cons_of_neg (by simp [h])]

theorem stops_cons (h : isNumberUnit u = false) (rest : Text) : Stops (u :: rest) := by
  intro v hv
  cases hv
  exact h

theorem takeWhile_of_stops (h : Stops rest) :
    rest.takeWhile isNumberUnit = [] ∧ rest.dropWhile isNumberUnit = rest := by
  cases rest with
  | nil => exact ⟨rfl, rfl⟩
  | cons u rest =>
    have hu := h u rfl
    simp [hu]

theorem exists_fuel {fuel : Nat} (h : (u :: t).length ≤ fuel) : ∃ fuel', fuel = fuel' + 1 ∧ t.length ≤ fuel' := by
  cases fuel with
  | zero => cases h
  | succ fuel => exact ⟨fuel, rfl, Nat.le_of_succ_le_succ h⟩

theorem reads_quote (t : Text) : Reads numbers (quote t) (.str t) where
  starts := ⟨quotationMark, _, rfl, by decide, by decide⟩
  reads := by
    intro fuel rest hfuel _
    obtain ⟨fuel, rfl, -⟩ := exists_fuel hfuel
    have hquote : quote t ++ rest = quotationMark :: (escapeText t ++ quotationMark :: rest) := by simp [quote]
    rw [hquote, parseValue, skip_cons (by decide)]
    simp only [if_true, readString_escapeText, Option.map_some]

theorem units_words : units "null" = [0x6E, 0x75, 0x6C, 0x6C] ∧ units "true" = [0x74, 0x72, 0x75, 0x65] ∧
    units "false" = [0x66, 0x61, 0x6C, 0x73, 0x65] := by decide

theorem reads_word {word : Text} (h : (word, v) ∈ WORDS) : Reads numbers word v := by
  obtain ⟨hnull, htrue, hfalse⟩ := units_words
  simp only [WORDS, List.mem_cons, Prod.mk.injEq, List.not_mem_nil, or_false, hnull, htrue, hfalse] at h
  obtain ⟨rfl, rfl⟩ | ⟨rfl, rfl⟩ | ⟨rfl, rfl⟩ := h
  all_goals
    refine ⟨⟨_, _, rfl, by decide, by decide⟩, ?_⟩
    intro fuel rest hfuel _
    obtain ⟨fuel, rfl, -⟩ := exists_fuel hfuel
    rw [List.cons_append, parseValue, skip_cons (by decide)]
    simp [WORDS, hnull, htrue, hfalse, quotationMark, openBracket, openBrace, List.find?, List.isPrefixOf]

/-- No number begins as anything else does. -/
theorem isNumberUnit_spec (h : isNumberUnit u = true) :
    isSpace u = false ∧ u ≠ quotationMark ∧ u ≠ openBracket ∧ u ≠ closeBracket ∧ u ≠ openBrace ∧
      u ≠ 0x6E ∧ u ≠ 0x74 ∧ u ≠ 0x66 := by
  refine ⟨?_, ?_, ?_, ?_, ?_, ?_, ?_, ?_⟩
  · by_contra hspace
    simp only [isSpace, Bool.not_eq_false, decide_eq_true_eq] at hspace
    obtain rfl | rfl | rfl | rfl := hspace <;> exact absurd h (by decide)
  all_goals
    rintro rfl
    exact absurd h (by decide)

theorem find_word_of_isNumberUnit (h : isNumberUnit u = true) (rest : Text) :
    (WORDS : List (Text × Value ν)).find? (fun word => word.1.isPrefixOf (u :: rest)) = none := by
  obtain ⟨hnull, htrue, hfalse⟩ := units_words
  obtain ⟨-, -, -, -, -, hn, ht, hf⟩ := isNumberUnit_spec h
  rw [List.find?_eq_none]
  intro word hword
  simp only [WORDS, List.mem_cons, List.not_mem_nil, or_false, hnull, htrue, hfalse] at hword
  obtain rfl | rfl | rfl := hword
  · simp [List.isPrefixOf, Ne.symm hn]
  · simp [List.isPrefixOf, Ne.symm ht]
  · simp [List.isPrefixOf, Ne.symm hf]

theorem reads_text (hlawful : numbers.Lawful) {n : ν} (hn : numbers.isFinite n = true) :
    Reads numbers (numbers.text n) (.num n) := by
  obtain ⟨u, tail, htext⟩ := List.exists_cons_of_ne_nil (hlawful.ne_nil n hn)
  have hunits := hlawful.isNumberUnit n hn
  have hu : JsonText.isNumberUnit u = true := hunits u (by rw [htext]; exact List.mem_cons_self)
  obtain ⟨hspace, hquotation, hbracket, hclose, hbrace, -⟩ := isNumberUnit_spec hu
  refine ⟨⟨u, tail, htext, hspace, hclose⟩, ?_⟩
  intro fuel rest hfuel hstops
  rw [htext] at hfuel
  obtain ⟨fuel, rfl, -⟩ := exists_fuel hfuel
  obtain ⟨htake, hdrop⟩ := takeWhile_of_stops hstops
  have hread := hlawful.read_text n hn
  have htakeAll : (u :: (tail ++ rest)).takeWhile JsonText.isNumberUnit = u :: tail := by
    rw [← List.cons_append, ← htext, List.takeWhile_append_of_pos hunits, htake, List.append_nil]
  have hdropAll : (u :: (tail ++ rest)).dropWhile JsonText.isNumberUnit = rest := by
    rw [← List.cons_append, ← htext, List.dropWhile_append_of_pos hunits, hdrop]
  rw [htext] at hread
  rw [htext, List.cons_append, parseValue, skip_cons hspace]
  simp only [hquotation, hbracket, hbrace, if_false, find_word_of_isNumberUnit hu, htakeAll, hdropAll, hread,
    Option.map_some]

/-! ## Arrays and objects -/

theorem stops_comma (rest : Text) : Stops (comma :: rest) := stops_cons (by decide) rest

theorem parseItems_reads {ts : List Text} {vs : List (Value ν)} {fuel n : Nat}
    (h : List.Forall₂ (Reads numbers) ts vs) (hne : ts ≠ []) (hn : ts.length ≤ n) (hfuel : ∀ t ∈ ts, t.length ≤ fuel)
    (rest : Text) :
    parseItems (parseValue numbers fuel) n ([comma].intercalate ts ++ closeBracket :: rest) = some (vs, rest) := by
  induction h generalizing n with
  | nil => exact absurd rfl hne
  | @cons t v ts vs ht hts ih =>
    rw [List.forall_mem_cons] at hfuel
    cases n with
    | zero => cases hn
    | succ n =>
      cases hts with
      | nil =>
        rw [List.intercalate_singleton, parseItems, ht.reads fuel _ hfuel.1 (stops_cons (by decide) rest)]
        simp only [skip_cons (show isSpace closeBracket = false by decide), show closeBracket ≠ comma by decide,
          if_true, if_false]
      | @cons t' v' ts vs ht' hts =>
        have hrest := ih (by simp) (Nat.le_of_succ_le_succ hn) hfuel.2
        rw [List.intercalate_cons_cons, List.append_assoc, List.append_assoc, List.singleton_append, parseItems,
          ht.reads fuel _ hfuel.1 (stops_comma _)]
        simp only [skip_cons (show isSpace comma = false by decide), if_true, hrest, Option.map_some]

theorem length_le_intercalate {ts : List Text} (ht : t ∈ ts) : t.length ≤ ([comma].intercalate ts).length := by
  induction ts with
  | nil => cases ht
  | cons s ts ih =>
    cases ts with
    | nil => simp [List.mem_singleton.mp ht]
    | cons s' ts =>
      rw [List.intercalate_cons_cons, List.length_append, List.length_append]
      obtain rfl | ht := List.mem_cons.mp ht
      · omega
      · have hle := ih ht
        omega

theorem length_le_intercalate_succ (ts : List Text) : ts.length ≤ ([comma].intercalate ts).length + 1 := by
  induction ts with
  | nil => simp
  | cons s ts ih =>
    cases ts with
    | nil => simp
    | cons s' ts =>
      rw [List.intercalate_cons_cons, List.length_append, List.length_append]
      simp only [List.length_cons, List.length_nil] at ih ⊢
      omega

theorem reads_arr {ts : List Text} {vs : List (Value ν)} (h : List.Forall₂ (Reads numbers) ts vs) :
    Reads numbers (openBracket :: ([comma].intercalate ts ++ [closeBracket])) (.arr vs) := by
  refine ⟨⟨openBracket, _, rfl, by decide, by decide⟩, ?_⟩
  intro fuel rest hfuel _
  obtain ⟨fuel, rfl, hle⟩ := exists_fuel hfuel
  rw [List.length_append, List.length_singleton] at hle
  rw [List.cons_append, List.append_assoc, List.singleton_append, parseValue, skip_cons (by decide)]
  simp only [show openBracket ≠ quotationMark by decide, if_true, if_false]
  cases h with
  | nil => simp [skip_cons (show isSpace closeBracket = false by decide)]
  | @cons t v ts vs ht hts =>
    have hbound : ∀ s ∈ t :: ts, s.length ≤ fuel := by
      intro s hs
      have hshort := length_le_intercalate hs
      omega
    have hcount := length_le_intercalate_succ (t :: ts)
    have hread : parseItems (parseValue numbers fuel) fuel ([comma].intercalate (t :: ts) ++ closeBracket :: rest) =
        some (v :: vs, rest) := parseItems_reads (.cons ht hts) (by simp) (by omega) hbound rest
    obtain ⟨u, tail, rfl, hspace, hclose⟩ := ht.starts
    have hjoin : ∃ more, [comma].intercalate ((u :: tail) :: ts) = u :: more := by
      cases ts with
      | nil => exact ⟨tail, List.intercalate_singleton⟩
      | cons s ts =>
        rw [List.intercalate_cons_cons, List.append_assoc, List.cons_append]
        exact ⟨_, rfl⟩
    obtain ⟨more, hmore⟩ := hjoin
    rw [hmore, List.cons_append] at hread ⊢
    rw [skip_cons hspace]
    simp only [hclose, if_false, hread, Option.map_some]

/-- The text of an entry, from the text of its value. -/
def memberText (member : Text × Text) : Text := quote member.1 ++ colon :: member.2

theorem parseMembers_reads {members : List (Text × Text)} {entries : List (Text × Value ν)} {fuel n : Nat}
    (h : List.Forall₂ (fun m e => m.1 = e.1 ∧ Reads numbers m.2 e.2) members entries) (hne : members ≠ [])
    (hn : members.length ≤ n) (hfuel : ∀ m ∈ members, m.2.length ≤ fuel) (rest : Text) :
    parseMembers (parseValue numbers fuel) n
      ([comma].intercalate (members.map memberText) ++ closeBrace :: rest) = some (entries, rest) := by
  induction h generalizing n with
  | nil => exact absurd rfl hne
  | @cons m e members entries hm hmembers ih =>
    rw [List.forall_mem_cons] at hfuel
    obtain ⟨key, text⟩ := m
    obtain ⟨key', value⟩ := e
    obtain ⟨rfl, hreads⟩ := hm
    have hmember : ∀ after, memberText (key, text) ++ after =
        quotationMark :: (escapeText key ++ quotationMark :: colon :: (text ++ after)) := by
      intro after
      simp [memberText, quote]
    cases n with
    | zero => cases hn
    | succ n =>
      cases hmembers with
      | nil =>
        rw [List.map_singleton, List.intercalate_singleton, hmember, parseMembers, skip_cons (by decide)]
        simp only [if_true, readString_escapeText]
        rw [skip_cons (by decide)]
        have hstops : Stops (closeBrace :: rest) := stops_cons (by decide) rest
        simp only [if_true, hreads.reads fuel _ hfuel.1 hstops]
        rw [skip_cons (by decide)]
        simp only [show closeBrace ≠ comma by decide, if_true, if_false]
      | @cons m' e' members entries hm' hmembers =>
        have hrest := ih (by simp) (Nat.le_of_succ_le_succ hn) hfuel.2
        rw [List.map_cons] at hrest
        rw [List.map_cons, List.map_cons, List.intercalate_cons_cons, List.append_assoc, List.append_assoc,
          List.singleton_append, hmember, parseMembers, skip_cons (by decide)]
        simp only [if_true, readString_escapeText]
        rw [skip_cons (by decide)]
        simp only [if_true, hreads.reads fuel _ hfuel.1 (stops_comma _)]
        rw [skip_cons (by decide)]
        simp only [if_true, hrest, Option.map_some]

theorem reads_obj {members : List (Text × Text)} {entries : List (Text × Value ν)}
    (h : List.Forall₂ (fun m e => m.1 = e.1 ∧ Reads numbers m.2 e.2) members entries) :
    Reads numbers (openBrace :: ([comma].intercalate (members.map memberText) ++ [closeBrace]))
      (.obj none (entries.foldl setEntry [])) := by
  refine ⟨⟨openBrace, _, rfl, by decide, by decide⟩, ?_⟩
  intro fuel rest hfuel _
  obtain ⟨fuel, rfl, hle⟩ := exists_fuel hfuel
  rw [List.length_append, List.length_singleton] at hle
  rw [List.cons_append, List.append_assoc, List.singleton_append, parseValue, skip_cons (by decide)]
  simp only [show openBrace ≠ quotationMark by decide, show openBrace ≠ openBracket by decide, if_true, if_false]
  cases h with
  | nil => simp [skip_cons (show isSpace closeBrace = false by decide)]
  | @cons m e members entries hm hmembers =>
    have hbound : ∀ m' ∈ m :: members, m'.2.length ≤ fuel := by
      intro m' hm'
      have hshort := length_le_intercalate (List.mem_map_of_mem (f := memberText) hm')
      simp only [memberText, List.length_append, List.length_cons] at hshort
      omega
    have hcount := length_le_intercalate_succ ((m :: members).map memberText)
    rw [List.length_map] at hcount
    have hjoin : ∃ more, [comma].intercalate ((m :: members).map memberText) = quotationMark :: more := by
      cases members with
      | nil =>
        rw [List.map_singleton, List.intercalate_singleton]
        exact ⟨_, rfl⟩
      | cons m' members =>
        rw [List.map_cons, List.map_cons, List.intercalate_cons_cons, List.append_assoc]
        exact ⟨_, rfl⟩
    obtain ⟨more, hmore⟩ := hjoin
    have hread : parseMembers (parseValue numbers fuel) fuel
        ([comma].intercalate ((m :: members).map memberText) ++ closeBrace :: rest) = some (e :: entries, rest) :=
      parseMembers_reads (.cons hm hmembers) (by simp) (by omega) hbound rest
    rw [hmore, List.cons_append] at hread ⊢
    rw [skip_cons (by decide)]
    simp only [show quotationMark ≠ closeBrace by decide, if_false, hread, Option.map_some]

/-- Keys that are distinct stay as they are. -/
theorem foldl_setEntry {entries : List (Text × Value ν)} (h : (entries.map Prod.fst).Nodup) :
    entries.foldl setEntry [] = entries := by
  have hall : ∀ acc : List (Text × Value ν), ((acc ++ entries).map Prod.fst).Nodup →
      entries.foldl setEntry acc = acc ++ entries := by
    clear h
    induction entries with
    | nil => simp
    | cons e entries ih =>
      intro acc hacc
      have hnew : ∀ e' ∈ acc, e'.1 ≠ e.1 := by
        rw [List.map_append, List.nodup_append] at hacc
        intro e' he'
        exact hacc.2.2 e'.1 (List.mem_map_of_mem he') e.1 (by simp)
      have hset : setEntry acc e = acc ++ [e] := by
        unfold setEntry
        rw [if_neg]
        intro hany
        obtain ⟨e', he', heq⟩ := List.any_eq_true.mp hany
        exact hnew e' he' (of_decide_eq_true heq)
      rw [List.foldl_cons, hset, ih]
      · simp
      · simpa using hacc
  simpa using hall [] (by simpa using h)

theorem WellFormed.intercalate {ts : List Text} (h : ∀ t ∈ ts, WellFormed t) : WellFormed ([comma].intercalate ts) := by
  induction ts with
  | nil => exact .nil
  | cons t ts ih =>
    rw [List.forall_mem_cons] at h
    cases ts with
    | nil =>
      rw [List.intercalate_singleton]
      exact h.1
    | cons t' ts =>
      rw [List.intercalate_cons_cons]
      exact (h.1.append (.unit (by decide) (by decide) .nil)).append (ih h.2)

theorem wellFormed_text (hlawful : numbers.Lawful) {n : ν} (hn : numbers.isFinite n = true) :
    WellFormed (numbers.text n) := by
  apply WellFormed.of_forall
  intro u hu
  have hnumber := hlawful.isNumberUnit n hn u hu
  simp only [isNumberUnit, decide_eq_true_eq] at hnumber
  constructor
  all_goals
    by_contra hsurrogate
    rw [Bool.not_eq_false] at hsurrogate
    simp only [isHigh, isLow, decide_eq_true_eq, UInt16.le_iff_toNat_le] at hsurrogate hnumber
    obtain ⟨-, hle⟩ | rfl | rfl | rfl | rfl | rfl := hnumber
    · exact absurd (hsurrogate.1.trans hle) (by decide)
    all_goals exact absurd hsurrogate.1 (by decide)

/-! ## Entries -/

variable {α β : Type} {key : Text} {entries entries' : List (Text × α)}

theorem lookup_eq_some {a : α} (h : (entries.map Prod.fst).Nodup) :
    entries.lookup key = some a ↔ (key, a) ∈ entries := by
  induction entries with
  | nil => simp
  | cons e entries ih =>
    obtain ⟨key', b⟩ := e
    rw [List.map_cons, List.nodup_cons] at h
    rw [List.lookup_cons, List.mem_cons]
    by_cases hkey : key = key'
    · subst hkey
      simp only [beq_self_eq_true, Option.some.injEq, Prod.mk.injEq, true_and]
      constructor
      · rintro rfl
        exact .inl rfl
      · rintro (rfl | hmem)
        · rfl
        · exact absurd (List.mem_map_of_mem (f := Prod.fst) hmem) h.1
    · simp only [beq_eq_false_iff_ne.mpr hkey, ih h.2, Prod.mk.injEq, hkey, false_and, false_or]

theorem lookup_perm (h : (entries.map Prod.fst).Nodup) (hperm : entries.Perm entries') :
    entries.lookup key = entries'.lookup key := by
  have h' : (entries'.map Prod.fst).Nodup := (hperm.map Prod.fst).nodup_iff.mp h
  apply Option.ext
  intro a
  rw [lookup_eq_some h, lookup_eq_some h']
  exact hperm.mem_iff

theorem lookup_map (f : α → β) (entries : List (Text × α)) :
    (entries.map fun e => (e.1, f e.2)).lookup key = (entries.lookup key).map f := by
  induction entries with
  | nil => rfl
  | cons e entries ih =>
    rw [List.map_cons, List.lookup_cons, List.lookup_cons, ih]
    cases key == e.1
    · rfl
    · rfl

theorem lookup_eq_none : entries.lookup key = none ↔ ∀ e ∈ entries, e.1 ≠ key := by
  induction entries with
  | nil => simp
  | cons e entries ih =>
    rw [List.lookup_cons, List.forall_mem_cons]
    by_cases hkey : key = e.1
    · simp [hkey]
    · simp only [beq_eq_false_iff_ne.mpr hkey, ih, ne_eq, Ne.symm hkey, not_false_eq_true, true_and]

/-! ## Whole texts -/

/-- The whole of a text, up to what is passed over. -/
theorem parse_of_reads (h : Reads numbers t v) {blank : UInt16} (hblank : isSpace blank = true) :
    parse numbers (t ++ [blank]) = some v := by
  have hstops : Stops [blank] := by
    apply stops_cons
    by_contra hnumber
    rw [Bool.not_eq_false] at hnumber
    rw [(isNumberUnit_spec hnumber).1] at hblank
    cases hblank
  unfold parse
  rw [h.reads _ [blank] (by rw [List.length_append]; omega) hstops]
  have hskip : skip [blank] = [] := by simp [skip, hblank]
  simp only [hskip, if_true]

end Lib.JsonText

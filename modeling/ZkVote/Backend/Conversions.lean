import ZkVote.Backend.StellarAmount

/-!
# Conversions of amounts

The second half of `utils/stellarAmount.ts`: a reader of its own, division that reports what is left over, and the
conversions between stroops and Soroban units.
-/

open Lib

namespace ZkVote.StellarAmount

def SOROBAN_UNITS_PER_STROOP : Int := 100000
def SOROBAN_STROOPS_FACTOR : Int := 100000
def STROOPS_PER_XLM : Int := 10000000

inductive AmountError where
  | error (message : String)
  | rangeError (message : String)
  | syntaxError (message : String)
deriving DecidableEq

/-! ## Horizon and Soroban, as the payments have it -/

def horizonStroopsToSorobanAmount (stroops : Int) : Except AmountError Int :=
  if stroops < 0 ∨ MAX_STELLAR_STROOPS < stroops then
    .error (.error "Stroop amount is outside the Stellar int64 range")
  else .ok (stroops * SOROBAN_UNITS_PER_STROOP)

def sorobanAmountToHorizonStroops (amount : Int) : Except AmountError Int :=
  if amount < 0 ∨ amount.tmod SOROBAN_UNITS_PER_STROOP ≠ 0 then
    .error (.error "Soroban amount is not exactly representable with 7 Horizon decimals")
  else
    let stroops := amount.tdiv SOROBAN_UNITS_PER_STROOP
    if MAX_STELLAR_STROOPS < stroops then .error (.error "Converted Horizon amount exceeds the Stellar int64 range")
    else .ok stroops

/-- The two are inverse to each other, in the range of both. -/
theorem sorobanAmountToHorizonStroops_iff {stroops amount : Int} :
    sorobanAmountToHorizonStroops amount = .ok stroops ↔ horizonStroopsToSorobanAmount stroops = .ok amount := by
  unfold sorobanAmountToHorizonStroops horizonStroopsToSorobanAmount SOROBAN_UNITS_PER_STROOP
  by_cases hneg : amount < 0
  · rw [if_pos (.inl hneg)]
    refine iff_of_false (fun h => nomatch h) fun h => ?_
    split at h
    · cases h
    · cases h
      omega
  · rw [Int.tmod_eq_emod_of_nonneg (by omega), Int.tdiv_eq_ediv_of_nonneg (by omega)]
    constructor
    · intro h
      split at h
      · cases h
      · dsimp only at h
        split at h
        · cases h
        · cases h
          rw [if_neg (by omega)]
          congr 1
          omega
    · intro h
      split at h
      · cases h
      · cases h
        have hquotient : stroops * 100000 / 100000 = stroops := Int.mul_ediv_cancel _ (by decide)
        rw [if_neg (by omega), hquotient]
        exact if_neg (by omega)

/-! ## The other reader -/

/-- `length` of a text, in UTF-16 code units. -/
def utf16Length (cs : List Char) : Nat := (cs.map fun c => if c.toNat < 0x10000 then 1 else 2).sum

/-- `BigInt(text)`. -/
def bigInt (cs : List Char) : Except AmountError Int :=
  match readBigInt (String.ofList cs) with
  | some value => .ok value
  | none => .error (.syntaxError s!"Cannot convert {String.ofList cs} to a BigInt")

/-- What stands before the first point. -/
def wholePart (trimmed : List Char) : List Char := ((trimmed.splitOn '.')[0]?).getD []

/-- What stands between the first point and the second one; nothing without a point. -/
def fractionPart (trimmed : List Char) : List Char := ((trimmed.splitOn '.')[1]?).getD []

def parseDecimalToStroops (decimal : String) : Except AmountError Int :=
  let trimmed := trim decimal.toList
  if trimmed = [] ∨ trimmed = ['-'] ∨ trimmed.head? = some '-' then
    .error (.rangeError s!"Stellar amounts must be non-negative; got: {decimal}")
  else
    let frac := fractionPart trimmed
    if 7 < utf16Length frac then
      .error (.rangeError
        s!"Amount has {utf16Length frac} decimal places; Stellar allows at most 7. Value: {decimal}")
    else do
      let whole ← bigInt (wholePart trimmed)
      let fraction ← bigInt (padEnd 7 '0' frac)
      return whole * STROOPS_PER_XLM + fraction

/-! ## Division -/

structure DivisionResult where
  quotient : Int
  dust : Int
deriving DecidableEq

inductive Direction where
  | floor
  | ceil
deriving DecidableEq

def divideStroops (stroops divisor : Int) (direction : Direction) : Except AmountError DivisionResult :=
  if divisor ≤ 0 then .error (.rangeError s!"Divisor must be positive; got: {divisor}")
  else
    let quotient := stroops.tdiv divisor
    let dust := stroops.tmod divisor
    if direction = .ceil ∧ 0 < dust then .ok ⟨quotient + 1, 0⟩ else .ok ⟨quotient, dust⟩

def sorobanToStroops (sorobanAmount : Int) : Except AmountError DivisionResult :=
  if sorobanAmount < 0 then .error (.rangeError s!"Soroban amount must be non-negative; got: {sorobanAmount}")
  else divideStroops sorobanAmount SOROBAN_STROOPS_FACTOR .floor

/-- It divides as `sorobanToStroops` does. -/
def stroopsToSoroban (stroops : Int) : Except AmountError DivisionResult :=
  if stroops < 0 then .error (.rangeError s!"Stroops must be non-negative; got: {stroops}")
  else divideStroops stroops SOROBAN_STROOPS_FACTOR .floor

structure BatchSplitResult where
  perRecipient : Int
  dust : Int
deriving DecidableEq

def splitBatchStroops (totalStroops recipientCount : Int) : Except AmountError BatchSplitResult :=
  if recipientCount ≤ 0 then .error (.rangeError s!"Recipient count must be positive; got: {recipientCount}")
  else do
    let result ← divideStroops totalStroops recipientCount .floor
    return ⟨result.quotient, result.dust⟩

section
variable {stroops divisor : Int}

theorem divideStroops_floor (hpos : 0 < divisor) :
    divideStroops stroops divisor .floor = .ok ⟨stroops.tdiv divisor, stroops.tmod divisor⟩ := by
  unfold divideStroops
  rw [if_neg (by omega)]
  exact if_neg fun h => nomatch h.1

theorem divideStroops_exact (hpos : 0 < divisor) :
    ∃ result, divideStroops stroops divisor .floor = .ok result ∧ result.quotient * divisor + result.dust = stroops :=
  ⟨_, divideStroops_floor hpos, Int.tdiv_mul_add_tmod stroops divisor⟩

end

/-! ## Two readers -/

section
variable {cs whole fraction : List Char}

/-- What the pattern matches: digits, and a point with at most seven more. -/
theorem matchAmount_some (h : matchAmount cs = some (whole, fraction)) :
    whole ≠ [] ∧ (∀ c ∈ whole, c.isDigit = true) ∧ (∀ c ∈ fraction, c.isDigit = true) ∧ fraction.length ≤ 7 ∧
      (cs = whole ∧ fraction = [] ∨ cs = whole ++ '.' :: fraction) := by
  have hdigits : ∀ c ∈ cs.takeWhile Char.isDigit, c.isDigit = true :=
    List.all_eq_true.mp List.all_takeWhile
  have hcs : cs = cs.takeWhile Char.isDigit ++ cs.dropWhile Char.isDigit := List.takeWhile_append_dropWhile.symm
  unfold matchAmount at h
  dsimp only at h
  split at h
  · cases h
  · next hwhole =>
    have hne : cs.takeWhile Char.isDigit ≠ [] := fun hnil => hwhole (.inl hnil)
    split at h
    · next hrest =>
      cases h
      rw [hrest, List.append_nil] at hcs
      exact ⟨hne, hdigits, fun c hc => absurd hc List.not_mem_nil, Nat.zero_le 7, .inl ⟨hcs, rfl⟩⟩
    · next c rest hrest =>
      split at h
      · next hfraction =>
        cases h
        obtain ⟨rfl, _, hlength, hall⟩ := hfraction
        rw [hrest] at hcs
        exact ⟨hne, hdigits, List.all_eq_true.mp hall, hlength, .inr hcs⟩
      · cases h

theorem utf16Length_of_digits (hdigits : ∀ c ∈ cs, c.isDigit = true) : utf16Length cs = cs.length := by
  induction cs with
  | nil => rfl
  | cons c cs ih =>
    obtain ⟨k, hk, rfl⟩ := exists_of_isDigit (hdigits c List.mem_cons_self)
    have hunit : k.digitChar.toNat < 0x10000 := by
      rw [Nat.toNat_digitChar_of_lt_ten hk]
      omega
    have hrest := ih fun c hc => hdigits c (List.mem_cons_of_mem _ hc)
    unfold utf16Length at hrest ⊢
    rw [List.map_cons, List.sum_cons, hrest, if_pos hunit, List.length_cons, Nat.add_comm]

theorem parts_of_match (hwhole : ∀ c ∈ whole, c.isDigit = true) (hfraction : ∀ c ∈ fraction, c.isDigit = true)
    (hcs : cs = whole ∧ fraction = [] ∨ cs = whole ++ '.' :: fraction) :
    wholePart cs = whole ∧ fractionPart cs = fraction := by
  have hpoint : ∀ {ds : List Char}, (∀ c ∈ ds, c.isDigit = true) → '.' ∉ ds := by
    intro ds hds hmem
    exact absurd (hds '.' hmem) (by decide)
  unfold wholePart fractionPart
  rcases hcs with ⟨rfl, rfl⟩ | rfl
  · rw [List.splitOn_eq_singleton (hpoint hwhole)]
    exact ⟨rfl, rfl⟩
  · rw [List.splitOn_append_cons_self_of_not_mem (hpoint hwhole), List.splitOn_eq_singleton (hpoint hfraction)]
    exact ⟨rfl, rfl⟩

theorem padEnd_digits (hfraction : ∀ c ∈ fraction, c.isDigit = true) :
    padEnd 7 '0' fraction ≠ [] ∧ ∀ c ∈ padEnd 7 '0' fraction, c.isDigit = true := by
  unfold padEnd
  constructor
  · intro hnil
    have hlength := congrArg List.length hnil
    rw [List.length_append, List.length_replicate, List.length_nil] at hlength
    omega
  · intro c hc
    rcases List.mem_append.mp hc with hc | hc
    · exact hfraction c hc
    · rw [List.eq_of_mem_replicate hc]
      rfl

theorem bigInt_of_digits (hne : cs ≠ []) (hdigits : ∀ c ∈ cs, c.isDigit = true) :
    bigInt cs = .ok (Nat.ofDigitChars 10 cs 0 : Int) := by
  unfold bigInt
  rw [readBigInt_of_digits hne hdigits]

end

section
variable {amount : String}

/-- A text of the pattern is worth the same to both readers, however large. -/
theorem parseDecimalToStroops_of_match {whole fraction : List Char}
    (h : matchAmount (trim amount.toList) = some (whole, fraction)) :
    parseDecimalToStroops amount = .ok ((Nat.ofDigitChars 10 whole 0 * STROOPS_PER_UNIT +
      Nat.ofDigitChars 10 (padEnd 7 '0' fraction) 0 : Nat) : Int) := by
  obtain ⟨hne, hwhole, hfraction, hlength, hcs⟩ := matchAmount_some h
  obtain ⟨hwholePart, hfractionPart⟩ := parts_of_match hwhole hfraction hcs
  obtain ⟨hpadded, hdigits⟩ := padEnd_digits hfraction
  obtain ⟨c, rest, rfl⟩ := List.exists_cons_of_ne_nil hne
  have hfirst : ∃ tail, trim amount.toList = c :: tail := by
    rcases hcs with ⟨hcs, _⟩ | hcs
    · exact ⟨rest, hcs⟩
    · exact ⟨_, hcs⟩
  obtain ⟨tail, htail⟩ := hfirst
  have hsign : ¬ (trim amount.toList = [] ∨ trim amount.toList = ['-'] ∨ (trim amount.toList).head? = some '-') := by
    have hc : c ≠ '-' := by
      rintro rfl
      exact absurd (hwhole '-' List.mem_cons_self) (by decide)
    rw [htail]
    rintro (h | h | h)
    · cases h
    · exact hc (List.cons.inj h).1
    · exact hc (Option.some.inj h)
  unfold parseDecimalToStroops
  dsimp only
  rw [if_neg hsign, hfractionPart, utf16Length_of_digits hfraction, if_neg (by omega), hwholePart,
    bigInt_of_digits hne hwhole, bigInt_of_digits hpadded hdigits]
  change Except.ok _ = Except.ok _
  rw [Nat.cast_add, Nat.cast_mul]
  rfl

/-- What the first reader says of a trimmed text. -/
def parseTrimmed (amount : String) : Except String Int :=
  (parseStroops (String.ofList (trim amount.toList)) true).map Int.ofNat

def InInt64 (stroops : Int) : Prop := -2 ^ 63 ≤ stroops ∧ stroops ≤ MAX_STELLAR_STROOPS

/-- A text outside the pattern with a number, for `BigInt`, on either side of its first point: digits left out, zeros or
a `+` before them, another base, blanks, a second point. -/
def Loose (amount : String) : Prop :=
  let trimmed := trim amount.toList
  matchAmount trimmed = none ∧ trimmed ≠ [] ∧ trimmed.head? ≠ some '-' ∧ utf16Length (fractionPart trimmed) ≤ 7 ∧
    ∃ whole fraction, readBigInt (String.ofList (wholePart trimmed)) = some whole ∧
      readBigInt (String.ofList (padEnd 7 '0' (fractionPart trimmed))) = some fraction ∧
      InInt64 (whole * STROOPS_PER_XLM + fraction)

theorem bigInt_eq_ok {cs : List Char} {value : Int} :
    bigInt cs = .ok value ↔ readBigInt (String.ofList cs) = some value := by
  unfold bigInt
  cases readBigInt (String.ofList cs) with
  | none => exact iff_of_false (fun h => nomatch h) fun h => nomatch h
  | some read => exact ⟨fun h => congrArg some (Except.ok.inj h), fun h => congrArg Except.ok (Option.some.inj h)⟩

theorem parseDecimalToStroops_eq_ok {stroops : Int} : parseDecimalToStroops amount = .ok stroops ↔
    trim amount.toList ≠ [] ∧ (trim amount.toList).head? ≠ some '-' ∧
      utf16Length (fractionPart (trim amount.toList)) ≤ 7 ∧
      ∃ whole fraction, readBigInt (String.ofList (wholePart (trim amount.toList))) = some whole ∧
        readBigInt (String.ofList (padEnd 7 '0' (fractionPart (trim amount.toList)))) = some fraction ∧
        stroops = whole * STROOPS_PER_XLM + fraction := by
  unfold parseDecimalToStroops
  dsimp only
  constructor
  · intro h
    split at h
    · cases h
    · next hsign =>
      split at h
      · cases h
      · next hlength =>
        cases hwhole : bigInt (wholePart (trim amount.toList)) with
        | error e =>
          rw [hwhole] at h
          cases h
        | ok whole =>
        rw [hwhole] at h
        cases hfraction : bigInt (padEnd 7 '0' (fractionPart (trim amount.toList))) with
        | error e =>
          rw [hfraction] at h
          cases h
        | ok fraction =>
        rw [hfraction] at h
        cases h
        exact ⟨fun hnil => hsign (.inl hnil), fun hhead => hsign (.inr (.inr hhead)), Nat.le_of_not_lt hlength, whole,
          fraction, bigInt_eq_ok.mp hwhole, bigInt_eq_ok.mp hfraction, rfl⟩
  · rintro ⟨hne, hhead, hlength, whole, fraction, hwhole, hfraction, rfl⟩
    have hsign : ¬ (trim amount.toList = [] ∨ trim amount.toList = ['-'] ∨
        (trim amount.toList).head? = some '-') := by
      rintro (h | h | h)
      · exact hne h
      · exact hhead (by rw [h]; rfl)
      · exact hhead h
    rw [if_neg hsign, if_neg (Nat.not_lt_of_le hlength), bigInt_eq_ok.mpr hwhole, bigInt_eq_ok.mpr hfraction]
    rfl

/-- The two readers agree on a text exactly when it is not a loose one. -/
theorem readers_agree_iff :
    (∀ stroops, InInt64 stroops → (parseDecimalToStroops amount = .ok stroops ↔ parseTrimmed amount = .ok stroops)) ↔
      ¬ Loose amount := by
  unfold parseTrimmed parseStroops
  rw [String.toList_ofList]
  cases hmatch : matchAmount (trim amount.toList) with
  | some parts =>
    obtain ⟨whole, fraction⟩ := parts
    refine iff_of_true (fun stroops hrange => ?_) fun hloose => ?_
    · rw [parseDecimalToStroops_of_match hmatch]
      dsimp only
      split
      · next hover =>
        have hlarge := hover.resolve_left fun h => nomatch h.1
        refine iff_of_false (fun h => ?_) fun h => nomatch h
        cases h
        have hle := hrange.2
        omega
      · exact ⟨fun h => congrArg Except.ok (Except.ok.inj h), fun h => congrArg Except.ok (Except.ok.inj h)⟩
    · rw [Loose, hmatch] at hloose
      exact nomatch hloose.1
  | none =>
    constructor
    · intro hagree hloose
      obtain ⟨_, hne, hhead, hlength, whole, fraction, hwhole, hfraction, hrange⟩ := hloose
      have hread := parseDecimalToStroops_eq_ok.mpr ⟨hne, hhead, hlength, whole, fraction, hwhole, hfraction, rfl⟩
      exact nomatch (hagree _ hrange).mp hread
    · intro hloose stroops hrange
      refine iff_of_false (fun hread => hloose ?_) fun h => nomatch h
      obtain ⟨hne, hhead, hlength, whole, fraction, hwhole, hfraction, rfl⟩ := parseDecimalToStroops_eq_ok.mp hread
      exact ⟨hmatch, hne, hhead, hlength, whole, fraction, hwhole, hfraction, hrange⟩

end

/-! ## There and back -/

/-- A number of stroops is read back from its text, and a canonical text is its own canonical text. -/
theorem formatting_canonical : (∀ n : Nat, n ≤ MAX_STELLAR_STROOPS →
      ∃ text, formatStroops n = .ok text ∧ parseStroops text true = .ok n) ∧
    ∀ (amount text : String) (allowZero : Bool), canonicalizeStellarAmount amount allowZero = .ok text →
      canonicalizeStellarAmount text allowZero = .ok text := by
  constructor
  · intro n hn
    cases hformat : formatStroops n with
    | error e =>
      unfold formatStroops at hformat
      rw [if_neg (Nat.not_lt_of_le hn)] at hformat
      cases hformat
    | ok text => exact ⟨text, rfl, parseStroops_formatStroops (.inl rfl) hformat⟩
  · intro amount text allowZero h
    unfold canonicalizeStellarAmount at h
    cases hparse : parseStroops amount allowZero with
    | error e =>
      rw [hparse] at h
      cases h
    | ok stroops =>
      rw [hparse] at h
      unfold canonicalizeStellarAmount
      rw [parseStroops_formatStroops (parseStroops_range hparse).1 h]
      exact h

theorem divideStroops_factor {n : Int} (h : 0 ≤ n) :
    divideStroops n SOROBAN_STROOPS_FACTOR .floor = .ok ⟨n / 100000, n % 100000⟩ := by
  rw [divideStroops_floor (by decide), Int.tdiv_eq_ediv_of_nonneg h, Int.tmod_eq_emod_of_nonneg h]
  rfl

theorem sorobanToStroops_of_nonneg {amount : Int} (h : 0 ≤ amount) :
    sorobanToStroops amount = .ok ⟨amount / 100000, amount % 100000⟩ := by
  unfold sorobanToStroops
  rw [if_neg (by omega), divideStroops_factor h]

theorem stroopsToSoroban_of_nonneg {stroops : Int} (h : 0 ≤ stroops) :
    stroopsToSoroban stroops = .ok ⟨stroops / 100000, stroops % 100000⟩ := by
  unfold stroopsToSoroban
  rw [if_neg (by omega), divideStroops_factor h]

/-- `sorobanToStroops` takes back what a payment of the relay was turned into. -/
theorem sorobanToStroops_horizon {stroops : Int} (hnonneg : 0 ≤ stroops) (hmax : stroops ≤ MAX_STELLAR_STROOPS) :
    ∃ units, horizonStroopsToSorobanAmount stroops = .ok units ∧ sorobanToStroops units = .ok ⟨stroops, 0⟩ := by
  have hquotient : stroops * 100000 / 100000 = stroops := Int.mul_ediv_cancel _ (by decide)
  have hdust : stroops * 100000 % 100000 = 0 := Int.mul_emod_left _ _
  refine ⟨stroops * 100000, if_neg (by omega), ?_⟩
  rw [sorobanToStroops_of_nonneg (by omega), hquotient, hdust]

/-- Divided by the factor both ways, an amount comes back only when it is below one stroop. -/
theorem stroopsToSoroban_undoes_iff {amount : Int} :
    (0 ≤ amount → ∃ stroops units, sorobanToStroops amount = .ok stroops ∧
      stroopsToSoroban stroops.quotient = .ok units ∧ units.quotient + stroops.dust = amount) ↔
      amount < SOROBAN_STROOPS_FACTOR := by
  unfold SOROBAN_STROOPS_FACTOR
  by_cases hneg : amount < 0
  · exact iff_of_true (fun hnonneg => absurd hneg (by omega)) (by omega)
  · have hnonneg : 0 ≤ amount := Int.not_lt.mp hneg
    have hquotient : 0 ≤ amount / 100000 := by omega
    rw [sorobanToStroops_of_nonneg hnonneg]
    constructor
    · intro h
      obtain ⟨stroops, units, hstroops, hunits, hback⟩ := h hnonneg
      cases hstroops
      rw [stroopsToSoroban_of_nonneg hquotient] at hunits
      cases hunits
      change amount / 100000 / 100000 + amount % 100000 = amount at hback
      omega
    · intro hsmall _
      refine ⟨_, _, rfl, stroopsToSoroban_of_nonneg hquotient, ?_⟩
      change amount / 100000 / 100000 + amount % 100000 = amount
      omega

theorem conversions_lose_nothing {input : Int} (hnonneg : 0 ≤ input) :
    (∃ result, sorobanToStroops input = .ok result ∧ result.quotient * SOROBAN_STROOPS_FACTOR + result.dust = input) ∧
      ∃ result, stroopsToSoroban input = .ok result ∧
        result.quotient * SOROBAN_STROOPS_FACTOR + result.dust = input := by
  unfold SOROBAN_STROOPS_FACTOR
  rw [sorobanToStroops_of_nonneg hnonneg, stroopsToSoroban_of_nonneg hnonneg]
  have hsum : input / 100000 * 100000 + input % 100000 = input := Int.ediv_mul_add_emod input 100000
  exact ⟨⟨_, rfl, hsum⟩, _, rfl, hsum⟩

theorem split_loses_nothing {total count : Int} (hpos : 0 < count) :
    ∃ result, splitBatchStroops total count = .ok result ∧ result.perRecipient * count + result.dust = total := by
  refine ⟨⟨total.tdiv count, total.tmod count⟩, ?_, Int.tdiv_mul_add_tmod total count⟩
  unfold splitBatchStroops
  rw [if_neg (by omega), divideStroops_floor hpos]
  rfl

/-- One meaning for an amount, whatever reads, writes or converts it. -/
structure OneMeaning (amount : String) (soroban : Int) : Prop where
  read : ∀ stroops, InInt64 stroops → (parseDecimalToStroops amount = .ok stroops ↔ parseTrimmed amount = .ok stroops)
  formatted : ∀ n : Nat, n ≤ MAX_STELLAR_STROOPS → ∃ text, formatStroops n = .ok text ∧ parseStroops text true = .ok n
  canonical : ∀ (text canonicalText : String) (allowZero : Bool),
    canonicalizeStellarAmount text allowZero = .ok canonicalText →
      canonicalizeStellarAmount canonicalText allowZero = .ok canonicalText
  undone : ∀ stroops : Int, 0 ≤ stroops → stroops ≤ MAX_STELLAR_STROOPS →
    ∃ units, horizonStroopsToSorobanAmount stroops = .ok units ∧ sorobanToStroops units = .ok ⟨stroops, 0⟩
  undoneBack : 0 ≤ soroban → ∃ stroops units, sorobanToStroops soroban = .ok stroops ∧
    stroopsToSoroban stroops.quotient = .ok units ∧ units.quotient + stroops.dust = soroban
  divided : ∀ stroops divisor : Int, 0 < divisor →
    ∃ result, divideStroops stroops divisor .floor = .ok result ∧ result.quotient * divisor + result.dust = stroops
  converted : ∀ input : Int, 0 ≤ input →
    (∃ result, sorobanToStroops input = .ok result ∧ result.quotient * SOROBAN_STROOPS_FACTOR + result.dust = input) ∧
    ∃ result, stroopsToSoroban input = .ok result ∧ result.quotient * SOROBAN_STROOPS_FACTOR + result.dust = input
  split : ∀ total count : Int, 0 < count →
    ∃ result, splitBatchStroops total count = .ok result ∧ result.perRecipient * count + result.dust = total

/-- The amounts with one meaning are the texts that are not loose, and the Soroban units below one stroop. -/
theorem one_meaning_exactly (amount : String) (soroban : Int) :
    OneMeaning amount soroban ↔ ¬ Loose amount ∧ soroban < SOROBAN_STROOPS_FACTOR := by
  constructor
  · intro h
    exact ⟨readers_agree_iff.mp h.read, stroopsToSoroban_undoes_iff.mp h.undoneBack⟩
  · rintro ⟨hloose, hsmall⟩
    exact {
      read := readers_agree_iff.mpr hloose
      formatted := formatting_canonical.1
      canonical := formatting_canonical.2
      undone := fun _ => sorobanToStroops_horizon
      undoneBack := stroopsToSoroban_undoes_iff.mpr hsmall
      divided := fun _ _ => divideStroops_exact
      converted := fun _ => conversions_lose_nothing
      split := fun _ _ => split_loses_nothing }

/-- `".5"` is half a unit to one reader and nothing to the other, and the units of one stroop do not come back. -/
theorem one_meaning_lost : parseDecimalToStroops ".5" = .ok 5000000 ∧ ¬ OneMeaning ".5" 0 ∧ ¬ OneMeaning "1" 100000 := by
  have hwhole : readBigInt (String.ofList (wholePart (trim ".5".toList))) = some 0 := by decide
  have hfraction : readBigInt (String.ofList (padEnd 7 '0' (fractionPart (trim ".5".toList)))) = some 5000000 := by decide
  have hlength : utf16Length (fractionPart (trim ".5".toList)) ≤ 7 := by decide
  have hloose : Loose ".5" :=
    ⟨by decide, by decide, by decide, hlength, 0, 5000000, hwhole, hfraction, by decide, by decide⟩
  refine ⟨parseDecimalToStroops_eq_ok.mpr ⟨by decide, by decide, hlength, 0, 5000000, hwhole, hfraction, rfl⟩,
    fun h => readers_agree_iff.mp h.read hloose, fun h => ?_⟩
  exact absurd (stroopsToSoroban_undoes_iff.mp h.undoneBack) (by decide)

end ZkVote.StellarAmount

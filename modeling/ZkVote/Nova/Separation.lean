import ZkVote.Lib.Decimal
import ZkVote.Nova.Soundness

/-!
# Which votes a nullifier tells apart

The nullifier of a vote hashes a secret and two numbers one after the other, the commitment of a voter a secret
and a salt. What is hashed can be cut in other places.
-/

open Lib

namespace ZkVote.Nova

/-! ## Cutting a text in three -/

/-- Both numbers have one digit, and a second digit before them would make no number of 64 bits. -/
structure OneCut (secret : List Char) (dao_id proposal_id : Nat) : Prop where
  dao_digit : dao_id < 10
  proposal_digit : proposal_id < 10
  no_digit : dao_id ≠ 0 → ∀ pre c, secret = pre ++ [c] → c.isDigit = false
  no_number : dao_id = 0 → ∀ pre x m, secret = pre ++ Nat.digitChar x :: List.replicate m '0' → 0 < x → x < 10 →
    2 ^ 64 ≤ x * 10 ^ (m + 1)

variable {secret secret' : List Char} {d p d' p' : Nat}

theorem append_last {a b : List Char} {x y : Char} (h : a ++ [x] = b ++ [y]) : a = b ∧ x = y := by
  obtain ⟨hinit, hlast⟩ := List.append_inj' h rfl
  exact ⟨hinit, List.cons.inj hlast |>.1⟩

theorem OneCut.zero_of_number (h : OneCut secret d p) {e : Nat} (hsecret : secret = secret' ++ e.repr.toList) :
    d = 0 := by
  by_contra hd
  obtain ⟨pre, hpre⟩ := exists_last_digit e
  rw [hpre, ← List.append_assoc] at hsecret
  have hdigit := h.no_digit hd _ _ hsecret
  rw [Nat.isDigit_digitChar, decide_eq_false_iff_not] at hdigit
  exact hdigit (Nat.mod_lt e (by decide))

/-- A number that the secret ends in does not fit with one more digit. -/
theorem OneCut.too_large (h : OneCut secret d p) {e : Nat} (hpos : 0 < e)
    (hsecret : secret = secret' ++ e.repr.toList) : 2 ^ 64 ≤ e * 10 := by
  have hd := h.zero_of_number hsecret
  obtain ⟨pre, x, m, hx, hx', hle, hrepr⟩ := exists_last_nonzero hpos
  rw [hrepr, ← List.append_assoc] at hsecret
  have hlarge := h.no_number hd _ x m hsecret hx hx'
  rw [pow_succ 10 m, ← Nat.mul_assoc] at hlarge
  have hless := Nat.mul_le_mul_right 10 hle
  omega

theorem OneCut.unique (h : OneCut secret d p) (hd' : d' < 2 ^ 64) (hp' : p' < 2 ^ 64)
    (heq : secret' ++ d'.repr.toList ++ p'.repr.toList = secret ++ d.repr.toList ++ p.repr.toList) :
    secret' = secret ∧ d' = d ∧ p' = p := by
  have hd := h.dao_digit
  have hp := h.proposal_digit
  rw [repr_of_lt_ten hd, repr_of_lt_ten hp] at heq
  by_cases hsmall : p' < 10
  · rw [repr_of_lt_ten hsmall] at heq
    obtain ⟨heq, hlast⟩ := append_last heq
    have hproposal := digitChar_injective hsmall hp hlast
    by_cases hsmall' : d' < 10
    · rw [repr_of_lt_ten hsmall'] at heq
      obtain ⟨hsecret, hlast'⟩ := append_last heq
      exact ⟨hsecret, digitChar_injective hsmall' hd hlast', hproposal⟩
    · -- The rest of the first number is left to the secret.
      rw [repr_of_ten_le (n := d') (by omega), ← List.append_assoc] at heq
      have hlarge := h.too_large (show 0 < d' / 10 by omega) (append_last heq).1.symm
      omega
  · rw [repr_of_ten_le (n := p') (by omega), ← List.append_assoc] at heq
    obtain ⟨heq, -⟩ := append_last heq
    by_cases hsmall' : p' / 10 < 10
    · rw [repr_of_lt_ten hsmall'] at heq
      obtain ⟨hsecret, hlast⟩ := append_last heq
      have hzero := h.zero_of_number hsecret.symm
      have hdigit := digitChar_injective hsmall' hd hlast
      omega
    · rw [repr_of_ten_le (n := p' / 10) (by omega), ← List.append_assoc] at heq
      have hlarge := h.too_large (show 0 < p' / 10 / 10 by omega) (append_last heq).1.symm
      omega

/-- Any other text can be cut twice. -/
theorem OneCut.of_unique (hd : d < 2 ^ 64) (hp : p < 2 ^ 64)
    (h : ∀ secret' d' p', d' < 2 ^ 64 → p' < 2 ^ 64 →
      secret' ++ d'.repr.toList ++ p'.repr.toList = secret ++ d.repr.toList ++ p.repr.toList →
      secret' = secret ∧ d' = d ∧ p' = p) : OneCut secret d p := by
  have hproposal : p < 10 := by
    by_contra hlarge
    obtain ⟨pre, hpre⟩ := exists_last_digit (p / 10)
    have hcut := h (secret ++ d.repr.toList ++ pre) (p / 10 % 10) (p % 10) (by omega) (by omega) (by
      rw [repr_of_lt_ten (Nat.mod_lt _ (by decide)), repr_of_lt_ten (Nat.mod_lt _ (by decide)),
        repr_of_ten_le (n := p) (by omega), hpre]
      simp only [List.append_assoc])
    omega
  have hdao : d < 10 := by
    by_contra hlarge
    have hcut := h (secret ++ (d / 10).repr.toList) (d % 10) p (by omega) hp (by
      rw [repr_of_lt_ten (Nat.mod_lt d (by decide)), repr_of_ten_le (n := d) (by omega)]
      simp only [List.append_assoc])
    omega
  refine ⟨hdao, hproposal, ?_, ?_⟩
  · intro hne pre c hsecret
    by_contra hdigit
    rw [Bool.not_eq_false] at hdigit
    obtain ⟨k, hk, rfl⟩ := exists_of_isDigit hdigit
    -- The last digit of the secret is the first number, and both numbers are the second.
    have hdiv : (10 * d + p) / 10 = d := by omega
    have hmod : (10 * d + p) % 10 = p := by omega
    have hcut := h pre k (10 * d + p) (by omega) (by omega) (by
      rw [repr_of_ten_le (n := 10 * d + p) (by omega), hdiv, hmod, hsecret, repr_of_lt_ten hk,
        repr_of_lt_ten hproposal]
      simp only [List.append_assoc])
    omega
  · intro hzero pre x m hsecret hx hx'
    by_contra hsmall
    rw [hzero] at h
    have hcut := h pre (x * 10 ^ (m + 1)) p (by omega) hp (by
      rw [repr_mul_ten_pow hx hx', hsecret, List.replicate_succ', repr_of_lt_ten (n := 0) (by decide)]
      simp [List.append_assoc])
    have hpow : 0 < x * 10 ^ (m + 1) := Nat.mul_pos hx (Nat.pow_pos (by decide))
    omega

/-! ## Nullifiers and commitments -/

/-- What `compute_nullifier` hashes. -/
def nullifierMessage (secret : String) (dao_id proposal_id : UInt64) : Bytes :=
  as_bytes secret ++ as_bytes (toString dao_id.toNat) ++ as_bytes (toString proposal_id.toNat)

/-- What `compute_commitment` hashes. -/
def commitmentMessage (secret salt : String) : Bytes := as_bytes secret ++ as_bytes salt

variable (sha256 : Bytes → BytesN 32) (known : Bytes → Prop)

/-- No other vote that is hashed has the nullifier of this one. -/
def NullifierUnique (secret : String) (dao_id proposal_id : UInt64) : Prop :=
  ∀ secret' dao_id' proposal_id', known (nullifierMessage secret' dao_id' proposal_id') →
    compute_nullifier sha256 secret' dao_id' proposal_id' = compute_nullifier sha256 secret dao_id proposal_id →
    secret' = secret ∧ dao_id' = dao_id ∧ proposal_id' = proposal_id

/-- No other voter who is hashed has the commitment of this one. -/
def CommitmentUnique (secret salt : String) : Prop :=
  ∀ secret' salt', known (commitmentMessage secret' salt') →
    compute_commitment sha256 secret' salt' = compute_commitment sha256 secret salt → secret' = secret ∧ salt' = salt

variable {sha256 known}

theorem as_bytes_append_eq {a b c a' b' c' : String} :
    as_bytes a ++ as_bytes b ++ as_bytes c = as_bytes a' ++ as_bytes b' ++ as_bytes c' ↔
      a.toList ++ b.toList ++ c.toList = a'.toList ++ b'.toList ++ c'.toList := by
  have happend : ∀ x y z : String, as_bytes x ++ as_bytes y ++ as_bytes z = as_bytes (x ++ y ++ z) := by
    intro x y z
    unfold as_bytes
    rw [utf8_append, utf8_append]
  rw [happend, happend, ← String.toList_append, ← String.toList_append, ← String.toList_append,
    ← String.toList_append, String.toList_inj]
  exact ⟨as_bytes_injective, congrArg as_bytes⟩

theorem nullifierUnique_iff (hinj : ∀ a b, known a → known b → sha256 a = sha256 b → a = b) {secret : String}
    {dao_id proposal_id : UInt64} (hknown : known (nullifierMessage secret dao_id proposal_id)) :
    NullifierUnique sha256 known secret dao_id proposal_id ↔
      OneCut secret.toList dao_id.toNat proposal_id.toNat := by
  constructor
  · intro h
    apply OneCut.of_unique dao_id.toNat_lt proposal_id.toNat_lt
    intro secret' d' p' hd' hp' heq
    have hbytes : nullifierMessage (String.ofList secret') (UInt64.ofNat d') (UInt64.ofNat p') =
        nullifierMessage secret dao_id proposal_id := by
      apply as_bytes_append_eq.mpr
      rw [UInt64.toNat_ofNat_of_lt' hd', UInt64.toNat_ofNat_of_lt' hp', String.toList_ofList]
      exact heq
    obtain ⟨hsecret, hdao, hproposal⟩ := h _ _ _ (hbytes ▸ hknown) (congrArg (hexHash sha256) hbytes)
    refine ⟨?_, ?_, ?_⟩
    · rw [← hsecret, String.toList_ofList]
    · rw [← hdao, UInt64.toNat_ofNat_of_lt' hd']
    · rw [← hproposal, UInt64.toNat_ofNat_of_lt' hp']
  · intro h secret' dao_id' proposal_id' hknown' heq
    have hbytes := hinj _ _ hknown' hknown (hexHash_injective heq)
    obtain ⟨hsecret, hdao, hproposal⟩ :=
      h.unique dao_id'.toNat_lt proposal_id'.toNat_lt (as_bytes_append_eq.mp hbytes)
    exact ⟨String.toList_inj.mp hsecret, UInt64.toNat_inj.mp hdao, UInt64.toNat_inj.mp hproposal⟩

theorem commitmentUnique_iff (hinj : ∀ a b, known a → known b → sha256 a = sha256 b → a = b) {secret salt : String}
    (hknown : known (commitmentMessage secret salt)) :
    CommitmentUnique sha256 known secret salt ↔ secret = "" ∧ salt = "" := by
  have hjoin : ∀ a b : String, commitmentMessage a b = as_bytes (a ++ b) := fun a b => (utf8_append a b).symm
  constructor
  · intro h
    -- All of it can be the secret, or all of it the salt.
    have hwhole : ∀ a b, a ++ b = secret ++ salt → a = secret ∧ b = salt := by
      intro a b hab
      have hbytes : commitmentMessage a b = commitmentMessage secret salt := by rw [hjoin, hjoin, hab]
      exact h a b (hbytes ▸ hknown) (congrArg (hexHash sha256) hbytes)
    have hsalt := (hwhole (secret ++ salt) "" (String.append_empty)).2
    have hsecret := (hwhole "" (secret ++ salt) (String.empty_append)).1
    exact ⟨hsecret.symm, hsalt.symm⟩
  · rintro ⟨rfl, rfl⟩ secret' salt' hknown' heq
    have hbytes := hinj _ _ hknown' hknown (hexHash_injective heq)
    rw [hjoin, hjoin] at hbytes
    have hempty : secret' ++ salt' = "" := as_bytes_injective hbytes
    simpa [String.append_eq_empty_iff] using hempty

theorem separated_iff (hinj : ∀ a b, known a → known b → sha256 a = sha256 b → a = b) (secret salt : String)
    (dao_id proposal_id : UInt64) (hvote : known (nullifierMessage secret dao_id proposal_id))
    (hvoter : known (commitmentMessage secret salt)) :
    (NullifierUnique sha256 known secret dao_id proposal_id ↔
        OneCut secret.toList dao_id.toNat proposal_id.toNat) ∧
      (CommitmentUnique sha256 known secret salt ↔ secret = "" ∧ salt = "") :=
  ⟨nullifierUnique_iff hinj hvote, commitmentUnique_iff hinj hvoter⟩

/-- One voter and one vote. -/
def oneVote (m : Bytes) : Prop := m = nullifierMessage "s" 1 2 ∨ m = commitmentMessage "s" ""

theorem oneVote_injective : ∀ a b, oneVote a → oneVote b → Lib.sha256 a = Lib.sha256 b → a = b := by
  have hne : Lib.sha256 (nullifierMessage "s" 1 2) ≠ Lib.sha256 (commitmentMessage "s" "") := by decide
  rintro a b (rfl | rfl) (rfl | rfl) h
  · rfl
  · exact absurd h hne
  · exact absurd h.symm hne
  · rfl

theorem separated_iff_on_one_vote :
    (NullifierUnique Lib.sha256 oneVote "s" 1 2 ↔ OneCut ['s'] 1 2) ∧
      (CommitmentUnique Lib.sha256 oneVote "s" "" ↔ "s" = "" ∧ "" = "") :=
  separated_iff oneVote_injective "s" "" 1 2 (.inl rfl) (.inr rfl)

/-- One secret, two elections; and two voters. -/
theorem one_nullifier_for_two_elections :
    compute_nullifier Lib.sha256 "s" 1 23 = compute_nullifier Lib.sha256 "s" 12 3 ∧
      compute_commitment Lib.sha256 "alice" "42" = compute_commitment Lib.sha256 "alice4" "2" :=
  ⟨congrArg (hexHash Lib.sha256) (by decide : nullifierMessage "s" 1 23 = nullifierMessage "s" 12 3),
    congrArg (hexHash Lib.sha256) (by decide : commitmentMessage "alice" "42" = commitmentMessage "alice4" "2")⟩

end ZkVote.Nova

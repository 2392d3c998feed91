import ZkVote.Prover.Groth16

/-!
# What is read from a file

A key or a witness is read without a panic exactly from the files whose sections hold what their counts
announce.
-/

open Lib Lib.Outcome

namespace ZkVote.Prover

variable {G1 G2 : Type} {K : Curves G1 G2}

/-! ## Points -/

theorem slice_rest {b : Bytes} {off : Nat} :
    slice b off b.length = if off ≤ b.length then some (b.drop off) else none := by
  unfold slice
  have htake : (b.drop off).take (b.length - off) = b.drop off := by
    rw [← List.length_drop]
    exact List.take_length
  simp only [le_refl, and_true, htake]

theorem slice_prefix {b : Bytes} {off n : Nat} :
    (slice b off b.length >>= fun rest => slice rest 0 n) =
      if off + n ≤ b.length then some ((b.drop off).take n) else none := by
  rw [slice_rest]
  unfold slice
  by_cases hfits : off + n ≤ b.length
  · have hoff : off ≤ b.length := by omega
    have hn : n ≤ b.length - off := by omega
    simp [hfits, hoff, hn]
  · by_cases hoff : off ≤ b.length
    · have hn : ¬ n ≤ b.length - off := by omega
      simp [hfits, hoff, hn]
    · simp [hfits, hoff]

theorem slice_piece {b : Bytes} {off n k : Nat} (hfits : off + n ≤ b.length) (hk : k + 32 ≤ n) :
    slice ((b.drop off).take n) k (k + 32) = some ((b.drop (off + k)).take 32) := by
  have hlength : ((b.drop off).take n).length = n := by
    rw [List.length_take, List.length_drop]
    omega
  rw [slice_eq_some]
  refine ⟨⟨by omega, by omega⟩, ?_⟩
  rw [List.drop_take, List.drop_drop, List.take_take, Nat.add_sub_cancel_left, Nat.min_eq_left (by omega)]

-- Stated for any function, so that no coordinate is computed.
theorem bind_two {α β : Type} (f : Bytes → α) (g : α → α → Option β) (x y : Bytes) :
    ((some x).map f >>= fun a => (some y).map f >>= fun b => g a b) = g (f x) (f y) := rfl

theorem bind_four {α β : Type} (f : Bytes → α) (g : α → α → α → α → Option β) (x y z w : Bytes) :
    ((some x).map f >>= fun a => (some y).map f >>= fun b => (some z).map f >>= fun c => (some w).map f >>= fun d =>
      g a b c d) = g (f x) (f y) (f z) (f w) := rfl

theorem read_g1_eq {b : Bytes} {off : Nat} (hfits : off + 64 ≤ b.length) :
    read_g1 K ((b.drop off).take 64) = point1 K (fqAt b off) (fqAt b (off + 32)) := by
  have hx : slice ((b.drop off).take 64) 0 32 = some ((b.drop off).take 32) := slice_piece hfits (by omega)
  have hy : slice ((b.drop off).take 64) 32 64 = some ((b.drop (off + 32)).take 32) := slice_piece hfits (by omega)
  unfold read_g1 fqAt
  rw [hx, hy]
  exact bind_two decode_fq (point1 K) _ _

theorem read_g2_eq {b : Bytes} {off : Nat} (hfits : off + 128 ≤ b.length) :
    read_g2 K ((b.drop off).take 128) =
      point2 K (fqAt b off) (fqAt b (off + 32)) (fqAt b (off + 64)) (fqAt b (off + 96)) := by
  have hxc0 : slice ((b.drop off).take 128) 0 32 = some ((b.drop off).take 32) := slice_piece hfits (by omega)
  have hxc1 : slice ((b.drop off).take 128) 32 64 = some ((b.drop (off + 32)).take 32) :=
    slice_piece hfits (by omega)
  have hyc0 : slice ((b.drop off).take 128) 64 96 = some ((b.drop (off + 64)).take 32) :=
    slice_piece hfits (by omega)
  have hyc1 : slice ((b.drop off).take 128) 96 128 = some ((b.drop (off + 96)).take 32) :=
    slice_piece hfits (by omega)
  unfold read_g2 fqAt
  rw [hxc0, hxc1, hyc0, hyc1]
  exact bind_four decode_fq (point2 K) _ _ _ _

@[simp] theorem isSome_read_g1_slice {b : Bytes} {off : Nat} : (read_g1_slice K b off).isSome ↔ Point1At K b off := by
  unfold read_g1_slice Point1At
  rw [← bind_assoc, slice_prefix]
  by_cases hfits : off + 64 ≤ b.length
  · rw [if_pos hfits, Option.bind_eq_bind, Option.bind_some, read_g1_eq hfits]
    simp only [hfits, true_and]
  · rw [if_neg hfits, Option.bind_eq_bind, Option.bind_none]
    simp only [hfits, false_and, Option.isSome_none, Bool.false_eq_true]

@[simp] theorem isSome_read_g2_slice {b : Bytes} {off : Nat} : (read_g2_slice K b off).isSome ↔ Point2At K b off := by
  unfold read_g2_slice Point2At
  rw [← bind_assoc, slice_prefix]
  by_cases hfits : off + 128 ≤ b.length
  · rw [if_pos hfits, Option.bind_eq_bind, Option.bind_some, read_g2_eq hfits]
    simp only [hfits, true_and]
  · rw [if_neg hfits, Option.bind_eq_bind, Option.bind_none]
    simp only [hfits, false_and, Option.isSome_none, Bool.false_eq_true]

theorem isSome_read_g1_vec {b : Bytes} {n : Nat} : (read_g1_vec K b n).isSome ↔ Points1In K b n := by
  unfold read_g1_vec Points1In
  simp only [mapM_isSome_iff, List.mem_range, isSome_read_g1_slice]

theorem isSome_read_g2_vec {b : Bytes} {n : Nat} : (read_g2_vec K b n).isSome ↔ Points2In K b n := by
  unfold read_g2_vec Points2In
  simp only [mapM_isSome_iff, List.mem_range, isSome_read_g2_slice]

theorem length_read_g1_vec {b : Bytes} {n : Nat} {v : List G1} (h : read_g1_vec K b n = some v) : v.length = n := by
  rw [length_of_mapM h, List.length_range]

theorem length_read_g2_vec {b : Bytes} {n : Nat} {v : List G2} (h : read_g2_vec K b n = some v) : v.length = n := by
  rw [length_of_mapM h, List.length_range]

/-! ## The header -/

theorem parse_header_counts {s2 : Bytes} {hd : Header G1 G2} (h : parse_header K s2 = some hd) :
    hd.n8r = n8rOf s2 ∧ hd.n_vars = nVarsOf s2 ∧ hd.n_public = nPublicOf s2 ∧ hd.domain_size = domainSizeOf s2 := by
  simp only [parse_header, Option.bind_eq_bind, Option.bind_eq_some_iff, Option.map_eq_some_iff, read_u32_eq_some,
    Option.pure_def, Option.some.injEq] at h
  obtain ⟨_, ⟨-, rfl⟩, -, -, _, ⟨-, rfl⟩, -, -, _, ⟨-, rfl⟩, _, ⟨-, rfl⟩, _, ⟨-, rfl⟩, -, -, -, -, -, -, -, -, -, -, -,
    -, rfl⟩ := h
  exact ⟨rfl, rfl, rfl, rfl⟩

theorem exists_of_isSome {α : Type} {o : Option α} {p : Prop} (h : o.isSome ↔ p) (hp : p) : ∃ a, o = some a :=
  Option.isSome_iff_exists.mp (h.mpr hp)

theorem isSome_parse_header {s2 : Bytes} : (parse_header K s2).isSome ↔ HeaderIn K s2 := by
  constructor
  · intro h
    simp only [parse_header, bind_isSome_iff, Option.map_eq_some_iff, read_u32_eq_some] at h
    obtain ⟨_, ⟨-, rfl⟩, -, -, _, ⟨-, rfl⟩, -, -, _, ⟨-, rfl⟩, _, ⟨-, rfl⟩, _, ⟨-, rfl⟩, p1, h1, p2, h2, p3, h3, p4, h4,
      p5, h5, p6, h6, -⟩ := h
    exact ⟨isSome_read_g1_slice.mp (Option.isSome_of_eq_some h1), isSome_read_g1_slice.mp (Option.isSome_of_eq_some h2),
      isSome_read_g2_slice.mp (Option.isSome_of_eq_some h3), isSome_read_g2_slice.mp (Option.isSome_of_eq_some h4),
      isSome_read_g1_slice.mp (Option.isSome_of_eq_some h5), isSome_read_g2_slice.mp (Option.isSome_of_eq_some h6)⟩
  · rintro ⟨h1, h2, h3, h4, h5, h6⟩
    have hend := h6.1
    unfold varsAt n8rOf at hend
    obtain ⟨p1, h1⟩ := exists_of_isSome isSome_read_g1_slice h1
    obtain ⟨p2, h2⟩ := exists_of_isSome isSome_read_g1_slice h2
    obtain ⟨p3, h3⟩ := exists_of_isSome isSome_read_g2_slice h3
    obtain ⟨p4, h4⟩ := exists_of_isSome isSome_read_g2_slice h4
    obtain ⟨p5, h5⟩ := exists_of_isSome isSome_read_g1_slice h5
    obtain ⟨p6, h6⟩ := exists_of_isSome isSome_read_g2_slice h6
    simp only [parse_header, bind_isSome_iff, Option.map_eq_some_iff, read_u32_eq_some, slice_eq_some]
    refine ⟨_, ⟨by omega, rfl⟩, _, ⟨_, ⟨⟨by omega, by omega⟩, rfl⟩, rfl⟩, _, ⟨by omega, rfl⟩, _,
      ⟨_, ⟨⟨by omega, by omega⟩, rfl⟩, rfl⟩, _, ⟨by omega, rfl⟩, _, ⟨by omega, rfl⟩, _, ⟨by omega, rfl⟩, p1, h1, p2, h2,
      p3, h3, p4, h4, p5, h5, p6, h6, rfl⟩

/-! ## The coefficients -/

theorem isSome_decode_fr_zk_coef {b : Bytes} : (decode_fr_zk_coef b).isSome ↔ b.length = 32 := by
  unfold decode_fr_zk_coef
  split
  · next h => simp only [Option.isSome_some, h]
  · next h => simp only [Option.isSome_none, h, Bool.false_eq_true]

theorem isSome_parse_coef {s4 : Bytes} {n8r i : Nat} :
    (parse_coef s4 n8r i).isSome ↔ n8r = 32 ∧ 4 + (i + 1) * 44 ≤ s4.length := by
  have hraw : ∀ raw, slice s4 (4 + i * (12 + n8r) + 12) (4 + i * (12 + n8r) + 12 + n8r) = some raw →
      raw.length = n8r := by
    intro raw hraw
    obtain ⟨⟨-, hend⟩, rfl⟩ := slice_eq_some.mp hraw
    rw [List.length_take, List.length_drop]
    omega
  constructor
  · intro h
    simp only [parse_coef, bind_isSome_iff] at h
    obtain ⟨-, -, -, -, -, -, raw, hslice, v, hv, -⟩ := h
    have hlength := isSome_decode_fr_zk_coef.mp (Option.isSome_of_eq_some hv)
    have h32 := (hraw raw hslice).symm.trans hlength
    subst h32
    exact ⟨rfl, by have hend := (slice_eq_some.mp hslice).1.2; omega⟩
  · rintro ⟨rfl, hend⟩
    have hslice : (slice s4 (4 + i * (12 + 32) + 12) (4 + i * (12 + 32) + 12 + 32)).isSome :=
      isSome_slice.mpr ⟨by omega, by omega⟩
    obtain ⟨raw, hslice⟩ := Option.isSome_iff_exists.mp hslice
    obtain ⟨v, hv⟩ := exists_of_isSome isSome_decode_fr_zk_coef (hraw raw hslice)
    simp only [parse_coef, bind_isSome_iff, read_u32_eq_some]
    exact ⟨_, ⟨by omega, rfl⟩, _, ⟨by omega, rfl⟩, _, ⟨by omega, rfl⟩, raw, hslice, v, hv, rfl⟩

theorem isSome_parse_coefs {s4 : Bytes} {n8r : Nat} : (parse_coefs s4 n8r).isSome ↔ CoefsIn s4 n8r := by
  unfold parse_coefs CoefsIn
  simp only [bind_isSome_iff, read_u32_eq_some, mapM_isSome_iff, List.mem_range, isSome_parse_coef]
  constructor
  · rintro ⟨n, ⟨hlength, rfl⟩, h⟩
    refine ⟨by omega, fun hpos => ?_⟩
    obtain ⟨h32, hend⟩ := h (u32At s4 0 - 1) (by omega)
    rw [Nat.sub_add_cancel hpos] at hend
    exact ⟨h32, hend⟩
  · rintro ⟨hlength, h⟩
    refine ⟨_, ⟨hlength, rfl⟩, fun i hi => ?_⟩
    obtain ⟨h32, hend⟩ := h (by omega)
    exact ⟨h32, by omega⟩

theorem length_parse_coefs {s4 : Bytes} {n8r : Nat} {coefs : List Coef} (h : parse_coefs s4 n8r = some coefs) :
    coefs.length = u32At s4 0 := by
  simp only [parse_coefs, Option.bind_eq_bind, Option.bind_eq_some_iff, read_u32_eq_some] at h
  obtain ⟨n, ⟨-, rfl⟩, h⟩ := h
  rw [length_of_mapM h, List.length_range]

theorem privateCount_eq_some {n_vars n_public n : Nat} :
    privateCount n_vars n_public = some n ↔ n_public + 1 ≤ n_vars ∧ n_vars - n_public - 1 = n := by
  unfold privateCount
  split <;> simp [*]

theorem isSome_privateCount {n_vars n_public : Nat} : (privateCount n_vars n_public).isSome ↔ n_public + 1 ≤ n_vars :=
  isSome_iff_of_eq_some fun _ => privateCount_eq_some

/-! ## One read after the other -/

section

variable {α β : Type} {bf : BinFile} {sections : List (Nat × Bytes)}

theorem safe_section_bind (hsections : ∀ id, bf.section id = some (sectionOf sections id)) {id : Nat} {missing : String}
    {f : Bytes → Outcome String β} {p : Bytes → Prop} (h : ∀ s, Safe (f s) ↔ p s) :
    Safe (sectionOr bf id missing >>= f) ↔ ∀ s, sectionOf sections id = some s → p s := by
  unfold sectionOr
  rw [hsections]
  cases sectionOf sections id with
  | none => simp [expect, orPanic, Safe, fail]
  | some s =>
    have hs := h s
    simp [expect, orPanic, hs]

theorem safe_expect_bind {o : Option α} {f : α → Outcome String β} {p q : Prop} (hsome : o.isSome ↔ p)
    (hrest : ∀ a, o = some a → (Safe (f a) ↔ q)) : Safe (expect o >>= f) ↔ p ∧ q := by
  rw [safe_bind, safe_expect, hsome]
  constructor
  · rintro ⟨hp, h⟩
    obtain ⟨a, ha⟩ := exists_of_isSome hsome hp
    exact ⟨hp, (hrest a ha).mp (h a (expect_eq_ok.mpr ha))⟩
  · rintro ⟨hp, hq⟩
    exact ⟨hp, fun a ha => (hrest a (expect_eq_ok.mp ha)).mpr hq⟩

theorem safe_expect_last {o : Option α} {f : α → β} {p : Prop} (hsome : o.isSome ↔ p) :
    Safe (expect o >>= fun a => (pure (f a) : Outcome String β)) ↔ p := by
  rw [safe_bind, safe_expect, hsome]
  simp

theorem safe_require_bind {p q : Prop} [Decidable p] {e : String} {f : Unit → Outcome String β} (h : Safe (f ()) ↔ q) :
    Safe (require p e >>= f) ↔ (p → q) := by
  rw [safe_bind, ← h]
  simp only [safe_require, require_eq_ok, true_and]
  exact ⟨fun hall hp => hall () hp, fun hone _ hp => hone hp⟩

end

variable {w : Nat} {buf : Bytes}

theorem sections_found {magic : Bytes} {bf : BinFile} (h : BinFile.parse w buf magic = .ok bf) (id : Nat) :
    bf.section id = some (sectionOf (bf.sections.map (BinFile.view buf)) id) := BinFile.section_eq h id

theorem safe_key {bf : BinFile} (h : BinFile.parse w buf zkeyMagic = .ok bf) :
    Safe (parse_zkey K w buf) ↔ KeyIn K (bf.sections.map (BinFile.view buf)) := by
  have hsections := sections_found h
  unfold parse_zkey KeyIn
  rw [h, ok_bind]
  generalize bf.sections.map (BinFile.view buf) = sections at hsections
  refine safe_section_bind hsections fun s1 => ?_
  refine safe_expect_bind isSome_read_u32 fun protocol_id hprotocol => ?_
  rw [← (read_u32_eq_some.mp hprotocol).2]
  refine safe_require_bind ?_
  refine safe_section_bind hsections fun s2 => ?_
  refine safe_expect_bind isSome_parse_header fun hd hhd => ?_
  obtain ⟨hn8r, hvars, hpublic, hdomain⟩ := parse_header_counts hhd
  rw [hn8r, hvars, hpublic, hdomain]
  refine safe_section_bind hsections fun s3 => ?_
  refine safe_expect_bind isSome_read_g1_vec fun ic _ => ?_
  refine safe_section_bind hsections fun s4 => ?_
  refine safe_expect_bind isSome_parse_coefs fun coefs _ => ?_
  refine safe_section_bind hsections fun s5 => ?_
  refine safe_expect_bind isSome_read_g1_vec fun a _ => ?_
  refine safe_section_bind hsections fun s6 => ?_
  refine safe_expect_bind isSome_read_g1_vec fun b1 _ => ?_
  refine safe_section_bind hsections fun s7 => ?_
  refine safe_expect_bind isSome_read_g2_vec fun b2 _ => ?_
  refine safe_section_bind hsections fun s8 => ?_
  refine safe_expect_bind isSome_privateCount fun n_private hprivate => ?_
  rw [(privateCount_eq_some.mp hprivate).2]
  refine safe_expect_bind isSome_read_g1_vec fun c _ => ?_
  refine safe_section_bind hsections fun s9 => ?_
  exact safe_expect_last isSome_read_g1_vec

theorem isSome_values {s2 : Bytes} {n8 n : Nat} :
    ((List.range n).mapM fun i => (slice s2 (i * n8) (i * n8 + n8)).map decode_fr_canonical).isSome ↔
      n * n8 ≤ s2.length := by
  simp only [mapM_isSome_iff, List.mem_range, Option.isSome_map, isSome_slice]
  constructor
  · intro h
    cases n with
    | zero => omega
    | succ n =>
      have hlast := (h n (Nat.lt_succ_self n)).2
      rw [Nat.succ_mul]
      exact hlast
  · intro h i hi
    have hle : (i + 1) * n8 ≤ n * n8 := Nat.mul_le_mul_right _ hi
    rw [Nat.succ_mul] at hle
    omega

theorem safe_witness {bf : BinFile} (h : BinFile.parse w buf wtnsMagic = .ok bf) :
    Safe (parse_wtns w buf) ↔ WitnessIn (bf.sections.map (BinFile.view buf)) := by
  have hsections := sections_found h
  unfold parse_wtns WitnessIn
  rw [h, ok_bind]
  generalize bf.sections.map (BinFile.view buf) = sections at hsections
  refine safe_section_bind hsections fun s1 => ?_
  have hboth : (0 + 4 ≤ s1.length ∧ 4 + u32At s1 0 + 4 ≤ s1.length) ↔ 8 + u32At s1 0 ≤ s1.length := by omega
  rw [← hboth, and_assoc]
  refine safe_expect_bind isSome_read_u32 fun n8 hn8 => ?_
  obtain ⟨-, rfl⟩ := read_u32_eq_some.mp hn8
  refine safe_expect_bind isSome_read_u32 fun n_vars hvars => ?_
  obtain ⟨-, rfl⟩ := read_u32_eq_some.mp hvars
  refine safe_section_bind hsections fun s2 => ?_
  exact safe_expect_last isSome_values

/-! ## Lengths -/

/-- The vectors of a key are as long as the counts of the file say. -/
def KeyLengths (w : Nat) (buf : Bytes) (pk : ProvingKey G1 G2) : Prop :=
  ∃ sections s2 s4, LaidOut w buf (u32At buf 8) 12 sections ∧ sectionOf sections 2 = some s2 ∧
    sectionOf sections 4 = some s4 ∧
    pk.n_vars = nVarsOf s2 ∧ pk.n_public = nPublicOf s2 ∧ pk.domain_size = domainSizeOf s2 ∧
    pk.ic.length = nPublicOf s2 + 1 ∧ pk.coefs.length = u32At s4 0 ∧ pk.a.length = nVarsOf s2 ∧
    pk.b1.length = nVarsOf s2 ∧ pk.b2.length = nVarsOf s2 ∧ pk.c.length = nVarsOf s2 - nPublicOf s2 - 1 ∧
    nPublicOf s2 + 1 ≤ nVarsOf s2 ∧ pk.h.length = domainSizeOf s2

theorem sectionOr_eq_ok {magic : Bytes} {bf : BinFile} (h : BinFile.parse w buf magic = .ok bf) {id : Nat}
    {missing : String} {s : Bytes} :
    sectionOr bf id missing = .ok s ↔ sectionOf (bf.sections.map (BinFile.view buf)) id = some s := by
  unfold sectionOr
  simp only [bind_eq_ok, expect_eq_ok, orPanic_eq_ok, sections_found h, Option.some.injEq, exists_eq_left']

theorem key_lengths {pk : ProvingKey G1 G2} (h : parse_zkey K w buf = .ok pk) : KeyLengths w buf pk := by
  simp only [parse_zkey, bind_eq_ok, expect_eq_ok, require_eq_ok, pure_eq_ok] at h
  obtain ⟨bf, hbf, s1, -, protocol_id, -, -, -, s2, h2, hd, hhd, s3, -, ic, hic, s4, h4, coefs, hcoefs, s5, -, a, ha, s6,
    -, b1, hb1, s7, -, b2, hb2, s8, -, n_private, hprivate, c, hc, s9, -, hs, hhs, rfl⟩ := h
  rw [sectionOr_eq_ok hbf] at h2 h4
  obtain ⟨hle, rfl⟩ := privateCount_eq_some.mp hprivate
  obtain ⟨-, hvars, hpublic, hdomain⟩ := parse_header_counts hhd
  rw [hvars, hpublic] at hc hle
  refine ⟨_, s2, s4, BinFile.laidOut_iff.mpr ⟨_, (BinFile.parse_eq_ok.mp hbf).2.2.2.2, rfl⟩, h2, h4, hvars, hpublic,
    hdomain, ?_, length_parse_coefs hcoefs, ?_, ?_, ?_, length_read_g1_vec hc, hle, ?_⟩
  · rw [length_read_g1_vec hic, hpublic]
  · rw [length_read_g1_vec ha, hvars]
  · rw [length_read_g1_vec hb1, hvars]
  · rw [length_read_g2_vec hb2, hvars]
  · rw [length_read_g1_vec hhs, hdomain]

theorem witness_length {x : Witness} (h : parse_wtns w buf = .ok x) : x.values.length = x.n_vars := by
  simp only [parse_wtns, bind_eq_ok, expect_eq_ok, pure_eq_ok] at h
  obtain ⟨bf, -, s1, -, n8, -, n_vars, -, s2, -, values, hvalues, rfl⟩ := h
  rw [length_of_mapM hvalues, List.length_range]

/-! ## Every file -/

/-- What is expected of the parsers on a file. -/
structure Robust (K : Curves G1 G2) (w : Nat) (buf : Bytes) : Prop where
  container_returns : ∀ magic, Safe (BinFile.parse w buf magic)
  key_returns : Safe (parse_zkey K w buf)
  witness_returns : Safe (parse_wtns w buf)
  inside : ∀ magic bf, BinFile.parse w buf magic = .ok bf →
    bf.sections.length = u32At buf 8 ∧ ∀ s ∈ bf.sections, s.offset + s.size ≤ buf.length
  key_lengths : ∀ pk, parse_zkey K w buf = .ok pk → KeyLengths w buf pk
  witness_length : ∀ x, parse_wtns w buf = .ok x → x.values.length = x.n_vars

/-- Every announced size can be added to its offset, and what is read of a section is there. -/
def WellCounted (K : Curves G1 G2) (w : Nat) (buf : Bytes) : Prop :=
  12 ≤ buf.length → SizesFit w buf (u32At buf 8) 12 ∧
    ∀ sections, LaidOut w buf (u32At buf 8) 12 sections →
      (buf.take 4 = zkeyMagic → KeyIn K sections) ∧ (buf.take 4 = wtnsMagic → WitnessIn sections)

/-- What follows the container is safe on every layout, if the container is. -/
theorem safe_after {α : Type} {magic : Bytes} {x : Outcome String α} {f : BinFile → Outcome String α}
    {p : List (Nat × Bytes) → Prop} (hx : x = BinFile.parse w buf magic >>= f)
    (hsafe : ∀ bf, BinFile.parse w buf magic = .ok bf → (Safe x ↔ p (bf.sections.map (BinFile.view buf)))) :
    Safe x ↔ (12 ≤ buf.length → buf.take 4 = magic → SizesFit w buf (u32At buf 8) 12) ∧
      (12 ≤ buf.length → buf.take 4 = magic → ∀ sections, LaidOut w buf (u32At buf 8) 12 sections → p sections) := by
  rw [← BinFile.safe_parse]
  constructor
  · intro h
    have hparse : Safe (BinFile.parse w buf magic) := by
      rw [hx, safe_bind] at h
      exact h.1
    refine ⟨hparse, ?_⟩
    intro hlength hmagic sections hlaid
    obtain ⟨found, hfound, rfl⟩ := BinFile.laidOut_iff.mp hlaid
    have hbf : BinFile.parse w buf magic =
        .ok { version := u32At buf 4, sections := found, data := buf } :=
      BinFile.parse_eq_ok.mpr ⟨hlength, hmagic, rfl, rfl, hfound⟩
    exact (hsafe _ hbf).mp h
  · rintro ⟨hparse, hp⟩
    cases hbf : BinFile.parse w buf magic with
    | ok bf =>
      obtain ⟨hlength, hmagic, -, -, hfound⟩ := BinFile.parse_eq_ok.mp hbf
      exact (hsafe bf hbf).mpr (hp hlength hmagic _ (BinFile.laidOut_iff.mpr ⟨_, hfound, rfl⟩))
    | error e =>
      rw [hbf] at hparse
      rw [hx, hbf]
      simpa [Safe] using hparse

/-- One section, whose size is the largest there is. -/
def oversized : Bytes := zkeyMagic ++ [1, 0, 0, 0, 1, 0, 0, 0, 1, 0, 0, 0] ++ List.replicate 8 0xff

/-- One section, of no bytes. -/
def emptySection : Bytes := zkeyMagic ++ [1, 0, 0, 0, 1, 0, 0, 0, 1, 0, 0, 0] ++ List.replicate 8 0

def anyPoint : Curves Unit Unit where
  identity1 := ()
  new1 _ _ := some ()
  identity2 := ()
  new2 _ _ := some ()

end ZkVote.Prover

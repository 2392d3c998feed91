import ZkVote.Lib.Reading

/-!
# Containers of sections

`zkvote-prover/src/binfile.rs`. A `usize` has `w` bits.
-/

open Lib Lib.Outcome

namespace ZkVote.Prover

structure Section where
  id : Nat
  offset : Nat
  size : Nat
  deriving DecidableEq

structure BinFile where
  version : Nat
  sections : List Section
  data : Bytes

/-- `{:?}` of bytes. -/
def debugBytes (bs : Bytes) : String := "[" ++ ", ".intercalate (bs.map fun b => b.toNat.repr) ++ "]"

/-- `u32::from_le_bytes` of the four bytes from `off` on. -/
def read_u32 (b : Bytes) (off : Nat) : Option Nat := (slice b off (off + 4)).map fromLe

def read_u64 (b : Bytes) (off : Nat) : Option Nat := (slice b off (off + 8)).map fromLe

namespace BinFile

/-- The loop over `n` sections. `offset + 12` is no more than twelve past the buffer. -/
def parse_sections (w : Nat) (buf : Bytes) : Nat → Nat → Outcome String (List Section)
  | 0, _ => .ok []
  | n + 1, offset => do
    require (offset + 12 ≤ buf.length) "truncated section header"
    let id ← expect (read_u32 buf offset)
    let size ← expect (read_u64 buf (offset + 4))
    let size := size % 2 ^ w
    let offset := offset + 12
    let stop ← expect (checkedAdd w offset size)
    require (stop ≤ buf.length) "section data out of bounds"
    let sections ← parse_sections w buf n stop
    return { id, offset, size } :: sections

def parse (w : Nat) (buf magic : Bytes) : Outcome String BinFile := do
  require (12 ≤ buf.length) "file too short"
  require (buf.take 4 = magic) ("bad magic: expected " ++ debugBytes magic ++ " got " ++ debugBytes (buf.take 4))
  let version ← expect (read_u32 buf 4)
  let n_sections ← expect (read_u32 buf 8)
  let sections ← parse_sections w buf n_sections 12
  return { version, sections, data := buf }

/-- The outer option is a panic, the inner one the section that was looked for. -/
def «section» (bf : BinFile) (id : Nat) : Option (Option Bytes) :=
  match bf.sections.find? fun s => s.id == id with
  | some s => (slice bf.data s.offset (s.offset + s.size)).map some
  | none => some none

end BinFile

/-! ## Reading integers -/

/-- The number in the four bytes from `off` on. -/
def u32At (b : Bytes) (off : Nat) : Nat := fromLe ((b.drop off).take 4)

def u64At (b : Bytes) (off : Nat) : Nat := fromLe ((b.drop off).take 8)

@[simp] theorem read_u32_eq_some {b : Bytes} {off n : Nat} :
    read_u32 b off = some n ↔ off + 4 ≤ b.length ∧ u32At b off = n := by
  have hle : off ≤ off + 4 := Nat.le_add_right _ _
  simp [read_u32, u32At, Option.map_eq_some_iff, hle]

@[simp] theorem read_u64_eq_some {b : Bytes} {off n : Nat} :
    read_u64 b off = some n ↔ off + 8 ≤ b.length ∧ u64At b off = n := by
  have hle : off ≤ off + 8 := Nat.le_add_right _ _
  simp [read_u64, u64At, Option.map_eq_some_iff, hle]

theorem isSome_iff_of_eq_some {α : Type} {o : Option α} {p : Prop} {a : α} (h : ∀ x, o = some x ↔ p ∧ a = x) :
    o.isSome ↔ p := by
  rw [Option.isSome_iff_exists]
  constructor
  · rintro ⟨x, hx⟩
    exact ((h x).mp hx).1
  · intro hp
    exact ⟨a, (h a).mpr ⟨hp, rfl⟩⟩

@[simp] theorem isSome_slice {b : Bytes} {lo hi : Nat} : (slice b lo hi).isSome ↔ lo ≤ hi ∧ hi ≤ b.length :=
  isSome_iff_of_eq_some fun _ => slice_eq_some

@[simp] theorem isSome_read_u32 {b : Bytes} {off : Nat} : (read_u32 b off).isSome ↔ off + 4 ≤ b.length :=
  isSome_iff_of_eq_some fun _ => read_u32_eq_some

@[simp] theorem isSome_read_u64 {b : Bytes} {off : Nat} : (read_u64 b off).isSome ↔ off + 8 ≤ b.length :=
  isSome_iff_of_eq_some fun _ => read_u64_eq_some

@[simp] theorem isSome_checkedAdd {w a b : Nat} : (checkedAdd w a b).isSome ↔ a + b < 2 ^ w :=
  isSome_iff_of_eq_some fun _ => checkedAdd_eq_some

/-! ## What a buffer is laid out as -/

/-- The size that the header at `offset` announces. -/
def sizeAt (w : Nat) (buf : Bytes) (offset : Nat) : Nat := u64At buf (offset + 4) % 2 ^ w

/-- Every size that is announced, up to the first that is not there, can be added to its offset. -/
def SizesFit (w : Nat) (buf : Bytes) : Nat → Nat → Prop
  | 0, _ => True
  | n + 1, offset => offset + 12 ≤ buf.length →
      offset + 12 + sizeAt w buf offset < 2 ^ w ∧
        (offset + 12 + sizeAt w buf offset ≤ buf.length → SizesFit w buf n (offset + 12 + sizeAt w buf offset))

/-- `sections` are the next ones, one after the other, each inside the buffer. -/
def LaidOut (w : Nat) (buf : Bytes) : Nat → Nat → List (Nat × Bytes) → Prop
  | 0, _, sections => sections = []
  | n + 1, offset, sections => ∃ rest,
      offset + 12 + sizeAt w buf offset < 2 ^ w ∧ offset + 12 + sizeAt w buf offset ≤ buf.length ∧
        sections = (u32At buf offset, (buf.drop (offset + 12)).take (sizeAt w buf offset)) :: rest ∧
          LaidOut w buf n (offset + 12 + sizeAt w buf offset) rest

namespace BinFile

variable {w : Nat} {buf magic : Bytes}

theorem safe_parse_sections {n offset : Nat} : Safe (parse_sections w buf n offset) ↔ SizesFit w buf n offset := by
  induction n generalizing offset with
  | zero => simp [parse_sections, SizesFit]
  | succ n ih =>
    have hsize : offset + 4 + 8 = offset + 12 := by omega
    simp only [parse_sections, SizesFit, sizeAt, safe_bind, safe_require, safe_expect, isSome_read_u32, isSome_read_u64,
      isSome_checkedAdd, safe_pure, require_eq_ok, expect_eq_ok, read_u32_eq_some, read_u64_eq_some,
      checkedAdd_eq_some, ih, hsize]
    constructor
    · rintro ⟨-, h⟩ hheader
      obtain ⟨-, h⟩ := h () hheader
      obtain ⟨-, h⟩ := h _ ⟨by omega, rfl⟩
      obtain ⟨hfits, h⟩ := h _ ⟨hheader, rfl⟩
      refine ⟨hfits, ?_⟩
      intro hinside
      obtain ⟨-, h⟩ := h _ ⟨hfits, rfl⟩
      exact (h () hinside).1
    · intro h
      refine ⟨trivial, ?_⟩
      intro _ hheader
      obtain ⟨hfits, hrest⟩ := h hheader
      refine ⟨by omega, ?_⟩
      rintro id ⟨-, rfl⟩
      refine ⟨hheader, ?_⟩
      rintro size ⟨-, rfl⟩
      refine ⟨hfits, ?_⟩
      rintro stop ⟨-, rfl⟩
      refine ⟨trivial, ?_⟩
      intro _ hinside
      exact ⟨hrest hinside, fun _ _ => trivial⟩

/-- A section as a reader sees it. -/
def view (buf : Bytes) (s : Section) : Nat × Bytes := (s.id, (buf.drop s.offset).take s.size)

theorem laidOut_iff {n offset : Nat} {sections : List (Nat × Bytes)} :
    LaidOut w buf n offset sections ↔
      ∃ found, parse_sections w buf n offset = .ok found ∧ sections = found.map (view buf) := by
  induction n generalizing offset sections with
  | zero => simp [LaidOut, parse_sections]
  | succ n ih =>
    have hsize : offset + 4 + 8 = offset + 12 := by omega
    simp only [parse_sections, LaidOut, sizeAt, bind_eq_ok, require_eq_ok, expect_eq_ok, read_u32_eq_some,
      read_u64_eq_some, checkedAdd_eq_some, pure_eq_ok, ih, hsize]
    constructor
    · rintro ⟨rest, hfits, hinside, rfl, found, hfound, rfl⟩
      exact ⟨_, ⟨(), by omega, _, ⟨by omega, rfl⟩, _, ⟨by omega, rfl⟩, _, ⟨hfits, rfl⟩, (), hinside, found, hfound,
        rfl⟩, rfl⟩
    · rintro ⟨_, ⟨-, hheader, id, ⟨-, rfl⟩, size, ⟨-, rfl⟩, stop, ⟨hfits, rfl⟩, -, hinside, found, hfound, rfl⟩,
        rfl⟩
      exact ⟨_, hfits, hinside, rfl, found, hfound, rfl⟩

theorem parse_sections_inside {n offset : Nat} {found : List Section} (h : parse_sections w buf n offset = .ok found) :
    found.length = n ∧ ∀ s ∈ found, s.offset + s.size ≤ buf.length := by
  induction n generalizing offset found with
  | zero =>
    simp only [parse_sections, Except.ok.injEq] at h
    subst h
    simp
  | succ n ih =>
    simp only [parse_sections, bind_eq_ok, require_eq_ok, expect_eq_ok, checkedAdd_eq_some, pure_eq_ok] at h
    obtain ⟨-, -, id, -, size, -, stop, ⟨-, rfl⟩, -, hinside, rest, hrest, rfl⟩ := h
    obtain ⟨hlength, hrest⟩ := ih hrest
    refine ⟨by rw [List.length_cons, hlength], ?_⟩
    intro s hs
    rcases List.mem_cons.mp hs with rfl | hs
    · exact hinside
    · exact hrest s hs

theorem parse_eq_ok {bf : BinFile} : parse w buf magic = .ok bf ↔
    12 ≤ buf.length ∧ buf.take 4 = magic ∧ bf.version = u32At buf 4 ∧ bf.data = buf ∧
      parse_sections w buf (u32At buf 8) 12 = .ok bf.sections := by
  simp only [parse, bind_eq_ok, require_eq_ok, expect_eq_ok, read_u32_eq_some, pure_eq_ok]
  constructor
  · rintro ⟨-, hlength, -, hmagic, version, ⟨-, rfl⟩, n, ⟨-, rfl⟩, found, hfound, rfl⟩
    exact ⟨hlength, hmagic, rfl, rfl, hfound⟩
  · rintro ⟨hlength, hmagic, hversion, hdata, hfound⟩
    refine ⟨(), hlength, (), hmagic, _, ⟨by omega, rfl⟩, _, ⟨hlength, rfl⟩, _, hfound, ?_⟩
    cases bf
    simp_all

theorem safe_parse : Safe (parse w buf magic) ↔
    (12 ≤ buf.length → buf.take 4 = magic → SizesFit w buf (u32At buf 8) 12) := by
  simp only [parse, safe_bind, safe_require, safe_expect, isSome_read_u32, safe_pure, require_eq_ok, expect_eq_ok,
    read_u32_eq_some, safe_parse_sections]
  constructor
  · rintro ⟨-, h⟩ hlength hmagic
    obtain ⟨-, h⟩ := h () hlength
    obtain ⟨-, h⟩ := h () hmagic
    obtain ⟨-, h⟩ := h _ ⟨by omega, rfl⟩
    exact (h _ ⟨hlength, rfl⟩).1
  · intro h
    refine ⟨trivial, fun _ hlength => ⟨trivial, fun _ hmagic => ⟨by omega, ?_⟩⟩⟩
    rintro version ⟨-, rfl⟩
    refine ⟨hlength, ?_⟩
    rintro n ⟨-, rfl⟩
    exact ⟨h hlength hmagic, fun _ _ => trivial⟩

/-- Looking a section up does not leave the buffer. -/
theorem section_eq {bf : BinFile} (h : parse w buf magic = .ok bf) (id : Nat) :
    bf.section id = some ((bf.sections.map (view buf)).lookup id) := by
  obtain ⟨-, -, -, hdata, hfound⟩ := parse_eq_ok.mp h
  obtain ⟨-, hinside⟩ := parse_sections_inside hfound
  unfold «section»
  rw [hdata]
  clear hfound
  generalize bf.sections = sections at hinside ⊢
  induction sections with
  | nil => rfl
  | cons s found ih =>
    rw [List.map_cons, view, List.find?_cons, List.lookup_cons]
    by_cases hid : s.id = id
    · have hid' : (s.id == id) = true := beq_iff_eq.mpr hid
      have hid'' : (id == s.id) = true := beq_iff_eq.mpr hid.symm
      have hend := hinside s List.mem_cons_self
      simp only [hid', hid'']
      rw [Option.map_eq_some_iff]
      exact ⟨_, slice_eq_some.mpr ⟨⟨Nat.le_add_right _ _, hend⟩, rfl⟩, by rw [Nat.add_sub_cancel_left]⟩
    · have hid' : (s.id == id) = false := beq_eq_false_iff_ne.mpr hid
      have hid'' : (id == s.id) = false := beq_eq_false_iff_ne.mpr (Ne.symm hid)
      simp only [hid', hid'']
      exact ih fun t ht => hinside t (List.mem_cons_of_mem _ ht)

end BinFile

end ZkVote.Prover

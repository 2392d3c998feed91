import Mathlib.Logic.Function.Basic
import ZkVote.Backend.ReplayValues
import ZkVote.Lib.Sha256

/-!
# What a replay gives

A fixture replays to the state that was recorded, in memory and from its file, in any order of its interactions, as
long as the reducer throws on none of them and reads nothing through a prototype.
-/

open Lib.JsonText

namespace ZkVote.Replay

variable {ν : Type} {platform : Platform ν} {v : Value ν} {items : List (Value ν)}
  {entries : List (Text × Value ν)} {key : Text} {digest : Text → Text}

/-! ## Sorting by sequence number -/

/-- The interactions are numbered from 0 in the order in which they were recorded. -/
def Numbered (platform : Platform ν) (interactions : List (RelayInteraction ν)) : Prop :=
  interactions.map RelayInteraction.seq = (List.range interactions.length).map platform.ofNat

/-- A list is sorted into the only order in which the ranks of its entries go up. -/
theorem mergeSort_of_rank {α : Type} {le : α → α → Bool} (rank : α → Nat) {l sorted : List α}
    (hle : ∀ a ∈ sorted, ∀ b ∈ sorted, le a b = decide (rank a ≤ rank b))
    (hsorted : sorted.Pairwise fun a b => rank a < rank b) (hperm : l.Perm sorted) : l.mergeSort le = sorted := by
  have hagree : ∀ a ∈ l, ∀ b ∈ l, le a b = decide (rank (id a) ≤ rank (id b)) :=
    fun a ha b hb => hle a (hperm.mem_iff.mp ha) b (hperm.mem_iff.mp hb)
  have hmap := List.map_mergeSort (s := fun a b => decide (rank a ≤ rank b)) hagree
  rw [List.map_id, List.map_id] at hmap
  rw [hmap]
  have hdistinct : (sorted.map rank).Nodup := List.pairwise_map.mpr (hsorted.imp Nat.ne_of_lt)
  have hordered : (l.mergeSort fun a b => decide (rank a ≤ rank b)).Pairwise fun a b => rank a ≤ rank b := by
    have hmerge : (l.mergeSort fun a b => decide (rank a ≤ rank b)).Pairwise
        fun a b => decide (rank a ≤ rank b) = true := by
      apply List.pairwise_mergeSort
      · intro a b c hab hbc
        rw [decide_eq_true_eq] at hab hbc ⊢
        exact hab.trans hbc
      · intro a b
        rw [Bool.or_eq_true, decide_eq_true_eq, decide_eq_true_eq]
        exact le_total _ _
    exact hmerge.imp fun h => of_decide_eq_true h
  have hsame := (List.mergeSort_perm l fun a b => decide (rank a ≤ rank b)).trans hperm
  refine List.Perm.eq_of_pairwise ?_ hordered (hsorted.imp Nat.le_of_lt) hsame
  intro a b ha hb hab hba
  exact List.inj_on_of_nodup_map hdistinct (hsame.mem_iff.mp ha) hb (le_antisymm hab hba)

theorem exists_rank (hlawful : Lawful platform) : ∃ rank : ν → Nat, ∀ n < 2 ^ 53, rank (platform.ofNat n) = n := by
  refine ⟨Function.invFunOn platform.ofNat {n | n < 2 ^ 53}, ?_⟩
  intro n hn
  apply Set.InjOn.leftInvOn_invFunOn (s := {n | n < 2 ^ 53}) ?_ hn
  intro m hm n hn heq
  have hle := hlawful.le m hm n hn
  have hge := hlawful.le n hn m hm
  rw [heq] at hle hge
  rw [hlawful.le n hn n hn] at hle hge
  simp only [le_refl, decide_true, true_eq_decide_iff] at hle hge
  exact le_antisymm hle hge

theorem sort_perm (hlawful : Lawful platform) {interactions permuted : List (RelayInteraction ν)}
    (hlength : interactions.length ≤ 2 ^ 53) (hnumbered : Numbered platform interactions)
    (hperm : permuted.Perm interactions) :
    (permuted.mergeSort fun a b => platform.le a.seq b.seq) = interactions := by
  obtain ⟨rank, hrank⟩ := exists_rank hlawful
  have hranks : interactions.map (fun i => rank i.seq) = List.range interactions.length := by
    have hmap := congrArg (List.map rank) hnumbered
    rw [List.map_map, List.map_map] at hmap
    rw [show (fun i : RelayInteraction ν => rank i.seq) = rank ∘ RelayInteraction.seq from rfl, hmap]
    refine (List.map_congr_left ?_).trans (List.map_id _)
    intro n hn
    exact hrank n ((List.mem_range.mp hn).trans_le hlength)
  have hseq : ∀ i ∈ interactions, ∃ n < 2 ^ 53, i.seq = platform.ofNat n := by
    intro i hi
    have hmem : i.seq ∈ (List.range interactions.length).map platform.ofNat := by
      rw [← hnumbered]
      exact List.mem_map_of_mem hi
    obtain ⟨n, hn, heq⟩ := List.mem_map.mp hmem
    exact ⟨n, (List.mem_range.mp hn).trans_le hlength, heq.symm⟩
  apply mergeSort_of_rank (fun i => rank i.seq) ?_ ?_ hperm
  · intro a ha b hb
    obtain ⟨m, hm, hma⟩ := hseq a ha
    obtain ⟨n, hn, hnb⟩ := hseq b hb
    rw [hma, hnb, hlawful.le m hm n hn, hrank m hm, hrank n hn]
  · rw [← List.pairwise_map, hranks]
    exact List.pairwise_lt_range

/-! ## What the reducer reads -/

/-- An object that is converted to a text as objects are. -/
def Plain : Value ν → Prop
  | .obj _ entries => ∀ e ∈ entries, e.1 ≠ units "__proto__" ∧ e.1 ≠ units "toString"
  | _ => True

/-- `String` neither throws nor meets a prototype. -/
def Convertible : Value ν → Prop
  | .arr items => ∀ v ∈ items, Plain v
  | v => Plain v

/-- The labels of interactions that are reduced. -/
def LABELS : List Text := ["rpc.getLatestLedger", "db.addEvent", "db.setWatermark"].map units

/-- A payload that is read has no prototype of its own, and a type and a timestamp that can be converted. -/
def Readable (recorded : Recorded ν) : Prop :=
  (recorded.label ∈ LABELS → ∀ e ∈ recorded.payload, e.1 ≠ units "__proto__") ∧
    (recorded.label = units "db.addEvent" →
      ∀ e ∈ recorded.payload, e.1 = units "type" ∨ e.1 = units "timestamp" → Convertible e.2)

/-- A value whose text can be told from what it is read back as. -/
inductive Stable : Value ν → Prop
  | null : Stable .null
  | bool (b : Bool) : Stable (.bool b)
  | num (n : ν) : Stable (.num n)
  | str (t : Text) : Stable (.str t)
  | arr {items : List (Value ν)} (h : ∀ v ∈ items, Stable v) : Stable (.arr items)
  | obj {entries : List (Text × Value ν)} (h : ∀ e ∈ entries, e.1 ≠ units "toString") : Stable (.obj none entries)

theorem joined_of_forall {items' : List (Value ν)} {f : Value ν → Value ν} (hnull : f .null = .null)
    (hother : ∀ v, f v = .null → v = .null) (heq : items' = items.map f)
    (h : ∀ v ∈ items, ∃ t, toText platform v = some t ∧ toText platform (f v) = some t) :
    ∃ ts, joined platform items = some ts ∧ joined platform items' = some ts := by
  subst heq
  induction items with
  | nil => exact ⟨[], rfl, rfl⟩
  | cons v items ih =>
    rw [List.forall_mem_cons] at h
    obtain ⟨ts, hts, hts'⟩ := ih h.2
    rw [List.map_cons]
    by_cases hv : v = .null
    · subst hv
      rw [hnull]
      refine ⟨[] :: ts, ?_, ?_⟩
      · rw [joined, hts]
        rfl
      · rw [joined, hts']
        rfl
    · obtain ⟨t, ht, ht'⟩ := h.1
      refine ⟨t :: ts, ?_, ?_⟩
      · rw [joined]
        · simp only [ht, hts]
        · exact hv
      · rw [joined]
        · simp only [ht', hts']
        · exact fun hnull' => hv (hother v hnull')

theorem normal_eq_null (h : normal v = .null) : v = .null := by
  cases v with
  | null => rfl
  | bool | num | str => exact h
  | arr | obj =>
    rw [normal] at h
    cases h

/-- A text is the same of the value that is read back. -/
theorem Stable.toText (platform : Platform ν) (h : Stable v) :
    ∃ t, Replay.toText platform v = some t ∧ Replay.toText platform (normal v) = some t := by
  induction h with
  | null => exact ⟨_, rfl, rfl⟩
  | bool b => exact ⟨_, rfl, rfl⟩
  | num n => exact ⟨_, rfl, rfl⟩
  | str t => exact ⟨_, rfl, rfl⟩
  | @arr items _ ih =>
    obtain ⟨ts, hts, hts'⟩ := joined_of_forall (f := normal) rfl (fun v => normal_eq_null) rfl ih
    refine ⟨[comma].intercalate ts, ?_, ?_⟩
    · rw [Replay.toText, hts]
      rfl
    · rw [normal, normalItems_eq, Replay.toText, hts']
      rfl
  | @obj entries hentries =>
    have hmethod : ∀ es : List (Text × Value ν), (∀ e ∈ es, e.1 ≠ units "toString") →
        Replay.toText platform (.obj none es) = some (units "[object Object]") := by
      intro es hes
      have hordinary : toStringMethod (.obj none es) = .ordinary := by
        rw [toStringMethod, lookup_eq_none.mpr hes]
        rfl
      rw [Replay.toText, hordinary]
    refine ⟨_, hmethod entries hentries, ?_⟩
    rw [normal]
    apply hmethod
    intro e he
    rw [(List.mergeSort_perm _ _).mem_iff, normalEntries_eq] at he
    obtain ⟨e', he', rfl⟩ := List.mem_map.mp he
    exact hentries e' he'

theorem stable_redactEntries (hplain : Plain (.obj none entries)) : Stable (build (redactEntries digest entries)) := by
  rw [redactEntries_eq, build_of_ne]
  · refine .obj ?_
    rw [List.forall_mem_map]
    exact fun e he => (hplain e he).2
  · rw [List.forall_mem_map]
    exact fun e he => (hplain e he).1

theorem stable_redactItem (digest : Text → Text) (h : Plain v) : Stable (redactItem digest v) := by
  cases v with
  | null => exact .null
  | bool b => exact .bool b
  | num n => exact .num n
  | str t => exact .str t
  | arr items =>
    rw [redactItem, build_redactIndexed]
    refine .obj ?_
    intro e he
    obtain ⟨j, -, hkey, -⟩ := mem_redactIndexed he
    rw [hkey]
    exact (indexKey_ne j).2
  | obj proto entries => exact stable_redactEntries h

theorem stable_redactValue (digest : Text → Text) (h : Convertible v) : Stable (redactValue digest v) := by
  cases v with
  | null => exact .null
  | bool b => exact .bool b
  | num n => exact .num n
  | str t => exact .str t
  | arr items =>
    rw [redactValue, redactItems_eq]
    refine .arr ?_
    rw [List.forall_mem_map]
    exact fun v hv => stable_redactItem digest (h v hv)
  | obj proto entries => exact stable_redactEntries h

/-! ## Two payloads that are read alike -/

/-- The reducer reads the same of the two. -/
structure Agree (platform : Platform ν) (label : Text) (p q : Value ν) : Prop where
  numbers : label ∈ LABELS → ∀ key ∈ ["sequence", "daoId", "ledger"].map units,
    asNumber platform (get key q) = asNumber platform (get key p)
  txHash : label = units "db.addEvent" → textAt (units "txHash") q = textAt (units "txHash") p
  texts : label = units "db.addEvent" → ∀ key ∈ ["type", "timestamp"].map units, ∀ fallback,
    textOr platform fallback (get key q) = textOr platform fallback (get key p)

variable {state : ReplayState ν} {interaction other : RelayInteraction ν} {p q : Value ν}

theorem Agree.apply (h : Agree platform interaction.label interaction.payload other.payload)
    (hlabel : other.label = interaction.label) :
    applyInteraction platform state other = applyInteraction platform state interaction := by
  obtain ⟨hnumbers, htxHash, htexts⟩ := h
  unfold applyInteraction
  rw [hlabel]
  split
  · next hlabel => rw [hnumbers (by rw [hlabel]; decide) _ (by simp)]
  split
  · next hlabel =>
    have hnumbers' := hnumbers (by rw [hlabel]; decide)
    unfold replayEvent
    rw [htexts hlabel _ (by simp), htexts hlabel (units "timestamp") (by simp), hnumbers' (units "daoId") (by simp),
      hnumbers' (units "ledger") (by simp), htxHash hlabel]
  split
  · next hlabel => rw [hnumbers (by rw [hlabel]; decide) _ (by simp)]
  · rfl

theorem get_literal (key : Text) (entries : List (Text × Value ν)) :
    get key (.obj none entries) = entries.lookup key := by
  rw [get]
  cases entries.lookup key with
  | none => rfl
  | some v => rfl

theorem asNumber_normal (v : Option (Value ν)) : asNumber platform (v.map normal) = asNumber platform v := by
  cases v with
  | none => rfl
  | some v => cases v <;> rfl

theorem asNumber_redactValue (v : Option (Value ν)) :
    asNumber platform (v.map (redactValue digest)) = asNumber platform v := by
  cases v with
  | none => rfl
  | some v => cases v <;> rfl

theorem textAt_of_map {f : Value ν → Value ν} (hget : get key q = (get key p).map f)
    (hf : ∀ v t, f v = .str t ↔ v = .str t) : textAt key q = textAt key p := by
  unfold textAt
  rw [hget]
  cases get key p with
  | none => rfl
  | some v =>
    cases v with
    | str t => simp only [Option.map_some, (hf (.str t) t).mpr rfl]
    | null | bool | num | arr | obj =>
      rw [Option.map_some]
      split
      · next t heq => exact absurd ((hf _ t).mp (Option.some.inj heq)) (by simp)
      · rfl

theorem normal_eq_str (v : Value ν) (t : Text) : normal v = .str t ↔ v = .str t := by
  cases v <;> simp [normal]

theorem redactValue_eq_str (v : Value ν) (t : Text) : redactValue digest v = .str t ↔ v = .str t := by
  cases v <;> simp [redactValue, build]

/-- A value that is stable gives a text, the same when it is read back. -/
theorem textOr_normal (platform : Platform ν) {o : Option (Value ν)} (h : ∀ v ∈ o, Stable v) (fallback : Text) :
    ∃ t, textOr platform fallback o = some t ∧ textOr platform fallback (o.map normal) = some t := by
  cases o with
  | none => exact ⟨fallback, rfl, rfl⟩
  | some v =>
    by_cases hv : v = .null
    · subst hv
      exact ⟨fallback, rfl, rfl⟩
    · obtain ⟨t, ht, ht'⟩ := (h v rfl).toText platform
      refine ⟨t, ?_, ?_⟩
      · rw [textOr]
        · exact ht
        · simpa using hv
      · rw [Option.map_some, textOr]
        · exact ht'
        · simpa using fun hnull => hv (normal_eq_null hnull)

theorem lookup_redactEntries (hkey : isSensitive key = false) (entries : List (Text × Value ν)) :
    (redactEntries digest entries).lookup key = (entries.lookup key).map (redactValue digest) := by
  induction entries with
  | nil => rfl
  | cons e entries ih =>
    rw [redactEntries, List.lookup_cons, List.lookup_cons, ih]
    by_cases hsame : key = e.1
    · subst hsame
      simp only [beq_self_eq_true, hkey, Bool.false_eq_true, if_false, Option.map_some]
    · rw [beq_eq_false_iff_ne.mpr hsame]

/-- Type, transaction and timestamp of an event are strings. -/
def Strings (recorded : Recorded ν) : Prop :=
  recorded.label = units "db.addEvent" →
    ∀ key ∈ ["type", "txHash", "timestamp"].map units, ∃ t, recorded.payload.lookup key = some (.str t)

section

variable {recorded : Recorded ν} (hreadable : Readable recorded)

include hreadable

theorem redacted_literal (hlabel : recorded.label ∈ LABELS) :
    redactInteractionPayload digest recorded.payload = .obj none (redactEntries digest recorded.payload) := by
  apply build_of_ne
  rw [redactEntries_eq, List.forall_mem_map]
  exact hreadable.1 hlabel

theorem get_redacted (hlabel : recorded.label ∈ LABELS) (hkey : isSensitive key = false) :
    get key (redactInteractionPayload digest recorded.payload) =
      (recorded.payload.lookup key).map (redactValue digest) := by
  rw [redacted_literal hreadable hlabel, get_literal, lookup_redactEntries hkey]

theorem stable_redacted (hlabel : recorded.label = units "db.addEvent") (hkeys : (recorded.payload.map Prod.fst).Nodup)
    (hkey : key ∈ ["type", "timestamp"].map units) :
    ∀ v ∈ (recorded.payload.lookup key).map (redactValue digest), Stable v := by
  intro v hv
  obtain ⟨w, hw, rfl⟩ := Option.map_eq_some_iff.mp hv
  apply stable_redactValue
  apply hreadable.2 hlabel _ ((lookup_eq_some hkeys).mp hw)
  simpa using hkey

theorem agree_normal (hkeys : (recorded.payload.map Prod.fst).Nodup) :
    Agree platform recorded.label (redactInteractionPayload digest recorded.payload)
      (normal (redactInteractionPayload digest recorded.payload)) := by
  have hget : recorded.label ∈ LABELS → ∀ key, get key (normal (redactInteractionPayload digest recorded.payload)) =
      (get key (redactInteractionPayload digest recorded.payload)).map normal := by
    intro hlabel key
    have hdistinct : ((redactEntries digest recorded.payload).map Prod.fst).Nodup := by
      rw [redactEntries_eq, List.map_map]
      exact hkeys
    rw [redacted_literal hreadable hlabel, get_normal hdistinct, get_literal]
  have hadd : recorded.label = units "db.addEvent" → recorded.label ∈ LABELS := by
    intro hlabel
    rw [hlabel]
    decide
  constructor
  · intro hlabel key _
    rw [hget hlabel, asNumber_normal]
  · intro hlabel
    exact textAt_of_map (hget (hadd hlabel) _) normal_eq_str
  · intro hlabel key hkey fallback
    have hopen : isSensitive key = false := by
      revert key
      decide
    rw [hget (hadd hlabel), get_redacted hreadable (hadd hlabel) hopen]
    have hstable : ∀ v ∈ (recorded.payload.lookup key).map (redactValue digest), Stable v :=
      stable_redacted hreadable hlabel hkeys hkey
    obtain ⟨t, ht, ht'⟩ := textOr_normal platform hstable fallback
    rw [ht, ht']

/-- Nothing is thrown. -/
theorem apply_redacted (hkeys : (recorded.payload.map Prod.fst).Nodup) (state : ReplayState ν)
    (hlabel : interaction.label = recorded.label)
    (hpayload : interaction.payload = redactInteractionPayload digest recorded.payload) :
    ∃ state', applyInteraction platform state interaction = some state' := by
  unfold applyInteraction
  rw [hlabel, hpayload]
  split
  · exact ⟨_, rfl⟩
  split
  · next hadd =>
    have hmem : recorded.label ∈ LABELS := by
      rw [hadd]
      decide
    have htext : ∀ key ∈ ["type", "timestamp"].map units, ∀ fallback, ∃ t, textOr platform fallback
        (get key (redactInteractionPayload digest recorded.payload)) = some t := by
      intro key hkey fallback
      have hopen : isSensitive key = false := by
        revert key
        decide
      rw [get_redacted hreadable hmem hopen]
      have hstable : ∀ v ∈ (recorded.payload.lookup key).map (redactValue digest), Stable v :=
        stable_redacted hreadable hadd hkeys hkey
      obtain ⟨t, ht, -⟩ := textOr_normal platform hstable fallback
      exact ⟨t, ht⟩
    obtain ⟨type, htype⟩ := htext (units "type") (by simp) (units "unknown")
    obtain ⟨timestamp, htimestamp⟩ := htext (units "timestamp") (by simp) []
    unfold replayEvent
    rw [htype, htimestamp]
    exact ⟨_, rfl⟩
  split
  · exact ⟨_, rfl⟩
  · exact ⟨_, rfl⟩

theorem agree_raw (hstrings : Strings recorded) :
    Agree platform recorded.label (.obj none recorded.payload) (redactInteractionPayload digest recorded.payload) := by
  have hadd : recorded.label = units "db.addEvent" → recorded.label ∈ LABELS := by
    intro hlabel
    rw [hlabel]
    decide
  constructor
  · intro hlabel key hkey
    have hopen : isSensitive key = false := by
      revert key
      decide
    rw [get_redacted hreadable hlabel hopen, get_literal, asNumber_redactValue]
  · intro hlabel
    apply textAt_of_map (f := redactValue digest) ?_ redactValue_eq_str
    rw [get_redacted hreadable (hadd hlabel) (by decide), get_literal]
  · intro hlabel key hkey fallback
    have hopen : isSensitive key = false := by
      revert key
      decide
    have hmem : key ∈ ["type", "txHash", "timestamp"].map units := by
      simp only [List.map_cons, List.map_nil, List.mem_cons, List.not_mem_nil, or_false] at hkey ⊢
      tauto
    obtain ⟨t, ht⟩ := hstrings hlabel key hmem
    rw [get_redacted hreadable (hadd hlabel) hopen, get_literal, ht]
    rfl

end

/-! ## Recording -/

/-- The numbers of a state are finite. -/
structure FiniteState (platform : Platform ν) (state : ReplayState ν) : Prop where
  latestLedger : platform.isFinite state.latestLedger = true
  watermarkLedger : platform.isFinite state.watermarkLedger = true
  events : ∀ event ∈ state.events, platform.isFinite event.daoId = true ∧ platform.isFinite event.ledger = true

/-- What holds of a recorder whose interactions can all be read. -/
structure Inv (platform : Platform ν) (recorder : RelayReplayRecorder ν) : Prop where
  short : recorder.interactions.length ≤ MAX_ARRAY_LENGTH
  counter : recorder.interactions.length < MAX_ARRAY_LENGTH → recorder.seq = recorder.interactions.length
  numbered : Numbered platform recorder.interactions
  payloads : ∀ interaction ∈ recorder.interactions, Printable platform interaction.payload ∧
    ∃ proto entries, interaction.payload = .obj proto entries
  folded : recorder.interactions.foldlM (applyInteraction platform) (emptyReplayState platform) = some recorder.state
  foldedRead : (recorder.interactions.map RelayInteraction.read).foldlM (applyInteraction platform)
    (emptyReplayState platform) = some recorder.state
  finite : FiniteState platform recorder.state

theorem finite_asNumber (hlawful : Lawful platform) (o : Option (Value ν)) :
    platform.isFinite (asNumber platform o) = true := by
  have hzero := hlawful.isFinite 0 (by decide)
  unfold asNumber
  split
  · split
    · next h => exact h
    · exact hzero
  · exact hzero

theorem FiniteState.apply (hlawful : Lawful platform) (h : FiniteState platform state) {next : ReplayState ν}
    (happly : applyInteraction platform state interaction = some next) : FiniteState platform next := by
  unfold applyInteraction at happly
  split at happly
  · cases happly
    exact ⟨finite_asNumber hlawful _, h.watermarkLedger, h.events⟩
  split at happly
  · obtain ⟨event, hevent, rfl⟩ := Option.map_eq_some_iff.mp happly
    have hfinite : platform.isFinite event.daoId = true ∧ platform.isFinite event.ledger = true := by
      unfold replayEvent at hevent
      split at hevent
      · cases hevent
        exact ⟨finite_asNumber hlawful _, finite_asNumber hlawful _⟩
      · cases hevent
    split
    · exact h
    · refine ⟨h.latestLedger, h.watermarkLedger, ?_⟩
      rw [List.forall_mem_append, List.forall_mem_singleton]
      exact ⟨h.events, hfinite⟩
  split at happly
  · cases happly
    exact ⟨h.latestLedger, finite_asNumber hlawful _, h.events⟩
  · cases happly
    exact h

theorem inv_newRecorder (hlawful : Lawful platform) (traceId pipeline : Text) :
    Inv platform (newRecorder platform traceId pipeline) where
  short := Nat.zero_le _
  counter := fun _ => rfl
  numbered := rfl
  payloads := by simp [newRecorder]
  folded := rfl
  foldedRead := rfl
  finite := ⟨hlawful.isFinite 0 (by decide), hlawful.isFinite 0 (by decide), by simp [newRecorder, emptyReplayState]⟩

/-- What `record` comes to for an interaction that can be read. -/
theorem record_inv (hlawful : Lawful platform) {recorder : RelayReplayRecorder ν} (hinv : Inv platform recorder)
    {recorded : Recorded ν} (hjson : IsJson platform (.obj none recorded.payload)) (hreadable : Readable recorded) :
    Inv platform (recorder.record platform (redactInteractionPayload digest) recorded).1 := by
  have hkeys : (recorded.payload.map Prod.fst).Nodup := by
    cases hjson with
    | obj hkeys _ => exact hkeys
  unfold RelayReplayRecorder.record
  simp only
  split
  · next hfull =>
    exact ⟨hinv.short, fun hlt => absurd hfull (not_le.mpr hlt), hinv.numbered, hinv.payloads, hinv.folded,
      hinv.foldedRead, hinv.finite⟩
  next hroom =>
  have hroom := not_le.mp hroom
  split
  · next hthrows =>
    have hsome : ∃ state', applyInteraction platform recorder.state
        (recorder.interaction platform (redactInteractionPayload digest) recorded) = some state' :=
      apply_redacted hreadable hkeys recorder.state rfl rfl
    obtain ⟨state', hstate'⟩ := hsome
    rw [hthrows] at hstate'
    cases hstate'
  next state' hstate' =>
  have hread : applyInteraction platform recorder.state
      (recorder.interaction platform (redactInteractionPayload digest) recorded).read = some state' := by
    rw [← hstate']
    exact (agree_normal hreadable hkeys).apply rfl
  refine ⟨?_, ?_, ?_, ?_, ?_, ?_, hinv.finite.apply hlawful hstate'⟩
  · rw [List.length_append]
    exact hroom
  · intro _
    rw [List.length_append]
    exact congrArg (· + 1) (hinv.counter hroom)
  · rw [Numbered, List.map_append, hinv.numbered, List.length_append, List.length_singleton, List.range_succ,
      List.map_append, List.map_singleton, List.map_singleton, RelayReplayRecorder.interaction, hinv.counter hroom]
  · rw [List.forall_mem_append, List.forall_mem_singleton]
    refine ⟨hinv.payloads, (printable_redact digest hjson).1, ?_⟩
    exact ⟨_, _, rfl⟩
  · rw [List.foldlM_append, hinv.folded]
    simp only [Option.bind_eq_bind, Option.bind_some, List.foldlM_cons, List.foldlM_nil, hstate']
    rfl
  · rw [List.map_append, List.foldlM_append, hinv.foldedRead]
    simp only [Option.bind_eq_bind, Option.bind_some, List.map_cons, List.map_nil, List.foldlM_cons, List.foldlM_nil]
    rw [hread]
    rfl

theorem recordAll_inv (hlawful : Lawful platform) {sequence : List (Recorded ν)}
    (hjson : ∀ recorded ∈ sequence, IsJson platform (.obj none recorded.payload))
    (hreadable : ∀ recorded ∈ sequence, Readable recorded) {recorder : RelayReplayRecorder ν}
    (hinv : Inv platform recorder) :
    Inv platform (recordAll platform (redactInteractionPayload digest) recorder sequence) := by
  induction sequence generalizing recorder with
  | nil => exact hinv
  | cons recorded sequence ih =>
    rw [List.forall_mem_cons] at hjson hreadable
    exact ih hjson.2 hreadable.2 (record_inv hlawful hinv hjson.1 hreadable.1)

/-! ## Fixtures of a recorder -/

theorem printable_event {event : ReplayEventRecord ν} (hdaoId : platform.isFinite event.daoId = true)
    (hledger : platform.isFinite event.ledger = true) : Printable platform event.toValue := by
  have hkeys : [units "daoId", units "type", units "ledger", units "txHash", units "timestamp"].Nodup := by
    decide
  refine .obj hkeys ?_
  simp only [List.forall_mem_cons]
  refine ⟨.num hdaoId, .str _, .num hledger, ?_, .str _, by simp⟩
  split
  · exact .str _
  · exact .null

theorem printable_state (h : FiniteState platform state) : Printable platform state.toValue := by
  have hkeys : [units "latestLedger", units "watermarkLedger", units "events"].Nodup := by decide
  refine .obj hkeys ?_
  simp only [List.forall_mem_cons]
  refine ⟨.num h.latestLedger, .num h.watermarkLedger, .arr ?_, by simp⟩
  rw [List.forall_mem_map]
  exact fun event hevent => printable_event (h.events event hevent).1 (h.events event hevent).2

theorem printable_interaction (hseq : platform.isFinite interaction.seq = true)
    (hpayload : Printable platform interaction.payload) : Printable platform interaction.toValue := by
  have hkeys : [units "seq", units "kind", units "label", units "traceId", units "spanId", units "payload"].Nodup := by
    decide
  refine .obj hkeys ?_
  simp only [List.forall_mem_cons]
  exact ⟨.num hseq, .str _, .str _, .str _, .str _, hpayload, by simp⟩

theorem FiniteState.normalise (h : FiniteState platform state) :
    FiniteState platform (normaliseState platform state) where
  latestLedger := h.latestLedger
  watermarkLedger := h.watermarkLedger
  events := fun event hevent => h.events event ((List.mergeSort_perm _ _).mem_iff.mp hevent)

theorem printable_fixture (hlawful : Lawful platform) {fixture : RelayReplayFixture ν}
    (hinteractions : ∀ interaction ∈ fixture.interactions, Printable platform interaction.toValue)
    (hstate : FiniteState platform fixture.finalState) : Printable platform (fixture.toValue platform) := by
  have hkeys : [units "version", units "traceId", units "pipeline", units "interactions", units "finalState",
      units "digest"].Nodup := by
    decide
  refine .obj hkeys ?_
  simp only [List.forall_mem_cons]
  refine ⟨.num (hlawful.isFinite 1 (by decide)), .str _, .str _, .arr ?_, printable_state hstate, .str _, by simp⟩
  rw [List.forall_mem_map]
  exact hinteractions

/-- The result that a fixture is recorded with. -/
def reported (fixture : RelayReplayFixture ν) : ReplayResult ν where
  state := fixture.finalState
  digest := fixture.digest
  «matches» := true

/-- A fixture with its interactions in any order is replayed as they are folded in the order of their numbers. -/
theorem replay_of_folded (hlawful : Lawful platform) (fixture : RelayReplayFixture ν)
    {interactions permuted : List (RelayInteraction ν)} (hlength : interactions.length ≤ MAX_ARRAY_LENGTH)
    (hnumbered : Numbered platform interactions) (hperm : permuted.Perm interactions)
    (hfolded : interactions.foldlM (applyInteraction platform) (emptyReplayState platform) = some state)
    (hstate : fixture.finalState = normaliseState platform state)
    (hdigest : fixture.digest = digestState platform (normaliseState platform state).toValue) :
    replayFixture platform { fixture with interactions := permuted } = some (reported fixture) := by
  have hsorted := sort_perm hlawful (hlength.trans (by decide)) hnumbered hperm
  unfold replayFixture reported
  simp only [hsorted, hfolded, Option.map_some, hstate, hdigest, decide_true]

/-- The fixture of a sequence of interactions. -/
def fixtureOf (platform : Platform ν) (traceId pipeline : Text) (sequence : List (Recorded ν)) : RelayReplayFixture ν :=
  (recordAll platform (redactInteractionPayload (digestValue platform)) (newRecorder platform traceId pipeline)
    sequence).toFixture platform

/-- Of the sensitive strings of a payload only the digests are known. -/
def Recorded.digested (digest : Text → Text) (recorded : Recorded ν) : Recorded ν :=
  { recorded with payload := digestedEntries digest recorded.payload }

/-- Replay is faithful to what was recorded, and the fixture hides what is sensitive. -/
structure Faithful [DecidableEq ν] (platform : Platform ν) (traceId pipeline : Text) (sequence : List (Recorded ν)) :
    Prop where
  replayed : ∀ interactions, interactions.Perm (fixtureOf platform traceId pipeline sequence).interactions →
    replayFixture platform { fixtureOf platform traceId pipeline sequence with interactions := interactions } =
      some (reported (fixtureOf platform traceId pipeline sequence))
  written : ∀ interactions, interactions.Perm (fixtureOf platform traceId pipeline sequence).interactions →
    ∃ loaded, loadFixture platform (writeFixture platform
        { fixtureOf platform traceId pipeline sequence with interactions := interactions }) = .ok loaded ∧
      loaded.finalState = (fixtureOf platform traceId pipeline sequence).finalState ∧
      ∀ interactions', interactions'.Perm loaded.interactions →
        replayFixture platform { loaded with interactions := interactions' } =
          some (reported (fixtureOf platform traceId pipeline sequence))
  unredacted : (∀ recorded ∈ sequence, Strings recorded) →
    (fixtureOf platform traceId pipeline sequence).finalState =
      normaliseState platform (recordAll platform (.obj none) (newRecorder platform traceId pipeline) sequence).state
  masked : ∀ interaction ∈ (fixtureOf platform traceId pipeline sequence).interactions,
    Masked (digestValue platform) interaction.payload
  hidden : ∀ sequence', sequence'.map (Recorded.digested (digestValue platform)) =
      sequence.map (Recorded.digested (digestValue platform)) →
    fixtureOf platform traceId pipeline sequence' = fixtureOf platform traceId pipeline sequence

/-! ## Privacy -/

theorem masked_recordAll {sequence : List (Recorded ν)} {recorder : RelayReplayRecorder ν}
    (h : ∀ interaction ∈ recorder.interactions, Masked digest interaction.payload) :
    ∀ interaction ∈ (recordAll platform (redactInteractionPayload digest) recorder sequence).interactions,
      Masked digest interaction.payload := by
  induction sequence generalizing recorder with
  | nil => exact h
  | cons recorded sequence ih =>
    apply ih
    have hpushed : ∀ interaction ∈ recorder.interactions ++
        [recorder.interaction platform (redactInteractionPayload digest) recorded],
        Masked digest interaction.payload := by
      rw [List.forall_mem_append, List.forall_mem_singleton]
      exact ⟨h, (masked_redact digest (.obj none recorded.payload)).1⟩
    unfold RelayReplayRecorder.record
    simp only
    split
    · exact h
    split
    · exact hpushed
    · exact hpushed

/-- A recording is one of the digests. -/
theorem recordAll_digested (sequence : List (Recorded ν)) (recorder : RelayReplayRecorder ν) :
    recordAll platform (redactInteractionPayload id) recorder (sequence.map (Recorded.digested digest)) =
      recordAll platform (redactInteractionPayload digest) recorder sequence := by
  unfold recordAll
  rw [List.foldl_map]
  congr 1
  funext recorder recorded
  have hinteraction : recorder.interaction platform (redactInteractionPayload id) (recorded.digested digest) =
      recorder.interaction platform (redactInteractionPayload digest) recorded := by
    have hsame := (redact_digested digest (.obj none recorded.payload)).1
    unfold RelayReplayRecorder.interaction
    congr 1
  unfold RelayReplayRecorder.record
  rw [hinteraction]

/-! ## Faithful replays -/

/-- Two recorders, one of which does not redact, stay alike. -/
theorem recordAll_raw {sequence : List (Recorded ν)} (hreadable : ∀ recorded ∈ sequence, Readable recorded)
    (hstrings : ∀ recorded ∈ sequence, Strings recorded) {recorder raw : RelayReplayRecorder ν}
    (hlength : recorder.interactions.length = raw.interactions.length) (hstate : recorder.state = raw.state) :
    (recordAll platform (redactInteractionPayload digest) recorder sequence).state =
      (recordAll platform (.obj none) raw sequence).state := by
  induction sequence generalizing recorder raw with
  | nil => exact hstate
  | cons recorded sequence ih =>
    rw [List.forall_mem_cons] at hreadable hstrings
    have happly : applyInteraction platform recorder.state
          (recorder.interaction platform (redactInteractionPayload digest) recorded) =
        applyInteraction platform raw.state (raw.interaction platform (.obj none) recorded) := by
      rw [hstate]
      exact (agree_raw hreadable.1 hstrings.1).apply rfl
    have hstep : (recorder.record platform (redactInteractionPayload digest) recorded).1.interactions.length =
          (raw.record platform (.obj none) recorded).1.interactions.length ∧
        (recorder.record platform (redactInteractionPayload digest) recorded).1.state =
          (raw.record platform (.obj none) recorded).1.state := by
      unfold RelayReplayRecorder.record
      simp only [hlength, happly]
      split
      · exact ⟨hlength, hstate⟩
      split
      · exact ⟨by rw [List.length_append, List.length_append, hlength]; rfl, hstate⟩
      · exact ⟨by rw [List.length_append, List.length_append, hlength]; rfl, rfl⟩
    exact ih hreadable.2 hstrings.2 hstep.1 hstep.2

/-- In every sequence of interactions that can be read, replays are faithful. -/
theorem replay_faithful [DecidableEq ν] (hlawful : Lawful platform) (traceId pipeline : Text)
    {sequence : List (Recorded ν)} (hjson : ∀ recorded ∈ sequence, IsJson platform (.obj none recorded.payload))
    (hreadable : ∀ recorded ∈ sequence, Readable recorded) : Faithful platform traceId pipeline sequence := by
  have hinv : Inv platform (recordAll platform (redactInteractionPayload (digestValue platform))
      (newRecorder platform traceId pipeline) sequence) :=
    recordAll_inv hlawful hjson hreadable (inv_newRecorder hlawful traceId pipeline)
  have hseq : ∀ interaction ∈ (fixtureOf platform traceId pipeline sequence).interactions,
      platform.isFinite interaction.seq = true := by
    intro interaction hmem
    have hseqMem := List.mem_map_of_mem (f := RelayInteraction.seq) hmem
    have hnumbered : (fixtureOf platform traceId pipeline sequence).interactions.map RelayInteraction.seq = _ :=
      hinv.numbered
    rw [hnumbered] at hseqMem
    obtain ⟨n, hn, heq⟩ := List.mem_map.mp hseqMem
    rw [← heq]
    exact hlawful.isFinite n (((List.mem_range.mp hn).trans_le hinv.short).trans (by decide))
  constructor
  · intro interactions hperm
    exact replay_of_folded hlawful _ hinv.short hinv.numbered hperm hinv.folded rfl rfl
  · intro interactions hperm
    have hprintable : Printable platform (RelayReplayFixture.toValue platform
        { fixtureOf platform traceId pipeline sequence with interactions := interactions }) := by
      refine printable_fixture hlawful ?_ hinv.finite.normalise
      intro interaction hmem
      have hmem' := hperm.mem_iff.mp hmem
      exact printable_interaction (hseq interaction hmem') (hinv.payloads interaction hmem').1
    have hload := load_written hlawful hprintable fun interaction hmem =>
      (hinv.payloads interaction (hperm.mem_iff.mp hmem)).2
    refine ⟨_, hload, rfl, ?_⟩
    intro interactions' hperm'
    have hpermRead : interactions'.Perm
        ((fixtureOf platform traceId pipeline sequence).interactions.map RelayInteraction.read) :=
      hperm'.trans (hperm.map RelayInteraction.read)
    have hnumbered : Numbered platform
        ((fixtureOf platform traceId pipeline sequence).interactions.map RelayInteraction.read) := by
      rw [Numbered, List.length_map, List.map_map]
      exact hinv.numbered
    have hlength : ((fixtureOf platform traceId pipeline sequence).interactions.map RelayInteraction.read).length ≤
        MAX_ARRAY_LENGTH := by
      rw [List.length_map]
      exact hinv.short
    exact replay_of_folded hlawful
      (RelayReplayFixture.read { fixtureOf platform traceId pipeline sequence with interactions := interactions })
      hlength hnumbered hpermRead hinv.foldedRead rfl rfl
  · intro hstrings
    exact congrArg (normaliseState platform) (recordAll_raw hreadable hstrings rfl rfl)
  · exact masked_recordAll (by simp [newRecorder])
  · intro sequence' hsame
    unfold fixtureOf
    rw [← recordAll_digested sequence', hsame, recordAll_digested]

/-! ## A cycle -/

def bytes (t : Text) : Lib.Bytes := t.map fun u => UInt8.ofNat u.toNat

/-- Natural numbers, and texts of bytes. -/
def samplePlatform : Platform Nat where
  text := indexKey
  read := fun t => Lib.readNat (t.map fun u => Char.ofNat u.toNat)
  isFinite := fun _ => true
  ofNat := id
  le := fun a b => decide (a ≤ b)
  sha256 := fun t => units (Lib.toHex (Lib.sha256 (bytes t)).toList)
  saltedSha256 := fun t => units (Lib.toHex (Lib.sha256 (List.replicate 16 0 ++ bytes t)).toList)
  arrayLike := fun _ => none

theorem lawful_samplePlatform : Lawful samplePlatform where
  numbers :=
    { read_text := by
        intro n _
        have hdigits : ∀ c ∈ n.repr.toList, c.isDigit = true := fun c hc => Lib.isDigit_of_mem_repr hc
        have hback : (indexKey n).map (fun u => Char.ofNat u.toNat) = n.repr.toList := (flatMap_charUnits hdigits).1
        change Lib.readNat ((indexKey n).map fun u => Char.ofNat u.toNat) = some n
        rw [hback, Lib.readNat_of_digits Lib.repr_ne_nil hdigits, Nat.toList_repr, Nat.ofDigitChars_ten_toDigits]
      ne_nil := by
        intro n _ hnil
        obtain ⟨u, tail, h, -⟩ := indexKey_head n
        rw [show indexKey n = [] from hnil] at h
        cases h
      isNumberUnit := by
        intro n _ u hu
        have hdigit := (flatMap_charUnits fun c hc => Lib.isDigit_of_mem_repr (n := n) hc).2 u hu
        unfold isNumberUnit
        rw [decide_eq_true_eq]
        exact .inl hdigit }
  isFinite := fun _ _ => rfl
  le := fun _ _ _ _ => rfl

def sampleSequence : List (Recorded Nat) :=
  [{ kind := .rpc, label := units "rpc.getLatestLedger", payload := [(units "sequence", .num 120)], spanId := [] },
    { kind := .db
      label := units "db.addEvent"
      payload :=
        [(units "daoId", .num 7), (units "type", .str (units "vote_cast")), (units "ledger", .num 119),
          (units "txHash", .str (units "tx-b")), (units "timestamp", .str (units "2026-08-01T00:00:01.000Z")),
          (units "nullifier", .str (units "0xdeadbeef"))]
      spanId := [] }]

theorem replay_faithful_of_a_cycle :
    Faithful samplePlatform (units "a1") (units "indexer.poll_cycle") sampleSequence := by
  have hkeys : ([units "sequence"] : List Text).Nodup ∧ [units "daoId", units "type", units "ledger", units "txHash",
      units "timestamp", units "nullifier"].Nodup := by decide +kernel
  apply replay_faithful lawful_samplePlatform
  · simp only [sampleSequence, List.forall_mem_cons]
    refine ⟨.obj hkeys.1 ?_, .obj hkeys.2 ?_, by simp⟩
    all_goals simp only [List.forall_mem_cons]
    · exact ⟨.num rfl, by simp⟩
    · exact ⟨.num rfl, .str _, .num rfl, .str _, .str _, .str _, by simp⟩
  · have hproto : ∀ recorded ∈ sampleSequence, ∀ e ∈ recorded.payload.map Prod.fst, e ≠ units "__proto__" := by
      decide +kernel
    intro recorded hmem
    refine ⟨fun _ e he => hproto recorded hmem e.1 (List.mem_map_of_mem he), ?_⟩
    simp only [sampleSequence, List.mem_cons, List.not_mem_nil, or_false] at hmem
    intro _ e he _
    obtain rfl | rfl := hmem
    all_goals
      simp only [List.mem_cons, List.not_mem_nil, or_false] at he
    · subst he
      trivial
    · obtain rfl | rfl | rfl | rfl | rfl | rfl := he <;> trivial

/-! ## What cannot be read -/

/-- A type that has a `toString` of its own. -/
def unconvertibleType : Recorded Nat where
  kind := .db
  label := units "db.addEvent"
  payload := [(units "type", .obj none [(units "toString", .num 1)])]
  spanId := []

/-- A payload with a prototype that has the sequence number. -/
def inheritedSequence : Recorded Nat where
  kind := .rpc
  label := units "rpc.getLatestLedger"
  payload := [(units "__proto__", .obj none [(units "sequence", .num 7)])]
  spanId := []

theorem fixtureOf_singleton (platform : Platform ν) (recorded : Recorded ν) (traceId pipeline : Text) :
    (fixtureOf platform traceId pipeline [recorded]).interactions =
        [(newRecorder platform traceId pipeline).interaction platform
          (redactInteractionPayload (digestValue platform)) recorded] ∧
      (fixtureOf platform traceId pipeline [recorded]).finalState = normaliseState platform
        ((applyInteraction platform (emptyReplayState platform)
          ((newRecorder platform traceId pipeline).interaction platform
            (redactInteractionPayload (digestValue platform)) recorded)).getD (emptyReplayState platform)) := by
  have hroom : ¬ MAX_ARRAY_LENGTH ≤ (newRecorder platform traceId pipeline).interactions.length := by
    change ¬ MAX_ARRAY_LENGTH ≤ 0
    decide
  unfold fixtureOf recordAll RelayReplayRecorder.record RelayReplayRecorder.toFixture
  simp only [List.foldl_cons, List.foldl_nil, hroom, if_false]
  split
  · next hnone =>
    refine ⟨rfl, ?_⟩
    rw [show (newRecorder platform traceId pipeline).state = emptyReplayState platform from rfl] at hnone
    rw [hnone]
    rfl
  · next state hsome =>
    refine ⟨rfl, ?_⟩
    rw [show (newRecorder platform traceId pipeline).state = emptyReplayState platform from rfl] at hsome
    rw [hsome]
    rfl

theorem replay_singleton (fixture : RelayReplayFixture ν) (interaction : RelayInteraction ν) :
    (replayFixture platform { fixture with interactions := [interaction] }).map ReplayResult.state =
      (applyInteraction platform (emptyReplayState platform) interaction).map (normaliseState platform) := by
  unfold replayFixture
  simp only [List.mergeSort_singleton, List.foldlM_cons, List.foldlM_nil]
  cases applyInteraction platform (emptyReplayState platform) interaction with
  | none => rfl
  | some state => rfl

/-- The reducer throws on a type that cannot be converted, and so does the replay; and what was read through a
prototype is gone from the file. -/
theorem unreadable_not_faithful :
    (∀ recorded ∈ [unconvertibleType, inheritedSequence], IsJson samplePlatform (.obj none recorded.payload)) ∧
      ¬ Faithful samplePlatform (units "a1") (units "indexer.poll_cycle") [unconvertibleType] ∧
      ¬ Faithful samplePlatform (units "a1") (units "indexer.poll_cycle") [inheritedSequence] := by
  refine ⟨?_, ?_, ?_⟩
  · simp only [List.forall_mem_cons, unconvertibleType, inheritedSequence]
    refine ⟨.obj (List.nodup_singleton _) ?_, .obj (List.nodup_singleton _) ?_, by simp⟩
    all_goals
      rw [List.forall_mem_singleton]
      refine .obj (List.nodup_singleton _) ?_
      rw [List.forall_mem_singleton]
      exact .num rfl
  · intro hfaithful
    have hinteractions := (fixtureOf_singleton samplePlatform unconvertibleType (units "a1")
      (units "indexer.poll_cycle")).1
    have hthrows : applyInteraction samplePlatform (emptyReplayState samplePlatform)
        ((newRecorder samplePlatform (units "a1") (units "indexer.poll_cycle")).interaction samplePlatform
          (redactInteractionPayload (digestValue samplePlatform)) unconvertibleType) = none :=
      Option.isNone_iff_eq_none.mp (by decide +kernel)
    have hreplayed := congrArg (Option.map ReplayResult.state) (hfaithful.replayed _ (.refl _))
    rw [hinteractions, replay_singleton, hthrows] at hreplayed
    cases hreplayed
  · intro hfaithful
    obtain ⟨hinteractions, hfinal⟩ := fixtureOf_singleton samplePlatform inheritedSequence (units "a1")
      (units "indexer.poll_cycle")
    obtain ⟨proto, hpayload⟩ : ∃ proto,
        redactInteractionPayload (digestValue samplePlatform) inheritedSequence.payload = .obj proto [] := by
      obtain ⟨proto, hbuild, -⟩ :=
        build_spec (redactEntries (digestValue samplePlatform) inheritedSequence.payload)
      rw [redactEntries_eq] at hbuild
      refine ⟨proto, ?_⟩
      rw [redactInteractionPayload, redactEntries_eq, hbuild]
      simp [inheritedSequence]
    obtain ⟨loaded, hload, -, hreplay⟩ := hfaithful.written _ (.refl _)
    have hprintable : Printable samplePlatform ((fixtureOf samplePlatform (units "a1") (units "indexer.poll_cycle")
        [inheritedSequence]).toValue samplePlatform) := by
      refine printable_fixture lawful_samplePlatform ?_ ⟨rfl, rfl, fun _ _ => ⟨rfl, rfl⟩⟩
      rw [hinteractions, List.forall_mem_singleton]
      refine printable_interaction rfl ?_
      rw [RelayReplayRecorder.interaction, hpayload]
      exact .obj .nil (by simp)
    have hread := load_written lawful_samplePlatform hprintable (by
      rw [hinteractions, List.forall_mem_singleton]
      exact ⟨proto, [], hpayload⟩)
    rw [show loaded = _ from Except.ok.inj (hload.symm.trans hread)] at hreplay
    have hstate := congrArg (Option.map ReplayResult.state) (hreplay _ (.refl _))
    rw [RelayReplayFixture.read, hinteractions, List.map_singleton, replay_singleton] at hstate
    have hrecorded : (applyInteraction samplePlatform (emptyReplayState samplePlatform)
        ((newRecorder samplePlatform (units "a1") (units "indexer.poll_cycle")).interaction samplePlatform
          (redactInteractionPayload (digestValue samplePlatform)) inheritedSequence)).map ReplayState.latestLedger =
        some 7 := by decide +kernel
    have hreplayed : (applyInteraction samplePlatform (emptyReplayState samplePlatform)
        ((newRecorder samplePlatform (units "a1") (units "indexer.poll_cycle")).interaction samplePlatform
          (redactInteractionPayload (digestValue samplePlatform)) inheritedSequence).read).map
          ReplayState.latestLedger = some 0 := by
      rw [RelayInteraction.read, RelayReplayRecorder.interaction, hpayload, normal, normalEntries, List.mergeSort_nil]
      dsimp only
      decide +kernel
    obtain ⟨state, hsome, hseven⟩ := Option.map_eq_some_iff.mp hrecorded
    obtain ⟨state', hsome', hzero⟩ := Option.map_eq_some_iff.mp hreplayed
    rw [hsome] at hfinal
    rw [hsome'] at hstate
    have hsame : normaliseState samplePlatform state' = normaliseState samplePlatform state :=
      (Option.some.inj hstate).trans hfinal
    have hlatest : (normaliseState samplePlatform state').latestLedger =
        (normaliseState samplePlatform state).latestLedger := congrArg ReplayState.latestLedger hsame
    change state'.latestLedger = state.latestLedger at hlatest
    rw [hseven, hzero] at hlatest
    cases hlatest

end ZkVote.Replay

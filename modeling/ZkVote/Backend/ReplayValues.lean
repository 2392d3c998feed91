import ZkVote.Backend.Replay

/-!
# Values in a fixture

What the parser makes of a value that was encoded and of a fixture that was written, and what redaction makes of a
payload. No redacted value depends on more of a sensitive string than its digest.
-/

open Lib.JsonText

namespace ZkVote.Replay

variable {ν : Type} {platform : Platform ν}

/-! ## Values that are read back -/

/-- A value of JSON. -/
inductive IsJson (platform : Platform ν) : Value ν → Prop
  | null : IsJson platform .null
  | bool (b : Bool) : IsJson platform (.bool b)
  | num {n : ν} (h : platform.isFinite n = true) : IsJson platform (.num n)
  | str (t : Text) : IsJson platform (.str t)
  | arr {items : List (Value ν)} (h : ∀ v ∈ items, IsJson platform v) : IsJson platform (.arr items)
  | obj {entries : List (Text × Value ν)} (hkeys : (entries.map Prod.fst).Nodup)
      (h : ∀ e ∈ entries, IsJson platform e.2) : IsJson platform (.obj none entries)

/-- The same but for prototypes. -/
inductive Printable (platform : Platform ν) : Value ν → Prop
  | null : Printable platform .null
  | bool (b : Bool) : Printable platform (.bool b)
  | num {n : ν} (h : platform.isFinite n = true) : Printable platform (.num n)
  | str (t : Text) : Printable platform (.str t)
  | arr {items : List (Value ν)} (h : ∀ v ∈ items, Printable platform v) : Printable platform (.arr items)
  | obj {proto : Option (Value ν)} {entries : List (Text × Value ν)} (hkeys : (entries.map Prod.fst).Nodup)
      (h : ∀ e ∈ entries, Printable platform e.2) : Printable platform (.obj proto entries)

mutual

/-- What a value is read back as: its keys are in order, and prototypes are gone. -/
def normal : Value ν → Value ν
  | .arr items => .arr (normalItems items)
  | .obj _ entries => .obj none ((normalEntries entries).mergeSort byKey)
  | v => v

def normalItems : List (Value ν) → List (Value ν)
  | [] => []
  | v :: items => normal v :: normalItems items

def normalEntries : List (Text × Value ν) → List (Text × Value ν)
  | [] => []
  | (key, v) :: entries => (key, normal v) :: normalEntries entries

end

variable {v : Value ν} {items : List (Value ν)} {entries : List (Text × Value ν)} {key : Text}

theorem normalItems_eq (items : List (Value ν)) : normalItems items = items.map normal := by
  induction items with
  | nil => rfl
  | cons v items ih => rw [normalItems, ih, List.map_cons]

theorem normalEntries_eq (entries : List (Text × Value ν)) :
    normalEntries entries = entries.map fun e => (e.1, normal e.2) := by
  induction entries with
  | nil => rfl
  | cons e entries ih => rw [normalEntries, ih, List.map_cons]

theorem canonicalItems_eq (items : List (Value ν)) :
    canonicalItems platform items = items.map (canonicalJson platform) := by
  induction items with
  | nil => rfl
  | cons v items ih => rw [canonicalItems, ih, List.map_cons]

theorem canonicalEntries_eq (entries : List (Text × Value ν)) :
    canonicalEntries platform entries = entries.map fun e => (e.1, canonicalJson platform e.2) := by
  induction entries with
  | nil => rfl
  | cons e entries ih => rw [canonicalEntries, ih, List.map_cons]

/-- Sorting by keys looks at no more than them. -/
theorem mergeSort_map {α β : Type} (f : α → β) (l : List (Text × α)) :
    (l.map fun e => (e.1, f e.2)).mergeSort byKey = (l.mergeSort byKey).map fun e => (e.1, f e.2) := by
  have hkeys : ∀ a ∈ l, ∀ b ∈ l, byKey a b = byKey (a.1, f a.2) (b.1, f b.2) := fun _ _ _ _ => rfl
  exact (List.map_mergeSort hkeys).symm

theorem forall₂_map {α β γ : Type} {R : β → γ → Prop} {f : α → β} {g : α → γ} {l : List α}
    (h : ∀ a ∈ l, R (f a) (g a)) : List.Forall₂ R (l.map f) (l.map g) := by
  rw [List.forall₂_map_left_iff, List.forall₂_map_right_iff, List.forall₂_same]
  exact h

/-- The parser undoes the canonical encoding. -/
theorem canonicalJson_reads (hlawful : platform.Lawful) (h : Printable platform v) :
    Reads platform.toNumbers (canonicalJson platform v) (normal v) := by
  induction h with
  | null => exact reads_word List.mem_cons_self
  | bool b =>
    cases b with
    | true => exact reads_word (List.mem_cons_of_mem _ List.mem_cons_self)
    | false => exact reads_word (List.mem_cons_of_mem _ (List.mem_cons_of_mem _ List.mem_cons_self))
  | num hn =>
    rw [canonicalJson, if_pos hn]
    exact reads_text hlawful hn
  | str t => exact reads_quote t
  | arr _ ih =>
    rw [canonicalJson, normal, canonicalItems_eq, normalItems_eq]
    exact reads_arr (forall₂_map ih)
  | @obj proto entries hkeys _ ih =>
    rw [canonicalJson, normal, canonicalEntries_eq, normalEntries_eq, mergeSort_map, mergeSort_map]
    have hperm : (entries.mergeSort byKey).Perm entries := List.mergeSort_perm entries byKey
    have hdistinct : (((entries.mergeSort byKey).map fun e => (e.1, normal e.2)).map Prod.fst).Nodup := by
      rw [List.map_map]
      exact (hperm.map Prod.fst).nodup_iff.mpr hkeys
    rw [← foldl_setEntry hdistinct]
    apply reads_obj
    exact forall₂_map fun e he => ⟨rfl, ih e (hperm.mem_iff.mp he)⟩

theorem wellFormed_canonicalJson (hlawful : platform.Lawful) (h : Printable platform v) :
    WellFormed (canonicalJson platform v) := by
  have hword : ∀ word ∈ ["null", "true", "false"], WellFormed (units word) := by
    intro word hword
    simp only [List.mem_cons, List.not_mem_nil, or_false] at hword
    obtain ⟨hnull, htrue, hfalse⟩ := units_words
    obtain rfl | rfl | rfl := hword
    · rw [hnull]
      exact WellFormed.of_forall (by simp [isHigh, isLow])
    · rw [htrue]
      exact WellFormed.of_forall (by simp [isHigh, isLow])
    · rw [hfalse]
      exact WellFormed.of_forall (by simp [isHigh, isLow])
  have hunit : ∀ u : UInt16, isHigh u = false → isLow u = false → WellFormed [u] :=
    fun u hhigh hlow => .unit hhigh hlow .nil
  induction h with
  | null => exact hword _ (by simp)
  | bool b =>
    cases b with
    | true => exact hword _ (by simp)
    | false => exact hword _ (by simp)
  | num hn =>
    rw [canonicalJson, if_pos hn]
    exact wellFormed_text hlawful hn
  | str t => exact wellFormed_quote t
  | arr _ ih =>
    rw [canonicalJson, canonicalItems_eq]
    refine .unit (by decide) (by decide) (.append (.intercalate ?_) (hunit _ (by decide) (by decide)))
    rw [List.forall_mem_map]
    exact ih
  | @obj proto entries _ _ ih =>
    rw [canonicalJson, canonicalEntries_eq, mergeSort_map, List.map_map]
    refine .unit (by decide) (by decide) (.append (.intercalate ?_) (hunit _ (by decide) (by decide)))
    rw [List.forall_mem_map]
    intro e he
    have hvalue := ih e ((List.mergeSort_perm entries byKey).mem_iff.mp he)
    exact (wellFormed_quote e.1).append (.unit (by decide) (by decide) hvalue)

/-- What is written to a file is parsed as the value it was made from. -/
theorem parse_written (hlawful : platform.Lawful) (h : Printable platform v) :
    parse platform.toNumbers (toWellFormed (canonicalJson platform v ++ [0x0A])) = some (normal v) := by
  have hwell : WellFormed (canonicalJson platform v ++ [0x0A]) :=
    (wellFormed_canonicalJson hlawful h).append (.unit (by decide) (by decide) .nil)
  rw [toWellFormed_eq hwell]
  exact parse_of_reads (canonicalJson_reads hlawful h) (by decide)

/-! ## Fixtures that are read back -/

theorem get_normal {proto : Option (Value ν)} (h : (entries.map Prod.fst).Nodup) :
    get key (normal (.obj proto entries)) = (entries.lookup key).map normal := by
  have hperm := (List.mergeSort_perm entries byKey).symm
  rw [normal, normalEntries_eq, mergeSort_map, get, lookup_map, ← lookup_perm h hperm]
  cases entries.lookup key with
  | none => rfl
  | some v => rfl

theorem get_field {proto : Option (Value ν)} (h : (entries.map Prod.fst).Nodup) (hmem : (key, v) ∈ entries) :
    get key (normal (.obj proto entries)) = some (normal v) := by
  rw [get_normal h, (lookup_eq_some h).mpr hmem]
  rfl

/-- The value is the literal of these entries. -/
structure Fields (v : Value ν) (entries : List (Text × Value ν)) : Prop where
  literal : v = .obj none entries
  keys : (entries.map Prod.fst).Nodup

section

variable (h : Fields v entries)

include h

theorem Fields.get {w : Value ν} (hmem : (key, w) ∈ entries) : Replay.get key (normal v) = some (normal w) := by
  rw [h.literal]
  exact get_field h.keys hmem

theorem Fields.numberAt {n : ν} (hmem : (key, .num n) ∈ entries) : Replay.numberAt key (normal v) = some n := by
  rw [Replay.numberAt, h.get hmem]
  rfl

theorem Fields.textAt {t : Text} (hmem : (key, .str t) ∈ entries) : Replay.textAt key (normal v) = some t := by
  rw [Replay.textAt, h.get hmem]
  rfl

theorem Fields.itemsAt (hmem : (key, .arr items) ∈ entries) :
    Replay.itemsAt key (normal v) = some (items.map normal) := by
  rw [Replay.itemsAt, h.get hmem, normal, normalItems_eq]

theorem Fields.objectAt {proto : Option (Value ν)} {entries' : List (Text × Value ν)}
    (hmem : (key, .obj proto entries') ∈ entries) :
    Replay.objectAt key (normal v) = some (normal (.obj proto entries')) := by
  rw [Replay.objectAt, h.get hmem, normal]

end

theorem event_ofValue (event : ReplayEventRecord ν) :
    ReplayEventRecord.ofValue (normal event.toValue) = some event := by
  have hkeys : [units "daoId", units "type", units "ledger", units "txHash", units "timestamp"].Nodup := by
    decide
  have hfields : Fields event.toValue _ := ⟨rfl, hkeys⟩
  have hdaoId : numberAt (units "daoId") (normal event.toValue) = some event.daoId :=
    hfields.numberAt (by simp)
  have htype : textAt (units "type") (normal event.toValue) = some event.type :=
    hfields.textAt (by simp)
  have hledger : numberAt (units "ledger") (normal event.toValue) = some event.ledger :=
    hfields.numberAt (by simp)
  have htimestamp : textAt (units "timestamp") (normal event.toValue) = some event.timestamp :=
    hfields.textAt (by simp)
  have htxHash : get (units "txHash") (normal event.toValue) = some (normal _) := hfields.get (.tail _ (.tail _ (.tail _ (.head _))))
  unfold ReplayEventRecord.ofValue
  rw [hdaoId, htype, hledger, htimestamp, htxHash]
  cases event with
  | mk daoId type ledger txHash timestamp =>
    cases txHash with
    | none => rfl
    | some txHash => rfl

theorem mapM_map_normal {α : Type} {toValue : α → Value ν} {ofValue : Value ν → Option α} {f : α → α} {l : List α}
    (h : ∀ a ∈ l, ofValue (normal (toValue a)) = some (f a)) :
    ((l.map toValue).map normal).mapM ofValue = some (l.map f) := by
  induction l with
  | nil => rfl
  | cons a l ih =>
    rw [List.forall_mem_cons] at h
    rw [List.map_cons, List.map_cons, List.mapM_cons, h.1, ih h.2]
    rfl

theorem state_ofValue (state : ReplayState ν) : ReplayState.ofValue (normal state.toValue) = some state := by
  have hkeys : [units "latestLedger", units "watermarkLedger", units "events"].Nodup := by decide
  have hfields : Fields state.toValue _ := ⟨rfl, hkeys⟩
  have hlatest : numberAt (units "latestLedger") (normal state.toValue) = some state.latestLedger :=
    hfields.numberAt (by simp)
  have hwatermark : numberAt (units "watermarkLedger") (normal state.toValue) = some state.watermarkLedger :=
    hfields.numberAt (by simp)
  have hevents : itemsAt (units "events") (normal state.toValue) =
      some ((state.events.map ReplayEventRecord.toValue).map normal) :=
    hfields.itemsAt (by simp)
  have hmapM := mapM_map_normal (l := state.events) (f := id) fun event _ => event_ofValue event
  rw [List.map_id] at hmapM
  unfold ReplayState.ofValue
  rw [hlatest, hwatermark, hevents]
  simp only [Option.bind_eq_bind, Option.bind_some, hmapM]

/-- What an interaction is read back as. -/
def RelayInteraction.read (interaction : RelayInteraction ν) : RelayInteraction ν :=
  { interaction with payload := normal interaction.payload }

theorem ofName_name (kind : InteractionKind) : InteractionKind.ofName kind.name = some kind := by
  cases kind <;> decide

theorem interaction_ofValue {interaction : RelayInteraction ν}
    (h : ∃ proto entries, interaction.payload = .obj proto entries) :
    RelayInteraction.ofValue (normal interaction.toValue) = some interaction.read := by
  have hkeys : [units "seq", units "kind", units "label", units "traceId", units "spanId", units "payload"].Nodup := by
    decide
  have hfields : Fields interaction.toValue _ := ⟨rfl, hkeys⟩
  have hseq : numberAt (units "seq") (normal interaction.toValue) = some interaction.seq :=
    hfields.numberAt (by simp)
  have hkind : textAt (units "kind") (normal interaction.toValue) = some interaction.kind.name :=
    hfields.textAt (by simp)
  have hlabel : textAt (units "label") (normal interaction.toValue) = some interaction.label :=
    hfields.textAt (by simp)
  have htraceId : textAt (units "traceId") (normal interaction.toValue) = some interaction.traceId :=
    hfields.textAt (by simp)
  have hspanId : textAt (units "spanId") (normal interaction.toValue) = some interaction.spanId :=
    hfields.textAt (by simp)
  have hpayload : objectAt (units "payload") (normal interaction.toValue) = some (normal interaction.payload) := by
    obtain ⟨proto, entries, hobj⟩ := h
    rw [hobj]
    exact hfields.objectAt (by simp [hobj])
  unfold RelayInteraction.ofValue
  rw [hseq, hkind, hlabel, htraceId, hspanId, hpayload]
  simp only [Option.bind_eq_bind, Option.bind_some, ofName_name]
  rfl

/-- The naturals up to `2 ^ 53` are numbers of their own. -/
structure Lawful (platform : Platform ν) : Prop where
  numbers : platform.Lawful
  isFinite : ∀ n < 2 ^ 53, platform.isFinite (platform.ofNat n) = true
  le : ∀ m < 2 ^ 53, ∀ n < 2 ^ 53, platform.le (platform.ofNat m) (platform.ofNat n) = decide (m ≤ n)

/-- What a fixture is read back as. -/
def RelayReplayFixture.read (fixture : RelayReplayFixture ν) : RelayReplayFixture ν :=
  { fixture with interactions := fixture.interactions.map RelayInteraction.read }

theorem fixture_ofValue (platform : Platform ν) {fixture : RelayReplayFixture ν}
    (h : ∀ interaction ∈ fixture.interactions, ∃ proto entries, interaction.payload = .obj proto entries) :
    numberAt (units "version") (normal (fixture.toValue platform)) = some (platform.ofNat 1) ∧
      RelayReplayFixture.ofValue (normal (fixture.toValue platform)) = some fixture.read := by
  have hkeys : [units "version", units "traceId", units "pipeline", units "interactions", units "finalState",
      units "digest"].Nodup := by
    decide
  have hfields : Fields (fixture.toValue platform) _ := ⟨rfl, hkeys⟩
  have htraceId : textAt (units "traceId") (normal (fixture.toValue platform)) = some fixture.traceId :=
    hfields.textAt (by simp)
  have hpipeline : textAt (units "pipeline") (normal (fixture.toValue platform)) = some fixture.pipeline :=
    hfields.textAt (by simp)
  have hinteractions : itemsAt (units "interactions") (normal (fixture.toValue platform)) =
      some ((fixture.interactions.map RelayInteraction.toValue).map normal) := hfields.itemsAt (by simp)
  have hfinalState : objectAt (units "finalState") (normal (fixture.toValue platform)) =
      some (normal fixture.finalState.toValue) := hfields.objectAt (by simp [ReplayState.toValue])
  have hdigest : textAt (units "digest") (normal (fixture.toValue platform)) = some fixture.digest :=
    hfields.textAt (by simp)
  have hmapM := mapM_map_normal (l := fixture.interactions) fun interaction hi => interaction_ofValue (h interaction hi)
  refine ⟨hfields.numberAt (by simp), ?_⟩
  unfold RelayReplayFixture.ofValue
  rw [htraceId, hpipeline, hinteractions, hfinalState, hdigest]
  simp only [Option.bind_eq_bind, Option.bind_some, hmapM, state_ofValue]
  rfl

theorem load_written [DecidableEq ν] (hlawful : Lawful platform) {fixture : RelayReplayFixture ν}
    (hprintable : Printable platform (fixture.toValue platform))
    (h : ∀ interaction ∈ fixture.interactions, ∃ proto entries, interaction.payload = .obj proto entries) :
    loadFixture platform (writeFixture platform fixture) = .ok fixture.read := by
  obtain ⟨hversion, hvalue⟩ := fixture_ofValue platform h
  have hnormal : ∃ entries, normal (fixture.toValue platform) = .obj none entries := ⟨_, by
    rw [RelayReplayFixture.toValue, normal]⟩
  obtain ⟨entries, hentries⟩ := hnormal
  unfold loadFixture writeFixture
  rw [parse_written hlawful.numbers hprintable]
  rw [hentries] at hversion hvalue ⊢
  simp only [hversion, if_true, hvalue]

/-! ## Redacted values -/

variable {digest : Text → Text}

/-- What an item of an array becomes. -/
def redactItem (digest : Text → Text) : Value ν → Value ν
  | .arr items => build (redactIndexed digest 0 items)
  | v => redactValue digest v

theorem redactItems_eq (items : List (Value ν)) : redactItems digest items = items.map (redactItem digest) := by
  induction items with
  | nil => rfl
  | cons v items ih =>
    rw [List.map_cons, ← ih]
    cases v <;> rfl

theorem redactEntries_eq (entries : List (Text × Value ν)) :
    redactEntries digest entries =
      entries.map fun e => (e.1, if isSensitive e.1 then mask digest e.2 else redactValue digest e.2) := by
  induction entries with
  | nil => rfl
  | cons e entries ih => rw [redactEntries, ih, List.map_cons]

theorem digitChar_units : ∀ k < 10, charUnits k.digitChar = [UInt16.ofNat k.digitChar.toNat] ∧
    Char.ofNat (UInt16.ofNat k.digitChar.toNat).toNat = k.digitChar ∧ 0x30 ≤ UInt16.ofNat k.digitChar.toNat ∧
      UInt16.ofNat k.digitChar.toNat ≤ 0x39 := by decide

theorem flatMap_charUnits {cs : List Char} (h : ∀ c ∈ cs, c.isDigit = true) :
    (cs.flatMap charUnits).map (fun u => Char.ofNat u.toNat) = cs ∧
      ∀ u ∈ cs.flatMap charUnits, 0x30 ≤ u ∧ u ≤ 0x39 := by
  induction cs with
  | nil => simp
  | cons c cs ih =>
    rw [List.forall_mem_cons] at h
    obtain ⟨k, hk, rfl⟩ := Lib.exists_of_isDigit h.1
    obtain ⟨hunits, hback, hlow, hhigh⟩ := digitChar_units k hk
    obtain ⟨ihback, ihdigits⟩ := ih h.2
    rw [List.flatMap_cons, hunits, List.singleton_append, List.map_cons, hback, ihback, List.forall_mem_cons]
    exact ⟨rfl, ⟨hlow, hhigh⟩, ihdigits⟩

theorem indexKey_injective {i j : Nat} (h : indexKey i = indexKey j) : i = j := by
  have hback : ∀ n : Nat, (indexKey n).map (fun u => Char.ofNat u.toNat) = n.repr.toList :=
    fun n => (flatMap_charUnits fun c hc => Lib.isDigit_of_mem_repr hc).1
  have hrepr : i.repr.toList = j.repr.toList := by rw [← hback i, ← hback j, h]
  have hread := Lib.readInt_repr i
  rw [hrepr, Lib.readInt_repr j] at hread
  exact (Int.ofNat.inj (Option.some.inj hread)).symm

theorem indexKey_head (i : Nat) : ∃ u tail, indexKey i = u :: tail ∧ 0x30 ≤ u ∧ u ≤ 0x39 := by
  have hdigits : ∀ u ∈ indexKey i, 0x30 ≤ u ∧ u ≤ 0x39 :=
    (flatMap_charUnits fun c hc => Lib.isDigit_of_mem_repr hc).2
  cases h : indexKey i with
  | nil =>
    have hback := (flatMap_charUnits fun c hc => Lib.isDigit_of_mem_repr (n := i) hc).1
    change (indexKey i).map _ = _ at hback
    rw [h] at hback
    exact absurd hback.symm Lib.repr_ne_nil
  | cons u tail =>
    rw [h] at hdigits
    exact ⟨u, tail, rfl, hdigits u List.mem_cons_self⟩

theorem indexKey_ne (i : Nat) : indexKey i ≠ units "__proto__" ∧ indexKey i ≠ units "toString" := by
  obtain ⟨u, tail, h, -, hle⟩ := indexKey_head i
  have hproto : units "__proto__" = 0x5F :: (units "__proto__").tail := by decide
  have htoString : units "toString" = 0x74 :: (units "toString").tail := by decide
  rw [h]
  constructor
  · intro heq
    rw [hproto] at heq
    rw [(List.cons.inj heq).1] at hle
    exact absurd hle (by decide)
  · intro heq
    rw [htoString] at heq
    rw [(List.cons.inj heq).1] at hle
    exact absurd hle (by decide)

theorem isSensitive_indexKey (i : Nat) : isSensitive (indexKey i) = false := by
  obtain ⟨u, tail, h, -, hle⟩ := indexKey_head i
  have hall : (SENSITIVE_PAYLOAD_KEYS.all fun key => key.head?.all (0x39 < ·)) = true := by decide
  have hletters : ∀ key ∈ SENSITIVE_PAYLOAD_KEYS, ∀ u ∈ key.head?, 0x39 < u := by
    simpa only [List.all_eq_true, Option.all_eq_true, Option.mem_def, decide_eq_true_eq] using hall
  have hlower : toLowerCase (indexKey i) = u :: toLowerCase tail := by
    rw [h, toLowerCase, List.map_cons, if_neg]
    · rfl
    · intro hcapital
      exact absurd (UInt16.le_trans hcapital.1 hle) (by decide)
  unfold isSensitive
  rw [decide_eq_false_iff_not, hlower]
  intro hmem
  exact absurd (hletters _ hmem u rfl) (UInt16.not_lt.mpr hle)

/-! ## Objects that are built -/

variable {assignments : List (Text × Value ν)}

theorem foldl_assign_entries (assignments : List (Text × Value ν)) (out : Option (Value ν) × List (Text × Value ν)) :
    (assignments.foldl assign out).2 = out.2 ++ assignments.filter fun e => e.1 ≠ units "__proto__" := by
  induction assignments generalizing out with
  | nil => simp
  | cons e assignments ih =>
    rw [List.foldl_cons, ih, List.filter_cons]
    by_cases hproto : e.1 = units "__proto__"
    · have hsame : (assign out e).2 = out.2 := by
        rw [assign, if_pos hproto]
        split <;> rfl
      rw [hsame, if_neg (by simpa using hproto)]
    · rw [assign, if_neg hproto, if_pos (by simpa using hproto), List.append_assoc]
      rfl

theorem foldl_assign_proto (assignments : List (Text × Value ν)) (out : Option (Value ν) × List (Text × Value ν)) :
    ∀ v ∈ (assignments.foldl assign out).1, v ∈ out.1 ∨ (units "__proto__", v) ∈ assignments := by
  induction assignments generalizing out with
  | nil =>
    intro v hv
    exact .inl hv
  | cons e assignments ih =>
    intro v hv
    rw [List.foldl_cons] at hv
    obtain hv | hv := ih (assign out e) v hv
    · unfold assign at hv
      split at hv
      · next hproto =>
        split at hv
        all_goals first
          | exact .inl hv
          | exact .inr (List.mem_cons.mpr (.inl (Prod.ext hproto.symm (Option.some.inj hv).symm)))
      · exact .inl hv
    · exact .inr (List.mem_cons_of_mem _ hv)

/-- What is built of assignments: none of them goes anywhere else. -/
theorem build_spec (assignments : List (Text × Value ν)) :
    ∃ proto, build assignments = .obj proto (assignments.filter fun e => e.1 ≠ units "__proto__") ∧
      ∀ v ∈ proto, (units "__proto__", v) ∈ assignments := by
  refine ⟨(assignments.foldl assign (none, [])).1, ?_, ?_⟩
  · rw [build, foldl_assign_entries]
    rfl
  · intro v hv
    exact (foldl_assign_proto assignments (none, []) v hv).resolve_left (by simp)

theorem build_of_ne (h : ∀ e ∈ assignments, e.1 ≠ units "__proto__") : build assignments = .obj none assignments := by
  obtain ⟨proto, hbuild, hproto⟩ := build_spec assignments
  have hfilter : (assignments.filter fun e => e.1 ≠ units "__proto__") = assignments := by
    rw [List.filter_eq_self]
    intro e he
    exact decide_eq_true (h e he)
  rw [hbuild, hfilter]
  cases proto with
  | none => rfl
  | some v => exact absurd rfl (h _ (hproto v rfl))

theorem mem_redactIndexed {i : Nat} {e : Text × Value ν} (h : e ∈ redactIndexed digest i items) :
    ∃ j ≥ i, e.1 = indexKey j ∧ ∃ v ∈ items, e.2 = redactValue digest v := by
  induction items generalizing i with
  | nil => cases h
  | cons v items ih =>
    rw [redactIndexed, List.mem_cons] at h
    obtain rfl | h := h
    · exact ⟨i, le_refl i, rfl, v, List.mem_cons_self, rfl⟩
    · obtain ⟨j, hj, hkey, w, hw, hvalue⟩ := ih h
      exact ⟨j, (Nat.le_succ i).trans hj, hkey, w, List.mem_cons_of_mem _ hw, hvalue⟩

theorem nodup_redactIndexed (i : Nat) (items : List (Value ν)) :
    ((redactIndexed digest i items).map Prod.fst).Nodup := by
  induction items generalizing i with
  | nil => exact .nil
  | cons v items ih =>
    rw [redactIndexed, List.map_cons, List.nodup_cons]
    refine ⟨?_, ih (i + 1)⟩
    intro hmem
    obtain ⟨e, he, hkey⟩ := List.mem_map.mp hmem
    obtain ⟨j, hj, hindex, -⟩ := mem_redactIndexed he
    rw [hindex] at hkey
    have hsame := indexKey_injective hkey
    omega

theorem build_redactIndexed (digest : Text → Text) (items : List (Value ν)) :
    build (redactIndexed digest 0 items) = .obj none (redactIndexed digest 0 items) := by
  apply build_of_ne
  intro e he
  obtain ⟨j, -, hkey, -⟩ := mem_redactIndexed he
  rw [hkey]
  exact (indexKey_ne j).1

theorem printable_build (hkeys : (assignments.map Prod.fst).Nodup) (h : ∀ e ∈ assignments, Printable platform e.2) :
    Printable platform (build assignments) := by
  obtain ⟨proto, hbuild, -⟩ := build_spec assignments
  rw [hbuild]
  refine .obj (hkeys.sublist (List.filter_sublist.map Prod.fst)) ?_
  intro e he
  exact h e (List.mem_filter.mp he).1

theorem printable_mask (digest : Text → Text) (v : Value ν) : Printable platform (mask digest v) := by
  cases v <;> exact .str _

theorem printable_redactEntries (hkeys : (entries.map Prod.fst).Nodup)
    (h : ∀ e ∈ entries, Printable platform (redactValue digest e.2)) :
    Printable platform (build (redactEntries digest entries)) := by
  rw [redactEntries_eq]
  apply printable_build
  · rw [List.map_map]
    exact hkeys
  · rw [List.forall_mem_map]
    intro e he
    simp only
    split
    · exact printable_mask digest e.2
    · exact h e he

theorem printable_redact (digest : Text → Text) (h : IsJson platform v) :
    Printable platform (redactValue digest v) ∧ Printable platform (redactItem digest v) := by
  induction h with
  | null => exact ⟨.null, .null⟩
  | bool b => exact ⟨.bool b, .bool b⟩
  | num hn => exact ⟨.num hn, .num hn⟩
  | str t => exact ⟨.str t, .str t⟩
  | @arr items _ ih =>
    constructor
    · rw [redactValue, redactItems_eq]
      refine .arr ?_
      rw [List.forall_mem_map]
      exact fun v hv => (ih v hv).2
    · apply printable_build (nodup_redactIndexed 0 items)
      intro e he
      obtain ⟨j, -, -, v, hv, hvalue⟩ := mem_redactIndexed he
      rw [hvalue]
      exact (ih v hv).1
  | obj hkeys _ ih =>
    have hentries := printable_redactEntries hkeys fun e he => (ih e he).1
    exact ⟨hentries, hentries⟩

/-! ## What a fixture hides -/

def IsMask (digest : Text → Text) (v : Value ν) : Prop :=
  v = .str (units "[redacted]") ∨ ∃ t, v = .str (units "sha256:" ++ digest t)

/-- Under every sensitive key, at any depth and behind prototypes too, stands a mask. -/
inductive Masked (digest : Text → Text) : Value ν → Prop
  | null : Masked digest .null
  | bool (b : Bool) : Masked digest (.bool b)
  | num (n : ν) : Masked digest (.num n)
  | str (t : Text) : Masked digest (.str t)
  | arr {items : List (Value ν)} (h : ∀ v ∈ items, Masked digest v) : Masked digest (.arr items)
  | obj {proto : Option (Value ν)} {entries : List (Text × Value ν)} (hproto : ∀ v ∈ proto, Masked digest v)
      (hsensitive : ∀ e ∈ entries, isSensitive e.1 = true → IsMask digest e.2)
      (h : ∀ e ∈ entries, isSensitive e.1 = false → Masked digest e.2) : Masked digest (.obj proto entries)

theorem isMask_mask (digest : Text → Text) (v : Value ν) : IsMask digest (mask digest v) := by
  cases v with
  | str t => exact .inr ⟨t, rfl⟩
  | null | bool | num | arr | obj => exact .inl rfl

theorem masked_build (hsensitive : ∀ e ∈ assignments, isSensitive e.1 = true → IsMask digest e.2)
    (h : ∀ e ∈ assignments, isSensitive e.1 = false → Masked digest e.2) : Masked digest (build assignments) := by
  obtain ⟨proto, hbuild, hproto⟩ := build_spec assignments
  have hopen : isSensitive (units "__proto__") = false := by decide
  rw [hbuild]
  refine .obj ?_ ?_ ?_
  · intro v hv
    exact h _ (hproto v hv) hopen
  · intro e he
    exact hsensitive e (List.mem_filter.mp he).1
  · intro e he
    exact h e (List.mem_filter.mp he).1

theorem masked_redactEntries (h : ∀ e ∈ entries, Masked digest (redactValue digest e.2)) :
    Masked digest (build (redactEntries digest entries)) := by
  rw [redactEntries_eq]
  apply masked_build
  all_goals
    rw [List.forall_mem_map]
    intro e he hsensitive
    simp only [hsensitive, if_true, Bool.false_eq_true, if_false]
  · exact isMask_mask digest e.2
  · exact h e he

theorem masked_redact (digest : Text → Text) (v : Value ν) :
    Masked digest (redactValue digest v) ∧ Masked digest (redactItem digest v) := by
  induction v with
  | null => exact ⟨.null, .null⟩
  | bool b => exact ⟨.bool b, .bool b⟩
  | num n => exact ⟨.num n, .num n⟩
  | str t => exact ⟨.str t, .str t⟩
  | arr items ih =>
    constructor
    · rw [redactValue, redactItems_eq]
      refine .arr ?_
      rw [List.forall_mem_map]
      exact fun v hv => (ih v hv).2
    · apply masked_build
      all_goals
        intro e he hsensitive
        obtain ⟨j, -, hkey, v, hv, hvalue⟩ := mem_redactIndexed he
      · rw [hkey, isSensitive_indexKey] at hsensitive
        cases hsensitive
      · rw [hvalue]
        exact (ih v hv).1
  | obj proto entries _ ih =>
    have hentries := masked_redactEntries fun e he => (ih e he).1
    exact ⟨hentries, hentries⟩

/-- The digest in place of a sensitive string, and nothing in place of another sensitive value. -/
def digestSensitive (digest : Text → Text) : Value ν → Value ν
  | .str t => .str (digest t)
  | _ => .null

mutual

/-- A value of whose sensitive strings only the digests are known. -/
def digested (digest : Text → Text) : Value ν → Value ν
  | .arr items => .arr (digestedItems digest items)
  | .obj _ entries => .obj none (digestedEntries digest entries)
  | v => v

def digestedItems (digest : Text → Text) : List (Value ν) → List (Value ν)
  | [] => []
  | v :: items => digested digest v :: digestedItems digest items

def digestedEntries (digest : Text → Text) : List (Text × Value ν) → List (Text × Value ν)
  | [] => []
  | (key, v) :: entries =>
    (key, if isSensitive key then digestSensitive digest v else digested digest v) :: digestedEntries digest entries

end

theorem digestedItems_eq (items : List (Value ν)) : digestedItems digest items = items.map (digested digest) := by
  induction items with
  | nil => rfl
  | cons v items ih => rw [digestedItems, ih, List.map_cons]

theorem digestedEntries_eq (entries : List (Text × Value ν)) :
    digestedEntries digest entries =
      entries.map fun e => (e.1, if isSensitive e.1 then digestSensitive digest e.2 else digested digest e.2) := by
  induction entries with
  | nil => rfl
  | cons e entries ih => rw [digestedEntries, ih, List.map_cons]

theorem mask_digested (digest : Text → Text) (v : Value ν) : mask id (digestSensitive digest v) = mask digest v := by
  cases v <;> rfl

theorem redactEntries_digested (h : ∀ e ∈ entries, redactValue id (digested digest e.2) = redactValue digest e.2) :
    redactEntries id (digestedEntries digest entries) = redactEntries digest entries := by
  rw [redactEntries_eq, redactEntries_eq, digestedEntries_eq, List.map_map]
  apply List.map_congr_left
  intro e he
  simp only [Function.comp_apply]
  split
  · rw [mask_digested]
  · rw [h e he]

theorem redactIndexed_digested (i : Nat) (h : ∀ v ∈ items, redactValue id (digested digest v) = redactValue digest v) :
    redactIndexed id i (digestedItems digest items) = redactIndexed digest i items := by
  induction items generalizing i with
  | nil => rfl
  | cons v items ih =>
    rw [List.forall_mem_cons] at h
    rw [digestedItems, redactIndexed, redactIndexed, h.1, ih (i + 1) h.2]

/-- Redaction looks at no more of a sensitive string than its digest. -/
theorem redact_digested (digest : Text → Text) (v : Value ν) :
    redactValue id (digested digest v) = redactValue digest v ∧
      redactItem id (digested digest v) = redactItem digest v := by
  induction v with
  | null | bool | num | str => exact ⟨rfl, rfl⟩
  | arr items ih =>
    constructor
    · rw [digested, redactValue, redactValue, redactItems_eq, redactItems_eq, digestedItems_eq, List.map_map]
      exact congrArg Value.arr (List.map_congr_left fun v hv => (ih v hv).2)
    · rw [digested, redactItem, redactItem, redactIndexed_digested 0 fun v hv => (ih v hv).1]
  | obj proto entries _ ih =>
    have hentries := redactEntries_digested fun e he => (ih e he).1
    rw [digested, redactValue, redactValue, hentries]
    exact ⟨rfl, congrArg build hentries⟩

end ZkVote.Replay

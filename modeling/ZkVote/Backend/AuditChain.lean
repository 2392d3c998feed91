import ZkVote.Backend.AuditLog
import ZkVote.Lib.HashChain
import ZkVote.Lib.Runs
import ZkVote.Lib.Sha256

/-!
# The audit chain

A table that verifies is a chain of hashes. Two things break it without anyone tampering: an archived row with a kept
one behind it, and parameters cut in half a character. The last row can be taken out unseen.
-/

open Lib Lib.HashChain

namespace ZkVote.Audit

variable {Params : Type} (platform : Platform Params)

/-! ## Runs -/

inductive Call (Params : Type) where
  | record (entry : RecordAuditLogInput Params) (timestamp : String)
  | archive (cutoff now : String) (outcome : Archival)

def Platform.apply (table : AuditTable) : Call Params → AuditTable
  | .record entry timestamp => platform.recordAuditLog table entry timestamp
  | .archive cutoff now outcome => table.archiveOldAuditLogs cutoff now outcome

def Platform.Step (table : AuditTable) (call : Call Params) (table' : AuditTable) : Prop :=
  table' = platform.apply table call

/-- The parameters are not cut in the middle of a character, and no row is archived that a row to be kept stands
behind. -/
def Platform.Keeps (table : AuditTable) : Call Params → Prop
  | .record entry _ => ∀ params, entry.params = some params → (slice 4000 (platform.redactedJson params)).half = none
  | .archive cutoff _ outcome => outcome = .done →
    table.rows.Pairwise fun earlier later => earlier.due cutoff = true → later.due cutoff = true

/-- What someone with access to the stored rows does to them. -/
inductive Tampered : List AuditLogRow → List AuditLogRow → Prop
  | changed {pre post : List AuditLogRow} {row row' : AuditLogRow}
      (hcovered : row'.toAuditFields ≠ row.toAuditFields ∨ row'.prevHash ≠ row.prevHash) (hhash : row'.hash = row.hash) :
      Tampered (pre ++ row :: post) (pre ++ row' :: post)
  | deleted {pre post : List AuditLogRow} {row : AuditLogRow} : Tampered (pre ++ row :: post) (pre ++ post)
  | swapped {pre mid post : List AuditLogRow} {row row' : AuditLogRow} :
      Tampered (pre ++ row :: (mid ++ row' :: post))
        (pre ++ { row' with id := row.id } :: (mid ++ { row with id := row'.id } :: post))

/-- The text of a row as it is stored. -/
def rowText (row : AuditLogRow) : Bytes :=
  utf8 (String.ofList (auditJson jsonText row.toAuditFields (row.prevHash.getD "")))

/-- The text hashed when a row is written. -/
def writtenText (table : AuditTable) (e : AuditFields Slice) : Bytes :=
  utf8 (String.ofList (auditJson Slice.json e table.lastHash))

/-- The texts that are hashed for what a run records, and for a table. -/
def Platform.Hashed (log : List (AuditTable × Call Params)) (rows : List AuditLogRow) (text : Bytes) : Prop :=
  (∃ table entry timestamp, (table, Call.record entry timestamp) ∈ log ∧
    (text = writtenText table (platform.auditInput entry timestamp) ∨
      text = rowText (platform.newRow table (platform.auditInput entry timestamp)))) ∨
    ∃ row ∈ rows, text = rowText row

/-! ## A table that verifies -/

def digest (row : AuditLogRow) : Option String := some (platform.computeRowHash row (row.prevHash.getD ""))

def Platform.Chained (rows : List AuditLogRow) : Prop :=
  Linked AuditLogRow.prevHash (fun row => some row.hash) (digest platform) (some genesis) rows

section
variable {platform} {rows rows' : List AuditLogRow} {table table' : AuditTable} {row row' : AuditLogRow}
  {known : Bytes → Prop}

theorem verifyRows_valid {count : Nat} {prevHash : String} :
    (platform.verifyRows count prevHash rows).valid = true ↔
      Linked AuditLogRow.prevHash (fun row => some row.hash) (digest platform) (some prevHash) rows := by
  induction rows generalizing prevHash with
  | nil => exact ⟨fun _ => trivial, fun _ => rfl⟩
  | cons row rows ih =>
    rw [linked_cons]
    unfold Platform.verifyRows digest
    by_cases hprev : row.prevHash = some prevHash
    · rw [if_neg (not_not.mpr hprev), hprev]
      by_cases hhash : platform.computeRowHash row prevHash = row.hash
      · rw [if_neg (not_not.mpr hhash), ih]
        exact ⟨fun h => ⟨rfl, congrArg some hhash, h⟩, fun h => h.2.2⟩
      · rw [if_pos hhash]
        exact iff_of_false (fun h => nomatch h) fun h => hhash (Option.some.inj h.2.1)
    · rw [if_pos hprev]
      exact iff_of_false (fun h => nomatch h) fun h => hprev h.1

theorem verifyAuditChain_valid : (platform.verifyAuditChain rows).valid = true ↔ platform.Chained rows := verifyRows_valid

theorem verifyAuditChain_invalid :
    (platform.verifyAuditChain rows).valid = false ↔ ¬ platform.Chained rows := by
  rw [← verifyAuditChain_valid, Bool.not_eq_true]

theorem hashText_injective (hsound : ∀ a b, known a → known b → platform.sha256 a = platform.sha256 b → a = b)
    {text text' : List Char} (hk : known (utf8 (String.ofList text))) (hk' : known (utf8 (String.ofList text')))
    (h : platform.hashText text = platform.hashText text') : text = text' := by
  have hdigest := Vector.toList_inj.mp (toHex_injective h)
  exact String.ofList_inj.mp (utf8_injective (hsound _ _ hk hk' hdigest))

theorem hashText_ne_genesis (text : List Char) : platform.hashText text ≠ genesis := by
  intro h
  have hlength := congrArg (fun s => (utf8 s).length) h
  have hgenesis : (utf8 genesis).length = 7 := by decide
  change (utf8 (platform.hashText text)).length = (utf8 genesis).length at hlength
  unfold Platform.hashText at hlength
  rw [length_utf8_toHex, Vector.length_toList, hgenesis] at hlength
  cases hlength

theorem digest_injective (hsound : ∀ a b, known a → known b → platform.sha256 a = platform.sha256 b → a = b)
    (hk : known (rowText row)) (hk' : known (rowText row')) (h : digest platform row = digest platform row') :
    row.toAuditFields = row'.toAuditFields ∧ row.prevHash.getD "" = row'.prevHash.getD "" :=
  rowJson_inj (hashText_injective hsound hk hk' (Option.some.inj h))

theorem chained_prev_isSome (h : platform.Chained rows) (hrow : row ∈ rows) :
    ∃ prevHash, row.prevHash = some prevHash := by
  rcases List.mem_cons.mp (h.prev_mem hrow) with horigin | hmem
  · exact ⟨_, horigin⟩
  · obtain ⟨before, _, hbefore⟩ := List.mem_map.mp hmem
    exact ⟨_, hbefore.symm⟩

theorem chained_nodup (hsound : ∀ a b, known a → known b → platform.sha256 a = platform.sha256 b → a = b)
    (hknown : ∀ row ∈ rows, known (rowText row)) (h : platform.Chained rows) :
    (some genesis :: rows.map fun row => some row.hash).Nodup := by
  refine h.nodup ⟨fun a ha b hb hab => ?_, fun a _ horigin => hashText_ne_genesis _ (Option.some.inj horigin)⟩
  obtain ⟨prevHash, hprev⟩ := chained_prev_isSome h ha
  obtain ⟨prevHash', hprev'⟩ := chained_prev_isSome h hb
  have hsame := (digest_injective hsound (hknown a ha) (hknown b hb) hab).2
  rw [hprev, hprev'] at hsame
  rw [hprev, hprev']
  exact congrArg some hsame

/-! ## Tampering -/

/-- Of all that can be done to a chain, only taking out its last row leaves one. -/
theorem tampered_chained_iff (hsound : ∀ a b, known a → known b → platform.sha256 a = platform.sha256 b → a = b)
    (hknown : ∀ row ∈ rows, known (rowText row)) (hknown' : ∀ row ∈ rows', known (rowText row))
    (h : platform.Chained rows) (htampered : Tampered rows rows') :
    platform.Chained rows' ↔ rows' = rows.dropLast := by
  have hnodup := chained_nodup hsound hknown h
  constructor
  · intro h'
    cases htampered with
    | @changed pre post row row' hcovered hhash =>
      have hmem : row ∈ pre ++ row :: post := List.mem_append_right pre List.mem_cons_self
      have hmem' : row' ∈ pre ++ row' :: post := List.mem_append_right pre List.mem_cons_self
      have hdigest : digest platform row' = digest platform row := by
        rw [h'.digest_eq hmem', h.digest_eq hmem, hhash]
      have hfields := (digest_injective hsound (hknown' row' hmem') (hknown row hmem) hdigest).1
      have hprev : row'.prevHash = row.prevHash := (linked_append.mp h').2.1.trans (linked_append.mp h).2.1.symm
      exact (hcovered.elim (fun hne => hne hfields) fun hne => hne hprev).elim
    | @deleted pre post row =>
      have hpost : post = [] := by
        by_contra hpost
        exact not_linked_of_removed h hnodup hpost h'
      rw [hpost, List.append_nil, List.dropLast_concat]
    | @swapped pre mid post row row' =>
      have hmoved : ({ row' with id := row.id } : AuditLogRow).prevHash = row'.prevHash := rfl
      exact absurd h' (not_linked_of_moved h hnodup hmoved)
  · rintro rfl
    exact (linked_sublist_iff h hnodup (List.dropLast_sublist rows)).mpr (List.dropLast_prefix rows)

/-! ## Steps -/

theorem lastHash_eq_tip : some table.lastHash = tip (fun row => some row.hash) (some genesis) table.rows := by
  unfold AuditTable.lastHash
  induction table.rows using List.reverseRecOn with
  | nil => rfl
  | append_singleton rows row ih =>
    rw [tip_append, List.getLast?_concat]
    rfl

/-- Parameters that are not cut are stored as they were handed over. -/
theorem stored_json_eq {e : AuditFields Slice} (hwhole : ∀ params, e.params = some params → params.half = none) :
    auditJson jsonText (platform.newRow table e).toAuditFields table.lastHash =
      auditJson Slice.json e table.lastHash := by
  unfold auditJson Platform.newRow
  dsimp only
  cases hparams : e.params with
  | none => rfl
  | some params =>
    have hhalf := hwhole params hparams
    have hstored : platform.store params = String.ofList params.chars := by
      unfold Platform.store
      rw [hhalf]
    have hjson : jsonOf jsonText (some (String.ofList params.chars)) = jsonOf Slice.json (some params) :=
      (slice_json_eq hhalf).symm
    rw [Option.map_some, hstored, hjson]

theorem stored_json_ne {e : AuditFields Slice} {params : Slice} {i : Fin 0x400} (hparams : e.params = some params)
    (hhalf : params.half = some i) : auditJson jsonText (platform.newRow table e).toAuditFields table.lastHash ≠
      auditJson Slice.json e table.lastHash := by
  have hstored : (platform.newRow table e).params = some (platform.store params) := by
    change e.params.map platform.store = _
    rw [hparams]
    rfl
  intro h
  have htold : Told (jsonOf jsonText (platform.newRow table e).params) (jsonOf Slice.json e.params) := by
    intro rest rest' _ _ heq
    rw [hstored, hparams] at heq
    exact absurd heq.symm (slice_json_ne hhalf _ _ _)
  have hsame := (auditJson_inj htold h).2.2.2.2.2.2.1
  rw [hstored, hparams] at hsame
  exact slice_json_ne hhalf (platform.store params) [] [] (congrArg (· ++ []) hsame.symm)

/-- A row has the hash of its text as stored, unless the parameters were cut. -/
theorem newRow_digest_iff (hsound : ∀ a b, known a → known b → platform.sha256 a = platform.sha256 b → a = b)
    {e : AuditFields Slice} (hwritten : known (writtenText table e)) (hrow : known (rowText (platform.newRow table e))) :
    digest platform (platform.newRow table e) = some (platform.newRow table e).hash ↔
      ∀ params, e.params = some params → params.half = none := by
  constructor
  · intro h params hparams
    have hjson := hashText_injective hsound hrow hwritten (Option.some.inj h)
    cases hhalf : params.half with
    | none => rfl
    | some i => exact absurd hjson (stored_json_ne hparams hhalf)
  · intro hwhole
    exact congrArg (fun text => some (platform.hashText text)) (stored_json_eq hwhole)

theorem record_chained_iff (hsound : ∀ a b, known a → known b → platform.sha256 a = platform.sha256 b → a = b)
    {e : AuditFields Slice} (hwritten : known (writtenText table e)) (hrow : known (rowText (platform.newRow table e)))
    (h : platform.Chained table.rows) :
    platform.Chained (platform.insertAuditLog table e).rows ↔ ∀ params, e.params = some params → params.half = none := by
  rw [← newRow_digest_iff hsound hwritten hrow]
  unfold Platform.Chained Platform.insertAuditLog
  rw [linked_snoc]
  exact ⟨fun h => h.2.2, fun hdigest => ⟨h, lastHash_eq_tip, hdigest⟩⟩

/-- A row is named by its id. -/
theorem mem_due_ids (cutoff : String) (hids : (rows.map AuditLogRow.id).Nodup) (hrow : row ∈ rows) :
    row.id ∈ (rows.filter (AuditLogRow.due cutoff)).map AuditLogRow.id ↔ row.due cutoff = true := by
  constructor
  · intro hmem
    obtain ⟨other, hother, hid⟩ := List.mem_map.mp hmem
    obtain ⟨hother, hdue⟩ := List.mem_filter.mp hother
    rw [← List.inj_on_of_nodup_map hids hother hrow hid]
    exact hdue
  · exact fun hdue => List.mem_map_of_mem (List.mem_filter.mpr ⟨hrow, hdue⟩)

theorem archive_done_rows {cutoff now : String} (hids : (table.rows.map AuditLogRow.id).Nodup) :
    (table.archiveOldAuditLogs cutoff now .done).rows = table.rows.filter fun row => !row.due cutoff := by
  unfold AuditTable.archiveOldAuditLogs AuditTable.markAuditLogsArchived AuditTable.deleteAuditLogs
  dsimp only
  rw [List.filter_map]
  have hfilter : ∀ row ∈ table.rows, ((fun row : AuditLogRow => decide (¬ (row.id ∈ (table.rows.filter
        (AuditLogRow.due cutoff)).map AuditLogRow.id ∧ row.archivedAt ≠ none))) ∘ fun row =>
        if row.id ∈ (table.rows.filter (AuditLogRow.due cutoff)).map AuditLogRow.id then
          { row with archivedAt := some now } else row) row = !row.due cutoff := by
    intro row hrow
    have hmem := mem_due_ids cutoff hids hrow
    rw [Function.comp_apply]
    cases hdue : row.due cutoff with
    | true =>
      rw [if_pos (hmem.mpr hdue)]
      exact decide_eq_false (not_not.mpr ⟨hmem.mpr hdue, fun h => nomatch h⟩)
    | false =>
      have hnot : row.id ∉ (table.rows.filter (AuditLogRow.due cutoff)).map AuditLogRow.id := fun h => by
        rw [hmem.mp h] at hdue
        cases hdue
      rw [if_neg hnot]
      exact decide_eq_true fun h => hnot h.1
  rw [List.filter_congr hfilter]
  refine (List.map_congr_left fun row hrow => ?_).trans (List.map_id _)
  obtain ⟨hrow, hkept⟩ := List.mem_filter.mp hrow
  refine if_neg fun h => ?_
  rw [(mem_due_ids cutoff hids hrow).mp h] at hkept
  cases hkept

/-- What is not due is a prefix exactly when nothing that is due stands before it. -/
theorem filter_prefix_iff {due : AuditLogRow → Bool} :
    (rows.filter fun row => !due row) <+: rows ↔
      rows.Pairwise fun earlier later => due earlier = true → due later = true := by
  induction rows with
  | nil => exact iff_of_true (List.prefix_refl _) .nil
  | cons row rows ih =>
    rw [List.pairwise_cons]
    cases hdue : due row with
    | true =>
      rw [List.filter_cons_of_neg (by rw [hdue]; decide)]
      constructor
      · intro hprefix
        have hnil : (rows.filter fun row => !due row) = [] := by
          cases hkept : rows.filter fun row => !due row with
          | nil => rfl
          | cons first kept =>
            rw [hkept] at hprefix
            have hfirst : first ∈ rows.filter fun row => !due row := hkept ▸ List.mem_cons_self
            have hnot := (List.mem_filter.mp hfirst).2
            rw [(List.cons_prefix_cons.mp hprefix).1, hdue] at hnot
            cases hnot
        refine ⟨fun later hlater _ => ?_, ih.mp (hnil ▸ List.nil_prefix)⟩
        have hdueLater := List.filter_eq_nil_iff.mp hnil later hlater
        rw [Bool.not_eq_true, Bool.not_eq_false'] at hdueLater
        exact hdueLater
      · rintro ⟨hall, _⟩
        have hnil : (rows.filter fun row => !due row) = [] := by
          refine List.filter_eq_nil_iff.mpr fun later hlater => ?_
          rw [hall later hlater rfl]
          decide
        rw [hnil]
        exact List.nil_prefix
    | false =>
      rw [List.filter_cons_of_pos (by rw [hdue]; decide), List.cons_prefix_cons, ih]
      exact ⟨fun h => ⟨fun _ _ hfalse => (nomatch hfalse), h.2⟩, fun h => ⟨rfl, h.2⟩⟩

theorem archive_chained_iff (hsound : ∀ a b, known a → known b → platform.sha256 a = platform.sha256 b → a = b)
    {cutoff now : String} {outcome : Archival} (hids : (table.rows.map AuditLogRow.id).Nodup)
    (hknown : ∀ row ∈ table.rows, known (rowText row)) (h : platform.Chained table.rows) :
    platform.Chained (table.archiveOldAuditLogs cutoff now outcome).rows ↔
      platform.Keeps table (.archive cutoff now outcome) := by
  unfold Platform.Keeps
  cases outcome with
  | notMarked => exact iff_of_true h fun hdone => nomatch hdone
  | notDeleted =>
    refine iff_of_true ?_ fun hdone => nomatch hdone
    refine (linked_map (fun row => ?_) (fun row => ?_) fun row => ?_).mpr h
    all_goals
      split
      all_goals rfl
  | done =>
    rw [archive_done_rows hids]
    have hkept : (table.rows.filter fun row => !row.due cutoff).Sublist table.rows := List.filter_sublist
    refine (linked_sublist_iff h (chained_nodup hsound hknown h) hkept).trans (filter_prefix_iff.trans ?_)
    exact ⟨fun hpairwise _ => hpairwise, fun hpairwise => hpairwise rfl⟩

/-! ## Every run -/

/-- Rows with ids of their own, and texts that are known. -/
structure Named (known : Bytes → Prop) (table : AuditTable) : Prop where
  ids : (table.rows.map AuditLogRow.id).Nodup
  below : ∀ row ∈ table.rows, row.id ≤ table.lastId
  known : ∀ row ∈ table.rows, known (rowText row)

theorem named_empty : Named known .empty where
  ids := .nil
  below _ h := absurd h List.not_mem_nil
  known _ h := absurd h List.not_mem_nil

/-- The texts that a call hashes are known. -/
def Known (platform : Platform Params) (known : Bytes → Prop) (table : AuditTable) : Call Params → Prop
  | .record entry timestamp => known (writtenText table (platform.auditInput entry timestamp)) ∧
    known (rowText (platform.newRow table (platform.auditInput entry timestamp)))
  | .archive .. => True

theorem cut_iff {entry : RecordAuditLogInput Params} {timestamp : String} :
    (∀ params, (platform.auditInput entry timestamp).params = some params → params.half = none) ↔
      platform.Keeps table (.record entry timestamp) := by
  constructor
  · intro h params hparams
    refine h _ ?_
    change entry.params.map _ = _
    rw [hparams]
    rfl
  · intro h sliced hsliced
    obtain ⟨params, hparams, rfl⟩ := Option.map_eq_some_iff.mp hsliced
    exact h params hparams

/-- The archival job leaves some of the rows, with their ids and texts. -/
theorem archive_keys (table : AuditTable) (cutoff now : String) (outcome : Archival) :
    ((table.archiveOldAuditLogs cutoff now outcome).rows.map fun row => (row.id, rowText row)).Sublist
      (table.rows.map fun row => (row.id, rowText row)) := by
  have hmark : ∀ ids, (table.markAuditLogsArchived ids now).rows.map (fun row => (row.id, rowText row)) =
      table.rows.map fun row => (row.id, rowText row) := by
    intro ids
    unfold AuditTable.markAuditLogsArchived
    rw [List.map_map]
    refine List.map_congr_left fun row _ => ?_
    rw [Function.comp_apply]
    split
    all_goals rfl
  unfold AuditTable.archiveOldAuditLogs
  cases outcome with
  | notMarked => exact List.Sublist.refl _
  | notDeleted => exact (hmark _).symm ▸ List.Sublist.refl _
  | done =>
    rw [← hmark]
    exact List.filter_sublist.map _

theorem chained_apply_iff (hsound : ∀ a b, known a → known b → platform.sha256 a = platform.sha256 b → a = b)
    {call : Call Params} (hknown : Known platform known table call) (hnamed : Named known table)
    (h : platform.Chained table.rows) :
    platform.Chained (platform.apply table call).rows ↔ platform.Keeps table call := by
  cases call with
  | record entry timestamp => exact (record_chained_iff hsound hknown.1 hknown.2 h).trans cut_iff
  | archive cutoff now outcome => exact archive_chained_iff hsound hnamed.ids hnamed.known h

theorem named_apply {call : Call Params} (hknown : Known platform known table call) (h : Named known table) :
    Named known (platform.apply table call) := by
  cases call with
  | record entry timestamp =>
    have hnew : ∀ row ∈ table.rows, row.id ≠ table.lastId + 1 := by
      intro row hrow
      have hle := h.below row hrow
      omega
    refine ⟨?_, ?_, ?_⟩
    · change ((table.rows ++ [platform.newRow table _]).map AuditLogRow.id).Nodup
      rw [List.map_append]
      refine List.nodup_append.mpr ⟨h.ids, List.nodup_singleton _, fun a ha b hb => ?_⟩
      obtain ⟨row, hrow, rfl⟩ := List.mem_map.mp ha
      rw [List.mem_singleton.mp hb]
      exact hnew row hrow
    · intro row hrow
      change row.id ≤ table.lastId + 1
      rcases List.mem_append.mp hrow with hrow | hrow
      · exact Nat.le_succ_of_le (h.below row hrow)
      · rw [List.mem_singleton.mp hrow]
        exact Nat.le_refl _
    · intro row hrow
      rcases List.mem_append.mp hrow with hrow | hrow
      · exact h.known row hrow
      · rw [List.mem_singleton.mp hrow]
        exact hknown.2
  | archive cutoff now outcome =>
    have hkeys := archive_keys table cutoff now outcome
    have hrow : ∀ row ∈ (table.archiveOldAuditLogs cutoff now outcome).rows,
        ∃ row' ∈ table.rows, row'.id = row.id ∧ rowText row' = rowText row := by
      intro row hrow
      obtain ⟨row', hrow', heq⟩ := List.mem_map.mp (hkeys.subset (List.mem_map_of_mem hrow))
      exact ⟨row', hrow', congrArg Prod.fst heq, congrArg Prod.snd heq⟩
    refine ⟨?_, fun row hmem => ?_, fun row hmem => ?_⟩
    · have hids := hkeys.map Prod.fst
      rw [List.map_map, List.map_map] at hids
      exact h.ids.sublist hids
    · obtain ⟨row', hrow', hid, _⟩ := hrow row hmem
      have hle : row'.id ≤ (platform.apply table (.archive cutoff now outcome)).lastId := by
        cases outcome with
        | notMarked | notDeleted | done => exact h.below row' hrow'
      exact hid ▸ hle
    · obtain ⟨row', hrow', _, htext⟩ := hrow row hmem
      exact htext ▸ h.known row' hrow'

theorem named_of_run {log : List (AuditTable × Call Params)}
    (hrun : Run (fun t call t' => platform.Step t call t' ∧ Known platform known t call) .empty log table) :
    Named known table := by
  refine Run.invariant named_empty (fun t call t' hnamed hstep => ?_) hrun
  obtain ⟨rfl, hknown⟩ := hstep
  exact named_apply hknown hnamed

/-- Every state of a run is a chain exactly when every call keeps it one. -/
theorem states_chained_iff (hsound : ∀ a b, known a → known b → platform.sha256 a = platform.sha256 b → a = b)
    {log : List (AuditTable × Call Params)}
    (hrun : Run (fun t call t' => platform.Step t call t' ∧ Known platform known t call) .empty log table) :
    (∀ t ∈ Run.states log table, platform.Chained t.rows) ↔ ∀ e ∈ log, platform.Keeps e.1 e.2 := by
  have hempty : platform.Chained AuditTable.empty.rows := trivial
  refine Run.forall_states_iff_of_step (P := fun t => platform.Chained t.rows) hempty
    (fun past t call t' hpast hchained hstep => ?_) hrun
  obtain ⟨rfl, hknown⟩ := hstep
  exact chained_apply_iff hsound hknown (named_of_run hpast) hchained

end

/-- The chain verifies in every state of a run, and a tampered table is reported, exactly when no call cuts parameters in
half a character or archives a row with a kept one behind it, and what was done is not to take out the last row. -/
theorem audit_chain_exactly {log : List (AuditTable × Call Params)} {table : AuditTable} {rows : List AuditLogRow}
    (hrun : Run platform.Step .empty log table) (htampered : Tampered table.rows rows)
    (hsound : ∀ a b, platform.Hashed log rows a → platform.Hashed log rows b →
      platform.sha256 a = platform.sha256 b → a = b) :
    ((∀ t ∈ Run.states log table, (platform.verifyAuditChain t.rows).valid = true) ∧
      (platform.verifyAuditChain rows).valid = false) ↔
      (∀ e ∈ log, platform.Keeps e.1 e.2) ∧ rows ≠ table.rows.dropLast := by
  have hknown : ∀ e ∈ log, Known platform (platform.Hashed log rows) e.1 e.2 := by
    rintro ⟨t, call⟩ he
    cases call with
    | record entry timestamp =>
      exact ⟨.inl ⟨t, entry, timestamp, he, .inl rfl⟩, .inl ⟨t, entry, timestamp, he, .inr rfl⟩⟩
    | archive cutoff now outcome => trivial
  have hrun := hrun.restrict hknown
  have hstates := states_chained_iff hsound hrun
  simp only [verifyAuditChain_valid, verifyAuditChain_invalid]
  rw [hstates]
  refine and_congr_right fun hkeeps => not_congr ?_
  have hchained := hstates.mpr hkeeps table List.mem_cons_self
  exact tampered_chained_iff hsound (named_of_run hrun).known (fun row hrow => .inr ⟨row, hrow, rfl⟩) hchained htampered

/-! ## A failed upload, and an archive a month later -/

def samplePlatform : Platform Unit where
  sha256 := Lib.sha256
  redactedJson _ := "{}".toList
  stored cs _ := String.ofList cs ++ "\uFFFD"

def sampleEntry : RecordAuditLogInput Unit where
  action := "upload.image"
  endpoint := "/ipfs/image"
  authTokenId := none
  ipHash := none
  requestId := none
  params := some ()
  statusCode := 500

def january : Call Unit := .record sampleEntry "2026-01-01T00:00:00.000Z"
def march : Call Unit := .record sampleEntry "2026-03-01T00:00:00.000Z"
def rotation : Call Unit := .archive "2026-02-01T00:00:00.000Z" "2026-05-01T00:00:00.000Z" .done

def tableOfOne : AuditTable := samplePlatform.apply .empty january
def tableOfTwo : AuditTable := samplePlatform.apply tableOfOne march

/-- The row of March names the hash of a row that is gone, and the only row of a table is taken out unseen. -/
theorem audit_chain_broken :
    Run samplePlatform.Step .empty [(tableOfTwo, rotation), (tableOfOne, march), (.empty, january)]
        (samplePlatform.apply tableOfTwo rotation) ∧
      (samplePlatform.verifyAuditChain (samplePlatform.apply tableOfTwo rotation).rows).valid = false ∧
      Tampered tableOfOne.rows [] ∧ (samplePlatform.verifyAuditChain []).valid = true := by
  have hids : (tableOfTwo.rows.map AuditLogRow.id).Nodup := by decide
  have hrows : (samplePlatform.apply tableOfTwo rotation).rows =
      [samplePlatform.newRow tableOfOne (samplePlatform.auditInput sampleEntry "2026-03-01T00:00:00.000Z")] := by
    refine (archive_done_rows hids).trans ?_
    change List.filter _ (_ :: [_]) = _
    rw [List.filter_cons_of_neg (by decide), List.filter_cons_of_pos (by decide)]
    rfl
  have hdeleted : Tampered ([] ++ tableOfOne.rows) ([] ++ []) := .deleted
  refine ⟨.call (.call (.call .start rfl) rfl) rfl, ?_, hdeleted, rfl⟩
  rw [verifyAuditChain_invalid, hrows]
  intro h
  exact hashText_ne_genesis _ (Option.some.inj h.1)

/-- The same upload, as if it had been accepted. -/
def forged : AuditLogRow :=
  { samplePlatform.newRow .empty (samplePlatform.auditInput sampleEntry "2026-01-01T00:00:00.000Z") with
    statusCode := some 200 }

def uploadRow : AuditLogRow :=
  samplePlatform.newRow .empty (samplePlatform.auditInput sampleEntry "2026-01-01T00:00:00.000Z")

theorem uploadRow_hash : Lib.sha256 (rowText uploadRow) =
    #v[0xb6, 0x8e, 0x0a, 0x5e, 0x58, 0x6f, 0x62, 0x5a, 0x7f, 0x98, 0xa5, 0xd0, 0xed, 0xcd, 0x37, 0x65,
      0x4d, 0x58, 0x00, 0xdc, 0x4a, 0xab, 0xc7, 0xda, 0x99, 0x16, 0xff, 0x78, 0x79, 0xae, 0x79, 0xfd] := by
  decide +kernel

theorem rowTexts_told : Lib.sha256 (rowText uploadRow) ≠ Lib.sha256 (rowText forged) := by
  rw [uploadRow_hash]
  decide +kernel

theorem audit_chain_exactly_of_one_record :
    (∀ t ∈ Run.states [(.empty, january)] tableOfOne, (samplePlatform.verifyAuditChain t.rows).valid = true) ∧
      (samplePlatform.verifyAuditChain [forged]).valid = false := by
  have hrun : Run samplePlatform.Step .empty [(.empty, january)] tableOfOne := .call .start rfl
  have hforged : forged.toAuditFields ≠ uploadRow.toAuditFields := fun h =>
    absurd (congrArg AuditFields.statusCode h) (by decide)
  have hchanged : Tampered ([] ++ uploadRow :: []) ([] ++ forged :: []) := .changed (.inl hforged) rfl
  have htampered : Tampered tableOfOne.rows [forged] := hchanged
  have hkeeps : samplePlatform.Keeps .empty january := fun _ _ => rfl
  have hwritten : writtenText .empty (samplePlatform.auditInput sampleEntry "2026-01-01T00:00:00.000Z") =
      rowText uploadRow :=
    congrArg (fun text => utf8 (String.ofList text)) (stored_json_eq (cut_iff.mpr hkeeps)).symm
  have htexts : ∀ text, samplePlatform.Hashed [(.empty, january)] [forged] text →
      text = rowText uploadRow ∨ text = rowText forged := by
    rintro text (⟨table, entry, timestamp, hmem, htext⟩ | ⟨row, hrow, rfl⟩)
    · cases List.mem_singleton.mp hmem
      exact .inl (htext.elim (fun h => h.trans hwritten) id)
    · rw [List.mem_singleton.mp hrow]
      exact .inr rfl
  have hsound : ∀ a b, samplePlatform.Hashed [(.empty, january)] [forged] a →
      samplePlatform.Hashed [(.empty, january)] [forged] b → samplePlatform.sha256 a = samplePlatform.sha256 b →
      a = b := by
    intro a b ha hb hab
    rcases htexts a ha with ha | ha
    all_goals
      rcases htexts b hb with hb | hb
      all_goals rw [ha, hb] at hab
    · rw [ha, hb]
    · exact absurd hab rowTexts_told
    · exact absurd hab.symm rowTexts_told
    · rw [ha, hb]
  refine (audit_chain_exactly samplePlatform hrun htampered hsound).mpr ⟨fun e he => ?_, List.cons_ne_nil _ _⟩
  rw [List.mem_singleton.mp he]
  exact hkeeps

end ZkVote.Audit

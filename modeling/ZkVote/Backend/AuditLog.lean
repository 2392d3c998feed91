import ZkVote.Lib.BigInt
import ZkVote.Lib.Bytes
import ZkVote.Lib.Json

/-!
# The audit log

`audit.ts` and its table in `db.ts`: what a row's hash covers, how a row is written, how the chain is verified, and
what the archival job takes out.
-/

open Lib Lib.Json

namespace ZkVote.Audit

/-! ## Texts -/

/-- What `slice` leaves of a text: characters, and the first half of a surrogate pair if the cut went through one. -/
structure Slice where
  chars : List Char
  half : Option (Fin 0x400)

/-- `slice(0, units)`. -/
def slice : Nat → List Char → Slice
  | _, [] => ⟨[], none⟩
  | 0, _ :: _ => ⟨[], none⟩
  | units + 1, c :: cs =>
    if c.toNat < 0x10000 then { slice units cs with chars := c :: (slice units cs).chars }
    else
      match units with
      | 0 => ⟨[], some (Fin.ofNat 0x400 ((c.toNat - 0x10000) / 0x400))⟩
      | units + 1 => { slice units cs with chars := c :: (slice units cs).chars }

def halfEscape : Option (Fin 0x400) → List Char
  | none => []
  | some i => backslash :: 'u' :: hexDigits 4 (0xD800 + i.val)

/-- `JSON.stringify` of a sliced text: half a pair is escaped by its number. -/
def Slice.json (s : Slice) : List Char := quotationMark :: s.chars.flatMap escape ++ halfEscape s.half ++ [quotationMark]

def jsonNull : List Char := ['n', 'u', 'l', 'l']

def jsonOf {ρ : Type} (json : ρ → List Char) : Option ρ → List Char
  | none => jsonNull
  | some value => json value

def jsonText (s : String) : List Char := quote s.toList

def jsonNumber : Int → List Char
  | .ofNat n => n.repr.toList
  | .negSucc n => '-' :: (n + 1).repr.toList

def jsonMembers : List (String × List Char) → List Char
  | [] => ['}']
  | (name, value) :: rest => ',' :: jsonText name ++ ':' :: value ++ jsonMembers rest

/-- An object with at least one member. -/
def jsonObject (name : String) (value : List Char) (rest : List (String × List Char)) : List Char :=
  '{' :: jsonText name ++ ':' :: value ++ jsonMembers rest

/-! ## Rows -/

/-- What is written of an action; `ρ` is a text as the caller has it, or as the table has it. -/
structure AuditFields (ρ : Type) where
  timestamp : String
  action : String
  endpoint : String
  authTokenId : Option String
  ipHash : Option String
  requestId : Option String
  params : Option ρ
  statusCode : Option Int

structure AuditLogRow extends AuditFields String where
  id : Nat
  prevHash : Option String
  hash : String
  archivedAt : Option String

def auditJson {ρ : Type} (json : ρ → List Char) (f : AuditFields ρ) (prevHash : String) : List Char :=
  jsonObject "timestamp" (jsonText f.timestamp) [
    ("action", jsonText f.action),
    ("endpoint", jsonText f.endpoint),
    ("authTokenId", jsonOf jsonText f.authTokenId),
    ("ipHash", jsonOf jsonText f.ipHash),
    ("requestId", jsonOf jsonText f.requestId),
    ("params", jsonOf json f.params),
    ("statusCode", jsonOf jsonNumber f.statusCode),
    ("prevHash", jsonText prevHash)]

structure RecordAuditLogInput (Params : Type) where
  action : String
  endpoint : String
  authTokenId : Option String
  ipHash : Option String
  requestId : Option String
  params : Option Params
  statusCode : Int

/-- The rows in the order of their ids, and the id given out last. -/
structure AuditTable where
  rows : List AuditLogRow
  lastId : Nat

def AuditTable.empty : AuditTable := ⟨[], 0⟩

/-- What the code calls: the digest, the JSON text of redacted parameters, and what the database gives back of a text
that ends in half a pair. -/
structure Platform (Params : Type) where
  sha256 : Bytes → BytesN 32
  redactedJson : Params → List Char
  stored : List Char → Fin 0x400 → String

variable {Params : Type} (platform : Platform Params)

def genesis : String := "genesis"

def Platform.hashText (text : List Char) : String := toHex (platform.sha256 (utf8 (String.ofList text))).toList

/-- A text on its way through the table. -/
def Platform.store (s : Slice) : String :=
  match s.half with
  | none => String.ofList s.chars
  | some i => platform.stored s.chars i

/-! ## Writing -/

/-- What `recordAuditLog` hands on, at a time of the clock. -/
def Platform.auditInput (entry : RecordAuditLogInput Params) (timestamp : String) : AuditFields Slice where
  timestamp := timestamp
  action := entry.action
  endpoint := entry.endpoint
  authTokenId := entry.authTokenId
  ipHash := entry.ipHash
  requestId := entry.requestId
  params := entry.params.map fun params => slice 4000 (platform.redactedJson params)
  statusCode := some entry.statusCode

def AuditTable.lastHash (table : AuditTable) : String := (table.rows.getLast?.map AuditLogRow.hash).getD genesis

/-- The row that comes to stand in the table: its hash is of the text that was handed over. -/
def Platform.newRow (table : AuditTable) (e : AuditFields Slice) : AuditLogRow where
  toAuditFields := { e with params := e.params.map platform.store }
  id := table.lastId + 1
  prevHash := some table.lastHash
  hash := platform.hashText (auditJson Slice.json e table.lastHash)
  archivedAt := none

def Platform.insertAuditLog (table : AuditTable) (e : AuditFields Slice) : AuditTable where
  rows := table.rows ++ [platform.newRow table e]
  lastId := table.lastId + 1

def Platform.recordAuditLog (table : AuditTable) (entry : RecordAuditLogInput Params) (timestamp : String) :
    AuditTable :=
  platform.insertAuditLog table (platform.auditInput entry timestamp)

/-! ## Verifying -/

structure AuditChainVerification where
  valid : Bool
  checkedCount : Nat
  brokenAtId : Option Nat
  reason : Option String

def Platform.computeRowHash (row : AuditLogRow) (prevHash : String) : String :=
  platform.hashText (auditJson jsonText row.toAuditFields prevHash)

def Platform.verifyRows (count : Nat) : String → List AuditLogRow → AuditChainVerification
  | _, [] => ⟨true, count, none, none⟩
  | prevHash, row :: rows =>
    if row.prevHash ≠ some prevHash then
      ⟨false, count, some row.id, some "prev_hash does not match the preceding row's hash"⟩
    else if platform.computeRowHash row prevHash ≠ row.hash then
      ⟨false, count, some row.id, some "stored hash does not match recomputed hash"⟩
    else verifyRows count row.hash rows

def Platform.verifyAuditChain (rows : List AuditLogRow) : AuditChainVerification :=
  platform.verifyRows rows.length genesis rows

/-! ## Archiving -/

/-- `archived_at IS NULL AND timestamp < ?`, on texts. -/
def AuditLogRow.due (cutoff : String) (row : AuditLogRow) : Bool :=
  row.archivedAt = none ∧ row.timestamp < cutoff

def AuditTable.markAuditLogsArchived (table : AuditTable) (ids : List Nat) (archivedAt : String) : AuditTable :=
  { table with rows := table.rows.map fun row =>
      if row.id ∈ ids then { row with archivedAt := some archivedAt } else row }

/-- The trigger lets only rows go that are marked. -/
def AuditTable.deleteAuditLogs (table : AuditTable) (ids : List Nat) : AuditTable :=
  { table with rows := table.rows.filter fun row => ¬ (row.id ∈ ids ∧ row.archivedAt ≠ none) }

/-- How far a call of the archival job comes before something throws. -/
inductive Archival where
  | notMarked
  | notDeleted
  | done
deriving DecidableEq

def AuditTable.archiveOldAuditLogs (table : AuditTable) (cutoff now : String) (outcome : Archival) : AuditTable :=
  let ids := (table.rows.filter (AuditLogRow.due cutoff)).map AuditLogRow.id
  match outcome with
  | .notMarked => table
  | .notDeleted => table.markAuditLogsArchived ids now
  | .done => (table.markAuditLogsArchived ids now).deleteAuditLogs ids

/-!
## What a row's hash is of

The fields of a row, and the hash before it, can be read off the text that is hashed.
-/

/-! ### Texts told apart -/

section
variable {v v' cs cs' rest rest' : List Char}

/-- What follows a value in an object. -/
def Ends (rest : List Char) : Prop := ∃ c tail, rest = c :: tail ∧ (c = ',' ∨ c = '}')

/-- Where two values of objects begin the same text, they are the same. -/
def Told (v v' : List Char) : Prop :=
  ∀ rest rest', Ends rest → Ends rest' → v ++ rest = v' ++ rest' → v = v' ∧ rest = rest'

theorem ends_jsonMembers (members : List (String × List Char)) : Ends (jsonMembers members) := by
  cases members with
  | nil => exact ⟨_, _, rfl, .inr rfl⟩
  | cons member members => exact ⟨_, _, rfl, .inl rfl⟩

/-- Values that hold nothing which could follow one. -/
theorem told_of_forall (hv : ∀ c ∈ v, c ≠ ',' ∧ c ≠ '}') (hv' : ∀ c ∈ v', c ≠ ',' ∧ c ≠ '}') : Told v v' := by
  have hends : ∀ {c : Char} {cs rest : List Char}, c ≠ ',' ∧ c ≠ '}' → Ends rest → rest ≠ c :: cs := by
    rintro c cs rest ⟨hcomma, hbrace⟩ ⟨d, tail, rfl, hd⟩ h
    rcases hd with rfl | rfl
    · exact hcomma (List.cons.inj h).1.symm
    · exact hbrace (List.cons.inj h).1.symm
  intro rest rest' hrest hrest' h
  induction v generalizing v' with
  | nil =>
    cases v' with
    | nil => exact ⟨rfl, h⟩
    | cons c cs => exact absurd h (hends (hv' c List.mem_cons_self) hrest)
  | cons c cs ih =>
    cases v' with
    | nil => exact absurd h.symm (hends (hv c List.mem_cons_self) hrest')
    | cons c' cs' =>
      rw [List.forall_mem_cons] at hv hv'
      obtain ⟨rfl, htail⟩ := List.cons.inj h
      obtain ⟨rfl, hrests⟩ := ih hv.2 hv'.2 htail
      exact ⟨rfl, hrests⟩

theorem told_jsonText (s s' : String) : Told (jsonText s) (jsonText s') := by
  intro rest rest' _ _ h
  obtain ⟨hs, hrest⟩ := quote_append_inj h
  exact ⟨congrArg quote hs, hrest⟩

theorem told_null_quoted : Told jsonNull (quotationMark :: cs) := by
  intro rest rest' _ _ h
  exact absurd (List.cons.inj h).1 (by decide)

theorem Told.symm (h : Told v v') : Told v' v := by
  intro rest rest' hrest hrest' heq
  obtain ⟨hv, hrests⟩ := h rest' rest hrest' hrest heq.symm
  exact ⟨hv.symm, hrests.symm⟩

theorem forall_jsonNull : ∀ c ∈ jsonNull, c ≠ ',' ∧ c ≠ '}' := by simp [jsonNull]

theorem forall_jsonNumber (n : Int) : ∀ c ∈ jsonNumber n, c ≠ ',' ∧ c ≠ '}' := by
  have hdigit : ∀ {k : Nat}, ∀ c ∈ k.repr.toList, c ≠ ',' ∧ c ≠ '}' := by
    intro k c hc
    constructor
    all_goals
      rintro rfl
      exact absurd (isDigit_of_mem_repr hc) (by decide)
  cases n with
  | ofNat k => exact hdigit
  | negSucc k =>
    intro c hc
    rcases List.mem_cons.mp hc with rfl | hc
    · decide
    · exact hdigit c hc

theorem told_jsonOf_text (s s' : Option String) : Told (jsonOf jsonText s) (jsonOf jsonText s') := by
  cases s with
  | none =>
    cases s' with
    | none => exact told_of_forall forall_jsonNull forall_jsonNull
    | some s' => exact told_null_quoted
  | some s =>
    cases s' with
    | none => exact told_null_quoted.symm
    | some s' => exact told_jsonText s s'

theorem told_jsonOf_number (n n' : Option Int) : Told (jsonOf jsonNumber n) (jsonOf jsonNumber n') := by
  have hplain : ∀ n : Option Int, ∀ c ∈ jsonOf jsonNumber n, c ≠ ',' ∧ c ≠ '}' := by
    intro n
    cases n with
    | none => exact forall_jsonNull
    | some n => exact forall_jsonNumber n
  exact told_of_forall (hplain n) (hplain n')

theorem jsonMembers_inj {members members' : List (String × List Char)}
    (hsame : List.Forall₂ (fun a b => a.1 = b.1 ∧ Told a.2 b.2) members members')
    (h : jsonMembers members = jsonMembers members') : members = members' := by
  induction hsame with
  | nil => rfl
  | @cons a b members members' hab _ ih =>
    obtain ⟨name, value⟩ := a
    obtain ⟨name', value'⟩ := b
    obtain ⟨rfl, htold⟩ := hab
    unfold jsonMembers at h
    rw [List.append_assoc, List.append_assoc, List.append_cancel_left_eq, List.cons_append, List.cons_append,
      List.cons.injEq] at h
    obtain ⟨rfl, hrest⟩ := htold _ _ (ends_jsonMembers members) (ends_jsonMembers members') h.2
    rw [ih hrest]

theorem jsonObject_inj {name : String} {members members' : List (String × List Char)}
    (h : jsonObject name v members = jsonObject name v' members') (hvalue : Told v v')
    (hsame : List.Forall₂ (fun a b => a.1 = b.1 ∧ Told a.2 b.2) members members') : v = v' ∧ members = members' := by
  have hmembers : jsonMembers ((name, v) :: members) = jsonMembers ((name, v') :: members') := by
    unfold jsonObject at h
    unfold jsonMembers
    simp only [List.cons_append, List.cons.injEq, true_and] at h ⊢
    exact h
  have hall : List.Forall₂ (fun a b => a.1 = b.1 ∧ Told a.2 b.2) ((name, v) :: members) ((name, v') :: members') :=
    .cons ⟨rfl, hvalue⟩ hsame
  have heq := jsonMembers_inj hall hmembers
  exact ⟨congrArg Prod.snd (List.cons.inj heq).1, (List.cons.inj heq).2⟩

theorem jsonText_injective : Function.Injective jsonText := by
  intro s s' h
  have hquoted : quote s.toList ++ [] = quote s'.toList ++ [] := congrArg (· ++ []) h
  exact String.toList_inj.mp (quote_append_inj hquoted).1

theorem jsonOf_text_injective : Function.Injective (jsonOf jsonText) := by
  intro s s' h
  cases s with
  | none =>
    cases s' with
    | none => rfl
    | some s' => exact absurd (List.cons.inj h).1 (by decide)
  | some s =>
    cases s' with
    | none => exact absurd (List.cons.inj h).1 (by decide)
    | some s' => rw [jsonText_injective h]

theorem jsonNumber_injective : Function.Injective jsonNumber := by
  have hread : ∀ n, readInt (jsonNumber n) = some n := by
    intro n
    cases n with
    | ofNat k => exact readInt_repr k
    | negSucc k =>
      change (readNat (k + 1).repr.toList).map (fun n => -(n : Int)) = some (-((k + 1 : Nat) : Int))
      rw [readNat_of_digits repr_ne_nil fun c hc => isDigit_of_mem_repr hc, Nat.toList_repr,
        Nat.ofDigitChars_ten_toDigits]
      rfl
  intro n n' h
  have hsome := hread n
  rw [h, hread n'] at hsome
  exact (Option.some.inj hsome).symm

theorem jsonOf_number_injective : Function.Injective (jsonOf jsonNumber) := by
  have hne : ∀ n, jsonNull ≠ jsonNumber n := by
    intro n
    cases n with
    | ofNat k =>
      intro h
      have hmem : 'n' ∈ k.repr.toList := by
        change 'n' ∈ jsonNumber (.ofNat k)
        rw [← h]
        exact List.mem_cons_self
      exact absurd (isDigit_of_mem_repr hmem) (by decide)
    | negSucc k => exact fun h => absurd (List.cons.inj h).1 (by decide)
  intro n n' h
  cases n with
  | none =>
    cases n' with
    | none => rfl
    | some n' => exact absurd h (hne n')
  | some n =>
    cases n' with
    | none => exact absurd h.symm (hne n)
    | some n' => rw [jsonNumber_injective h]

end

/-! ### What a hash is of -/

section
variable {ρ ρ' : Type} {json : ρ → List Char} {json' : ρ' → List Char} {f : AuditFields ρ} {f' : AuditFields ρ'}
  {row row' : AuditFields String} {prevHash prevHash' : String}

theorem auditJson_inj (hparams : Told (jsonOf json f.params) (jsonOf json' f'.params))
    (h : auditJson json f prevHash = auditJson json' f' prevHash') :
    f.timestamp = f'.timestamp ∧ f.action = f'.action ∧ f.endpoint = f'.endpoint ∧ f.authTokenId = f'.authTokenId ∧
      f.ipHash = f'.ipHash ∧ f.requestId = f'.requestId ∧ jsonOf json f.params = jsonOf json' f'.params ∧
      f.statusCode = f'.statusCode ∧ prevHash = prevHash' := by
  obtain ⟨htimestamp, hmembers⟩ := jsonObject_inj h (told_jsonText _ _)
    (.cons ⟨rfl, told_jsonText _ _⟩ (.cons ⟨rfl, told_jsonText _ _⟩ (.cons ⟨rfl, told_jsonOf_text _ _⟩
      (.cons ⟨rfl, told_jsonOf_text _ _⟩ (.cons ⟨rfl, told_jsonOf_text _ _⟩ (.cons ⟨rfl, hparams⟩
        (.cons ⟨rfl, told_jsonOf_number _ _⟩ (.cons ⟨rfl, told_jsonText _ _⟩ .nil))))))))
  simp only [List.cons.injEq, Prod.mk.injEq, true_and, and_true] at hmembers
  obtain ⟨haction, hendpoint, htoken, hip, hrequest, hparams, hstatus, hprev⟩ := hmembers
  exact ⟨jsonText_injective htimestamp, jsonText_injective haction, jsonText_injective hendpoint,
    jsonOf_text_injective htoken, jsonOf_text_injective hip, jsonOf_text_injective hrequest, hparams,
    jsonOf_number_injective hstatus, jsonText_injective hprev⟩

theorem rowJson_inj (h : auditJson jsonText row prevHash = auditJson jsonText row' prevHash') :
    row = row' ∧ prevHash = prevHash' := by
  obtain ⟨htimestamp, haction, hendpoint, htoken, hip, hrequest, hparams, hstatus, hprev⟩ :=
    auditJson_inj (told_jsonOf_text _ _) h
  have hparams := jsonOf_text_injective hparams
  refine ⟨?_, hprev⟩
  cases row
  cases row'
  simp_all only

/-- Half a pair is escaped by its number, which no whole character of its kind is. -/
theorem cut_ne {cs cs' rest rest' : List Char} (i : Fin 0x400) :
    cs.flatMap escape ++ (halfEscape (some i) ++ rest) ≠ cs'.flatMap escape ++ quotationMark :: rest' := by
  have hfirst : ∃ tail, halfEscape (some i) = backslash :: 'u' :: 'd' :: tail := by
    have hdigit : (0xD800 + i.val) / 16 ^ 3 % 16 = 13 := by
      have hlt := i.isLt
      omega
    refine ⟨hexDigits 3 (0xD800 + i.val), ?_⟩
    change backslash :: 'u' :: hexDigits (3 + 1) (0xD800 + i.val) = _
    rw [hexDigits_succ, hdigit]
    rfl
  obtain ⟨tail, htail⟩ := hfirst
  rw [htail]
  induction cs generalizing cs' with
  | nil =>
    intro h
    cases cs' with
    | nil => exact absurd (List.cons.inj h).1 (by decide)
    | cons c' cs' =>
      rw [List.flatMap_cons, List.append_assoc] at h
      generalize List.flatMap escape cs' ++ quotationMark :: rest' = behind at h
      have hescape := escape_escapes c'
      generalize escape c' = written at h hescape
      cases hescape with
      | letter hd =>
        have hletter := (List.cons.inj (List.cons.inj h).2).1
        exact (short_eq_some hd).2 hletter.symm
      | number => exact absurd (List.cons.inj (List.cons.inj (List.cons.inj h).2).2).1 (by decide)
      | itself _ hbackslash => exact hbackslash (List.cons.inj h).1.symm
  | cons c cs ih =>
    intro h
    rw [List.flatMap_cons, List.append_assoc] at h
    cases cs' with
    | nil => exact (escape_escapes c).head _ _ h
    | cons c' cs' =>
      rw [List.flatMap_cons, List.append_assoc] at h
      obtain ⟨rfl, hrest⟩ := (escape_escapes c).inj (escape_escapes c') h
      exact ih hrest

theorem slice_json_ne {s : Slice} {i : Fin 0x400} (hhalf : s.half = some i) (text : String) (rest rest' : List Char) :
    s.json ++ rest ≠ jsonText text ++ rest' := by
  intro h
  unfold Slice.json jsonText quote at h
  rw [hhalf] at h
  simp only [List.cons_append, List.append_assoc, List.cons.injEq, true_and] at h
  exact cut_ne i h

theorem slice_json_eq {s : Slice} (hhalf : s.half = none) : s.json = jsonText (String.ofList s.chars) := by
  unfold Slice.json jsonText quote
  rw [hhalf, String.toList_ofList]
  exact congrArg (· ++ [quotationMark]) (List.append_nil _)

end

end ZkVote.Audit

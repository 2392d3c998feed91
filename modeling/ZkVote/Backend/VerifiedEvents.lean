import Mathlib.Data.List.Pairwise
import ZkVote.Backend.EventPages
import ZkVote.Backend.IndexerRuns

/-!
# Verified events

The writers of the event tables besides the poller: what the frontend notifies of, what is added by hand, and the
verification of pending events. In any order of theirs, a row that is verified is one of the chain's.
-/

open Lib

namespace ZkVote.Indexer

variable {ScVal : Type} (sdk : Sdk ScVal)

/-! ## Rows of any origin -/

/-- The data as its JSON text, or as what `JSON.stringify` throws. -/
structure EventInput where
  daoId : Option ℚ
  type : String
  data : Except String String
  ledger : Option Nat
  txHash : Option String
  timestamp : String
  verified : Bool

def EventInput.toRow (input : EventInput) : Except String (Nat × Values) :=
  match validateDaoId input.daoId with
  | none => .error (invalidDaoId sdk input.daoId)
  | some dao =>
    if input.type ∈ ALLOWED_EVENT_TYPES then
      match input.data with
      | .error message => .error message
      | .ok data =>
        .ok (dao,
          { type := input.type, data := data, ledger := input.ledger, tx_hash := input.txHash
            timestamp := input.timestamp, verified := input.verified })
    else .error (invalidEventType input.type)

def Db.addEvent (db : Db) (input : EventInput) (fault : Option Fault) : Db × Except Failure Bool :=
  match input.toRow sdk with
  | .error message => (db, .error (.error message))
  | .ok (dao, values) =>
    match fault with
    | some (.before message) => (db, .error (.error message))
    | some (.after message) =>
      let added := db.insert dao values
      if added.2 then (added.1, .error (.error message)) else (added.1, .ok false)
    | _ =>
      let added := db.insert dao values
      (added.1, .ok added.2)

/-- What the poller hands over. -/
def polledInput (daoId : Option ℚ) (parsed : ParsedEvent ScVal) : EventInput where
  daoId := daoId
  type := parsed.type
  data := sdk.stringify parsed.proposalId parsed.value
  ledger := some parsed.ledger
  txHash := parsed.txHash
  timestamp := parsed.timestamp
  verified := true

theorem addEvent_polled (db : Db) (daoId : Option ℚ) (parsed : ParsedEvent ScVal) (fault : Option Fault) :
    addEvent sdk db daoId parsed fault = db.addEvent sdk (polledInput sdk daoId parsed) fault := rfl

def pendingInput (daoId : Option ℚ) (type : String) (data : Except String String) (txHash now : String) :
    EventInput where
  daoId := daoId
  type := type
  data := data
  ledger := none
  txHash := some txHash
  timestamp := now
  verified := false

def Db.addPendingEvent (db : Db) (daoId : Option ℚ) (type : String) (data : Except String String)
    (txHash now : String) (fault : Option Fault) : Db × Except Failure Bool :=
  db.addEvent sdk (pendingInput daoId type data txHash now) fault

/-- Whether the row is new is not passed on. -/
def notifyEvent (db : Db) (daoId : Option ℚ) (type : String) (data : Except String String) (txHash now : String)
    (fault : Option Fault) : Db × Except Failure Unit :=
  let added := db.addPendingEvent sdk daoId type data txHash now fault
  (added.1, added.2.map fun _ => ())

/-! ## By hand -/

def manualInput (daoId : Option ℚ) (type : String) (data : Except String String) (ledger millis : Nat)
    (now : String) : EventInput where
  daoId := daoId
  type := type
  data := data
  ledger := some ledger
  txHash := some s!"manual-{millis}"
  timestamp := now
  verified := true

def addManualEvent (db : Db) (daoId : Option ℚ) (type : String) (data : Except String String) (ledger millis : Nat)
    (now : String) (fault : Option Fault) : Db × Except Failure Unit :=
  let added := db.addEvent sdk (manualInput daoId type data ledger millis now) fault
  (added.1, added.2.map fun _ => ())

def syntheticInput (daoId : Option ℚ) (data : Except String String) : EventInput where
  daoId := daoId
  type := "dao_create"
  data := data
  ledger := some 0
  txHash := some ("synthetic-dao-create-" ++ sdk.text daoId)
  timestamp := "1970-01-01T00:00:00.000Z"
  verified := true

/-- The second of the types that are looked for is not one of those allowed. -/
def ensureDaoCreateEvent (db : Db) (daoId : Option ℚ) (data : Except String String) (fault : Option Fault) :
    Db × Except Failure Bool :=
  match validateDaoId daoId with
  | none => (db, .error (.error (invalidDaoId sdk daoId)))
  | some dao =>
    match Events.validateEventTypes ["dao_create", "dao_create_event"] with
    | .error message => (db, .error (.error message))
    | .ok types =>
      if ∃ row ∈ (db.partitions dao).rows, row.type ∈ types then (db, .ok false)
      else db.addEvent sdk (syntheticInput sdk daoId data) fault

/-! ## Verification -/

inductive TxStatus where
  | SUCCESS (ledger : Nat)
  | FAILED
  | NOT_FOUND
  deriving DecidableEq, Repr

/-- `/^[A-Za-z0-9_-]+$/`, and not above 128 characters. -/
def ValidTxHash (txHash : String) : Prop :=
  txHash ≠ "" ∧ txHash.length ≤ 128 ∧ ∀ c ∈ txHash.toList, c.isAlphanum ∨ c = '_' ∨ c = '-'

instance (txHash : String) : Decidable (ValidTxHash txHash) :=
  @instDecidableAnd _ _ inferInstance (@instDecidableAnd _ _ inferInstance (List.decidableBAll _ txHash.toList))

def Row.Pending (row : Row) (txHash : String) : Prop := row.tx_hash = some txHash ∧ row.verified = false

instance (row : Row) (txHash : String) : Decidable (row.Pending txHash) := by
  unfold Row.Pending
  infer_instance

def Row.verify (txHash : String) (ledger : Nat) (row : Row) : Row :=
  if row.Pending txHash then { row with ledger := some ledger, verified := true } else row

theorem Row.verify_id (txHash : String) (ledger : Nat) (row : Row) : (row.verify txHash ledger).id = row.id := by
  unfold Row.verify
  split
  · rfl
  · rfl

/-- Nothing where the rows would then break the constraint. -/
def Partition.verify (p : Partition) (txHash : String) (ledger : Nat) : Option Partition :=
  let rows := p.rows.map (Row.verify txHash ledger)
  if h : rows.Pairwise fun a b => ¬ Clash a.toValues b.toValues then
    some
      { rows := rows
        sequence := p.sequence
        increasing := by
          rw [List.pairwise_map]
          exact p.increasing.imp fun h => by rwa [Row.verify_id, Row.verify_id]
        numbered := by
          rw [List.forall_mem_map]
          intro row hrow
          rw [Row.verify_id]
          exact p.numbered row hrow
        unique := h }
  else none

/-- The tables are gone through up to the first with a pending row of the transaction. -/
def Db.verifyPartitions (db : Db) (txHash : String) (ledger : Nat) : List Nat → Option Db
  | [] => some db
  | dao :: daoIds =>
    if ∃ row ∈ (db.partitions dao).rows, row.Pending txHash then
      ((db.partitions dao).verify txHash ledger).map fun p =>
        { db with partitions := Function.update db.partitions dao p }
    else db.verifyPartitions txHash ledger daoIds

/-- `none` where it throws. -/
def Db.verifyEvent (db : Db) (daoIds : List Nat) (txHash : String) (ledger : Nat) : Option Db :=
  if ValidTxHash txHash then db.verifyPartitions txHash ledger daoIds else none

def Db.deleteUnverifiedEvent (db : Db) (daoIds : List Nat) (txHash : String) : Db :=
  match daoIds.find? fun dao => (db.partitions dao).rows.any fun row => row.Pending txHash with
  | none => db
  | some dao =>
    { db with
      partitions := Function.update db.partitions dao
        ((db.partitions dao).filter fun row => !decide (row.Pending txHash)) }

/-- What `getTransaction` has for a hash, `aborted` where the signal is; and the tables there are. -/
structure Verifier where
  getTransaction : Option (String → Except Failure TxStatus)
  daoIds : List Nat

/-- The transaction is asked for its status and its ledger, and for nothing of its events. -/
def verifyEventOnChain (verifier : Verifier) (db : Db) (event : Row) : Db × Except Failure Bool :=
  match verifier.getTransaction, event.tx_hash with
  | some getTransaction, some txHash =>
    if txHash = "" then (db, .ok false)
    else
      match getTransaction txHash with
      | .error .aborted => (db, .error .aborted)
      | .error (.error _) => (db, .ok false)
      | .ok (.SUCCESS ledger) =>
        match db.verifyEvent verifier.daoIds txHash ledger with
        | none => (db, .ok false)
        | some verified => (verified, .ok true)
      | .ok .FAILED => (db.deleteUnverifiedEvent verifier.daoIds txHash, .ok false)
      | .ok .NOT_FOUND => (db, .ok false)
  | _, _ => (db, .ok false)

def verifyEvents (verifier : Verifier) (db : Db) : List Row → Db × Except Failure Unit
  | [] => (db, .ok ())
  | event :: events =>
    match verifyEventOnChain verifier db event with
    | (next, .error failure) => (next, .error failure)
    | (next, .ok _) => verifyEvents verifier next events

/-- `verificationBacklog = backlog`: no scope declares the name, and the code of a module is strict. -/
def assignVerificationBacklog (_backlog : Nat) : Except Failure Unit :=
  .error (.error "verificationBacklog is not defined")

/-- The whole of `verifyPendingEvents`, over the events that `getUnverifiedEvents(10)` has loaded. -/
def verifyLoadedEvents (verifier : Verifier) (unverified : List Row) (cutoff : String) (db : Db) :
    Db × Except Failure Unit :=
  let cleaned := db.cleanupExpiredPendingEvents cutoff
  match assignVerificationBacklog unverified.length with
  | .error failure => (cleaned, .error failure)
  | .ok () => verifyEvents verifier cleaned unverified

/-- The loop over the events is not reached. -/
theorem verifyLoadedEvents_eq (verifier : Verifier) (unverified : List Row) (cutoff : String) (db : Db) :
    verifyLoadedEvents verifier unverified cutoff db = verifyPendingEvents cutoff db := rfl

/-! ## Writings -/

/-- What is done to the tables between two turns of the event loop. -/
inductive Writing (ScVal : Type) where
  /-- The fetch and the loop over what it brings, for one contract of a cycle. -/
  | pollContract (env : Env ScVal) (endLedger : Nat) (contractId : String)
  | setLastLedger (ledger : Nat)
  | verifyPendingEvents (verifier : Verifier) (unverified : List Row) (cutoff : String)
  | notifyEvent (daoId : Option ℚ) (type : String) (data : Except String String) (txHash now : String)
      (fault : Option Fault)
  | addManualEvent (daoId : Option ℚ) (type : String) (data : Except String String) (ledger millis : Nat)
      (now : String) (fault : Option Fault)
  | ensureDaoCreateEvent (daoId : Option ℚ) (data : Except String String) (fault : Option Fault)

def write (db : Db) : Writing ScVal → Db
  | .pollContract env endLedger contractId => (pollContract sdk env endLedger db contractId).1
  | .setLastLedger ledger => { db with lastLedger := some ledger }
  | .verifyPendingEvents verifier unverified cutoff => (verifyLoadedEvents verifier unverified cutoff db).1
  | .notifyEvent daoId type data txHash now fault => (notifyEvent sdk db daoId type data txHash now fault).1
  | .addManualEvent daoId type data ledger millis now fault =>
    (addManualEvent sdk db daoId type data ledger millis now fault).1
  | .ensureDaoCreateEvent daoId data fault => (ensureDaoCreateEvent sdk db daoId data fault).1

/-- The event that is handed over by hand. -/
def Writing.byHand : Writing ScVal → Option EventInput
  | .addManualEvent daoId type data ledger millis now _ => some (manualInput daoId type data ledger millis now)
  | .ensureDaoCreateEvent daoId data _ => some (syntheticInput sdk daoId data)
  | _ => none

abbrev Writings (init : Db) : List (Db × Writing ScVal) → Db → Prop :=
  Lib.Run (fun db writing next => write sdk db writing = next) init

variable (emitted : String → ChainEvent ScVal → Prop) (contracts : List String)

/-- `getEvents` has for a contract that is configured only what the contract emitted. -/
def Genuine : Writing ScVal → Prop
  | .pollContract env _ contractId =>
    contractId ∈ contracts ∧
      ∀ page ∈ (env.answers contractId).pages, ∀ event ∈ page.events, emitted contractId event
  | _ => True

/-- The row names the event: it has its transaction and its ledger, in the table of its DAO and with its type. -/
def Names (event : ChainEvent ScVal) (dao : Nat) (values : Values) : Prop :=
  Indexed sdk event dao values.type ∧ values.ledger = some event.ledger ∧ values.tx_hash = some event.txHash

def NamesEmitted (dao : Nat) (values : Values) : Prop :=
  ∃ event, Emitted emitted contracts event ∧ Names sdk event dao values

def AddedByHand (log : List (Db × Writing ScVal)) (dao : Nat) (values : Values) : Prop :=
  ∃ e ∈ log, ∃ input, e.2.byHand sdk = some input ∧ input.toRow sdk = .ok (dao, values)

/-- Every verified row is one of the chain's, or was added by hand. -/
def OnlyReal (log : List (Db × Writing ScVal)) (db : Db) : Prop :=
  ∀ dao, ∀ row ∈ (db.partitions dao).rows, row.verified = true →
    AddedByHand sdk log dao row.toValues ∨ NamesEmitted sdk emitted contracts dao row.toValues

/-- No two rows name one event. -/
def AtMostOnce (db : Db) : Prop :=
  ∀ event dao dao', ∀ row ∈ (db.partitions dao).rows, ∀ row' ∈ (db.partitions dao').rows,
    Names sdk event dao row.toValues → Names sdk event dao' row'.toValues → dao' = dao ∧ row' = row

/-! ## What each writing adds -/

variable {sdk emitted contracts} {db next init : Db} {log : List (Db × Writing ScVal)} {writing : Writing ScVal}
  {P : Nat → Values → Prop}

theorem RowOf.names {event : ChainEvent ScVal} {dao : Nat} {values : Values} (h : RowOf sdk event dao values) :
    Names sdk event dao values := by
  obtain ⟨hindexed, hledger, htx, -⟩ := h.spec
  exact ⟨hindexed, hledger, htx⟩

theorem addEvent_grows (sdk : Sdk ScVal) (db : Db) (input : EventInput) (fault : Option Fault) :
    Grows (fun dao values => input.toRow sdk = .ok (dao, values)) db (db.addEvent sdk input fault).1 := by
  unfold Db.addEvent
  split
  · exact .refl db
  next dao values hrow =>
  split
  · exact .refl db
  · simp only
    split
    · exact insert_grows hrow
    · exact insert_grows hrow
  · exact insert_grows hrow

theorem toRow_verified {input : EventInput} {dao : Nat} {values : Values}
    (h : input.toRow sdk = .ok (dao, values)) : values.verified = input.verified := by
  unfold EventInput.toRow at h
  split at h
  · cases h
  split at h
  · split at h
    · cases h
    · cases h
      rfl
  · cases h

theorem persist_grows {now : String} {faults : ChainEvent ScVal → Option Fault} {events : List (ChainEvent ScVal)}
    (hevents : ∀ event ∈ events, Emitted emitted contracts event) (db : Db) :
    Grows (NamesEmitted sdk emitted contracts) db (persistEvents sdk now faults db events).1 := by
  induction events generalizing db with
  | nil => exact .refl db
  | cons event events ih =>
    rw [List.forall_mem_cons] at hevents
    have hmono : ∀ dao values, RowOf sdk event dao values → NamesEmitted sdk emitted contracts dao values :=
      fun dao values hrow => ⟨event, hevents.1, hrow.names⟩
    obtain ⟨-, heq⟩ | ⟨dao, values, hrow, heq⟩ | ⟨last, failure, heq, hgrows, -⟩ :=
      persist_cons sdk now faults db event events
    · rw [heq]
      exact ih hevents.2 db
    · rw [heq]
      exact (insert_grows (hmono dao values hrow)).trans (ih hevents.2 _)
    · rw [heq]
      exact hgrows.mono hmono

theorem pollContract_grows {env : Env ScVal} {endLedger : Nat} {contractId : String}
    (h : Genuine emitted contracts (.pollContract env endLedger contractId)) (db : Db) :
    Grows (NamesEmitted sdk emitted contracts) db (pollContract sdk env endLedger db contractId).1 := by
  obtain ⟨hcontract, hpages⟩ := h
  unfold pollContract fetchContractEvents
  split
  · exact .refl db
  · next events hfetch =>
    apply persist_grows
    intro event hevent
    obtain ⟨page, hpage, hmem⟩ := (fetchPages_spec hfetch).1 event hevent
    exact ⟨contractId, hcontract, hpages page hpage event hmem⟩

/-- A verified row that is new is one of the chain's, or the one that the writing adds by hand. -/
theorem write_adds (hgenuine : Genuine emitted contracts writing) {dao : Nat} {row : Row}
    (hrow : row ∈ ((write sdk db writing).partitions dao).rows) (hverified : row.verified = true) :
    row ∈ (db.partitions dao).rows ∨
      (∃ input, writing.byHand sdk = some input ∧ input.toRow sdk = .ok (dao, row.toValues)) ∨
      NamesEmitted sdk emitted contracts dao row.toValues := by
  cases writing with
  | pollContract env endLedger contractId =>
    exact ((pollContract_grows hgenuine db).added dao row hrow).imp_right .inr
  | setLastLedger ledger => exact .inl hrow
  | verifyPendingEvents verifier unverified cutoff => exact .inl (List.mem_filter.mp hrow).1
  | notifyEvent daoId type data txHash now fault =>
    obtain hold | hnew := (addEvent_grows sdk db (pendingInput daoId type data txHash now) fault).added dao row hrow
    · exact .inl hold
    · -- A row of a notification is pending.
      have hpending : row.verified = false := toRow_verified hnew
      rw [hpending] at hverified
      cases hverified
  | addManualEvent daoId type data ledger millis now fault =>
    have hgrows := addEvent_grows sdk db (manualInput daoId type data ledger millis now) fault
    exact (hgrows.added dao row hrow).imp_right fun hnew => .inl ⟨_, rfl, hnew⟩
  | ensureDaoCreateEvent daoId data fault =>
    simp only [write] at hrow
    unfold ensureDaoCreateEvent at hrow
    split at hrow
    · exact .inl hrow
    split at hrow
    · exact .inl hrow
    split at hrow
    · exact .inl hrow
    · have hgrows := addEvent_grows sdk db (syntheticInput sdk daoId data) fault
      exact (hgrows.added dao row hrow).imp_right fun hnew => .inl ⟨_, rfl, hnew⟩

theorem onlyReal_write (hreal : OnlyReal sdk emitted contracts log db) (hgenuine : Genuine emitted contracts writing) :
    OnlyReal sdk emitted contracts ((db, writing) :: log) (write sdk db writing) := by
  intro dao row hrow hverified
  obtain hold | ⟨input, hinput, hvalues⟩ | hnames := write_adds hgenuine hrow hverified
  · obtain ⟨e, he, hbyHand⟩ | hnames := hreal dao row hold hverified
    · exact .inl ⟨e, List.mem_cons_of_mem _ he, hbyHand⟩
    · exact .inr hnames
  · exact .inl ⟨(db, writing), List.mem_cons_self, input, hinput, hvalues⟩
  · exact .inr hnames

theorem onlyReal_run (hinit : OnlyReal sdk emitted contracts [] init) (hrun : Writings sdk init log next)
    (hgenuine : ∀ e ∈ log, Genuine emitted contracts e.2) : OnlyReal sdk emitted contracts log next := by
  induction hrun with
  | start => exact hinit
  | call _ hs ih =>
    rw [List.forall_mem_cons] at hgenuine
    rw [← hs]
    exact onlyReal_write (ih hgenuine.2) hgenuine.1

theorem Clash.symm {a b : Values} (h : Clash a b) : Clash b a := by
  obtain ⟨hledger, htx, hledgers, htxs, htype⟩ := h
  exact ⟨hledgers ▸ hledger, htxs ▸ htx, hledgers.symm, htxs.symm, htype.symm⟩

theorem Partition.eq_of_clash {p : Partition} {a b : Row} (ha : a ∈ p.rows) (hb : b ∈ p.rows)
    (h : Clash a.toValues b.toValues) : a = b := by
  by_contra hne
  have hsymm : Std.Symm fun a b : Row => ¬ Clash a.toValues b.toValues :=
    ⟨fun _ _ hfree hclash => hfree hclash.symm⟩
  exact p.unique.forall ha hb hne h

/-- The constraint of the tables leaves an event one row, whoever writes it. -/
theorem atMostOnce (sdk : Sdk ScVal) (db : Db) : AtMostOnce sdk db := by
  intro event dao dao' row hrow row' hrow' ⟨hindexed, hledger, htx⟩ ⟨hindexed', hledger', htx'⟩
  obtain ⟨rfl, htype⟩ := hindexed.unique hindexed'
  refine ⟨rfl, Partition.eq_of_clash hrow' hrow ⟨?_, ?_, ?_, ?_, htype⟩⟩
  · rw [hledger']
    rfl
  · rw [htx']
    rfl
  · rw [hledger, hledger']
  · rw [htx, htx']

/-! ## Cycles -/

/-- Some writings lead from one to the other. -/
def Reaches (sdk : Sdk ScVal) (emitted : String → ChainEvent ScVal → Prop) (contracts : List String)
    (db next : Db) : Prop :=
  ∃ log, (∀ e ∈ log, Genuine emitted contracts e.2) ∧ Writings sdk db log next

theorem Reaches.refl (db : Db) : Reaches sdk emitted contracts db db := ⟨[], by simp, .start⟩

theorem Reaches.trans {third : Db} (h : Reaches sdk emitted contracts db next)
    (h' : Reaches sdk emitted contracts next third) : Reaches sdk emitted contracts db third := by
  obtain ⟨log, hgenuine, hrun⟩ := h
  obtain ⟨log', hgenuine', hrun'⟩ := h'
  refine ⟨log' ++ log, ?_, hrun.append hrun'⟩
  rw [List.forall_mem_append]
  exact ⟨hgenuine', hgenuine⟩

theorem reaches_write (sdk : Sdk ScVal) (writing : Writing ScVal) (hgenuine : Genuine emitted contracts writing)
    (db : Db) : Reaches sdk emitted contracts db (write sdk db writing) :=
  ⟨[(db, writing)], by simpa using hgenuine, .call .start rfl⟩

/-- What is assumed of the answers of a cycle. -/
def GenuineCycle (emitted : String → ChainEvent ScVal → Prop) (contracts : List String) : Act ScVal → Prop
  | .start => True
  | .cycle env =>
    ∀ contractId ∈ contracts, ∀ page ∈ (env.answers contractId).pages, ∀ event ∈ page.events,
      emitted contractId event

variable {env : Env ScVal} {polled : List String}

theorem pollContracts_reaches (sdk : Sdk ScVal) (endLedger : Nat)
    (hgenuine : GenuineCycle emitted contracts (.cycle env))
    (hpolled : ∀ contractId ∈ polled, contractId ∈ contracts) (db : Db) (failed : Nat) :
    Reaches sdk emitted contracts db (pollContracts sdk env endLedger db failed polled).1 := by
  induction polled generalizing db failed with
  | nil => exact .refl db
  | cons contractId polled ih =>
    rw [List.forall_mem_cons] at hpolled
    have hone : Reaches sdk emitted contracts db (pollContract sdk env endLedger db contractId).1 :=
      reaches_write sdk (.pollContract env endLedger contractId) ⟨hpolled.1, hgenuine _ hpolled.1⟩ db
    unfold pollContracts
    split
    · next middle heq =>
      rw [heq] at hone
      exact hone.trans (ih hpolled.2 middle failed)
    · next middle heq =>
      rw [heq] at hone
      exact hone
    · next middle message heq =>
      rw [heq] at hone
      split
      · exact hone.trans (ih hpolled.2 middle failed)
      · exact hone.trans (ih hpolled.2 middle (failed + 1))

theorem pollEvents_reaches (sdk : Sdk ScVal) (hgenuine : GenuineCycle emitted contracts (.cycle env))
    (startLedger : Nat) (db : Db) :
    Reaches sdk emitted contracts db (pollEvents sdk env contracts startLedger db).1 := by
  unfold pollEvents
  split
  · exact .refl db
  next currentLedger hlatest =>
  split
  · exact .refl db
  have hpoll := pollContracts_reaches sdk (targetEndLedger startLedger currentLedger) hgenuine (fun _ h => h) db 0
  split
  · next next failure heq =>
    rw [heq] at hpoll
    exact hpoll
  next next failed heq =>
  rw [heq] at hpoll
  split
  · exact hpoll
  split
  · exact hpoll
  · exact hpoll

/-- A cycle is made of writings, and so it is whatever else is written between them. -/
theorem runPollingCycle_reaches (sdk : Sdk ScVal) (hgenuine : GenuineCycle emitted contracts (.cycle env))
    (lastLedger : Nat) (db : Db) :
    Reaches sdk emitted contracts db (runPollingCycle sdk env contracts lastLedger db).1 := by
  have hpoll := pollEvents_reaches sdk hgenuine lastLedger db
  have hverify : ∀ marked : Db,
      Reaches sdk emitted contracts marked (marked.cleanupExpiredPendingEvents env.cutoff) :=
    fun marked =>
      reaches_write sdk (.verifyPendingEvents { getTransaction := none, daoIds := [] } [] env.cutoff) trivial marked
  unfold runPollingCycle
  split
  · next polled failure heq =>
    rw [heq] at hpoll
    exact hpoll
  next polled newLedger heq =>
  rw [heq] at hpoll
  split
  · exact hpoll
  simp only [verifyPendingEvents]
  split
  · exact (hpoll.trans (reaches_write sdk (.setLastLedger newLedger) trivial polled)).trans (hverify _)
  · exact hpoll.trans (hverify polled)

/-- The runs of the indexer alone are writings too. -/
theorem run_reaches {start s : State} {acts : List (State × Act ScVal)} (hrun : Run sdk contracts start acts s)
    (hgenuine : ∀ e ∈ acts, GenuineCycle emitted contracts e.2) : Reaches sdk emitted contracts start.db s.db := by
  induction hrun with
  | start => exact .refl start.db
  | @call acts s s' act _ hs ih =>
    rw [List.forall_mem_cons] at hgenuine
    rw [← hs]
    refine (ih hgenuine.2).trans ?_
    cases act with
    | start => exact .refl s.db
    | cycle env =>
      have hcycle := runPollingCycle_reaches sdk hgenuine.1 s.lastLedger s.db
      unfold step
      simp only
      split
      · next db newLedger heq =>
        rw [heq] at hcycle
        exact hcycle
      · next db failure heq =>
        rw [heq] at hcycle
        exact hcycle

/-! ## Runs -/

/-- However notifications, polls and verification come to be interleaved, from tables whose verified rows are the
chain's: each verified row that is not added by hand names an event of a configured contract, and no other row
names that event. -/
theorem verified_events_real (hinit : OnlyReal sdk emitted contracts [] init)
    (hgenuine : ∀ e ∈ log, Genuine emitted contracts e.2) (hrun : Writings sdk init log next) :
    OnlyReal sdk emitted contracts log next ∧ AtMostOnce sdk next :=
  ⟨onlyReal_run hinit hrun hgenuine, atMostOnce sdk next⟩

/-- The notification of a vote before it is polled. -/
def voteNotified : Writing (String ⊕ Nat) :=
  .notifyEvent (some 1) "vote_cast" (.ok "\x7b\x7d") "aa" "2026-01-01T00:00:00.000Z" none

def votePolled : Writing (String ⊕ Nat) := .pollContract (sampleCycle oneVote oneVote_length) 7 "CVOTE"

def voteVerified : Writing (String ⊕ Nat) :=
  .verifyPendingEvents { getTransaction := some fun _ => .ok (.SUCCESS 5), daoIds := [1] } []
    "2025-12-31T23:45:00.000Z"

def afterNotified : Db := write sampleSdk sampleState.db voteNotified

def afterPolled : Db := write sampleSdk afterNotified votePolled

def afterVerified : Db := write sampleSdk afterPolled voteVerified

theorem verified_events_real_of_one_vote :
    (afterVerified.partitions 1).rows.map (fun row => (row.ledger, row.tx_hash, row.verified)) =
        [(none, some "aa", false), (some 5, some "aa", true)] ∧
      ∃ log, OnlyReal sampleSdk (fun _ event => event ∈ oneVote) ["CVOTE"] log afterVerified ∧
        AtMostOnce sampleSdk afterVerified := by
  have hrun : Writings sampleSdk sampleState.db
      [(afterPolled, voteVerified), (afterNotified, votePolled), (sampleState.db, voteNotified)] afterVerified :=
    .call (.call (.call .start rfl) rfl) rfl
  refine ⟨by decide +kernel, _, verified_events_real ?_ ?_ hrun⟩
  · intro dao row hrow
    cases hrow
  · have hpolled : Genuine (fun _ event => event ∈ oneVote) ["CVOTE"] votePolled := by
      refine ⟨List.mem_singleton_self _, ?_⟩
      intro page hpage event hevent
      cases List.mem_singleton.mp hpage
      exact hevent
    intro e he
    simp only [List.mem_cons, List.not_mem_nil, or_false] at he
    obtain rfl | rfl | rfl := he
    · exact trivial
    · exact hpolled
    · exact trivial

end ZkVote.Indexer

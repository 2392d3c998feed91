import Mathlib.Data.List.Infix
import Mathlib.Data.Rat.Defs
import Mathlib.Algebra.Order.Field.Rat

/-!
# The event indexer

`indexer.ts`, from the pages of `getEvents` to the watermark, and the tables of `db.ts` it writes to.
-/

namespace ZkVote.Indexer

variable {ScVal : Type}

/-! ## The tables -/

structure Values where
  type : String
  data : String
  ledger : Option Nat
  tx_hash : Option String
  timestamp : String
  verified : Bool
  deriving DecidableEq, Repr

structure Row extends Values where
  id : Nat
  deriving DecidableEq, Repr

/-- `UNIQUE(ledger, tx_hash, type)`, in which no NULL equals another. -/
def Clash (a b : Values) : Prop :=
  a.ledger.isSome ∧ a.tx_hash.isSome ∧ a.ledger = b.ledger ∧ a.tx_hash = b.tx_hash ∧ a.type = b.type

instance (a b : Values) : Decidable (Clash a b) := by
  unfold Clash
  infer_instance

/-- The table of one DAO. -/
structure Partition where
  rows : List Row
  sequence : Nat
  increasing : rows.Pairwise fun a b => a.id < b.id
  numbered : ∀ row ∈ rows, row.id ≤ sequence
  unique : rows.Pairwise fun a b => ¬ Clash a.toValues b.toValues

structure Db where
  partitions : Nat → Partition
  lastLedger : Option Nat

def Partition.insert (p : Partition) (values : Values) (h : ∀ row ∈ p.rows, ¬ Clash row.toValues values) :
    Partition where
  rows := p.rows ++ [{ values with id := p.sequence + 1 }]
  sequence := p.sequence + 1
  increasing := by
    rw [List.pairwise_append]
    refine ⟨p.increasing, List.pairwise_singleton _ _, ?_⟩
    intro row hrow new hnew
    rw [List.mem_singleton.mp hnew]
    exact Nat.lt_succ_of_le (p.numbered row hrow)
  numbered := by
    intro row hrow
    rw [List.mem_append, List.mem_singleton] at hrow
    obtain hrow | rfl := hrow
    · exact (p.numbered row hrow).trans (Nat.le_succ _)
    · exact le_refl _
  unique := by
    rw [List.pairwise_append]
    refine ⟨p.unique, List.pairwise_singleton _ _, ?_⟩
    intro row hrow new hnew
    rw [List.mem_singleton.mp hnew]
    exact h row hrow

def Partition.filter (p : Partition) (keep : Row → Bool) : Partition where
  rows := p.rows.filter keep
  sequence := p.sequence
  increasing := p.increasing.sublist List.filter_sublist
  numbered := fun row hrow => p.numbered row (List.mem_filter.mp hrow).1
  unique := p.unique.sublist List.filter_sublist

/-- The insertion, and whether the row is new. -/
def Db.insert (db : Db) (daoId : Nat) (values : Values) : Db × Bool :=
  if h : ∀ row ∈ (db.partitions daoId).rows, ¬ Clash row.toValues values then
    ({ db with partitions := Function.update db.partitions daoId ((db.partitions daoId).insert values h) }, true)
  else (db, false)

/-- Pending events are removed where they are older than the cutoff. -/
def Db.cleanupExpiredPendingEvents (db : Db) (cutoff : String) : Db :=
  { db with
    partitions := fun daoId =>
      (db.partitions daoId).filter fun row => row.verified || !decide (row.timestamp < cutoff) }

/-! ## Events of the chain -/

structure ChainEvent (ScVal : Type) where
  id : String
  pagingToken : Option String
  ledger : Nat
  txHash : String
  topic : List ScVal
  value : Option ScVal
  deriving DecidableEq, Repr

/-- What the SDK and the language make of values: the text of a topic, its number (nothing where the
conversion throws, and no number where it is not finite), the text of a number, and the JSON of an
event's data, which may throw. -/
structure Sdk (ScVal : Type) where
  name : ScVal → Option String
  number : ScVal → Option (Option ℚ)
  text : Option ℚ → String
  stringify : Option ℚ → Option ScVal → Except String String

def EVENT_TYPES : List (String × String) :=
  [("DaoCreateEvent", "dao_create"), ("AdminXferEvent", "admin_transfer"), ("SbtMintEvent", "member_added"),
    ("SbtRevokeEvent", "member_revoked"), ("SbtLeaveEvent", "member_left"), ("TreeInitEvent", "tree_init"),
    ("CommitEvent", "voter_registered"), ("RemovalEvent", "voter_removed"),
    ("ReinstatementEvent", "voter_reinstated"), ("VKSetEvent", "vk_updated"),
    ("ProposalEvent", "proposal_created"), ("ProposalClosedEvent", "proposal_closed"),
    ("ProposalArchivedEvent", "proposal_archived"), ("VoteEvent", "vote_cast")]

def ALLOWED_EVENT_TYPES : List String :=
  ["dao_create", "admin_transfer", "member_added", "member_revoked", "member_left", "tree_init",
    "voter_registered", "voter_removed", "voter_reinstated", "vk_updated", "proposal_created",
    "proposal_closed", "proposal_archived", "vote_cast", "sbt_transfer_attempt"]

structure ParsedEvent (ScVal : Type) where
  type : String
  daoId : Option (Option ℚ)
  proposalId : Option ℚ
  value : Option ScVal
  ledger : Nat
  txHash : Option String
  timestamp : String

variable (sdk : Sdk ScVal)

/-- `null` where the first topic cannot be read. -/
def parseEventData (event : ChainEvent ScVal) (now : String) : Option (ParsedEvent ScVal) :=
  let parsed (type : String) (daoId : Option (Option ℚ)) (proposalId : Option ℚ) : ParsedEvent ScVal :=
    { type := type, daoId := daoId, proposalId := proposalId, value := event.value, ledger := event.ledger
      txHash := some event.txHash, timestamp := now }
  match event.topic with
  | [] => some (parsed "unknown" none none)
  | first :: rest =>
    match sdk.name first with
    | none => none
    | some eventName =>
      let eventType := (EVENT_TYPES.lookup eventName).getD eventName
      let daoId := rest[0]?.bind sdk.number
      let proposalId := (rest[1]?.bind sdk.number).join
      some (parsed eventType daoId proposalId)

/-- A whole number from 1 to 999999. -/
def validateDaoId (daoId : Option ℚ) : Option Nat :=
  match daoId with
  | none => none
  | some q => if q.den = 1 ∧ 1 ≤ q.num ∧ q.num ≤ 999999 then some q.num.toNat else none

def invalidDaoId (daoId : Option ℚ) : String :=
  s!"Invalid DAO ID: {sdk.text daoId}. Must be positive integer ≤ 999999"

def invalidEventType (type : String) : String := s!"Invalid event type: {type}"

/-- What becomes of the event at hand: the poll is aborted, or the database fails before the row is
written, or what follows the write does. -/
inductive Fault where
  | abort
  | before (message : String)
  | after (message : String)
  deriving DecidableEq, Repr

inductive Failure where
  | aborted
  | error (message : String)
  deriving DecidableEq, Repr

/-- The row that an event is to have, in the table of which DAO. -/
def toRow (daoId : Option ℚ) (parsed : ParsedEvent ScVal) : Except String (Nat × Values) :=
  match validateDaoId daoId with
  | none => .error (invalidDaoId sdk daoId)
  | some dao =>
    if parsed.type ∈ ALLOWED_EVENT_TYPES then
      match sdk.stringify parsed.proposalId parsed.value with
      | .error message => .error message
      | .ok data =>
        .ok (dao,
          { type := parsed.type, data := data, ledger := some parsed.ledger, tx_hash := parsed.txHash
            timestamp := parsed.timestamp, verified := true })
    else .error (invalidEventType parsed.type)

def addEvent (db : Db) (daoId : Option ℚ) (parsed : ParsedEvent ScVal) (fault : Option Fault) :
    Db × Except Failure Bool :=
  match toRow sdk daoId parsed with
  | .error message => (db, .error (.error message))
  | .ok (dao, values) =>
    match fault with
    | some (.before message) => (db, .error (.error message))
    | some (.after message) =>
      let added := db.insert dao values
      if added.2 then (added.1, .error (.error message)) else (added.1, .ok false)
    | _ =>
      let added := db.insert dao values
      (added.1, .ok added.2)

/-- The loop over the events of a contract. -/
def persistEvents (now : String) (faults : ChainEvent ScVal → Option Fault) (db : Db) :
    List (ChainEvent ScVal) → Db × Except Failure Unit
  | [] => (db, .ok ())
  | event :: events =>
    if faults event = some .abort then (db, .error .aborted)
    else
      match parseEventData sdk event now with
      | none => persistEvents now faults db events
      | some parsed =>
        match parsed.daoId with
        | none => persistEvents now faults db events
        | some daoId =>
          match addEvent sdk db daoId parsed (faults event) with
          | (next, .error failure) => (next, .error failure)
          | (next, .ok _) => persistEvents now faults next events

/-! ## Polling -/

def EVENTS_PAGE_LIMIT : Nat := 100

structure Page (ScVal : Type) where
  events : List (ChainEvent ScVal)
  cursor : Option String
  limit : events.length ≤ EVENTS_PAGE_LIMIT

def Page.next (page : Page ScVal) : Option String :=
  page.cursor <|> (page.events.getLast?.bind ChainEvent.pagingToken) <|> page.events.getLast?.map ChainEvent.id

/-- The events of the page that come before the first one after the range. -/
def Page.inRange (page : Page ScVal) (endLedger : Nat) : List (ChainEvent ScVal) :=
  page.events.takeWhile fun event => event.ledger ≤ endLedger

/-- No page is asked for after this one. -/
def Page.IsLast (page : Page ScVal) (endLedger : Nat) (cursor : Option String) : Prop :=
  (∃ event ∈ page.events, endLedger < event.ledger) ∨ page.events.length < EVENTS_PAGE_LIMIT ∨
    page.next.getD "" = "" ∨ page.next = cursor

instance (page : Page ScVal) (endLedger : Nat) (cursor : Option String) :
    Decidable (page.IsLast endLedger cursor) := by
  unfold Page.IsLast
  infer_instance

/-- What `getEvents` has for one fetch: page after page, and the failure that comes after them, if one
does. Past the last page there are no events. -/
structure Answers (ScVal : Type) where
  pages : List (Page ScVal)
  ending : Option Failure

def fetchPages (endLedger : Nat) (ending : Option Failure) (cursor : Option String) :
    List (Page ScVal) → Except Failure (List (ChainEvent ScVal))
  | [] =>
    match ending with
    | none => .ok []
    | some failure => .error failure
  | page :: pages =>
    if page.IsLast endLedger cursor then .ok (page.inRange endLedger)
    else
      match fetchPages endLedger ending page.next pages with
      | .error failure => .error failure
      | .ok events => .ok (page.inRange endLedger ++ events)

def fetchContractEvents (endLedger : Nat) (answers : Answers ScVal) : Except Failure (List (ChainEvent ScVal)) :=
  fetchPages endLedger answers.ending none answers.pages

/-- What the network and the database do in one cycle. -/
structure Env (ScVal : Type) where
  latestLedger : Except String Nat
  answers : String → Answers ScVal
  faults : String → ChainEvent ScVal → Option Fault
  /-- What goes wrong before the checkpoint is written, and before the watermark is. -/
  checkpointFails : Option Failure
  watermarkFails : Option Failure
  now : String
  cutoff : String

def pollContract (env : Env ScVal) (endLedger : Nat) (db : Db) (contractId : String) : Db × Except Failure Unit :=
  match fetchContractEvents endLedger (env.answers contractId) with
  | .error failure => (db, .error failure)
  | .ok events => persistEvents sdk env.now (env.faults contractId) db events

/-- `message.includes("not found")`. -/
def NotFound (message : String) : Prop := "not found".toList <:+: message.toList

instance (message : String) : Decidable (NotFound message) := by
  unfold NotFound
  infer_instance

/-- The loop over the contracts, with the number of those that failed. -/
def pollContracts (env : Env ScVal) (endLedger : Nat) (db : Db) (failedContracts : Nat) :
    List String → Db × Except Failure Nat
  | [] => (db, .ok failedContracts)
  | contractId :: contracts =>
    match pollContract sdk env endLedger db contractId with
    | (next, .ok ()) => pollContracts env endLedger next failedContracts contracts
    | (next, .error .aborted) => (next, .error .aborted)
    | (next, .error (.error message)) =>
      if NotFound message then pollContracts env endLedger next failedContracts contracts
      else pollContracts env endLedger next (failedContracts + 1) contracts

def targetEndLedger (startLedger currentLedger : Nat) : Nat :=
  if currentLedger - startLedger > 100 then startLedger + 100 else currentLedger

def pollEvents (env : Env ScVal) (contracts : List String) (startLedger : Nat) (db : Db) : Db × Except Failure Nat :=
  match env.latestLedger with
  | .error message => (db, .error (.error message))
  | .ok currentLedger =>
    if startLedger ≥ currentLedger then (db, .ok startLedger)
    else
      match pollContracts sdk env (targetEndLedger startLedger currentLedger) db 0 contracts with
      | (next, .error failure) => (next, .error failure)
      | (next, .ok failedContracts) =>
        if failedContracts > 0 then (next, .ok startLedger)
        else
          match env.checkpointFails with
          | some failure => (next, .error failure)
          | none => (next, .ok (targetEndLedger startLedger currentLedger))

/-- The backlog that is assigned to has no declaration, so this throws after the expired events are gone. -/
def verifyPendingEvents (cutoff : String) (db : Db) : Db × Except Failure Unit :=
  (db.cleanupExpiredPendingEvents cutoff, .error (.error "verificationBacklog is not defined"))

def runPollingCycle (env : Env ScVal) (contracts : List String) (lastLedger : Nat) (db : Db) :
    Db × Except Failure Nat :=
  match pollEvents sdk env contracts lastLedger db with
  | (polled, .error failure) => (polled, .error failure)
  | (polled, .ok newLedger) =>
    match env.watermarkFails with
    | some failure => (polled, .error failure)
    | none =>
      let marked : Db := if newLedger > lastLedger then { polled with lastLedger := some newLedger } else polled
      match verifyPendingEvents env.cutoff marked with
      | (verified, .error failure) => (verified, .error failure)
      | (verified, .ok ()) => (verified, .ok newLedger)

/-! ## Runs -/

/-- The database, and the last ledger as the process has it. -/
structure State where
  db : Db
  lastLedger : Nat

inductive Act (ScVal : Type) where
  | start
  | cycle (env : Env ScVal)

def step (contracts : List String) (s : State) : Act ScVal → State
  | .start => { s with lastLedger := s.db.lastLedger.getD 0 }
  | .cycle env =>
    match runPollingCycle sdk env contracts s.lastLedger s.db with
    | (db, .ok newLedger) => { db := db, lastLedger := newLedger }
    | (db, .error _) => { s with db := db }

end ZkVote.Indexer

import Mathlib.Data.List.Nodup
import ZkVote.Backend.Indexer
import ZkVote.Lib.Runs

/-!
# What the watermark stands for

Every event up to the watermark has its row, as long as the pages are read to their end, no failure is
taken for a missing contract, and no two events share the key of a row.
-/

open Lib

namespace ZkVote.Indexer

variable {ScVal : Type}

/-! ## Events and their rows -/

/-- The event carries a DAO id and a type that is indexed. -/
def Indexed (sdk : Sdk ScVal) (event : ChainEvent ScVal) (dao : Nat) (type : String) : Prop :=
  ∃ first second rest name daoId, event.topic = first :: second :: rest ∧ sdk.name first = some name ∧
    type = (EVENT_TYPES.lookup name).getD name ∧ type ∈ ALLOWED_EVENT_TYPES ∧
    sdk.number second = some daoId ∧ validateDaoId daoId = some dao

/-- The row is what the event is written as. -/
def RowOf (sdk : Sdk ScVal) (event : ChainEvent ScVal) (dao : Nat) (values : Values) : Prop :=
  ∃ now parsed daoId, parseEventData sdk event now = some parsed ∧ parsed.daoId = some daoId ∧
    toRow sdk daoId parsed = .ok (dao, values)

section

variable (sdk : Sdk ScVal) (emitted : String → ChainEvent ScVal → Prop) (contracts : List String)

def Emitted (event : ChainEvent ScVal) : Prop := ∃ contractId ∈ contracts, emitted contractId event

/-- Every event after the first ledger and up to the watermark has a row of its DAO, and no other event
has that row. -/
def Complete (initial : Nat) (db : Db) : Prop :=
  ∃ rowOf : ChainEvent ScVal → Nat,
    ∀ event dao type, Emitted emitted contracts event → Indexed sdk event dao type → initial < event.ledger →
      event.ledger ≤ db.lastLedger.getD 0 →
      (∃ row ∈ (db.partitions dao).rows, row.id = rowOf event ∧ RowOf sdk event dao row.toValues) ∧
      ∀ other otherType, Emitted emitted contracts other → Indexed sdk other dao otherType →
        initial < other.ledger → other.ledger ≤ db.lastLedger.getD 0 → rowOf other = rowOf event → other = event

/-- A sequence of pages that comes to its end has the events of the range, and pages have no others. -/
structure Honest (startLedger endLedger : Nat) (contractId : String) (answers : Answers ScVal) : Prop where
  genuine : ∀ page ∈ answers.pages, ∀ event ∈ page.events, emitted contractId event
  complete : answers.ending = none → ∀ event, emitted contractId event → startLedger < event.ledger →
    event.ledger ≤ endLedger → ∃ page ∈ answers.pages, event ∈ page.events

/-- No event of the range comes after one past it, and a page after which no other is asked for has
nothing of the range after it. -/
def ReadToEnd (endLedger : Nat) (ending : Option Failure) (cursor : Option String) : List (Page ScVal) → Prop
  | [] => True
  | page :: pages =>
    page.events.Pairwise (fun a b => b.ledger ≤ endLedger → a.ledger ≤ endLedger) ∧
    (page.IsLast endLedger cursor →
      ending = none ∧ ∀ later ∈ pages, ∀ event ∈ later.events, endLedger < event.ledger) ∧
    (¬ page.IsLast endLedger cursor → ReadToEnd endLedger ending page.next pages)

/-- What may go wrong with one event. -/
def EventFails (now : String) (faults : ChainEvent ScVal → Option Fault) (event : ChainEvent ScVal)
    (message : String) : Prop :=
  (∃ parsed daoId, parseEventData sdk event now = some parsed ∧ parsed.daoId = some daoId ∧
    toRow sdk daoId parsed = .error message) ∨
  faults event = some (.before message) ∨ faults event = some (.after message)

/-- A message that the fetch of a contract or one of its events may fail with. -/
def MayFailWith (env : Env ScVal) (contractId : String) (message : String) : Prop :=
  (env.answers contractId).ending = some (.error message) ∨
    ∃ page ∈ (env.answers contractId).pages, ∃ event ∈ page.events,
      EventFails sdk env.now (env.faults contractId) event message

/-- What is assumed of the network in a cycle. -/
def HonestCycle (s : State) : Act ScVal → Prop
  | .start => True
  | .cycle env =>
    ∀ currentLedger, env.latestLedger = .ok currentLedger → s.lastLedger < currentLedger →
      ∀ contractId ∈ contracts,
        Honest emitted s.lastLedger (targetEndLedger s.lastLedger currentLedger) contractId (env.answers contractId)

/-- No contract of the cycle is cut short, and no failure says that something is not found. -/
def SoundCycle (s : State) : Act ScVal → Prop
  | .start => True
  | .cycle env =>
    ∀ currentLedger, env.latestLedger = .ok currentLedger → s.lastLedger < currentLedger →
      ∀ contractId ∈ contracts,
        ReadToEnd (targetEndLedger s.lastLedger currentLedger) (env.answers contractId).ending none
          (env.answers contractId).pages ∧
        ∀ message, MayFailWith sdk env contractId message → ¬ NotFound message

/-- No two events of a DAO have ledger, transaction and type in common. -/
def DistinctKeys (initial : Nat) : Prop :=
  ∀ event other dao type, Emitted emitted contracts event → Emitted emitted contracts other →
    Indexed sdk event dao type → Indexed sdk other dao type → initial < event.ledger →
    event.ledger = other.ledger → event.txHash = other.txHash → event = other

/-- The tables hold nothing yet of the ledgers after the first one. -/
def NoLaterRows (initial : Nat) (db : Db) : Prop :=
  ∀ dao, ∀ row ∈ (db.partitions dao).rows, ∀ ledger ∈ row.ledger, ledger ≤ initial

end

/-! ## Rows -/

variable {sdk : Sdk ScVal} {emitted : String → ChainEvent ScVal → Prop} {contracts : List String} {initial : Nat}
  {event other : ChainEvent ScVal} {dao : Nat} {type now : String} {values : Values} {db next : Db}
  {parsed : ParsedEvent ScVal} {daoId : Option ℚ}

theorem indexed_of_toRow (hparse : parseEventData sdk event now = some parsed) (hdao : parsed.daoId = some daoId)
    (hrow : toRow sdk daoId parsed = .ok (dao, values)) :
    Indexed sdk event dao values.type ∧ values.ledger = some event.ledger ∧ values.tx_hash = some event.txHash ∧
      values.verified = true := by
  unfold parseEventData at hparse
  split at hparse
  · cases hparse
    cases hdao
  next first rest htopic =>
  split at hparse
  · cases hparse
  next name hname =>
  cases hparse
  unfold toRow at hrow
  split at hrow
  · cases hrow
  next dao' hvalid =>
  split at hrow
  · next htype =>
    split at hrow
    · cases hrow
    · cases hrow
      cases rest with
      | nil => cases hdao
      | cons second rest =>
        exact ⟨⟨first, second, rest, name, daoId, htopic, hname, rfl, htype, hdao, hvalid⟩, rfl, rfl, rfl⟩
  · cases hrow

theorem RowOf.spec (h : RowOf sdk event dao values) :
    Indexed sdk event dao values.type ∧ values.ledger = some event.ledger ∧ values.tx_hash = some event.txHash ∧
      values.verified = true := by
  obtain ⟨now, parsed, daoId, hparse, hdao, hrow⟩ := h
  exact indexed_of_toRow hparse hdao hrow

theorem Indexed.unique {dao' : Nat} {type' : String} (h : Indexed sdk event dao type)
    (h' : Indexed sdk event dao' type') : dao' = dao ∧ type' = type := by
  obtain ⟨first, second, rest, name, daoId, htopic, hname, rfl, -, hnumber, hvalid⟩ := h
  obtain ⟨first', second', rest', name', daoId', htopic', hname', rfl, -, hnumber', hvalid'⟩ := h'
  rw [htopic] at htopic'
  cases htopic'
  rw [hname] at hname'
  cases hname'
  rw [hnumber] at hnumber'
  cases hnumber'
  rw [hvalid] at hvalid'
  cases hvalid'
  exact ⟨rfl, rfl⟩

/-- An indexed event is parsed, with its DAO id. -/
theorem Indexed.parse (h : Indexed sdk event dao type) (now : String) :
    ∃ parsed daoId, parseEventData sdk event now = some parsed ∧ parsed.daoId = some daoId ∧
      validateDaoId daoId = some dao := by
  obtain ⟨first, second, rest, name, daoId, htopic, hname, rfl, -, hnumber, hvalid⟩ := h
  unfold parseEventData
  simp only [htopic, hname]
  exact ⟨_, daoId, rfl, hnumber, hvalid⟩

/-! ## What the tables keep -/

/-- Verified rows stay, and what is new is as `P` says. -/
structure Grows (P : Nat → Values → Prop) (db next : Db) : Prop where
  kept : ∀ dao, ∀ row ∈ (db.partitions dao).rows, row.verified = true → row ∈ (next.partitions dao).rows
  added : ∀ dao, ∀ row ∈ (next.partitions dao).rows, row ∈ (db.partitions dao).rows ∨ P dao row.toValues
  watermark : next.lastLedger = db.lastLedger

variable {P Q : Nat → Values → Prop}

theorem Grows.refl (db : Db) : Grows P db db where
  kept := fun _ _ hrow _ => hrow
  added := fun _ _ hrow => .inl hrow
  watermark := rfl

theorem Grows.trans {third : Db} (h : Grows P db next) (h' : Grows P next third) : Grows P db third where
  kept := fun dao row hrow hverified => h'.kept dao row (h.kept dao row hrow hverified) hverified
  added := by
    intro dao row hrow
    obtain hold | hnew := h'.added dao row hrow
    · exact h.added dao row hold
    · exact .inr hnew
  watermark := h'.watermark.trans h.watermark

theorem Grows.mono (h : Grows P db next) (hPQ : ∀ dao values, P dao values → Q dao values) : Grows Q db next where
  kept := h.kept
  added := fun dao row hrow => (h.added dao row hrow).imp_right (hPQ dao _)
  watermark := h.watermark

theorem insert_grows (hP : P dao values) : Grows P db (db.insert dao values).1 := by
  unfold Db.insert
  split
  · next hfree =>
    constructor
    · intro d row hrow _
      by_cases hd : d = dao
      · subst hd
        simp only [Function.update_self, Partition.insert]
        exact List.mem_append_left _ hrow
      · simp only [Function.update_of_ne hd]
        exact hrow
    · intro d row hrow
      by_cases hd : d = dao
      · subst hd
        simp only [Function.update_self, Partition.insert, List.mem_append, List.mem_singleton] at hrow
        obtain hold | rfl := hrow
        · exact .inl hold
        · exact .inr hP
      · simp only [Function.update_of_ne hd] at hrow
        exact .inl hrow
    · rfl
  · exact .refl db

theorem insert_has (db : Db) (dao : Nat) (values : Values) :
    (∃ row ∈ ((db.insert dao values).1.partitions dao).rows, row.toValues = values) ∨
      ∃ row ∈ (db.partitions dao).rows, Clash row.toValues values := by
  unfold Db.insert
  split
  · refine .inl ⟨{ values with id := (db.partitions dao).sequence + 1 }, ?_, rfl⟩
    simp only [Function.update_self, Partition.insert]
    exact List.mem_append_right _ (List.mem_singleton_self _)
  · next hclash =>
    push Not at hclash
    exact .inr hclash

theorem cleanup_grows (db : Db) (cutoff : String) : Grows P db (db.cleanupExpiredPendingEvents cutoff) where
  kept := by
    intro dao row hrow hverified
    apply List.mem_filter.mpr
    exact ⟨hrow, by rw [hverified]; rfl⟩
  added := fun _ _ hrow => .inl (List.mem_filter.mp hrow).1
  watermark := rfl

/-! ## One event -/

def Stored (sdk : Sdk ScVal) (event : ChainEvent ScVal) (dao : Nat) (db : Db) : Prop :=
  ∃ row ∈ (db.partitions dao).rows, RowOf sdk event dao row.toValues

theorem Stored.grows (h : Stored sdk event dao db) (hgrows : Grows P db next) : Stored sdk event dao next := by
  obtain ⟨row, hrow, hof⟩ := h
  exact ⟨row, hgrows.kept dao row hrow hof.spec.2.2.2, hof⟩

/-- The rows of later ledgers are those of the chain's events. -/
def Origin (sdk : Sdk ScVal) (emitted : String → ChainEvent ScVal → Prop) (contracts : List String) (initial : Nat)
    (db : Db) : Prop :=
  ∀ dao, ∀ row ∈ (db.partitions dao).rows, ∀ ledger ∈ row.ledger, initial < ledger →
    ∃ event, Emitted emitted contracts event ∧ RowOf sdk event dao row.toValues

/-- The row of some event of the chain. -/
def Real (sdk : Sdk ScVal) (emitted : String → ChainEvent ScVal → Prop) (contracts : List String) (dao : Nat)
    (values : Values) : Prop :=
  ∃ event, Emitted emitted contracts event ∧ RowOf sdk event dao values

theorem Origin.grows (h : Origin sdk emitted contracts initial db)
    (hgrows : Grows (Real sdk emitted contracts) db next) : Origin sdk emitted contracts initial next := by
  intro dao row hrow ledger hledger hlater
  obtain hold | hnew := hgrows.added dao row hrow
  · exact h dao row hold ledger hledger hlater
  · exact hnew

theorem Origin.mark (h : Origin sdk emitted contracts initial db) (ledger : Nat) :
    Origin sdk emitted contracts initial { db with lastLedger := some ledger } := h

/-- A key that is taken is taken by the event itself. -/
theorem stored_of_insert (hdistinct : DistinctKeys sdk emitted contracts initial)
    (horigin : Origin sdk emitted contracts initial db) (hemitted : Emitted emitted contracts event)
    (hlater : initial < event.ledger) (hrow : RowOf sdk event dao values) :
    Stored sdk event dao (db.insert dao values).1 := by
  obtain ⟨hindexed, hledger, htx, -⟩ := hrow.spec
  obtain ⟨row, hmem, hvalues⟩ | ⟨row, hmem, -, -, hsame, htxSame, htype⟩ := insert_has db dao values
  · exact ⟨row, hmem, by rw [hvalues]; exact hrow⟩
  · rw [hledger] at hsame
    obtain ⟨other, hother, hof⟩ := horigin dao row hmem event.ledger hsame hlater
    obtain ⟨hindexed', hledger', htx', -⟩ := hof.spec
    rw [htype] at hindexed'
    have hledgers : event.ledger = other.ledger := Option.some.inj (hsame.symm.trans hledger')
    have htxs : event.txHash = other.txHash := Option.some.inj (htx.symm.trans (htxSame.symm.trans htx'))
    have heq := hdistinct event other dao values.type hemitted hother hindexed hindexed' hlater hledgers htxs
    have hgrows : Grows (RowOf sdk event) db (db.insert dao values).1 := insert_grows hrow
    refine Stored.grows ⟨row, hmem, ?_⟩ hgrows
    rw [heq]
    exact hof

/-! ## The events of a contract -/

variable {fault : Option Fault} {faults : ChainEvent ScVal → Option Fault} {events : List (ChainEvent ScVal)}
  {contractId : String} {message : String} {env : Env ScVal} {endLedger : Nat}

/-- Either nothing is written and it fails with a message of its own, or the row is inserted. -/
theorem addEvent_spec (sdk : Sdk ScVal) (db : Db) (daoId : Option ℚ) (parsed : ParsedEvent ScVal)
    (fault : Option Fault) :
    (∃ message, addEvent sdk db daoId parsed fault = (db, .error (.error message)) ∧
      (toRow sdk daoId parsed = .error message ∨ fault = some (.before message))) ∨
    ∃ dao values, toRow sdk daoId parsed = .ok (dao, values) ∧
      ((∃ isNew, addEvent sdk db daoId parsed fault = ((db.insert dao values).1, .ok isNew)) ∨
        ∃ message, addEvent sdk db daoId parsed fault = ((db.insert dao values).1, .error (.error message)) ∧
          fault = some (.after message)) := by
  unfold addEvent
  split
  · next message hrow => exact .inl ⟨message, rfl, .inl hrow⟩
  · next dao values hrow =>
    split
    · next message => exact .inl ⟨message, rfl, .inr rfl⟩
    · next message =>
      refine .inr ⟨dao, values, hrow, ?_⟩
      simp only
      split
      · exact .inr ⟨message, rfl, rfl⟩
      · exact .inl ⟨false, rfl⟩
    · exact .inr ⟨dao, values, hrow, .inl ⟨_, rfl⟩⟩

/-- The loop leaves an event aside that is not indexed, or writes its row and goes on, or ends there. -/
theorem persist_cons (sdk : Sdk ScVal) (now : String) (faults : ChainEvent ScVal → Option Fault) (db : Db)
    (event : ChainEvent ScVal) (events : List (ChainEvent ScVal)) :
    ((∀ dao type, ¬ Indexed sdk event dao type) ∧
      persistEvents sdk now faults db (event :: events) = persistEvents sdk now faults db events) ∨
    (∃ dao values, RowOf sdk event dao values ∧
      persistEvents sdk now faults db (event :: events) =
        persistEvents sdk now faults (db.insert dao values).1 events) ∨
    ∃ next failure, persistEvents sdk now faults db (event :: events) = (next, .error failure) ∧
      Grows (RowOf sdk event) db next ∧
      ∀ message, failure = .error message → EventFails sdk now faults event message := by
  simp only [persistEvents]
  split
  · exact .inr (.inr ⟨db, .aborted, rfl, .refl db, by rintro _ ⟨⟩⟩)
  split
  · next hparse =>
    refine .inl ⟨?_, rfl⟩
    intro dao type hindexed
    obtain ⟨parsed, daoId, hparse', -⟩ := hindexed.parse now
    rw [hparse] at hparse'
    cases hparse'
  next parsed hparse =>
  split
  · next hnone =>
    refine .inl ⟨?_, rfl⟩
    intro dao type hindexed
    obtain ⟨parsed', daoId, hparse', hdao, -⟩ := hindexed.parse now
    rw [hparse] at hparse'
    cases hparse'
    rw [hnone] at hdao
    cases hdao
  next daoId hdao =>
  obtain ⟨message, hadd, hfails⟩ | ⟨dao, values, hrow, ⟨isNew, hadd⟩ | ⟨message, hadd, hfault⟩⟩ :=
    addEvent_spec sdk db daoId parsed (faults event)
  · rw [hadd]
    refine .inr (.inr ⟨db, _, rfl, .refl db, ?_⟩)
    rintro _ ⟨⟩
    exact hfails.imp (fun h => ⟨parsed, daoId, hparse, hdao, h⟩) Or.inl
  · rw [hadd]
    exact .inr (.inl ⟨dao, values, ⟨now, parsed, daoId, hparse, hdao, hrow⟩, rfl⟩)
  · rw [hadd]
    refine .inr (.inr ⟨_, _, rfl, insert_grows ⟨now, parsed, daoId, hparse, hdao, hrow⟩, ?_⟩)
    rintro _ ⟨⟩
    exact .inr (.inr hfault)

/-- What a loop over events of the chain writes, and what it is when it comes to its end. -/
theorem persist_spec (hdistinct : DistinctKeys sdk emitted contracts initial)
    (horigin : Origin sdk emitted contracts initial db)
    (hemitted : ∀ event ∈ events, Emitted emitted contracts event) {result : Except Failure Unit}
    (h : persistEvents sdk now faults db events = (next, result)) :
    Grows (Real sdk emitted contracts) db next ∧
    (result = .ok () → ∀ event ∈ events, ∀ dao type, Indexed sdk event dao type → initial < event.ledger →
      Stored sdk event dao next) ∧
    ∀ message, result = .error (.error message) → ∃ event ∈ events, EventFails sdk now faults event message := by
  induction events generalizing db with
  | nil =>
    cases h
    exact ⟨.refl _, by simp, by simp⟩
  | cons event events ih =>
    rw [List.forall_mem_cons] at hemitted
    obtain ⟨hnot, heq⟩ | ⟨dao, values, hrow, heq⟩ | ⟨last, failure, heq, hgrows, hfails⟩ :=
      persist_cons sdk now faults db event events
    · rw [heq] at h
      obtain ⟨hgrows, hstored, hfails⟩ := ih horigin hemitted.2 h
      refine ⟨hgrows, ?_, ?_⟩
      · intro hok
        rw [List.forall_mem_cons]
        exact ⟨fun dao type hindexed => absurd hindexed (hnot dao type), hstored hok⟩
      · intro message hmessage
        obtain ⟨failed, hmem, hfailed⟩ := hfails message hmessage
        exact ⟨failed, List.mem_cons_of_mem _ hmem, hfailed⟩
    · rw [heq] at h
      have hinsert : Grows (Real sdk emitted contracts) db (db.insert dao values).1 :=
        insert_grows ⟨event, hemitted.1, hrow⟩
      obtain ⟨hgrows, hstored, hfails⟩ := ih (horigin.grows hinsert) hemitted.2 h
      refine ⟨hinsert.trans hgrows, ?_, ?_⟩
      · intro hok
        rw [List.forall_mem_cons]
        refine ⟨?_, hstored hok⟩
        intro dao' type hindexed hlater
        obtain ⟨rfl, -⟩ := hrow.spec.1.unique hindexed
        exact (stored_of_insert hdistinct horigin hemitted.1 hlater hrow).grows hgrows
      · intro message hmessage
        obtain ⟨failed, hmem, hfailed⟩ := hfails message hmessage
        exact ⟨failed, List.mem_cons_of_mem _ hmem, hfailed⟩
    · rw [heq] at h
      cases h
      refine ⟨hgrows.mono fun dao values hrow => ⟨event, hemitted.1, hrow⟩, by simp, ?_⟩
      intro message hmessage
      exact ⟨event, List.mem_cons_self, hfails message (Except.error.inj hmessage)⟩

/-! ## Fetching -/

theorem mem_takeWhile_of_pairwise {l : List (ChainEvent ScVal)}
    (h : l.Pairwise fun a b => b.ledger ≤ endLedger → a.ledger ≤ endLedger) (hmem : event ∈ l)
    (hledger : event.ledger ≤ endLedger) : event ∈ l.takeWhile fun e => e.ledger ≤ endLedger := by
  induction l with
  | nil => cases hmem
  | cons first l ih =>
    rw [List.pairwise_cons] at h
    rw [List.mem_cons] at hmem
    obtain rfl | hmem := hmem
    · rw [List.takeWhile_cons_of_pos (by simpa using hledger)]
      exact List.mem_cons_self
    · rw [List.takeWhile_cons_of_pos (by simpa using h.1 event hmem hledger)]
      exact List.mem_cons_of_mem _ (ih h.2 hmem)

/-- What is fetched comes from the pages, and is all of the range where they are read to their end. -/
theorem fetchPages_spec {ending : Option Failure} {cursor : Option String} {pages : List (Page ScVal)}
    (h : fetchPages endLedger ending cursor pages = .ok events) :
    (∀ event ∈ events, ∃ page ∈ pages, event ∈ page.events) ∧
    (ReadToEnd endLedger ending cursor pages → ending = none ∧
      ∀ page ∈ pages, ∀ event ∈ page.events, event.ledger ≤ endLedger → event ∈ events) := by
  induction pages generalizing cursor events with
  | nil =>
    unfold fetchPages at h
    split at h
    · cases h
      exact ⟨by simp, fun _ => ⟨rfl, by simp⟩⟩
    · cases h
  | cons page pages ih =>
    have hsublist : ∀ event ∈ page.inRange endLedger, event ∈ page.events :=
      fun event hevent => (List.takeWhile_sublist _).subset hevent
    have hall : page.events.Pairwise (fun a b => b.ledger ≤ endLedger → a.ledger ≤ endLedger) →
        ∀ event ∈ page.events, event.ledger ≤ endLedger → event ∈ page.inRange endLedger := by
      intro horder event hevent hledger
      unfold Page.inRange
      exact mem_takeWhile_of_pairwise horder hevent hledger
    unfold fetchPages at h
    split at h
    · next hlast =>
      cases h
      refine ⟨fun event hevent => ⟨page, List.mem_cons_self, hsublist event hevent⟩, ?_⟩
      rintro ⟨horder, hrest, -⟩
      obtain ⟨hending, hlater⟩ := hrest hlast
      refine ⟨hending, ?_⟩
      rw [List.forall_mem_cons]
      refine ⟨hall horder, ?_⟩
      intro later hmem event hevent hledger
      exact absurd hledger (by simpa using hlater later hmem event hevent)
    · next hmore =>
      split at h
      · cases h
      next fetched hfetched =>
      cases h
      obtain ⟨hfrom, hread⟩ := ih hfetched
      constructor
      · intro event hevent
        rw [List.mem_append] at hevent
        obtain hevent | hevent := hevent
        · exact ⟨page, List.mem_cons_self, hsublist event hevent⟩
        · obtain ⟨later, hmem, hlater⟩ := hfrom event hevent
          exact ⟨later, List.mem_cons_of_mem _ hmem, hlater⟩
      · rintro ⟨horder, -, hrest⟩
        obtain ⟨hending, hlater⟩ := hread (hrest hmore)
        refine ⟨hending, ?_⟩
        rw [List.forall_mem_cons]
        constructor
        · intro event hevent hledger
          exact List.mem_append_left _ (hall horder event hevent hledger)
        · intro later hmem event hevent hledger
          exact List.mem_append_right _ (hlater later hmem event hevent hledger)

theorem fetchPages_error {ending : Option Failure} {cursor : Option String} {pages : List (Page ScVal)}
    {failure : Failure} (h : fetchPages endLedger ending cursor pages = .error failure) : ending = some failure := by
  induction pages generalizing cursor with
  | nil =>
    unfold fetchPages at h
    split at h
    · cases h
    · cases h
      rfl
  | cons page pages ih =>
    unfold fetchPages at h
    split at h
    · cases h
    split at h
    · next hfailed =>
      cases h
      exact ih hfailed
    · cases h

/-! ## A cycle -/

variable {startLedger : Nat}

/-- The indexed events of the contract in the range are in the tables. -/
def RangeStored (sdk : Sdk ScVal) (emitted : String → ChainEvent ScVal → Prop) (initial startLedger endLedger : Nat)
    (db : Db) (contractId : String) : Prop :=
  ∀ event dao type, emitted contractId event → Indexed sdk event dao type → initial < event.ledger →
    startLedger < event.ledger → event.ledger ≤ endLedger → Stored sdk event dao db

theorem RangeStored.grows (h : RangeStored sdk emitted initial startLedger endLedger db contractId)
    (hgrows : Grows P db next) : RangeStored sdk emitted initial startLedger endLedger next contractId :=
  fun event dao type hemitted hindexed hlater hstart hend =>
    (h event dao type hemitted hindexed hlater hstart hend).grows hgrows

theorem pollContract_spec (hdistinct : DistinctKeys sdk emitted contracts initial)
    (horigin : Origin sdk emitted contracts initial db) (hcontract : contractId ∈ contracts)
    (hhonest : Honest emitted startLedger endLedger contractId (env.answers contractId))
    {result : Except Failure Unit} (h : pollContract sdk env endLedger db contractId = (next, result)) :
    Grows (Real sdk emitted contracts) db next ∧
    (result = .ok () →
      ReadToEnd endLedger (env.answers contractId).ending none (env.answers contractId).pages →
      RangeStored sdk emitted initial startLedger endLedger next contractId) ∧
    ∀ message, result = .error (.error message) → MayFailWith sdk env contractId message := by
  unfold pollContract fetchContractEvents at h
  split at h
  · next failure hfetch =>
    cases h
    refine ⟨.refl _, by simp, ?_⟩
    intro message hmessage
    cases hmessage
    exact .inl (fetchPages_error hfetch)
  · next events hfetch =>
    obtain ⟨hfrom, hread⟩ := fetchPages_spec hfetch
    have hemitted : ∀ event ∈ events, Emitted emitted contracts event := by
      intro event hevent
      obtain ⟨page, hpage, hmem⟩ := hfrom event hevent
      exact ⟨contractId, hcontract, hhonest.genuine page hpage event hmem⟩
    obtain ⟨hgrows, hstored, hfails⟩ := persist_spec hdistinct horigin hemitted h
    refine ⟨hgrows, ?_, ?_⟩
    · intro hok htoEnd event dao type hevent hindexed hlater hstart hend
      obtain ⟨hending, hall⟩ := hread htoEnd
      obtain ⟨page, hpage, hmem⟩ := hhonest.complete hending event hevent hstart hend
      exact hstored hok event (hall page hpage event hmem hend) dao type hindexed hlater
    · intro message hmessage
      obtain ⟨event, hevent, hfailed⟩ := hfails message hmessage
      obtain ⟨page, hpage, hmem⟩ := hfrom event hevent
      exact .inr ⟨page, hpage, event, hmem, hfailed⟩

/-- No failure counted, and none passed over: every contract has been read. -/
theorem pollContracts_spec (hdistinct : DistinctKeys sdk emitted contracts initial) {polled : List String}
    (hpolled : ∀ contractId ∈ polled, contractId ∈ contracts)
    (hhonest : ∀ contractId ∈ contracts, Honest emitted startLedger endLedger contractId (env.answers contractId))
    (horigin : Origin sdk emitted contracts initial db) {failed : Nat} {result : Except Failure Nat}
    (h : pollContracts sdk env endLedger db failed polled = (next, result)) :
    Grows (Real sdk emitted contracts) db next ∧
    ∀ n, result = .ok n → failed ≤ n ∧
      (n = failed →
        (∀ contractId ∈ polled,
          ReadToEnd endLedger (env.answers contractId).ending none (env.answers contractId).pages ∧
          ∀ message, MayFailWith sdk env contractId message → ¬ NotFound message) →
        ∀ contractId ∈ polled, RangeStored sdk emitted initial startLedger endLedger next contractId) := by
  induction polled generalizing db failed with
  | nil =>
    cases h
    refine ⟨.refl _, ?_⟩
    rintro n ⟨⟩
    exact ⟨le_refl _, by simp⟩
  | cons contractId polled ih =>
    rw [List.forall_mem_cons] at hpolled
    unfold pollContracts at h
    split at h
    · next middle hpoll =>
      obtain ⟨hfirst, hread, -⟩ := pollContract_spec hdistinct horigin hpolled.1 (hhonest _ hpolled.1) hpoll
      obtain ⟨hgrows, hrest⟩ := ih hpolled.2 (horigin.grows hfirst) h
      refine ⟨hfirst.trans hgrows, ?_⟩
      intro n hn
      obtain ⟨hle, hall⟩ := hrest n hn
      refine ⟨hle, ?_⟩
      intro heq hsound
      rw [List.forall_mem_cons] at hsound ⊢
      exact ⟨(hread rfl hsound.1.1).grows hgrows, hall heq hsound.2⟩
    · next middle hpoll =>
      cases h
      exact ⟨(pollContract_spec hdistinct horigin hpolled.1 (hhonest _ hpolled.1) hpoll).1, by simp⟩
    · next middle message hpoll =>
      obtain ⟨hfirst, -, hfails⟩ := pollContract_spec hdistinct horigin hpolled.1 (hhonest _ hpolled.1) hpoll
      split at h
      · next hnotFound =>
        obtain ⟨hgrows, hrest⟩ := ih hpolled.2 (horigin.grows hfirst) h
        refine ⟨hfirst.trans hgrows, ?_⟩
        intro n hn
        refine ⟨(hrest n hn).1, ?_⟩
        intro heq hsound
        rw [List.forall_mem_cons] at hsound
        exact absurd hnotFound (hsound.1.2 message (hfails message rfl))
      · obtain ⟨hgrows, hrest⟩ := ih hpolled.2 (horigin.grows hfirst) h
        refine ⟨hfirst.trans hgrows, ?_⟩
        intro n hn
        have hle := (hrest n hn).1
        exact ⟨by omega, by omega⟩

/-- The indexed events up to the ledger are in the tables. -/
def Covered (sdk : Sdk ScVal) (emitted : String → ChainEvent ScVal → Prop) (contracts : List String) (initial : Nat)
    (db : Db) (ledger : Nat) : Prop :=
  ∀ event dao type, Emitted emitted contracts event → Indexed sdk event dao type → initial < event.ledger →
    event.ledger ≤ ledger → Stored sdk event dao db

theorem Covered.grows {ledger : Nat} (h : Covered sdk emitted contracts initial db ledger) (hgrows : Grows P db next) :
    Covered sdk emitted contracts initial next ledger :=
  fun event dao type hemitted hindexed hlater hend => (h event dao type hemitted hindexed hlater hend).grows hgrows

theorem Covered.mark {ledger : Nat} (h : Covered sdk emitted contracts initial db ledger) (newLedger : Nat) :
    Covered sdk emitted contracts initial { db with lastLedger := some newLedger } ledger := h

structure Inv (sdk : Sdk ScVal) (emitted : String → ChainEvent ScVal → Prop) (contracts : List String)
    (initial : Nat) (s : State) : Prop where
  origin : Origin sdk emitted contracts initial s.db
  persisted : Covered sdk emitted contracts initial s.db (s.db.lastLedger.getD 0)
  inMemory : Covered sdk emitted contracts initial s.db s.lastLedger

variable {s s' : State} {act : Act ScVal}

/-- What a poll writes, and that it goes up to the ledger it returns. -/
theorem pollEvents_spec (hdistinct : DistinctKeys sdk emitted contracts initial)
    (hinv : Inv sdk emitted contracts initial s) (hhonest : HonestCycle emitted contracts s (.cycle env))
    (hsound : SoundCycle sdk contracts s (.cycle env)) {result : Except Failure Nat}
    (h : pollEvents sdk env contracts s.lastLedger s.db = (next, result)) :
    Grows (Real sdk emitted contracts) s.db next ∧
    ∀ ledger, result = .ok ledger → Covered sdk emitted contracts initial next ledger := by
  unfold pollEvents at h
  split at h
  · cases h
    exact ⟨.refl _, by simp⟩
  next currentLedger hlatest =>
  split at h
  · cases h
    refine ⟨.refl _, ?_⟩
    rintro ledger ⟨⟩
    exact hinv.inMemory
  next hbehind =>
  have hbehind' : s.lastLedger < currentLedger := by omega
  have hhonest' := hhonest currentLedger hlatest hbehind'
  have hsound' := hsound currentLedger hlatest hbehind'
  split at h
  · next polled failure hpolled =>
    cases h
    exact ⟨(pollContracts_spec hdistinct (fun _ h => h) hhonest' hinv.origin hpolled).1, by simp⟩
  next polled failed hpolled =>
  obtain ⟨hgrows, hall⟩ := pollContracts_spec hdistinct (fun _ h => h) hhonest' hinv.origin hpolled
  split at h
  · cases h
    refine ⟨hgrows, ?_⟩
    rintro ledger ⟨⟩
    exact hinv.inMemory.grows hgrows
  next hnone =>
  split at h
  · cases h
    exact ⟨hgrows, by simp⟩
  · cases h
    refine ⟨hgrows, ?_⟩
    rintro ledger ⟨⟩ event dao type hemitted hindexed hlater hend
    by_cases hold : event.ledger ≤ s.lastLedger
    · exact (hinv.inMemory event dao type hemitted hindexed hlater hold).grows hgrows
    · obtain ⟨contractId, hcontract, hevent⟩ := hemitted
      have hstored := (hall failed rfl).2 (by omega) hsound' contractId hcontract
      exact hstored event dao type hevent hindexed hlater (by omega) hend

/-- Whatever a cycle comes to, the tables go up to the watermark they hold. -/
theorem runPollingCycle_spec (hdistinct : DistinctKeys sdk emitted contracts initial)
    (hinv : Inv sdk emitted contracts initial s) (hhonest : HonestCycle emitted contracts s (.cycle env))
    (hsound : SoundCycle sdk contracts s (.cycle env)) {result : Except Failure Nat}
    (h : runPollingCycle sdk env contracts s.lastLedger s.db = (next, result)) :
    Inv sdk emitted contracts initial { db := next, lastLedger := s.lastLedger } ∧
    ∀ ledger, result = .ok ledger → Covered sdk emitted contracts initial next ledger := by
  unfold runPollingCycle at h
  split at h
  · next polled failure hpoll =>
    obtain ⟨hgrows, -⟩ := pollEvents_spec hdistinct hinv hhonest hsound hpoll
    cases h
    refine ⟨⟨hinv.origin.grows hgrows, ?_, hinv.inMemory.grows hgrows⟩, by simp⟩
    simp only [hgrows.watermark]
    exact hinv.persisted.grows hgrows
  next polled newLedger hpoll =>
  obtain ⟨hgrows, hcovered⟩ := pollEvents_spec hdistinct hinv hhonest hsound hpoll
  have hpersisted : Covered sdk emitted contracts initial polled (polled.lastLedger.getD 0) := by
    rw [hgrows.watermark]
    exact hinv.persisted.grows hgrows
  split at h
  · cases h
    exact ⟨⟨hinv.origin.grows hgrows, hpersisted, hinv.inMemory.grows hgrows⟩, by simp⟩
  simp only [verifyPendingEvents] at h
  cases h
  refine ⟨?_, by simp⟩
  split
  · -- The watermark moves: the poll has gone up to it.
    have hcleaned : Grows (Real sdk emitted contracts) { polled with lastLedger := some newLedger }
        ({ polled with lastLedger := some newLedger : Db }.cleanupExpiredPendingEvents env.cutoff) :=
      cleanup_grows _ _
    exact ⟨((hinv.origin.grows hgrows).mark newLedger).grows hcleaned,
      ((hcovered newLedger rfl).mark newLedger).grows hcleaned,
      ((hinv.inMemory.grows hgrows).mark newLedger).grows hcleaned⟩
  · have hcleaned : Grows (Real sdk emitted contracts) polled (polled.cleanupExpiredPendingEvents env.cutoff) :=
      cleanup_grows _ _
    exact ⟨(hinv.origin.grows hgrows).grows hcleaned, hpersisted.grows hcleaned,
      (hinv.inMemory.grows hgrows).grows hcleaned⟩

theorem inv_step (hdistinct : DistinctKeys sdk emitted contracts initial)
    (hinv : Inv sdk emitted contracts initial s) (hhonest : HonestCycle emitted contracts s act)
    (hsound : SoundCycle sdk contracts s act) : Inv sdk emitted contracts initial (step sdk contracts s act) := by
  cases act with
  | start => exact ⟨hinv.origin, hinv.persisted, hinv.persisted⟩
  | cycle env =>
    unfold step
    simp only
    split
    · next db newLedger hcycle =>
      obtain ⟨hnext, hcovered⟩ := runPollingCycle_spec hdistinct hinv hhonest hsound hcycle
      exact ⟨hnext.origin, hnext.persisted, hcovered newLedger rfl⟩
    · next db failure hcycle => exact (runPollingCycle_spec hdistinct hinv hhonest hsound hcycle).1

/-! ## Runs -/

abbrev Run (sdk : Sdk ScVal) (contracts : List String) (init : State) : List (State × Act ScVal) → State → Prop :=
  Lib.Run (fun s act s' => step sdk contracts s act = s') init

theorem inv_init {init : State} (hstart : init.lastLedger = init.db.lastLedger.getD 0)
    (hrows : NoLaterRows (init.db.lastLedger.getD 0) init.db) :
    Inv sdk emitted contracts (init.db.lastLedger.getD 0) init where
  origin := by
    intro dao row hrow ledger hledger hlater
    have hle := hrows dao row hrow ledger hledger
    omega
  persisted := by
    intro event dao type _ _ hlater hend
    omega
  inMemory := by
    intro event dao type _ _ hlater hend
    omega

/-- Two rows of a table with one id are one. -/
theorem row_eq_of_id {p : Partition} {a b : Row} (ha : a ∈ p.rows) (hb : b ∈ p.rows) (h : a.id = b.id) : a = b := by
  have hids : (p.rows.map Row.id).Nodup := List.pairwise_map.mpr (p.increasing.imp Nat.ne_of_lt)
  exact List.inj_on_of_nodup_map hids ha hb h

theorem complete_of_inv (hdistinct : DistinctKeys sdk emitted contracts initial)
    (hinv : Inv sdk emitted contracts initial s) : Complete sdk emitted contracts initial s.db := by
  classical
  have hrow : ∀ event, ∃ id, ∀ dao type, Emitted emitted contracts event → Indexed sdk event dao type →
      initial < event.ledger → event.ledger ≤ s.db.lastLedger.getD 0 →
      ∃ row ∈ (s.db.partitions dao).rows, row.id = id ∧ RowOf sdk event dao row.toValues := by
    intro event
    by_cases hwanted : ∃ dao type, Emitted emitted contracts event ∧ Indexed sdk event dao type ∧
        initial < event.ledger ∧ event.ledger ≤ s.db.lastLedger.getD 0
    · obtain ⟨dao, type, hemitted, hindexed, hlater, hend⟩ := hwanted
      obtain ⟨row, hmem, hof⟩ := hinv.persisted event dao type hemitted hindexed hlater hend
      refine ⟨row.id, ?_⟩
      intro dao' type' _ hindexed' _ _
      obtain ⟨rfl, -⟩ := hindexed.unique hindexed'
      exact ⟨row, hmem, rfl, hof⟩
    · refine ⟨0, ?_⟩
      intro dao type hemitted hindexed hlater hend
      exact absurd ⟨dao, type, hemitted, hindexed, hlater, hend⟩ hwanted
  choose rowOf hrowOf using hrow
  refine ⟨rowOf, ?_⟩
  intro event dao type hemitted hindexed hlater hend
  refine ⟨hrowOf event dao type hemitted hindexed hlater hend, ?_⟩
  intro other otherType hother hindexed' hlater' hend' hsame
  obtain ⟨row, hmem, hid, hof⟩ := hrowOf event dao type hemitted hindexed hlater hend
  obtain ⟨row', hmem', hid', hof'⟩ := hrowOf other dao otherType hother hindexed' hlater' hend'
  have hrows : row' = row := row_eq_of_id hmem' hmem (by rw [hid, hid', hsame])
  rw [hrows] at hof'
  obtain ⟨hrowIndexed, hledger, htx, -⟩ := hof.spec
  obtain ⟨hrowIndexed', hledger', htx', -⟩ := hof'.spec
  have hledgers : other.ledger = event.ledger := Option.some.inj (hledger'.symm.trans hledger)
  have htxs : other.txHash = event.txHash := Option.some.inj (htx'.symm.trans htx)
  exact hdistinct other event dao row.type hother hemitted hrowIndexed' hrowIndexed hlater' hledgers htxs

/-- In a run whose cycles read every contract to its end and pass no failure over, over events that
have keys of their own, the watermark never gets ahead of the rows. -/
theorem watermark_complete {init s : State} {log : List (State × Act ScVal)}
    (hstart : init.lastLedger = init.db.lastLedger.getD 0)
    (hrows : NoLaterRows (init.db.lastLedger.getD 0) init.db)
    (hdistinct : DistinctKeys sdk emitted contracts (init.db.lastLedger.getD 0))
    (hhonest : ∀ e ∈ log, HonestCycle emitted contracts e.1 e.2)
    (hsound : ∀ e ∈ log, SoundCycle sdk contracts e.1 e.2)
    (hrun : Run sdk contracts init log s) :
    Complete sdk emitted contracts (init.db.lastLedger.getD 0) s.db := by
  apply complete_of_inv hdistinct
  apply hrun.invariant_of (C := fun s act => HonestCycle emitted contracts s act ∧ SoundCycle sdk contracts s act)
    (inv_init hstart hrows)
  · rintro s act s' hinv ⟨hhonest, hsound⟩ rfl
    exact inv_step hdistinct hinv hhonest hsound
  · intro e he
    exact ⟨hhonest e he, hsound e he⟩

/-! ## Votes of one transaction -/

/-- Texts and numbers as the SDK reads them. -/
def sampleSdk : Sdk (String ⊕ Nat) where
  name := fun
    | .inl s => some s
    | .inr n => some (toString n)
  number := fun
    | .inl _ => some none
    | .inr n => some (some n)
  text := fun
    | none => "NaN"
    | some q => toString q
  stringify := fun _ _ => .ok "\x7b\x22proposalId\x22:1\x7d"

def sampleVote (id : String) : ChainEvent (String ⊕ Nat) where
  id := id
  pagingToken := none
  ledger := 5
  txHash := "aa"
  topic := [.inl "VoteEvent", .inr 1, .inr 1]
  value := none

def sampleState : State where
  db :=
    { partitions := fun _ => { rows := [], sequence := 0, increasing := .nil, numbered := by simp, unique := .nil }
      lastLedger := none }
  lastLedger := 0

/-- A cycle that finds the votes on one page. -/
def sampleCycle (votes : List (ChainEvent (String ⊕ Nat))) (h : votes.length ≤ EVENTS_PAGE_LIMIT) :
    Env (String ⊕ Nat) where
  latestLedger := .ok 7
  answers := fun _ => { pages := [{ events := votes, cursor := none, limit := h }], ending := none }
  faults := fun _ _ => none
  checkpointFails := none
  watermarkFails := none
  now := "2026-01-01T00:00:00.000Z"
  cutoff := "2025-12-31T23:45:00.000Z"

theorem honest_sampleCycle (votes : List (ChainEvent (String ⊕ Nat))) (h : votes.length ≤ EVENTS_PAGE_LIMIT) :
    HonestCycle (fun _ event => event ∈ votes) ["CVOTE"] sampleState (.cycle (sampleCycle votes h)) := by
  intro currentLedger _ _ contractId _
  constructor
  · intro page hpage event hevent
    cases List.mem_singleton.mp hpage
    exact hevent
  · intro _ event hevent _ _
    exact ⟨_, List.mem_singleton_self _, hevent⟩

def oneVote : List (ChainEvent (String ⊕ Nat)) := [sampleVote "1"]

def twoVotes : List (ChainEvent (String ⊕ Nat)) := [sampleVote "1", sampleVote "2"]

theorem oneVote_length : oneVote.length ≤ EVENTS_PAGE_LIMIT := by decide

def afterOne : State := step sampleSdk ["CVOTE"] sampleState (.cycle (sampleCycle oneVote (by decide)))

def afterTwo : State := step sampleSdk ["CVOTE"] sampleState (.cycle (sampleCycle twoVotes (by decide)))

theorem watermark_complete_of_one_vote :
    Complete sampleSdk (fun _ event => event ∈ oneVote) ["CVOTE"] 0 afterOne.db := by
  have hstart : sampleState.lastLedger = sampleState.db.lastLedger.getD 0 := rfl
  have hrun : Run sampleSdk ["CVOTE"] sampleState
      [(sampleState, .cycle (sampleCycle oneVote (by decide)))] afterOne := .call .start rfl
  refine watermark_complete hstart ?_ ?_ ?_ ?_ hrun
  · intro dao row hrow
    cases hrow
  · rintro event other dao type ⟨_, _, hevent⟩ ⟨_, _, hother⟩ _ _ _ _ _
    rw [List.mem_singleton.mp hevent, List.mem_singleton.mp hother]
  · intro e he
    cases List.mem_singleton.mp he
    exact honest_sampleCycle _ _
  · intro e he
    cases List.mem_singleton.mp he
    intro currentLedger hcurrent _ contractId _
    cases hcurrent
    refine ⟨⟨List.pairwise_singleton _ _, fun _ => ⟨rfl, by simp⟩, fun _ => trivial⟩, ?_⟩
    rintro message (hending | ⟨page, hpage, event, hevent, ⟨parsed, daoId, hparse, hdao, hrow⟩ | hfault | hfault⟩)
    · cases hending
    · cases List.mem_singleton.mp hpage
      cases List.mem_singleton.mp hevent
      cases hparse
      cases hdao
      have hok : Except.isOk _ = false := congrArg Except.isOk hrow
      exact absurd hok (by decide +kernel)
    · cases hfault
    · cases hfault

/-- Two votes of one transaction come to one row. -/
theorem two_votes_one_row :
    ∃ log s, Run sampleSdk ["CVOTE"] sampleState log s ∧
      (∀ e ∈ log, HonestCycle (fun _ event => event ∈ twoVotes) ["CVOTE"] e.1 e.2) ∧
      ¬ Complete sampleSdk (fun _ event => event ∈ twoVotes) ["CVOTE"] 0 s.db := by
  refine ⟨[(sampleState, .cycle (sampleCycle twoVotes (by decide)))], afterTwo, .call .start rfl, ?_, ?_⟩
  · intro e he
    cases List.mem_singleton.mp he
    exact honest_sampleCycle _ _
  · rintro ⟨rowOf, hcomplete⟩
    have hone : ∀ row ∈ (afterTwo.db.partitions 1).rows, row.id = 1 := by decide +kernel
    have hmark : afterTwo.db.lastLedger.getD 0 = 7 := by decide +kernel
    have hindexed : ∀ id, Indexed sampleSdk (sampleVote id) 1 "vote_cast" := by
      intro id
      refine ⟨.inl "VoteEvent", .inr 1, [.inr 1], "VoteEvent", some 1, rfl, rfl, ?_, ?_, rfl, ?_⟩
      all_goals decide +kernel
    have hemitted : ∀ event ∈ twoVotes, Emitted (fun _ event => event ∈ twoVotes) ["CVOTE"] event :=
      fun event hevent => ⟨"CVOTE", List.mem_singleton_self _, hevent⟩
    have hfirst := hemitted (sampleVote "1") (by simp [twoVotes])
    have hsecond := hemitted (sampleVote "2") (by simp [twoVotes])
    have hin : ∀ id, 0 < (sampleVote id).ledger ∧ (sampleVote id).ledger ≤ afterTwo.db.lastLedger.getD 0 := by
      intro id
      rw [hmark]
      simp [sampleVote]
    obtain ⟨⟨row, hrow, hid, -⟩, honly⟩ := hcomplete _ 1 _ hfirst (hindexed "1") (hin "1").1 (hin "1").2
    obtain ⟨⟨row', hrow', hid', -⟩, -⟩ := hcomplete _ 1 _ hsecond (hindexed "2") (hin "2").1 (hin "2").2
    have hsame : rowOf (sampleVote "2") = rowOf (sampleVote "1") := by
      rw [← hid, ← hid', hone row hrow, hone row' hrow']
    have heq := honly _ _ hsecond (hindexed "2") (hin "2").1 (hin "2").2 hsame
    exact absurd (congrArg ChainEvent.id heq) (by decide)

end ZkVote.Indexer

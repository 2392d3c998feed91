import Mathlib.Data.List.Nodup
import Mathlib.Data.List.Perm.Basic
import Mathlib.Data.Prod.Lex
import Mathlib.Data.String.Basic
import ZkVote.Backend.Indexer
import ZkVote.Lib.Paging

/-!
# Pages of events

`GET /events/:daoId` and `getEventsForDao` of `db.ts`. The rows of a page are those with a cursor field above that of the
last row before it, whatever column they are ordered by and in whatever direction.
-/

open Lib.Keyset

namespace ZkVote.Events

/-! ## Values of the database -/

inductive SqlValue where
  | null
  | integer (n : Int)
  | text (s : String)
deriving DecidableEq

/-- NULL before numbers before texts. -/
def SqlValue.rank : SqlValue → ℕ ×ₗ ℤ ×ₗ String
  | .null => toLex (0, toLex (0, ""))
  | .integer n => toLex (1, toLex (n, ""))
  | .text s => toLex (2, toLex (0, s))

theorem SqlValue.rank_injective : Function.Injective SqlValue.rank := by
  intro a b h
  cases a with
  | null | integer | text => cases b with
    | null | integer | text => simp_all [SqlValue.rank]

instance : LinearOrder SqlValue := LinearOrder.lift' SqlValue.rank SqlValue.rank_injective

/-- `value > key`, which is not so of a NULL. -/
def SqlValue.above (key value : SqlValue) : Bool := key ≠ .null ∧ key < value

/-! ## The partition -/

structure EventRow (Data : Type) where
  id : Int
  type : String
  /-- What `JSON.parse` makes of the column. -/
  data : Option Data
  ledger : Option Int
  tx_hash : Option String
  timestamp : String
  verified : Bool
  created_at : Option String

/-- A DAO's table, whose ids are a primary key. -/
structure EventPartition (Data : Type) where
  rows : List (EventRow Data)
  ids : (rows.map EventRow.id).Nodup

structure DaoId where
  value : Nat
  valid : 1 ≤ value ∧ value ≤ 999999

inductive OrderColumn where
  | id | timestamp | ledger | type | verified | created_at
deriving DecidableEq

inductive SortDirection where
  | asc | desc
deriving DecidableEq

inductive CursorField where
  | id | ledger | timestamp
deriving DecidableEq

def integerOrNull : Option Int → SqlValue
  | none => .null
  | some n => .integer n

def textOrNull : Option String → SqlValue
  | none => .null
  | some s => .text s

section
variable {Data : Type}

def EventRow.column (row : EventRow Data) : OrderColumn → SqlValue
  | .id => .integer row.id
  | .timestamp => .text row.timestamp
  | .ledger => integerOrNull row.ledger
  | .type => .text row.type
  | .verified => .integer (if row.verified = true then 1 else 0)
  | .created_at => textOrNull row.created_at

def CursorField.column : CursorField → OrderColumn
  | .id => .id
  | .ledger => .ledger
  | .timestamp => .timestamp

/-- `ORDER BY column direction, ledger DESC`. -/
def ordered (column : OrderColumn) (direction : SortDirection) (a b : EventRow Data) : Bool :=
  if a.column column = b.column column then b.column .ledger ≤ a.column .ledger
  else
    match direction with
    | .asc => a.column column ≤ b.column column
    | .desc => b.column column ≤ a.column column

/-! ## The query -/

/-- The payload of a cursor, of which the text that travels is the base64 of the JSON. -/
structure Cursor where
  field : CursorField
  value : SqlValue

structure EventQueryOptions where
  limit : Nat
  offset : Nat
  types : Option (List String)
  verifiedOnly : Bool
  orderBy : OrderColumn
  orderDirection : SortDirection
  cursor : Option Cursor
  cursorField : CursorField

structure Event (Data : Type) extends EventRow Data where
  dao_id : Nat

def rowToEvent (daoId : Nat) (row : EventRow Data) : Event Data := { row with dao_id := daoId }

structure EventQueryResult (Data : Type) where
  events : List (Event Data)
  total : Nat
  daoId : Nat

def validateEventTypes (types : List String) : Except String (List String) :=
  let invalid := types.filter fun type => ¬ type ∈ Indexer.ALLOWED_EVENT_TYPES
  let names := ", ".intercalate invalid
  if invalid.length > 0 then .error s!"Invalid event types: {names}" else .ok types

/-- An empty list of types filters nothing. -/
def validatedTypes : Option (List String) → Except String (Option (List String))
  | some (type :: types) => (validateEventTypes (type :: types)).map some
  | _ => .ok none

/-- The rows of the filters on types and verification. -/
def matching (rows : List (EventRow Data)) (types : Option (List String)) (verifiedOnly : Bool) : List (EventRow Data) :=
  let typed := match types with
    | none => rows
    | some types => rows.filter fun row => row.type ∈ types
  if verifiedOnly = true then typed.filter EventRow.verified else typed

/-- `arrange` is how the database sorts the rows of this query. -/
def getEventsForDao (arrange : List (EventRow Data) → List (EventRow Data)) (daoId : DaoId)
    (partition : Option (EventPartition Data)) (options : EventQueryOptions) : Except String (EventQueryResult Data) := do
  let types ← validatedTypes options.types
  let validLimit := max 1 (min options.limit 1000)
  match partition with
  | none => return ⟨[], 0, daoId.value⟩
  | some partition =>
    let rows := matching partition.rows types options.verifiedOnly
    let events ← match options.cursor with
      | none => .ok ((arrange rows).drop options.offset)
      | some cursor =>
        if cursor.field = options.cursorField then
          .ok (arrange (rows.filter fun row => cursor.value.above (row.column options.cursorField.column)))
        else .error "Provided value cannot be bound to SQLite parameter 1."
    return ⟨(events.take validLimit).map (rowToEvent daoId.value), rows.length, daoId.value⟩

/-! ## The route -/

/-- What `eventsQuerySchema` accepts, apart from the cursor. -/
structure EventsQuery where
  limit : Nat
  limit_pos : 1 ≤ limit
  limit_le : limit ≤ 500
  types : Option (List String)
  orderBy : OrderColumn
  orderDirection : SortDirection
  cursorField : CursorField

def encodeCursor (event : Event Data) (cursorField : CursorField) : Cursor :=
  match cursorField with
  | .ledger => ⟨.ledger, integerOrNull event.ledger⟩
  | .timestamp => ⟨.timestamp, .text event.timestamp⟩
  | .id => ⟨.id, .integer event.id⟩

def EventsQuery.options (q : EventsQuery) (cursor : Option Cursor) : EventQueryOptions where
  limit := q.limit
  offset := 0
  types := q.types
  verifiedOnly := false
  orderBy := q.orderBy
  orderDirection := q.orderDirection
  cursor := cursor
  cursorField := q.cursorField

/-- The answer of `GET /events/:daoId`; `none` is a failure with status 500. -/
def getEvents (daoId : DaoId) (partition : Option (EventPartition Data)) (q : EventsQuery)
    (arrange : List (EventRow Data) → List (EventRow Data)) (cursor : Option Cursor) : Option (Page Cursor (Event Data)) :=
  match getEventsForDao arrange daoId partition (q.options cursor) with
  | .error _ => none
  | .ok result =>
    let hasMore := decide (result.events.length = q.limit ∧ result.events.length < result.total)
    some { data := result.events
           hasMore := hasMore
           cursor := if hasMore = true then result.events.getLast?.map (encodeCursor · q.cursorField) else none }

/-! ## What is promised -/

def EventsQuery.typeFilter (q : EventsQuery) : Option (List String) :=
  match q.types with
  | some (type :: types) => some (type :: types)
  | _ => none

def EventsQuery.matching (q : EventsQuery) : Option (EventPartition Data) → List (EventRow Data)
  | none => []
  | some partition => Events.matching partition.rows q.typeFilter false

/-- Whatever the database does with rows that are equal in the requested order, and however it does so from page to
page, the caller ends with every matching event once and in that order. -/
def PaginationExact (daoId : DaoId) (partition : Option (EventPartition Data)) (q : EventsQuery) : Prop :=
  ∀ engine : Nat → List (EventRow Data) → List (EventRow Data), (∀ i, Lawful (ordered q.orderBy q.orderDirection) (engine i)) → ∃ fuel events,
    follow (fun i => getEvents daoId partition q (engine i)) fuel 0 none = some events ∧
      events.Perm ((q.matching partition).map (rowToEvent daoId.value)) ∧
      events.Pairwise fun a b => ordered q.orderBy q.orderDirection a.toEventRow b.toEventRow = true

def EventsQuery.TypesAllowed (q : EventsQuery) : Prop :=
  ∀ type ∈ q.types.getD [], type ∈ Indexer.ALLOWED_EVENT_TYPES

/-- In every arrangement in the requested order, the cursor field of the row at each multiple of the limit is below that
of all rows behind it, and below that of none before it. -/
def EventsQuery.CutsSeparate (q : EventsQuery) (rows : List (EventRow Data)) : Prop :=
  ∀ sorted : List (EventRow Data), sorted.Perm rows →
    sorted.Pairwise (fun a b => ordered q.orderBy q.orderDirection a b = true) →
    ∀ i, 0 < i → i * q.limit ≤ rows.length →
      Separates (fun row => row.column q.cursorField.column) (fun key row => key.above (row.column q.cursorField.column))
        sorted (i * q.limit)

/-! ## The order -/

section
variable {column : OrderColumn} {direction : SortDirection} {a b c : EventRow Data}

/-- One value strictly before another, in a direction. -/
def SortDirection.before (x y : SqlValue) : SortDirection → Prop
  | .asc => x < y
  | .desc => y < x

theorem SortDirection.before_trans {x y z : SqlValue} (hxy : direction.before x y) (hyz : direction.before y z) :
    direction.before x z := by
  cases direction with
  | asc => exact lt_trans hxy hyz
  | desc => exact lt_trans hyz hxy

theorem ordered_iff : ordered column direction a b = true ↔
    direction.before (a.column column) (b.column column) ∨
      a.column column = b.column column ∧ b.column .ledger ≤ a.column .ledger := by
  unfold ordered
  split
  · next heq =>
    rw [decide_eq_true_iff]
    refine ⟨fun h => .inr ⟨heq, h⟩, fun h => h.elim (fun hbefore => ?_) And.right⟩
    cases direction with
    | asc | desc => exact absurd hbefore (heq ▸ lt_irrefl _)
  · next hne =>
    cases direction with
    | asc =>
      rw [decide_eq_true_iff]
      exact ⟨fun h => .inl (lt_of_le_of_ne h hne), fun h => h.elim le_of_lt fun heq => absurd heq.1 hne⟩
    | desc =>
      rw [decide_eq_true_iff]
      exact ⟨fun h => .inl (lt_of_le_of_ne h (Ne.symm hne)), fun h => h.elim le_of_lt fun heq => absurd heq.1 hne⟩

theorem ordered_total (column : OrderColumn) (direction : SortDirection) (a b : EventRow Data) :
    (ordered column direction a b || ordered column direction b a) = true := by
  rw [Bool.or_eq_true, ordered_iff, ordered_iff]
  rcases lt_trichotomy (a.column column) (b.column column) with h | h | h
  · cases direction with
    | asc => exact .inl (.inl h)
    | desc => exact .inr (.inl h)
  · rcases le_total (b.column .ledger) (a.column .ledger) with hle | hle
    · exact .inl (.inr ⟨h, hle⟩)
    · exact .inr (.inr ⟨h.symm, hle⟩)
  · cases direction with
    | asc => exact .inr (.inl h)
    | desc => exact .inl (.inl h)

theorem ordered_trans (column : OrderColumn) (direction : SortDirection) (a b c : EventRow Data)
    (hab : ordered column direction a b = true)
    (hbc : ordered column direction b c = true) : ordered column direction a c = true := by
  rw [ordered_iff] at hab hbc ⊢
  rcases hab with hab | ⟨hab, hledger⟩
  · rcases hbc with hbc | ⟨hbc, -⟩
    · exact .inl (direction.before_trans hab hbc)
    · exact .inl (hbc ▸ hab)
  · rcases hbc with hbc | ⟨hbc, hledger'⟩
    · exact .inl (hab ▸ hbc)
    · exact .inr ⟨hab.trans hbc, hledger'.trans hledger⟩

theorem above_trans (field : OrderColumn) (key : SqlValue) (a b : EventRow Data) (ha : key.above (a.column field) = true)
    (hb : (a.column field).above (b.column field) = true) : key.above (b.column field) = true := by
  unfold SqlValue.above at *
  rw [decide_eq_true_iff] at *
  exact ⟨ha.1, lt_trans ha.2 hb.2⟩

end

/-! ## The pages -/

section
variable {daoId : DaoId} {partition : Option (EventPartition Data)} {q : EventsQuery}

theorem encodeCursor_rowToEvent (row : EventRow Data) (cursorField : CursorField) :
    encodeCursor (rowToEvent daoId.value row) cursorField = ⟨cursorField, row.column cursorField.column⟩ := by
  cases cursorField with
  | id | ledger | timestamp => rfl

theorem validateEventTypes_of_allowed {types : List String} (h : ∀ type ∈ types, type ∈ Indexer.ALLOWED_EVENT_TYPES) :
    validateEventTypes types = .ok types := by
  refine if_neg fun hpos => ?_
  obtain ⟨type, hmem⟩ := List.exists_mem_of_length_pos hpos
  obtain ⟨htype, hunknown⟩ := List.mem_filter.mp hmem
  exact of_decide_eq_true hunknown (h type htype)

theorem validatedTypes_of_allowed (h : q.TypesAllowed) : validatedTypes q.types = .ok q.typeFilter := by
  unfold EventsQuery.typeFilter
  unfold EventsQuery.TypesAllowed at h
  cases htypes : q.types with
  | none => rfl
  | some types =>
    rw [htypes] at h
    cases types with
    | nil => rfl
    | cons type types => exact congrArg (Except.map some) (validateEventTypes_of_allowed h)

theorem validatedTypes_of_unknown (h : ¬ q.TypesAllowed) : ∃ message, validatedTypes q.types = .error message := by
  unfold EventsQuery.TypesAllowed at h
  push Not at h
  obtain ⟨type, htype, hunknown⟩ := h
  cases htypes : q.types with
  | none =>
    rw [htypes] at htype
    exact absurd htype List.not_mem_nil
  | some types =>
    rw [htypes] at htype
    have hmem : type ∈ types.filter fun type => ¬ type ∈ Indexer.ALLOWED_EVENT_TYPES :=
      List.mem_filter.mpr ⟨htype, decide_eq_true hunknown⟩
    obtain ⟨first, rest, rfl⟩ := List.exists_cons_of_ne_nil (List.ne_nil_of_mem htype)
    unfold validatedTypes validateEventTypes
    dsimp only
    rw [if_pos (List.length_pos_of_mem hmem)]
    exact ⟨_, rfl⟩

/-- A request is answered with the next rows of the keyset. -/
theorem getEvents_eq (hallowed : q.TypesAllowed) {arrange : List (EventRow Data) → List (EventRow Data)}
    (hlawful : Lawful (ordered q.orderBy q.orderDirection) arrange) (key : Option SqlValue) :
    getEvents daoId partition q arrange (key.map (Cursor.mk q.cursorField)) =
      some ((keysetPage (fun row => row.column q.cursorField.column)
        (fun key row => key.above (row.column q.cursorField.column)) q.limit (q.matching partition) arrange key).map
          (rowToEvent daoId.value) (Cursor.mk q.cursorField)) := by
  have hlimit : max 1 (min q.limit 1000) = q.limit := by
    have hpos := q.limit_pos
    have hle := q.limit_le
    omega
  have hresult : getEventsForDao arrange daoId partition (q.options (key.map (Cursor.mk q.cursorField))) =
      .ok ⟨((arrange (select (fun key row => key.above (row.column q.cursorField.column)) (q.matching partition) key)).take
        q.limit).map (rowToEvent daoId.value), (q.matching partition).length, daoId.value⟩ := by
    unfold getEventsForDao EventsQuery.options
    dsimp only
    rw [validatedTypes_of_allowed hallowed, hlimit]
    cases partition with
    | none =>
      have hnil : arrange (select (fun key row => key.above (row.column q.cursorField.column)) [] key) = [] := by
        have hselect : select (fun key (row : EventRow Data) => key.above (row.column q.cursorField.column)) [] key = [] := by
          cases key with
          | none | some => rfl
        rw [hselect]
        exact List.perm_nil.mp (hlawful []).1
      change Except.ok _ = Except.ok (EventQueryResult.mk (((arrange (select _ [] key)).take q.limit).map _) 0 daoId.value)
      rw [hnil, List.take_nil]
      rfl
    | some partition =>
      cases key with
      | none => rfl
      | some key =>
        exact if_pos rfl
  have hlast : ∀ rows : List (EventRow Data), (rows.map (rowToEvent daoId.value)).getLast?.map
      (encodeCursor · q.cursorField) =
        (rows.getLast?.map fun row => row.column q.cursorField.column).map (Cursor.mk q.cursorField) := by
    intro rows
    rw [List.getLast?_map, Option.map_map, Option.map_map]
    exact congrArg (Option.map · rows.getLast?) (funext fun row => encodeCursor_rowToEvent row q.cursorField)
  unfold getEvents
  rw [hresult]
  unfold keysetPage Page.map
  dsimp only
  rw [List.length_map, hlast]
  split
  all_goals rfl

/-- Following the route's pages is following the keyset's, with the rows dressed up as events. -/
theorem paginationExact_iff (hallowed : q.TypesAllowed) : PaginationExact daoId partition q ↔
    Exact (fun row => row.column q.cursorField.column) (fun key row => key.above (row.column q.cursorField.column))
      q.limit (q.matching partition) (ordered q.orderBy q.orderDirection) := by
  have hfollow : ∀ {engine : Nat → List (EventRow Data) → List (EventRow Data)},
      (∀ i, Lawful (ordered q.orderBy q.orderDirection) (engine i)) → ∀ fuel,
      follow (fun i => getEvents daoId partition q (engine i)) fuel 0 none =
        (follow (keysetRequest (fun row => row.column q.cursorField.column)
          (fun key row => key.above (row.column q.cursorField.column)) q.limit (q.matching partition) engine) fuel 0
            none).map (List.map (rowToEvent daoId.value)) := by
    intro engine hlawful fuel
    exact follow_map (fun i key => getEvents_eq hallowed (hlawful i) key) fuel 0 none
  have hinjective : Function.Injective (rowToEvent daoId.value : EventRow Data → Event Data) := fun _ _ h =>
    congrArg Event.toEventRow h
  constructor
  · intro h engine hlawful
    obtain ⟨fuel, events, hevents, hperm, hsorted⟩ := h engine hlawful
    rw [hfollow hlawful] at hevents
    obtain ⟨rows, hrows, rfl⟩ := Option.map_eq_some_iff.mp hevents
    exact ⟨fuel, rows, hrows, (List.map_perm_map_iff hinjective).mp hperm, List.pairwise_map.mp hsorted⟩
  · intro h engine hlawful
    obtain ⟨fuel, rows, hrows, hperm, hsorted⟩ := h engine hlawful
    refine ⟨fuel, rows.map (rowToEvent daoId.value), ?_, hperm.map _, List.pairwise_map.mpr hsorted⟩
    rw [hfollow hlawful, hrows]
    rfl

/-- A type that is not known is refused, and no page comes. -/
theorem not_paginationExact_of_unknown (h : ¬ q.TypesAllowed) : ¬ PaginationExact daoId partition q := by
  intro hexact
  obtain ⟨message, hmessage⟩ := validatedTypes_of_unknown h
  have hlawful : Lawful (ordered q.orderBy q.orderDirection) fun rows : List (EventRow Data) =>
      rows.mergeSort (ordered q.orderBy q.orderDirection) := fun rows =>
    ⟨List.mergeSort_perm rows _, List.pairwise_mergeSort (ordered_trans _ _) (ordered_total _ _) rows⟩
  obtain ⟨fuel, events, hevents, -⟩ := hexact (fun _ rows => rows.mergeSort (ordered q.orderBy q.orderDirection))
    fun _ => hlawful
  have hnone : ∀ cursor, getEvents daoId partition q
      (fun rows => rows.mergeSort (ordered q.orderBy q.orderDirection)) cursor = none := by
    intro cursor
    unfold getEvents getEventsForDao EventsQuery.options
    dsimp only
    rw [hmessage]
    rfl
  cases fuel with
  | zero => cases hevents
  | succ fuel =>
    unfold follow at hevents
    rw [hnone] at hevents
    cases hevents

theorem nodup_matching : (q.matching partition).Nodup := by
  cases partition with
  | none => exact List.nodup_nil
  | some partition =>
    have hrows : partition.rows.Nodup := List.Nodup.of_map _ partition.ids
    change (match q.typeFilter with
      | none => partition.rows
      | some types => partition.rows.filter fun row => row.type ∈ types).Nodup
    split
    · exact hrows
    · exact hrows.filter _

end

/-- The pages of a DAO's events are exact exactly when all types asked for are known, and one page holds all events or
every full page is cut where the cursor field is. -/
theorem pagination_exactly (daoId : DaoId) (partition : Option (EventPartition Data)) (q : EventsQuery) :
    PaginationExact daoId partition q ↔ q.TypesAllowed ∧
      ((q.matching partition).length ≤ q.limit ∨ q.CutsSeparate (q.matching partition)) := by
  by_cases hallowed : q.TypesAllowed
  · have hiff : Exact (fun row : EventRow Data => row.column q.cursorField.column)
        (fun key row => key.above (row.column q.cursorField.column)) q.limit (q.matching partition)
          (ordered q.orderBy q.orderDirection) ↔
        (q.matching partition).length ≤ q.limit ∨ q.CutsSeparate (q.matching partition) :=
      exact_iff q.limit_pos nodup_matching (ordered_total _ _) (ordered_trans _ _) (above_trans _)
    rw [paginationExact_iff hallowed, hiff]
    exact ⟨fun h => ⟨hallowed, h⟩, fun h => h.2⟩
  · exact iff_of_false (not_paginationExact_of_unknown hallowed) fun h => hallowed h.1

end

/-! ## The default query, one event a page -/

def sampleRow (id : Int) (timestamp : String) : EventRow Unit :=
  ⟨id, "vote_cast", none, some id, none, timestamp, true, none⟩

def samplePartition : EventPartition Unit where
  rows := [sampleRow 1 "2026-01-01T00:00:00.000Z", sampleRow 2 "2026-01-02T00:00:00.000Z"]
  ids := by decide

def newestFirst : EventsQuery := ⟨1, by decide, by decide, none, .timestamp, .desc, .id⟩

/-- The newest event has the greatest id, so the second page is empty. -/
theorem pagination_loses_events : ¬ PaginationExact ⟨1, by decide⟩ (some samplePartition) newestFirst := by
  intro hexact
  have hallowed : newestFirst.TypesAllowed := fun _ h => absurd h List.not_mem_nil
  have hsorted : [sampleRow 2 "2026-01-02T00:00:00.000Z", sampleRow 1 "2026-01-01T00:00:00.000Z"].Pairwise
      fun a b => ordered newestFirst.orderBy newestFirst.orderDirection a b = true := by
    decide
  have hmore : newestFirst.limit < (newestFirst.matching (some samplePartition)).length := by decide
  have hcut : 1 * newestFirst.limit ≤ (newestFirst.matching (some samplePartition)).length := by decide
  have hseparates := separates_of_exact newestFirst.limit_pos hmore nodup_matching (ordered_total _ _)
    (ordered_trans _ _) (above_trans newestFirst.cursorField.column) ((paginationExact_iff hallowed).mp hexact)
    (List.Perm.swap _ _ _) hsorted (Nat.le_refl 1) hcut
  exact absurd ((hseparates _ rfl).2 _ List.mem_cons_self) (by decide)

end ZkVote.Events

import ZkVote.Lib.JsonText

/-!
# Replay of the relay pipeline

`replay.ts`: the canonical encoding, redaction, the reducer, the recorder, and the fixtures it writes. An assignment
to the key `__proto__` sets the prototype of an object, which is read through but not printed.
-/

open Lib.JsonText

namespace ZkVote.Replay

variable {ν : Type}

/-- What the module uses of the language and the platform. -/
structure Platform (ν : Type) extends Numbers ν where
  ofNat : Nat → ν
  /-- `a - b` is not positive. -/
  le : ν → ν → Bool
  /-- Hexadecimal digests, the second of them with `REDACTION_SALT` before the text. -/
  sha256 : Text → Text
  saltedSha256 : Text → Text
  /-- `String` of an object that inherits from an array. -/
  arrayLike : Value ν → Option Text

variable (platform : Platform ν)

/-! ## Canonical serialisation -/

/-- `a < b ? -1 : a > b ? 1 : 0`. -/
def byKey {α : Type} (a b : Text × α) : Bool := !decide (b.1 < a.1)

mutual

/-- The entries are sorted after their values are encoded, by their keys still. -/
def canonicalJson : Value ν → Text
  | .null => units "null"
  | .bool b => if b then units "true" else units "false"
  | .num n => if platform.isFinite n then platform.text n else units "null"
  | .str t => quote t
  | .arr items => openBracket :: ([comma].intercalate (canonicalItems items) ++ [closeBracket])
  | .obj _ entries =>
    openBrace :: ([comma].intercalate (((canonicalEntries entries).mergeSort byKey).map memberText) ++ [closeBrace])

def canonicalItems : List (Value ν) → List Text
  | [] => []
  | v :: items => canonicalJson v :: canonicalItems items

def canonicalEntries : List (Text × Value ν) → List (Text × Text)
  | [] => []
  | (key, v) :: entries => (key, canonicalJson v) :: canonicalEntries entries

end

def digestState (v : Value ν) : Text := platform.sha256 (canonicalJson platform v)

/-! ## Redaction -/

def SENSITIVE_PAYLOAD_KEYS : List Text :=
  ["nullifier", "proof", "root", "commitment", "alias", "ciphertext", "plaintext", "creator", "admin", "address",
    "ip"].map units

/-- None of the keys has a letter that a letter other than A to Z is turned into. -/
def toLowerCase (t : Text) : Text := t.map fun u => if 0x41 ≤ u ∧ u ≤ 0x5A then u + 0x20 else u

def isSensitive (key : Text) : Bool := toLowerCase key ∈ SENSITIVE_PAYLOAD_KEYS

def digestValue (value : Text) : Text := (platform.saltedSha256 value).take 16

/-- What stands under a sensitive key. -/
def mask (digest : Text → Text) : Value ν → Value ν
  | .str value => .str (units "sha256:" ++ digest value)
  | _ => .str (units "[redacted]")

/-- The prototype and the own entries of an object that is being built, and its assignment `out[key] = v`. -/
def assign (out : Option (Value ν) × List (Text × Value ν)) (entry : Text × Value ν) :
    Option (Value ν) × List (Text × Value ν) :=
  if entry.1 = units "__proto__" then
    match entry.2 with
    | .null | .arr _ | .obj _ _ => (some entry.2, out.2)
    | _ => out
  else (out.1, out.2 ++ [entry])

def build (assignments : List (Text × Value ν)) : Value ν :=
  let out := assignments.foldl assign (none, [])
  .obj out.1 out.2

/-- The keys of an array. -/
def indexKey (i : Nat) : Text := units (toString i)

mutual

/-- What a value becomes under a key that is not sensitive. -/
def redactValue (digest : Text → Text) : Value ν → Value ν
  | .obj _ entries => build (redactEntries digest entries)
  | .arr items => .arr (redactItems digest items)
  | v => v

def redactEntries (digest : Text → Text) : List (Text × Value ν) → List (Text × Value ν)
  | [] => []
  | (key, v) :: entries =>
    (key, if isSensitive key then mask digest v else redactValue digest v) :: redactEntries digest entries

/-- An array inside an array becomes an object. -/
def redactItems (digest : Text → Text) : List (Value ν) → List (Value ν)
  | [] => []
  | .arr items :: rest => build (redactIndexed digest 0 items) :: redactItems digest rest
  | v :: rest => redactValue digest v :: redactItems digest rest

/-- The keys are not sensitive. -/
def redactIndexed (digest : Text → Text) (i : Nat) : List (Value ν) → List (Text × Value ν)
  | [] => []
  | v :: items => (indexKey i, redactValue digest v) :: redactIndexed digest (i + 1) items

end

def redactInteractionPayload (digest : Text → Text) (payload : List (Text × Value ν)) : Value ν :=
  build (redactEntries digest payload)

/-! ## The reducer -/

inductive InteractionKind where
  | rpc | db | cycle
  deriving DecidableEq, Repr

def InteractionKind.name : InteractionKind → Text
  | .rpc => units "rpc"
  | .db => units "db"
  | .cycle => units "cycle"

structure RelayInteraction (ν : Type) where
  seq : ν
  kind : InteractionKind
  label : Text
  traceId : Text
  spanId : Text
  payload : Value ν

structure ReplayEventRecord (ν : Type) where
  daoId : ν
  type : Text
  ledger : ν
  txHash : Option Text
  timestamp : Text

structure ReplayState (ν : Type) where
  latestLedger : ν
  watermarkLedger : ν
  events : List (ReplayEventRecord ν)

def emptyReplayState : ReplayState ν where
  latestLedger := platform.ofNat 0
  watermarkLedger := platform.ofNat 0
  events := []

def eventKey (event : ReplayEventRecord ν) : Text :=
  platform.text event.daoId ++ units "|" ++ platform.text event.ledger ++ units "|" ++ event.txHash.getD [] ++
    units "|" ++ event.type

/-- What `payload[key]` is, for keys that neither an array nor `Object.prototype` has. -/
def get (key : Text) : Value ν → Option (Value ν)
  | .obj proto entries =>
    match entries.lookup key with
    | some v => some v
    | none =>
      match proto with
      | some v => get key v
      | none => none
  | _ => none

/-- `typeof value === "string" ? value : null`. -/
def textAt (key : Text) (v : Value ν) : Option Text :=
  match get key v with
  | some (.str t) => some t
  | _ => none

def asNumber : Option (Value ν) → ν
  | some (.num n) => if platform.isFinite n then n else platform.ofNat 0
  | _ => platform.ofNat 0

/-- The `toString` that an object has: that of `Object.prototype` or of `Array.prototype`, or none to call. -/
inductive Method where
  | ordinary | array | missing
  deriving DecidableEq

def toStringMethod : Value ν → Method
  | .obj proto entries =>
    if (entries.lookup (units "toString")).isSome then .missing
    else
      match proto with
      | some v => toStringMethod v
      | none => .ordinary
  | .arr _ => .array
  | _ => .missing

mutual

/-- `String(value)`; `none` where it throws. -/
def toText : Value ν → Option Text
  | .null => some (units "null")
  | .bool b => some (if b then units "true" else units "false")
  | .num n => some (platform.text n)
  | .str t => some t
  | .arr items => (joined items).map [comma].intercalate
  | .obj proto entries =>
    match toStringMethod (.obj proto entries) with
    | .ordinary => some (units "[object Object]")
    | .array => platform.arrayLike (.obj proto entries)
    | .missing => none

def joined : List (Value ν) → Option (List Text)
  | [] => some []
  | .null :: items => (joined items).map ([] :: ·)
  | v :: items =>
    match toText v, joined items with
    | some t, some ts => some (t :: ts)
    | _, _ => none

end

/-- `String(value ?? fallback)`. -/
def textOr (fallback : Text) : Option (Value ν) → Option Text
  | none | some .null => some fallback
  | some v => toText platform v

def replayEvent (payload : Value ν) : Option (ReplayEventRecord ν) :=
  match textOr platform (units "unknown") (get (units "type") payload),
    textOr platform [] (get (units "timestamp") payload) with
  | some type, some timestamp =>
    some
      { daoId := asNumber platform (get (units "daoId") payload)
        type := type
        ledger := asNumber platform (get (units "ledger") payload)
        txHash := textAt (units "txHash") payload
        timestamp := timestamp }
  | _, _ => none

/-- `none` where it throws. -/
def applyInteraction (state : ReplayState ν) (interaction : RelayInteraction ν) : Option (ReplayState ν) :=
  if interaction.label = units "rpc.getLatestLedger" then
    some { state with latestLedger := asNumber platform (get (units "sequence") interaction.payload) }
  else if interaction.label = units "db.addEvent" then
    (replayEvent platform interaction.payload).map fun event =>
      if state.events.any fun existing => eventKey platform existing = eventKey platform event then state
      else { state with events := state.events ++ [event] }
  else if interaction.label = units "db.setWatermark" then
    some { state with watermarkLedger := asNumber platform (get (units "ledger") interaction.payload) }
  else some state

def normaliseState (state : ReplayState ν) : ReplayState ν :=
  { state with
    events := state.events.mergeSort fun a b => byKey (eventKey platform a, ()) (eventKey platform b, ()) }

/-! ## The recorder -/

structure RelayReplayFixture (ν : Type) where
  traceId : Text
  pipeline : Text
  interactions : List (RelayInteraction ν)
  finalState : ReplayState ν
  digest : Text

structure RelayReplayRecorder (ν : Type) where
  traceId : Text
  pipeline : Text
  interactions : List (RelayInteraction ν)
  state : ReplayState ν
  seq : Nat

def newRecorder (traceId pipeline : Text) : RelayReplayRecorder ν where
  traceId := traceId
  pipeline := pipeline
  interactions := []
  state := emptyReplayState platform
  seq := 0

/-- What `record` is given. -/
structure Recorded (ν : Type) where
  kind : InteractionKind
  label : Text
  payload : List (Text × Value ν)
  spanId : Text

inductive Thrown where
  | typeError | rangeError
  deriving DecidableEq, Repr

def MAX_ARRAY_LENGTH : Nat := 2 ^ 32 - 1

def RelayReplayRecorder.interaction (redact : List (Text × Value ν) → Value ν) (recorder : RelayReplayRecorder ν)
    (recorded : Recorded ν) : RelayInteraction ν where
  seq := platform.ofNat recorder.seq
  kind := recorded.kind
  label := recorded.label
  traceId := recorder.traceId
  spanId := recorded.spanId
  payload := redact recorded.payload

/-- An interaction on which the reducer throws has been pushed by then. -/
def RelayReplayRecorder.record (redact : List (Text × Value ν) → Value ν) (recorder : RelayReplayRecorder ν)
    (recorded : Recorded ν) : RelayReplayRecorder ν × Except Thrown Unit :=
  let interaction := recorder.interaction platform redact recorded
  if MAX_ARRAY_LENGTH ≤ recorder.interactions.length then
    ({ recorder with seq := recorder.seq + 1 }, .error .rangeError)
  else
    let pushed :=
      { recorder with seq := recorder.seq + 1, interactions := recorder.interactions ++ [interaction] }
    match applyInteraction platform recorder.state interaction with
    | none => (pushed, .error .typeError)
    | some state => ({ pushed with state := state }, .ok ())

/-- The recorder after a sequence of interactions, whatever is thrown on the way. -/
def recordAll (redact : List (Text × Value ν) → Value ν) (recorder : RelayReplayRecorder ν)
    (sequence : List (Recorded ν)) : RelayReplayRecorder ν :=
  sequence.foldl (fun recorder recorded => (recorder.record platform redact recorded).1) recorder

/-! ## Fixtures as values -/

def ReplayEventRecord.toValue (event : ReplayEventRecord ν) : Value ν :=
  .obj none
    [(units "daoId", .num event.daoId), (units "type", .str event.type), (units "ledger", .num event.ledger),
      (units "txHash", match event.txHash with
        | some t => .str t
        | none => .null),
      (units "timestamp", .str event.timestamp)]

def ReplayState.toValue (state : ReplayState ν) : Value ν :=
  .obj none
    [(units "latestLedger", .num state.latestLedger), (units "watermarkLedger", .num state.watermarkLedger),
      (units "events", .arr (state.events.map ReplayEventRecord.toValue))]

def RelayInteraction.toValue (interaction : RelayInteraction ν) : Value ν :=
  .obj none
    [(units "seq", .num interaction.seq), (units "kind", .str interaction.kind.name),
      (units "label", .str interaction.label), (units "traceId", .str interaction.traceId),
      (units "spanId", .str interaction.spanId), (units "payload", interaction.payload)]

def RelayReplayRecorder.toFixture (recorder : RelayReplayRecorder ν) : RelayReplayFixture ν where
  traceId := recorder.traceId
  pipeline := recorder.pipeline
  interactions := recorder.interactions
  finalState := normaliseState platform recorder.state
  digest := digestState platform (normaliseState platform recorder.state).toValue

/-- With the version, which is always 1. -/
def RelayReplayFixture.toValue (fixture : RelayReplayFixture ν) : Value ν :=
  .obj none
    [(units "version", .num (platform.ofNat 1)), (units "traceId", .str fixture.traceId),
      (units "pipeline", .str fixture.pipeline),
      (units "interactions", .arr (fixture.interactions.map RelayInteraction.toValue)),
      (units "finalState", fixture.finalState.toValue), (units "digest", .str fixture.digest)]

/-! ## Replay -/

structure ReplayResult (ν : Type) where
  state : ReplayState ν
  digest : Text
  «matches» : Bool

/-- `none` where the reducer throws. -/
def replayFixture (fixture : RelayReplayFixture ν) : Option (ReplayResult ν) :=
  let sorted := fixture.interactions.mergeSort fun a b => platform.le a.seq b.seq
  (sorted.foldlM (applyInteraction platform) (emptyReplayState platform)).map fun state =>
    let normalised := normaliseState platform state
    let digest := digestState platform normalised.toValue
    { state := normalised, digest := digest, «matches» := digest = fixture.digest }

/-! ## Fixtures in files -/

/-- What is read back from the file. -/
def writeFixture (fixture : RelayReplayFixture ν) : Text :=
  toWellFormed (canonicalJson platform (fixture.toValue platform) ++ [0x0A])

def numberAt (key : Text) (v : Value ν) : Option ν :=
  match get key v with
  | some (.num n) => some n
  | _ => none

def itemsAt (key : Text) (v : Value ν) : Option (List (Value ν)) :=
  match get key v with
  | some (.arr items) => some items
  | _ => none

def objectAt (key : Text) (v : Value ν) : Option (Value ν) :=
  match get key v with
  | some (.obj proto entries) => some (.obj proto entries)
  | _ => none

def InteractionKind.ofName (name : Text) : Option InteractionKind :=
  [InteractionKind.rpc, .db, .cycle].find? fun kind => kind.name = name

def ReplayEventRecord.ofValue (v : Value ν) : Option (ReplayEventRecord ν) := do
  let daoId ← numberAt (units "daoId") v
  let type ← textAt (units "type") v
  let ledger ← numberAt (units "ledger") v
  let txHash ← match get (units "txHash") v with
    | some (.str t) => some (some t)
    | some .null => some none
    | _ => none
  let timestamp ← textAt (units "timestamp") v
  some { daoId := daoId, type := type, ledger := ledger, txHash := txHash, timestamp := timestamp }

def ReplayState.ofValue (v : Value ν) : Option (ReplayState ν) := do
  let latestLedger ← numberAt (units "latestLedger") v
  let watermarkLedger ← numberAt (units "watermarkLedger") v
  let items ← itemsAt (units "events") v
  let events ← items.mapM ReplayEventRecord.ofValue
  some { latestLedger := latestLedger, watermarkLedger := watermarkLedger, events := events }

def RelayInteraction.ofValue (v : Value ν) : Option (RelayInteraction ν) := do
  let seq ← numberAt (units "seq") v
  let kind ← (textAt (units "kind") v).bind InteractionKind.ofName
  let label ← textAt (units "label") v
  let traceId ← textAt (units "traceId") v
  let spanId ← textAt (units "spanId") v
  let payload ← objectAt (units "payload") v
  some { seq := seq, kind := kind, label := label, traceId := traceId, spanId := spanId, payload := payload }

/-- The value as a fixture, which the source takes it for unseen. -/
def RelayReplayFixture.ofValue (v : Value ν) : Option (RelayReplayFixture ν) := do
  let traceId ← textAt (units "traceId") v
  let pipeline ← textAt (units "pipeline") v
  let items ← itemsAt (units "interactions") v
  let interactions ← items.mapM RelayInteraction.ofValue
  let finalState ← (objectAt (units "finalState") v).bind ReplayState.ofValue
  let digest ← textAt (units "digest") v
  some
    { traceId := traceId, pipeline := pipeline, interactions := interactions, finalState := finalState
      digest := digest }

/-- The file is not JSON or holds `null`, has another version, or holds a value that is no fixture. -/
inductive LoadError where
  | unreadable
  | unsupportedVersion (message : Option Text)
  | otherShape
  deriving DecidableEq, Repr

def unsupportedVersion (version : Option (Value ν)) : Option Text :=
  let text := match version with
    | none => some (units "undefined")
    | some v => toText platform v
  text.map fun t => units "Unsupported replay fixture version " ++ t ++ units " (expected 1)"

def loadFixture [DecidableEq ν] (raw : Text) : Except LoadError (RelayReplayFixture ν) :=
  match parse platform.toNumbers raw with
  | none | some .null => .error .unreadable
  | some parsed =>
    if numberAt (units "version") parsed = some (platform.ofNat 1) then
      match RelayReplayFixture.ofValue parsed with
      | some fixture => .ok fixture
      | none => .error .otherShape
    else .error (.unsupportedVersion (unsupportedVersion platform (get (units "version") parsed)))

end ZkVote.Replay

import Mathlib.Data.List.Forall2
import Mathlib.Data.List.Nodup
import ZkVote.Backend.Payments
import ZkVote.Lib.Reading

/-!
# Batch payments: what a return means

A row is stored before its job is paid, and answers for the job from then on.
-/

open Lib

namespace ZkVote.Payments

open StellarAmount

/-! ## One text for each job -/

section
variable {op op' : PaymentOp} {ops ops' : List PaymentOp} {rest rest' : List Char}

theorem code_inj {a a' : PaymentAsset} (h : a.code = a'.code) : a = a' := by
  cases a <;> cases a' <;> first | rfl | exact absurd h (by decide)

theorem member_append_inj {key value value' : String} (h : member key value ++ rest = member key value' ++ rest') :
    value = value' ∧ rest = rest' := by
  simp only [member, List.append_assoc, List.cons_append] at h
  obtain ⟨-, h⟩ := Json.quote_append_inj h
  obtain ⟨hvalue, hrest⟩ := Json.quote_append_inj (List.cons.inj h).2
  exact ⟨String.toList_inj.mp hvalue, hrest⟩

theorem json_append_inj (h : op.json ++ rest = op'.json ++ rest') : op = op' ∧ rest = rest' := by
  obtain ⟨destination, asset, amount, memo⟩ := op
  obtain ⟨destination', asset', amount', memo'⟩ := op'
  simp only [PaymentOp.json, List.cons_append, List.append_assoc] at h
  obtain ⟨hdestination, hasset⟩ := member_append_inj (List.cons.inj h).2
  obtain ⟨hcode, hamount⟩ := member_append_inj (List.cons.inj hasset).2
  obtain ⟨hvalue, hend⟩ := member_append_inj (List.cons.inj hamount).2
  obtain rfl := hdestination
  obtain rfl := code_inj hcode
  obtain rfl := hvalue
  cases memo with
  | none =>
    cases memo' with
    | none => exact ⟨rfl, (List.cons.inj hend).2⟩
    | some memo' => exact absurd (List.cons.inj hend).1 (by decide)
  | some memo =>
    cases memo' with
    | none => exact absurd (List.cons.inj hend).1 (by decide)
    | some memo' =>
      simp only [List.cons_append, List.append_assoc] at hend
      obtain ⟨rfl, hrest⟩ := member_append_inj (List.cons.inj hend).2
      exact ⟨rfl, (List.cons.inj hrest).2⟩

theorem jsonRest_inj (h : jsonRest ops = jsonRest ops') : ops = ops' := by
  induction ops generalizing ops' with
  | nil =>
    cases ops' with
    | nil => rfl
    | cons op' ops' => exact absurd (List.cons.inj h).1 (by decide)
  | cons op ops ih =>
    cases ops' with
    | nil => exact absurd (List.cons.inj h).1 (by decide)
    | cons op' ops' =>
      obtain ⟨rfl, hrest⟩ := json_append_inj (List.cons.inj h).2
      rw [ih hrest]

theorem stringify_inj (h : stringify ops = stringify ops') : ops = ops' := by
  cases ops with
  | nil =>
    cases ops' with
    | nil => rfl
    | cons op' ops' => exact absurd (List.cons.inj (List.cons.inj h).2).1 (by decide)
  | cons op ops =>
    cases ops' with
    | nil => exact absurd (List.cons.inj (List.cons.inj h).2).1 (by decide)
    | cons op' ops' =>
      obtain ⟨rfl, hrest⟩ := json_append_inj (List.cons.inj h).2
      rw [jsonRest_inj hrest]

/-- What stands outside the quotes after the first bracket. -/
def Structural (c : Char) : Prop := c ∈ ['\x7b', '\x7d', ':', ',', ']']

instance : DecidablePred Structural := fun c => inferInstanceAs (Decidable (c ∈ _))

theorem lexes_structural {c : Char} (hc : Structural c) (h : Json.Lexes Structural .outside rest) :
    Json.Lexes Structural .outside (c :: rest) := by
  refine h.cons ?_ hc
  rintro rfl
  revert hc
  decide

theorem member_lexes {key value : String} (h : Json.Lexes Structural .outside rest) :
    Json.Lexes Structural .outside (member key value ++ rest) := by
  rw [member, List.append_assoc, List.cons_append]
  exact .quote (lexes_structural (by decide) (.quote h))

theorem json_lexes (h : Json.Lexes Structural .outside rest) : Json.Lexes Structural .outside (op.json ++ rest) := by
  obtain ⟨destination, asset, amount, memo⟩ := op
  simp only [PaymentOp.json, List.cons_append, List.append_assoc]
  refine lexes_structural (by decide) (member_lexes (lexes_structural (by decide) (member_lexes ?_)))
  refine lexes_structural (by decide) (member_lexes ?_)
  cases memo with
  | none => exact lexes_structural (by decide) h
  | some memo =>
    simp only [List.cons_append, List.append_assoc]
    exact lexes_structural (by decide) (member_lexes (lexes_structural (by decide) h))

theorem jsonRest_lexes : Json.Lexes Structural .outside (jsonRest ops) := by
  induction ops with
  | nil => exact lexes_structural (by decide) trivial
  | cons op ops ih => exact lexes_structural (by decide) (json_lexes ih)

/-- No text of operations stands inside another, behind its first bracket. -/
theorem not_lexes_stringify {p : Json.Place} (hne : ops ≠ []) : ¬ Json.Lexes Structural p (stringify ops) := by
  obtain ⟨op, ops, rfl⟩ := List.exists_cons_of_ne_nil hne
  obtain ⟨destination, asset, amount, memo⟩ := op
  intro h
  cases p with
  | outside => exact absurd (h.1 rfl) (by decide)
  | inside | escaped => exact absurd (h.2.2.2.1 rfl) (by decide)

theorem stringify_ne_append {cs : List Char} (hne : ops' ≠ []) : stringify ops ≠ cs ++ ':' :: stringify ops' := by
  intro h
  have hrest : ∃ rest, Json.Lexes Structural .outside rest ∧ ('[' : Char) :: rest = cs ++ ':' :: stringify ops' := by
    cases ops with
    | nil =>
      have hnil : Json.Lexes Structural .outside (jsonRest []) := jsonRest_lexes
      exact ⟨_, hnil, h⟩
    | cons op ops => exact ⟨_, json_lexes jsonRest_lexes, h⟩
  obtain ⟨rest, hlexes, heq⟩ := hrest
  cases cs with
  | nil => exact absurd (List.cons.inj heq).1 (by decide)
  | cons c cs =>
    rw [(List.cons.inj heq).2] at hlexes
    obtain ⟨q, hcolon⟩ := hlexes.suffix
    exact not_lexes_stringify hne hcolon.2

theorem eq_of_longer {a cs : List Char} (hne' : ops' ≠ [])
    (h : a ++ ':' :: stringify ops = (a ++ cs) ++ ':' :: stringify ops') : cs = [] ∧ ops = ops' := by
  rw [List.append_assoc, List.append_cancel_left_eq] at h
  cases cs with
  | nil => exact ⟨rfl, stringify_inj (List.cons.inj h).2⟩
  | cons c cs => exact absurd (List.cons.inj h).2 (stringify_ne_append hne')

/-- Wherever the tenant ends, the operations are the same. -/
theorem jobText_inj {tenantId tenantId' : String} (hne : ops ≠ []) (hne' : ops' ≠ [])
    (h : jobText tenantId ops = jobText tenantId' ops') : tenantId = tenantId' ∧ ops = ops' := by
  unfold jobText at h
  rcases List.append_eq_append_iff.mp h with ⟨cs, hlonger, -⟩ | ⟨cs, hlonger, -⟩
  · rw [hlonger] at h
    obtain ⟨rfl, rfl⟩ := eq_of_longer hne' h
    rw [List.append_nil] at hlonger
    exact ⟨String.toList_inj.mp hlonger.symm, rfl⟩
  · rw [hlonger] at h
    obtain ⟨rfl, rfl⟩ := eq_of_longer hne h.symm
    rw [List.append_nil] at hlonger
    exact ⟨String.toList_inj.mp hlonger, rfl⟩

end

/-! ## What is promised -/

/-- The payment of an operation: its destination, its asset, and what its amount is worth. -/
structure Pays (P : Platform) (op : PaymentOp) (p : Payment) : Prop where
  destination : p.destination = op.destination
  asset : getAsset P op.asset = .ok p.asset
  amount : ∃ stroops, parseStroops op.amount false = .ok stroops ∧ parseStroops p.amount false = .ok stroops

/-- A transaction for the job has been accepted, and it pays the operations, one by one. -/
def PaidFor (P : Platform) (s : State) (tenantId : String) (ops : List PaymentOp) : Prop :=
  ∃ a ∈ s.accepted, a.tenantId = tenantId ∧ a.ops = ops ∧ List.Forall₂ (Pays P) ops a.tx.operations

/-- Whoever has been told that a job is done, it is paid. No job is paid twice. -/
structure Truthful (P : Platform) (s : State) : Prop where
  paid : ∀ i c r, s.calls i = some c → c.stage = .returned r → PaidFor P s c.tenantId c.ops
  once : s.accepted.Pairwise fun a b => ¬ (a.tenantId = b.tenantId ∧ a.ops = b.ops)

/-- The job whose row the event looks for, or tries to store. -/
def looksFor (s : State) : Event → Option (String × List PaymentOp)
  | .sendBatch tenantId ops =>
    match check ops with
    | .ok _ => some (tenantId, ops)
    | .error _ => none
  | .resume i (.ok (.inserts _ none)) =>
    match s.calls i with
    | some ⟨tenantId, ops, .preflight _ [_]⟩ => some (tenantId, ops)
    | _ => none
  | _ => none

/-- It comes upon the row of a call whose transaction has not been accepted. -/
def FindsUnpaid (P : Platform) (s : State) (e : Event) : Prop :=
  ∃ tenantId ops row, looksFor s e = some (tenantId, ops) ∧ row ∈ s.payment_jobs ∧ row.id = jobId P tenantId ops ∧
    ∀ a ∈ s.accepted, a.call ≠ row.call

/-- The hash has no collision among the texts of the jobs that are sent. -/
def CollisionFree (P : Platform) (log : List (State × Event)) : Prop :=
  ∀ e ∈ log, ∀ e' ∈ log, ∀ tenantId ops tenantId' ops', e.2 = .sendBatch tenantId ops →
    e'.2 = .sendBatch tenantId' ops' → jobId P tenantId ops = jobId P tenantId' ops' →
    jobText tenantId ops = jobText tenantId' ops'

/-! ## What an event does -/

/-- The row of the call is stored. -/
def Stage.stored : Stage → Bool
  | .preflight .. | .returned _ | .threw _ => false
  | _ => true

/-- Nothing is submitted yet. -/
def Stage.unsent : Stage → Bool
  | .submitToHorizon _ | .recordTransactionFee _ | .returned _ | .threw _ => false
  | _ => true

/-- A call goes on without touching rows or transactions. -/
structure Moves (P : Platform) (s : State) (i : Nat) (c : Call) (stage : Stage) : Prop where
  stored : stage.stored = true → c.stage.stored = true
  unsent : stage.unsent = true → c.stage.unsent = true
  built : ∀ tx, stage = .signTransaction tx → c.ops.mapM (payment P) = .ok tx.operations
  recorded : ∀ hash, stage = .recordTransactionFee hash → ∃ a ∈ s.accepted, a.call = i
  returned : ∀ r, stage = .returned r → ∃ hash, c.stage = .recordTransactionFee hash

inductive Effect (P : Platform) (s : State) : Event → State → Prop
  | refused {tenantId : String} {ops : List PaymentOp} {message : String} :
      looksFor s (.sendBatch tenantId ops) = none →
      Effect P s (.sendBatch tenantId ops) (s.add ⟨tenantId, ops, .threw message⟩)
  | found {tenantId : String} {ops : List PaymentOp} {r : BatchResult} (hne : ops ≠ [])
      (hlooks : looksFor s (.sendBatch tenantId ops) = some (tenantId, ops))
      (hjob : s.hasJob (jobId P tenantId ops) = true) :
      Effect P s (.sendBatch tenantId ops) (s.add ⟨tenantId, ops, .returned r⟩)
  | began {tenantId : String} {ops : List PaymentOp} {total : Nat} {left : List Preflight} (hne : ops ≠ [])
      (hlooks : looksFor s (.sendBatch tenantId ops) = some (tenantId, ops))
      (hjob : s.hasJob (jobId P tenantId ops) = false) :
      Effect P s (.sendBatch tenantId ops) (s.add ⟨tenantId, ops, .preflight total left⟩)
  | moved {e : Event} {i : Nat} {c : Call} {stage : Stage} {lock : Option Nat} (hcall : s.calls i = some c)
      (hlooks : looksFor s e = none) (hmoves : Moves P s i c stage) :
      Effect P s e { s.goto i c stage with lock := lock }
  | collided {e : Event} {i : Nat} {c : Call} {r : BatchResult} (hcall : s.calls i = some c)
      (hunsent : c.stage.unsent = true) (hlooks : looksFor s e = some (c.tenantId, c.ops))
      (hjob : s.hasJob (jobId P c.tenantId c.ops) = true) :
      Effect P s e (s.goto i c (.returned r))
  | stored {e : Event} {i : Nat} {c : Call} {row : JobRow} {total : Nat} {left : List Preflight}
      (hcall : s.calls i = some c) (hstage : c.stage = .preflight total left)
      (hlooks : looksFor s e = some (c.tenantId, c.ops)) (hjob : s.hasJob (jobId P c.tenantId c.ops) = false)
      (hid : row.id = jobId P c.tenantId c.ops) (hrow : row.call = i) :
      Effect P s e { s.goto i c .loadAccount with payment_jobs := row :: s.payment_jobs }
  | submitted {e : Event} {i : Nat} {c : Call} {tx : Transaction} (hcall : s.calls i = some c)
      (hlooks : looksFor s e = none) (hstage : c.stage = .signTransaction tx) :
      Effect P s e { s.goto i c (.submitToHorizon tx) with inFlight := (i, tx) :: s.inFlight }
  | landed {i : Nat} {c : Call} {tx : Transaction} (hcall : s.calls i = some c) (hflight : (i, tx) ∈ s.inFlight) :
      Effect P s (.lands i) { s with
        inFlight := s.inFlight.filter fun t => t.1 ≠ i
        accepted := ⟨i, c.tenantId, c.ops, tx⟩ :: s.accepted }

section
variable {P : Platform} {s s' : State} {e : Event} {i : Nat} {c : Call} {tenantId : String} {ops : List PaymentOp}

theorem sendBatch_effect : Effect P s (.sendBatch tenantId ops) (sendBatch P s tenantId ops) := by
  unfold sendBatch
  cases hcheck : check ops with
  | error message => exact .refused (by rw [looksFor, hcheck])
  | ok total =>
    have hne : ops ≠ [] := by
      rintro rfl
      cases hcheck
    have hlooks : looksFor s (.sendBatch tenantId ops) = some (tenantId, ops) := by rw [looksFor, hcheck]
    dsimp only
    split
    · next hjob => exact .found hne hlooks hjob
    · next hjob => exact .began hne hlooks (Bool.not_eq_true _ ▸ hjob)

theorem reject_effect {message : String} (hcall : s.calls i = some c) (h : reject s i c message c.stage = some s') :
    Effect P s (.resume i (.error message)) s' := by
  have hmoved : Effect P s (.resume i (.error message)) ((s.goto i c (.threw message)).unlock i) :=
    .moved hcall rfl ⟨nofun, nofun, nofun, nofun, nofun⟩
  unfold reject at h
  split at h
  · cases h
  · cases h
  · cases h
    exact hmoved

theorem lands_effect (h : lands s i = some s') : Effect P s (.lands i) s' := by
  simp only [lands, Option.bind_eq_bind, Option.bind_eq_some_iff] at h
  obtain ⟨c, hcall, ⟨j, tx⟩, hflight, h⟩ := h
  cases h
  have hj : j = i := by simpa using List.find?_some hflight
  exact .landed hcall (hj ▸ List.mem_of_find?_eq_some hflight)

/-- An await that ends without a look at the rows. -/
theorem Moves.plain {stage : Stage} (hstored : stage.stored = true → c.stage.stored = true)
    (hunsent : stage.unsent = true → c.stage.unsent = true) (hbuilt : ∀ tx, stage ≠ .signTransaction tx)
    (hrecorded : ∀ hash, stage ≠ .recordTransactionFee hash) (hreturned : ∀ r, stage ≠ .returned r) :
    Moves P s i c stage :=
  ⟨hstored, hunsent, fun tx h => absurd h (hbuilt tx), fun hash h => absurd h (hrecorded hash),
    fun r h => absurd h (hreturned r)⟩

theorem insertJob_effect {total : Nat} {created_at : String} {q : Preflight} (hcall : s.calls i = some c)
    (hstage : c.stage = .preflight total [q]) :
    Effect P s (.resume i (.ok (.inserts created_at none))) (insertJob P s i c total created_at) := by
  have hlooks : looksFor s (.resume i (.ok (.inserts created_at none))) = some (c.tenantId, c.ops) := by
    obtain ⟨tenantId, ops, stage⟩ := c
    obtain rfl : stage = _ := hstage
    rw [looksFor, hcall]
  unfold insertJob
  dsimp only
  split
  · next hjob => exact .collided hcall (hstage ▸ rfl) hlooks hjob
  · next hjob => exact .stored hcall hstage hlooks (Bool.not_eq_true _ ▸ hjob) rfl rfl

theorem resume_effect {reply : Reply} (hcall : s.calls i = some c) (h : resume P s i c c.stage reply = some s') :
    Effect P s (.resume i (.ok reply)) s' := by
  generalize hstage : c.stage = stage at h
  unfold resume at h
  split at h
  all_goals try cases h
  · exact .moved hcall rfl (.plain nofun (fun _ => hstage ▸ rfl) nofun nofun nofun)
  · exact .moved hcall rfl (.plain nofun nofun nofun nofun nofun)
  · exact insertJob_effect hcall hstage
  · exact .moved hcall rfl (.plain (fun _ => hstage ▸ rfl) (fun _ => hstage ▸ rfl) nofun nofun nofun)
  · exact .moved hcall rfl (.plain (fun _ => hstage ▸ rfl) (fun _ => hstage ▸ rfl) nofun nofun nofun)
  · exact .moved hcall rfl (.plain (fun _ => hstage ▸ rfl) (fun _ => hstage ▸ rfl) nofun nofun nofun)
  · exact .moved hcall rfl (.plain nofun nofun nofun nofun nofun)
  · exact .moved hcall rfl (.plain (fun _ => hstage ▸ rfl) (fun _ => hstage ▸ rfl) nofun nofun nofun)
  · split at h
    · cases h
      exact .moved hcall rfl (.plain (fun _ => hstage ▸ rfl) (fun _ => hstage ▸ rfl) nofun nofun nofun)
    · cases h
  · split at h
    · cases h
      exact .moved hcall rfl (.plain nofun nofun nofun nofun nofun)
    · next operations hbuilt =>
      cases h
      refine .moved hcall rfl ⟨fun _ => hstage ▸ rfl, fun _ => hstage ▸ rfl, fun tx htx => ?_, nofun, nofun⟩
      cases htx
      exact hbuilt
  · exact .submitted hcall rfl hstage
  · split at h
    · next hlanded =>
      cases h
      refine .moved hcall rfl ⟨fun _ => hstage ▸ rfl, nofun, nofun, fun hash _ => ?_, nofun⟩
      obtain ⟨a, ha, hi⟩ := List.any_eq_true.mp hlanded
      exact ⟨a, ha, of_decide_eq_true hi⟩
    · cases h
  · exact .moved hcall rfl ⟨nofun, nofun, nofun, nofun, fun r _ => ⟨_, hstage⟩⟩

theorem next_effect (h : next P s e = some s') : Effect P s e s' := by
  unfold next at h
  split at h
  · cases h
    exact sendBatch_effect
  · simp only [Option.bind_eq_bind, Option.bind_eq_some_iff] at h
    obtain ⟨c, hcall, h⟩ := h
    exact resume_effect hcall h
  · simp only [Option.bind_eq_bind, Option.bind_eq_some_iff] at h
    obtain ⟨c, hcall, h⟩ := h
    exact reject_effect hcall h
  · exact lands_effect h

end

/-! ## Rows, calls and transactions -/

def Call.job (c : Call) : String × List PaymentOp := (c.tenantId, c.ops)

def State.job (s : State) (i : Nat) : Option (String × List PaymentOp) := (s.calls i).map Call.job

/-- What the call has submitted pays its operations, and its row is stored. -/
def Sent (P : Platform) (s : State) (i : Nat) (tx : Transaction) : Prop :=
  ∃ tenantId ops, s.job i = some (tenantId, ops) ∧ ops.mapM (payment P) = .ok tx.operations ∧
    ∃ row ∈ s.payment_jobs, row.call = i

structure Ledger (P : Platform) (s : State) : Prop where
  ids : s.payment_jobs.Pairwise fun row row' => row.id ≠ row'.id
  rows : ∀ row ∈ s.payment_jobs, ∃ tenantId ops, s.job row.call = some (tenantId, ops) ∧
    row.id = jobId P tenantId ops ∧ ops ≠ []
  flying : ∀ t ∈ s.inFlight, Sent P s t.1 t.2 ∧ ∀ a ∈ s.accepted, a.call ≠ t.1
  accepted : ∀ a ∈ s.accepted, Sent P s a.call a.tx ∧ s.job a.call = some (a.tenantId, a.ops)
  once : s.accepted.Pairwise fun a b => a.call ≠ b.call

/-- Where a call stands agrees with what is stored and submitted. -/
structure Stands (P : Platform) (s : State) (i : Nat) (c : Call) : Prop where
  row : c.stage.stored = true → ∃ row ∈ s.payment_jobs, row.call = i
  unsent : c.stage.unsent = true → (∀ t ∈ s.inFlight, t.1 ≠ i) ∧ ∀ a ∈ s.accepted, a.call ≠ i
  built : ∀ tx, c.stage = .signTransaction tx → c.ops.mapM (payment P) = .ok tx.operations
  recorded : ∀ hash, c.stage = .recordTransactionFee hash → ∃ a ∈ s.accepted, a.call = i
  nonempty : c.stage.unsent = true → c.ops ≠ []

structure Inv (P : Platform) (log : List (State × Event)) (s : State) : Prop where
  ledger : Ledger P s
  stands : ∀ i c, s.calls i = some c → Stands P s i c
  fresh : ∀ i, s.count ≤ i → s.calls i = none
  sent : ∀ i tenantId ops, s.job i = some (tenantId, ops) → ∃ e ∈ log, e.2 = .sendBatch tenantId ops

section
variable {P : Platform} {s s' : State} {e : Event} {i : Nat} {c : Call} {tenantId : String} {ops : List PaymentOp}
  {stage : Stage} {tx : Transaction} {log : List (State × Event)}

theorem job_goto (hcall : s.calls i = some c) (j : Nat) : (s.goto i c stage).job j = s.job j := by
  unfold State.job State.goto
  dsimp only
  rw [Function.update_apply]
  split
  · next heq => rw [heq, hcall]; rfl
  · rfl

theorem calls_add_self : (s.add c).calls s.count = some c := Function.update_self ..

theorem calls_add_of_ne {j : Nat} (hne : j ≠ s.count) : (s.add c).calls j = s.calls j := Function.update_of_ne hne _ _

theorem job_add {x : String × List PaymentOp} (hfresh : ∀ i, s.count ≤ i → s.calls i = none) {j : Nat}
    (hj : s.job j = some x) : (s.add c).job j = some x := by
  have hne : j ≠ s.count := by
    rintro rfl
    rw [State.job, hfresh _ le_rfl] at hj
    cases hj
  rw [State.job, calls_add_of_ne hne]
  exact hj

/-- What the ledger says goes on if rows are added and no job is forgotten. -/
theorem Sent.mono (h : Sent P s i tx) (hjobs : ∀ j x, s.job j = some x → s'.job j = some x)
    (hrows : ∀ row ∈ s.payment_jobs, row ∈ s'.payment_jobs) : Sent P s' i tx := by
  obtain ⟨tenantId, ops, hjob, hbuilt, row, hrow, hcall⟩ := h
  exact ⟨tenantId, ops, hjobs i _ hjob, hbuilt, row, hrows row hrow, hcall⟩

theorem Ledger.of_same (h : Ledger P s) (hjobs : ∀ j x, s.job j = some x → s'.job j = some x)
    (hrows : s'.payment_jobs = s.payment_jobs) (hflight : s'.inFlight = s.inFlight)
    (haccepted : s'.accepted = s.accepted) : Ledger P s' where
  ids := hrows ▸ h.ids
  rows row hrow := by
    obtain ⟨tenantId, ops, hjob, hid⟩ := h.rows row (hrows ▸ hrow)
    exact ⟨tenantId, ops, hjobs _ _ hjob, hid⟩
  flying t ht := by
    rw [haccepted]
    obtain ⟨hsent, hnone⟩ := h.flying t (hflight ▸ ht)
    exact ⟨hsent.mono hjobs fun row hrow => hrows ▸ hrow, hnone⟩
  accepted a ha := by
    obtain ⟨hsent, hjob⟩ := h.accepted a (haccepted ▸ ha)
    exact ⟨hsent.mono hjobs fun row hrow => hrows ▸ hrow, hjobs _ _ hjob⟩
  once := haccepted ▸ h.once

theorem Stands.of_same (h : Stands P s i c) (hrows : s'.payment_jobs = s.payment_jobs)
    (hflight : s'.inFlight = s.inFlight) (haccepted : s'.accepted = s.accepted) : Stands P s' i c where
  row := hrows ▸ h.row
  unsent := hflight ▸ haccepted ▸ h.unsent
  built := h.built
  recorded := haccepted ▸ h.recorded
  nonempty := h.nonempty

theorem stands_goto {s' : State} {c' : Call} {i' : Nat} (hcalls : s'.calls = Function.update s.calls i (some c))
    (hi : Stands P s' i c) (hothers : ∀ i' c', i' ≠ i → s.calls i' = some c' → Stands P s' i' c')
    (hcall : s'.calls i' = some c') : Stands P s' i' c' := by
  rw [hcalls, Function.update_apply] at hcall
  split at hcall
  · next heq =>
    cases hcall
    exact heq ▸ hi
  · next hne => exact hothers i' c' hne hcall

theorem Inv.lt_count (h : Inv P log s) (hcall : s.calls i = some c) : i < s.count := by
  by_contra hge
  rw [h.fresh i (Nat.le_of_not_lt hge)] at hcall
  cases hcall

theorem fresh_goto {s' : State} (h : Inv P log s) (hcall : s.calls i = some c) {c' : Call}
    (hcalls : s'.calls = Function.update s.calls i (some c')) (hcount : s'.count = s.count) :
    ∀ j, s'.count ≤ j → s'.calls j = none := by
  intro j hj
  have hlt := h.lt_count hcall
  rw [hcalls, Function.update_of_ne (by omega)]
  exact h.fresh j (hcount ▸ hj)

theorem sent_cons (h : Inv P log s) (hjobs : ∀ j x, s'.job j = some x → s.job j = some x) :
    ∀ j tenantId ops, s'.job j = some (tenantId, ops) → ∃ e' ∈ (s, e) :: log, e'.2 = .sendBatch tenantId ops := by
  intro j tenantId ops hj
  obtain ⟨e', he', hsent⟩ := h.sent j tenantId ops (hjobs j _ hj)
  exact ⟨e', List.mem_cons_of_mem _ he', hsent⟩

theorem Inv.add (h : Inv P log s) (hstage : c.stage.stored = false)
    (hne : c.stage.unsent = true → c.ops ≠ []) :
    Inv P ((s, .sendBatch c.tenantId c.ops) :: log) (s.add c) where
  ledger := h.ledger.of_same (fun _ _ => job_add h.fresh) rfl rfl rfl
  stands i' c' hcall := by
    have hnone : s.job s.count = none := by rw [State.job, h.fresh _ le_rfl]; rfl
    have hsent {tx : Transaction} {j : Nat} (hsent : Sent P s j tx) : j ≠ s.count := by
      rintro rfl
      obtain ⟨_, _, hjob, -⟩ := hsent
      rw [hnone] at hjob
      cases hjob
    refine stands_goto rfl ⟨?_, fun _ => ⟨fun t ht => ?_, fun a ha => ?_⟩, ?_, ?_, hne⟩
      (fun i' c' _ hcall => (h.stands i' c' hcall).of_same rfl rfl rfl) hcall
    · rw [hstage]
      nofun
    · exact hsent (h.ledger.flying t ht).1
    · exact hsent (h.ledger.accepted a ha).1
    · intro tx htx
      rw [htx] at hstage
      cases hstage
    · intro hash hhash
      rw [hhash] at hstage
      cases hstage
  fresh j hj := by
    have hj : s.count + 1 ≤ j := hj
    rw [calls_add_of_ne (by omega)]
    exact h.fresh j (by omega)
  sent j tenantId ops hj := by
    by_cases heq : j = s.count
    · subst heq
      rw [State.job, calls_add_self] at hj
      cases hj
      exact ⟨_, List.mem_cons_self, rfl⟩
    · rw [State.job, calls_add_of_ne heq] at hj
      obtain ⟨e', he', hsent⟩ := h.sent j tenantId ops hj
      exact ⟨e', List.mem_cons_of_mem _ he', hsent⟩

theorem Inv.moved {lock : Option Nat} (h : Inv P log s) (hcall : s.calls i = some c)
    (hstored : stage.stored = true → c.stage.stored = true) (hunsent : stage.unsent = true → c.stage.unsent = true)
    (hbuilt : ∀ tx, stage = .signTransaction tx → c.ops.mapM (payment P) = .ok tx.operations)
    (hrecorded : ∀ hash, stage = .recordTransactionFee hash → ∃ a ∈ s.accepted, a.call = i) :
    Inv P ((s, e) :: log) { s.goto i c stage with lock := lock } where
  ledger := h.ledger.of_same (fun j _ hj => (job_goto hcall j).trans hj) rfl rfl rfl
  stands i' c' hcall' := by
    have hi := h.stands i c hcall
    exact stands_goto rfl ⟨fun hst => hi.row (hstored hst), fun hst => hi.unsent (hunsent hst), hbuilt, hrecorded,
      fun hst => hi.nonempty (hunsent hst)⟩ (fun i' c' _ hcall => (h.stands i' c' hcall).of_same rfl rfl rfl) hcall'
  fresh := fresh_goto h hcall rfl rfl
  sent := sent_cons h fun j _ hj => (job_goto hcall j).symm.trans hj

theorem hasJob_iff {id : String} : s.hasJob id = true ↔ ∃ row ∈ s.payment_jobs, row.id = id := by
  simp [State.hasJob]

theorem Inv.stored {row : JobRow} {total : Nat} {left : List Preflight} (h : Inv P log s) (hcall : s.calls i = some c)
    (hstage : c.stage = .preflight total left) (hjob : s.hasJob (jobId P c.tenantId c.ops) = false)
    (hid : row.id = jobId P c.tenantId c.ops) (hrow : row.call = i) :
    Inv P ((s, e) :: log) { s.goto i c .loadAccount with payment_jobs := row :: s.payment_jobs } := by
  have hi := h.stands i c hcall
  have hjobs (j : Nat) (x : String × List PaymentOp) (hj : s.job j = some x) :
      (s.goto i c .loadAccount).job j = some x := (job_goto hcall j).trans hj
  have hold : ∀ row' ∈ s.payment_jobs, row' ∈ row :: s.payment_jobs := fun row' => List.mem_cons_of_mem row
  refine ⟨⟨?_, ?_, fun t ht => ?_, fun a ha => ?_, h.ledger.once⟩, fun i' c' hcall' => ?_, fresh_goto h hcall rfl rfl,
    sent_cons h fun j _ hj => (job_goto hcall j).symm.trans hj⟩
  · refine List.pairwise_cons.mpr ⟨fun row' hrow' heq => ?_, h.ledger.ids⟩
    have hfound := hasJob_iff.mpr ⟨row', hrow', heq.symm.trans hid⟩
    rw [hjob] at hfound
    cases hfound
  · intro row' hrow'
    rcases List.mem_cons.mp hrow' with rfl | hrow'
    · have hmine : s.job i = some (c.tenantId, c.ops) := by rw [State.job, hcall]; rfl
      exact ⟨c.tenantId, c.ops, hjobs _ _ (hrow ▸ hmine), hid, hi.nonempty (hstage ▸ rfl)⟩
    · obtain ⟨tenantId, ops, hj, hrest⟩ := h.ledger.rows row' hrow'
      exact ⟨tenantId, ops, hjobs _ _ hj, hrest⟩
  · obtain ⟨hsent, hnone⟩ := h.ledger.flying t ht
    exact ⟨hsent.mono hjobs hold, hnone⟩
  · obtain ⟨hsent, hj⟩ := h.ledger.accepted a ha
    exact ⟨hsent.mono hjobs hold, hjobs _ _ hj⟩
  · refine stands_goto rfl ⟨fun _ => ⟨row, List.mem_cons_self, hrow⟩, fun _ => hi.unsent (hstage ▸ rfl), nofun, nofun,
      fun _ => hi.nonempty (hstage ▸ rfl)⟩ (fun i' c' _ hcall => ?_) hcall'
    obtain ⟨hstored, hunsent, hbuilt, hrecorded, hne⟩ := h.stands i' c' hcall
    refine ⟨fun hst => ?_, hunsent, hbuilt, hrecorded, hne⟩
    obtain ⟨row', hrow', hi'⟩ := hstored hst
    exact ⟨row', hold row' hrow', hi'⟩

theorem Inv.submitted (h : Inv P log s) (hcall : s.calls i = some c) (hstage : c.stage = .signTransaction tx) :
    Inv P ((s, e) :: log) { s.goto i c (.submitToHorizon tx) with inFlight := (i, tx) :: s.inFlight } := by
  have hi := h.stands i c hcall
  have hrow : ∃ row ∈ s.payment_jobs, row.call = i := hi.row (hstage ▸ rfl)
  obtain ⟨hgrounded, hunpaid⟩ := hi.unsent (hstage ▸ rfl)
  have hjobs (j : Nat) (x : String × List PaymentOp) (hj : s.job j = some x) :
      (s.goto i c (.submitToHorizon tx)).job j = some x := (job_goto hcall j).trans hj
  refine ⟨⟨h.ledger.ids, fun row hrow => ?_, fun t ht => ?_, fun a ha => ?_, h.ledger.once⟩, fun i' c' hcall' => ?_,
    fresh_goto h hcall rfl rfl, sent_cons h fun j _ hj => (job_goto hcall j).symm.trans hj⟩
  · obtain ⟨tenantId, ops, hj, hrest⟩ := h.ledger.rows row hrow
    exact ⟨tenantId, ops, hjobs _ _ hj, hrest⟩
  · rcases List.mem_cons.mp ht with rfl | ht
    · have hmine : s.job i = some (c.tenantId, c.ops) := by rw [State.job, hcall]; rfl
      exact ⟨⟨c.tenantId, c.ops, hjobs _ _ hmine, hi.built tx hstage, hrow⟩, hunpaid⟩
    · obtain ⟨hsent, hnone⟩ := h.ledger.flying t ht
      exact ⟨hsent.mono hjobs fun _ => id, hnone⟩
  · obtain ⟨hsent, hj⟩ := h.ledger.accepted a ha
    exact ⟨hsent.mono hjobs fun _ => id, hjobs _ _ hj⟩
  · refine stands_goto rfl ⟨fun _ => hrow, nofun, nofun, nofun, nofun⟩ (fun i' c' hne hcall => ?_) hcall'
    obtain ⟨hstored, hunsent, hbuilt, hrecorded, hnonempty⟩ := h.stands i' c' hcall
    refine ⟨hstored, fun hst => ⟨?_, (hunsent hst).2⟩, hbuilt, hrecorded, hnonempty⟩
    exact List.forall_mem_cons.mpr ⟨hne.symm, (hunsent hst).1⟩

theorem Inv.landed (h : Inv P log s) (hcall : s.calls i = some c) (hflight : (i, tx) ∈ s.inFlight) :
    Inv P ((s, e) :: log) { s with
      inFlight := s.inFlight.filter fun t => t.1 ≠ i
      accepted := ⟨i, c.tenantId, c.ops, tx⟩ :: s.accepted } := by
  obtain ⟨hsent, hunpaid⟩ := h.ledger.flying _ hflight
  have hmine : s.job i = some (c.tenantId, c.ops) := by rw [State.job, hcall]; rfl
  refine ⟨⟨h.ledger.ids, h.ledger.rows, fun t ht => ?_, ?_, ?_⟩, fun i' c' hcall' => ?_, h.fresh,
    sent_cons h fun _ _ hj => hj⟩
  · obtain ⟨ht, hother⟩ := List.mem_filter.mp ht
    obtain ⟨hsent, hnone⟩ := h.ledger.flying t ht
    exact ⟨hsent, List.forall_mem_cons.mpr ⟨fun heq => of_decide_eq_true hother heq.symm, hnone⟩⟩
  · exact List.forall_mem_cons.mpr ⟨⟨hsent, hmine⟩, h.ledger.accepted⟩
  · exact List.pairwise_cons.mpr ⟨fun a ha => (hunpaid a ha).symm, h.ledger.once⟩
  · obtain ⟨hstored, hunsent, hbuilt, hrecorded, hnonempty⟩ := h.stands i' c' hcall'
    refine ⟨hstored, fun hst => ⟨fun t ht => ?_, ?_⟩, hbuilt, fun hash hhash => ?_, hnonempty⟩
    · exact (hunsent hst).1 t (List.mem_of_mem_filter ht)
    · exact List.forall_mem_cons.mpr ⟨(hunsent hst).1 _ hflight, (hunsent hst).2⟩
    · obtain ⟨a, ha, hi⟩ := hrecorded hash hhash
      exact ⟨a, List.mem_cons_of_mem _ ha, hi⟩

theorem Inv.step (h : Inv P log s) (hstep : next P s e = some s') : Inv P ((s, e) :: log) s' := by
  cases next_effect hstep with
  | refused => exact h.add (c := ⟨_, _, _⟩) rfl nofun
  | found hne => exact h.add (c := ⟨_, _, _⟩) rfl fun _ => hne
  | began hne => exact h.add (c := ⟨_, _, _⟩) rfl fun _ => hne
  | moved hcall _ hmoves => exact h.moved hcall hmoves.stored hmoves.unsent hmoves.built hmoves.recorded
  | collided hcall => exact h.moved hcall nofun nofun nofun nofun
  | stored hcall hstage _ hjob hid hrow => exact h.stored hcall hstage hjob hid hrow
  | submitted hcall _ hstage => exact h.submitted hcall hstage
  | landed hcall hflight => exact h.landed hcall hflight

/-! ## What is paid -/

theorem payment_pays {op : PaymentOp} {p : Payment} (h : payment P op = .ok p) : Pays P op p := by
  unfold payment at h
  cases hasset : getAsset P op.asset with
  | error e =>
    rw [hasset] at h
    cases h
  | ok asset =>
    cases hamount : canonicalizeStellarAmount op.amount false with
    | error e =>
      rw [hasset, hamount] at h
      cases h
    | ok amount =>
      rw [hasset, hamount] at h
      by_cases haccount : P.isAccount op.destination = true
      · have hp : (.ok ⟨op.destination, asset, amount⟩ : Except String Payment) = .ok p :=
          (if_pos haccount).symm.trans h
        cases hp
        exact ⟨rfl, hasset, canonical_amount hamount⟩
      · cases (if_neg haccount).symm.trans h

theorem Ledger.paid (h : Ledger P s) {a : Accepted} (ha : a ∈ s.accepted) (hjob : s.job a.call = some (tenantId, ops)) :
    PaidFor P s tenantId ops := by
  obtain ⟨⟨tenantId', ops', hjob', hbuilt, -⟩, hmine⟩ := h.accepted a ha
  cases hjob.symm.trans hjob'
  cases hjob.symm.trans hmine
  exact ⟨a, ha, rfl, rfl, (forall₂_of_mapM hbuilt).imp fun _ _ => payment_pays⟩

theorem PaidFor.mono (h : PaidFor P s tenantId ops) (haccepted : ∀ a ∈ s.accepted, a ∈ s'.accepted) :
    PaidFor P s' tenantId ops := by
  obtain ⟨a, ha, hrest⟩ := h
  exact ⟨a, haccepted a ha, hrest⟩

theorem Ledger.row_unique (h : Ledger P s) {row row' : JobRow} (hrow : row ∈ s.payment_jobs)
    (hrow' : row' ∈ s.payment_jobs) (hid : row.id = row'.id) : row = row' :=
  List.inj_on_of_nodup_map (List.pairwise_map.mpr h.ids) hrow hrow' hid

/-- The jobs of the state have other ids than this one, unless they are it. -/
def Apart (P : Platform) (s : State) (tenantId : String) (ops : List PaymentOp) : Prop :=
  ∀ j tenantId' ops', s.job j = some (tenantId', ops') → ops' ≠ [] → jobId P tenantId' ops' = jobId P tenantId ops →
    tenantId' = tenantId ∧ ops' = ops

/-- The job is paid if the call whose row is found has been. -/
theorem Ledger.paidFor_iff (h : Ledger P s) (hapart : Apart P s tenantId ops) {row : JobRow}
    (hrow : row ∈ s.payment_jobs) (hid : row.id = jobId P tenantId ops) :
    PaidFor P s tenantId ops ↔ ∃ a ∈ s.accepted, a.call = row.call := by
  constructor
  · rintro ⟨a, ha, rfl, rfl, -⟩
    obtain ⟨⟨_, _, -, -, row', hrow', hcall⟩, hjob⟩ := h.accepted a ha
    obtain ⟨tenantId', ops', hjob', hid', -⟩ := h.rows row' hrow'
    rw [hcall, hjob] at hjob'
    cases hjob'
    rw [h.row_unique hrow hrow' (hid.trans hid'.symm)]
    exact ⟨a, ha, hcall.symm⟩
  · rintro ⟨a, ha, hcall⟩
    obtain ⟨tenantId', ops', hjob, hid', hne⟩ := h.rows row hrow
    obtain ⟨rfl, rfl⟩ := hapart _ _ _ hjob hne (hid'.symm.trans hid)
    exact h.paid ha (hcall ▸ hjob)

theorem Ledger.once_each (h : Ledger P s) :
    s.accepted.Pairwise fun a b => ¬ (a.tenantId = b.tenantId ∧ a.ops = b.ops) := by
  refine h.once.imp_of_mem fun {a b} ha hb hne hsame => hne ?_
  obtain ⟨⟨_, _, -, -, row, hrow, hcall⟩, hjob⟩ := h.accepted a ha
  obtain ⟨⟨_, _, -, -, row', hrow', hcall'⟩, hjob'⟩ := h.accepted b hb
  obtain ⟨_, _, hj, hid, -⟩ := h.rows row hrow
  obtain ⟨_, _, hj', hid', -⟩ := h.rows row' hrow'
  rw [hcall, hjob] at hj
  rw [hcall', hjob'] at hj'
  cases hj
  cases hj'
  rw [hsame.1, hsame.2, ← hid'] at hid
  rw [← hcall, ← hcall', h.row_unique hrow hrow' hid]

/-! ## Runs -/

theorem apart_of_sent {log' : List (State × Event)} (hfree : CollisionFree P log') (hne : ops ≠ [])
    (hmine : ∃ e ∈ log', e.2 = .sendBatch tenantId ops)
    (hall : ∀ j tenantId ops, s.job j = some (tenantId, ops) → ∃ e ∈ log', e.2 = .sendBatch tenantId ops) :
    Apart P s tenantId ops := by
  intro j tenantId' ops' hjob hne' hid
  obtain ⟨e, he, hsent⟩ := hmine
  obtain ⟨e', he', hsent'⟩ := hall j _ _ hjob
  exact jobText_inj hne' hne (hfree e' he' e he _ _ _ _ hsent' hsent hid)

theorem not_findsUnpaid_of_none (hlooks : looksFor s e = none) : ¬ FindsUnpaid P s e := by
  rintro ⟨_, _, _, hsome, -⟩
  rw [hlooks] at hsome
  cases hsome

theorem not_findsUnpaid_of_new (hlooks : looksFor s e = some (tenantId, ops))
    (hjob : s.hasJob (jobId P tenantId ops) = false) : ¬ FindsUnpaid P s e := by
  rintro ⟨_, _, row, hsome, hrow, hid, -⟩
  cases hlooks.symm.trans hsome
  have hfound := hasJob_iff.mpr ⟨row, hrow, hid⟩
  rw [hjob] at hfound
  cases hfound

/-- An answer from the row is true if the call of the row is paid. -/
theorem Ledger.answer_iff (h : Ledger P s) (hapart : Apart P s tenantId ops)
    (hlooks : looksFor s e = some (tenantId, ops)) (hjob : s.hasJob (jobId P tenantId ops) = true) :
    PaidFor P s tenantId ops ↔ ¬ FindsUnpaid P s e := by
  constructor
  · rintro hpaid ⟨_, _, row, hsome, hrow, hid, hnone⟩
    cases hlooks.symm.trans hsome
    obtain ⟨a, ha, hcall⟩ := (h.paidFor_iff hapart hrow hid).mp hpaid
    exact hnone a ha hcall
  · intro hpaid
    obtain ⟨row, hrow, hid⟩ := hasJob_iff.mp hjob
    rw [h.paidFor_iff hapart hrow hid]
    by_contra hnone
    exact hpaid ⟨tenantId, ops, row, hlooks, hrow, hid, fun a ha hcall => hnone ⟨a, ha, hcall⟩⟩

def AllPaid (P : Platform) (s : State) : Prop :=
  ∀ i c r, s.calls i = some c → c.stage = .returned r → PaidFor P s c.tenantId c.ops

/-- The calls that have returned before stay paid, so it is up to the one that has changed. -/
theorem allPaid_update {k : Nat} (h : AllPaid P s) (hcalls : s'.calls = Function.update s.calls k (some c))
    (haccepted : ∀ a ∈ s.accepted, a ∈ s'.accepted) :
    AllPaid P s' ↔ ∀ r, c.stage = .returned r → PaidFor P s' c.tenantId c.ops := by
  constructor
  · intro hall r hr
    exact hall k c r (by rw [hcalls, Function.update_self]) hr
  · intro hk j c' r hj hr
    rw [hcalls, Function.update_apply] at hj
    split at hj
    · cases hj
      exact hk r hr
    · exact (h j c' r hj hr).mono haccepted

theorem allPaid_add (h : AllPaid P s) :
    AllPaid P (s.add c) ↔ ∀ r, c.stage = .returned r → PaidFor P s c.tenantId c.ops := by
  have hcalls : (s.add c).calls = Function.update s.calls s.count (some c) := rfl
  exact allPaid_update h hcalls fun _ => id

theorem allPaid_goto (h : AllPaid P s)
    (hcalls : s'.calls = Function.update s.calls i (some { c with stage := stage }))
    (haccepted : s'.accepted = s.accepted) :
    AllPaid P s' ↔ ∀ r, stage = .returned r → PaidFor P s c.tenantId c.ops := by
  rw [allPaid_update h hcalls fun a ha => haccepted ▸ ha]
  unfold PaidFor
  rw [haccepted]

theorem allPaid_iff (hinv : Inv P log s) (hfree : CollisionFree P ((s, e) :: log)) (hpaid : AllPaid P s)
    (h : next P s e = some s') : AllPaid P s' ↔ ¬ FindsUnpaid P s e := by
  have hall (j : Nat) (tenantId : String) (ops : List PaymentOp) (hj : s.job j = some (tenantId, ops)) :
      ∃ e' ∈ (s, e) :: log, e'.2 = .sendBatch tenantId ops := sent_cons hinv (fun _ _ => id) j tenantId ops hj
  cases next_effect h with
  | refused hlooks =>
    exact (allPaid_add hpaid).trans (iff_of_true nofun (not_findsUnpaid_of_none hlooks))
  | @found tenantId ops r hne hlooks hjob =>
    have hapart := apart_of_sent hfree hne ⟨_, List.mem_cons_self, rfl⟩ hall
    rw [allPaid_add hpaid, ← hinv.ledger.answer_iff hapart hlooks hjob]
    exact ⟨fun h => h r rfl, fun h _ _ => h⟩
  | began hne hlooks hjob =>
    exact (allPaid_add hpaid).trans (iff_of_true nofun (not_findsUnpaid_of_new hlooks hjob))
  | @moved _ i c stage lock hcall hlooks hmoves =>
    refine (allPaid_goto hpaid (by rfl) (by rfl)).trans (iff_of_true (fun r hr => ?_) (not_findsUnpaid_of_none hlooks))
    obtain ⟨hash, hstage⟩ := hmoves.returned r hr
    obtain ⟨a, ha, rfl⟩ := (hinv.stands i c hcall).recorded hash hstage
    exact hinv.ledger.paid ha (by rw [State.job, hcall]; rfl)
  | @collided _ i c r hcall hunsent hlooks hjob =>
    have hmine := hall i c.tenantId c.ops (by rw [State.job, hcall]; rfl)
    have hapart := apart_of_sent hfree ((hinv.stands i c hcall).nonempty hunsent) hmine hall
    refine (allPaid_goto hpaid (by rfl) (by rfl)).trans ?_
    rw [← hinv.ledger.answer_iff hapart hlooks hjob]
    exact ⟨fun h => h r rfl, fun h _ _ => h⟩
  | stored hcall hstage hlooks hjob =>
    have hnone := not_findsUnpaid_of_new hlooks hjob
    exact (allPaid_goto hpaid (by rfl) (by rfl)).trans (iff_of_true (fun r hr => by cases hr) hnone)
  | submitted hcall hlooks =>
    have hnone := not_findsUnpaid_of_none (P := P) (s := s) hlooks
    exact (allPaid_goto hpaid (by rfl) (by rfl)).trans (iff_of_true (fun r hr => by cases hr) hnone)
  | landed =>
    refine iff_of_true (fun i c r hcall hr => ?_) (not_findsUnpaid_of_none rfl)
    exact (hpaid i c r hcall hr).mono fun a => List.mem_cons_of_mem _

theorem PayRun.inv (hrun : PayRun P log s) : Inv P log s := by
  refine Run.invariant_log (P := Inv P) ?_ (fun _ _ _ _ _ h hs => h.step hs) hrun
  refine ⟨⟨.nil, nofun, nofun, nofun, .nil⟩, nofun, fun _ _ => rfl, nofun⟩

theorem PayRun.truthful_iff (hrun : PayRun P log s) : Truthful P s ↔ AllPaid P s :=
  ⟨fun h => h.paid, fun h => ⟨h, (PayRun.inv hrun).ledger.once_each⟩⟩

/-- In every run, a call returns only when its operations are paid, and no job is paid twice, if and only if no call
comes upon the row of a call whose transaction has not been accepted. -/
theorem payments_truthful_iff (hrun : PayRun P log s) (hfree : CollisionFree P log) :
    (∀ t ∈ Run.states log s, Truthful P t) ↔ ∀ e ∈ log, ¬ FindsUnpaid P e.1 e.2 := by
  induction hrun with
  | start =>
    refine iff_of_true (fun t ht => ?_) (List.forall_mem_nil _)
    rw [List.mem_singleton.mp ht]
    exact (PayRun.truthful_iff .start).mpr nofun
  | @call log s s' e hr hs ih =>
    have hbefore : CollisionFree P log := fun e₁ h₁ e₂ h₂ =>
      hfree e₁ (List.mem_cons_of_mem _ h₁) e₂ (List.mem_cons_of_mem _ h₂)
    rw [Run.states_cons, List.forall_mem_cons, List.forall_mem_cons, ih hbefore]
    refine and_congr_left fun hlog => ?_
    have hpaid : AllPaid P s := ((ih hbefore).mpr hlog s List.mem_cons_self).paid
    rw [PayRun.truthful_iff (.call hr hs)]
    exact allPaid_iff (PayRun.inv hr) hfree hpaid hs

end

/-! ## A batch that fails once its row is stored -/

def zeroAccount : String := "GAAAAAAAAAAAAAAAAAAAAAAAAAAAAAAAAAAAAAAAAAAAAAAAAAAAAWHF"

def sampleOps : List PaymentOp := [⟨zeroAccount, .XLM, "5", none⟩]

def samplePlatform : Platform where
  hash text :=
    if text = String.ofList (jobText "default" sampleOps) then
      "ad804e3171942beee5049690a8f77ea2a19485a783e9a1814fcf3eab37aed29b"
    else text
  ISSUERS _ := none
  isAccount destination := destination = zeroAccount

def Event.sendsOnly (tenantId : String) (ops : List PaymentOp) : Event → Bool
  | .sendBatch tenantId' ops' => tenantId' = tenantId ∧ ops' = ops
  | _ => true

theorem collisionFree_of_sendsOnly {P : Platform} {log : List (State × Event)} {tenantId : String}
    {ops : List PaymentOp} (h : ∀ e ∈ log, e.2.sendsOnly tenantId ops = true) : CollisionFree P log := by
  have hsame {e : State × Event} (he : e ∈ log) {tenantId' : String} {ops' : List PaymentOp}
      (hsend : e.2 = .sendBatch tenantId' ops') : tenantId' = tenantId ∧ ops' = ops := by
    have := h e he
    rw [hsend] at this
    exact of_decide_eq_true this
  intro e he e' he' tenantId₁ ops₁ tenantId₂ ops₂ hsend hsend' _
  obtain ⟨rfl, rfl⟩ := hsame he hsend
  obtain ⟨rfl, rfl⟩ := hsame he' hsend'
  rfl

theorem exists_run {P : Platform} (events : List Event) (test : List (State × Event) → State → Bool)
    (h : (Run.replay (next P) events [] {}).any (fun r => test r.1 r.2) = true) :
    ∃ log s, PayRun P log s ∧ test log s = true :=
  Run.exists_of_replay (fun _ _ _ => id) h

/-- The batch is paid, and asked for again. -/
def paidEvents : List Event :=
  [.sendBatch "default" sampleOps, .resume 0 (.ok (.inserts "2026-02-03T00:00:00.000Z" none)), .resume 0 (.ok .settles),
    .resume 0 (.ok .settles), .resume 0 (.ok (.feeEstimate 100)), .resume 0 (.ok (.throttle none)),
    .resume 0 (.ok .settles), .resume 0 (.ok (.sequence 41)), .resume 0 (.ok .settles), .lands 0,
    .resume 0 (.ok (.hash "3c1f")), .resume 0 (.ok .settles), .sendBatch "default" sampleOps]

/-- The account cannot be loaded, and the batch is asked for again. -/
def unpaidEvents : List Event :=
  [.sendBatch "default" sampleOps, .resume 0 (.ok (.inserts "2026-02-03T00:00:00.000Z" none)),
    .resume 0 (.error "Request failed with status code 503"), .sendBatch "default" sampleOps]

theorem payments_truthful_iff_when_paid : ∃ log s, PayRun samplePlatform log s ∧
    ((∀ t ∈ Run.states log s, Truthful samplePlatform t) ↔ ∀ e ∈ log, ¬ FindsUnpaid samplePlatform e.1 e.2) ∧
    s.count = 2 ∧ s.accepted.length = 1 := by
  obtain ⟨log, s, hrun, htest⟩ := exists_run (P := samplePlatform) paidEvents
    (fun log s => log.all (fun e => e.2.sendsOnly "default" sampleOps) && decide (s.count = 2 ∧ s.accepted.length = 1))
    (by decide +kernel)
  rw [Bool.and_eq_true, List.all_eq_true] at htest
  have hfree : CollisionFree samplePlatform log := collisionFree_of_sendsOnly htest.1
  exact ⟨log, s, hrun, payments_truthful_iff hrun hfree, of_decide_eq_true htest.2⟩

/-- The second call finds the row of the first, and returns though nothing was accepted. -/
theorem unpaid_batch_returned : ∃ log s, PayRun samplePlatform log s ∧ CollisionFree samplePlatform log ∧
    (∃ c r, s.calls 1 = some c ∧ c.stage = .returned r) ∧ s.accepted = [] ∧ ¬ Truthful samplePlatform s := by
  obtain ⟨log, s, hrun, htest⟩ := exists_run (P := samplePlatform) unpaidEvents
    (fun log s => log.all (fun e => e.2.sendsOnly "default" sampleOps) && decide (s.accepted = [] ∧
      s.calls 1 = some ⟨"default", sampleOps, .returned ⟨jobId samplePlatform "default" sampleOps, 1⟩⟩))
    (by decide +kernel)
  rw [Bool.and_eq_true, List.all_eq_true] at htest
  have hfree : CollisionFree samplePlatform log := collisionFree_of_sendsOnly htest.1
  obtain ⟨hnone, hcall⟩ := of_decide_eq_true htest.2
  refine ⟨log, s, hrun, hfree, ⟨_, _, hcall, rfl⟩, hnone, fun htruthful => ?_⟩
  obtain ⟨a, ha, -⟩ := htruthful.paid 1 _ _ hcall rfl
  rw [hnone] at ha
  exact absurd ha List.not_mem_nil

end ZkVote.Payments

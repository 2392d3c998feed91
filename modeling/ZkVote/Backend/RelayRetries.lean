import ZkVote.Backend.VoteRelay
import ZkVote.Lib.Runs
import ZkVote.Lib.Sha256

/-!
# Retries of a vote

A request that failed leaves its commitment revealed and its slot claimed. A retry gets past both if the request had
no commitment to reveal, and more than two minutes have passed since it claimed the slot.
-/

open Lib

namespace ZkVote.VoteRelay

variable {Proof : Type} {platform : Platform Proof} {config : Config} {w w' w₁ : World Proof} {i : Nat}
  {r : VoteRequest Proof} {now : Int} {log : List (World Proof × Event Proof)}

/-! ## What is promised -/

structure Identical (r r' : VoteRequest Proof) : Prop where
  proof : r'.proof = r.proof
  nullifier : r'.nullifier = r.nullifier
  timestamp : r'.timestamp = r.timestamp
  nonce : r'.nonce = r.nonce
  idempotencyHeader : r'.idempotencyHeader = r.idempotencyHeader

/-- No request is turned away for the record of an identical one that had failed when it arrived. -/
def Retryable (w : World Proof) : Prop :=
  ∀ h ∈ w.handlers, ∀ i ∈ h.failedBefore, h.blockedBy = some i → ∀ failed, w.handlers[i]? = some failed →
    ¬ Identical failed.request h.request

/-- The failed requests before an identical one in time had revealed no commitment, and claimed their slot more than
two minutes ago. -/
def Meets (config : Config) (w : World Proof) : Event Proof → Prop
  | .resume j (.redundancy now _) => ∀ h, w.handlers[j]? = some h → h.request.expired config now = false →
    ∀ i ∈ h.failedBefore, ∀ failed, w.handlers[i]? = some failed → Identical failed.request h.request →
      failed.revealed = false ∧ ∀ claimedAt, failed.claimedAt = some claimedAt → claimedAt < now - 120000
  | _ => True

/-! ## What `process` does -/

/-- The handler awaits something else, or has answered. -/
inductive Parks (i : Nat) (w : World Proof) : World Proof → Prop
  | await {stage : Stage} (hstage : stage ≠ .redundancy) : Parks i w (w.await i stage)
  | fail (reply : Reply) : Parks i w (w.fail i reply)

inductive Enters (i : Nat) (now : Int) (w : World Proof) : World Proof → Prop
  | parks {w' : World Proof} (hparks : Parks i w w') : Enters i now w w'
  | blocked {key : String} {existing : VoteSubmission} (hexisting : w.db.getVoteSubmission key = some existing)
      (hstatus : existing.status ≠ .confirmed) :
      Enters i now w (w.block i (.pending existing.tx_hash) (w.claimedBy key))
  | claims {key : String} {w' : World Proof} (hnone : w.db.getVoteSubmission key = none)
      (hparks : Parks i (w.claim i key now) w') : Enters i now w w'

inductive Processes (config : Config) (i : Nat) (r : VoteRequest Proof) (now : Int) (w : World Proof) :
    World Proof → Prop
  | parks {w' : World Proof} (hparks : Parks i w w') : Processes config i r now w w'
  | blocked {commitmentHash : String} {reply : Reply} (hfresh : r.expired config now = false) :
      Processes config i r now w (w.block i reply (w.revealedBy commitmentHash))
  | enters {w' : World Proof} (hfresh : r.expired config now = false) (henters : Enters i now (w.cleanup now) w') :
      Processes config i r now w w'
  | reveals {commitmentHash : String} {w' : World Proof} (hfresh : r.expired config now = false)
      (henters : Enters i now ((w.reveal i commitmentHash).cleanup now) w') : Processes config i r now w w'

theorem answer_parks (reply : Reply) : Parks i w (w.answer i reply) := .await fun h => (nomatch h)

theorem submit_parks (converted : Except String Unit) : Parks i w (w.submit config i converted) := by
  unfold World.submit
  split
  · exact .fail _
  · split
    · split
      · exact .await fun h => (nomatch h)
      · exact .fail _
    · exact .await fun h => (nomatch h)

theorem enter_enters (converted : Except String Unit) :
    Enters i now (w.cleanup now) (w.enter config i r now converted) := by
  unfold World.enter
  dsimp only
  split
  · exact .parks (submit_parks converted)
  · next key hkey =>
    unfold World.enterSlot
    split
    · next existing hexisting =>
      split
      · split
        · exact .parks (answer_parks _)
        · exact .parks (.await fun h => (nomatch h))
      · next hstatus => exact .blocked hexisting hstatus
    · next hnone =>
      split
      · exact .claims hnone (submit_parks converted)
      · exact .parks (submit_parks converted)

theorem process_processes (converted : Except String Unit) :
    Processes config i r now w (w.process platform config i r now converted) := by
  unfold World.process
  split
  · exact .parks (answer_parks _)
  · next hfresh =>
    rw [Bool.not_eq_true] at hfresh
    split
    · exact .parks (answer_parks _)
    · split
      · exact .enters hfresh (enter_enters converted)
      · split
        · exact .enters hfresh (enter_enters converted)
        · split
          · exact .blocked hfresh
          · exact .reveals hfresh (enter_enters converted)

/-! ## One handler at a time -/

theorem modify_self (f : Handler Proof → Handler Proof) :
    (w.modify i f).handlers[i]? = (w.handlers[i]?).map f := List.getElem?_modify_eq f i w.handlers

theorem modify_others (f : Handler Proof → Handler Proof) {j : Nat} (hj : j ≠ i) :
    (w.modify i f).handlers[j]? = w.handlers[j]? := List.getElem?_modify_ne f w.handlers (Ne.symm hj)

theorem length_modify (f : Handler Proof → Handler Proof) :
    (w.modify i f).handlers.length = w.handlers.length := List.length_modify f w.handlers i

/-- The other handlers have not changed, and this one does not await the redundancy check. -/
structure Turn (i : Nat) (w w' : World Proof) : Prop where
  others : ∀ j, j ≠ i → w'.handlers[j]? = w.handlers[j]?
  ends : ∀ h, w'.handlers[i]? = some h → h.stage ≠ .redundancy

theorem await_turn {stage : Stage} (hstage : stage ≠ .redundancy) : Turn i w (w.await i stage) where
  others _ := modify_others _
  ends h hmem := by
    unfold World.await at hmem
    rw [modify_self] at hmem
    obtain ⟨_, _, rfl⟩ := Option.map_eq_some_iff.mp hmem
    exact hstage

theorem block_turn (reply : Reply) (cause : Option Nat) : Turn i w (w.block i reply cause) where
  others j hj := (modify_others _ hj).trans (modify_others _ hj)
  ends h hmem := by
    unfold World.block at hmem
    rw [modify_self] at hmem
    obtain ⟨h', hmem', rfl⟩ := Option.map_eq_some_iff.mp hmem
    exact (await_turn fun h => (nomatch h) : Turn i w (w.answer i reply)).ends h' hmem'

theorem Turn.after (h : Turn i w₁ w') (hothers : ∀ j, j ≠ i → w₁.handlers[j]? = w.handlers[j]?) : Turn i w w' where
  others j hj := (h.others j hj).trans (hothers j hj)
  ends := h.ends

theorem Parks.turn (h : Parks i w w') : Turn i w w' := by
  cases h with
  | await hstage => exact await_turn hstage
  | fail reply =>
    have hanswered : Turn i w (w.answer i reply) := await_turn fun h => (nomatch h)
    exact { hanswered with }

theorem Enters.turn (h : Enters i now w w') : Turn i w w' := by
  cases h with
  | parks hparks => exact hparks.turn
  | blocked hexisting hstatus => exact block_turn _ _
  | claims hnone hparks => exact hparks.turn.after fun _ => modify_others _

theorem Processes.turn (h : Processes config i r now w w') : Turn i w w' := by
  cases h with
  | parks hparks => exact hparks.turn
  | blocked hfresh => exact block_turn _ _
  | enters hfresh henters => exact { henters.turn with }
  | reveals hfresh henters => exact henters.turn.after fun _ => modify_others _

/-! ## Records and their requests -/

/-- Who revealed a commitment and who claimed a slot knows of it, and who failed has arrived before. -/
structure Inv (w : World Proof) : Prop where
  failures : ∀ k ∈ w.failures, k < w.handlers.length
  failedBefore : ∀ h ∈ w.handlers, ∀ k ∈ h.failedBefore, k < w.handlers.length
  revealed : ∀ commitmentHash i, w.revealedBy commitmentHash = some i →
    ∃ h, w.handlers[i]? = some h ∧ h.revealed = true
  claimed : ∀ row ∈ w.db.submissions, ∀ i, w.claimedBy row.nullifier_hash = some i →
    ∃ h, w.handlers[i]? = some h ∧ h.claimedAt = some row.created_at
  retryable : Retryable w

/-- A change to a handler that forgets nothing. -/
structure Grows (h h' : Handler Proof) : Prop where
  request : h'.request = h.request
  failedBefore : h'.failedBefore = h.failedBefore
  revealed : h.revealed = true → h'.revealed = true
  claimedAt : ∀ now, h.claimedAt = some now → h'.claimedAt = some now

theorem Grows.refl (h : Handler Proof) : Grows h h := ⟨rfl, rfl, id, fun _ => id⟩

theorem modify_grows {f : Handler Proof → Handler Proof} (hf : ∀ h, w.handlers[i]? = some h → Grows h (f h)) {j : Nat}
    {h : Handler Proof} (hh : w.handlers[j]? = some h) : ∃ h', (w.modify i f).handlers[j]? = some h' ∧ Grows h h' := by
  by_cases hij : i = j
  · subst hij
    exact ⟨f h, by rw [modify_self, hh]; rfl, hf h hh⟩
  · exact ⟨h, (modify_others f (Ne.symm hij)).trans hh, .refl h⟩

theorem modify_back {f : Handler Proof → Handler Proof} {j : Nat} {h' : Handler Proof}
    (hh' : (w.modify i f).handlers[j]? = some h') :
    ∃ h, w.handlers[j]? = some h ∧ (h' = h ∨ i = j ∧ h' = f h) := by
  by_cases hij : i = j
  · subst hij
    rw [modify_self] at hh'
    obtain ⟨h, hh, rfl⟩ := Option.map_eq_some_iff.mp hh'
    exact ⟨h, hh, .inr ⟨rfl, rfl⟩⟩
  · exact ⟨h', (modify_others f (Ne.symm hij)).symm.trans hh', .inl rfl⟩

/-- The failed requests that are identical to the one of handler `i` are not what it is blocked by. -/
def Clears (w : World Proof) (i : Nat) (cause : Handler Proof → Option Nat) : Prop :=
  ∀ h, w.handlers[i]? = some h → ∀ k ∈ h.failedBefore, cause h = some k → ∀ failed, w.handlers[k]? = some failed →
    ¬ Identical failed.request h.request

theorem retryable_iff : Retryable w ↔ ∀ i, Clears w i fun h => h.blockedBy := by
  constructor
  · intro hretry i h hh
    exact hretry h (List.mem_of_getElem? hh)
  · intro hclear h hmem
    obtain ⟨i, hi⟩ := List.mem_iff_getElem?.mp hmem
    exact hclear i h hi

section
variable {f : Handler Proof → Handler Proof} (hf : ∀ h, w.handlers[i]? = some h → Grows h (f h))
include hf

theorem clears_modify {j : Nat} {cause : Handler Proof → Option Nat}
    (hcause : j = i → Clears w i fun h => cause (f h)) (hother : j ≠ i → Clears w j cause) :
    Clears (w.modify i f) j cause := by
  intro h' hh' k hk hcaused failed' hfailed' hidentical
  obtain ⟨failed, hfailed, hfrom⟩ := modify_back hfailed'
  have hrequest : failed'.request = failed.request := by
    rcases hfrom with rfl | ⟨rfl, rfl⟩
    · rfl
    · exact (hf failed hfailed).request
  rw [hrequest] at hidentical
  by_cases hj : j = i
  · subst hj
    rw [modify_self] at hh'
    obtain ⟨h, hh, rfl⟩ := Option.map_eq_some_iff.mp hh'
    rw [(hf h hh).request] at hidentical
    rw [(hf h hh).failedBefore] at hk
    exact hcause rfl h hh k hk hcaused failed hfailed hidentical
  · rw [modify_others f hj] at hh'
    exact hother hj h' hh' k hk hcaused failed hfailed hidentical

theorem Inv.modify (hinv : Inv w) (hcause : Clears w i fun h => (f h).blockedBy) : Inv (w.modify i f) where
  failures k hk := by
    rw [length_modify]
    exact hinv.failures k hk
  failedBefore h' hh' k hk := by
    rw [length_modify]
    obtain ⟨j, hj⟩ := List.mem_iff_getElem?.mp hh'
    obtain ⟨h, hh, hfrom⟩ := modify_back hj
    refine hinv.failedBefore h (List.mem_of_getElem? hh) k ?_
    rcases hfrom with rfl | ⟨rfl, rfl⟩
    · exact hk
    · exact (hf h hh).failedBefore ▸ hk
  revealed commitmentHash k hk := by
    obtain ⟨h, hh, hrevealed⟩ := hinv.revealed commitmentHash k hk
    obtain ⟨h', hh', hgrows⟩ := modify_grows hf hh
    exact ⟨h', hh', hgrows.revealed hrevealed⟩
  claimed row hrow k hk := by
    obtain ⟨h, hh, hclaimed⟩ := hinv.claimed row hrow k hk
    obtain ⟨h', hh', hgrows⟩ := modify_grows hf hh
    exact ⟨h', hh', hgrows.claimedAt _ hclaimed⟩
  retryable := retryable_iff.mpr fun j =>
    clears_modify hf (fun _ => hcause) fun _ => retryable_iff.mp hinv.retryable j

end

theorem Inv.await (h : Inv w) (i : Nat) (stage : Stage) : Inv (w.await i stage) :=
  h.modify (fun _ _ => ⟨rfl, rfl, id, fun _ => id⟩) (retryable_iff.mp h.retryable i)

/-- The rows that are left, or changed in their status, were there before. -/
def Keeps (db db' : Db) : Prop :=
  ∀ row ∈ db'.submissions, ∃ row₀ ∈ db.submissions, row₀.nullifier_hash = row.nullifier_hash ∧
    row₀.created_at = row.created_at

theorem Inv.db (h : Inv w) {db : Db} (hkeeps : Keeps w.db db) : Inv { w with db } where
  failures := h.failures
  failedBefore := h.failedBefore
  revealed := h.revealed
  claimed row hrow i hi := by
    obtain ⟨row₀, hrow₀, hkey, hcreated⟩ := hkeeps row hrow
    rw [← hcreated]
    exact h.claimed row₀ hrow₀ i (by rw [hkey]; exact hi)
  retryable := h.retryable

theorem keeps_refl (db : Db) : Keeps db db := fun row hrow => ⟨row, hrow, rfl, rfl⟩

theorem updateVoteSubmission_keeps (db : Db) (key : String) (status : SubmissionStatus) :
    Keeps db (db.updateVoteSubmission key status) := by
  intro row hrow
  obtain ⟨row₀, hrow₀, rfl⟩ := List.mem_map.mp hrow
  refine ⟨row₀, hrow₀, ?_⟩
  split
  · exact ⟨rfl, rfl⟩
  · exact ⟨rfl, rfl⟩

theorem Inv.cleanup (h : Inv w) (now : Int) : Inv (w.cleanup now) :=
  h.db fun row hrow => ⟨row, List.mem_of_mem_filter hrow, rfl, rfl⟩

theorem Inv.reveal (h : Inv w) (commitmentHash : String) {handler : Handler Proof}
    (hi : w.handlers[i]? = some handler) : Inv (w.reveal i commitmentHash) := by
  have hmodified : Inv (w.modify i fun h => { h with revealed := true }) :=
    h.modify (fun _ _ => ⟨rfl, rfl, fun _ => rfl, fun _ => id⟩) (retryable_iff.mp h.retryable i)
  exact { hmodified with
    revealed := fun hash k hk => by
      change Function.update w.revealedBy commitmentHash (some i) hash = some k at hk
      by_cases heq : hash = commitmentHash
      · rw [heq, Function.update_self] at hk
        cases hk
        exact ⟨{ handler with revealed := true }, by
          rw [World.reveal, modify_self, hi]
          rfl, rfl⟩
      · rw [Function.update_of_ne heq] at hk
        exact hmodified.revealed hash k hk }

/-- A slot is claimed where there is no row, by a request that has claimed none. -/
theorem Inv.claim (h : Inv w) {key : String} (hnone : w.db.getVoteSubmission key = none) {handler : Handler Proof}
    (hi : w.handlers[i]? = some handler) (hfirst : handler.claimedAt = none) : Inv (w.claim i key now) := by
  have hgrows : ∀ h, w.handlers[i]? = some h → Grows h { h with claimedAt := some now } := by
    intro h hh
    cases hi.symm.trans hh
    exact ⟨rfl, rfl, id, fun claimedAt hsome => by rw [hfirst] at hsome; cases hsome⟩
  have hmodified : Inv (w.modify i fun h => { h with claimedAt := some now }) :=
    h.modify hgrows (retryable_iff.mp h.retryable i)
  have hrows : (w.claim i key now).db.submissions = w.db.submissions ++
      [{ nullifier_hash := key, status := .pending, tx_hash := none, created_at := now }] := by
    unfold World.claim Db.insertVoteSubmission
    rw [hnone]
    rfl
  exact { hmodified with
    claimed := fun row hrow k hk => by
      change Function.update w.claimedBy key (some i) row.nullifier_hash = some k at hk
      rw [hrows] at hrow
      rcases List.mem_append.mp hrow with hold | hnew
      · have hother : row.nullifier_hash ≠ key := fun heq =>
          List.find?_eq_none.mp hnone row hold (decide_eq_true heq)
        rw [Function.update_of_ne hother] at hk
        exact hmodified.claimed row hold k hk
      · rw [List.mem_singleton.mp hnew] at hk ⊢
        rw [Function.update_self] at hk
        cases hk
        exact ⟨{ handler with claimedAt := some now }, by
          rw [World.claim, modify_self, hi]
          rfl, rfl⟩ }

theorem Parks.inv (hparks : Parks i w w') (h : Inv w) (hi : i < w.handlers.length) : Inv w' := by
  cases hparks with
  | await hstage => exact h.await i _
  | fail reply =>
    have hanswered := h.await i (.answered reply)
    exact { hanswered with
      failures := fun k hk => by
        rcases List.mem_cons.mp hk with rfl | hk
        · exact (length_modify _).symm ▸ hi
        · exact hanswered.failures k hk }

theorem Inv.block (h : Inv w) {reply : Reply} {cause : Option Nat} (hclear : Clears w i fun _ => cause) :
    Inv (w.block i reply cause) := by
  have hgrows : ∀ h, w.handlers[i]? = some h → Grows h { h with stage := .answered reply } :=
    fun _ _ => ⟨rfl, rfl, id, fun _ => id⟩
  have hanswered : Clears (w.modify i fun h => { h with stage := .answered reply }) i fun _ => cause :=
    clears_modify hgrows (fun _ => hclear) fun hne => absurd rfl hne
  exact (h.await i (.answered reply)).modify (fun _ _ => ⟨rfl, rfl, id, fun _ => id⟩) hanswered

/-- The failed requests that are identical to the one of handler `i` claimed their slots more than two minutes ago. -/
def Late (i : Nat) (now : Int) (w : World Proof) : Prop :=
  ∀ h, w.handlers[i]? = some h → ∀ k ∈ h.failedBefore, ∀ failed, w.handlers[k]? = some failed →
    Identical failed.request h.request → ∀ claimedAt, failed.claimedAt = some claimedAt → claimedAt < now - 120000

theorem Late.reveal (h : Late i now w) (commitmentHash : String) : Late i now (w.reveal i commitmentHash) := by
  have hback : ∀ (j : Nat) (h' : Handler Proof), (w.reveal i commitmentHash).handlers[j]? = some h' →
      ∃ h : Handler Proof, w.handlers[j]? = some h ∧ h'.request = h.request ∧
        h'.failedBefore = h.failedBefore ∧ h'.claimedAt = h.claimedAt := by
    intro j h' hh'
    obtain ⟨h, hh, rfl | ⟨_, rfl⟩⟩ := modify_back hh'
    · exact ⟨h', hh, rfl, rfl, rfl⟩
    · exact ⟨h, hh, rfl, rfl, rfl⟩
  intro h' hh' k hk failed' hfailed'
  obtain ⟨handler, hhandler, hrequest, hbefore, _⟩ := hback i h' hh'
  obtain ⟨failed, hfailed, hrequest', _, hclaimed⟩ := hback k failed' hfailed'
  rw [hrequest, hrequest', hclaimed]
  exact h handler hhandler k (hbefore ▸ hk) failed hfailed

/-- A row that is still there after the cleanup, and not confirmed, is not older than two minutes. -/
theorem enters_inv (henters : Enters i now (w.cleanup now) w') (h : Inv w) (hlate : Late i now w)
    {handler : Handler Proof} (hi : w.handlers[i]? = some handler) (hfirst : handler.claimedAt = none) : Inv w' := by
  have hclean := h.cleanup now
  have hlt : i < w.handlers.length := (List.getElem?_eq_some_iff.mp hi).1
  cases henters with
  | parks hparks => exact hparks.inv hclean hlt
  | claims hnone hparks => exact hparks.inv (hclean.claim hnone hi hfirst) ((length_modify _).symm ▸ hlt)
  | @blocked key existing hexisting hstatus =>
    have hrow : existing ∈ (w.cleanup now).db.submissions := List.mem_of_find?_eq_some hexisting
    have hkey : existing.nullifier_hash = key := by
      have hfound := List.find?_some hexisting
      exact of_decide_eq_true hfound
    have hkept := of_decide_eq_true (List.mem_filter.mp hrow).2
    refine hclean.block fun h' hh' k hk hcause failed hfailed hidentical => ?_
    obtain ⟨failed', hfailed', hclaimed⟩ := hclean.claimed existing hrow k (by rw [hkey]; exact hcause)
    cases hfailed.symm.trans hfailed'
    exact hkept ⟨hstatus, hlate h' hh' k hk failed hfailed hidentical _ hclaimed⟩

theorem processes_inv (hprocesses : Processes config i r now w w') (h : Inv w) {handler : Handler Proof}
    (hi : w.handlers[i]? = some handler) (hr : handler.request = r) (hfirst : handler.claimedAt = none)
    {converted : Except String Unit} (hmeets : Meets config w (.resume i (.redundancy now converted))) : Inv w' := by
  subst hr
  have hlate (hfresh : handler.request.expired config now = false) : Late i now w := by
    intro h' hh' k hk failed hfailed hidentical
    cases hi.symm.trans hh'
    exact (hmeets handler hi hfresh k hk failed hfailed hidentical).2
  cases hprocesses with
  | parks hparks => exact hparks.inv h (List.getElem?_eq_some_iff.mp hi).1
  | enters hfresh henters => exact enters_inv henters h (hlate hfresh) hi hfirst
  | @reveals commitmentHash _ hfresh henters =>
    have hi' : (w.reveal i commitmentHash).handlers[i]? = some { handler with revealed := true } := by
      rw [World.reveal, modify_self, hi]
      rfl
    exact enters_inv henters (h.reveal commitmentHash hi) ((hlate hfresh).reveal commitmentHash) hi' hfirst
  | @blocked commitmentHash reply hfresh =>
    refine h.block fun h' hh' k hk hcause failed hfailed hidentical => ?_
    cases hi.symm.trans hh'
    obtain ⟨failed', hfailed', hrevealed⟩ := h.revealed commitmentHash k hcause
    cases hfailed.symm.trans hfailed'
    have hnone := (hmeets handler hi hfresh k hk failed hfailed hidentical).1
    rw [hrevealed] at hnone
    cases hnone

/-! ## Runs -/

/-- A request that awaits the redundancy check has claimed no slot. -/
def Waiting (w : World Proof) : Prop :=
  ∀ (i : Nat) (h : Handler Proof), w.handlers[i]? = some h → h.stage = .redundancy → h.claimedAt = none

/-- What a step other than `process` does to the records. -/
inductive Moves (config : Config) (w : World Proof) : Event Proof → World Proof → Prop
  | commit {commitmentHash : String} {timestamp now : Int} {db : Db} (hkeeps : Keeps w.db db) :
      Moves config w (.commit commitmentHash timestamp now) { w with db }
  | arrive (r : VoteRequest Proof) : Moves config w (.arrive r) (w.arrive r)
  | process {i : Nat} {h : Handler Proof} {now : Int} {converted : Except String Unit} {w' : World Proof}
      (hi : w.handlers[i]? = some h) (hstage : h.stage = .redundancy)
      (hprocesses : Processes config i h.request now w w') :
      Moves config w (.resume i (.redundancy now converted)) w'
  | parks {i : Nat} {outcome : Outcome} {db : Db} {w' : World Proof} (hi : i < w.handlers.length)
      (hkeeps : Keeps w.db db) (hparks : Parks i { w with db } w') : Moves config w (.resume i outcome) w'

theorem commit_keeps (commitmentHash : String) (timestamp now : Int) :
    ∃ db, w.commit config commitmentHash timestamp now = { w with db } ∧ Keeps w.db db := by
  unfold World.commit
  split
  · exact ⟨w.db, rfl, keeps_refl _⟩
  · split
    · exact ⟨w.db, rfl, keeps_refl _⟩
    · split
      · split
        · exact ⟨w.db, rfl, keeps_refl _⟩
        · exact ⟨_, rfl, keeps_refl _⟩
      · exact ⟨_, rfl, keeps_refl _⟩

theorem submitted_parks (sr : World.SendResult) :
    ∃ db, Keeps w.db db ∧ Parks i { w with db } (w.submitted i r sr) := by
  unfold World.submitted
  split
  · refine ⟨_, ?_, .await fun h => (nomatch h)⟩
    split
    · exact keeps_refl _
    · exact updateVoteSubmission_keeps _ _ _
  · exact ⟨w.db, keeps_refl _, .await fun h => (nomatch h)⟩

theorem storeVoteReceipt_submissions (db : Db) (receipt : VoteReceipt) :
    (db.storeVoteReceipt receipt).submissions = db.submissions := by
  unfold Db.storeVoteReceipt
  split
  · rfl
  · rfl

theorem respond_parks (hash : Option String) (status : String) :
    ∃ db, Keeps w.db db ∧ Parks i { w with db } (w.respondToVoteExecution i r hash status) := by
  unfold World.respondToVoteExecution
  split
  · refine ⟨_, ?_, answer_parks _⟩
    split
    · intro row hrow
      rw [storeVoteReceipt_submissions] at hrow
      exact ⟨row, hrow, rfl, rfl⟩
    · exact keeps_refl _
  · exact ⟨w.db, keeps_refl _, answer_parks _⟩

theorem caught_parks (err : Thrown) (accepted : Bool) :
    ∃ db, Keeps w.db db ∧ Parks i { w with db } (w.caught i r err accepted) := by
  unfold World.caught
  cases r.idempotencyKey with
  | none =>
    refine ⟨w.db, keeps_refl _, ?_⟩
    dsimp only
    split
    · exact answer_parks _
    · exact .fail _
  | some key =>
    refine ⟨w.db.updateVoteSubmission key .failed, updateVoteSubmission_keeps _ _ _, ?_⟩
    dsimp only
    split
    · exact answer_parks _
    · exact .fail _

theorem moves_of_step {event : Event Proof} (h : w.Step platform config event w') : Moves config w event w' := by
  unfold World.Step at h
  cases event with
  | commit commitmentHash timestamp now =>
    obtain ⟨db, hdb, hkeeps⟩ :
        ∃ db, w.commit config commitmentHash timestamp now = { w with db } ∧ Keeps w.db db :=
      commit_keeps commitmentHash timestamp now
    rw [← Option.some.inj h, hdb]
    exact .commit hkeeps
  | arrive r =>
    rw [← Option.some.inj h]
    exact .arrive r
  | resume i outcome =>
    obtain ⟨handler, hi, hresume⟩ := Option.bind_eq_some_iff.mp h
    have hlt : i < w.handlers.length := (List.getElem?_eq_some_iff.mp hi).1
    have hawait {stage : Stage} (hstage : stage ≠ .redundancy) : Moves config w (.resume i outcome) (w.await i stage) :=
      .parks hlt (keeps_refl w.db) (.await hstage)
    unfold World.resume at hresume
    cases outcome with
    | redundancy now converted =>
      obtain ⟨hstage, hw⟩ := Option.ite_none_right_eq_some.mp hresume
      cases hw
      exact .process hi hstage (process_processes converted)
    | account =>
      obtain ⟨_, hw⟩ := Option.ite_none_right_eq_some.mp hresume
      cases hw
      exact hawait fun h => (nomatch h)
    | simulation success =>
      obtain ⟨_, hw⟩ := Option.ite_none_right_eq_some.mp hresume
      cases hw
      refine hawait ?_
      split
      · exact fun h => (nomatch h)
      · exact fun h => (nomatch h)
    | submission sr =>
      obtain ⟨_, hw⟩ := Option.ite_none_right_eq_some.mp hresume
      cases hw
      obtain ⟨db, hkeeps, hparks⟩ := submitted_parks (w := w) (i := i) (r := handler.request) sr
      exact .parks hlt hkeeps hparks
    | confirmation status =>
      dsimp only at hresume
      split at hresume
      · next hash _ =>
        cases hresume
        obtain ⟨db, hkeeps, hparks⟩ := respond_parks (w := w) (i := i) (r := handler.request) hash status
        exact .parks hlt hkeeps hparks
      · cases hresume
    | executor hash status =>
      obtain ⟨_, hw⟩ := Option.ite_none_right_eq_some.mp hresume
      cases hw
      obtain ⟨db, hkeeps, hparks⟩ := respond_parks (w := w) (i := i) (r := handler.request) hash status
      exact .parks hlt hkeeps hparks
    | rejected err =>
      dsimp only at hresume
      split at hresume
      · cases hresume
      · cases hresume
      · cases hresume
        exact hawait fun h => (nomatch h)
      · cases hresume
        exact hawait fun h => (nomatch h)
    | caught =>
      dsimp only at hresume
      split at hresume
      · next err accepted _ =>
        cases hresume
        obtain ⟨db, hkeeps, hparks⟩ := caught_parks (w := w) (i := i) (r := handler.request) err accepted
        exact .parks hlt hkeeps hparks
      · cases hresume

theorem Turn.waiting (hturn : Turn i w w') (h : Waiting w) : Waiting w' := by
  intro j handler hj hstage
  by_cases hij : j = i
  · subst hij
    exact absurd hstage (hturn.ends handler hj)
  · exact h j handler ((hturn.others j hij).symm.trans hj) hstage

/-- The handler of a request that has just arrived. -/
structure New (w : World Proof) (h : Handler Proof) : Prop where
  failedBefore : h.failedBefore = w.failures
  claimedAt : h.claimedAt = none
  blockedBy : h.blockedBy = none

theorem arrive_handlers (w : World Proof) (r : VoteRequest Proof) :
    ∃ h, New w h ∧ (w.arrive r).handlers = w.handlers ++ [h] := ⟨_, ⟨rfl, rfl, rfl⟩, rfl⟩

theorem arrive_waiting (h : Waiting w) : Waiting (w.arrive r) := by
  obtain ⟨new, hnew, hhandlers⟩ := arrive_handlers w r
  intro j handler hj hstage
  rw [hhandlers, List.getElem?_append] at hj
  split at hj
  · exact h j handler hj hstage
  · rw [List.mem_singleton.mp (List.mem_of_getElem? hj)]
    exact hnew.claimedAt

theorem Inv.arrive (h : Inv w) (r : VoteRequest Proof) : Inv (w.arrive r) := by
  obtain ⟨new, hnew, hhandlers⟩ := arrive_handlers w r
  have hlength : (w.arrive r).handlers.length = w.handlers.length + 1 := by rw [hhandlers]; exact List.length_append
  have hold {j : Nat} (hlt : j < w.handlers.length) : (w.arrive r).handlers[j]? = w.handlers[j]? := by
    rw [hhandlers]
    exact List.getElem?_append_left hlt
  have hkept {j : Nat} {handler : Handler Proof} (hj : w.handlers[j]? = some handler) :
      (w.arrive r).handlers[j]? = some handler := (hold (List.getElem?_eq_some_iff.mp hj).1).trans hj
  exact {
    failures := fun k hk => by
      rw [hlength]
      exact Nat.lt_succ_of_lt (h.failures k hk)
    failedBefore := fun handler hmem k hk => by
      rw [hlength]
      rw [hhandlers] at hmem
      rcases List.mem_append.mp hmem with hmem | hmem
      · exact Nat.lt_succ_of_lt (h.failedBefore handler hmem k hk)
      · rw [List.mem_singleton.mp hmem, hnew.failedBefore] at hk
        exact Nat.lt_succ_of_lt (h.failures k hk)
    revealed := fun commitmentHash k hk =>
      have ⟨handler, hj, hrevealed⟩ := h.revealed commitmentHash k hk
      ⟨handler, hkept hj, hrevealed⟩
    claimed := fun row hrow k hk =>
      have ⟨handler, hj, hclaimed⟩ := h.claimed row hrow k hk
      ⟨handler, hkept hj, hclaimed⟩
    retryable := fun handler hmem k hk hblocked failed hfailed => by
      rw [hhandlers] at hmem
      rcases List.mem_append.mp hmem with hmem | hmem
      · rw [hold (h.failedBefore handler hmem k hk)] at hfailed
        exact h.retryable handler hmem k hk hblocked failed hfailed
      · rw [List.mem_singleton.mp hmem, hnew.blockedBy] at hblocked
        cases hblocked }

theorem waiting_step {event : Event Proof} (h : Waiting w) (hstep : w.Step platform config event w') : Waiting w' := by
  cases moves_of_step hstep with
  | commit hkeeps => exact h
  | arrive r => exact arrive_waiting h
  | process hi hstage hprocesses => exact hprocesses.turn.waiting h
  | parks hlt hkeeps hparks => exact hparks.turn.waiting h

theorem inv_step {event : Event Proof} (h : Inv w) (hwaiting : Waiting w) (hmeets : Meets config w event)
    (hstep : w.Step platform config event w') : Inv w' := by
  cases moves_of_step hstep with
  | commit hkeeps => exact h.db hkeeps
  | arrive r => exact h.arrive r
  | process hi hstage hprocesses => exact processes_inv hprocesses h hi rfl (hwaiting _ _ hi hstage) hmeets
  | parks hlt hkeeps hparks => exact hparks.inv (h.db hkeeps) hlt

/-- Nothing has been asked yet of what the tables hold. -/
def boot (db : Db) : World Proof := { db }

theorem inv_boot (db : Db) : Inv (boot db : World Proof) where
  failures _ h := absurd h List.not_mem_nil
  failedBefore _ h := absurd h List.not_mem_nil
  revealed _ _ h := nomatch h
  claimed _ _ _ h := nomatch h
  retryable _ h := absurd h List.not_mem_nil

theorem waiting_boot (db : Db) : Waiting (boot db : World Proof) := fun _ _ h => nomatch h

theorem failed_votes_retryable {db : Db} (hrun : Run (World.Step platform config) (boot db) log w)
    (hmeets : ∀ e ∈ log, Meets config e.1 e.2) : Retryable w := by
  have hboth : Waiting w ∧ Inv w :=
    hrun.invariant_of (P := fun w => Waiting w ∧ Inv w) (C := Meets config) ⟨waiting_boot db, inv_boot db⟩
      (fun _ _ _ h hmeets hstep => ⟨waiting_step h.1 hstep, inv_step h.2 h.1 hmeets hstep⟩) hmeets
  exact hboth.2.retryable

/-! ## On inputs -/

/-- Proofs are their own texts. -/
def textPlatform : Platform String where
  stringify := id
  sha256 := sha256

def defaults : Config where
  maxProofAgeSeconds := 300
  testMode := false
  executor := false
  secret := true

def sampleVote : VoteRequest String where
  daoId := 1
  proposalId := 1
  nullifier := some "1a"
  proof := some "\x7b\x7d"
  nonce := none
  timestamp := some 1000
  idempotencyHeader := some "key"

/-- The vote is simulated in vain, and sent again at another time. -/
def retriedAt (now : Int) : List (Event String) :=
  [.arrive sampleVote, .resume 0 (.redundancy 2000 (.ok ())), .resume 0 .account, .resume 0 (.simulation false),
    .resume 0 .caught, .arrive sampleVote, .resume 1 (.redundancy now (.ok ()))]

def Meets.test (e : World String × Event String) : Bool :=
  match e.2 with
  | .resume j (.redundancy now _) => (e.1.handlers[j]?).all fun h => h.failedBefore.all fun i =>
      (e.1.handlers[i]?).all fun failed => !failed.revealed && failed.claimedAt.all fun at' => at' < now - 120000
  | _ => true

theorem Meets.of_test {e : World String × Event String} (h : Meets.test e = true) : Meets config e.1 e.2 := by
  obtain ⟨w, event⟩ := e
  unfold Meets.test at h
  unfold Meets
  dsimp only at h ⊢
  split
  · next j now converted =>
    intro handler hj _ i hi failed hfailed _
    have hbefore := (Option.all_eq_true _ _).mp h handler hj
    have htest := (Option.all_eq_true _ _).mp (List.all_eq_true.mp hbefore i hi) failed hfailed
    rw [Bool.and_eq_true, Bool.not_eq_true'] at htest
    refine ⟨htest.1, fun claimedAt hclaimed => ?_⟩
    exact of_decide_eq_true ((Option.all_eq_true _ _).mp htest.2 claimedAt hclaimed)
  · trivial

theorem failed_votes_retryable_after_two_minutes :
    ∃ log w, Run (World.Step textPlatform defaults) (boot {}) log w ∧ w.failures = [0] ∧
      w.handlers.map Handler.stage =
        [.answered (.apiError ⟨400, .VOTE_REJECTED, "VOTE_REJECTED"⟩), .account] ∧ Retryable w := by
  obtain ⟨log, w, hrun, htest⟩ : ∃ log w, Run (World.Step textPlatform defaults) (boot {}) log w ∧
      (log.all Meets.test && decide (w.failures = [0] ∧ w.handlers.map Handler.stage =
        [.answered (.apiError ⟨400, .VOTE_REJECTED, "VOTE_REJECTED"⟩), .account])) = true :=
    Run.exists_of_replay (fun _ _ _ h => h)
      (show (Run.replay (World.next textPlatform defaults) (retriedAt 125000) [] (boot {})).any (fun r =>
        r.1.all Meets.test && decide (r.2.failures = [0] ∧ r.2.handlers.map Handler.stage =
          [.answered (.apiError ⟨400, .VOTE_REJECTED, "VOTE_REJECTED"⟩), .account])) = true by decide +kernel)
  rw [Bool.and_eq_true] at htest
  have hends := of_decide_eq_true htest.2
  exact ⟨log, w, hrun, hends.1, hends.2,
    failed_votes_retryable hrun fun e he => .of_test (List.all_eq_true.mp htest.1 e he)⟩

theorem failed_vote_blocks_retry :
    ¬∀ (Proof : Type) (platform : Platform Proof) (config : Config) (db : Db)
      (log : List (World Proof × Event Proof)) (w : World Proof),
      Run (World.Step platform config) (boot db) log w → Retryable w := by
  intro h
  obtain ⟨log, w, hrun, htest⟩ : ∃ log w, Run (World.Step textPlatform defaults) (boot {}) log w ∧
      decide (w.handlers.map Handler.toBooks =
        [{ request := sampleVote, failedBefore := [], claimedAt := some 2000 },
          { request := sampleVote, failedBefore := [0], blockedBy := some 0 }]) = true :=
    Run.exists_of_replay (fun _ _ _ h => h)
      (show (Run.replay (World.next textPlatform defaults) (retriedAt 10000) [] (boot {})).any (fun r =>
        decide (r.2.handlers.map Handler.toBooks =
          [{ request := sampleVote, failedBefore := [], claimedAt := some 2000 },
            { request := sampleVote, failedBefore := [0], blockedBy := some 0 }])) = true by decide +kernel)
  obtain ⟨failed, rest, hhandlers, hfailed, hrest⟩ := List.map_eq_cons_iff.mp (of_decide_eq_true htest)
  obtain ⟨retry, _, hrest', hretry, _⟩ := List.map_eq_cons_iff.mp hrest
  have hmem : retry ∈ w.handlers := by
    rw [hhandlers, hrest']
    exact List.mem_cons_of_mem _ List.mem_cons_self
  refine h _ _ _ _ log w hrun retry hmem 0 (by rw [hretry]; exact List.mem_singleton_self 0) (by rw [hretry])
    failed (by rw [hhandlers]; rfl) ?_
  rw [hfailed, hretry]
  exact ⟨rfl, rfl, rfl, rfl, rfl⟩

end ZkVote.VoteRelay

import ZkVote.Comments.Ballots
import ZkVote.Lib.Runs

/-!
# The comments contract: records

What becomes of a comment, whichever of the nine entry points it meets.
-/

open Lib Lib.Outcome

namespace ZkVote.Comments

open Voting (VerificationKey VerificationKeyBls381 Proof ProofBls381 Crypto VotingState VotingRun CurveId)

/-- DAO, proposal and comment. -/
abbrev CommentKey := Nat × Nat × Nat

/-- The comment that the call edits. -/
def Call.edits : Call → Option CommentKey
  | .edit_comment d q i _ _ | .edit_anonymous_comment d q i _ _ _ _ _
  | .edit_anonymous_comment_bls381 d q i _ _ _ _ _ => some (d, q, i)
  | _ => none

/-- The comment that the call deletes, and who deletes it. -/
def Call.deletes : Call → Option (CommentKey × Nat)
  | .delete_comment d q i _ | .delete_anonymous_comment d q i _ _ _ _ => some ((d, q, i), DELETED_BY_USER)
  | .admin_delete_comment d q i _ _ => some ((d, q, i), DELETED_BY_ADMIN)
  | _ => none

/-- The curve of an anonymous call. -/
def Call.curve : Call → Option CurveId
  | .add_anonymous_comment .. | .edit_anonymous_comment .. | .delete_anonymous_comment .. => some .Bn254
  | .add_anonymous_comment_bls381 .. | .edit_anonymous_comment_bls381 .. => some .Bls12381
  | _ => none

/-- The author has signed, or a proof for the nullifier of the comment has been accepted. -/
def Authorised (C : Crypto) (env : CommentsEnv) (c : CommentInfo) : Call → Prop
  | .edit_comment _ _ _ _ author => env.auths author = true ∧ c.author = some author
  | .edit_anonymous_comment d q _ _ nullifier root vote_choice proof =>
    c.nullifier = some nullifier ∧
      assert_proof (bn254 C env d proof) env d q vote_choice nullifier root = .ok ()
  | .edit_anonymous_comment_bls381 d q _ _ nullifier root vote_choice proof =>
    c.nullifier = some nullifier ∧
      assert_proof (bls381 C env d proof) env d q vote_choice nullifier root = .ok ()
  | _ => False

/-- The call makes the comment, for the author who has signed or the nullifier whose proof has been accepted. -/
def Creates (C : Crypto) (env : CommentsEnv) (s : CommentsState) (key : CommentKey) (c : CommentInfo) :
    Call → Prop
  | .add_comment d q _ _ author =>
    key = (d, q, s.comment_count (d, q) + 1) ∧ env.auths author = true ∧ c.author = some author ∧ c.nullifier = none
  | .add_anonymous_comment d q _ _ nullifier root vote_choice proof =>
    key = (d, q, s.comment_count (d, q) + 1) ∧ c.author = none ∧ c.nullifier = some nullifier ∧
      assert_proof (bn254 C env d proof) env d q vote_choice nullifier root = .ok ()
  | .add_anonymous_comment_bls381 d q _ _ nullifier root vote_choice proof =>
    key = (d, q, s.comment_count (d, q) + 1) ∧ c.author = none ∧ c.nullifier = some nullifier ∧
      assert_proof (bls381 C env d proof) env d q vote_choice nullifier root = .ok ()
  | _ => False

/-- The contents that the edits of a comment have replaced, in order. -/
def replaced (key : CommentKey) (log : List (CommentsState × CommentsEnv × Call)) : List Bytes :=
  log.reverse.filterMap fun e =>
    if e.2.2.edits = some key then (e.1.comment key).map CommentInfo.content_cid else none

/-- What holds of the comments after a run. -/
structure RecordsHold (C : Crypto) (log : List (CommentsState × CommentsEnv × Call)) (s : CommentsState) : Prop where
  ids : ∀ d q i, s.comment (d, q, i) ≠ none ↔ 1 ≤ i ∧ i ≤ s.comment_count (d, q)
  keyed : ∀ d q i c, s.comment (d, q, i) = some c → c.dao_id = d ∧ c.proposal_id = q ∧ c.id = i
  created : ∀ key c, s.comment key = some c → ∃ e ∈ log, Creates C e.2.1 e.1 key c e.2.2
  revisions : ∀ key c, s.comment key = some c → c.revision_cids = (replaced key log).take MAX_REVISIONS

/-- What a call does to a comment that is there. -/
structure RecordKept (C : Crypto) (env : CommentsEnv) (call : Call) (key : CommentKey) (c c' : CommentInfo) : Prop where
  deleted : c.deleted = true → c' = c
  deleter : c.deleted = false → c'.deleted = true → call.deletes = some (key, c'.deleted_by)
  owner : c'.author = c.author ∧ c'.nullifier = c.nullifier
  content : c'.content_cid ≠ c.content_cid → call.edits = some key ∧ Authorised C env c call

/-- A call leaves every comment there, changes it as it may, and a deleted one not at all. -/
def CommentsKept (C : Crypto) (m : Moment CommentsState (CommentsEnv × Call)) : Prop :=
  ∀ key c, m.pre.comment key = some c →
    ∃ c', m.post.comment key = some c' ∧ RecordKept C m.call.1 m.call.2 key c c'

/-- What an anonymous call has made changes by calls on the same curve. -/
def CurveKept (C : Crypto) (m : Moment CommentsState (CommentsEnv × Call)) : Prop :=
  ∀ key c c', m.pre.comment key = some c → m.post.comment key = some c' → c'.content_cid ≠ c.content_cid →
    ∀ e ∈ m.past, Creates C e.2.1 e.1 key c e.2.2 → m.call.2.curve = e.2.2.curve

/-- The keys come from a voting contract as its own calls have left it. -/
def OwnVoting (C : Crypto) (env : CommentsEnv) : Prop :=
  ∃ registry guardian votes, VotingRun C registry guardian votes env.voting

/-! ## Steps -/

/-- The call writes the record of one comment. -/
structure Writes (s s' : CommentsState) (key : CommentKey) (c : CommentInfo) : Prop where
  comment : s'.comment = Function.update s.comment key (some c)
  count : s'.comment_count = s.comment_count

/-- What an accepted call does. -/
inductive StepEffect (C : Crypto) (env : CommentsEnv) (s s' : CommentsState) (call : Call) : Prop where
  | added {d q : Nat} {c : CommentInfo} (unedited : call.edits = none)
      (comment : s'.comment = Function.update s.comment (d, q, s.comment_count (d, q) + 1) (some c))
      (count : s'.comment_count = Function.update s.comment_count (d, q) (s.comment_count (d, q) + 1))
      (record : c.dao_id = d ∧ c.proposal_id = q ∧ c.id = s.comment_count (d, q) + 1)
      (fresh : c.revision_cids = []) (creates : Creates C env s (d, q, s.comment_count (d, q) + 1) c call)
  | edited {key : CommentKey} {c : CommentInfo} {new_content_cid : Bytes} (edits : call.edits = some key)
      (found : s.comment key = some c) (undeleted : c.deleted = false) (authorised : Authorised C env c call)
      (writes : Writes s s' key (revised c env.timestamp new_content_cid))
  | removed {key : CommentKey} {c : CommentInfo} {deleted_by : Nat} (unedited : call.edits = none)
      (deletes : call.deletes = some (key, deleted_by)) (found : s.comment key = some c) (undeleted : c.deleted = false)
      (writes : Writes s s' key (deleted c env.timestamp deleted_by))
  | same (unedited : call.edits = none) (post : s' = s)

section
variable {C : Crypto} {env : CommentsEnv} {s s' : CommentsState} {call : Call} {check : ProofCheck}
  {d q i : Nat} {nullifier root : U256} {vote_choice : Bool} {content_cid : Bytes}

theorem next_comment_id_eq_ok {new_id : Nat} : next_comment_id s d q = .ok (new_id, s') ↔
    s.comment_count (d, q) + 1 < 2 ^ 64 ∧ new_id = s.comment_count (d, q) + 1 ∧
      s' = { s with comment_count := Function.update s.comment_count (d, q) (s.comment_count (d, q) + 1) } := by
  simp only [next_comment_id, bind_eq_ok, expect_eq_ok, checkedAdd_eq_some, pure_eq_ok, Prod.mk.injEq]
  constructor
  · rintro ⟨_, ⟨hfits, rfl⟩, rfl, rfl⟩
    exact ⟨hfits, rfl, rfl⟩
  · rintro ⟨hfits, rfl, rfl⟩
    exact ⟨_, ⟨hfits, rfl⟩, rfl, rfl⟩

theorem add_comment_effect {parent_id : Option Nat} {author : Address} {comment_id : Nat}
    (h : add_comment env s d q content_cid parent_id author = .ok (comment_id, s')) :
    StepEffect C env s s' (.add_comment d q content_cid parent_id author) := by
  simp only [add_comment, bind_eq_ok, require_auth_eq_ok, pure_eq_ok] at h
  obtain ⟨-, hauth, -, -, -, -, -, -, -, -, ⟨new_id, s₁⟩, hid, hpost⟩ := h
  obtain ⟨-, rfl, rfl⟩ := next_comment_id_eq_ok.mp hid
  cases hpost
  exact .added rfl rfl rfl ⟨rfl, rfl, rfl⟩ rfl ⟨rfl, hauth, rfl, rfl⟩

/-- The two curves differ in the check only. -/
theorem add_anonymous_effect {parent_id : Option Nat} {comment_id : Nat} (hunedited : call.edits = none)
    (h : add_anonymous check env s d q content_cid parent_id nullifier root vote_choice = .ok (comment_id, s'))
    (hcreates : ∀ key c, assert_proof check env d q vote_choice nullifier root = .ok () →
      key = (d, q, s.comment_count (d, q) + 1) → c.author = none → c.nullifier = some nullifier →
        Creates C env s key c call) : StepEffect C env s s' call := by
  simp only [add_anonymous, bind_eq_ok, pure_eq_ok] at h
  obtain ⟨_, -, _, -, _, -, _, -, _, -, ⟨⟩, hproof, ⟨new_id, s₁⟩, hid, hpost⟩ := h
  obtain ⟨-, rfl, rfl⟩ := next_comment_id_eq_ok.mp hid
  cases hpost
  exact .added hunedited rfl rfl ⟨rfl, rfl, rfl⟩ rfl (hcreates _ _ hproof rfl rfl rfl)

theorem edit_anonymous_effect (hedits : call.edits = some (d, q, i))
    (h : edit_anonymous check env s d q i content_cid nullifier root vote_choice = .ok s')
    (hauthorised : ∀ c, c.nullifier = some nullifier →
      assert_proof check env d q vote_choice nullifier root = .ok () → Authorised C env c call) :
    StepEffect C env s s' call := by
  simp only [edit_anonymous, find_comment, bind_eq_ok, orPanic_eq_ok, require_eq_ok, pure_eq_ok] at h
  obtain ⟨_, -, _, -, _, -, c, hfound, _, hundeleted, _, howner, ⟨⟩, hproof, rfl⟩ := h
  exact .edited hedits hfound hundeleted (hauthorised c howner hproof) ⟨rfl, rfl⟩

theorem step_effect (h : step C s env call = .ok s') : StepEffect C env s s' call := by
  cases call with
  | add_comment =>
    obtain ⟨⟨comment_id, s''⟩, hadd, rfl⟩ := map_eq_ok.mp h
    exact add_comment_effect hadd
  | add_anonymous_comment =>
    obtain ⟨⟨comment_id, s''⟩, hadd, rfl⟩ := map_eq_ok.mp h
    exact add_anonymous_effect rfl hadd fun _ _ hproof hkey hauthor hnullifier => ⟨hkey, hauthor, hnullifier, hproof⟩
  | add_anonymous_comment_bls381 =>
    obtain ⟨⟨comment_id, s''⟩, hadd, rfl⟩ := map_eq_ok.mp h
    exact add_anonymous_effect rfl hadd fun _ _ hproof hkey hauthor hnullifier => ⟨hkey, hauthor, hnullifier, hproof⟩
  | edit_comment =>
    simp only [step, edit_comment, find_comment, bind_eq_ok, require_auth_eq_ok, orPanic_eq_ok, require_eq_ok,
      pure_eq_ok] at h
    obtain ⟨-, hauth, -, -, c, hfound, -, hundeleted, -, howner, rfl⟩ := h
    exact .edited rfl hfound hundeleted ⟨hauth, howner⟩ ⟨rfl, rfl⟩
  | edit_anonymous_comment =>
    exact edit_anonymous_effect rfl h fun _ howner hproof => ⟨howner, hproof⟩
  | edit_anonymous_comment_bls381 =>
    exact edit_anonymous_effect rfl h fun _ howner hproof => ⟨howner, hproof⟩
  | delete_comment =>
    simp only [step, delete_comment, find_comment, bind_eq_ok, orPanic_eq_ok, ite_eq_ok, pure_eq_ok,
      Bool.not_eq_true] at h
    obtain ⟨-, -, c, hfound, ⟨-, rfl⟩ | ⟨hundeleted, -, -, rfl⟩⟩ := h
    · exact .same rfl rfl
    · exact .removed rfl rfl hfound hundeleted ⟨rfl, rfl⟩
  | delete_anonymous_comment =>
    simp only [step, delete_anonymous_comment, find_comment, bind_eq_ok, orPanic_eq_ok, ite_eq_ok, pure_eq_ok,
      Bool.not_eq_true] at h
    obtain ⟨-, -, -, -, c, hfound, ⟨-, rfl⟩ | ⟨hundeleted, -, -, -, -, rfl⟩⟩ := h
    · exact .same rfl rfl
    · exact .removed rfl rfl hfound hundeleted ⟨rfl, rfl⟩
  | admin_delete_comment =>
    simp only [step, admin_delete_comment, find_comment, bind_eq_ok, orPanic_eq_ok, ite_eq_ok, pure_eq_ok,
      Bool.not_eq_true] at h
    obtain ⟨-, -, -, -, -, -, c, hfound, ⟨-, rfl⟩ | ⟨hundeleted, rfl⟩⟩ := h
    · exact .same rfl rfl
    · exact .removed rfl rfl hfound hundeleted ⟨rfl, rfl⟩

/-! ## What a step keeps -/

variable {key : CommentKey} {c c' : CommentInfo} {log : List (CommentsState × CommentsEnv × Call)} {registry : Address}

theorem RecordKept.refl : RecordKept C env call key c c := by
  refine ⟨fun _ => rfl, fun hundeleted hdeleted => ?_, ⟨rfl, rfl⟩, fun hne => absurd rfl hne⟩
  rw [hdeleted] at hundeleted
  cases hundeleted

theorem Writes.kept {key₀ : CommentKey} {c₀ c₁ : CommentInfo} (h : Writes s s' key₀ c₁)
    (hfound : s.comment key₀ = some c₀) (hkept : RecordKept C env call key₀ c₀ c₁) (hc : s.comment key = some c) :
    ∃ c', s'.comment key = some c' ∧ RecordKept C env call key c c' := by
  by_cases hkey : key = key₀
  · subst hkey
    cases hfound.symm.trans hc
    exact ⟨c₁, by rw [h.comment, Function.update_self], hkept⟩
  · exact ⟨c, by rw [h.comment, Function.update_of_ne hkey, hc], .refl⟩

theorem StepEffect.kept (h : StepEffect C env s s' call)
    (hids : ∀ d q i, s.comment (d, q, i) ≠ none ↔ 1 ≤ i ∧ i ≤ s.comment_count (d, q)) (hc : s.comment key = some c) :
    ∃ c', s'.comment key = some c' ∧ RecordKept C env call key c c' := by
  cases h with
  | @added d q c₀ unedited comment =>
    have hne : key ≠ (d, q, s.comment_count (d, q) + 1) := by
      rintro rfl
      have hle := ((hids _ _ _).mp (by rw [hc]; simp)).2
      omega
    exact ⟨c, by rw [comment, Function.update_of_ne hne, hc], .refl⟩
  | edited edits found undeleted authorised writes =>
    refine writes.kept found ⟨fun hdeleted => ?_, fun _ hdeleted => ?_, ⟨rfl, rfl⟩, fun _ => ⟨edits, authorised⟩⟩ hc
    all_goals exact absurd (undeleted.symm.trans hdeleted) Bool.false_ne_true
  | removed unedited deletes found undeleted writes =>
    refine writes.kept found ⟨fun hdeleted => ?_, fun _ _ => deletes, ⟨rfl, rfl⟩, fun hne => absurd rfl hne⟩ hc
    rw [hdeleted] at undeleted
    cases undeleted
  | same unedited post => exact ⟨c, by rw [post, hc], .refl⟩

theorem Creates.congr (h : Creates C env s key c call) (hauthor : c'.author = c.author)
    (hnullifier : c'.nullifier = c.nullifier) : Creates C env s key c' call := by
  cases call <;> simp only [Creates] at h ⊢
  all_goals rw [hauthor, hnullifier]; exact h

theorem replaced_cons (e : CommentsState × CommentsEnv × Call) :
    replaced key (e :: log) = replaced key log ++ replaced key [e] := by
  simp [replaced]

theorem replaced_of_ne {e : CommentsState × CommentsEnv × Call} (h : e.2.2.edits ≠ some key) :
    replaced key [e] = [] := by
  simp [replaced, h]

theorem replaced_of_edit {e : CommentsState × CommentsEnv × Call} (h : e.2.2.edits = some key)
    (hc : e.1.comment key = some c) : replaced key [e] = [c.content_cid] := by
  simp [replaced, h, hc]

/-- The list is cut at fifty, whether at each edit or at the end. -/
theorem revised_revision_cids {now : Nat} (h : c.revision_cids = (replaced key log).take MAX_REVISIONS) :
    (revised c now content_cid).revision_cids = (replaced key log ++ [c.content_cid]).take MAX_REVISIONS := by
  unfold revised
  by_cases hroom : (replaced key log).length < MAX_REVISIONS
  · rw [List.take_of_length_le hroom.le] at h
    rw [h, if_pos hroom, List.take_of_length_le]
    rw [List.length_append, List.length_singleton]
    exact hroom
  · rw [not_lt] at hroom
    have hfull : ¬ c.revision_cids.length < MAX_REVISIONS := by
      rw [h, List.length_take]
      omega
    rw [if_neg hfull, List.take_append_of_le_length hroom, h]

/-- The law, and that nothing is edited before it is there. -/
structure RecordsOk (C : Crypto) (log : List (CommentsState × CommentsEnv × Call)) (s : CommentsState) : Prop
    extends RecordsHold C log s where
  unborn : ∀ key, s.comment key = none → replaced key log = []

theorem RecordsOk.unedited (h : RecordsOk C log s) (hedits : call.edits = none) :
    RecordsOk C ((s, env, call) :: log) s := by
  have hsame : ∀ key, replaced key ((s, env, call) :: log) = replaced key log := by
    intro key
    rw [replaced_cons, replaced_of_ne (by rw [hedits]; simp), List.append_nil]
  refine ⟨⟨h.ids, h.keyed, fun key c hc => ?_, fun key c hc => ?_⟩, fun key hnone => ?_⟩
  · obtain ⟨e, he, hcreates⟩ := h.created key c hc
    exact ⟨e, List.mem_cons_of_mem _ he, hcreates⟩
  · rw [hsame]
    exact h.revisions key c hc
  · rw [hsame]
    exact h.unborn key hnone

theorem RecordsOk.write {e : CommentsState × CommentsEnv × Call} (h : RecordsOk C log s) (hwrites : Writes s s' key c')
    (hfound : s.comment key = some c)
    (hkeyed : c'.dao_id = c.dao_id ∧ c'.proposal_id = c.proposal_id ∧ c'.id = c.id)
    (howner : c'.author = c.author ∧ c'.nullifier = c.nullifier)
    (hrevisions : c'.revision_cids = (replaced key (e :: log)).take MAX_REVISIONS)
    (hothers : ∀ key', key' ≠ key → replaced key' [e] = []) : RecordsOk C (e :: log) s' := by
  have hself : s'.comment key = some c' := by rw [hwrites.comment, Function.update_self]
  have hother : ∀ key', key' ≠ key → s'.comment key' = s.comment key' := fun key' hne => by
    rw [hwrites.comment, Function.update_of_ne hne]
  have hlog : ∀ key', key' ≠ key → replaced key' (e :: log) = replaced key' log := fun key' hne => by
    rw [replaced_cons, hothers key' hne, List.append_nil]
  refine ⟨⟨fun d q i => ?_, fun d q i c₁ hc₁ => ?_, fun key' c₁ hc₁ => ?_, fun key' c₁ hc₁ => ?_⟩,
    fun key' hnone => ?_⟩
  · rw [hwrites.count, ← h.ids]
    by_cases hkey : (d, q, i) = key
    · rw [hkey, hself, hfound]
      simp
    · rw [hother _ hkey]
  · by_cases hkey : (d, q, i) = key
    · cases (hkey ▸ hself).symm.trans hc₁
      rw [hkeyed.1, hkeyed.2.1, hkeyed.2.2]
      exact h.keyed d q i c (hkey ▸ hfound)
    · exact h.keyed d q i c₁ (hother _ hkey ▸ hc₁)
  · by_cases hkey : key' = key
    · cases (hkey ▸ hself).symm.trans hc₁
      obtain ⟨e', he', hcreates⟩ := h.created key' c (hkey ▸ hfound)
      exact ⟨e', List.mem_cons_of_mem _ he', hcreates.congr howner.1 howner.2⟩
    · obtain ⟨e', he', hcreates⟩ := h.created key' c₁ (hother _ hkey ▸ hc₁)
      exact ⟨e', List.mem_cons_of_mem _ he', hcreates⟩
  · by_cases hkey : key' = key
    · cases (hkey ▸ hself).symm.trans hc₁
      rw [hkey]
      exact hrevisions
    · rw [hlog _ hkey]
      exact h.revisions key' c₁ (hother _ hkey ▸ hc₁)
  · by_cases hkey : key' = key
    · rw [hkey, hself] at hnone
      cases hnone
    · rw [hlog _ hkey]
      exact h.unborn key' (hother _ hkey ▸ hnone)

theorem RecordsOk.step (h : RecordsOk C log s) (heffect : StepEffect C env s s' call) :
    RecordsOk C ((s, env, call) :: log) s' := by
  cases heffect with
  | @added d q c₀ unedited comment count record fresh creates =>
    have hnew : s.comment (d, q, s.comment_count (d, q) + 1) = none := by
      by_contra hne
      have hle := ((h.ids _ _ _).mp hne).2
      omega
    have hself : s'.comment (d, q, s.comment_count (d, q) + 1) = some c₀ := by rw [comment, Function.update_self]
    have hother : ∀ key, key ≠ (d, q, s.comment_count (d, q) + 1) → s'.comment key = s.comment key :=
      fun key hne => by rw [comment, Function.update_of_ne hne]
    have hlogged : RecordsOk C ((s, env, call) :: log) s := h.unedited unedited
    refine ⟨⟨fun d' q' i => ?_, fun d' q' i c hc => ?_, fun key c hc => ?_, fun key c hc => ?_⟩, fun key hnone => ?_⟩
    · by_cases hkey : (d', q', i) = (d, q, s.comment_count (d, q) + 1)
      · cases hkey
        rw [hself, count, Function.update_self]
        simp
      · rw [hother _ hkey, h.ids, count, Function.update_apply]
        split
        · next hdq =>
          cases hdq
          have hne : i ≠ s.comment_count (d, q) + 1 := fun hi => hkey (by rw [hi])
          omega
        · rfl
    · by_cases hkey : (d', q', i) = (d, q, s.comment_count (d, q) + 1)
      · cases hkey
        cases hself.symm.trans hc
        exact record
      · exact h.keyed d' q' i c (hother _ hkey ▸ hc)
    · by_cases hkey : key = (d, q, s.comment_count (d, q) + 1)
      · subst hkey
        cases hself.symm.trans hc
        exact ⟨_, List.mem_cons_self .., creates⟩
      · exact hlogged.created key c (hother _ hkey ▸ hc)
    · by_cases hkey : key = (d, q, s.comment_count (d, q) + 1)
      · subst hkey
        cases hself.symm.trans hc
        rw [fresh, hlogged.unborn _ hnew, List.take_nil]
      · exact hlogged.revisions key c (hother _ hkey ▸ hc)
    · by_cases hkey : key = (d, q, s.comment_count (d, q) + 1)
      · rw [hkey, hself] at hnone
        cases hnone
      · exact hlogged.unborn key (hother _ hkey ▸ hnone)
  | @edited key c₀ new_content_cid edits found undeleted authorised writes =>
    refine h.write writes found ⟨rfl, rfl, rfl⟩ ⟨rfl, rfl⟩ ?_ fun key' hne => replaced_of_ne ?_
    · rw [replaced_cons, replaced_of_edit edits found]
      exact revised_revision_cids (h.revisions key c₀ found)
    · rw [edits]
      exact fun heq => hne (Option.some.inj heq).symm
  | @removed key c₀ deleted_by unedited deletes found undeleted writes =>
    have hnone : ∀ key', replaced key' [(s, env, call)] = [] := fun key' => replaced_of_ne (by rw [unedited]; simp)
    refine h.write writes found ⟨rfl, rfl, rfl⟩ ⟨rfl, rfl⟩ ?_ fun key' _ => hnone key'
    rw [replaced_cons, hnone, List.append_nil]
    exact h.revisions key c₀ found
  | same unedited post =>
    subst post
    exact h.unedited unedited

/-! ## Runs -/

theorem CommentsRun.records (hrun : CommentsRun C registry log s) : RecordsOk C log s := by
  refine Run.invariant_log (P := RecordsOk C) ⟨⟨fun d q i => ?_, ?_, ?_, ?_⟩, fun key _ => rfl⟩
    (fun log s call s' _ hok (hs : Accepts C s call s') => hok.step (step_effect hs)) hrun
  · simp [constructor]
    omega
  all_goals simp [constructor]

theorem CommentsRun.kept (hrun : CommentsRun C registry log s) : ∀ m ∈ Run.moments log s, CommentsKept C m := by
  refine Run.forall_moments (fun log s call s' hr hs key c hc => ?_) hrun
  exact (step_effect hs).kept (CommentsRun.records hr).ids hc

/-- Its own voting contract hands out no key that an anonymous call passes. -/
theorem assert_proof_ne_ok_of_ownVoting (hC : ChecksLength C) (hvoting : OwnVoting C env) (proof : BallotProof) :
    assert_proof (proof.check C env d) env d q vote_choice nullifier root ≠ .ok () := by
  obtain ⟨_, _, _, hvotes⟩ := hvoting
  exact assert_proof_ne_ok (BallotProof.check_wants hC (hvotes.keysOk d))

theorem curveKept_of_ownVoting (hC : ChecksLength C) (hvoting : OwnVoting C env)
    (hkept : CommentsKept C ⟨log, s, (env, call), s'⟩) : CurveKept C ⟨log, s, (env, call), s'⟩ := by
  intro key c c' hc hc' hne e he hcreates
  obtain ⟨c₁, hc₁, hrecord⟩ := hkept key c hc
  cases hc₁.symm.trans hc'
  obtain ⟨-, hauthorised⟩ := hrecord.content hne
  cases call with
  | edit_comment d q i new_content_cid author =>
    -- What an author edits an author has made.
    obtain ⟨-, hauthor⟩ := hauthorised
    cases hcall : e.2.2 <;> rw [hcall] at hcreates <;> simp only [Creates, hauthor, reduceCtorEq] at hcreates
    case add_comment => rfl
    all_goals exact (hcreates.2.1).elim
  | edit_anonymous_comment d q i new_content_cid nullifier root vote_choice proof =>
    exact absurd hauthorised.2 (assert_proof_ne_ok_of_ownVoting hC hvoting (.bn254 proof))
  | edit_anonymous_comment_bls381 d q i new_content_cid nullifier root vote_choice proof =>
    exact absurd hauthorised.2 (assert_proof_ne_ok_of_ownVoting hC hvoting (.bls381 proof))
  | _ => exact hauthorised.elim

theorem CommentsRun.curveKept (hC : ChecksLength C) (hrun : CommentsRun C registry log s)
    (hvoting : ∀ e ∈ log, OwnVoting C e.2.1) : ∀ m ∈ Run.moments log s, CurveKept C m := by
  have hkept := hrun.kept
  induction hrun with
  | start => exact List.forall_mem_nil _
  | @call log s s' i hr hs ih =>
    rw [List.forall_mem_cons] at hvoting
    rw [Run.moments, List.forall_mem_cons] at hkept ⊢
    exact ⟨curveKept_of_ownVoting hC hvoting.1 hkept.1, ih hvoting.2 hkept.2⟩

/-- In every run the comments of a proposal are numbered from one, each has the owner that made it and the contents
replaced in it, and no call does more to a comment than its owner may, or anything to a deleted one. Where the voting
contract is the one of this repository, a comment stays on its curve. -/
theorem comment_records (hrun : CommentsRun C registry log s) :
    RecordsHold C log s ∧ (∀ m ∈ Run.moments log s, CommentsKept C m) ∧
      (ChecksLength C → (∀ e ∈ log, OwnVoting C e.2.1) → ∀ m ∈ Run.moments log s, CurveKept C m) :=
  ⟨hrun.records.toRecordsHold, hrun.kept, fun hC hvoting => hrun.curveKept hC hvoting⟩

end

/-! ## Another voting contract -/

/-- The verifier looks at the number of the signals only. -/
def lengthCrypto : Crypto :=
  { Voting.sampleCrypto with
    verify_groth16 := fun vk _ signals => decide (signals.length + 1 = vk.ic.length)
    verify_groth16_bls381 := fun vk _ signals => decide (signals.length + 1 = vk.ic.length) }

/-- A voting contract with one proposal, and with keys for the five signals of a comment. -/
def fiveSignalVoting : VotingState :=
  { Voting.constructor 0 0 with
    daos := fun _ =>
      { proposal_count := 1
        keys :=
          { vk_version := some 1, vk_by_version := fun _ => some (Voting.sampleVk 6)
            vk_version_bls381 := some 1
            vk_by_version_bls381 := fun _ =>
              some { sampleVkBls381 with ic := List.replicate 6 (Vector.replicate 96 0) } } }
    elections := fun _ _ =>
      { proposal := some
          { id := 1, dao_id := 0, title := [], content_cid := [], end_time := 100, created_by := 0, created_at := 10
            vk_hash := Vector.replicate 32 0, vk_version := 1, eligible_root := Tree.sampleRoot, vote_mode := .Fixed
            earliest_root_index := 0, snapshot_ledger := 1, eligibility_snapshot_root := Tree.sampleRoot } } }

def next (C : Crypto) (s : CommentsState) (call : CommentsEnv × Call) : Option CommentsState :=
  (step C s call.1 call.2).toOption

theorem exists_run {C : Crypto} {r : Address} (calls : List Call)
    (test : List (CommentsState × CommentsEnv × Call) → CommentsState → Bool)
    (h : (Run.replay (next C) (calls.map fun c => (envOf fiveSignalVoting, c)) [] (constructor r)).any
      (fun e => test e.1 e.2) = true) : ∃ log s, CommentsRun C r log s ∧ test log s = true := by
  refine Run.exists_of_replay (fun s call s' h => ?_) h
  exact toOption_eq_some.mp h

/-- A signed comment that is edited and deleted, and an anonymous one. -/
def twoComments : List Call :=
  [.add_comment 0 1 [1] none 4, .edit_comment 0 1 1 [2] 4, .delete_comment 0 1 1 4,
    .add_anonymous_comment 0 1 [3] (some 1) 3 Tree.sampleRoot true Voting.sampleProof]

theorem comment_records_of_two : ∃ log s, CommentsRun lengthCrypto 0 log s ∧
    (RecordsHold lengthCrypto log s ∧ (∀ m ∈ Run.moments log s, CommentsKept lengthCrypto m) ∧
      (ChecksLength lengthCrypto → (∀ e ∈ log, OwnVoting lengthCrypto e.2.1) →
        ∀ m ∈ Run.moments log s, CurveKept lengthCrypto m)) ∧
    (s.comment (0, 1, 1)).map CommentInfo.revision_cids = some [[1]] ∧ s.comment_count (0, 1) = 2 := by
  obtain ⟨log, s, hrun, htest⟩ := exists_run (C := lengthCrypto) (r := 0) twoComments
    (fun _ s => decide ((s.comment (0, 1, 1)).map CommentInfo.revision_cids = some [[1]] ∧ s.comment_count (0, 1) = 2))
    (by decide +kernel)
  exact ⟨log, s, hrun, comment_records hrun, of_decide_eq_true htest⟩

/-- Made with a proof on the one curve. -/
def madeOnBn254 : Call := .add_anonymous_comment 0 1 [1] none 3 Tree.sampleRoot true Voting.sampleProof

/-- Edited with a proof on the other. -/
def editedOnBls381 : CommentsEnv × Call :=
  (envOf fiveSignalVoting, .edit_anonymous_comment_bls381 0 1 1 [2] 3 Tree.sampleRoot true sampleProofBls381)

theorem edited_on_the_other_curve : ∃ log s s', CommentsRun lengthCrypto 0 log s ∧
    Accepts lengthCrypto s editedOnBls381 s' ∧ ¬ CurveKept lengthCrypto ⟨log, s, editedOnBls381, s'⟩ := by
  obtain ⟨log, s, hrun, htest⟩ := exists_run (C := lengthCrypto) (r := 0) [madeOnBn254]
    (fun log s => log.all (fun e => e.2.2.curve == some .Bn254) &&
      (s.comment (0, 1, 1)).any (fun c => c.content_cid == [1]) &&
      (next lengthCrypto s editedOnBls381).any fun s' => (s'.comment (0, 1, 1)).any fun c => c.content_cid == [2])
    (by decide +kernel)
  simp only [Bool.and_eq_true, List.all_eq_true, Option.any_eq_true, beq_iff_eq] at htest
  obtain ⟨⟨hcurve, c, hc, hcontent⟩, s', hs, c', hc', hcontent'⟩ := htest
  refine ⟨log, s, s', hrun, toOption_eq_some.mp hs, fun hkept => ?_⟩
  obtain ⟨e, he, hcreates⟩ := hrun.records.created (0, 1, 1) c hc
  have hne : c'.content_cid ≠ c.content_cid := by
    rw [hcontent, hcontent']
    simp
  have hsame := hkept (0, 1, 1) c c' hc hc' hne e he hcreates
  rw [hcurve e he] at hsame
  cases hsame

end ZkVote.Comments

import Mathlib.Tactic.Common

/-!
# Runs

A run of a step relation, with the log of what it did: the newest entry first,
each with the state it found. A call that is rejected changes nothing and has no entry.
-/

namespace Lib

variable {σ ι : Type}

structure Moment (σ ι : Type) where
  past : List (σ × ι)
  pre : σ
  call : ι
  post : σ

inductive Run (step : σ → ι → σ → Prop) (init : σ) : List (σ × ι) → σ → Prop where
  | start : Run step init [] init
  | call {log : List (σ × ι)} {s s' : σ} {i : ι} :
      Run step init log s → step s i s' → Run step init ((s, i) :: log) s'

namespace Run

variable {step : σ → ι → σ → Prop} {init s s' : σ} {log log' : List (σ × ι)} {i : ι}

/-- An invariant that only steps satisfying `C` are known to keep. -/
theorem invariant_of {P : σ → Prop} {C : σ → ι → Prop}
    (hinit : P init) (hstep : ∀ s i s', P s → C s i → step s i s' → P s')
    (hrun : Run step init log s) (hlog : ∀ e ∈ log, C e.1 e.2) : P s := by
  induction hrun with
  | start => exact hinit
  | call _ hs ih =>
    rw [List.forall_mem_cons] at hlog
    exact hstep _ _ _ (ih hlog.2) hlog.1 hs

theorem invariant {P : σ → Prop} (hinit : P init) (hstep : ∀ s i s', P s → step s i s' → P s')
    (hrun : Run step init log s) : P s :=
  invariant_of (C := fun _ _ => True) hinit (fun s i s' hP _ hs => hstep s i s' hP hs) hrun
    (fun _ _ => trivial)

/-- What a run has lost, one of its steps has broken. -/
theorem exists_breaking {P : σ → Prop} {B : σ × ι → Prop} (hinit : P init)
    (hstep : ∀ s i s', P s → ¬ B (s, i) → step s i s' → P s') (hrun : Run step init log s) (hlost : ¬ P s) :
    ∃ e ∈ log, B e := by
  by_contra hnone
  refine hlost (invariant_of (C := fun s i => ¬ B (s, i)) hinit hstep hrun fun e he hbreaks => ?_)
  exact hnone ⟨e, he, hbreaks⟩

theorem invariant_log {P : List (σ × ι) → σ → Prop} (hinit : P [] init)
    (hstep : ∀ log s i s', Run step init log s → P log s → step s i s' → P ((s, i) :: log) s')
    (hrun : Run step init log s) : P log s := by
  induction hrun with
  | start => exact hinit
  | call hr hs ih => exact hstep _ _ _ _ hr ih hs

theorem mono {step' : σ → ι → σ → Prop} (h : ∀ s i s', step s i s' → step' s i s')
    (hrun : Run step init log s) : Run step' init log s := by
  induction hrun with
  | start => exact .start
  | call _ hs ih => exact .call ih (h _ _ _ hs)

/-- What holds of every entry of the log may be asked of every step. -/
theorem restrict {C : σ → ι → Prop} (hrun : Run step init log s) (hlog : ∀ e ∈ log, C e.1 e.2) :
    Run (fun s i s' => step s i s' ∧ C s i) init log s := by
  induction hrun with
  | start => exact .start
  | call _ hs ih =>
    rw [List.forall_mem_cons] at hlog
    exact .call (ih hlog.2) ⟨hs, hlog.1⟩

/-- A run seen through `f`: each step is one of the other relation, or is not seen. -/
theorem simulates {τ κ : Type} {step' : τ → κ → τ → Prop} (f : σ → τ)
    (h : ∀ s i s', step s i s' → f s' = f s ∨ ∃ j, step' (f s) j (f s')) (hrun : Run step init log s) :
    ∃ log', Run step' (f init) log' (f s) := by
  induction hrun with
  | start => exact ⟨[], .start⟩
  | call _ hs ih =>
    obtain ⟨log', hlog'⟩ := ih
    rcases h _ _ _ hs with hsame | ⟨j, hj⟩
    · rw [hsame]
      exact ⟨log', hlog'⟩
    · exact ⟨_, .call hlog' hj⟩

theorem append (h₁ : Run step init log s) (h₂ : Run step s log' s') :
    Run step init (log' ++ log) s' := by
  induction h₂ with
  | start => exact h₁
  | call _ hs ih => exact .call ih hs

/-- Every entry of the log cuts the run in two. -/
theorem split (hrun : Run step init log s) {e : σ × ι} (he : e ∈ log) :
    ∃ before after s₁, log = after ++ e :: before ∧ Run step init before e.1 ∧
      step e.1 e.2 s₁ ∧ Run step s₁ after s := by
  induction hrun with
  | start => simp at he
  | @call log s s' i hr hs ih =>
    rcases List.mem_cons.mp he with rfl | he
    · exact ⟨log, [], s', rfl, hr, hs, .start⟩
    · obtain ⟨before, after, s₁, hlog, h₁, h₂, h₃⟩ := ih he
      exact ⟨before, (s, i) :: after, s₁, by rw [hlog]; rfl, h₁, h₂, .call h₃ hs⟩

/-- The run before an entry, its step, and the run after it. -/
theorem cut {before after : List (σ × ι)} {e : σ × ι} (hrun : Run step init (after ++ e :: before) s) :
    ∃ s₁, Run step init before e.1 ∧ step e.1 e.2 s₁ ∧ Run step s₁ after s := by
  induction after generalizing s with
  | nil =>
    cases hrun with
    | call hr hs => exact ⟨s, hr, hs, .start⟩
  | cons x after ih =>
    cases hrun with
    | call hr hs =>
      obtain ⟨s₁, h₁, h₂, h₃⟩ := ih hr
      exact ⟨s₁, h₁, h₂, .call h₃ hs⟩

/-! ## The states of a run -/

/-- The states a run passes through, the last one first. -/
def states (log : List (σ × ι)) (s : σ) : List σ := s :: log.map Prod.fst

theorem states_cons (e : σ × ι) (log : List (σ × ι)) (s : σ) :
    states (e :: log) s = s :: states log e.1 := rfl

/-- A property of every state passed, where a step keeps it exactly if it satisfies `C`. -/
theorem forall_states_iff {P : σ → Prop} {C : σ → ι → Prop}
    (hgood : ∀ log s, Run step init log s → (∀ e ∈ log, C e.1 e.2) → P s)
    (hbad : ∀ log s i s', Run step init log s → step s i s' → ¬ C s i → ¬ P s')
    (hrun : Run step init log s) : (∀ s' ∈ states log s, P s') ↔ ∀ e ∈ log, C e.1 e.2 := by
  induction hrun with
  | start => simpa [states] using hgood [] init .start (by simp)
  | @call log s s' i hr hs ih =>
    rw [states_cons, List.forall_mem_cons, List.forall_mem_cons, ih]
    constructor
    · rintro ⟨hP, hlog⟩
      exact ⟨by_contra fun hC => hbad log s i s' hr hs hC hP, hlog⟩
    · rintro ⟨hC, hlog⟩
      exact ⟨hgood _ _ (.call hr hs) (List.forall_mem_cons.mpr ⟨hC, hlog⟩), hlog⟩

/-- The log and the state at every point of the run, the last one first. -/
def prefixes : List (σ × ι) → σ → List (List (σ × ι) × σ)
  | [], s => [([], s)]
  | e :: log, s => (e :: log, s) :: prefixes log e.1

theorem past_mem_prefixes (log : List (σ × ι)) (s : σ) : (log, s) ∈ prefixes log s := by
  cases log <;> exact List.mem_cons_self ..

theorem of_mem_prefixes (hrun : Run step init log s) {t : List (σ × ι) × σ} (ht : t ∈ prefixes log s) :
    Run step init t.1 t.2 := by
  induction hrun with
  | start =>
    rw [prefixes, List.mem_singleton] at ht
    exact ht ▸ .start
  | @call log s s' i hr hs ih =>
    rcases List.mem_cons.mp ht with rfl | ht
    · exact .call hr hs
    · exact ih ht

/-- A property of the log and the state at every point, which a step keeps exactly if it satisfies `C`. -/
theorem forall_prefixes_iff {P : List (σ × ι) → σ → Prop} {C : σ → ι → Prop} (hinit : P [] init)
    (hstep : ∀ log s i s', Run step init log s → P log s → step s i s' → (P ((s, i) :: log) s' ↔ C s i))
    (hrun : Run step init log s) : (∀ t ∈ prefixes log s, P t.1 t.2) ↔ ∀ e ∈ log, C e.1 e.2 := by
  induction hrun with
  | start => simpa [prefixes] using hinit
  | @call log s s' i hr hs ih =>
    rw [prefixes, List.forall_mem_cons, List.forall_mem_cons, ih]
    refine and_congr_left fun hlog => ?_
    exact hstep log s i s' hr (ih.mpr hlog _ (past_mem_prefixes log s)) hs

theorem mem_states {t : σ} : t ∈ states log s ↔ ∃ l, (l, t) ∈ prefixes log s := by
  induction log generalizing s with
  | nil => simp [states, prefixes]
  | cons e log ih =>
    rw [states_cons, List.mem_cons, ih]
    simp [prefixes, exists_or]

/-- A property of every state passed, which a step keeps exactly if it satisfies `C`. -/
theorem forall_states_iff_of_step {P : σ → Prop} {C : σ → ι → Prop} (hinit : P init)
    (hstep : ∀ log s i s', Run step init log s → P s → step s i s' → (P s' ↔ C s i))
    (hrun : Run step init log s) : (∀ t ∈ states log s, P t) ↔ ∀ e ∈ log, C e.1 e.2 := by
  rw [← forall_prefixes_iff (P := fun _ s => P s) hinit hstep hrun]
  constructor
  · intro h t ht
    exact h t.2 (mem_states.mpr ⟨t.1, ht⟩)
  · intro h t ht
    obtain ⟨l, hl⟩ := mem_states.mp ht
    exact h _ hl

/-! ## The transitions of a run -/

/-- Each step with the state before and the state after, the last one first. -/
def transitions : List (σ × ι) → σ → List (σ × ι × σ)
  | [], _ => []
  | (s, i) :: log, s' => (s, i, s') :: transitions log s

/-- A property of every transition, where a step has it exactly if it satisfies `C`. -/
theorem forall_transitions_iff {P : σ → ι → σ → Prop} {C : σ → ι → Prop}
    (h : ∀ log s i s', Run step init log s → step s i s' → (P s i s' ↔ C s i))
    (hrun : Run step init log s) :
    (∀ t ∈ transitions log s, P t.1 t.2.1 t.2.2) ↔ ∀ e ∈ log, C e.1 e.2 := by
  induction hrun with
  | start => simp [transitions]
  | @call log s s' i hr hs ih =>
    rw [transitions, List.forall_mem_cons, List.forall_mem_cons, ih, h log s i s' hr hs]

/-! ## The calls of a run, with their past -/

/-- Each call with the log before it, the state it found and the state it left, the last one first. -/
def moments : List (σ × ι) → σ → List (Moment σ ι)
  | [], _ => []
  | (s, i) :: log, s' => ⟨log, s, i, s'⟩ :: moments log s

theorem mem_of_mem_past {m : Moment σ ι} (hm : m ∈ moments log s) {e : σ × ι} (he : e ∈ m.past) : e ∈ log := by
  induction log generalizing s with
  | nil => cases hm
  | cons x log ih =>
    rcases List.mem_cons.mp hm with rfl | hm
    · exact List.mem_cons_of_mem x he
    · exact List.mem_cons_of_mem x (ih hm)

/-- What every accepted call has, with its past. -/
theorem forall_moments {P : Moment σ ι → Prop}
    (h : ∀ log s i s', Run step init log s → step s i s' → P ⟨log, s, i, s'⟩)
    (hrun : Run step init log s) : ∀ m ∈ moments log s, P m := by
  induction hrun with
  | start => exact List.forall_mem_nil _
  | @call log s s' i hr hs ih =>
    rw [moments, List.forall_mem_cons]
    exact ⟨h log s i s' hr hs, ih⟩

/-- A property of every call and its past, where a call has it exactly if it satisfies `C`. -/
theorem forall_moments_iff {P C : Moment σ ι → Prop}
    (h : ∀ log s i s', Run step init log s → step s i s' → (P ⟨log, s, i, s'⟩ ↔ C ⟨log, s, i, s'⟩))
    (hrun : Run step init log s) : (∀ m ∈ moments log s, P m) ↔ ∀ m ∈ moments log s, C m := by
  induction hrun with
  | start => simp [moments]
  | @call log s s' i hr hs ih =>
    rw [moments, List.forall_mem_cons, List.forall_mem_cons, ih, h log s i s' hr hs]

/-- The same, where the calls before are known to satisfy `C`. -/
theorem forall_moments_iff_of_past {P C : Moment σ ι → Prop}
    (h : ∀ log s i s', Run step init log s → (∀ m ∈ moments log s, C m) → step s i s' →
      (P ⟨log, s, i, s'⟩ ↔ C ⟨log, s, i, s'⟩))
    (hrun : Run step init log s) : (∀ m ∈ moments log s, P m) ↔ ∀ m ∈ moments log s, C m := by
  induction hrun with
  | start => simp [moments]
  | @call log s s' i hr hs ih =>
    rw [moments, List.forall_mem_cons, List.forall_mem_cons, ih]
    exact and_congr_left fun hlog => h log s i s' hr hlog hs

/-- A property of the log and the state at every point, which a call keeps exactly if it satisfies `C`. -/
theorem forall_prefixes_iff_moments {P : List (σ × ι) → σ → Prop} {C : Moment σ ι → Prop} (hinit : P [] init)
    (hstep : ∀ log s i s', Run step init log s → P log s → step s i s' →
      (P ((s, i) :: log) s' ↔ C ⟨log, s, i, s'⟩))
    (hrun : Run step init log s) : (∀ t ∈ prefixes log s, P t.1 t.2) ↔ ∀ m ∈ moments log s, C m := by
  induction hrun with
  | start => simpa [prefixes, moments] using hinit
  | @call log s s' i hr hs ih =>
    rw [prefixes, moments, List.forall_mem_cons, List.forall_mem_cons, ih]
    refine and_congr_left fun hlog => ?_
    exact hstep log s i s' hr (ih.mpr hlog _ (past_mem_prefixes log s)) hs

/-! ## The calls of a run, two at a time -/

/-- Two relations between a call and an earlier one, which agree in every run. -/
theorem pairwise_iff {R R' : σ × ι → σ × ι → Prop}
    (h : ∀ log s i s', Run step init log s → step s i s' → ∀ e ∈ log, (R (s, i) e ↔ R' (s, i) e))
    (hrun : Run step init log s) : log.Pairwise R ↔ log.Pairwise R' := by
  induction hrun with
  | start => simp
  | @call log s s' i hr hs ih =>
    rw [List.pairwise_cons, List.pairwise_cons, ih]
    exact and_congr_left fun _ => forall₂_congr (h log s i s' hr hs)

/-! ## Replaying calls -/

/-- Makes the calls in their order; `none` if one of them is rejected. -/
def replay (next : σ → ι → Option σ) : List ι → List (σ × ι) → σ → Option (List (σ × ι) × σ)
  | [], log, s => some (log, s)
  | i :: is, log, s =>
    match next s i with
    | some s' => replay next is ((s, i) :: log) s'
    | none => none

theorem of_replay {next : σ → ι → Option σ} (hnext : ∀ s i s', next s i = some s' → step s i s')
    {is : List ι} (hrun : Run step init log s) (h : replay next is log s = some (log', s')) :
    Run step init log' s' := by
  induction is generalizing log s with
  | nil =>
    cases h
    exact hrun
  | cons i is ih =>
    unfold replay at h
    split at h
    · rename_i s₁ hs
      exact ih (.call hrun (hnext _ _ _ hs)) h
    · cases h

theorem exists_of_replay {next : σ → ι → Option σ} (hnext : ∀ s i s', next s i = some s' → step s i s')
    {is : List ι} {p : List (σ × ι) → σ → Bool} (h : (replay next is [] init).any (fun r => p r.1 r.2) = true) :
    ∃ log s, Run step init log s ∧ p log s = true := by
  obtain ⟨r, hr, htest⟩ := (Option.any_eq_true _ _).mp h
  exact ⟨r.1, r.2, of_replay hnext .start hr, htest⟩

end Run

/-- Some run ends in the state. -/
def Reachable (step : σ → ι → σ → Prop) (init s : σ) : Prop := ∃ log, Run step init log s

theorem Reachable.invariant {step : σ → ι → σ → Prop} {init s : σ} {P : σ → Prop}
    (hinit : P init) (hstep : ∀ s i s', P s → step s i s' → P s') (h : Reachable step init s) : P s :=
  let ⟨_, hrun⟩ := h
  hrun.invariant hinit hstep

end Lib

/-!
## Loops

A loop with a condition and a counter of its rounds, and the rule that takes an invariant from round to
round.
-/

namespace Lib

variable {σ : Type}

/-- At most `fuel` rounds. -/
def whileLoop (cond : σ → Bool) (body : σ → σ) : Nat → σ → σ
  | 0, s => s
  | fuel + 1, s => if cond s then whileLoop cond body fuel (body s) else s

/-- The invariant of round `i` is that of round `i + 1` after the body, until `rounds` of them are made. -/
theorem whileLoop_rule {cond : σ → Bool} {body : σ → σ} {rounds fuel : Nat} {s : σ} (P : Nat → σ → Prop)
    (hinit : P 0 s) (hfuel : rounds ≤ fuel)
    (hbody : ∀ i s, i < rounds → P i s → cond s = true ∧ P (i + 1) (body s))
    (hstop : ∀ s, P rounds s → cond s = false) : P rounds (whileLoop cond body fuel s) := by
  have hfrom : ∀ fuel i s, P i s → i ≤ rounds → rounds ≤ i + fuel → P rounds (whileLoop cond body fuel s) := by
    intro fuel
    induction fuel with
    | zero =>
      intro i s hP hle hge
      have hi : i = rounds := by omega
      rw [← hi]
      exact hP
    | succ fuel ih =>
      intro i s hP hle hge
      unfold whileLoop
      by_cases hi : i = rounds
      · subst hi
        rw [hstop s hP]
        exact hP
      · obtain ⟨hcond, hnext⟩ := hbody i s (by omega) hP
        rw [hcond]
        exact ih (i + 1) (body s) hnext (by omega) (by omega)
  exact hfrom fuel 0 s hinit (Nat.zero_le _) (by omega)

/-- The same for a loop over a range. -/
theorem foldl_range_rule {body : σ → Nat → σ} {rounds : Nat} {s : σ} (P : Nat → σ → Prop) (hinit : P 0 s)
    (hbody : ∀ i s, i < rounds → P i s → P (i + 1) (body s i)) : P rounds ((List.range rounds).foldl body s) := by
  induction rounds with
  | zero => exact hinit
  | succ rounds ih =>
    rw [List.range_succ, List.foldl_append]
    apply hbody rounds _ (Nat.lt_succ_self _)
    exact ih fun i s hi => hbody i s (Nat.lt_succ_of_lt hi)

/-- The same where a round may fail: none of these does. -/
theorem foldlM_range_rule {s : σ} (rounds : Nat) (body : σ → Nat → Option σ) (P : Nat → σ → Prop)
    (hinit : P 0 s) (hbody : ∀ i s, i < rounds → P i s → ∃ s', body s i = some s' ∧ P (i + 1) s') :
    ∃ s', (List.range rounds).foldlM body s = some s' ∧ P rounds s' := by
  induction rounds with
  | zero => exact ⟨s, rfl, hinit⟩
  | succ rounds ih =>
    obtain ⟨s', hrun, hs'⟩ := ih fun i s hi => hbody i s (Nat.lt_succ_of_lt hi)
    obtain ⟨s'', hlast, hs''⟩ := hbody rounds s' (Nat.lt_succ_self _) hs'
    refine ⟨s'', ?_, hs''⟩
    rw [List.range_succ, List.foldlM_append, hrun]
    simp [hlast]

end Lib

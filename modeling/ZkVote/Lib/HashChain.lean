import Mathlib.Data.List.Induction
import Mathlib.Data.List.Nodup

/-!
# Hash chains

Entries that name the hash of the one before them. As long as the hashes do not collide, a chain from a fixed origin
has no gap, and an entry has one place in it.
-/

namespace Lib.HashChain

variable {ε δ : Type} (prev hash digest : ε → δ)

/-- Each entry names the hash before it, the first one `p`, and carries its own digest. -/
def Linked : δ → List ε → Prop
  | _, [] => True
  | p, e :: es => prev e = p ∧ digest e = hash e ∧ Linked (hash e) es

/-- The hash that the next entry names. -/
def tip : δ → List ε → δ
  | p, [] => p
  | _, e :: es => tip (hash e) es

/-- A digest tells which entry came before, and is never the origin. -/
structure Collisionless (origin : δ) (es : List ε) : Prop where
  prev_eq : ∀ a ∈ es, ∀ b ∈ es, digest a = digest b → prev a = prev b
  ne_origin : ∀ a ∈ es, digest a ≠ origin

variable {prev hash digest} {p origin : δ} {e e' : ε} {es fs pre mid post : List ε}

/-! ## Linked lists of entries -/

theorem linked_cons : Linked prev hash digest p (e :: es) ↔
    prev e = p ∧ digest e = hash e ∧ Linked prev hash digest (hash e) es := Iff.rfl

theorem linked_append : Linked prev hash digest p (es ++ fs) ↔
    Linked prev hash digest p es ∧ Linked prev hash digest (tip hash p es) fs := by
  induction es generalizing p with
  | nil => exact ⟨fun h => ⟨trivial, h⟩, fun h => h.2⟩
  | cons e es ih =>
    rw [List.cons_append, linked_cons, linked_cons, ih]
    exact ⟨fun ⟨hp, hd, hes, hfs⟩ => ⟨⟨hp, hd, hes⟩, hfs⟩, fun ⟨⟨hp, hd, hes⟩, hfs⟩ => ⟨hp, hd, hes, hfs⟩⟩

theorem linked_snoc : Linked prev hash digest p (es ++ [e]) ↔
    Linked prev hash digest p es ∧ prev e = tip hash p es ∧ digest e = hash e := by
  rw [linked_append]
  exact ⟨fun ⟨hes, hp, hd, _⟩ => ⟨hes, hp, hd⟩, fun ⟨hes, hp, hd⟩ => ⟨hes, hp, hd, trivial⟩⟩

/-- Entries may change in what no hash is of. -/
theorem linked_map {f : ε → ε} (hprev : ∀ e, prev (f e) = prev e) (hdigest : ∀ e, digest (f e) = digest e)
    (hhash : ∀ e, hash (f e) = hash e) : Linked prev hash digest p (es.map f) ↔ Linked prev hash digest p es := by
  induction es generalizing p with
  | nil => exact Iff.rfl
  | cons e es ih => rw [List.map_cons, linked_cons, linked_cons, hprev, hdigest, hhash, ih]

theorem tip_mem (p : δ) (es : List ε) : tip hash p es ∈ p :: es.map hash := by
  induction es generalizing p with
  | nil => exact List.mem_singleton_self p
  | cons e es ih => exact List.mem_cons_of_mem p (ih (hash e))

theorem tip_append : tip hash p (es ++ fs) = tip hash (tip hash p es) fs := by
  induction es generalizing p with
  | nil => rfl
  | cons e es ih => exact ih

/-- What an entry names is the origin or the hash of another entry. -/
theorem Linked.prev_mem (h : Linked prev hash digest p es) (he : e ∈ es) : prev e ∈ p :: es.map hash := by
  obtain ⟨pre, post, rfl⟩ := List.append_of_mem he
  obtain ⟨_, hprev, _⟩ := linked_append.mp h
  rw [hprev, List.map_append]
  have htip : tip hash p pre ∈ p :: pre.map hash := tip_mem p pre
  exact List.mem_append_left _ htip

/-! ## Without collisions -/

theorem Collisionless.mono (h : Collisionless prev digest origin es) (hsub : ∀ e ∈ fs, e ∈ es) :
    Collisionless prev digest origin fs where
  prev_eq a ha b hb := h.prev_eq a (hsub a ha) b (hsub b hb)
  ne_origin a ha := h.ne_origin a (hsub a ha)

theorem Linked.digest_eq (h : Linked prev hash digest p es) (he : e ∈ es) : digest e = hash e := by
  obtain ⟨pre, post, rfl⟩ := List.append_of_mem he
  exact (linked_append.mp h).2.2.1

/-- No hash of a chain comes twice, nor is it the origin. -/
theorem Linked.nodup (h : Linked prev hash digest origin es) (hfree : Collisionless prev digest origin es) :
    (origin :: es.map hash).Nodup := by
  induction es using List.reverseRecOn with
  | nil => exact List.nodup_singleton origin
  | append_singleton es e ih =>
    obtain ⟨hes, hprev, hdigest⟩ := linked_snoc.mp h
    have hbefore := ih hes (hfree.mono fun a ha => List.mem_append_left _ ha)
    have he : e ∈ es ++ [e] := List.mem_append_right es (List.mem_singleton_self e)
    have hnew : hash e ∉ origin :: es.map hash := by
      intro hmem
      rcases List.mem_cons.mp hmem with horigin | hmem
      · exact hfree.ne_origin e he (hdigest.trans horigin)
      · obtain ⟨e', he', hsame⟩ := List.mem_map.mp hmem
        have hdigests : digest e = digest e' := by rw [hdigest, hes.digest_eq he', hsame]
        have hprevs := hfree.prev_eq e he e' (List.mem_append_left _ he') hdigests
        -- the entry that the later one names stands at or behind the one that the earlier one names
        obtain ⟨pre, post, rfl⟩ := List.append_of_mem he'
        have hearly : prev e' ∈ origin :: pre.map hash := by
          rw [(linked_append.mp hes).2.1]
          exact tip_mem origin pre
        have hlate : prev e ∈ (e' :: post).map hash := by
          rw [hprev, tip_append]
          exact tip_mem (hash e') post
        rw [List.map_append, ← List.cons_append] at hbefore
        exact (List.nodup_append.mp hbefore).2.2 _ hearly _ (hprevs ▸ hlate) rfl
    rw [List.map_append, ← List.cons_append]
    exact List.nodup_append.mpr ⟨hbefore, List.nodup_singleton _, fun a ha b hb hab => by
      rw [List.map_singleton, List.mem_singleton] at hb
      exact hnew (hb ▸ hab ▸ ha)⟩

/-- What is left of a chain is a chain exactly when nothing is missing before what is left. -/
theorem linked_sublist_iff (h : Linked prev hash digest p es) (hnodup : (p :: es.map hash).Nodup) (hsub : fs.Sublist es) :
    Linked prev hash digest p fs ↔ fs <+: es := by
  constructor
  · intro hfs
    induction hsub generalizing p with
    | slnil => exact List.prefix_refl _
    | @cons fs es e hsub ih =>
      cases fs with
      | nil => exact List.nil_prefix
      | cons f fs =>
        have hprev : prev f ∈ (e :: es).map hash := h.2.2.prev_mem (hsub.subset List.mem_cons_self)
        exact absurd (hfs.1 ▸ hprev) (List.nodup_cons.mp hnodup).1
    | @cons_cons fs es e hsub ih =>
      exact List.cons_prefix_cons.mpr ⟨rfl, ih h.2.2 (List.nodup_cons.mp hnodup).2 hfs.2.2⟩
  · rintro ⟨rest, rfl⟩
    exact (linked_append.mp h).1

/-- An entry taken out breaks the chain behind it. -/
theorem not_linked_of_removed (h : Linked prev hash digest p (pre ++ e :: post))
    (hnodup : (p :: (pre ++ e :: post).map hash).Nodup) (hpost : post ≠ []) :
    ¬ Linked prev hash digest p (pre ++ post) := by
  intro hleft
  obtain ⟨f, post, rfl⟩ := List.exists_cons_of_ne_nil hpost
  have hprev : prev f = tip hash p pre := (linked_append.mp hleft).2.1
  have hprev' : prev f = hash e := (linked_append.mp h).2.2.2.1
  rw [List.map_append, ← List.cons_append] at hnodup
  exact (List.nodup_append.mp hnodup).2.2 _ (tip_mem p pre) (hash e) List.mem_cons_self (hprev.symm.trans hprev')

/-- An entry moved forward does not fit where it comes to stand. -/
theorem not_linked_of_moved {fs : List ε} (h : Linked prev hash digest p (pre ++ e :: (mid ++ e' :: post)))
    (hnodup : (p :: (pre ++ e :: (mid ++ e' :: post)).map hash).Nodup) {moved : ε} (hmoved : prev moved = prev e') :
    ¬ Linked prev hash digest p (pre ++ moved :: fs) := by
  intro hswapped
  have hprev : prev moved = tip hash p pre := (linked_append.mp hswapped).2.1
  have hprev' : prev e' = tip hash (hash e) mid := (linked_append.mp (linked_append.mp h).2.2.2).2.1
  have hmem : prev e' ∈ (e :: (mid ++ e' :: post)).map hash := by
    rw [hprev', List.map_cons, List.map_append]
    have htip : tip hash (hash e) mid ∈ hash e :: mid.map hash := tip_mem (hash e) mid
    exact List.mem_append_left _ htip
  rw [List.map_append, ← List.cons_append] at hnodup
  exact (List.nodup_append.mp hnodup).2.2 _ (tip_mem p pre) _ hmem (hprev.symm.trans hmoved)

end Lib.HashChain

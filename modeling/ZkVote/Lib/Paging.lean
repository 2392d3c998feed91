import Mathlib.Data.List.Basic
import Mathlib.Tactic.Common
import ZkVote.Lib.Outcome

/-!
# Paging

A caller goes through a store page by page: it moves its cursor on by the page size until
a page reports nothing done, or past the key of the last row it has seen.
-/

namespace Lib

open Outcome

variable {ε κ : Type}

/-- The caller's loop from a cursor of `w` bits on, if it ends normally, with the keys that its pages touched. -/
inductive Swept (w : Nat) (page : Nat → Outcome ε (Nat × List κ)) (size : Nat) : Nat → List κ → Prop where
  | last {start : Nat} {keys : List κ} : page start = .ok (0, keys) → Swept w page size start keys
  | next {start next count : Nat} {keys rest : List κ} : page start = .ok (count, keys) → count ≠ 0 →
      checkedAdd w start size = some next → Swept w page size next rest → Swept w page size start (keys ++ rest)

/-- The page size for a requested limit, of which 0 asks for the most there is. -/
def pageSize (most limit : Nat) : Nat := if limit = 0 ∨ most < limit then most else limit

theorem pageSize_pos {most limit : Nat} (h : 0 < most) : 0 < pageSize most limit := by
  unfold pageSize
  split <;> omega

theorem pageSize_le {most limit : Nat} : pageSize most limit ≤ most := by
  unfold pageSize
  split <;> omega

/-- The pages cut the places below `total` into windows: a page touches `always`, and what the places of its window
hold. -/
def Windows (page : Nat → Outcome ε (Nat × List κ)) (size total : Nat) (always : κ → Prop) (holds : Nat → κ → Prop) :
    Prop :=
  ∀ start count keys, page start = .ok (count, keys) →
    ∀ k, k ∈ keys ↔ always k ∨ ∃ i, start ≤ i ∧ i < min total (start + size) ∧ holds i k

variable {w size total start : Nat} {page : Nat → Outcome ε (Nat × List κ)} {keys : List κ} {k : κ}
  {always : κ → Prop} {holds : Nat → κ → Prop}

/-- What a loop touches has its place from the cursor on. -/
theorem Swept.of_mem (h : Swept w page size start keys) (hw : Windows page size total always holds) (hk : k ∈ keys) :
    always k ∨ ∃ i, start ≤ i ∧ i < total ∧ holds i k := by
  induction h with
  | last hpage =>
    refine ((hw _ _ _ hpage k).mp hk).imp_right ?_
    rintro ⟨i, hle, hlt, hk⟩
    exact ⟨i, hle, by omega, hk⟩
  | next hpage _ hnext _ ih =>
    rw [checkedAdd_eq_some] at hnext
    rcases List.mem_append.mp hk with hk | hk
    · refine ((hw _ _ _ hpage k).mp hk).imp_right ?_
      rintro ⟨i, hle, hlt, hk⟩
      exact ⟨i, hle, by omega, hk⟩
    · refine (ih hk).imp_right ?_
      rintro ⟨i, hle, hlt, hk⟩
      exact ⟨i, by omega, hlt, hk⟩

/-- A loop leaves out no place, if a page that reports nothing done has nothing left after it. -/
theorem Swept.mem_iff (h : Swept w page size start keys) (hw : Windows page size total always holds)
    (hrest : ∀ next touched, start ≤ next → page next = .ok (0, touched) →
      ∀ i k, next ≤ i → i < total → ¬ holds i k) :
    k ∈ keys ↔ always k ∨ ∃ i, start ≤ i ∧ i < total ∧ holds i k := by
  refine ⟨h.of_mem hw, fun hk => ?_⟩
  induction h with
  | last hpage =>
    refine (hw _ _ _ hpage k).mpr (hk.imp_right ?_)
    rintro ⟨i, hle, hlt, hk⟩
    exact absurd hk (hrest _ _ (Nat.le_refl _) hpage i k hle hlt)
  | @next start next count keys rest hpage _ hnext _ ih =>
    rw [checkedAdd_eq_some] at hnext
    rw [List.mem_append, hw _ _ _ hpage]
    rcases hk with hk | ⟨i, hle, hlt, hk⟩
    · exact .inl (.inl hk)
    · by_cases hi : i < start + size
      · exact .inl (.inr ⟨i, hle, Nat.lt_min.mpr ⟨hlt, hi⟩, hk⟩)
      · exact .inr (ih (fun next touched hle => hrest next touched (by omega)) (.inr ⟨i, by omega, hlt, hk⟩))

/-- The loop ends where every cursor it comes to gets an answer, and a page that reports something is not past the
end. -/
theorem exists_swept (good : Nat → Prop) (hsize : 0 < size) (hfits : total + size ≤ 2 ^ w)
    (hpage : ∀ start, good start → ∃ count keys, page start = .ok (count, keys) ∧
      (count ≠ 0 → start < total ∧ good (start + size))) (start : Nat) (hgood : good start) :
    ∃ keys, Swept w page size start keys := by
  obtain ⟨count, keys, hok, hgo⟩ := hpage start hgood
  by_cases hcount : count = 0
  · subst hcount
    exact ⟨keys, .last hok⟩
  · obtain ⟨hlt, hnext⟩ := hgo hcount
    have hcursor : checkedAdd w start size = some (start + size) := checkedAdd_eq_some.mpr ⟨by omega, rfl⟩
    obtain ⟨rest, hrest⟩ := exists_swept good hsize hfits hpage (start + size) hnext
    exact ⟨keys ++ rest, .next hok hcount hcursor hrest⟩
termination_by total - start

end Lib

/-!
## Pages after a key

A caller follows pages of sorted rows, each of the rows with a key above that of the last row it has seen. Which rows
come first among equals is left to whoever sorts them, page by page.
-/

namespace Lib.Keyset

variable {α κ : Type}

structure Page (κ α : Type) where
  data : List α
  cursor : Option κ
  hasMore : Bool

/-- What the caller has collected once no more is promised; `none` where a request fails, or fuel runs out. -/
def follow (request : Nat → Option κ → Option (Page κ α)) : Nat → Nat → Option κ → Option (List α)
  | 0, _, _ => none
  | fuel + 1, i, cursor =>
    match request i cursor with
    | none => none
    | some page =>
      if page.hasMore then (follow request fuel (i + 1) page.cursor).map (page.data ++ ·) else some page.data

def Page.map {β ι : Type} (f : α → β) (g : κ → ι) (page : Page κ α) : Page ι β where
  data := page.data.map f
  cursor := page.cursor.map g
  hasMore := page.hasMore

/-- Rows and cursors may be dressed up on their way. -/
theorem follow_map {β ι : Type} {f : α → β} {g : κ → ι} {request : Nat → Option κ → Option (Page κ α)}
    {request' : Nat → Option ι → Option (Page ι β)}
    (h : ∀ i cursor, request' i (cursor.map g) = (request i cursor).map (Page.map f g)) (fuel i : Nat)
    (cursor : Option κ) : follow request' fuel i (cursor.map g) = (follow request fuel i cursor).map (List.map f) := by
  induction fuel generalizing i cursor with
  | zero => rfl
  | succ fuel ih =>
    unfold follow
    rw [h i cursor]
    cases request i cursor with
    | none => rfl
    | some page =>
      have hmore : (page.map f g).hasMore = page.hasMore := rfl
      have hnext : follow request' fuel (i + 1) (page.map f g).cursor =
          (follow request fuel (i + 1) page.cursor).map (List.map f) := ih (i + 1) page.cursor
      rw [Option.map_some]
      dsimp only
      rw [hmore, hnext]
      cases page.hasMore with
      | false => rfl
      | true =>
        cases follow request fuel (i + 1) page.cursor with
        | none => rfl
        | some rest => exact congrArg some List.map_append.symm

/-- Whoever sorts drops nothing, makes up nothing, and sorts. -/
def Lawful (le : α → α → Bool) (arrange : List α → List α) : Prop :=
  ∀ rows, (arrange rows).Perm rows ∧ (arrange rows).Pairwise fun a b => le a b = true

variable (keyOf : α → κ) (above : κ → α → Bool) (limit : Nat) (rows : List α)

def select : Option κ → List α
  | none => rows
  | some key => rows.filter (above key)

/-- The rows that come next, and more is promised if they fill the page and there are more rows altogether. -/
def keysetPage (arrange : List α → List α) (cursor : Option κ) : Page κ α :=
  let data := (arrange (select above rows cursor)).take limit
  let hasMore := decide (data.length = limit ∧ data.length < rows.length)
  { data := data, hasMore := hasMore, cursor := if hasMore = true then data.getLast?.map keyOf else none }

def keysetRequest (engine : Nat → List α → List α) (i : Nat) (cursor : Option κ) : Option (Page κ α) :=
  some (keysetPage keyOf above limit rows (engine i) cursor)

/-- Whatever the engine does with equal rows, the caller ends with all of them, each once, in order. -/
def Exact (le : α → α → Bool) : Prop :=
  ∀ engine, (∀ i, Lawful le (engine i)) → ∃ fuel result,
    follow (keysetRequest keyOf above limit rows engine) fuel 0 none = some result ∧
      result.Perm rows ∧ result.Pairwise fun a b => le a b = true

/-- The key of the last row before the cut is below all rows behind the cut, and below no row before it. -/
def Separates (sorted : List α) (cut : Nat) : Prop :=
  ∀ last ∈ (sorted.take cut).getLast?, (∀ row ∈ sorted.take cut, above (keyOf last) row = false) ∧
    ∀ row ∈ sorted.drop cut, above (keyOf last) row = true

section
variable {keyOf above limit rows} {le : α → α → Bool} {engine : Nat → List α → List α} {sorted result : List α}
  {fuel i cut : Nat} {cursor : Option κ} {key : κ}

theorem keysetPage_hasMore {arrange : List α → List α} :
    (keysetPage keyOf above limit rows arrange cursor).hasMore = true ↔
      limit ≤ (arrange (select above rows cursor)).length ∧ limit < rows.length := by
  unfold keysetPage
  rw [decide_eq_true_iff, List.length_take]
  omega

theorem follow_some {request : Nat → Option κ → Option (Page κ α)} {page : Page κ α} (h : request i cursor = some page) :
    follow request (fuel + 1) i cursor =
      if page.hasMore then (follow request fuel (i + 1) page.cursor).map (page.data ++ ·) else some page.data := by
  rw [follow, h]

/-- One step of the caller, where the page is full and not all. -/
theorem follow_more {arranged : List α} (harranged : engine i (select above rows cursor) = arranged)
    (hfull : limit ≤ arranged.length) (hmore : limit < rows.length) :
    follow (keysetRequest keyOf above limit rows engine) (fuel + 1) i cursor =
      (follow (keysetRequest keyOf above limit rows engine) fuel (i + 1)
        ((arranged.take limit).getLast?.map keyOf)).map (arranged.take limit ++ ·) := by
  subst harranged
  have htrue : (keysetPage keyOf above limit rows (engine i) cursor).hasMore = true :=
    keysetPage_hasMore.mpr ⟨hfull, hmore⟩
  have hcursor : (keysetPage keyOf above limit rows (engine i) cursor).cursor =
      ((engine i (select above rows cursor)).take limit).getLast?.map keyOf := if_pos htrue
  rw [follow_some rfl, if_pos htrue, hcursor]
  rfl

/-- The last step of the caller. -/
theorem follow_last {arranged : List α} (harranged : engine i (select above rows cursor) = arranged)
    (hlast : ¬ (limit ≤ arranged.length ∧ limit < rows.length)) :
    follow (keysetRequest keyOf above limit rows engine) (fuel + 1) i cursor = some (arranged.take limit) := by
  subst harranged
  rw [follow_some rfl, if_neg fun htrue => hlast (keysetPage_hasMore.mp htrue)]
  rfl

theorem exists_last {n : Nat} (hpos : 0 < n) (hle : n ≤ sorted.length) : ∃ last, (sorted.take n).getLast? = some last := by
  refine ⟨_, List.getLast?_eq_some_getLast fun hnil => ?_⟩
  have hzero := congrArg List.length hnil
  rw [List.length_take, List.length_nil] at hzero
  omega

/-! ### Cuts that separate -/

/-- Behind a cut that separates, what the next page is taken from is what is left. -/
theorem select_of_separates {last : α} (hperm : sorted.Perm rows) (hlast : last ∈ (sorted.take cut).getLast?)
    (h : Separates keyOf above sorted cut) :
    (select above rows (some (keyOf last))).Perm (sorted.drop cut) ∧
      sorted.filter (above (keyOf last)) = sorted.drop cut := by
  obtain ⟨hbefore, hbehind⟩ := h last hlast
  have hfilter : sorted.filter (above (keyOf last)) = sorted.drop cut := by
    conv_lhs => rw [← List.take_append_drop cut sorted, List.filter_append]
    rw [List.filter_eq_nil_iff.mpr fun row hrow => by rw [hbefore row hrow]; decide, List.nil_append]
    exact List.filter_eq_self.mpr hbehind
  exact ⟨hfilter ▸ (hperm.symm.filter _), hfilter⟩

/-- Where every cut separates, whatever the arrangement, the caller gets what is left in order. -/
theorem follow_of_separates (hlimit : 0 < limit) (hlawful : ∀ i, Lawful le (engine i))
    (hcuts : limit < rows.length → ∀ sorted : List α, sorted.Perm rows → sorted.Pairwise (fun a b => le a b = true) →
      ∀ i, 0 < i → i * limit ≤ rows.length → Separates keyOf above sorted (i * limit))
    (hperm : sorted.Perm rows) (hsorted : sorted.Pairwise fun a b => le a b = true) (hi : i * limit ≤ rows.length)
    (hselect : (select above rows cursor).Perm (sorted.drop (i * limit))) :
    ∃ fuel rest, follow (keysetRequest keyOf above limit rows engine) fuel i cursor = some rest ∧
      (sorted.take (i * limit) ++ rest).Perm rows ∧
        (sorted.take (i * limit) ++ rest).Pairwise fun a b => le a b = true := by
  induction hleft : rows.length - i * limit using Nat.strongRecOn generalizing i cursor sorted with
  | ind left ih =>
    obtain ⟨harranged, hpage⟩ := hlawful i (select above rows cursor)
    generalize hdef : engine i (select above rows cursor) = arranged at harranged hpage
    have hdrop := harranged.trans hselect
    have hlength : arranged.length = rows.length - i * limit := by
      rw [hdrop.length_eq, List.length_drop, hperm.length_eq]
    -- the rows delivered so far, and behind them this page's arrangement
    have hperm' : (sorted.take (i * limit) ++ arranged).Perm rows := by
      refine (hdrop.append_left _).trans ?_
      rw [List.take_append_drop]
      exact hperm
    have hsorted' : (sorted.take (i * limit) ++ arranged).Pairwise fun a b => le a b = true := by
      rw [← List.take_append_drop (i * limit) sorted, List.pairwise_append] at hsorted
      exact List.pairwise_append.mpr ⟨hsorted.1, hpage, fun a ha b hb => hsorted.2.2 a ha b (hdrop.mem_iff.mp hb)⟩
    by_cases hmore : limit ≤ arranged.length ∧ limit < rows.length
    · have hnext : (i + 1) * limit ≤ rows.length := by
        rw [Nat.succ_mul]
        omega
      have htake : (sorted.take (i * limit) ++ arranged).take ((i + 1) * limit) =
          sorted.take (i * limit) ++ arranged.take limit := by
        have hbefore : (sorted.take (i * limit)).length = i * limit := by
          rw [List.length_take, hperm.length_eq]
          omega
        rw [Nat.succ_mul, List.take_append, hbefore, Nat.add_sub_cancel_left, List.take_of_length_le (by omega)]
      obtain ⟨last, hlast⟩ := exists_last hlimit hmore.1
      have hlast' : last ∈ ((sorted.take (i * limit) ++ arranged).take ((i + 1) * limit)).getLast? := by
        rw [htake, List.getLast?_append, hlast]
        rfl
      have hseparates := hcuts hmore.2 _ hperm' hsorted' (i + 1) (Nat.succ_pos i) hnext
      have hselect' := (select_of_separates hperm' hlast' hseparates).1
      obtain ⟨fuel, rest, hfollow, hall, hordered⟩ :=
        ih (rows.length - (i + 1) * limit) (by rw [Nat.succ_mul] at hnext ⊢; omega) hperm' hsorted' hnext hselect' rfl
      rw [htake, List.append_assoc] at hall hordered
      refine ⟨fuel + 1, arranged.take limit ++ rest, ?_, hall, hordered⟩
      rw [follow_more hdef hmore.1 hmore.2, hlast, Option.map_some, hfollow]
      rfl
    · refine ⟨1, arranged, ?_, hperm', hsorted'⟩
      have hall : arranged.take limit = arranged := List.take_of_length_le (by omega)
      rw [follow_last hdef hmore, hall]

/-! ### Cuts that do not -/

open Classical in
/-- An engine that always follows one arrangement. -/
noncomputable def following (le : α → α → Bool) (sorted : List α) (rows : List α) : List α :=
  if (sorted.filter (· ∈ rows)).Perm rows then sorted.filter (· ∈ rows) else rows.mergeSort le

theorem following_lawful (htotal : ∀ a b, (le a b || le b a) = true)
    (htrans : ∀ a b c, le a b = true → le b c = true → le a c = true)
    (hsorted : sorted.Pairwise fun a b => le a b = true) : Lawful le (following le sorted) := by
  intro rows
  unfold following
  split
  · next h => exact ⟨h, hsorted.sublist List.filter_sublist⟩
  · exact ⟨List.mergeSort_perm rows le, List.pairwise_mergeSort htrans htotal rows⟩

theorem following_filter (hperm : sorted.Perm rows) (keep : α → Bool) :
    following le sorted (rows.filter keep) = sorted.filter keep := by
  classical
  have hsame : sorted.filter (· ∈ rows.filter keep) = sorted.filter keep := by
    refine List.filter_congr fun row hrow => ?_
    rw [Bool.eq_iff_iff, decide_eq_true_iff, List.mem_filter]
    exact ⟨fun h => h.2, fun h => ⟨hperm.mem_iff.mp hrow, h⟩⟩
  unfold following
  rw [hsame, if_pos (hperm.filter keep)]

/-- What follows a key is above it. -/
theorem above_of_follow (hlimit : 0 < limit) (hlawful : ∀ i, Lawful le (engine i))
    (htrans : ∀ key a b, above key a = true → above (keyOf a) b = true → above key b = true)
    (hfollow : follow (keysetRequest keyOf above limit rows engine) fuel i (some key) = some result) {row : α}
    (hrow : row ∈ result) : above key row = true := by
  induction fuel generalizing i key result row with
  | zero => cases hfollow
  | succ fuel ih =>
    have hpage : ∀ row ∈ (engine i (select above rows (some key))).take limit, above key row = true := by
      intro row hrow
      exact (List.mem_filter.mp ((hlawful i _).1.mem_iff.mp (List.mem_of_mem_take hrow))).2
    by_cases hmore : limit ≤ (engine i (select above rows (some key))).length ∧ limit < rows.length
    · rw [follow_more rfl hmore.1 hmore.2] at hfollow
      obtain ⟨rest, hrest, rfl⟩ := Option.map_eq_some_iff.mp hfollow
      rcases List.mem_append.mp hrow with hrow | hrow
      · exact hpage row hrow
      · obtain ⟨last, hlast⟩ := exists_last hlimit hmore.1
        rw [hlast] at hrest
        exact htrans key last row (hpage last (List.mem_of_getLast? hlast)) (ih hrest hrow)
    · rw [follow_last rfl hmore] at hfollow
      cases hfollow
      exact hpage row hrow

theorem mem_of_mem_page (hfollow : follow (keysetRequest keyOf above limit rows engine) fuel i cursor = some result)
    {row : α} (hrow : row ∈ (engine i (select above rows cursor)).take limit) : row ∈ result := by
  cases fuel with
  | zero => cases hfollow
  | succ fuel =>
    by_cases hmore : limit ≤ (engine i (select above rows cursor)).length ∧ limit < rows.length
    · rw [follow_more rfl hmore.1 hmore.2] at hfollow
      obtain ⟨rest, _, rfl⟩ := Option.map_eq_some_iff.mp hfollow
      exact List.mem_append_left _ hrow
    · rw [follow_last rfl hmore] at hfollow
      cases hfollow
      exact hrow

/-- As long as the cuts before it separate, an engine that follows an arrangement comes to every cut of it. -/
theorem follow_to_cut (hlimit : 0 < limit) (hmore : limit < rows.length) (hperm : sorted.Perm rows)
    (hcuts : ∀ j, 0 < j → j < i → Separates keyOf above sorted (j * limit)) (hi : i * limit ≤ rows.length)
    (hfollow : follow (keysetRequest keyOf above limit rows fun _ => following le sorted) fuel 0 none = some result) :
    ∃ fuel' rest, result = sorted.take (i * limit) ++ rest ∧
      follow (keysetRequest keyOf above limit rows fun _ => following le sorted) fuel' i
        ((sorted.take (i * limit)).getLast?.map keyOf) = some rest := by
  induction i with
  | zero =>
    rw [Nat.zero_mul, List.take_zero]
    exact ⟨fuel, result, rfl, hfollow⟩
  | succ i ih =>
    have hle : i * limit ≤ rows.length := by
      rw [Nat.succ_mul] at hi
      omega
    obtain ⟨fuel', rest, hresult, hrest⟩ := ih (fun j hj hlt => hcuts j hj (by omega)) hle
    have harranged : following le sorted (select above rows ((sorted.take (i * limit)).getLast?.map keyOf)) =
        sorted.drop (i * limit) := by
      rcases Nat.eq_zero_or_pos i with rfl | hpos
      · rw [Nat.zero_mul, List.take_zero, List.drop_zero]
        have hall : following le sorted (rows.filter fun _ => true) = sorted.filter fun _ => true :=
          following_filter hperm fun _ => true
        rw [List.filter_eq_self.mpr fun _ _ => rfl, List.filter_eq_self.mpr fun _ _ => rfl] at hall
        exact hall
      · obtain ⟨last, hlast⟩ := exists_last (Nat.mul_pos hpos hlimit) (hperm.length_eq ▸ hle)
        have hfilter := (select_of_separates hperm hlast (hcuts i hpos (Nat.lt_succ_self i))).2
        rw [hlast, ← hfilter]
        exact following_filter hperm _
    have hfull : limit ≤ (sorted.drop (i * limit)).length := by
      rw [List.length_drop, hperm.length_eq]
      rw [Nat.succ_mul] at hi
      omega
    have htake : sorted.take ((i + 1) * limit) = sorted.take (i * limit) ++ (sorted.drop (i * limit)).take limit := by
      rw [Nat.succ_mul, List.take_add]
    cases fuel' with
    | zero => cases hrest
    | succ fuel' =>
      rw [follow_more harranged hfull hmore] at hrest
      obtain ⟨behind, hbehind, rfl⟩ := Option.map_eq_some_iff.mp hrest
      refine ⟨fuel', behind, ?_, ?_⟩
      · rw [hresult, htake, List.append_assoc]
      · obtain ⟨last, hlast⟩ := exists_last hlimit hfull
        rw [htake, List.getLast?_append, hlast]
        rw [hlast] at hbehind
        exact hbehind

/-- A cut in a page that is full separates, or an arrangement exists that loses or repeats a row there. -/
theorem separates_of_exact (hlimit : 0 < limit) (hmore : limit < rows.length) (hnodup : rows.Nodup)
    (htotal : ∀ a b, (le a b || le b a) = true) (htrans : ∀ a b c, le a b = true → le b c = true → le a c = true)
    (habove : ∀ key a b, above key a = true → above (keyOf a) b = true → above key b = true)
    (hexact : Exact keyOf above limit rows le) (hperm : sorted.Perm rows)
    (hsorted : sorted.Pairwise fun a b => le a b = true) (hpos : 0 < i) (hi : i * limit ≤ rows.length) :
    Separates keyOf above sorted (i * limit) := by
  have hlawful := following_lawful htotal htrans hsorted
  obtain ⟨fuel, result, hfollow, hall, _⟩ := hexact (fun _ => following le sorted) fun _ => hlawful
  induction i using Nat.strongRecOn with
  | ind i ih =>
    have hcuts : ∀ j, 0 < j → j < i → Separates keyOf above sorted (j * limit) := by
      intro j hj hlt
      exact ih j hlt hj (Nat.le_trans (Nat.mul_le_mul_right limit (Nat.le_of_lt hlt)) hi)
    obtain ⟨fuel', rest, rfl, hrest⟩ := follow_to_cut hlimit hmore hperm hcuts hi hfollow
    intro last hlast
    rw [hlast, Option.map_some] at hrest
    have hleft : rest.Perm (sorted.drop (i * limit)) := by
      have hboth : (sorted.take (i * limit) ++ rest).Perm (sorted.take (i * limit) ++ sorted.drop (i * limit)) := by
        rw [List.take_append_drop]
        exact hall.trans hperm.symm
      exact (List.perm_append_left_iff _).mp hboth
    have hbehind : ∀ row ∈ sorted.drop (i * limit), above (keyOf last) row = true := fun row hrow =>
      above_of_follow hlimit (fun _ => hlawful) habove hrest (hleft.mem_iff.mpr hrow)
    refine ⟨fun row hrow => ?_, hbehind⟩
    by_contra hrepeated
    rw [Bool.not_eq_false] at hrepeated
    -- the first row of the next page is one the caller already has
    have harranged : following le sorted (select above rows (some (keyOf last))) =
        (sorted.take (i * limit)).filter (above (keyOf last)) ++ (sorted.drop (i * limit)).filter (above (keyOf last)) := by
      rw [← List.filter_append, List.take_append_drop]
      exact following_filter hperm _
    have hfiltered : (sorted.take (i * limit)).filter (above (keyOf last)) ≠ [] :=
      List.ne_nil_of_mem (List.mem_filter.mpr ⟨hrow, hrepeated⟩)
    obtain ⟨first, others, hfirst⟩ := List.exists_cons_of_ne_nil hfiltered
    have hpage : first ∈ (following le sorted (select above rows (some (keyOf last)))).take limit := by
      obtain ⟨n, rfl⟩ := Nat.exists_eq_succ_of_ne_zero (Nat.ne_of_gt hlimit)
      rw [harranged, hfirst, List.cons_append, List.take_succ_cons]
      exact List.mem_cons_self
    have hagain : first ∈ sorted.drop (i * limit) := hleft.mem_iff.mp (mem_of_mem_page hrest hpage)
    have honce : first ∈ sorted.take (i * limit) :=
      (List.mem_filter.mp (hfirst ▸ List.mem_cons_self : first ∈ (sorted.take (i * limit)).filter _)).1
    exact List.disjoint_take_drop (hperm.nodup_iff.mpr hnodup) (Nat.le_refl _) honce hagain

/-- Following the pages is exact exactly when one page holds all rows, or every full page is cut where the keys are. -/
theorem exact_iff (hlimit : 0 < limit) (hnodup : rows.Nodup) (htotal : ∀ a b, (le a b || le b a) = true)
    (htrans : ∀ a b c, le a b = true → le b c = true → le a c = true)
    (habove : ∀ key a b, above key a = true → above (keyOf a) b = true → above key b = true) :
    Exact keyOf above limit rows le ↔ rows.length ≤ limit ∨ ∀ sorted : List α, sorted.Perm rows →
      sorted.Pairwise (fun a b => le a b = true) → ∀ i, 0 < i → i * limit ≤ rows.length →
        Separates keyOf above sorted (i * limit) := by
  constructor
  · intro hexact
    rcases Nat.lt_or_ge limit rows.length with hmore | hle
    · exact .inr fun sorted hperm hsorted i hpos hi =>
        separates_of_exact hlimit hmore hnodup htotal htrans habove hexact hperm hsorted hpos hi
    · exact .inl hle
  · intro h engine hlawful
    have hcuts : limit < rows.length → ∀ sorted : List α, sorted.Perm rows →
        sorted.Pairwise (fun a b => le a b = true) → ∀ i, 0 < i → i * limit ≤ rows.length →
          Separates keyOf above sorted (i * limit) := fun hmore => h.resolve_left (Nat.not_le_of_lt hmore)
    obtain ⟨hperm, hsorted⟩ := hlawful 0 rows
    have hselect : (select above rows none).Perm ((engine 0 rows).drop (0 * limit)) := by
      rw [Nat.zero_mul, List.drop_zero]
      exact hperm.symm
    obtain ⟨fuel, result, hfollow, hall, hordered⟩ :=
      follow_of_separates hlimit hlawful hcuts hperm hsorted (by omega) hselect
    rw [Nat.zero_mul, List.take_zero, List.nil_append] at hall hordered
    exact ⟨fuel, result, hfollow, hall, hordered⟩

end

end Lib.Keyset

import Mathlib.Data.List.Flatten
import Mathlib.Data.List.Sort

/-!
# Pages of a collection

A query that skips and limits answers with one page of the documents that its filter selects, in
the order of a key. Pages of one collection divide its selected documents. Between two pages the
collection may grow: then a document may be on several pages, but it is not passed over.
-/

namespace Documents

variable {D K : Type}

section Pages

/-- Page `page`, counted from 1, of `limit` documents. -/
def pageOf (page limit : ℕ) (docs : List D) : List D :=
  (docs.drop ((page - 1) * limit)).take limit

/-- The number of pages, the last of which need not be full. -/
def totalPages (total limit : ℕ) : ℕ :=
  (total + limit - 1) / limit

variable {page limit n total : ℕ} {docs : List D}

theorem totalPages_le_iff (hlimit : 0 < limit) : totalPages total limit ≤ n ↔ total ≤ n * limit := by
  rw [totalPages, ← Nat.lt_succ_iff, Nat.div_lt_iff_lt_mul hlimit, Nat.succ_mul]
  omega

theorem pageOf_length_le : (pageOf page limit docs).length ≤ limit :=
  List.length_take_le _ _

theorem pageOf_sublist : (pageOf page limit docs).Sublist docs :=
  (List.take_sublist _ _).trans (List.drop_sublist _ _)

/-- The pages up to one of them, one after the other. -/
theorem pages_eq_take (n : ℕ) :
    ((List.range n).flatMap fun i => pageOf (i + 1) limit docs) = docs.take (n * limit) := by
  induction n with
  | zero => simp
  | succ n ih =>
    rw [List.range_succ, List.flatMap_append, ih, List.flatMap_singleton, Nat.succ_mul,
      List.take_add, pageOf, Nat.add_sub_cancel]

/-- The pages up to the last divide the documents. -/
theorem pages_eq (hlimit : 0 < limit) :
    ((List.range (totalPages docs.length limit)).flatMap fun i => pageOf (i + 1) limit docs) =
      docs := by
  rw [pages_eq_take, List.take_of_length_le ((totalPages_le_iff hlimit).mp le_rfl)]

theorem pageOf_eq_nil_iff (hlimit : 0 < limit) (hpage : 1 ≤ page) :
    pageOf page limit docs = [] ↔ totalPages docs.length limit < page := by
  obtain ⟨n, rfl⟩ := Nat.exists_eq_add_of_le' hpage
  rw [Nat.lt_succ_iff, totalPages_le_iff hlimit, pageOf, List.take_eq_nil_iff,
    List.drop_eq_nil_iff, Nat.add_sub_cancel]
  exact or_iff_right hlimit.ne'

/-- A page that is not full is the last, or there is none there. -/
theorem totalPages_le_of_short (hlimit : 0 < limit) (hpage : 1 ≤ page)
    (hshort : (pageOf page limit docs).length < limit) : totalPages docs.length limit ≤ page := by
  obtain ⟨n, rfl⟩ := Nat.exists_eq_add_of_le' hpage
  rw [pageOf, List.length_take, List.length_drop, Nat.add_sub_cancel] at hshort
  rw [totalPages_le_iff hlimit, Nat.succ_mul]
  omega

end Pages

section Order

variable [LinearOrder K] {p : D → Bool} {key : D → K} {page limit : ℕ}
  {docs docs' batch batch' : List D} {d : D}

/-- One page of the documents that the filter selects, in key order. -/
def FindPage (p : D → Bool) (key : D → K) (page limit : ℕ) (docs batch : List D) : Prop :=
  ∃ sorted : List D, sorted.Perm (docs.filter p) ∧ sorted.Pairwise (key · ≤ key ·) ∧
    batch = pageOf page limit sorted

/-- The selected documents that come before the document. -/
def rank (p : D → Bool) (key : D → K) (docs : List D) (d : D) : ℕ :=
  (docs.filter p).countP fun x => decide (key x < key d)

theorem rank_le_of_subperm (h : docs.Subperm docs') : rank p key docs d ≤ rank p key docs' d :=
  (h.filter p).countP_le _

theorem FindPage.mem (h : FindPage p key page limit docs batch) (hd : d ∈ batch) :
    d ∈ docs ∧ p d = true := by
  obtain ⟨sorted, hperm, -, rfl⟩ := h
  exact List.mem_filter.mp (hperm.subset (pageOf_sublist.subset hd))

/-- By a key that no two documents share there is one order. -/
theorem sorted_unique {sorted sorted' : List D} (hkey : (docs.map key).Nodup)
    (hperm : sorted.Perm (docs.filter p)) (hsorted : sorted.Pairwise (key · ≤ key ·))
    (hperm' : sorted'.Perm (docs.filter p)) (hsorted' : sorted'.Pairwise (key · ≤ key ·)) :
    sorted = sorted' := by
  refine (hperm.trans hperm'.symm).eq_of_pairwise (fun x y hx hy hxy hyx => ?_) hsorted hsorted'
  exact List.inj_on_of_nodup_map hkey (List.mem_of_mem_filter (hperm.subset hx))
    (List.mem_of_mem_filter (hperm'.subset hy)) (le_antisymm hxy hyx)

theorem FindPage.eq (hkey : (docs.map key).Nodup) (h : FindPage p key page limit docs batch)
    (h' : FindPage p key page limit docs batch') : batch = batch' := by
  obtain ⟨sorted, hperm, hsorted, rfl⟩ := h
  obtain ⟨sorted', hperm', hsorted', rfl⟩ := h'
  rw [sorted_unique hkey hperm hsorted hperm' hsorted']

/-- The place of a document in the order is its rank. -/
theorem rank_of_getElem? {sorted : List D} (hkey : (docs.map key).Nodup)
    (hperm : sorted.Perm (docs.filter p)) (hsorted : sorted.Pairwise (key · ≤ key ·)) {i : ℕ}
    (hi : sorted[i]? = some d) : rank p key docs d = i := by
  obtain ⟨hlt, hd⟩ := List.getElem?_eq_some_iff.mp hi
  have hnodup : (sorted.map key).Nodup :=
    (hperm.map key).nodup_iff.mpr (hkey.sublist ((List.filter_sublist).map key))
  have hsplit : sorted = sorted.take i ++ d :: sorted.drop (i + 1) := by
    rw [← hd, List.getElem_cons_drop, List.take_append_drop]
  rw [hsplit, List.pairwise_append] at hsorted
  rw [hsplit, List.map_append, List.nodup_append] at hnodup
  obtain ⟨-, hafter, hbefore⟩ := hsorted
  -- Before its place the keys are smaller, after it they are not.
  have htake : (sorted.take i).countP (fun x => decide (key x < key d)) = i := by
    rw [List.countP_eq_length.mpr, List.length_take_of_le hlt.le]
    intro x hx
    have hle := hbefore x hx d List.mem_cons_self
    have hne := hnodup.2.2 _ (List.mem_map_of_mem hx) _
      (List.mem_map_of_mem (f := key) List.mem_cons_self)
    simpa using lt_of_le_of_ne hle hne
  have hdrop : (d :: sorted.drop (i + 1)).countP (fun x => decide (key x < key d)) = 0 := by
    rw [List.countP_eq_zero]
    intro x hx
    rcases List.mem_cons.mp hx with rfl | hx
    · simp
    · simpa using List.rel_of_pairwise_cons hafter hx
  rw [rank, ← hperm.countP_eq, hsplit, List.countP_append, htake, hdrop, Nat.add_zero]

/-- A selected document is on the page that its rank says. -/
theorem FindPage.mem_iff (hkey : (docs.map key).Nodup)
    (h : FindPage p key page limit docs batch) (hpage : 1 ≤ page) (hd : d ∈ docs)
    (hp : p d = true) : d ∈ batch ↔ rank p key docs d / limit + 1 = page ∧ 0 < limit := by
  obtain ⟨sorted, hperm, hsorted, rfl⟩ := h
  obtain ⟨n, rfl⟩ := Nat.exists_eq_add_of_le' hpage
  have hplace : ∀ i, sorted[i]? = some d ↔ i = rank p key docs d := by
    obtain ⟨j, hj⟩ := List.getElem?_of_mem (hperm.symm.subset (List.mem_filter.mpr ⟨hd, hp⟩))
    have hrank := rank_of_getElem? hkey hperm hsorted hj
    intro i
    constructor
    · exact fun hi => (rank_of_getElem? hkey hperm hsorted hi).symm
    · rintro rfl
      rw [hrank, hj]
  simp only [pageOf, List.mem_iff_getElem?, List.getElem?_take, List.getElem?_drop,
    Nat.add_sub_cancel]
  constructor
  · rintro ⟨i, hi⟩
    by_cases hlt : i < limit
    · rw [if_pos hlt, hplace] at hi
      rw [← hi, Nat.mul_comm, Nat.mul_add_div (by omega), Nat.div_eq_of_lt hlt]
      omega
    · rw [if_neg hlt] at hi
      cases hi
  · rintro ⟨hn, hlimit⟩
    refine ⟨rank p key docs d % limit, ?_⟩
    rw [if_pos (Nat.mod_lt _ hlimit), hplace, ← Nat.succ.inj hn, Nat.div_add_mod']

end Order

section Walk

/-- A number that never falls and is at most `n` after `n` steps was once the number of steps. -/
theorem exists_fixed {q : ℕ → ℕ} {n : ℕ} (hmono : ∀ i, 1 ≤ i → i < n → q i ≤ q (i + 1))
    (hfirst : 1 ≤ q 1) (hn : 1 ≤ n) (hlast : q n ≤ n) : ∃ i, 1 ≤ i ∧ i ≤ n ∧ q i = i := by
  by_contra hnone
  push Not at hnone
  -- Without one the number stays ahead of the steps.
  have hahead : ∀ i, 1 ≤ i → i ≤ n → i < q i := by
    intro i hi
    induction i, hi using Nat.le_induction with
    | base => exact fun h1 => lt_of_le_of_ne hfirst (Ne.symm (hnone 1 le_rfl h1))
    | succ i hi ih =>
      intro hin
      have hbefore := ih (by omega)
      have hstep := hmono i hi (by omega)
      have hne := hnone (i + 1) (by omega) hin
      omega
  exact absurd hlast (Nat.not_le.mpr (hahead n hn le_rfl))

variable [LinearOrder K] {p : D → Bool} {key : D → K} {limit n : ℕ} {docs : ℕ → List D}
  {batch : ℕ → List D}

/-- The pages of a collection that grows from one page to the next, up to a page that is not
full, have every document that was selected at the first. -/
theorem walk_complete (hn : 1 ≤ n)
    (hgrow : ∀ page, 1 ≤ page → page < n → (docs page).Sublist (docs (page + 1)))
    (hkey : ∀ page, ((docs page).map key).Nodup)
    (hfind : ∀ page, 1 ≤ page → page ≤ n → FindPage p key page limit (docs page) (batch page))
    (hshort : (batch n).length < limit) {d : D} (hd : d ∈ docs 1) (hp : p d = true) :
    ∃ page, 1 ≤ page ∧ page ≤ n ∧ d ∈ batch page := by
  have hlimit : 0 < limit := Nat.zero_lt_of_lt hshort
  have hstays : ∀ page, 1 ≤ page → page ≤ n → d ∈ docs page := by
    intro page hpage
    induction page, hpage using Nat.le_induction with
    | base => exact fun _ => hd
    | succ page hpage ih => exact fun hle => (hgrow page hpage hle).subset (ih (by omega))
  have hlast : rank p key (docs n) d / limit + 1 ≤ n := by
    obtain ⟨sorted, hperm, hsorted, heq⟩ := hfind n hn le_rfl
    rw [heq] at hshort
    have hall := (totalPages_le_iff hlimit).mp (totalPages_le_of_short hlimit hn hshort)
    obtain ⟨i, hi⟩ := List.getElem?_of_mem
      (hperm.symm.subset (List.mem_filter.mpr ⟨hstays n hn le_rfl, hp⟩))
    rw [rank_of_getElem? (hkey n) hperm hsorted hi, Nat.succ_le_iff, Nat.div_lt_iff_lt_mul hlimit]
    exact lt_of_lt_of_le (List.getElem?_eq_some_iff.mp hi).1 hall
  -- The number of the page that the document is on never falls.
  have hstep : ∀ page, 1 ≤ page → page < n →
      rank p key (docs page) d / limit + 1 ≤ rank p key (docs (page + 1)) d / limit + 1 := by
    intro page hpage hlt
    have hrank : rank p key (docs page) d ≤ rank p key (docs (page + 1)) d :=
      rank_le_of_subperm (hgrow page hpage hlt).subperm
    exact Nat.succ_le_succ (Nat.div_le_div_right hrank)
  obtain ⟨page, hpage, hle, hon⟩ := exists_fixed hstep (Nat.succ_le_succ (Nat.zero_le _)) hn hlast
  refine ⟨page, hpage, hle, ?_⟩
  exact ((hfind page hpage hle).mem_iff (hkey page) hpage (hstays page hpage hle) hp).mpr
    ⟨hon, hlimit⟩

end Walk

end Documents

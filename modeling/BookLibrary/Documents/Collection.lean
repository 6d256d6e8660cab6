import Mathlib.Data.List.Sort

/-!
# Document collections

The queries and writes of a document store, each on one collection. A query that
several documents answer may return any of them. Writes of one document are
atomic; an index is unique over the documents that carry its key.
-/

namespace Documents

/-- Milliseconds. -/
abbrev Date := ℤ

variable {D κ : Type}

/-- One document that the filter selects; `none` if it selects none. -/
def FindOne (p : D → Bool) (docs : List D) : Option D → Prop
  | some d => d ∈ docs ∧ p d = true
  | none => ∀ d ∈ docs, p d = false

/-- Change one document that the filter selects; the answer is the document after
the change. -/
def UpdateOne (p : D → Bool) (f : D → D) (docs : List D) : Option D → List D → Prop
  | some d', docs' => ∃ pre d post, docs = pre ++ d :: post ∧ p d = true ∧ d' = f d ∧
      docs' = pre ++ d' :: post
  | none, docs' => (∀ d ∈ docs, p d = false) ∧ docs' = docs

/-- Change one document that the filter selects and whose key is greatest among them. -/
def UpdateGreatest (p : D → Bool) (key : D → ℕ) (f : D → D) (docs : List D) :
    Option D → List D → Prop
  | some d', docs' => ∃ pre d post, docs = pre ++ d :: post ∧ p d = true ∧
      (∀ x ∈ docs, p x = true → key x ≤ key d) ∧ d' = f d ∧ docs' = pre ++ d' :: post
  | none, docs' => (∀ d ∈ docs, p d = false) ∧ docs' = docs

/-- Change one document that the filter selects, or insert `new` if it selects none. -/
def Upserts (p : D → Bool) (f : D → D) (new : D) (docs : List D) (d' : D) (docs' : List D) : Prop :=
  UpdateOne p f docs (some d') docs' ∨
    (∀ d ∈ docs, p d = false) ∧ d' = new ∧ docs' = new :: docs

/-- Change every document that the filter selects. -/
def updateMany (p : D → Bool) (f : D → D) (docs : List D) : List D :=
  docs.map fun d => if p d then f d else d

/-- The documents that the filter selects, in key order, at most `limit` of them. -/
def FindSorted (p : D → Bool) (key : D → ℤ) (limit : ℕ) (docs batch : List D) : Prop :=
  ∃ sorted : List D, sorted.Perm (docs.filter p) ∧ sorted.Pairwise (key · ≤ key ·) ∧
    batch = sorted.take limit

/-- No two documents carry one key. -/
abbrev Unique (key : D → Option κ) (docs : List D) : Prop :=
  (docs.filterMap key).Nodup

/-- Expired documents may be gone, all others are still there. -/
def Expire (expiresAt : D → ℤ) (clock : ℤ) (docs docs' : List D) : Prop :=
  docs'.Sublist docs ∧ ∀ d ∈ docs, clock < expiresAt d → d ∈ docs'

section Find

variable {p : D → Bool} {docs : List D}

theorem FindOne.mem {d : D} (h : FindOne p docs (some d)) : d ∈ docs := h.1

theorem FindOne.select {d : D} (h : FindOne p docs (some d)) : p d = true := h.2

theorem findOne_find? : FindOne p docs (docs.find? p) := by
  cases h : docs.find? p with
  | none => simpa [FindOne] using h
  | some d => exact ⟨List.mem_of_find?_eq_some h, List.find?_some h⟩

/-- By a unique key there is one document to find. -/
theorem FindOne.eq_find? [DecidableEq κ] {key : D → κ} {k : κ} {r : Option D}
    (h : FindOne (fun d => decide (key d = k)) docs r) (hu : (docs.map key).Nodup) :
    docs.find? (fun d => decide (key d = k)) = r := by
  cases r with
  | none => simpa [FindOne] using h
  | some d =>
    obtain ⟨hmem, hk⟩ := h
    cases hd : docs.find? fun d => decide (key d = k) with
    | none => exact absurd hk (List.find?_eq_none.mp hd d hmem)
    | some d' =>
      have hk' : key d' = k := by simpa using List.find?_some hd
      have heq : key d' = key d := hk'.trans (by simpa using Eq.symm (of_decide_eq_true hk))
      rw [List.inj_on_of_nodup_map hu (List.mem_of_find?_eq_some hd) hmem heq]

end Find

section Update

variable {p : D → Bool} {f : D → D} {docs docs' : List D}

theorem UpdateOne.source {d' : D} (h : UpdateOne p f docs (some d') docs') :
    ∃ d ∈ docs, p d = true ∧ d' = f d ∧ d' ∈ docs' := by
  obtain ⟨pre, d, post, rfl, hp, rfl, rfl⟩ := h
  exact ⟨d, by simp, hp, rfl, by simp⟩

theorem UpdateOne.mem {d' x : D} (h : UpdateOne p f docs (some d') docs') (hx : x ∈ docs') :
    x ∈ docs ∨ x = d' := by
  obtain ⟨pre, d, post, rfl, hp, rfl, rfl⟩ := h
  simp only [List.mem_append, List.mem_cons] at hx ⊢
  tauto

/-- A document survives the update or is the one that was updated. -/
theorem UpdateOne.kept {d' x : D} (h : UpdateOne p f docs (some d') docs') (hx : x ∈ docs) :
    x ∈ docs' ∨ p x = true ∧ d' = f x := by
  obtain ⟨pre, d, post, rfl, hp, rfl, rfl⟩ := h
  simp only [List.mem_append, List.mem_cons] at hx ⊢
  rcases hx with hx | rfl | hx
  · exact .inl (.inl hx)
  · exact .inr ⟨hp, rfl⟩
  · exact .inl (.inr (.inr hx))

/-- An update that takes its document off a key of a unique index leaves nobody on it. -/
theorem UpdateOne.vacates {key : D → Option κ} {k : κ} {d' : D}
    (h : UpdateOne p f docs (some d') docs') (hu : Unique key docs)
    (hp : ∀ d, p d = true → key d = some k) (hk : key d' ≠ some k) :
    ∀ x ∈ docs', key x ≠ some k := by
  obtain ⟨pre, d, post, rfl, hd, rfl, rfl⟩ := h
  intro x hx hxk
  rw [Unique, List.filterMap_append, List.filterMap_cons, hp d hd] at hu
  simp only [List.nodup_append, List.nodup_cons, List.mem_filterMap, List.mem_cons] at hu
  obtain ⟨-, ⟨hpost, -⟩, hpre⟩ := hu
  rcases List.mem_append.mp hx with hx | hx
  · exact hpre k ⟨x, hx, hxk⟩ k (.inl rfl) rfl
  · rcases List.mem_cons.mp hx with rfl | hx
    · exact hk hxk
    · exact hpost ⟨x, hx, hxk⟩

theorem UpdateGreatest.updateOne {key : D → ℕ} {r : Option D}
    (h : UpdateGreatest p key f docs r docs') : UpdateOne p f docs r docs' := by
  cases r with
  | none => exact h
  | some d' =>
    obtain ⟨pre, d, post, hdocs, hp, -, hd', hdocs'⟩ := h
    exact ⟨pre, d, post, hdocs, hp, hd', hdocs'⟩

/-- The first document that the filter selects, updated in place. -/
def updateFirst (p : D → Bool) (f : D → D) : List D → Option (D × List D)
  | [] => none
  | d :: docs =>
    if p d then some (f d, f d :: docs)
    else (updateFirst p f docs).map fun (d', docs') => (d', d :: docs')

theorem updateFirst_none (h : updateFirst p f docs = none) : UpdateOne p f docs none docs := by
  refine ⟨?_, rfl⟩
  induction docs with
  | nil => simp
  | cons d docs ih =>
    intro x hx
    cases hp : p d with
    | true => simp [updateFirst, hp] at h
    | false =>
      simp only [updateFirst, hp, Bool.false_eq_true, if_false, Option.map_eq_none_iff] at h
      rcases List.mem_cons.mp hx with rfl | hx
      · exact hp
      · exact ih h x hx

theorem updateFirst_some {d' : D} (h : updateFirst p f docs = some (d', docs')) :
    UpdateOne p f docs (some d') docs' := by
  induction docs generalizing docs' with
  | nil => simp [updateFirst] at h
  | cons d docs ih =>
    cases hp : p d with
    | true =>
      simp only [updateFirst, hp, if_true, Option.some.injEq, Prod.mk.injEq] at h
      obtain ⟨rfl, rfl⟩ := h
      exact ⟨[], d, docs, rfl, hp, rfl, rfl⟩
    | false =>
      simp only [updateFirst, hp, Bool.false_eq_true, if_false, Option.map_eq_some_iff] at h
      obtain ⟨⟨e, docs₁⟩, h₁, h₂⟩ := h
      simp only [Prod.mk.injEq] at h₂
      obtain ⟨rfl, rfl⟩ := h₂
      obtain ⟨pre, x, post, hpre, hx, hd', hpost⟩ := ih h₁
      exact ⟨d :: pre, x, post, by rw [hpre]; rfl, hx, hd', by rw [hpost]; rfl⟩

@[simp] theorem mem_updateMany {x : D} : x ∈ updateMany p f docs ↔
    x ∈ docs ∧ p x = false ∨ ∃ d ∈ docs, p d = true ∧ f d = x := by
  simp only [updateMany, List.mem_map]
  constructor
  · rintro ⟨d, hd, rfl⟩
    cases hp : p d with
    | true => exact .inr ⟨d, hd, hp, by simp⟩
    | false => exact .inl (by simp [hd, hp])
  · rintro (⟨hx, hp⟩ | ⟨d, hd, hp, rfl⟩)
    · exact ⟨x, hx, by simp [hp]⟩
    · exact ⟨d, hd, by simp [hp]⟩

theorem updateMany_eq_self (h : docs.countP p = 0) : updateMany p f docs = docs := by
  rw [List.countP_eq_zero] at h
  rw [updateMany, List.map_eq_iff]
  intro i
  cases hi : docs[i]? with
  | none => rfl
  | some d => simp [h d (List.mem_of_getElem? hi)]

end Update

section Sorted

variable {p : D → Bool} {key : D → ℤ} {limit : ℕ} {docs batch : List D}

theorem FindSorted.mem (h : FindSorted p key limit docs batch) {d : D} (hd : d ∈ batch) :
    d ∈ docs ∧ p d = true := by
  obtain ⟨sorted, hperm, -, rfl⟩ := h
  exact List.mem_filter.mp (hperm.subset (List.mem_of_mem_take hd))

/-- The filter selects no document beyond a batch that is not full, and none before one in it. -/
theorem FindSorted.full (h : FindSorted p key limit docs batch) {d : D} (hd : d ∈ docs)
    (hp : p d = true) (hout : d ∉ batch) :
    batch.length = limit ∧ ∀ d' ∈ batch, key d' ≤ key d := by
  obtain ⟨sorted, hperm, hsorted, rfl⟩ := h
  have hmem : d ∈ sorted := hperm.mem_iff.mpr (List.mem_filter.mpr ⟨hd, hp⟩)
  rw [← List.take_append_drop limit sorted, List.mem_append] at hmem
  have hdrop : d ∈ sorted.drop limit := hmem.resolve_left hout
  have hlength : limit ≤ sorted.length := by
    by_contra hlt
    rw [List.drop_eq_nil_of_le (Nat.le_of_not_le hlt)] at hdrop
    cases hdrop
  refine ⟨by rw [List.length_take, Nat.min_eq_left hlength], fun d' hd' => ?_⟩
  rw [← List.take_append_drop limit sorted, List.pairwise_append] at hsorted
  exact hsorted.2.2 d' hd' d hdrop

theorem findSorted_insertionSort : FindSorted p key limit docs
    (((docs.filter p).insertionSort (key · ≤ key ·)).take limit) := by
  have htotal : Std.Total (fun d d' : D => key d ≤ key d') := ⟨fun d d' => le_total _ _⟩
  have htrans : IsTrans D (fun d d' => key d ≤ key d') := ⟨fun _ _ _ => le_trans⟩
  exact ⟨_, List.perm_insertionSort _ _, List.pairwise_insertionSort _ _, rfl⟩

end Sorted

section Index

variable {key : D → Option κ} {docs docs' : List D}

theorem Unique.eq {d d' : D} {k : κ} (h : Unique key docs) (hd : d ∈ docs) (hd' : d' ∈ docs)
    (hk : key d = some k) (hk' : key d' = some k) : d = d' := by
  induction docs with
  | nil => simp at hd
  | cons x docs ih =>
    have hsub : Unique key docs := h.sublist ((List.sublist_cons_self x docs).filterMap key)
    have hne : ∀ y ∈ docs, key x = some k → key y ≠ some k := by
      intro y hy hx hyk
      rw [Unique, List.filterMap_cons, hx] at h
      exact (List.nodup_cons.mp h).1 (List.mem_filterMap.mpr ⟨y, hy, hyk⟩)
    rcases List.mem_cons.mp hd with hx | hd <;> rcases List.mem_cons.mp hd' with hx' | hd'
    · rw [hx, hx']
    · exact absurd hk' (hne d' hd' (hx ▸ hk))
    · exact absurd hk (hne d hd (hx' ▸ hk'))
    · exact ih hsub hd hd'

theorem Unique.sublist (h : Unique key docs) (hs : docs'.Sublist docs) : Unique key docs' :=
  List.Nodup.sublist (hs.filterMap key) h

end Index

section Replace

variable [DecidableEq κ] {key : D → κ} {docs : List D} {d old x : D}

/-- The collection with `d` in the place of the document of the same key, if there is one. -/
def replaceOne (key : D → κ) (d : D) (docs : List D) : List D :=
  d :: docs.filter fun x => !decide (key x = key d)

theorem mem_replaceOne : x ∈ replaceOne key d docs ↔ x = d ∨ x ∈ docs ∧ key x ≠ key d := by
  simp [replaceOne]

/-- A search that selects neither the new document nor what makes way for it. -/
theorem find?_replaceOne_of_not {p : D → Bool} (hd : p d = false)
    (hold : ∀ x ∈ docs, key x = key d → p x = false) :
    (replaceOne key d docs).find? p = docs.find? p := by
  rw [replaceOne, List.find?_cons_of_neg (by simp [hd])]
  induction docs with
  | nil => rfl
  | cons x docs ih =>
    have hrest := ih fun y hy => hold y (List.mem_cons_of_mem _ hy)
    by_cases hx : key x = key d
    · rw [List.filter_cons_of_neg (by simp [hx]), hrest,
        List.find?_cons_of_neg (by simp [hold x List.mem_cons_self hx])]
    · rw [List.filter_cons_of_pos (by simp [hx]), List.find?_cons, List.find?_cons, hrest]

/-- Under its key the new document is found, under any other key what was found before. -/
theorem find?_replaceOne (k : κ) :
    (replaceOne key d docs).find? (fun x => decide (key x = k)) =
      if key d = k then some d else docs.find? fun x => decide (key x = k) := by
  by_cases hk : key d = k
  · simp [replaceOne, hk]
  · rw [if_neg hk]
    refine find?_replaceOne_of_not (by simpa using hk) fun x _ hx => ?_
    simpa [hx] using hk

theorem nodup_replaceOne (h : (docs.map key).Nodup) : ((replaceOne key d docs).map key).Nodup := by
  rw [replaceOne, List.map_cons, List.nodup_cons]
  constructor
  · simp only [List.mem_map, List.mem_filter, Bool.not_eq_true', decide_eq_false_iff_not]
    rintro ⟨x, ⟨-, hne⟩, heq⟩
    exact hne heq
  · exact h.sublist (List.filter_sublist.map key)

/-- The new document has another index in common with the one that makes way for it. -/
theorem nodup_map_replaceOne {κ' : Type} {f : D → κ'} (h : (docs.map f).Nodup) (hold : old ∈ docs)
    (hkey : key old = key d) (hf : f d = f old) : ((replaceOne key d docs).map f).Nodup := by
  rw [replaceOne, List.map_cons, List.nodup_cons]
  refine ⟨fun hmem => ?_, h.sublist (List.filter_sublist.map f)⟩
  obtain ⟨x, hx, hxf⟩ := List.mem_map.mp hmem
  rw [List.mem_filter] at hx
  have heq : x = old := List.inj_on_of_nodup_map h hx.1 hold (hxf.trans hf)
  simp [heq, hkey] at hx

theorem Unique.replaceOne {κ' : Type} {f : D → Option κ'} (h : Unique f docs) (hold : old ∈ docs)
    (hkey : key old = key d) (hf : f d = f old) : Unique f (replaceOne key d docs) := by
  have hrest : Unique f (docs.filter fun x => !decide (key x = key d)) :=
    h.sublist List.filter_sublist
  rw [Documents.replaceOne, Unique, List.filterMap_cons]
  cases hk : f d with
  | none => exact hrest
  | some k =>
    refine List.nodup_cons.mpr ⟨fun hmem => ?_, hrest⟩
    obtain ⟨x, hx, hxf⟩ := List.mem_filterMap.mp hmem
    rw [List.mem_filter] at hx
    have heq : x = old := h.eq hx.1 hold hxf (hf.symm.trans hk)
    simp [heq, hkey] at hx

/-- Nobody has the index of the new document. -/
theorem Unique.replaceOne_new {κ' : Type} {f : D → Option κ'} (h : Unique f docs)
    (hnew : ∀ x ∈ docs, f x ≠ f d) : Unique f (Documents.replaceOne key d docs) := by
  have hrest : Unique f (docs.filter fun x => !decide (key x = key d)) :=
    h.sublist List.filter_sublist
  rw [Documents.replaceOne, Unique, List.filterMap_cons]
  cases hk : f d with
  | none => exact hrest
  | some k =>
    refine List.nodup_cons.mpr ⟨fun hmem => ?_, hrest⟩
    obtain ⟨x, hx, hxf⟩ := List.mem_filterMap.mp hmem
    exact hnew x (List.mem_filter.mp hx).1 (hxf.trans hk.symm)

/-- A count before and after a document of the collection is replaced. -/
theorem countP_replaceOne (p : D → Bool) (h : (docs.map key).Nodup) (hold : old ∈ docs)
    (hkey : key old = key d) :
    (replaceOne key d docs).countP p + (if p old then 1 else 0) =
      docs.countP p + (if p d then 1 else 0) := by
  have hsplit : docs.countP p = (docs.filter fun x => !decide (key x = key d)).countP p +
      (if p old then 1 else 0) := by
    induction docs with
    | nil => cases hold
    | cons y docs ih =>
      rw [List.map_cons, List.nodup_cons] at h
      rcases List.mem_cons.mp hold with rfl | hmem
      · -- nobody behind it has its key
        have hrest : (docs.filter fun x => !decide (key x = key d)) = docs := by
          rw [List.filter_eq_self]
          intro x hx
          rw [Bool.not_eq_true', decide_eq_false_iff_not, ← hkey]
          exact fun heq => h.1 (heq ▸ List.mem_map_of_mem hx)
        rw [List.filter_cons, List.countP_cons, hrest]
        simp [hkey]
      · have hne : key y ≠ key d := fun heq =>
          h.1 (heq ▸ hkey ▸ List.mem_map_of_mem hmem)
        have hrest := ih h.2 hmem
        rw [List.filter_cons, List.countP_cons, hrest]
        simp only [hne, decide_false, Bool.not_false, if_true, List.countP_cons]
        omega
  rw [replaceOne, List.countP_cons, hsplit]
  omega

/-- A count after a document with a new key has been inserted. -/
theorem countP_replaceOne_new (p : D → Bool) (hnew : ∀ x ∈ docs, key x ≠ key d) :
    (replaceOne key d docs).countP p = docs.countP p + (if p d then 1 else 0) := by
  have hrest : (docs.filter fun x => !decide (key x = key d)) = docs := by
    rw [List.filter_eq_self]
    intro x hx
    rw [Bool.not_eq_true', decide_eq_false_iff_not]
    exact hnew x hx
  rw [replaceOne, List.countP_cons, hrest]

end Replace

end Documents

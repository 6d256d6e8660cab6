import BookLibrary.Documents.Collection

/-!
# Changes of many documents

What a write of some documents of a collection makes of it, and how many of them it leaves
that a filter still selects.
-/

namespace Documents

variable {D κ : Type}

/-- Every document is as it was or has been changed as `R` says, and no other is there. -/
def Changed (R : D → D → Prop) (docs docs' : List D) : Prop :=
  ∃ f : D → D, docs'.Perm (docs.map f) ∧ ∀ d ∈ docs, f d = d ∨ R d (f d)

namespace Changed

variable {R : D → D → Prop} {docs docs' docs'' : List D} {d : D}

theorem refl (docs : List D) : Changed R docs docs :=
  ⟨id, by rw [List.map_id], fun _ _ => .inl rfl⟩

theorem trans (hR : ∀ d d' d'', R d d' → R d' d'' → R d d'') (h : Changed R docs docs')
    (h' : Changed R docs' docs'') : Changed R docs docs'' := by
  obtain ⟨f, hperm, hf⟩ := h
  obtain ⟨g, hperm', hg⟩ := h'
  refine ⟨g ∘ f, ?_, fun d hd => ?_⟩
  · rw [← List.map_map]
    exact hperm'.trans (hperm.map g)
  · have hmem : f d ∈ docs' := hperm.mem_iff.mpr (List.mem_map_of_mem hd)
    rcases hg (f d) hmem with hsame | hchanged
    · show g (f d) = d ∨ R d (g (f d))
      rw [hsame]
      exact hf d hd
    · rcases hf d hd with hsame | hbefore
      · rw [hsame] at hchanged
        right
        show R d (g (f d))
        rw [hsame]
        exact hchanged
      · exact .inr (hR d (f d) (g (f d)) hbefore hchanged)

theorem kept (h : Changed R docs docs') (hd : d ∈ docs) : d ∈ docs' ∨ ∃ d' ∈ docs', R d d' := by
  obtain ⟨f, hperm, hf⟩ := h
  have hmem : f d ∈ docs' := hperm.mem_iff.mpr (List.mem_map_of_mem hd)
  rcases hf d hd with hsame | hchanged
  · rw [hsame] at hmem
    exact .inl hmem
  · exact .inr ⟨f d, hmem, hchanged⟩

theorem source (h : Changed R docs docs') (hd : d ∈ docs') : d ∈ docs ∨ ∃ d₀ ∈ docs, R d₀ d := by
  obtain ⟨f, hperm, hf⟩ := h
  obtain ⟨d₀, hd₀, rfl⟩ := List.mem_map.mp (hperm.mem_iff.mp hd)
  rcases hf d₀ hd₀ with hsame | hchanged
  · rw [hsame]
    exact .inl hd₀
  · exact .inr ⟨d₀, hd₀, hchanged⟩

/-- Where a change takes a document out of the filter, as many are gone as have left it. -/
theorem countP_add [DecidableEq D] {q : D → Bool} (h : Changed R docs docs')
    (hR : ∀ d d', R d d' → q d = true ∧ q d' = false) :
    docs.countP (fun d => decide (d ∉ docs')) + docs'.countP q = docs.countP q := by
  obtain ⟨f, hperm, hf⟩ := h
  -- what stays of the collection is what has not been changed
  have hgone : ∀ d ∈ docs, d ∉ docs' ↔ f d ≠ d := by
    intro d hd
    constructor
    · intro hnot hsame
      exact hnot (hperm.mem_iff.mpr (List.mem_map.mpr ⟨d, hd, hsame⟩))
    · intro hne hmem
      obtain ⟨e, he, heq⟩ := List.mem_map.mp (hperm.mem_iff.mp hmem)
      have hq := (hR d (f d) ((hf d hd).resolve_left hne)).1
      rcases hf e he with hsame | hchanged
      · rw [hsame] at heq
        rw [heq] at hsame
        exact hne hsame
      · rw [← heq, (hR e (f e) hchanged).2] at hq
        cases hq
  have hcount : docs.countP (fun d => decide (d ∉ docs')) + docs.countP (fun d => q (f d)) =
      docs.countP q := by
    have hall : ∀ l : List D, (∀ d ∈ l, d ∈ docs) →
        l.countP (fun d => decide (d ∉ docs')) + l.countP (fun d => q (f d)) = l.countP q := by
      intro l hl
      induction l with
      | nil => rfl
      | cons d l ih =>
        have hd := hl d List.mem_cons_self
        have hrest := ih fun e he => hl e (List.mem_cons_of_mem d he)
        simp only [List.countP_cons, hgone d hd]
        by_cases hsame : f d = d
        · simp only [hsame, ne_eq, not_true, decide_false, Bool.false_eq_true, if_false]
          omega
        · obtain ⟨hq, hq'⟩ := hR d (f d) ((hf d hd).resolve_left hsame)
          simp only [hq, hq', ne_eq, hsame, not_false_iff, decide_true, Bool.false_eq_true, if_false,
            if_true]
          omega
    exact hall docs fun _ hd => hd
  rw [hperm.countP_eq, List.countP_map]
  exact hcount

end Changed

section Batch

variable [DecidableEq κ] {key : D → κ} {f : D → D} {p q : D → Bool} {docs : List D}

/-- Documents that replace what they have been made of. -/
theorem replaceAll_perm (hkeys : (docs.map key).Nodup) (hf : ∀ d, key (f d) = key d) :
    (((docs.filter p).map f).foldr (replaceOne key) docs).Perm (updateMany p f docs) := by
  -- the documents of a sublist that have been replaced by then
  have hpart : ∀ l : List D, l.Sublist docs →
      ((l.map f).foldr (replaceOne key) docs).Perm
        (l.map f ++ docs.filter fun d => !decide (key d ∈ l.map key)) := by
    intro l hl
    induction l with
    | nil => simp
    | cons d l ih =>
      have hnot : key d ∉ l.map key := by
        have hnodup : ((d :: l).map key).Nodup := hkeys.sublist (hl.map key)
        rw [List.map_cons, List.nodup_cons] at hnodup
        exact hnodup.1
      have hrest := ih ((List.sublist_cons_self d l).trans hl)
      rw [List.map_cons, List.foldr_cons, replaceOne, List.cons_append]
      refine .cons _ ((hrest.filter _).trans ?_)
      rw [List.filter_append, List.filter_filter]
      refine .append ?_ ?_
      · rw [List.filter_eq_self.mpr]
        intro d' hd'
        obtain ⟨d₀, hd₀, rfl⟩ := List.mem_map.mp hd'
        rw [hf, hf, Bool.not_eq_true', decide_eq_false_iff_not]
        exact fun heq => hnot (heq ▸ List.mem_map_of_mem hd₀)
      · rw [List.filter_congr]
        intro d' _
        rw [hf]
        by_cases hd' : key d' = key d
        · simp [hd']
        · simp [hd']
  refine (hpart (docs.filter p) List.filter_sublist).trans ?_
  have hrest : (docs.filter fun d => !decide (key d ∈ (docs.filter p).map key)) =
      docs.filter fun d => !p d := by
    refine List.filter_congr fun d hd => ?_
    congr 1
    rw [Bool.eq_iff_iff, decide_eq_true_iff]
    constructor
    · intro hmem
      obtain ⟨d', hd', heq⟩ := List.mem_map.mp hmem
      obtain ⟨hd', hp⟩ := List.mem_filter.mp hd'
      rw [← List.inj_on_of_nodup_map hkeys hd' hd heq]
      exact hp
    · intro hp
      exact List.mem_map_of_mem (List.mem_filter.mpr ⟨hd, hp⟩)
  rw [hrest, updateMany]
  have hsplit := (List.filter_append_perm p docs).symm.map fun d => if p d then f d else d
  refine .trans ?_ hsplit.symm
  rw [List.map_append]
  refine .append (.of_eq ?_) (.of_eq ?_)
  · refine List.map_congr_left fun d hd => ?_
    rw [if_pos (List.mem_filter.mp hd).2]
  · conv_lhs => rw [← List.map_id (docs.filter fun d => !p d)]
    refine List.map_congr_left fun d hd => ?_
    have hp := (List.mem_filter.mp hd).2
    rw [Bool.not_eq_true'] at hp
    simp [hp]

omit [DecidableEq κ] in
/-- What an update keeps of each document, it keeps of all. -/
theorem map_updateMany {g : D → κ} (hg : ∀ d, g (f d) = g d)
    (docs : List D) : (updateMany p f docs).map g = docs.map g := by
  rw [updateMany, List.map_map]
  refine List.map_congr_left fun d _ => ?_
  show g (if p d = true then f d else d) = g d
  split
  · exact hg d
  · rfl

/-- An update that takes what it selects out of a filter leaves as many less in it. -/
theorem countP_updateMany (hp : ∀ d ∈ docs, p d = true → q d = true)
    (hf : ∀ d, q (f d) = false) :
    (updateMany p f docs).countP q + docs.countP p = docs.countP q := by
  induction docs with
  | nil => rfl
  | cons d docs ih =>
    have hrest := ih fun e he => hp e (List.mem_cons_of_mem d he)
    rw [updateMany] at hrest
    simp only [updateMany, List.map_cons, List.countP_cons]
    by_cases hd : p d = true
    · rw [if_pos hd, hf, hp d List.mem_cons_self hd, if_pos hd]
      simp only [Bool.false_eq_true, if_false, if_true]
      omega
    · rw [if_neg hd, if_neg hd]
      omega

/-- Of a batch that the filter selects every document is changed. -/
theorem changed_updateMany {R : D → D → Prop} (hR : ∀ d ∈ docs, p d = true → R d (f d)) :
    Changed R docs (updateMany p f docs) := by
  refine ⟨fun d => if p d then f d else d, .refl _, fun d hd => ?_⟩
  by_cases hp : p d = true
  · right
    show R d (if p d = true then f d else d)
    rw [if_pos hp]
    exact hR d hd hp
  · exact .inl (if_neg hp)

end Batch

end Documents

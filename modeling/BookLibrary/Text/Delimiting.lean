import BookLibrary.Text.Bytes
import Mathlib.Logic.Function.Basic

/-!
# Self-delimiting encodings

What is encoded can be read off the front of any text that begins with it. Encodings are put
together from others: one after another, behind a prefix, or as a list between brackets.
-/

namespace Text

variable {α β σ : Type}

/-- A list begins with the encoding of one value at most, and the rest is determined too. -/
def SelfDelimiting (encode : α → List σ) : Prop :=
  ∀ ⦃a b : α⦄ ⦃rest rest' : List σ⦄, encode a ++ rest = encode b ++ rest' → a = b ∧ rest = rest'

/-- No encoding begins with the character, and none is empty. -/
def Shuns (mark : σ) (encode : α → List σ) : Prop :=
  ∀ a, ∃ c rest, encode a = c :: rest ∧ c ≠ mark

namespace SelfDelimiting

variable {encode : α → List σ} {encode' : β → List σ}

theorem injective (h : SelfDelimiting encode) : Function.Injective encode := by
  intro a b hab
  have happend : encode a ++ [] = encode b ++ [] := by rw [hab]
  exact (h happend).1

theorem comap {f : β → α} (h : SelfDelimiting encode) (hf : Function.Injective f) :
    SelfDelimiting fun b => encode (f b) := by
  intro a b rest rest' heq
  obtain ⟨hab, hrest⟩ := h heq
  exact ⟨hf hab, hrest⟩

theorem behind (before : List σ) (h : SelfDelimiting encode) :
    SelfDelimiting fun a => before ++ encode a := by
  intro a b rest rest' heq
  simp only [List.append_assoc] at heq
  exact h (List.append_cancel_left heq)

theorem before (h : SelfDelimiting encode) (after : List σ) :
    SelfDelimiting fun a => encode a ++ after := by
  intro a b rest rest' heq
  simp only [List.append_assoc] at heq
  obtain ⟨hab, hrest⟩ := h heq
  exact ⟨hab, List.append_cancel_left hrest⟩

theorem pair (h : SelfDelimiting encode) (h' : SelfDelimiting encode') :
    SelfDelimiting fun p : α × β => encode p.1 ++ encode' p.2 := by
  intro p q rest rest' heq
  simp only [List.append_assoc] at heq
  obtain ⟨hfirst, heq⟩ := h heq
  obtain ⟨hsecond, hrest⟩ := h' heq
  exact ⟨Prod.ext hfirst hsecond, hrest⟩

/-- A run of encodings up to a mark that none of them begins with. -/
theorem closed (h : SelfDelimiting encode) (mark : σ) (hmark : Shuns mark encode) :
    SelfDelimiting fun items : List α => items.flatMap encode ++ [mark] := by
  intro items
  induction items with
  | nil =>
    intro items' rest rest' heq
    cases items' with
    | nil => exact ⟨rfl, (List.cons.inj heq).2⟩
    | cons b items' =>
      obtain ⟨c, tail, hb, hc⟩ := hmark b
      simp only [List.flatMap_nil, List.flatMap_cons, hb, List.nil_append, List.cons_append,
        List.cons.injEq] at heq
      exact absurd heq.1.symm hc
  | cons a items ih =>
    intro items' rest rest' heq
    cases items' with
    | nil =>
      obtain ⟨c, tail, ha, hc⟩ := hmark a
      simp only [List.flatMap_nil, List.flatMap_cons, ha, List.nil_append, List.cons_append,
        List.cons.injEq] at heq
      exact absurd heq.1 hc
    | cons b items' =>
      simp only [List.flatMap_cons, List.append_assoc] at heq
      obtain ⟨rfl, htail⟩ := h heq
      obtain ⟨rfl, hrest⟩ := ih (by simpa only [List.append_assoc] using htail)
      exact ⟨rfl, hrest⟩

/-- A run of encodings that goes to the end. -/
theorem flatMap_injective (h : SelfDelimiting encode) (hne : ∀ a, encode a ≠ []) :
    Function.Injective fun items : List α => items.flatMap encode := by
  intro items
  induction items with
  | nil =>
    intro items' heq
    cases items' with
    | nil => rfl
    | cons b items' => exact absurd (List.append_eq_nil_iff.mp heq.symm).1 (hne b)
  | cons a items ih =>
    intro items' heq
    cases items' with
    | nil => exact absurd (List.append_eq_nil_iff.mp heq).1 (hne a)
    | cons b items' =>
      obtain ⟨rfl, htail⟩ := h heq
      rw [ih htail]

end SelfDelimiting

/-- The encodings of the items between brackets, with a comma between any two. -/
def listed (encode : α → Text) (items : List α) : Text :=
  '[' :: List.intercalate [','] (items.map encode) ++ [']']

theorem intercalate_cons (mark first : Text) (others : List Text) :
    List.intercalate mark (first :: others) = first ++ others.flatMap (mark ++ ·) := by
  induction others generalizing first with
  | nil => simp
  | cons second others ih =>
    rw [List.intercalate_cons_cons, ih, List.flatMap_cons, List.append_assoc, List.append_assoc]

theorem SelfDelimiting.listed {encode : α → Text} (h : SelfDelimiting encode)
    (hclose : Shuns ']' encode) : SelfDelimiting (listed encode) := by
  have hmore : SelfDelimiting fun items : List α =>
      items.flatMap (fun a => [','] ++ encode a) ++ [']'] :=
    (h.behind [',']).closed ']' fun a => ⟨',', encode a, rfl, by decide⟩
  have hcons : ∀ a items rest, Text.listed encode (a :: items) ++ rest =
      '[' :: (encode a ++ (items.flatMap (fun a => [','] ++ encode a) ++ [']'] ++ rest)) := by
    intro a items rest
    simp [Text.listed, intercalate_cons, List.flatMap_map]
  intro items items' rest rest' heq
  cases items with
  | nil =>
    cases items' with
    | nil => exact ⟨rfl, (List.cons.inj (List.cons.inj heq).2).2⟩
    | cons b items' =>
      obtain ⟨c, tail, hb, hc⟩ := hclose b
      rw [hcons, hb] at heq
      exact absurd (List.cons.inj (List.cons.inj heq).2).1.symm hc
  | cons a items =>
    cases items' with
    | nil =>
      obtain ⟨c, tail, ha, hc⟩ := hclose a
      rw [hcons, ha] at heq
      exact absurd (List.cons.inj (List.cons.inj heq).2).1 hc
    | cons b items' =>
      rw [hcons, hcons] at heq
      obtain ⟨rfl, htail⟩ := h (List.cons.inj heq).2
      obtain ⟨rfl, hrest⟩ := hmore htail
      exact ⟨rfl, hrest⟩

end Text

import BookLibrary.Interleaving.Contract

/-!
# Answers given in the states of an invariant

A contract judges a program from what its calls may answer in any state at all. Where an
invariant of the store holds throughout a run, the answers are those of its states only:
the run is one of the system that is confined to them, and a program may be judged there.
-/

namespace Interleaving

variable {ι Call : Type} {Op : Type → Type} {S ρ Ev : Type} {sys : System Call Op S ρ Ev}
  {I : S → Prop}

namespace System

variable (sys I) in
/-- The system whose calls are applied in the states of `I` only. -/
def within : System Call Op S ρ Ev :=
  { sys with exec := fun β op s b s' => I s ∧ sys.exec β op s b s' }

variable [DecidableEq ι] {gate : Gate ι Call Op S Ev} {c c' : Config ι Call Op S ρ Ev}

theorem Step.within (h : sys.Step gate c c') (hI : I c.store) : (sys.within I).Step gate c c' := by
  cases h with
  | start call free => exact @Step.start _ _ _ _ _ _ _ (sys.within I) _ _ _ call free
  | reply running code pass effect =>
    exact @Step.reply _ _ _ _ _ _ _ (sys.within I) _ _ _ _ _ _ _ _ _ running code pass ⟨hI, effect⟩
  | raise r running code pass fails effect =>
    refine @Step.raise _ _ _ _ _ _ _ (sys.within I) _ _ _ _ _ _ _ _ r running code pass fails ?_
    cases r with
    | none => exact effect
    | some b => exact ⟨hI, effect⟩
  | crash running code => exact @Step.crash _ _ _ _ _ _ _ (sys.within I) _ _ _ _ _ _ _ running code
  | env effect => exact @Step.env _ _ _ _ _ _ _ (sys.within I) _ _ _ effect

/-- A run that never leaves `I` is a run within it. -/
theorem Runs.within (hI : ∀ c', sys.Runs gate c c' → I c'.store) (h : sys.Runs gate c c') :
    (sys.within I).Runs gate c c' := by
  induction h with
  | refl => exact .refl
  | tail hr hs ih => exact ih.tail (hs.within (hI _ hr))

variable (post : Call → Bool → List Ev → ρ → Prop)

/-- The contract that asks for nothing but what is answered in the end. -/
def ending (hconforms : ∀ call,
    Conforms sys (fun _ _ _ _ => True) (post call) false [] (sys.body call)) : Contract ι sys where
  inv _ _ := True
  legal _ _ _ _ _ := True
  post := post
  inv_call _ _ _ _ := trivial
  inv_env _ _ := trivial
  conforms := hconforms

variable {post}

/-- What programs end with on the answers of the invariant, they end with in every run that
keeps it. -/
theorem Runs.ends_within {s : S} (hI : ∀ c, sys.Runs gate (Config.init s) c → I c.store)
    (hconforms : ∀ call,
      Conforms (sys.within I) (fun _ _ _ _ => True) (post call) false [] (sys.body call))
    (h : sys.Runs gate (Config.init s) c) {i : ι} {th : Thread Call Op ρ} {a : ρ}
    (hreturns : c.Returns i th a) : post th.call th.faulted (own i c.journal) a := by
  have w : WellFormed (@ending _ _ _ _ _ _ (sys.within I) _ post hconforms) c :=
    (WellFormed.init trivial).runs (Runs.within hI h)
  exact w.post_of_returns hreturns

end System

end Interleaving

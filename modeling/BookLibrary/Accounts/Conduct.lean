import BookLibrary.Accounts.Effects
import BookLibrary.Interleaving.Walks

/-!
# Walking through the account services

The walk rules of `Conforms` at the calls of the services, whose failures are passed on
with the error that the driver threw.
-/

namespace Accounts

open AuthIdentifiers Documents Interleaving

variable {Call ρ α β : Type} {body : Call → Prog Op ρ}
  {legal : Bool → List Event → (β : Type) → Op β → Prop}
  {Q : Bool → List Event → Except Failure α → Prop} {fl : Bool} {l : List Event}

/-- A call that throws, and what its caller does with the error. -/
theorem perform_conforms {op : Op α} (hl : legal fl l α op)
    (hlast : ∀ l', legal true l' Fault (drawn .lastError))
    (hok : ∀ b, (service body).Answers op b → Q fl (note α op (some b) ++ l) (.ok b))
    (herr : ∀ l' error, l <:+ l' → Q true l' (.error (.thrown error))) :
    Conforms (service body) legal Q fl l (perform op).run := by
  refine ⟨hl, hok, fun _ r _ => ⟨hlast _, fun b _ => ?_, fun _ r' _ => ?_⟩⟩
  · exact herr _ _ (List.suffix_append _ l)
  · exact herr _ _ ((List.suffix_append _ l).trans (List.suffix_append _ _))

theorem call_conforms {op : Op β} {f : β → Handler α} (hl : legal fl l β op)
    (hlast : ∀ l', legal true l' Fault (drawn .lastError))
    (herr : ∀ l' error, l <:+ l' → Q true l' (.error error))
    (hok : ∀ b, (service body).Answers op b →
      Conforms (service body) legal Q fl (note β op (some b) ++ l) (f b).run) :
    Conforms (service body) legal Q fl l (perform op >>= f).run :=
  Conforms.run_bind (perform_conforms hl hlast hok fun l' error hl' => herr l' (.thrown error) hl')

theorem draw_conforms {op : Draw β} {f : β → Handler α} (hl : ∀ {fl l γ} (op : Draw γ),
      legal fl l γ (drawn op))
    (herr : ∀ l' error, l <:+ l' → Q true l' (.error error))
    (hok : ∀ b, Conforms (service body) legal Q fl l (f b).run) :
    Conforms (service body) legal Q fl l (draw op >>= f).run := by
  refine call_conforms (hl op) (fun l' => hl .lastError) herr fun b _ => ?_
  have hnote : note β (drawn op) (some b) = [] := by
    cases op <;> rfl
  rw [hnote]
  exact hok b

/-- What a write of the services is for. -/
inductive Purpose where
  | save
  | reservation
  | release (identifier : String)
  | elsewhere
  | other
  deriving DecidableEq

def Write.purpose : Write → Purpose
  | .saveStaffUser .. => .save
  | .saveMember .. => .save
  | .insertIdentifier _ => .reservation
  | .claimReleased .. => .reservation
  | .releaseIdentifier identifier .. => .release identifier
  | .revokeFamilies .. => .elsewhere
  | .recordActivity _ => .elsewhere
  | _ => .other

section Confined

variable {P : (β : Type) → Op β → Prop} {session : Option ℕ}

theorem perform_confined {op : Op β} (h : P β op) (hlast : P Fault (drawn .lastError)) :
    (perform op).run.Confined P := by
  refine ⟨h, fun r => ?_⟩
  cases r with
  | some b => trivial
  | none => exact ⟨hlast, fun _ => trivial⟩

theorem confined_raiseDuplicateKey (hdraw : ∀ {γ} (op : Draw γ), P γ (drawn op)) :
    (raiseDuplicateKey : Handler α).run.Confined P :=
  .run_bind (perform_confined (hdraw _) (hdraw _)) fun _ => .run_throw

theorem confined_reserve {normalizedIdentifier subjectId : String}
    {claimedType : Option AuthIdentifierType} {createdType : AuthIdentifierType}
    {subjectType : AuthIdentifierSubjectType} {actorId : Option String}
    (hfind : P _ (.inl (session, .findIdentifier normalizedIdentifier)))
    (hwrite : ∀ w, w.purpose = .reservation → P _ (.inr (.inl (.write session w))))
    (hdraw : ∀ {γ} (op : Draw γ), P γ (drawn op)) :
    (reserve session normalizedIdentifier claimedType createdType subjectType subjectId
      actorId).run.Confined P := by
  refine .run_bind (perform_confined hfind (hdraw _)) fun found => ?_
  cases found with
  | some existing =>
    refine .run_ite (fun _ => .run_pure) fun _ => .run_ite (fun _ => .run_throw) fun _ => ?_
    exact .run_bind (perform_confined (hwrite _ rfl) (hdraw _)) fun _ => .run_pure
  | none =>
    refine .run_bind (.run_bind (perform_confined (hdraw _) (hdraw _)) fun id => ?_) fun r => ?_
    · exact .run_ite (fun _ => .run_throw) fun _ => perform_confined (hwrite _ rfl) (hdraw _)
    · cases r with
      | duplicateKey => exact .run_throw
      | _ => exact .run_pure

theorem confined_release {normalizedIdentifier subjectId : String}
    {subjectType : AuthIdentifierSubjectType} {actorId : Option String}
    (hwrite : ∀ w, w.purpose = .release normalizedIdentifier → P _ (.inr (.inl (.write session w))))
    (hdraw : ∀ {γ} (op : Draw γ), P γ (drawn op)) :
    (release session normalizedIdentifier subjectType subjectId actorId).run.Confined P :=
  .run_bind (perform_confined (hdraw _) (hdraw _)) fun _ =>
    .run_bind (perform_confined (hwrite _ rfl) (hdraw _)) fun _ => .run_pure

theorem confined_recordActivity (e : String → SecurityActivityEvent)
    (hwrite : ∀ w, w.purpose = .elsewhere → P _ (.inr (.inl (.write none w))))
    (hdraw : ∀ {γ} (op : Draw γ), P γ (drawn op)) : (recordActivity e).run.Confined P := by
  refine .run_bind (perform_confined (hdraw _) (hdraw _)) fun id =>
    .run_bind (perform_confined (hwrite _ rfl) (hdraw _)) fun r => ?_
  cases r with
  | duplicateKey => exact confined_raiseDuplicateKey hdraw
  | _ => exact .run_pure

theorem confined_revokeSessions {subjectType : AuthIdentifierSubjectType} {subjectId reason : String}
    (hwrite : ∀ w, w.purpose = .elsewhere → P _ (.inr (.inl (.write none w))))
    (hdraw : ∀ {γ} (op : Draw γ), P γ (drawn op)) :
    (revokeSessions subjectType subjectId reason).run.Confined P :=
  .run_bind (perform_confined (hdraw _) (hdraw _)) fun _ =>
    .run_bind (perform_confined (hwrite _ rfl) (hdraw _)) fun _ => .run_pure

end Confined

/-- The calls whose writes are `permitted` in their sessions. -/
def Permits (permitted : Option ℕ → Write → Prop) : (β : Type) → Op β → Prop
  | _, .inr (.inl (.write session w)) => permitted session w
  | _, _ => True

/-- The event is of something read. -/
def Event.isRead : Event → Prop
  | .foundStaffUser _ => True
  | .foundMember _ => True
  | .foundIdentifier _ _ => True
  | _ => False

/-- What a call does to the store, and the events that it leaves. -/
inductive Effect (permitted : Option ℕ → Write → Prop) (s : Store) : List Event → Store → Prop
  | read {evs : List Event} (h : ∀ ev ∈ evs, ev.isRead) : Effect permitted s evs s
  | wrote {w : Write} (h : permitted none w) :
      Effect permitted s [.wrote none w (schema.write w s.committed)]
        { s with committed := s.committed.wrote w }
  | wroteIn {n : ℕ} {w : Write} {t : Sessions.Transaction Database Document}
      (h : permitted (some n) w) (open_ : s.transactions n = some t) :
      Effect permitted s [.wrote (some n) w (schema.write w (schema.putAll t.buffer t.snapshot))]
        { s with
          transactions := Function.update s.transactions n (some { t with
            buffer := (schema.write w (schema.putAll t.buffer t.snapshot)).docs ++ t.buffer }) }
  | started : Effect permitted s []
      { s with
        transactions := Function.update s.transactions s.started (some ⟨s.committed, []⟩)
        started := s.started + 1 }
  | committed {n : ℕ} {t : Sessions.Transaction Database Document}
      (open_ : s.transactions n = some t) (unconflicted : schema.Unconflicted t s.committed)
      (indexed : (schema.putAll t.buffer s.committed).Indexed) :
      Effect permitted s [.committed n]
        { s with
          committed := schema.putAll t.buffer s.committed
          transactions := Function.update s.transactions n none }
  | aborted (n : ℕ) : Effect permitted s []
      { s with transactions := Function.update s.transactions n none }

theorem effect_of_applies {permitted : Option ℕ → Write → Prop} {op : Op β} {r : Option β}
    {s s' : Store} (hop : r.isSome = true → Permits permitted β op)
    (h : (service body).Applies op s r s') : Effect permitted s (note β op r) s' := by
  cases r with
  | none =>
    obtain ⟨-, rfl⟩ := h
    have hnote : note β op none = [] := by
      rcases op with ⟨session, q⟩ | c | x
      · cases q <;> rfl
      · cases c <;> rfl
      · rfl
    rw [hnote]
    exact .read fun ev hev => by cases hev
  | some b =>
    replace hop := hop rfl
    rcases op with ⟨session, q⟩ | c | x
    · obtain ⟨-, rfl⟩ := h
      refine .read fun ev hev => ?_
      cases q with
      | findStaffUser | findMember | findIdentifier =>
        obtain rfl := List.mem_singleton.mp hev
        trivial
      | _ => cases hev
    · cases c with
      | write session w =>
        cases session with
        | none =>
          obtain ⟨rfl, rfl⟩ := h
          exact .wrote hop
        | some n =>
          obtain ⟨t, ht, rfl, rfl⟩ := h
          exact .wroteIn hop ht
      | startTransaction =>
        obtain ⟨rfl, rfl⟩ := h
        exact .started
      | commitTransaction n =>
        obtain ⟨t, ht, hunconflicted, hindexed, rfl⟩ := h
        exact .committed ht hunconflicted (of_decide_eq_true hindexed)
      | abortTransaction n =>
        obtain rfl := h
        exact .aborted n
    · obtain rfl := h
      exact .read fun ev hev => by cases hev

/-- An insertion is stored or refused. -/
theorem answers_insert {d : AuthIdentifier} {r : Sessions.WriteResult Document}
    (h : (service body).Answers (Sum.inr (.inl (.write none (.insertIdentifier d))) : Op _) r) :
    r ≠ .unmatched := by
  obtain ⟨s, s', hr, -⟩ := h
  rw [hr, Database.write_eq]
  split
  · rw [Database.unchecked, Database.insert]
    split
    · rintro ⟨⟩
    · rintro ⟨⟩
  · rintro ⟨⟩

end Accounts

import BookLibrary.Accounts.Service
import BookLibrary.Interleaving.Schedule

/-!
# Executing the account services

Each call as a function, given what it is to draw.
-/

namespace Accounts

open AuthIdentifiers Documents Interleaving SignIn

/-- What a call may draw. -/
structure Choice where
  date : Date
  id : ObjectId
  error : Fault
  retries : ℕ

/-- `Database.answers` as a function. -/
def answer : (β : Type) → Query β → Database → β
  | _, .findStaffUser id, s => s.staffUsers.find? fun d => decide (d.id = id)
  | _, .staffEmailExists email, s => s.staffUsers.any fun d => decide (d.email = email)
  | _, .findMember id, s => s.members.find? fun d => decide (d.id = id)
  | _, .memberNumberExists number, s => s.members.any fun d => decide (d.memberNumber = number)
  | _, .loginIdentifierExists id login, s =>
    s.members.any fun d => !decide (d.id = id) && decide (d.loginIdentifier = some login)
  | _, .findMembershipType id, s => s.membershipTypes.find? fun d => decide (d.id = id)
  | _, .findIdentifier identifier, s =>
    s.identifiers.find? fun d => decide (d.normalizedIdentifier = identifier)

theorem answer_answers {β : Type} (q : Query β) (s : Database) :
    Database.answers β q s (answer β q s) := by
  cases q with
  | staffEmailExists | memberNumberExists | loginIdentifierExists => rfl
  | _ => exact findOne_find?

/-- `Sessions.Schema.change` as a function. -/
def performChange : (β : Type) → Sessions.Change Write Document β → Store → Option (β × Store)
  | _, .write none w, s =>
    let r := schema.write w s.committed
    some (r, { s with committed := schema.putAll r.docs s.committed })
  | _, .write (some n) w, s =>
    (s.transactions n).map fun t =>
      let r := schema.write w (schema.putAll t.buffer t.snapshot)
      (r, { s with
        transactions := Function.update s.transactions n
          (some { t with buffer := r.docs ++ t.buffer }) })
  | _, .startTransaction, s =>
    some (s.started, { s with
      transactions := Function.update s.transactions s.started (some ⟨s.committed, []⟩)
      started := s.started + 1 })
  | _, .commitTransaction n, s =>
    (s.transactions n).bind fun t =>
      if (t.buffer.all fun d => decide
          (Database.find d.key s.committed = Database.find d.key t.snapshot)) &&
          decide (Database.Indexed (schema.putAll t.buffer s.committed)) then
        some ((), { s with
          committed := schema.putAll t.buffer s.committed
          transactions := Function.update s.transactions n none })
      else none
  | _, .abortTransaction n, s =>
    some ((), { s with transactions := Function.update s.transactions n none })

theorem performChange_change {β : Type} {c : Sessions.Change Write Document β} {s s' : Store} {b : β}
    (h : performChange β c s = some (b, s')) : schema.change β c s b s' := by
  cases c with
  | write session w =>
    cases session with
    | none =>
      cases h
      exact ⟨rfl, rfl⟩
    | some n =>
      obtain ⟨t, ht, heq⟩ := Option.map_eq_some_iff.mp h
      cases heq
      exact ⟨t, ht, rfl, rfl⟩
  | startTransaction =>
    cases h
    exact ⟨rfl, rfl⟩
  | commitTransaction n =>
    obtain ⟨t, ht, hcommit⟩ := Option.bind_eq_some_iff.mp h
    split at hcommit
    · next hcheck =>
      cases hcommit
      rw [Bool.and_eq_true, List.all_eq_true] at hcheck
      exact ⟨t, ht, fun d hd => of_decide_eq_true (hcheck.1 d hd), hcheck.2, rfl⟩
    · cases hcommit
  | abortTransaction n =>
    cases h
    exact rfl

def performDraw : (β : Type) → Draw β → Choice → β
  | _, .currentDate, x => x.date
  | _, .newObjectId, x => x.id
  | _, .hashPassword rawPassword, _ => rawPassword
  | _, .startSession, _ => ()
  | _, .lastError, x => x.error
  | _, .retries, x => x.retries

/-- `exec` as a function. -/
def execute (β : Type) (op : Op β) (s : Store) (x : Choice) : Option (β × Store) :=
  match op with
  | .inl (session, q) => (schema.view s session).map fun v => (answer β q v, s)
  | .inr (.inl c) => performChange β c s
  | .inr (.inr op) => some (performDraw β op x, s)

theorem execute_exec {β : Type} {op : Op β} {s s' : Store} {x : Choice} {b : β}
    (h : execute β op s x = some (b, s')) : exec β op s b s' := by
  rcases op with ⟨session, q⟩ | c | op
  · obtain ⟨v, hv, heq⟩ := Option.map_eq_some_iff.mp h
    cases heq
    exact ⟨⟨v, hv, answer_answers q v⟩, rfl⟩
  · exact performChange_change h
  · cases h
    exact rfl

/-- `fallible` as a function. -/
def fails (β : Type) (op : Op β) : Bool :=
  match op with
  | .inl _ => true
  | .inr (.inl (.write ..)) => true
  | .inr (.inl (.commitTransaction _)) => true
  | .inr (.inl _) => false
  | .inr (.inr (.hashPassword _)) => true
  | .inr (.inr .startSession) => true
  | .inr (.inr _) => false

theorem fails_fallible {β : Type} {op : Op β} (h : fails β op = true) : fallible β op := by
  rcases op with ⟨session, q⟩ | c | op
  · trivial
  · cases c with
    | write | commitTransaction => trivial
    | _ => cases h
  · cases op with
    | hashPassword | startSession => trivial
    | _ => cases h

variable {ι Call ρ : Type}

/-- The driver of the requests under a gate that `admits` checks. -/
def driver (body : Call → Prog Op ρ) {gate : Gate ι Call Op Store Event}
    (admits : ι → (β : Type) → Op β → Bool → Store → List (Entry ι Call Event) → Bool)
    (admitted : ∀ {i β op a s J}, admits i β op a s J = true → gate i β op a s J) :
    Driver (service body) gate Choice where
  run := execute
  run_exec := execute_exec
  fails := fails
  fallible := fails_fallible
  admits := admits
  admitted := admitted

section Schedules

/-- The store whose only documents are these reservations. -/
def Database.reserved (identifiers : List AuthIdentifier) : Database :=
  ⟨[], [], [], identifiers, [], [], [], []⟩

/-- A reservation of the account, or one that it has released. -/
def reservation (id normalizedIdentifier : String) (status : AuthIdentifierStatus)
    (subject : AuthIdentifierSubjectType × String) : AuthIdentifier :=
  ⟨id, normalizedIdentifier, .email, some subject.1, some subject.2, status, none, none, none, none,
    none, none, none, "system", "system", 0⟩

def memberId : ObjectId := ⟨"a00000000000000000000000", by decide⟩

/-- One member, who can sign in. -/
def oneMember : Database :=
  { Database.reserved [] with
    members := [{
      id := memberId.1, memberNumber := "M-1004", fullName := "Olivia Overdue", email := none
      membershipTypeId := "t0", status := .active, loginIdentifier := some "olivia"
      passwordHash := some "p", authStatus := some .active, authVersion := some 0, phone := none
      activeLoanCount := 0, passwordUpdatedAt := none, createdBy := none, updatedBy := none }] }

def staffUserId : ObjectId := ⟨"b00000000000000000000000", by decide⟩

/-- One member of the staff, who owns the address. -/
def oneStaffUser : Database :=
  { Database.reserved [reservation "r1" "ada@library.local" .active (.staff, staffUserId.1)] with
    staffUsers := [{
      id := staffUserId.1, email := "ada@library.local", displayName := "Ada", passwordHash := "p"
      roles := [.staff], status := .active, authVersion := some 0, passwordUpdatedAt := none
      createdBy := none, updatedBy := none }] }

/-- What the calls draw, the error that is not of transactions. -/
def drawsAnything : Choice := ⟨1000, ⟨"f00000000000000000000000", by decide⟩, ⟨false, ""⟩, 0⟩

/-- Caller `i` issues its next call. -/
def go {Call : Type} (i : ℕ) : Move ℕ Call Choice :=
  .reply i ⟨1000, ⟨"f00000000000000000000000", by decide⟩, ⟨false, ""⟩, 0⟩

end Schedules

end Accounts

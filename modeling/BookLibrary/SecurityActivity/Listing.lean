import BookLibrary.Documents.Paging
import BookLibrary.SecurityActivity.Trail
import Mathlib.Data.Prod.Lex
import Mathlib.Data.String.Basic

/-!
# Browsing the trail

`SecurityActivityService.list` answers with one page of the events that a query selects, newest
first. While someone goes from page to page the trail may grow.
-/

namespace SecurityActivity

open Documents
open Accounts (SecurityActivityActorType SecurityActivityOutcome)

variable {ν : Type}

/-- `page` and `limit` as the transforms and validators of `PaginationQueryDto` leave them; `from`
and `to` are the dates that the texts denote. -/
structure SecurityActivityQueryDto where
  page : ℕ
  limit : ℕ
  page_pos : 1 ≤ page
  limit_pos : 1 ≤ limit
  limit_le : limit ≤ 100
  eventType : Option SecurityActivityEventType := none
  actorType : Option SecurityActivityActorType := none
  outcome : Option SecurityActivityOutcome := none
  operationId : Option String := none
  «from» : Option Date := none
  «to» : Option Date := none

/-- An event as it is shown; `createdAt` stands for its ISO text. -/
structure SecurityActivityEventViewDto (ν : Type) where
  id : String
  eventId : Option String
  eventType : SecurityActivityEventType
  actorType : SecurityActivityActorType
  actorId : Option String
  actorName : Option String
  targetType : Option String
  targetId : Option String
  clientId : Option String
  subjectType : Option String
  subjectId : Option String
  outcome : SecurityActivityOutcome
  reasonCategory : Option String
  identifierCorrelationHash : Option String
  correlationKeyVersion : Option ℤ
  operationId : Option String
  requestId : Option String
  context : Option (PlainData ν)
  createdAt : Date

structure PaginatedResult (T : Type) where
  items : List T
  page : ℕ
  limit : ℕ
  total : ℕ
  totalPages : ℕ

def createPaginatedResult {T : Type} (items : List T) (total : ℕ) (query : SecurityActivityQueryDto) :
    PaginatedResult T where
  items := items
  page := query.page
  limit := query.limit
  total := total
  totalPages := totalPages total query.limit

section Service

/-- The filter that `list` builds. -/
def SecurityActivityQueryDto.selects (query : SecurityActivityQueryDto)
    (event : SecurityActivityEventDocument ν) : Bool :=
  query.eventType.all (fun eventType => decide (event.eventType = eventType)) &&
  query.actorType.all (fun actorType => decide (event.actorType = actorType)) &&
  query.outcome.all (fun outcome => decide (event.outcome = outcome)) &&
  (!present query.operationId || decide (event.operationId = trimmed query.operationId)) &&
  query.«from».all (fun start => decide (start ≤ event.createdAt)) &&
  query.«to».all (fun stop => decide (event.createdAt ≤ stop))

/-- `{ createdAt: -1, _id: -1 }` -/
def newestFirst (event : SecurityActivityEventDocument ν) : ℤᵒᵈ ×ₗ Stringᵒᵈ :=
  toLex (OrderDual.toDual event.createdAt, OrderDual.toDual event.id.1)

/-- Fields that are empty are not shown. -/
def shown (value : Option String) : Option String := value.filter (· != "")

def toView (event : SecurityActivityEventDocument ν) : SecurityActivityEventViewDto ν where
  id := event.id.1
  eventId := shown event.eventId
  eventType := event.eventType
  actorType := event.actorType
  actorId := shown event.actorId
  actorName := none
  targetType := shown event.targetType
  targetId := shown event.targetId
  clientId := shown event.clientId
  subjectType := shown event.subjectType
  subjectId := shown event.subjectId
  outcome := event.outcome
  reasonCategory := shown event.reasonCategory
  identifierCorrelationHash := shown event.identifierCorrelationHash
  correlationKeyVersion := event.correlationKeyVersion.filter (· != 0)
  operationId := shown event.operationId
  requestId := shown event.requestId
  context := event.context.map redactContext
  createdAt := event.createdAt

/-- What `select` leaves of an account: its id and its display name or full name. -/
structure NamedAccount where
  id : ObjectId
  name : String

/-- Whether an id has 24 hexadecimal digits, of either case. -/
def isObjectIdOrHexString (id : Option String) : Bool := (id.bind ObjectId.parse).isSome

def idsFor (type : SecurityActivityActorType) (events : List (SecurityActivityEventViewDto ν)) :
    List String :=
  ((events.filter fun event =>
    decide (event.actorType = type) && isObjectIdOrHexString event.actorId).filterMap
      (·.actorId)).eraseDups

/-- `find({ _id: { $in: ids } })`, unless there are no ids. -/
def accountsOf (ids : List String) (accounts : List NamedAccount) : List NamedAccount :=
  accounts.filter fun account => ids.any fun id => ObjectId.parse id = some account.id

def nameKey (type : SecurityActivityActorType) (id : String) : String :=
  actorTypeText type ++ ":" ++ id

/-- The entries of the map: of two with one key the later counts. -/
def namesOf (staff members : List NamedAccount) : List (String × String) :=
  staff.map (fun account => (nameKey .staff account.id.1, account.name)) ++
    members.map fun account => (nameKey .member account.id.1, account.name)

def lowerCase (text : String) : String := String.ofList (text.toList.map Char.toLower)

/-- `names.get`, of the key that an event makes; a name that is empty is none. -/
def nameIn (names : List (String × String)) (event : SecurityActivityEventViewDto ν) :
    Option String :=
  shown (names.reverse.lookup
    (nameKey event.actorType ((event.actorId.map lowerCase).getD "undefined")))

def resolveActorNames (staff members : List NamedAccount)
    (events : List (SecurityActivityEventViewDto ν)) : List (SecurityActivityEventViewDto ν) :=
  let names := namesOf (accountsOf (idsFor .staff events) staff)
    (accountsOf (idsFor .member events) members)
  events.map fun event => { event with actorName := (nameIn names event).or event.actorName }

/-- The reads of one request. They need not be of one moment. -/
structure Reads (ν : Type) where
  found : Trail ν
  counted : Trail ν
  staff : List NamedAccount
  members : List NamedAccount

def Lists (query : SecurityActivityQueryDto) (reads : Reads ν)
    (answer : PaginatedResult (SecurityActivityEventViewDto ν)) : Prop :=
  ∃ events, FindPage query.selects newestFirst query.page query.limit reads.found events ∧
    answer = createPaginatedResult
      (resolveActorNames reads.staff reads.members (events.map toView))
      (reads.counted.countP query.selects) query

end Service

section Names

variable {reads : Reads ν} {staff members : List NamedAccount}
  {events : List (SecurityActivityEventViewDto ν)} {event : SecurityActivityEventViewDto ν}

/-- The accounts that an actor of the type is one of. -/
def Reads.accounts (reads : Reads ν) : SecurityActivityActorType → List NamedAccount
  | .staff => reads.staff
  | .member => reads.members
  | .system | .unknown => []

/-- The name of the account that the event names. -/
def Reads.nameOf (reads : Reads ν) (event : SecurityActivityEventDocument ν) : Option String :=
  shown (((reads.accounts event.actorType).find? fun account =>
    decide (some account.id = event.actorId.bind ObjectId.parse)).map (·.name))

theorem parse_eq_some_iff {text : String} {id : ObjectId} :
    ObjectId.parse text = some id ↔ lowerCase text = id.1 := by
  rw [ObjectId.parse, lowerCase]
  by_cases h : isCanonicalId (String.ofList (text.toList.map Char.toLower)) = true
  · simp [h, Subtype.ext_iff]
  · rw [dif_neg h]
    refine iff_of_false (fun hnone => by cases hnone) fun heq => ?_
    rw [heq] at h
    exact h id.2

theorem lookup_eq_some_iff {names : List (String × String)} (hkeys : (names.map Prod.fst).Nodup)
    {key name : String} : names.lookup key = some name ↔ (key, name) ∈ names := by
  induction names with
  | nil => simp
  | cons entry names ih =>
    obtain ⟨key', name'⟩ := entry
    rw [List.map_cons, List.nodup_cons] at hkeys
    rw [List.lookup_cons, List.mem_cons, Prod.mk.injEq]
    by_cases h : key = key'
    · subst h
      have hnot : (key, name) ∉ names := fun hmem =>
        hkeys.1 (List.mem_map.mpr ⟨_, hmem, rfl⟩)
      simp [hnot, eq_comm]
    · rw [beq_false_of_ne h]
      simpa [h] using ih hkeys.2

/-- No type of actor has a colon. -/
theorem actorTypeText_plain (type : SecurityActivityActorType) :
    (actorTypeText type).toList.all (· != ':') = true := by
  cases type <;> decide

theorem nameKey_inj {type type' : SecurityActivityActorType} {id id' : String}
    (h : nameKey type id = nameKey type' id') : type = type' ∧ id = id' := by
  have hlist : (actorTypeText type).toList ++ ':' :: id.toList =
      (actorTypeText type').toList ++ ':' :: id'.toList := by
    simpa [nameKey] using congrArg String.toList h
  have htypes := congrArg (List.takeWhile (· != ':')) hlist
  -- so the first one ends the type
  have hend : ∀ (type : SecurityActivityActorType) (rest : List Char),
      ((actorTypeText type).toList ++ ':' :: rest).takeWhile (· != ':') =
        (actorTypeText type).toList := by
    intro type rest
    rw [List.takeWhile_append_of_pos (List.all_eq_true.mp (actorTypeText_plain type))]
    simp
  rw [hend, hend] at htypes
  have htype : type = type' := by
    cases type <;> cases type' <;> first | rfl | exact absurd htypes (by decide)
  subst htype
  exact ⟨rfl, String.toList_inj.mp (List.cons.inj (List.append_cancel_left hlist)).2⟩

/-- The keys of the two kinds of accounts are apart. -/
theorem nodup_namesOf (hstaff : (staff.map (·.id)).Nodup) (hmembers : (members.map (·.id)).Nodup) :
    ((namesOf staff members).map Prod.fst).Nodup := by
  have hkeys : (namesOf staff members).map Prod.fst =
      (staff.map (·.id)).map (fun id => nameKey .staff id.1) ++
        (members.map (·.id)).map fun id => nameKey .member id.1 := by
    simp [namesOf, Function.comp_def]
  rw [hkeys, List.nodup_append]
  refine ⟨hstaff.map fun id id' h => Subtype.ext (nameKey_inj h).2,
    hmembers.map fun id id' h => Subtype.ext (nameKey_inj h).2, ?_⟩
  rintro _ hs _ hm rfl
  obtain ⟨id, -, rfl⟩ := List.mem_map.mp hs
  obtain ⟨id', -, h⟩ := List.mem_map.mp hm
  cases (nameKey_inj h).1

/-- What the map has under the key of an account. -/
theorem mem_namesOf {type : SecurityActivityActorType} {id name : String} :
    (nameKey type id, name) ∈ namesOf staff members ↔
      (type = .staff ∧ ∃ account ∈ staff, account.id.1 = id ∧ account.name = name) ∨
        (type = .member ∧ ∃ account ∈ members, account.id.1 = id ∧ account.name = name) := by
  rw [namesOf, List.mem_append, List.mem_map, List.mem_map]
  refine or_congr ⟨?_, ?_⟩ ⟨?_, ?_⟩
  · rintro ⟨account, hmem, heq⟩
    obtain ⟨rfl, hid⟩ := nameKey_inj (congrArg Prod.fst heq)
    exact ⟨rfl, account, hmem, hid, congrArg Prod.snd heq⟩
  · rintro ⟨rfl, account, hmem, rfl, rfl⟩
    exact ⟨account, hmem, rfl⟩
  · rintro ⟨account, hmem, heq⟩
    obtain ⟨rfl, hid⟩ := nameKey_inj (congrArg Prod.fst heq)
    exact ⟨rfl, account, hmem, hid, congrArg Prod.snd heq⟩
  · rintro ⟨rfl, account, hmem, rfl, rfl⟩
    exact ⟨account, hmem, rfl⟩

/-- An event on the page that names an account has that account looked up. -/
theorem mem_accountsOf {accounts : List NamedAccount} {account : NamedAccount}
    (hevent : event ∈ events) {actorId : String} (hactor : event.actorId = some actorId)
    (hid : lowerCase actorId = account.id.1) :
    account ∈ accountsOf (idsFor event.actorType events) accounts ↔ account ∈ accounts := by
  rw [accountsOf, List.mem_filter, and_iff_left_iff_imp]
  intro _
  have hparse : ObjectId.parse actorId = some account.id := parse_eq_some_iff.mpr hid
  refine List.any_eq_true.mpr ⟨actorId, ?_, by simpa using hparse⟩
  rw [idsFor, List.mem_eraseDups, List.mem_filterMap]
  refine ⟨event, List.mem_filter.mpr ⟨hevent, ?_⟩, hactor⟩
  simp [isObjectIdOrHexString, hactor, hparse]

/-- The accounts that the database names have ids of their own. -/
def Reads.Named (reads : Reads ν) : Prop :=
  (reads.staff.map (·.id)).Nodup ∧ (reads.members.map (·.id)).Nodup

theorem lookup_names (hnamed : reads.Named) (hevent : event ∈ events) {name : String} :
    (namesOf (accountsOf (idsFor .staff events) reads.staff)
      (accountsOf (idsFor .member events) reads.members)).reverse.lookup
        (nameKey event.actorType ((event.actorId.map lowerCase).getD "undefined")) = some name ↔
      ∃ account ∈ reads.accounts event.actorType,
        event.actorId.map lowerCase = some account.id.1 ∧ account.name = name := by
  have hstaff : ((accountsOf (idsFor .staff events) reads.staff).map (·.id)).Nodup :=
    hnamed.1.sublist (List.filter_sublist.map _)
  have hmembers : ((accountsOf (idsFor .member events) reads.members).map (·.id)).Nodup :=
    hnamed.2.sublist (List.filter_sublist.map _)
  have hkeys := nodup_namesOf hstaff hmembers
  rw [lookup_eq_some_iff (by rwa [List.map_reverse, List.nodup_reverse]), List.mem_reverse,
    mem_namesOf]
  cases hactor : event.actorId with
  | none =>
    -- The key of an event without an actor ends in no id.
    have hno : ∀ account : NamedAccount, account.id.1 ≠ "undefined" := by
      intro account heq
      have hcanonical := account.id.2
      rw [heq] at hcanonical
      exact absurd hcanonical (by decide)
    simp [hno]
  | some actorId =>
    simp only [Option.map_some, Option.getD_some, Option.some.injEq]
    have hmem : ∀ (accounts : List NamedAccount) (account : NamedAccount),
        account.id.1 = lowerCase actorId →
          (account ∈ accountsOf (idsFor event.actorType events) accounts ↔ account ∈ accounts) :=
      fun accounts account hid => mem_accountsOf hevent hactor hid.symm
    cases htype : event.actorType with
    | system | unknown => simp [Reads.accounts]
    | staff =>
      rw [htype] at hmem
      simp only [Reads.accounts, true_and, reduceCtorEq, false_and, or_false]
      refine exists_congr fun account => ?_
      rw [eq_comm (a := lowerCase actorId)]
      exact ⟨fun h => ⟨(hmem _ _ h.2.1).mp h.1, h.2⟩, fun h => ⟨(hmem _ _ h.2.1).mpr h.1, h.2⟩⟩
    | member =>
      rw [htype] at hmem
      simp only [Reads.accounts, true_and, reduceCtorEq, false_and, false_or]
      refine exists_congr fun account => ?_
      rw [eq_comm (a := lowerCase actorId)]
      exact ⟨fun h => ⟨(hmem _ _ h.2.1).mp h.1, h.2⟩, fun h => ⟨(hmem _ _ h.2.1).mpr h.1, h.2⟩⟩

theorem shown_eq_some_iff {value : Option String} {text : String} :
    shown value = some text ↔ value = some text ∧ text ≠ "" := by
  simp [shown, Option.filter_eq_some_iff]

theorem parse_actorId_iff {actorId : Option String} {id : ObjectId} :
    some id = actorId.bind ObjectId.parse ↔ (shown actorId).map lowerCase = some id.1 := by
  rw [eq_comm, Option.bind_eq_some_iff, Option.map_eq_some_iff]
  refine exists_congr fun text => ?_
  rw [shown_eq_some_iff, parse_eq_some_iff, and_assoc]
  refine and_congr_right fun _ => ⟨fun h => ⟨?_, h⟩, fun h => h.2⟩
  -- An empty text is no id.
  rintro rfl
  have hcanonical := id.2
  rw [← h] at hcanonical
  exact absurd hcanonical (by decide)

/-- The name on an event is the current one of the account of the actor's kind and id. -/
theorem nameIn_eq (hnamed : reads.Named) {d : SecurityActivityEventDocument ν}
    (hevent : toView d ∈ events) :
    nameIn (namesOf (accountsOf (idsFor .staff events) reads.staff)
      (accountsOf (idsFor .member events) reads.members)) (toView d) = reads.nameOf d := by
  have hids : ((reads.accounts d.actorType).map fun account => some account.id).Nodup := by
    have hnodup : ((reads.accounts d.actorType).map (·.id)).Nodup := by
      cases d.actorType with
      | staff => exact hnamed.1
      | member => exact hnamed.2
      | system | unknown => exact List.nodup_nil
    simpa [List.map_map, Function.comp_def] using hnodup.map (Option.some_injective _)
  rw [nameIn, Reads.nameOf]
  congr 1
  refine Option.ext fun name => ?_
  rw [lookup_names hnamed hevent, Option.map_eq_some_iff]
  constructor
  · rintro ⟨account, hmem, hid, rfl⟩
    refine ⟨account, FindOne.eq_find? (r := some account) ⟨hmem, ?_⟩ hids, rfl⟩
    exact decide_eq_true (parse_actorId_iff.mpr hid)
  · rintro ⟨account, hfind, rfl⟩
    have hid : some account.id = d.actorId.bind ObjectId.parse := by
      simpa using List.find?_some hfind
    exact ⟨account, List.mem_of_find?_eq_some hfind, parse_actorId_iff.mp hid, rfl⟩

/-- An event as one request shows it. -/
def Reads.view (reads : Reads ν) (event : SecurityActivityEventDocument ν) :
    SecurityActivityEventViewDto ν :=
  { toView event with actorName := reads.nameOf event }

theorem resolveActorNames_eq (hnamed : reads.Named) (found : List (SecurityActivityEventDocument ν)) :
    resolveActorNames reads.staff reads.members (found.map toView) = found.map reads.view := by
  rw [resolveActorNames, List.map_map]
  refine List.map_congr_left fun d hd => ?_
  rw [Function.comp_apply, nameIn_eq hnamed (List.mem_map_of_mem hd), Reads.view,
    show (toView d).actorName = none from rfl, Option.or_none]

end Names

section Pages

variable {hmac : String → String → String} {query : SecurityActivityQueryDto}

/-- The query for another page. -/
def SecurityActivityQueryDto.at (query : SecurityActivityQueryDto) (page : ℕ) (h : 1 ≤ page) :
    SecurityActivityQueryDto :=
  { query with page := page, page_pos := h }

theorem newestFirst_injective {d d' : SecurityActivityEventDocument ν}
    (h : newestFirst d = newestFirst d') : d.id = d'.id :=
  Subtype.ext (congrArg OrderDual.ofDual (congrArg Prod.snd (congrArg ofLex h)))

theorem nodup_newestFirst {trail : Trail ν} (hids : (trail.map (·.id)).Nodup) :
    (trail.map newestFirst).Nodup := by
  refine List.Nodup.of_map (fun key : ℤᵒᵈ ×ₗ Stringᵒᵈ => OrderDual.ofDual (ofLex key).2) ?_
  simpa [newestFirst, Function.comp_def] using hids.map Subtype.val_injective

/-- The items of an answer are the events of one page. -/
theorem Lists.items {reads : Reads ν} {answer : PaginatedResult (SecurityActivityEventViewDto ν)}
    (hnamed : reads.Named) (h : Lists query reads answer) :
    ∃ events, FindPage query.selects newestFirst query.page query.limit reads.found events ∧
      answer.items = events.map reads.view := by
  obtain ⟨events, hfind, rfl⟩ := h
  exact ⟨events, hfind, resolveActorNames_eq hnamed events⟩

end Pages

def signOutInput : RecordSecurityActivityInput ℤ where
  eventType := .signOut
  actorType := some .staff
  actorId := some "C10000000000000000000000"
  outcome := .success

def firstEvent : SecurityActivityEventDocument ℤ :=
  { eventOf signOutInput 0 with id := ⟨"b20000000000000000000000", by decide⟩ }

def secondEvent : SecurityActivityEventDocument ℤ :=
  { eventOf signOutInput 1 with id := ⟨"b30000000000000000000000", by decide⟩ }

def adasReads (trail : Trail ℤ) : Reads ℤ where
  found := trail
  counted := trail
  staff := [⟨⟨"c20000000000000000000000", by decide⟩, "Ada"⟩]
  members := []

theorem adasReads_named (trail : Trail ℤ) : (adasReads trail).Named :=
  ⟨List.nodup_singleton _, List.nodup_nil⟩

/-- One event on a page. -/
def singleQuery : SecurityActivityQueryDto where
  page := 1
  limit := 1
  page_pos := le_rfl
  limit_pos := le_rfl
  limit_le := by decide

/-- The answers on a trail that is in order. -/
def answerOn (trail : Trail ℤ) (page : ℕ) : PaginatedResult (SecurityActivityEventViewDto ℤ) where
  items := resolveActorNames (adasReads trail).staff [] ((pageOf page 1 trail).map toView)
  page := page
  limit := 1
  total := trail.length
  totalPages := totalPages trail.length 1

theorem selects_all (trail : Trail ℤ) : trail.filter singleQuery.selects = trail :=
  List.filter_eq_self.mpr fun _ _ => rfl

theorem lists_answerOn {trail : Trail ℤ} (hsorted : trail.Pairwise (newestFirst · ≤ newestFirst ·))
    (page : ℕ) (h : 1 ≤ page) :
    Lists (singleQuery.at page h) (adasReads trail) (answerOn trail page) := by
  refine ⟨_, ⟨trail, ?_, hsorted, rfl⟩, ?_⟩
  · exact .of_eq (selects_all trail).symm
  · have hcount : trail.countP (singleQuery.at page h).selects = trail.length := by
      rw [List.countP_eq_length_filter]
      exact congrArg List.length (selects_all trail)
    rw [show (adasReads trail).counted = trail from rfl, hcount]
    rfl

theorem sorted_events : [secondEvent, firstEvent].Pairwise (newestFirst · ≤ newestFirst ·) :=
  List.pairwise_pair.mpr (Prod.Lex.toLex_le_toLex.mpr (.inl (by decide : (0 : ℤ) < 1)))

/-- On a trail that does not change, the pages up to the last list every event that the query
selects, once each and newest first, as the requests show it; the totals are right, and beyond
the last page there is nothing. -/
theorem pages_divide (query : SecurityActivityQueryDto) (reads : Reads ν) (hnamed : reads.Named)
    (hids : (reads.found.map (·.id)).Nodup) (hsame : reads.counted = reads.found)
    (answer : ℕ → PaginatedResult (SecurityActivityEventViewDto ν))
    (hlists : ∀ page (h : 1 ≤ page), Lists (query.at page h) reads (answer page)) :
    ∃ events : List (SecurityActivityEventDocument ν),
      events.Perm (reads.found.filter query.selects) ∧
      events.Pairwise (newestFirst · < newestFirst ·) ∧
      (∀ page, 1 ≤ page → (answer page).total = events.length ∧
        ((answer page).items = [] ↔ (answer page).totalPages < page)) ∧
      ((List.range (answer 1).totalPages).flatMap fun i => (answer (i + 1)).items) =
        events.map reads.view := by
  have hkey := nodup_newestFirst hids
  obtain ⟨-, ⟨sorted, hfirst, hsorted, -⟩, -⟩ := hlists 1 le_rfl
  have hperm : sorted.Perm (reads.found.filter query.selects) := hfirst
  have hlimit : 0 < query.limit := query.limit_pos
  have hanswer : ∀ page, 1 ≤ page →
      (answer page).items = (pageOf page query.limit sorted).map reads.view ∧
        (answer page).total = sorted.length ∧
        (answer page).totalPages = totalPages sorted.length query.limit := by
    intro page hpage
    have hcount : reads.counted.countP query.selects = sorted.length := by
      rw [hsame, hperm.length_eq, List.countP_eq_length_filter]
    obtain ⟨events, hfind, heq⟩ := hlists page hpage
    have hevents : events = pageOf page query.limit sorted :=
      hfind.eq hkey ⟨sorted, hperm, hsorted, rfl⟩
    rw [heq, hevents]
    exact ⟨resolveActorNames_eq hnamed _, hcount, congrArg (totalPages · query.limit) hcount⟩
  refine ⟨sorted, hperm, ?_, fun page hpage => ?_, ?_⟩
  · have hnodup : (sorted.map newestFirst).Nodup :=
      (hperm.map _).nodup_iff.mpr (hkey.sublist (List.filter_sublist.map _))
    exact hsorted.imp₂ (fun _ _ hle hne => lt_of_le_of_ne hle hne) (List.pairwise_map.mp hnodup)
  · obtain ⟨hitems, htotal, hpages⟩ := hanswer page hpage
    rw [hitems, htotal, hpages, List.map_eq_nil_iff, pageOf_eq_nil_iff hlimit hpage]
    exact ⟨rfl, Iff.rfl⟩
  · rw [(hanswer 1 le_rfl).2.2]
    calc _ = (List.range (totalPages sorted.length query.limit)).flatMap
          fun i => (pageOf (i + 1) query.limit sorted).map reads.view :=
          List.flatMap_congr fun i _ => (hanswer (i + 1) (Nat.le_add_left 1 i)).1
      _ = _ := by rw [← List.map_flatMap, pages_eq hlimit]

theorem pages_divide_two : ∃ events : List (SecurityActivityEventDocument ℤ),
    events.Perm [secondEvent, firstEvent] ∧
      ((List.range 2).flatMap fun i => (answerOn [secondEvent, firstEvent] (i + 1)).items) =
        events.map (adasReads [secondEvent, firstEvent]).view := by
  obtain ⟨events, hperm, -, -, hitems⟩ := pages_divide singleQuery
    (adasReads [secondEvent, firstEvent]) (adasReads_named _) (by decide) rfl
    (answerOn [secondEvent, firstEvent]) (lists_answerOn sorted_events)
  exact ⟨events, hperm.trans (.of_eq (selects_all _)), hitems⟩

/-- Someone goes from page to page, to one that is not full, while calls of the service add to the
trail. Every event that the query selected at the start is on one of the pages, as the request for
that page shows it; a page shows nothing but selected events of the trail, no event twice, and no
context that is not redacted. -/
theorem browsing_complete {hmac : String → String → String} (query : SecurityActivityQueryDto)
    (n : ℕ) (reads : ℕ → Reads ν) (answer : ℕ → PaginatedResult (SecurityActivityEventViewDto ν))
    (hnamed : ∀ page, (reads page).Named)
    (hstart : ∀ page, Grows hmac [] (reads page).found)
    (hgrows : ∀ page, 1 ≤ page → page < n → Grows hmac (reads page).found (reads (page + 1)).found)
    (hn : 1 ≤ n)
    (hlists : ∀ page (h : 1 ≤ page), page ≤ n → Lists (query.at page h) (reads page) (answer page))
    (hshort : (answer n).items.length < query.limit) :
    (∀ d ∈ (reads 1).found, query.selects d = true →
      ∃ page, 1 ≤ page ∧ page ≤ n ∧ (reads page).view d ∈ (answer page).items) ∧
    ∀ page, 1 ≤ page → page ≤ n → ((answer page).items.map (·.id)).Nodup ∧
      ∀ view ∈ (answer page).items, view.context.map redactContext = view.context ∧
        ∃ d ∈ (reads page).found, query.selects d = true ∧ (reads page).view d = view := by
  have hkept : ∀ page, Kept hmac (reads page).found := fun page => (hstart page).kept kept_nil
  have hevents : ∀ page, ∃ events, ∀ (h : 1 ≤ page), page ≤ n →
      FindPage query.selects newestFirst page query.limit (reads page).found events ∧
        (answer page).items = events.map (reads page).view := by
    intro page
    by_cases h : 1 ≤ page ∧ page ≤ n
    · obtain ⟨events, hfind, heq⟩ := (hlists page h.1 h.2).items (hnamed page)
      exact ⟨events, fun _ _ => ⟨hfind, heq⟩⟩
    · exact ⟨[], fun h1 h2 => absurd ⟨h1, h2⟩ h⟩
  choose events hevents using hevents
  refine ⟨fun d hd hselects => ?_, fun page hpage hle => ?_⟩
  · have hlast : (events n).length < query.limit := by
      rwa [(hevents n hn le_rfl).2, List.length_map] at hshort
    have hgrow : ∀ page, 1 ≤ page → page < n →
        (reads page).found.Sublist (reads (page + 1)).found :=
      fun page hpage hlt => (hgrows page hpage hlt).sublist
    have hkeys : ∀ page, ((reads page).found.map newestFirst).Nodup :=
      fun page => nodup_newestFirst (hkept page).ids
    obtain ⟨page, hpage, hle, hmem⟩ := walk_complete hn hgrow hkeys
      (fun page hpage hle => (hevents page hpage hle).1) hlast hd hselects
    refine ⟨page, hpage, hle, ?_⟩
    rw [(hevents page hpage hle).2]
    exact List.mem_map_of_mem hmem
  · obtain ⟨hfind, hitems⟩ := hevents page hpage hle
    rw [hitems, List.map_map]
    refine ⟨?_, fun view hview => ?_⟩
    · obtain ⟨sorted, hperm, -, heq⟩ := hfind
      have hsorted : (sorted.map (·.id)).Nodup :=
        (hperm.map _).nodup_iff.mpr ((hkept page).ids.sublist (List.filter_sublist.map _))
      rw [heq]
      exact (hsorted.map Subtype.val_injective).sublist (by
        rw [List.map_map]
        exact pageOf_sublist.map _)
    · obtain ⟨d, hd, rfl⟩ := List.mem_map.mp hview
      obtain ⟨hmem, hselects⟩ := hfind.mem hd
      refine ⟨?_, d, hmem, hselects, rfl⟩
      have hredacted := ((hkept page).safe d hmem).redacted
      rw [show ((reads page).view d).context = d.context.map redactContext from rfl, hredacted,
        hredacted]

/-- The trail when a page is asked for: the second event comes after the first page. -/
def trailAt (page : ℕ) : Trail ℤ := if page ≤ 1 then [firstEvent] else [secondEvent, firstEvent]

theorem grows_first {hmac : String → String → String} : Grows hmac [] [firstEvent] :=
  .single (.record signOutInput 0 (.ok ())
    ⟨valid_of_no_correlation rfl rfl, _, by simp, by simp [Taken], rfl⟩)

theorem grows_second {hmac : String → String → String} :
    Grows hmac [firstEvent] [secondEvent, firstEvent] :=
  .single (.record signOutInput 1 (.ok ())
    ⟨valid_of_no_correlation rfl rfl, _, by decide, by simp [Taken, eventOf, signOutInput, trimmed],
      rfl⟩)

theorem grows_trailAt {hmac : String → String → String} (page : ℕ) :
    Grows hmac [] (trailAt page) := by
  rw [trailAt]
  split
  · exact grows_first
  · exact grows_first.trans grows_second

/-- The first event, shown on the first page, is on the second again. -/
theorem browsing_complete_two : ∃ page, 1 ≤ page ∧ page ≤ 3 ∧
    (adasReads (trailAt page)).view firstEvent ∈ (answerOn (trailAt page) page).items := by
  have hstart : ∀ page, Grows hmacSeven [] (adasReads (trailAt page)).found :=
    fun page => grows_trailAt page
  refine (browsing_complete singleQuery 3 (fun page => adasReads (trailAt page))
    (fun page => answerOn (trailAt page) page) (fun page => adasReads_named _)
    hstart ?_ (by decide) (fun page h _ => lists_answerOn ?_ page h)
    (by decide)).1 firstEvent (List.mem_singleton_self _) rfl
  · intro page hpage _
    by_cases h : page = 1
    · subst h
      exact grows_second
    · rw [show trailAt page = trailAt (page + 1) by
        rw [trailAt, trailAt, if_neg (by omega), if_neg (by omega)]]
  · rw [trailAt]
    split
    · exact List.pairwise_singleton _ _
    · exact sorted_events

end SecurityActivity

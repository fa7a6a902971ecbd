import TenantLibrary.Api.Blind
import TenantLibrary.Lib.Alike
import TenantLibrary.ReadingLists.Veiling

/-!
What the service gives away of its patrons.

Of a patron's name and email a submission leaves two hashes and two masks. The masks are shown;
a hash only decides which list a submission replaces. So two histories whose patrons have the
same masks, and in which the same submissions of a tenant are one patron's, get the same
responses, whatever the names, the emails and the secrets (`patrons_private`). Timestamps are not
modelled: the `updated_at` of a list would also tell that a name changed under the same mask.
-/

namespace TenantLibrary.Api

open TenantLibrary.Lib TenantLibrary.Lib.Share TenantLibrary.OpenLibrary TenantLibrary.Store
  TenantLibrary.Ingestion TenantLibrary.ReadingLists TenantLibrary.Books

/-! ### Submissions -/

/-- What a submission keeps of its patron. -/
structure Traces where
  nameHash : String
  emailHash : String
  nameMasked : String
  emailMasked : Except Failure String

def tracesOf (hashing : Hashing) (submission : Submission) : Traces where
  nameHash := hashPii hashing submission.patronName
  emailHash := hashPii hashing submission.email
  nameMasked := maskName submission.patronName
  emailMasked := (maskEmail submission.email).mapError fun _ => .other "mask_email"

/-- The traces under the veil of their tenant. -/
def Traces.veil (names : Pseudonyms) (tenantId : Uuid) (traces : Traces) : Traces :=
  { traces with
    nameHash := ""
    emailHash := names tenantId traces.emailHash }

/-- The list with the name of a submission. -/
def Traces.rename (traces : Traces) (list : ReadingList) : ReadingList :=
  { list with
    patronNameHash := traces.nameHash
    patronNameMasked := traces.nameMasked }

/-- A submission of which only the traces are known. It writes the name of its list also
where it is the one stored. -/
def submitTraces (tenantId : Uuid) (traces : Traces) (books : List BookReference)
    (draws : SubmitDraws) (answers : Nat → ReferenceAnswers) : IngestM ReadingListResponse := do
  let database := Write.send Refusal.never
  let emailMasked ← liftAnswer traces.emailMasked
  let result ← SessionM.select database fun db =>
    db.readingLists.rows.filter fun l => l.tenantId = tenantId && l.emailHash = traces.emailHash
  match ← scalarOneOrNone result with
  | none =>
      SessionM.add (.insertReadingList (newList draws.listId tenantId traces.nameHash
        traces.emailHash traces.nameMasked emailMasked))
      SessionM.flush database
      storeAndAnswer tenantId draws.listId false traces.nameMasked emailMasked books draws answers
  | some list =>
      SessionM.add (.updateReadingList (traces.rename list))
      SessionM.add (.deleteReadingListItems list.id)
      SessionM.flush database
      storeAndAnswer tenantId list.id true traces.nameMasked emailMasked books draws answers

variable {hashing : Hashing} {tenantId : Uuid} {db : Database}

/-- Writing a stored list again changes nothing. -/
theorem update_stored {list : ReadingList} (mem : list ∈ db.readingLists.rows)
    (fits : list.requireFits = .ok ()) :
    Write.send Refusal.never (.updateReadingList list) db = .ok db := by
  have whole : list.cut = list := ReadingList.cut_of_fits (ReadingList.requireFits_eq_ok.mp fits)
  rw [updateReadingList_eq_ok, whole]
  refine ⟨fits, ?_⟩
  have same : db.readingLists.modify (replaceList list) clash_of_replaceList = db.readingLists :=
    Table.ext (map_replaceList_self mem)
  rw [same]

/-- Nor does it when another write follows. -/
theorem update_first {α : Type} {list : ReadingList} (mem : list ∈ db.readingLists.rows)
    (fits : list.requireFits = .ok ()) (write : Write) (next : IngestM α) :
    (do
      SessionM.add (.updateReadingList list)
      SessionM.add write
      SessionM.flush (Write.send Refusal.never)
      next : IngestM α).runOn (.opened db) =
      (do
        SessionM.add write
        SessionM.flush (Write.send Refusal.never)
        next : IngestM α).runOn (.opened db) := by
  have sent : sendAll (Write.send Refusal.never) [.updateReadingList list, write] db =
      sendAll (Write.send Refusal.never) [write] db := by
    rw [sendAll, update_stored mem fits]
    rfl
  rw [SessionM.runOn_bind_ok (SessionM.runOn_add _ _),
    SessionM.runOn_bind_ok (SessionM.runOn_add _ _),
    SessionM.runOn_bind_ok (SessionM.runOn_add _ _), SessionM.runOn_bind, SessionM.runOn_bind,
    SessionM.runOn_flush _ _ rfl, SessionM.runOn_flush _ _ rfl]
  simp only [Session.opened, List.nil_append, List.singleton_append, sent]

/-- Programs that go on alike from where the first part of both has brought them. -/
theorem runOn_bind_congr {α β : Type} {program : IngestM α} {next next' : α → IngestM β}
    {s : Session Database Write}
    (same : ∀ a t, program.runOn s = (.ok a, t) → (next a).runOn t = (next' a).runOn t) :
    (program >>= next).runOn s = (program >>= next').runOn s := by
  rw [SessionM.runOn_bind, SessionM.runOn_bind]
  rcases ran : program.runOn s with ⟨result, t⟩
  cases result with
  | error e => rfl
  | ok a => exact same a t ran

theorem runOn_liftAnswer {α : Type} {answer : Except Failure α} {s t : Session Database Write}
    {a : α} (ran : (liftAnswer answer).runOn s = (.ok a, t)) : t = s := by
  cases answer with
  | ok b =>
      obtain ⟨_, rfl⟩ := Prod.mk.inj ran
      rfl
  | error failure => cases (Prod.mk.inj ran).1

theorem runOn_scalarOneOrNone {α : Type} {rows : List α} {s t : Session Database Write}
    {found : Option α} (ran : (scalarOneOrNone rows).runOn s = (.ok found, t)) :
    t = s ∧ ∀ row, found = some row → row ∈ rows := by
  match rows with
  | [] =>
      obtain ⟨result, rfl⟩ := Prod.mk.inj ran
      obtain rfl := Except.ok.inj result
      exact ⟨rfl, fun row same => by cases same⟩
  | [only] =>
      obtain ⟨result, rfl⟩ := Prod.mk.inj ran
      obtain rfl := Except.ok.inj result
      refine ⟨rfl, fun row same => ?_⟩
      obtain rfl := Option.some.inj same
      exact List.mem_singleton_self only
  | _ :: _ :: _ => cases (Prod.mk.inj ran).1

/-- `submit` keeps the traces of the patron and nothing else. -/
theorem submit_eq_submitTraces {submission : Submission} {draws : SubmitDraws}
    {answers : Nat → ReferenceAnswers}
    (stored : ∀ list ∈ db.readingLists.rows, list.requireFits = .ok ()) :
    (submit hashing tenantId submission draws answers).runOn (.opened db) =
      (submitTraces tenantId (tracesOf hashing submission) submission.books draws answers).runOn
        (.opened db) := by
  let traces := tracesOf hashing submission
  apply runOn_bind_congr
  intro emailMasked t ran
  obtain rfl := runOn_liftAnswer ran
  apply runOn_bind_congr
  intro rows t ran
  obtain ⟨found, rfl⟩ := Prod.mk.inj ran
  obtain rfl := Except.ok.inj found
  apply runOn_bind_congr
  intro existing t ran
  obtain ⟨rfl, isRow⟩ := runOn_scalarOneOrNone ran
  cases existing with
  | none => rfl
  | some list =>
      have mem : list ∈ db.readingLists.rows := (List.mem_filter.mp (isRow list rfl)).1
      dsimp only
      split
      case isTrue changed => rfl
      case isFalse same =>
        have same : traces.rename list = list := not_not.mp same
        have again := update_first mem (stored list mem) (.deleteReadingListItems list.id)
          (storeAndAnswer tenantId list.id true traces.nameMasked emailMasked submission.books draws
            answers)
        rw [← same] at again
        exact again.symm

/-! ### Submissions under the veil -/

variable {names : Pseudonyms}

/-- The hashes of the traces, and the name of one of them, fit their columns. -/
structure Traces.Fit (names : Pseudonyms) (tenantId : Uuid) (traces : Traces) : Prop where
  patronName : fitsColumn 128 traces.nameHash
  email : fitsColumn 128 traces.emailHash
  pseudonym : fitsColumn 128 (names tenantId traces.emailHash)

theorem carries_scalarOneOrNone (rows : List ReadingList) :
    (veiled names).Carries (Option.map (veilList names)) (scalarOneOrNone rows)
      (scalarOneOrNone (rows.map (veilList names))) fun found =>
        ∀ list, found = some list → list ∈ rows := by
  match rows with
  | [] =>
      apply Carries.pure rfl
      intro list same
      cases same
  | [only] =>
      apply Carries.pure rfl
      intro list same
      obtain rfl := Option.some.inj same
      exact List.mem_singleton_self only
  | _ :: _ :: _ => exact Carries.throw _

/-- The list with an email hash is found under the name of the hash. -/
theorem lists_veil (emailHash : String) (db : Database) :
    ((veil names db).readingLists.rows.filter fun l =>
        l.tenantId = tenantId && l.emailHash = names tenantId emailHash) =
      (db.readingLists.rows.filter fun l =>
        l.tenantId = tenantId && l.emailHash = emailHash).map (veilList names) := by
  simp only [veil, Table.rows_modify, List.filter_map]
  congr 1
  apply List.filter_congr
  intro l _
  by_cases own : l.tenantId = tenantId
  · simp [veilList, own]
  · simp [veilList, own]

/-- No answer shows the hashes. -/
theorem blind_veiled (names : Pseudonyms) : Blind (veiled names) where
  sends := veils names
  catalog _ := rfl
  jobs _ := rfl
  logs _ := rfl
  items _ := rfl
  lists := ⟨veilList names, fun _ => ⟨rfl, rfl, rfl, rfl⟩, fun _ => rfl⟩
  free write free := by
    cases write with
    | updateJob job => cases free
    | insertReadingList list => cases free
    | updateReadingList list => cases free
    | _ => exact ⟨trivial, rfl⟩
  updates _ _ _ _ _ _ := ⟨trivial, rfl⟩

/-- A submission does with veiled traces under the veil what it does with its traces. -/
theorem carries_submitTraces {traces : Traces} (fit : traces.Fit names tenantId)
    (books : List BookReference) (draws : SubmitDraws) (answers : Nat → ReferenceAnswers) :
    (veiled names).Carries id (submitTraces tenantId traces books draws answers)
      (submitTraces tenantId (traces.veil names tenantId) books draws answers) fun _ => True := by
  apply Carries.bind (unaware_liftAnswer _)
  intro emailMasked _
  refine Carries.bind (Carries.select (veils names _) fun db _ => lists_veil _ db)
    fun rows ⟨db, stored, found⟩ => ?_
  apply Carries.bind (carries_scalarOneOrNone rows)
  intro existing isRow
  cases existing with
  | none =>
      have fits : WritesFit names (.insertReadingList (newList draws.listId tenantId traces.nameHash
          traces.emailHash traces.nameMasked emailMasked)) :=
        ⟨fit.patronName, fit.email, fit.pseudonym⟩
      apply Carries.bind (Carries.add fits)
      intro _ _
      exact (blind_veiled names).flush.bind fun _ => (blind_veiled names).unaware_storeAndAnswer
  | some list =>
      obtain ⟨mem, _⟩ := List.mem_filter.mp (found ▸ isRow list rfl)
      have hashes := (stored list mem).hashesFit
      have fits : WritesFit names (.updateReadingList (traces.rename list)) :=
        ⟨fit.patronName, hashes.email, hashes.pseudonym⟩
      apply Carries.bind (Carries.add fits)
      intro _ _
      refine Unaware.bind ((blind_veiled names).add trivial) fun _ => ?_
      exact (blind_veiled names).flush.bind fun _ => (blind_veiled names).unaware_storeAndAnswer

theorem carries_answer {traces : Traces} (fit : traces.Fit names tenantId)
    (books : List BookReference) (draws : SubmitDraws) (answers : Nat → ReferenceAnswers) :
    (veiled names).Carries id
      (do return Response.submitted (← submitTraces tenantId traces books draws answers))
      (do
        let veiledTraces := traces.veil names tenantId
        return Response.submitted (← submitTraces tenantId veiledTraces books draws answers))
      fun _ => True :=
  (carries_submitTraces fit books draws answers).bind fun _ _ => Carries.pure rfl trivial

/-! ### Two histories -/

/-- Operations that differ in the patron of a submission at most, and not in the masks. -/
inductive Alike : Operation → Operation → Prop
  | other (op : Operation) (noPatron : op.request.submitted = none) : Alike op op
  | submission (tenantId : Uuid) {a b : Submission} (draws : SubmitDraws)
      (answers : Nat → ReferenceAnswers) (books : a.books = b.books)
      (names : maskName a.patronName = maskName b.patronName)
      (emails : maskEmail a.email = maskEmail b.email) :
      Alike ⟨tenantId, .submitReadingList a draws answers⟩
        ⟨tenantId, .submitReadingList b draws answers⟩

/-- The hashes of the emails submitted do not collide. -/
def CollisionFree (hashing : Hashing) (ops : List Operation) : Prop :=
  ∀ op ∈ ops, ∀ op' ∈ ops, ∀ a ∈ op.request.submitted, ∀ b ∈ op'.request.submitted,
    hashPii hashing a.email = hashPii hashing b.email →
      hashing.normalized a.email = hashing.normalized b.email

/-- Two submissions to a tenant are of one patron in both histories or in neither. -/
def SamePatrons (hashing hashing' : Hashing) (ops : List (Operation × Operation)) : Prop :=
  ∀ p ∈ ops, ∀ q ∈ ops, p.1.tenantId = q.1.tenantId →
    ∀ a ∈ p.1.request.submitted, ∀ a' ∈ p.2.request.submitted,
      ∀ b ∈ q.1.request.submitted, ∀ b' ∈ q.2.request.submitted,
        (hashing.normalized a.email = hashing.normalized b.email ↔
          hashing'.normalized a'.email = hashing'.normalized b'.email)

instance (hashing : Hashing) (ops : List Operation) : Decidable (CollisionFree hashing ops) := by
  unfold CollisionFree
  infer_instance

instance (hashing hashing' : Hashing) (ops : List (Operation × Operation)) :
    Decidable (SamePatrons hashing hashing' ops) := by
  unfold SamePatrons
  infer_instance

/-- Digests fit their columns. -/
def DigestsFit (hashing : Hashing) : Prop := ∀ text, fitsColumn 128 (hashing.hmac text)

/-- What two histories with their secrets have to agree on. -/
structure Counterparts (hashing hashing' : Hashing) (ops : List (Operation × Operation)) :
    Prop where
  alike : ∀ pair ∈ ops, Alike pair.1 pair.2
  patrons : SamePatrons hashing hashing' ops
  free : CollisionFree hashing (ops.map Prod.fst)
  free' : CollisionFree hashing' (ops.map Prod.snd)
  digests : DigestsFit hashing
  digests' : DigestsFit hashing'

section Counterparts

variable {hashing' : Hashing} {ops : List (Operation × Operation)}

theorem CollisionFree.hashPii_eq_iff {history : List Operation}
    (free : CollisionFree hashing history) {op op' : Operation} (mem : op ∈ history)
    (mem' : op' ∈ history) {a b : Submission}
    (submits : a ∈ op.request.submitted) (submits' : b ∈ op'.request.submitted) :
    hashPii hashing a.email = hashPii hashing b.email ↔
      hashing.normalized a.email = hashing.normalized b.email :=
  ⟨free op mem op' mem' a submits b submits', congrArg hashing.hmac⟩

/-- The email hashes of the two submissions of a pair, if they are to the tenant. -/
def hashesTo (hashing hashing' : Hashing) (tenantId : Uuid) (pair : Operation × Operation) :
    Option (String × String) :=
  if pair.1.tenantId = tenantId then
    pair.1.request.submitted.bind fun a => pair.2.request.submitted.map fun a' =>
      (hashPii hashing' a'.email, hashPii hashing a.email)
  else none

theorem hashesTo_eq_some {pair : Operation × Operation} {hashes : String × String} :
    hashesTo hashing hashing' tenantId pair = some hashes ↔ pair.1.tenantId = tenantId ∧
      ∃ a ∈ pair.1.request.submitted, ∃ a' ∈ pair.2.request.submitted,
        hashes = (hashPii hashing' a'.email, hashPii hashing a.email) := by
  unfold hashesTo
  split
  case isTrue own =>
    simp only [own, true_and, Option.bind_eq_some_iff, Option.map_eq_some_iff, Option.mem_def,
      @eq_comm _ _ hashes]
  case isFalse other => simp [other]

/-- The hashes of the second history are names for those of the first. -/
theorem Counterparts.exists_names (counterparts : Counterparts hashing hashing' ops) :
    ∃ names : Pseudonyms, ∀ pair ∈ ops, ∀ a ∈ pair.1.request.submitted,
      ∀ a' ∈ pair.2.request.submitted,
        names pair.1.tenantId (hashPii hashing' a'.email) = hashPii hashing a.email := by
  have ofTenant : ∀ tenantId, ∃ ρ : Equiv.Perm String,
      ∀ hashes ∈ ops.filterMap (hashesTo hashing hashing' tenantId), ρ hashes.1 = hashes.2 := by
    intro tenantId
    apply exists_renaming
    intro first mem second mem'
    obtain ⟨p, pMem, some⟩ := List.mem_filterMap.mp mem
    obtain ⟨q, qMem, some'⟩ := List.mem_filterMap.mp mem'
    obtain ⟨own, a, submits, a', submits', rfl⟩ := hashesTo_eq_some.mp some
    obtain ⟨own', b, resubmits, b', resubmits', rfl⟩ := hashesTo_eq_some.mp some'
    have patrons := counterparts.patrons p pMem q qMem (own.trans own'.symm) a submits a' submits' b
      resubmits b' resubmits'
    have here := counterparts.free.hashPii_eq_iff (List.mem_map_of_mem pMem)
      (List.mem_map_of_mem qMem) submits resubmits
    have there := counterparts.free'.hashPii_eq_iff (List.mem_map_of_mem pMem)
      (List.mem_map_of_mem qMem) submits' resubmits'
    exact there.trans (patrons.symm.trans here.symm)
  choose names renames using ofTenant
  refine ⟨names, ?_⟩
  intro pair mem a submits a' submits'
  exact renames pair.1.tenantId _ (List.mem_filterMap.mpr
    ⟨pair, mem, hashesTo_eq_some.mpr ⟨rfl, a, submits, a', submits', rfl⟩⟩)

end Counterparts

/-! ### One operation in both histories -/

/-- Databases that look the same, each under its veil. -/
structure SameUnder (names names' : Pseudonyms) (db db' : Database) : Prop where
  stored : ∀ list ∈ db.readingLists.rows, StoredList names list
  stored' : ∀ list ∈ db'.readingLists.rows, StoredList names' list
  same : veil names db = veil names' db'

structure SameServices (names names' : Pseudonyms) (s s' : Service) : Prop where
  db : SameUnder names names' s.db s'.db
  enqueued : s.enqueued = s'.enqueued

section Operation

variable {names' : Pseudonyms} {hashing' : Hashing} {db' : Database} {s s' : Service}
  {env : Environment}

/-- Two programs that do the same under their veils. -/
theorem SameUnder.run {program program' image : IngestM Response}
    (same : SameUnder names names' db db')
    (carries : (veiled names).Carries id program image fun _ => True)
    (carries' : (veiled names').Carries id program' image fun _ => True) :
    (program.runOn (.opened db)).1 = (program'.runOn (.opened db')).1 ∧
      SameUnder names names' (program.runOn (.opened db)).2.committed
        (program'.runOn (.opened db')).2.committed := by
  obtain ⟨kept, result, committed⟩ := carries.run same.stored
  obtain ⟨kept', result', committed'⟩ := carries'.run same.stored'
  rw [Except.map_id] at result result'
  have view : (veiled names).view db = (veiled names').view db' := same.same
  refine ⟨?_, kept, kept', ?_⟩
  · calc (program.runOn (.opened db)).1
        = (image.runOn (.opened ((veiled names).view db))).1 := result.symm
      _ = (image.runOn (.opened ((veiled names').view db'))).1 := by rw [view]
      _ = (program'.runOn (.opened db')).1 := result'
  · calc (veiled names).view (program.runOn (.opened db)).2.committed
        = (image.runOn (.opened ((veiled names).view db))).2.committed := committed.symm
      _ = (image.runOn (.opened ((veiled names').view db'))).2.committed := by rw [view]
      _ = (veiled names').view (program'.runOn (.opened db')).2.committed := committed'

theorem enqueued_congr (same : s.enqueued = s'.enqueued) (task : Option TaskArgs) :
    (s.enqueue task).enqueued = (s'.enqueue task).enqueued := by
  cases task with
  | none => exact same
  | some args => simp only [Service.enqueue, same]

/-- Requests that enqueue the same when they are answered alike. -/
theorem SameServices.serve {op op' : Operation} {env' : Environment}
    (services : SameServices names names' s s')
    (ran : let program := handle env op.tenantId (s.enqueued op.tenantId) op.request
      let program' := handle env' op'.tenantId (s'.enqueued op'.tenantId) op'.request
      (program.runOn (.opened s.db)).1 = (program'.runOn (.opened s'.db)).1 ∧
        SameUnder names names' (program.runOn (.opened s.db)).2.committed
          (program'.runOn (.opened s'.db)).2.committed)
    (sameTask : ∀ response,
      enqueues op.tenantId op.request response = enqueues op'.tenantId op'.request response) :
    (Api.serve env s op).1 = (Api.serve env' s' op').1 ∧
      SameServices names names' (Api.serve env s op).2 (Api.serve env' s' op').2 := by
  obtain ⟨result, committed⟩ := ran
  have response := congrArg respond result
  refine ⟨response, ?_, ?_⟩
  · unfold Api.serve
    rw [Service.db_enqueue, Service.db_enqueue]
    exact committed
  · unfold Api.serve
    dsimp only
    rw [response, sameTask]
    apply enqueued_congr
    exact services.enqueued

/-- What is configured does not matter to a request without a patron, but for the hashing. -/
theorem handle_congr {tasks : List TaskArgs} {request : Request}
    (noPatron : request.submitted = none) :
    handle { env with hashing } tenantId tasks request =
      handle { env with hashing := hashing' } tenantId tasks request := by
  cases request with
  | submitReadingList submission draws answers => cases noPatron
  | _ => rfl

theorem serve_other {op : Operation} (services : SameServices names names' s s')
    (noPatron : op.request.submitted = none) :
    (serve { env with hashing } s op).1 = (serve { env with hashing := hashing' } s' op).1 ∧
      SameServices names names' (serve { env with hashing } s op).2
        (serve { env with hashing := hashing' } s' op).2 := by
  refine services.serve ?_ fun _ => rfl
  dsimp only
  rw [services.enqueued, @handle_congr hashing _ hashing' _ _ _ noPatron]
  exact services.db.run ((blind_veiled names).unaware_handle noPatron)
    ((blind_veiled names').unaware_handle noPatron)

/-- A submission is served by its traces. -/
theorem runOn_handle_submit {tasks : List TaskArgs} {submission : Submission} {draws : SubmitDraws}
    {answers : Nat → ReferenceAnswers}
    (stored : ∀ list ∈ db.readingLists.rows, StoredList names list) :
    (handle { env with hashing } tenantId tasks
        (.submitReadingList submission draws answers)).runOn (.opened db) =
      (do
        let response ← submitTraces tenantId (tracesOf hashing submission) submission.books draws
          answers
        return Response.submitted response : IngestM Response).runOn (.opened db) := by
  rw [handle, SessionM.runOn_bind, SessionM.runOn_bind,
    submit_eq_submitTraces fun list mem => (stored list mem).fits]

theorem serve_submission {a b : Submission} {draws : SubmitDraws}
    {answers : Nat → ReferenceAnswers} (services : SameServices names names' s s')
    (books : a.books = b.books)
    (traces : (tracesOf hashing a).veil names tenantId = (tracesOf hashing' b).veil names' tenantId)
    (fit : (tracesOf hashing a).Fit names tenantId)
    (fit' : (tracesOf hashing' b).Fit names' tenantId) :
    let op : Operation := ⟨tenantId, .submitReadingList a draws answers⟩
    let op' : Operation := ⟨tenantId, .submitReadingList b draws answers⟩
    (serve { env with hashing } s op).1 = (serve { env with hashing := hashing' } s' op').1 ∧
      SameServices names names' (serve { env with hashing } s op).2
        (serve { env with hashing := hashing' } s' op').2 := by
  refine services.serve ?_ fun _ => rfl
  dsimp only
  rw [runOn_handle_submit services.db.stored, runOn_handle_submit services.db.stored']
  have carries := carries_answer fit a.books draws answers
  have carries' := carries_answer fit' b.books draws answers
  rw [books, traces] at carries
  rw [books]
  exact services.db.run carries carries'

end Operation

/-! ### Whole histories -/

/-- A list without its hashes. -/
def unhashed (list : ReadingList) : ReadingList :=
  { list with
    patronNameHash := ""
    emailHash := "" }

/-- The hashes are all that two databases differ in. -/
structure SameButHashes (db db' : Database) : Prop where
  catalog : db.catalog = db'.catalog
  jobs : db.jobs = db'.jobs
  logs : db.logs = db'.logs
  items : db.readingListItems = db'.readingListItems
  lists : db.readingLists.rows.map unhashed = db'.readingLists.rows.map unhashed

theorem unhashed_veil (names : Pseudonyms) (db : Database) :
    (veil names db).readingLists.rows.map unhashed = db.readingLists.rows.map unhashed := by
  simp only [veil, Table.rows_modify, List.map_map]
  rfl

theorem SameUnder.sameButHashes {names' : Pseudonyms} {db' : Database}
    (under : SameUnder names names' db db') : SameButHashes db db' := by
  obtain ⟨_, _, same⟩ := under
  constructor
  · change (veil names db).catalog = (veil names' db').catalog
    rw [same]
  · change (veil names db).jobs = (veil names' db').jobs
    rw [same]
  · change (veil names db).logs = (veil names' db').logs
    rw [same]
  · change (veil names db).readingListItems = (veil names' db').readingListItems
    rw [same]
  · rw [← unhashed_veil names db, same, unhashed_veil]

variable {env : Environment} {hashing' : Hashing} {ops : List (Operation × Operation)}

/-- One operation in both histories, when its hash in the second has the name it needs. -/
theorem answersAlike (names : Pseudonyms) (digests : DigestsFit hashing)
    (digests' : DigestsFit hashing') :
    AnswersAlike (serve { env with hashing }) (serve { env with hashing := hashing' })
      (SameServices (fun _ => Equiv.refl String) names) fun op op' =>
        Alike op op' ∧ ∀ a ∈ op.request.submitted, ∀ a' ∈ op'.request.submitted,
          names op.tenantId (hashPii hashing' a'.email) = hashPii hashing a.email := by
  rintro s s' op op' services ⟨alike, named⟩
  cases alike with
  | other _ noPatron => exact serve_other services noPatron
  | @submission tenantId a b draws answers books maskedNames maskedEmails =>
      have name : names tenantId (hashPii hashing' b.email) = hashPii hashing a.email :=
        named a rfl b rfl
      refine serve_submission services books ?_ ?_ ?_
      · simp only [Traces.veil, tracesOf, maskedNames, maskedEmails, name, Equiv.refl_apply]
      · exact ⟨digests _, digests _, digests _⟩
      · refine ⟨digests' _, digests' _, ?_⟩
        change fitsColumn 128 (names tenantId (hashPii hashing' b.email)) = true
        rw [name]
        exact digests _

/-- Two histories whose patrons have the same masks, and in which the same submissions to a
tenant are one patron's, get the same responses under any two secrets, and leave databases
that differ in the hashes at most. -/
theorem patrons_private (counterparts : Counterparts env.hashing hashing' ops) :
    answers (serve env) (fun _ => true) .empty (ops.map Prod.fst) =
        answers (serve { env with hashing := hashing' }) (fun _ => true) .empty
          (ops.map Prod.snd) ∧
      SameButHashes (final (serve env) .empty (ops.map Prod.fst)).db
        (final (serve { env with hashing := hashing' }) .empty (ops.map Prod.snd)).db := by
  obtain ⟨names, named⟩ := counterparts.exists_names
  have alike := @answersAlike env.hashing env hashing' names counterparts.digests
    counterparts.digests'
  have nothing : SameServices (fun _ => Equiv.refl String) names .empty .empty := by
    refine ⟨⟨fun list mem => ?_, fun list mem => ?_, rfl⟩, rfl⟩
    · cases mem
    · cases mem
  have each : ∀ pair ∈ ops, Alike pair.1 pair.2 ∧ ∀ a ∈ pair.1.request.submitted,
      ∀ a' ∈ pair.2.request.submitted,
        names pair.1.tenantId (hashPii hashing' a'.email) = hashPii env.hashing a.email :=
    fun pair mem => ⟨counterparts.alike pair mem, named pair mem⟩
  exact ⟨alike.answers_eq nothing each, (alike.related_final nothing each).db.sameButHashes⟩

/-- A digest of 64 hexadecimal digits, of the sum of a secret and the characters. -/
def sumDigest (secret : Nat) (text : String) : String :=
  let sum := text.toList.foldl (fun sum c => sum + c.toNat) secret
  String.ofList (List.replicate 64 (Nat.digitChar (sum % 16)))

def asciiLower (text : String) : String := String.ofList (text.toList.map Char.toLower)

def summing (secret : Nat) : Hashing := ⟨asciiLower, sumDigest secret⟩

theorem digestsFit_summing (secret : Nat) : DigestsFit (summing secret) := by
  intro text
  have digit : ∀ n, n < 16 → Nat.digitChar n ≠ '\x00' := by decide
  refine fitsColumn_iff.mpr ⟨?_, ?_⟩
  · simp [summing, sumDigest]
  · simp only [summing, sumDigest, String.toList_ofList, List.mem_replicate]
    rintro ⟨_, nul⟩
    exact digit _ (Nat.mod_lt _ (by decide)) nul.symm

def configured (secret : Nat) : Environment := ⟨fun _ => "", summing secret, ⟨id, fun a b => a ≤ b⟩⟩

/-- One patron asks for a book that Open Library knows, the lists are shown, and the patron
asks again in other letters; another patron asks last. -/
def threeSubmissions (patron again other : String × String) : List Operation :=
  let asks (patron : String × String) (id : Uuid) : Operation :=
    ⟨1, .submitReadingList
      { patronName := patron.1
        email := patron.2
        books := [⟨some "OL2W", none, .inl rfl⟩]
        nonempty := List.cons_ne_nil _ _ }
      ⟨id, fun _ => id + 1⟩
      fun _ => ⟨.ok none, .ok ⟨"OL2W", some "Title", [], none, none, [], none⟩⟩⟩
  [asks patron 10, ⟨1, .listReadingLists .first⟩, asks again 20, asks other 30]

/-- Two histories of one tenant, with the patrons of one in the places of the other's. -/
def exchanged : List (Operation × Operation) :=
  (threeSubmissions ("Jane Smith", "jane@example.com") ("J Smith", "Jane@Example.com")
    ("Bob", "bob@example.com")).zip
  (threeSubmissions ("John Stone", "june@evolute.com") ("J Stone", "June@Evolute.com")
    ("Bea", "beb@exotice.com"))

theorem exchanged_indistinguishable :
    answers (serve (configured 3)) (fun _ => true) .empty (exchanged.map Prod.fst) =
        answers (serve (configured 5)) (fun _ => true) .empty (exchanged.map Prod.snd) ∧
      SameButHashes (final (serve (configured 3)) .empty (exchanged.map Prod.fst)).db
        (final (serve (configured 5)) .empty (exchanged.map Prod.snd)).db := by
  have alike : ∀ pair ∈ exchanged, Alike pair.1 pair.2 := by
    intro pair mem
    rcases mem with _ | ⟨_, _ | ⟨_, _ | ⟨_, _ | ⟨_, ⟨⟩⟩⟩⟩⟩
    · exact .submission 1 _ _ rfl (by decide +kernel) (by decide +kernel)
    · exact .other _ rfl
    · exact .submission 1 _ _ rfl (by decide +kernel) (by decide +kernel)
    · exact .submission 1 _ _ rfl (by decide +kernel) (by decide +kernel)
  have counterparts : Counterparts (summing 3) (summing 5) exchanged :=
    ⟨alike, by decide +kernel, by decide +kernel, by decide +kernel, digestsFit_summing 3,
      digestsFit_summing 5⟩
  exact @patrons_private (configured 3) (summing 5) exchanged counterparts

end TenantLibrary.Api

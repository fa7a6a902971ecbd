import TenantLibrary.Lib.Replacing
import TenantLibrary.Lib.UniqueInserts
import TenantLibrary.ReadingLists.Replace

/-!
Any number of submissions at the same time.

The statements of `submit` interleave under READ COMMITTED, for any patrons and tenants: the
look-up of the list; for a patron without a list its `INSERT`, with its way through the unique
indexes; else an `UPDATE` of the columns of the name that change, if any do, and the `DELETE` of
the items, row by row; an `INSERT` per reference; the commit. A submission can fail at any point,
and is then rolled back: what makes it fail, a refused statement, an exception while a reference
is resolved or a lost connection, is left open. The `SELECT`s on books write nothing and are
left out.

A list can end with the items of several submissions, but only with all the items of each:
`submissions_whole` says which submissions these are.
-/

namespace TenantLibrary.ReadingLists.Concurrent

open TenantLibrary.Lib TenantLibrary.Store

/-! ### The submissions -/

/-- A submission to a tenant, with the identifier drawn in case the list is new. -/
structure Call where
  tenantId : Uuid
  tx : Transaction
  listId : Uuid

/-- The columns an `UPDATE` sets. -/
structure NameUpdate where
  patronNameHash : Option String
  patronNameMasked : Option String
deriving DecidableEq, Repr

namespace NameUpdate

/-- Some column changes, so the `UPDATE` is sent. -/
def sent (update : NameUpdate) : Bool :=
  update.patronNameHash.isSome || update.patronNameMasked.isSome

def on (update : NameUpdate) (row : ReadingList) : ReadingList :=
  { row with
    patronNameHash := update.patronNameHash.getD row.patronNameHash
    patronNameMasked := update.patronNameMasked.getD row.patronNameMasked }

end NameUpdate

/-- The value assigned to an attribute, if it is not the one it has. -/
def assigned (new old : String) : Option String := if new = old then none else some new

namespace Call

variable (hashing : Hashing) (call : Call)

def emailHash : String := hashPii hashing call.tx.submission.email

/-- The row of a new list. -/
def list : ReadingList :=
  newList call.listId call.tenantId (hashPii hashing call.tx.submission.patronName)
    (call.emailHash hashing) (maskName call.tx.submission.patronName)
    ((maskEmail call.tx.submission.email).toOption.get call.tx.masked)

/-- The attributes assigned to a list that was found. -/
def update (list : ReadingList) : NameUpdate where
  patronNameHash := assigned (hashPii hashing call.tx.submission.patronName) list.patronNameHash
  patronNameMasked := assigned (maskName call.tx.submission.patronName) list.patronNameMasked

/-- The look-up of the list. -/
def finds (row : ReadingList) : Bool :=
  row.tenantId = call.tenantId && row.emailHash = call.emailHash hashing

end Call

/-- What a submission has written into the table of lists. -/
inductive Hold where
  | inserted (insertion : Insertion ReadingList)
  | updated (update : NameUpdate)
deriving DecidableEq

/-- Where a submission stands. -/
inductive Phase where
  | looking
  /-- in the `INSERT` of its list -/
  | entering (insertion : Insertion ReadingList)
  | found (list : ReadingList)
  /-- before the `DELETE` -/
  | updated (listId : Uuid) (update : NameUpdate)
  /-- from the `DELETE` on, and after its end -/
  | writing (hold : Hold) (replacement : Replacement ReadingListItem Uuid Nat)
  /-- it has failed before it wrote an item -/
  | gaveUp

namespace Phase

def insertion : Phase → Option (Insertion ReadingList)
  | .entering insertion => some insertion
  | .writing (.inserted insertion) r => if r.fate = .open_ then some insertion else none
  | _ => none

/-- The list whose row is locked. -/
def locks : Phase → Option Uuid
  | .updated listId update => if update.sent then some listId else none
  | .writing (.updated update) r => if update.sent && r.fate = .open_ then some r.group else none
  | _ => none

def replacement : Phase → Option (Replacement ReadingListItem Uuid Nat)
  | .writing _ r => some r
  | _ => none

def isEnded : Phase → Bool
  | .writing _ r => r.fate ≠ .open_
  | .gaveUp => true
  | _ => false

end Phase

structure Request where
  call : Call
  phase : Phase

/-- The lists committed, every version of an item, the submissions, and those that are
committed, in the order of their commits. -/
structure World where
  lists : List ReadingList
  items : Heap ReadingListItem Nat
  requests : List Request
  commits : List Nat

inductive Action where
  | arrive (call : Call)
  | advance (k : Nat)
  | fail (k : Nat)

/-! ### The statements -/

/-- The primary key, and `uq_reading_lists_tenant_email`. -/
def indexes : List (UniqueIndex ReadingList) := [.on (·.id), .on fun l => (l.tenantId, l.emailHash)]

/-- The lists after a commit. -/
def Hold.commit (listId : Uuid) (lists : List ReadingList) : Hold → List ReadingList
  | .inserted insertion => lists ++ [insertion.row]
  | .updated update => lists.map fun row => if row.id = listId then update.on row else row

namespace World

def insertions (w : World) : Insertions ReadingList := perTransaction (·.phase.insertion) w.requests

def stages (w : World) : Replacements ReadingListItem Uuid Nat :=
  perTransaction (·.phase.replacement) w.requests

/-- The insertions of the other submissions. -/
def others (w : World) (k : Nat) : List (Insertion ReadingList) :=
  (w.requests.eraseIdx k).filterMap (·.phase.insertion)

/-- Another submission has locked the row of the list. -/
def locked (w : World) (k : Nat) (listId : Uuid) : Bool :=
  (w.requests.eraseIdx k).any fun other => other.phase.locks = some listId

def goto (w : World) (k : Nat) (request : Request) (phase : Phase) : World :=
  { w with requests := w.requests.set k { request with phase } }

/-- The next statement on the items of a list, or the commit. -/
def write (w : World) (k : Nat) (request : Request) (hold : Hold)
    (r : Replacement ReadingListItem Uuid Nat) : Option World :=
  match r.left with
  | i :: rest => do
      let items ← w.items.deleteAt w.stages.committed k i
      return { w with items }.goto k request (.writing hold { r with left := rest })
  | [] =>
      match (request.call.tx.items r.group)[r.inserted.length]? with
      | some item =>
          some ({ w with items := w.items.insert k item }.goto k request
            (.writing hold { r with inserted := r.inserted ++ [item] }))
      | none =>
          some ({ w with lists := hold.commit r.group w.lists, commits := w.commits ++ [k] }.goto k
            request (.writing hold { r with fate := .committed }))

/-- The next statement of a submission; `none` when it has to wait or has ended. -/
def advance (hashing : Hashing) (w : World) (k : Nat) (request : Request) : Option World :=
  match request.phase with
  | .looking =>
      match w.lists.filter (request.call.finds hashing) with
      | [] => some (w.goto k request (.entering ⟨request.call.list hashing, 0⟩))
      | [list] => some (w.goto k request (.found list))
      | _ :: _ :: _ => some (w.goto k request .gaveUp)
  | .entering insertion =>
      match indexes[insertion.entered]? with
      | some index =>
          match insertion.entry index w.lists (w.others k) with
          | .enters =>
              some (w.goto k request (.entering { insertion with entered := insertion.entered + 1 }))
          | .waits => none
          | .fails => some (w.goto k request .gaveUp)
      | none =>
          some (w.goto k request
            (.writing (.inserted insertion) ⟨insertion.row.id, none, [], [], .open_⟩))
  | .found list =>
      let update := request.call.update hashing list
      if update.sent && w.locked k list.id then none
      else some (w.goto k request (.updated list.id update))
  | .updated listId update =>
      let positions := w.items.targets w.stages.committed k fun item => item.readingListId = listId
      some (w.goto k request
        (.writing (.updated update) ⟨listId, some w.commits, positions, [], .open_⟩))
  | .writing hold r => if r.fate = .open_ then w.write k request hold r else none
  | .gaveUp => none

/-- The rollback of a submission. -/
def rollback (w : World) (k : Nat) (request : Request) : World :=
  match request.phase with
  | .writing hold r =>
      { w with items := w.items.rollback k }.goto k request
        (.writing hold { r with left := [], fate := .rolledBack })
  | _ => w.goto k request .gaveUp

def step (hashing : Hashing) (w : World) : Action → Option World
  | .arrive call => some { w with requests := w.requests ++ [⟨call, .looking⟩] }
  | .advance k => w.requests[k]?.bind (w.advance hashing k)
  | .fail k => w.requests[k]?.bind fun request =>
      if request.phase.isEnded then none else some (w.rollback k request)

/-- Nobody has submitted yet. -/
def start (db : Database) : World :=
  ⟨db.readingLists.rows, .old db.readingListItems.rows, [], []⟩

end World

/-! ### What a step does -/

/-- What becomes of a submission, and of the tables and the commits. -/
inductive Next (hashing : Hashing) (w : World) (k : Nat) (call : Call) :
    Phase → Phase → List ReadingList → Heap ReadingListItem Nat → List Nat → Prop where
  | misses (nobody : w.lists.filter (call.finds hashing) = []) :
      Next hashing w k call .looking (.entering ⟨call.list hashing, 0⟩) w.lists w.items w.commits
  | finds (list : ReadingList) (only : w.lists.filter (call.finds hashing) = [list]) :
      Next hashing w k call .looking (.found list) w.lists w.items w.commits
  | enters (insertion : Insertion ReadingList) (index : UniqueIndex ReadingList)
      (at_ : indexes[insertion.entered]? = some index)
      (free : insertion.entry index w.lists (w.others k) = .enters) :
      Next hashing w k call (.entering insertion)
        (.entering { insertion with entered := insertion.entered + 1 }) w.lists w.items w.commits
  | begins (insertion : Insertion ReadingList) (all : indexes[insertion.entered]? = none) :
      Next hashing w k call (.entering insertion)
        (.writing (.inserted insertion) ⟨insertion.row.id, none, [], [], .open_⟩)
        w.lists w.items w.commits
  | updates (list : ReadingList)
      (free : ((call.update hashing list).sent && w.locked k list.id) = false) :
      Next hashing w k call (.found list) (.updated list.id (call.update hashing list))
        w.lists w.items w.commits
  | clears (listId : Uuid) (update : NameUpdate) :
      Next hashing w k call (.updated listId update)
        (.writing (.updated update) ⟨listId, some w.commits,
          w.items.targets w.stages.committed k fun item => item.readingListId = listId, [], .open_⟩)
        w.lists w.items w.commits
  | takes (hold : Hold) (r : Replacement ReadingListItem Uuid Nat) (pending : r.fate = .open_)
      (i : Nat) (rest : List Nat) (next : r.left = i :: rest) (items : Heap ReadingListItem Nat)
      (taken : w.items.deleteAt w.stages.committed k i = some items) :
      Next hashing w k call (.writing hold r) (.writing hold { r with left := rest })
        w.lists items w.commits
  | inserts (hold : Hold) (r : Replacement ReadingListItem Uuid Nat) (pending : r.fate = .open_)
      (emptied : r.left = []) (item : ReadingListItem)
      (next : (call.tx.items r.group)[r.inserted.length]? = some item) :
      Next hashing w k call (.writing hold r)
        (.writing hold { r with inserted := r.inserted ++ [item] })
        w.lists (w.items.insert k item) w.commits
  | commits (hold : Hold) (r : Replacement ReadingListItem Uuid Nat) (pending : r.fate = .open_)
      (emptied : r.left = []) (all : (call.tx.items r.group)[r.inserted.length]? = none) :
      Next hashing w k call (.writing hold r) (.writing hold { r with fate := .committed })
        (hold.commit r.group w.lists) w.items (w.commits ++ [k])
  | rollsBack (hold : Hold) (r : Replacement ReadingListItem Uuid Nat) (pending : r.fate = .open_) :
      Next hashing w k call (.writing hold r)
        (.writing hold { r with left := [], fate := .rolledBack })
        w.lists (w.items.rollback k) w.commits
  | givesUp (phase : Phase) (before : phase.replacement = none) (going : phase.isEnded = false) :
      Next hashing w k call phase .gaveUp w.lists w.items w.commits

variable {hashing : Hashing} {w v : World} {k : Nat} {request : Request} {call : Call}

theorem advance_next (advanced : w.advance hashing k request = some v) :
    ∃ phase lists items commits,
      Next hashing w k request.call request.phase phase lists items commits ∧
      v = ⟨lists, items, w.requests.set k { request with phase }, commits⟩ := by
  unfold World.advance at advanced
  split at advanced
  case h_1 is =>
    split at advanced
    case h_1 nobody =>
      obtain rfl := Option.some.inj advanced
      exact ⟨_, _, _, _, is ▸ .misses nobody, rfl⟩
    case h_2 list only =>
      obtain rfl := Option.some.inj advanced
      exact ⟨_, _, _, _, is ▸ .finds list only, rfl⟩
    case h_3 =>
      obtain rfl := Option.some.inj advanced
      exact ⟨_, _, _, _, .givesUp _ (by rw [is]; rfl) (by rw [is]; rfl), rfl⟩
  case h_2 insertion is =>
    split at advanced
    case h_1 index at_ =>
      split at advanced
      case h_1 free =>
        obtain rfl := Option.some.inj advanced
        exact ⟨_, _, _, _, is ▸ .enters insertion index at_ free, rfl⟩
      case h_2 => cases advanced
      case h_3 =>
        obtain rfl := Option.some.inj advanced
        exact ⟨_, _, _, _, .givesUp _ (by rw [is]; rfl) (by rw [is]; rfl), rfl⟩
    case h_2 all =>
      obtain rfl := Option.some.inj advanced
      exact ⟨_, _, _, _, is ▸ .begins insertion all, rfl⟩
  case h_3 list is =>
    dsimp only at advanced
    split at advanced
    case isTrue => cases advanced
    case isFalse free =>
      obtain rfl := Option.some.inj advanced
      exact ⟨_, _, _, _, is ▸ .updates list (Bool.eq_false_iff.mpr free), rfl⟩
  case h_4 listId update is =>
    obtain rfl := Option.some.inj advanced
    exact ⟨_, _, _, _, is ▸ .clears listId update, rfl⟩
  case h_5 hold r is =>
    split at advanced
    case isTrue pending =>
      unfold World.write at advanced
      split at advanced
      case h_1 i rest next =>
        obtain ⟨items, taken, made⟩ := Option.bind_eq_some_iff.mp advanced
        obtain rfl := Option.some.inj made
        exact ⟨_, _, _, _, is ▸ .takes hold r pending i rest next items taken, rfl⟩
      case h_2 emptied =>
        split at advanced
        case h_1 item next =>
          obtain rfl := Option.some.inj advanced
          exact ⟨_, _, _, _, is ▸ .inserts hold r pending emptied item next, rfl⟩
        case h_2 all =>
          obtain rfl := Option.some.inj advanced
          exact ⟨_, _, _, _, is ▸ .commits hold r pending emptied all, rfl⟩
    case isFalse => cases advanced
  case h_6 => cases advanced

theorem rollback_next (going : request.phase.isEnded = false) :
    ∃ phase lists items commits,
      Next hashing w k request.call request.phase phase lists items commits ∧
      w.rollback k request = ⟨lists, items, w.requests.set k { request with phase }, commits⟩ := by
  unfold World.rollback
  split
  case h_1 hold r is =>
    have pending : r.fate = .open_ := by simpa [is, Phase.isEnded] using going
    exact ⟨_, _, _, _, is ▸ .rollsBack hold r pending, rfl⟩
  case h_2 other =>
    refine ⟨_, _, _, _, .givesUp _ ?_ going, rfl⟩
    unfold Phase.replacement
    split
    case h_1 hold r is => exact absurd is (other hold r)
    case h_2 => rfl

/-- A step adds a submission, or takes one on. -/
theorem step_cases {action : Action} (stepped : w.step hashing action = some v) :
    (∃ call, action = .arrive call ∧ v = { w with requests := w.requests ++ [⟨call, .looking⟩] }) ∨
    ∃ k request phase lists items commits, w.requests[k]? = some request ∧
      Next hashing w k request.call request.phase phase lists items commits ∧
      v = ⟨lists, items, w.requests.set k { request with phase }, commits⟩ := by
  cases action with
  | arrive call => exact .inl ⟨call, rfl, (Option.some.inj stepped).symm⟩
  | advance k =>
      obtain ⟨request, there, advanced⟩ := Option.bind_eq_some_iff.mp stepped
      obtain ⟨phase, lists, items, commits, next, is⟩ := advance_next advanced
      exact .inr ⟨k, request, phase, lists, items, commits, there, next, is⟩
  | fail k =>
      obtain ⟨request, there, failed⟩ := Option.bind_eq_some_iff.mp stepped
      split at failed
      · cases failed
      case isFalse going =>
        obtain ⟨phase, lists, items, commits, next, is⟩ :=
          @rollback_next hashing w k request (Bool.eq_false_iff.mpr going)
        exact .inr ⟨k, request, phase, lists, items, commits, there, next,
          (Option.some.inj failed).symm.trans is⟩

/-! ### What holds of a submission -/

/-- The list is there, and the submission's own. -/
def HasList (hashing : Hashing) (lists : List ReadingList) (call : Call) (listId : Uuid) : Prop :=
  ∃ list ∈ lists, list.id = listId ∧ call.finds hashing list

/-- What is written into the table of lists is the submission's own, or will be. -/
def Hold.Kept (hashing : Hashing) (lists : List ReadingList) (call : Call)
    (r : Replacement ReadingListItem Uuid Nat) : Hold → Prop
  | .inserted insertion => insertion.row = call.list hashing ∧ r.group = insertion.row.id ∧
      indexes.length ≤ insertion.entered ∧ (r.fate = .committed → HasList hashing lists call r.group)
  | .updated _ => HasList hashing lists call r.group

/-- The items inserted are the first of those sent, and all of them in the end. -/
def Sends (call : Call) (r : Replacement ReadingListItem Uuid Nat) : Prop :=
  r.inserted <+: call.tx.items r.group ∧
    (r.fate = .committed → r.inserted = call.tx.items r.group)

/-- The commits that the `DELETE` has seen were before the submission's own. -/
def SeesPast (commits : List Nat) (k : Nat) (r : Replacement ReadingListItem Uuid Nat) : Prop :=
  ∀ seen, r.seen = some seen → ∃ before, seen <+: before ∧ before <+: commits ∧
    (r.fate = .committed → before ++ [k] <+: commits)

/-- What holds of a submission at each point. -/
def Kept (hashing : Hashing) (lists : List ReadingList) (commits : List Nat) (k : Nat)
    (request : Request) : Prop :=
  match request.phase with
  | .looking => True
  | .entering insertion => insertion.row = request.call.list hashing
  | .found list => HasList hashing lists request.call list.id
  | .updated listId _ => HasList hashing lists request.call listId
  | .writing hold r => hold.Kept hashing lists request.call r ∧ Sends request.call r ∧
      SeesPast commits k r
  | .gaveUp => True

section

variable {lists : List ReadingList} {commits : List Nat} {listId : Uuid}
  {r : Replacement ReadingListItem Uuid Nat}

theorem finds_list (hashing : Hashing) (call : Call) : call.finds hashing (call.list hashing) := by
  simp [Call.finds, Call.list, newList]

/-- Nobody takes a list away. -/
theorem HasList.commit (has : HasList hashing lists call listId) (other : Uuid) (hold : Hold) :
    HasList hashing (hold.commit other lists) call listId := by
  obtain ⟨list, mem, id, own⟩ := has
  cases hold with
  | inserted insertion => exact ⟨list, List.mem_append_left _ mem, id, own⟩
  | updated update =>
      refine ⟨_, List.mem_map_of_mem mem, ?_⟩
      split <;> exact ⟨id, own⟩

theorem Hold.Kept.commit {hold : Hold} (kept : hold.Kept hashing lists call r) (listId : Uuid)
    (other : Hold) : hold.Kept hashing (other.commit listId lists) call r := by
  cases hold with
  | inserted insertion =>
      exact ⟨kept.1, kept.2.1, kept.2.2.1, fun done => (kept.2.2.2 done).commit listId other⟩
  | updated update => exact HasList.commit kept listId other

theorem SeesPast.append (past : SeesPast commits k r) (more : List Nat) :
    SeesPast (commits ++ more) k r := fun seen isSeen => by
  obtain ⟨before, earlier, sofar, own⟩ := past seen isSeen
  exact ⟨before, earlier, sofar.trans (List.prefix_append ..),
    fun done => (own done).trans (List.prefix_append ..)⟩

/-- What holds of a submission when another one is committed. -/
theorem Kept.commit (kept : Kept hashing lists commits k request) (listId : Uuid) (other : Hold)
    (more : List Nat) : Kept hashing (other.commit listId lists) (commits ++ more) k request := by
  unfold Kept at kept ⊢
  split at kept
  · trivial
  · exact kept
  · exact HasList.commit kept listId other
  · exact HasList.commit kept listId other
  · exact ⟨kept.1.commit listId other, kept.2.1, kept.2.2.append more⟩
  · trivial

theorem hasList_of_filter {list : ReadingList} (only : lists.filter (call.finds hashing) = [list]) :
    HasList hashing lists call list.id := by
  have mem : list ∈ lists.filter (call.finds hashing) := only ▸ List.mem_singleton_self list
  exact ⟨list, (List.mem_filter.mp mem).1, rfl, (List.mem_filter.mp mem).2⟩

end

/-- What a submission does keeps what holds of it. -/
theorem kept_next {phase : Phase} {lists : List ReadingList} {items : Heap ReadingListItem Nat}
    {commits : List Nat} (kept : Kept hashing w.lists w.commits k request)
    (next : Next hashing w k request.call request.phase phase lists items commits) :
    Kept hashing lists commits k { request with phase } := by
  unfold Kept at kept
  generalize request.phase = before at next kept
  cases next with
  | misses => rfl
  | finds list only => exact hasList_of_filter only
  | enters insertion index at_ free => exact kept
  | begins insertion all =>
      refine ⟨⟨kept, rfl, List.getElem?_eq_none_iff.mp all, nofun⟩, ⟨List.nil_prefix, nofun⟩, ?_⟩
      exact fun seen isSeen => nomatch isSeen
  | updates list free => exact kept
  | clears listId update =>
      refine ⟨kept, ⟨List.nil_prefix, nofun⟩, fun seen isSeen => ?_⟩
      obtain rfl := Option.some.inj isSeen
      exact ⟨w.commits, List.prefix_rfl, List.prefix_rfl, nofun⟩
  | takes hold r pending i rest next items taken => exact kept
  | inserts hold r pending emptied item next =>
      obtain ⟨held, ⟨sent, -⟩, past⟩ := kept
      refine ⟨held, ⟨?_, fun done => ?_⟩, past⟩
      · obtain ⟨rest, isSent⟩ := sent
        cases rest with
        | nil => simp [← isSent] at next
        | cons first rest =>
            obtain rfl : first = item := by simpa [← isSent] using next
            exact ⟨rest, by rw [List.append_assoc]; exact isSent⟩
      · exact absurd (pending.symm.trans done) (by simp)
  | commits hold r pending emptied all =>
      obtain ⟨held, ⟨sent, -⟩, past⟩ := kept
      have whole : r.inserted = request.call.tx.items r.group :=
        sent.eq_of_length_le (List.getElem?_eq_none_iff.mp all)
      refine ⟨?_, ⟨sent, fun _ => whole⟩, fun seen isSeen => ?_⟩
      · cases hold with
        | inserted insertion =>
            obtain ⟨row, group, entered, -⟩ := held
            refine ⟨row, group, entered, fun _ => ⟨insertion.row, ?_, group.symm, ?_⟩⟩
            · exact List.mem_append_right _ (List.mem_singleton_self _)
            · rw [row]
              exact finds_list hashing request.call
        | updated update => exact HasList.commit held r.group (.updated update)
      · obtain ⟨before, earlier, sofar, -⟩ := past seen isSeen
        exact ⟨w.commits, earlier.trans sofar, List.prefix_append .., fun _ => List.prefix_rfl⟩
  | rollsBack hold r pending =>
      obtain ⟨held, ⟨sent, -⟩, past⟩ := kept
      refine ⟨?_, ⟨sent, nofun⟩, fun seen isSeen => ?_⟩
      · cases hold with
        | inserted insertion => exact ⟨held.1, held.2.1, held.2.2.1, nofun⟩
        | updated update => exact held
      · obtain ⟨before, earlier, sofar, -⟩ := past seen isSeen
        exact ⟨before, earlier, sofar, nofun⟩
  | givesUp => trivial

/-! ### The tables -/

theorem insertions_of (there : w.requests[k]? = some request) :
    w.insertions k = request.phase.insertion := by
  simp [World.insertions, perTransaction, there]

theorem stages_of (there : w.requests[k]? = some request) :
    w.stages k = request.phase.replacement := by
  simp [World.stages, perTransaction, there]

theorem insertions_set (there : w.requests[k]? = some request) (lists : List ReadingList)
    (items : Heap ReadingListItem Nat) (phase : Phase) (commits : List Nat) :
    World.insertions ⟨lists, items, w.requests.set k { request with phase }, commits⟩ =
      Function.update w.insertions k phase.insertion :=
  perTransaction_set (fun request : Request => request.phase.insertion) there _

theorem stages_set (there : w.requests[k]? = some request) (lists : List ReadingList)
    (items : Heap ReadingListItem Nat) (phase : Phase) (commits : List Nat) :
    World.stages ⟨lists, items, w.requests.set k { request with phase }, commits⟩ =
      Function.update w.stages k phase.replacement :=
  perTransaction_set (fun request : Request => request.phase.replacement) there _

theorem insertions_arrive (w : World) (call : Call) :
    World.insertions { w with requests := w.requests ++ [⟨call, .looking⟩] } = w.insertions :=
  perTransaction_append (fun request : Request => request.phase.insertion) w.requests rfl

theorem stages_arrive (w : World) (call : Call) :
    World.stages { w with requests := w.requests ++ [⟨call, .looking⟩] } = w.stages :=
  perTransaction_append (fun request : Request => request.phase.replacement) w.requests rfl

theorem othersOf (w : World) (k : Nat) : OthersOf w.insertions k (w.others k) :=
  othersOf_perTransaction (fun request : Request => request.phase.insertion) w.requests k

/-- No index looks at the name. -/
theorem clash_updated (update : NameUpdate) (listId : Uuid) (index : UniqueIndex ReadingList)
    (mem : index ∈ indexes) (a b : ReadingList) :
    index.Clash (if a.id = listId then update.on a else a) b ↔ index.Clash a b := by
  simp only [indexes, List.mem_cons, List.not_mem_nil, or_false] at mem
  rcases mem with rfl | rfl <;> split <;> rfl

/-- What holds of all submissions, when one is left with what it has. -/
theorem update_same {α : Type} {f : Nat → α} {a : α} (P : (Nat → α) → Prop) (same : f k = a)
    (holds : P f) : P (Function.update f k a) := by
  rwa [← same, Function.update_eq_self]

/-- The lists stay apart in the indexes they have been entered into. -/
theorem apart_next {phase : Phase} {lists : List ReadingList} {items : Heap ReadingListItem Nat}
    {commits : List Nat} (there : w.requests[k]? = some request)
    (kept : Kept hashing w.lists w.commits k request)
    (next : Next hashing w k request.call request.phase phase lists items commits)
    (apart : Apart indexes w.lists w.insertions) :
    Apart indexes lists (Function.update w.insertions k phase.insertion) := by
  have own := insertions_of there
  unfold Kept at kept
  generalize request.phase = before at next own kept
  cases next with
  | misses => exact apart.begin k _
  | finds | updates | clears => exact apart.drop k
  | enters insertion index at_ free => exact apart.enter own at_ (othersOf w k) free
  | begins insertion all => exact update_same (Apart indexes w.lists) own apart
  | takes hold r pending | inserts hold r pending =>
      exact update_same (Apart indexes w.lists) (own.trans (by cases hold <;> rfl)) apart
  | commits hold r pending emptied all =>
      have ended : (Phase.writing hold { r with fate := .committed }).insertion = none := by
        cases hold <;> rfl
      rw [ended]
      cases hold with
      | inserted insertion =>
          have own : w.insertions k = some insertion := own.trans (if_pos pending)
          exact apart.commit own kept.1.2.2.1
      | updated update => exact (apart.drop k).map (clash_updated update r.group)
  | rollsBack hold r pending =>
      have ended : (Phase.writing hold { r with left := [], fate := .rolledBack }).insertion = none := by
        cases hold <;> rfl
      rw [ended]
      exact apart.drop k
  | givesUp => exact apart.drop k

/-- The items stay those of whole submissions. -/
theorem whole_next {old : List ReadingListItem} {phase : Phase} {lists : List ReadingList}
    {items : Heap ReadingListItem Nat} {commits : List Nat} (there : w.requests[k]? = some request)
    (complete : ∀ j, j ∈ w.commits ↔ w.stages.committed j)
    (next : Next hashing w k request.call request.phase phase lists items commits)
    (whole : Whole (·.readingListId) old w.stages w.items) :
    Whole (·.readingListId) old (Function.update w.stages k phase.replacement) items := by
  have own := stages_of there
  generalize request.phase = before at next own
  cases next with
  | misses | finds | enters | updates =>
      exact update_same (Whole (·.readingListId) old · w.items) own whole
  | begins insertion all => exact whole.begin own _
  | clears listId update => exact whole.beginDelete own listId complete
  | takes hold r pending i rest next items taken => exact whole.take own pending next taken
  | inserts hold r pending emptied item next =>
      exact whole.insert own pending emptied (Transaction.readingListId_of_mem (List.mem_of_getElem? next))
  | commits hold r pending emptied all => exact whole.commit own pending emptied
  | rollsBack hold r pending => exact whole.rollback own pending
  | givesUp phase before =>
      exact update_same (Whole (·.readingListId) old · w.items) (own.trans before) whole

theorem inOrder_next {old : List ReadingListItem} {phase : Phase} {lists : List ReadingList}
    {items : Heap ReadingListItem Nat} {commits : List Nat} (there : w.requests[k]? = some request)
    (next : Next hashing w k request.call request.phase phase lists items commits)
    (whole : Whole (·.readingListId) old w.stages w.items) (ordered : InOrder w.stages w.items) :
    InOrder (Function.update w.stages k phase.replacement) items := by
  have own := stages_of there
  generalize request.phase = before at next own
  cases next with
  | misses | finds | enters | updates =>
      exact update_same (InOrder · w.items) own ordered
  | begins insertion all => exact ordered.stay (Replacement.inOrder_of_nil rfl ..)
  | clears listId update => exact ordered.beginDelete whole own listId _ _
  | takes hold r pending i rest next items taken => exact ordered.take own next taken
  | inserts hold r pending emptied item next =>
      exact ordered.insert (r := { r with inserted := r.inserted ++ [item] }) emptied item
  | commits hold r pending emptied all =>
      exact ordered.stay (Replacement.inOrder_of_nil (r := { r with fate := .committed }) emptied ..)
  | rollsBack hold r pending => exact ordered.rollback rfl
  | givesUp phase before =>
      exact update_same (InOrder · w.items) (own.trans before) ordered

/-- The commits are those of the submissions. -/
theorem complete_next {phase : Phase} {lists : List ReadingList} {items : Heap ReadingListItem Nat}
    {commits : List Nat} (there : w.requests[k]? = some request)
    (complete : ∀ j, j ∈ w.commits ↔ w.stages.committed j) (distinct : w.commits.Nodup)
    (next : Next hashing w k request.call request.phase phase lists items commits) :
    (∀ j, j ∈ commits ↔ Replacements.committed (Function.update w.stages k phase.replacement) j) ∧
      commits.Nodup := by
  have own := stages_of there
  -- a step that commits nothing
  have stays {phase : Phase} (before : ¬ w.stages.committed k)
      (after : phase.replacement.any (·.fate = .committed) = false) (j : Nat) :
      j ∈ w.commits ↔ Replacements.committed (Function.update w.stages k phase.replacement) j := by
    rw [complete j]
    by_cases same : j = k
    · subst same
      simpa [Replacements.committed, after] using before
    · simp [Replacements.committed, Function.update_of_ne same]
  have pendingOf {hold : Hold} {r : Replacement ReadingListItem Uuid Nat}
      (is : w.stages k = some r) (pending : r.fate = .open_) : ¬ w.stages.committed k := by
    simp [Replacements.committed, is, pending]
  generalize request.phase = before at next own
  cases next with
  | commits hold r pending emptied all =>
      have new : k ∉ w.commits := fun mem => by
        have committed := (complete k).mp mem
        simp [Replacements.committed, own, Phase.replacement, pending] at committed
      refine ⟨fun j => ?_, List.nodup_append.mpr ⟨distinct, List.nodup_singleton k, ?_⟩⟩
      · by_cases same : j = k
        · subst same
          simp [Replacements.committed, Phase.replacement]
        · simp [Replacements.committed, same, complete j]
      · rintro a mem b last rfl
        exact new (List.mem_singleton.mp last ▸ mem)
  | misses | finds | enters | updates | begins | clears =>
      exact ⟨stays (by simp [Replacements.committed, own, Phase.replacement]) rfl, distinct⟩
  | takes hold r pending | inserts hold r pending | rollsBack hold r pending =>
      exact ⟨stays (by simp [Replacements.committed, own, Phase.replacement, pending])
        (by simp [Phase.replacement, pending]), distinct⟩
  | givesUp phase before =>
      exact ⟨stays (by simp [Replacements.committed, own, before]) rfl, distinct⟩

/-- The other submissions see that one more is committed, or nothing. -/
theorem others_next {before phase : Phase} {lists : List ReadingList} {items : Heap ReadingListItem Nat}
    {commits : List Nat} (next : Next hashing w k call before phase lists items commits) :
    (lists = w.lists ∧ commits = w.commits) ∨
      ∃ (hold : Hold) (listId : Uuid), lists = hold.commit listId w.lists ∧
        commits = w.commits ++ [k] := by
  cases next with
  | commits hold r pending emptied all => exact .inr ⟨hold, r.group, rfl, rfl⟩
  | _ => exact .inl ⟨rfl, rfl⟩

/-! ### Every run -/

/-- What holds at every point of every run from `db`. -/
structure Inv (hashing : Hashing) (db : Database) (w : World) : Prop where
  apart : Apart indexes w.lists w.insertions
  whole : Whole (·.readingListId) db.readingListItems.rows w.stages w.items
  ordered : InOrder w.stages w.items
  kept : ∀ k request, w.requests[k]? = some request → Kept hashing w.lists w.commits k request
  complete : ∀ k, k ∈ w.commits ↔ w.stages.committed k
  distinct : w.commits.Nodup

theorem inv_start (hashing : Hashing) (db : Database) : Inv hashing db (World.start db) where
  apart :=
    { rows := db.readingLists.distinct.imp fun apart index mem clash => by
        simp only [indexes, List.mem_cons, List.not_mem_nil, or_false] at mem
        rcases mem with rfl | rfl
        · exact apart (.inl clash)
        · exact apart (.inr (Prod.mk.inj clash))
      entered := fun k own is => by simp [World.insertions, World.start, perTransaction] at is
      open_ := fun k own k' other is => by simp [World.insertions, World.start, perTransaction] at is }
  whole := .start (fun k => by simp [World.stages, World.start, perTransaction]) _
  ordered k r is := by simp [World.stages, World.start, perTransaction] at is
  kept k request there := by simp [World.start] at there
  complete k := by simp [World.start, World.stages, Replacements.committed, perTransaction]
  distinct := List.nodup_nil

theorem inv_step {db : Database} {action : Action} (inv : Inv hashing db w)
    (stepped : w.step hashing action = some v) : Inv hashing db v := by
  rcases step_cases stepped with
    ⟨call, rfl, rfl⟩ | ⟨k, request, phase, lists, items, commits, there, next, rfl⟩
  · refine
      { apart := (insertions_arrive w call).symm ▸ inv.apart
        whole := (stages_arrive w call).symm ▸ inv.whole
        ordered := (stages_arrive w call).symm ▸ inv.ordered
        kept := fun k request there => ?_
        complete := (stages_arrive w call).symm ▸ inv.complete
        distinct := inv.distinct }
    by_cases old : k < w.requests.length
    · exact inv.kept k request (by rwa [List.getElem?_append_left old] at there)
    · rw [List.getElem?_append_right (Nat.le_of_not_lt old)] at there
      obtain rfl := List.mem_singleton.mp (List.mem_of_getElem? there)
      trivial
  · have own := inv.kept k request there
    obtain ⟨complete, distinct⟩ := complete_next there inv.complete inv.distinct next
    refine
      { apart := (insertions_set there ..).symm ▸ apart_next there own next inv.apart
        whole := (stages_set there ..).symm ▸ whole_next there inv.complete next inv.whole
        ordered := (stages_set there ..).symm ▸ inOrder_next there next inv.whole inv.ordered
        kept := fun j other at_j => ?_
        complete := (stages_set there ..).symm ▸ complete
        distinct := distinct }
    by_cases same : k = j
    · subst same
      obtain ⟨inside, -⟩ := List.getElem?_eq_some_iff.mp there
      rw [List.getElem?_set_self inside] at at_j
      obtain rfl := Option.some.inj at_j
      exact kept_next own next
    · rw [List.getElem?_set_ne same] at at_j
      rcases others_next next with ⟨rfl, rfl⟩ | ⟨hold, listId, rfl, rfl⟩
      · exact inv.kept j other at_j
      · exact (inv.kept j other at_j).commit listId hold [k]

theorem inv_run {db : Database} {actions : List Action}
    (run : Run (Steps (World.step hashing)) (World.start db) actions w) : Inv hashing db w :=
  run.invariant (Inv hashing db) (fun _ _ _ inv stepped => inv_step inv stepped)
    (inv_start hashing db)

/-- The items a `SELECT` finds in a list. -/
def World.itemsOf (w : World) (listId : Uuid) : List ReadingListItem :=
  (w.items.found w.stages.committed).filter fun item => item.readingListId = listId

/-- The items that a submission sends to a list. -/
def World.sent (w : World) (listId : Uuid) (k : Nat) : List ReadingListItem :=
  (w.requests[k]?.map fun request => request.call.tx.items listId).getD []

/-- A submission that is committed, with its list. -/
def Committed (hashing : Hashing) (w : World) (k : Nat) : Prop :=
  ∃ request hold r, w.requests[k]? = some request ∧ request.phase = .writing hold r ∧
    r.fate = .committed ∧ HasList hashing w.lists request.call r.group ∧
    r.inserted = request.call.tx.items r.group

/-- No submission to the list is committed after it. -/
def World.IsLast (w : World) (listId : Uuid) (k : Nat) : Prop :=
  ∃ before after r, w.commits = before ++ k :: after ∧ w.stages k = some r ∧ r.group = listId ∧
    ∀ later ∈ after, ∀ s, w.stages later = some s → s.group ≠ listId

namespace Inv

variable {db : Database}

theorem writing (inv : Inv hashing db w) {r : Replacement ReadingListItem Uuid Nat}
    (is : w.stages k = some r) : ∃ request hold, w.requests[k]? = some request ∧
      request.phase = .writing hold r ∧ hold.Kept hashing w.lists request.call r ∧
      Sends request.call r ∧ SeesPast w.commits k r := by
  obtain ⟨request, there, own⟩ := Option.bind_eq_some_iff.mp is
  have kept := inv.kept k request there
  unfold Phase.replacement at own
  split at own
  case h_1 hold r' isPhase =>
    obtain rfl := Option.some.inj own
    rw [Kept, isPhase] at kept
    exact ⟨request, hold, there, isPhase, kept⟩
  case h_2 => cases own

theorem stage_of_mem (inv : Inv hashing db w) (mem : k ∈ w.commits) :
    ∃ r, w.stages k = some r ∧ r.fate = .committed := by
  obtain ⟨r, is, fate⟩ := (Option.any_eq_true ..).mp ((inv.complete k).mp mem)
  exact ⟨r, is, of_decide_eq_true fate⟩

theorem committed (inv : Inv hashing db w) (mem : k ∈ w.commits) : Committed hashing w k := by
  obtain ⟨r, is, fate⟩ := inv.stage_of_mem mem
  obtain ⟨request, hold, there, isPhase, held, sends, -⟩ := inv.writing is
  refine ⟨request, hold, r, there, isPhase, fate, ?_, sends.2 fate⟩
  cases hold with
  | inserted insertion => exact held.2.2.2 fate
  | updated update => exact held

/-- What a submission of the list has inserted are its items. -/
theorem rowsOf_eq (inv : Inv hashing db w) {listId : Uuid}
    (stands : k ∈ w.stages.standing w.commits listId) :
    w.stages.rowsOf k = w.sent listId k := by
  obtain ⟨mem, stands⟩ := List.mem_filter.mp stands
  obtain ⟨r, is, fate⟩ := inv.stage_of_mem mem
  obtain ⟨request, hold, there, -, -, sends, -⟩ := inv.writing is
  have inGroup : r.group = listId := by
    simp only [is, Option.any_some, Bool.and_eq_true, decide_eq_true_eq] at stands
    exact stands.1
  simp [Replacements.rowsOf, World.sent, is, there, sends.2 fate, inGroup]

/-- Whoever supersedes a submission is committed after it. -/
theorem last_stands (inv : Inv hashing db w) {listId : Uuid} (last : w.IsLast listId k) :
    k ∈ w.stages.standing w.commits listId := by
  obtain ⟨before, after, r, isCommits, is, inGroup, none_⟩ := last
  have mem : k ∈ w.commits := isCommits ▸ List.mem_append_right _ List.mem_cons_self
  refine List.mem_filter.mpr ⟨mem, ?_⟩
  simp only [is, Option.any_some, inGroup, decide_true, Bool.true_and, Bool.not_eq_true',
    List.any_eq_false]
  intro later memLater supersedes
  obtain ⟨s, isLater, fate⟩ := inv.stage_of_mem memLater
  simp only [Replacements.supersedes, isLater, is, Bool.and_eq_true, decide_eq_true_eq,
    Option.any_eq_true, List.contains_iff_mem] at supersedes
  obtain ⟨⟨-, sameGroup⟩, seen, isSeen, inSeen⟩ := supersedes
  obtain ⟨-, -, -, -, -, -, past⟩ := inv.writing isLater
  obtain ⟨sofar, earlier, -, own⟩ := past seen isSeen
  obtain ⟨first, second, rfl⟩ := List.append_of_mem (earlier.subset inSeen)
  obtain ⟨rest, isRest⟩ := own fate
  -- the later one comes after `k` in the commits
  have distinct := inv.distinct
  rw [isCommits] at isRest distinct
  obtain ⟨-, tail, apart⟩ := List.nodup_append.mp distinct
  have split_ : first ++ k :: (second ++ later :: rest) = before ++ k :: after := by
    simpa using isRest
  obtain ⟨-, -, isAfter⟩ := (List.append_cons_inj_of_notMem
    (fun mem => apart k mem k List.mem_cons_self rfl) (List.nodup_cons.mp tail).1).mp split_.symm
  exact none_ later (isAfter ▸ List.mem_append_right _ List.mem_cons_self) s isLater
    (sameGroup.trans inGroup)

end Inv

/-- Whatever the interleaving and whatever fails: no two lists of a tenant have one email; a
committed submission has its list there, and has sent all of its items; the items found in a
list are those of the committed submissions that no later one has superseded, whole, and those
that were there before unless one has cleared them; and the submission to the list that was
committed last is among these. -/
theorem submissions_whole {db : Database} {actions : List Action}
    (run : Run (Steps (World.step hashing)) (World.start db) actions w) :
    (w.lists.Pairwise fun a b => ¬ a.Clash b) ∧
    (∀ k ∈ w.commits, Committed hashing w k) ∧
    (∀ listId, (w.itemsOf listId).Perm
      ((if w.commits.any (w.stages.clears listId) then [] else
          db.readingListItems.rows.filter fun item => item.readingListId = listId) ++
        (w.stages.standing w.commits listId).flatMap (w.sent listId))) ∧
    ∀ listId k, w.IsLast listId k → k ∈ w.stages.standing w.commits listId := by
  have inv := inv_run run
  refine ⟨inv.apart.rows.imp fun free => ?_, fun k mem => inv.committed mem, fun listId => ?_,
    fun listId k last => inv.last_stands last⟩
  · rintro (sameId | sameEmail)
    · exact free (.on (·.id)) (by simp [indexes]) sameId
    · exact free (.on fun l => (l.tenantId, l.emailHash)) (by simp [indexes])
        (Prod.ext sameEmail.1 sameEmail.2)
  · have sent : (w.stages.standing w.commits listId).flatMap w.stages.rowsOf =
        (w.stages.standing w.commits listId).flatMap (w.sent listId) :=
      List.flatMap_congr fun k stands => inv.rowsOf_eq stands
    rw [← sent]
    exact inv.whole.perm_found inv.distinct inv.complete listId

/-- Bob submits a book. -/
def bobCalls (workKey : String) (key : workKey ≠ "") (itemId : Uuid) : Call :=
  ⟨1, oneBook "Bob" workKey key itemId, 7⟩

/-- A new list, and after it two submissions that both begin their `DELETE` before either
inserts. -/
def mixing : List Action :=
  [.arrive (bobCalls "OL1W" (by decide) 10)] ++ List.replicate 6 (.advance 0) ++
    [.arrive (bobCalls "OL2W" (by decide) 20), .arrive (bobCalls "OL3W" (by decide) 30),
      .advance 1, .advance 2, .advance 1, .advance 2, .advance 1, .advance 2,
      .advance 1, .advance 1, .advance 1, .advance 2, .advance 2, .advance 2]

theorem mixing_whole : ∃ w, exec (World.step plainHashing) (World.start .empty) mixing = some w ∧
    w.commits = [0, 1, 2] ∧ w.stages.standing w.commits 7 = [1, 2] ∧
    (w.lists.Pairwise fun a b => ¬ a.Clash b) ∧
    (∀ k ∈ w.commits, Committed plainHashing w k) ∧
    (∀ listId, (w.itemsOf listId).Perm
      ((if w.commits.any (w.stages.clears listId) then [] else
          Database.empty.readingListItems.rows.filter fun item => item.readingListId = listId) ++
        (w.stages.standing w.commits listId).flatMap (w.sent listId))) ∧
    ∀ listId k, w.IsLast listId k → k ∈ w.stages.standing w.commits listId := by
  have traced : ((exec (World.step plainHashing) (World.start .empty) mixing).any fun w =>
      w.commits = [0, 1, 2] && w.stages.standing w.commits 7 = [1, 2]) = true := by
    decide +kernel
  obtain ⟨w, computed, final⟩ := (Option.any_eq_true ..).mp traced
  simp only [Bool.and_eq_true, decide_eq_true_eq] at final
  exact ⟨w, computed, final.1, final.2, submissions_whole (run_of_exec computed)⟩

end TenantLibrary.ReadingLists.Concurrent

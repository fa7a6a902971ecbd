import TenantLibrary.Lib.ReadCommitted
import TenantLibrary.Lib.Run
import TenantLibrary.ReadingLists.Service

/-!
Two submissions to one reading list at the same time.

Both transactions of `submit` run the same statements: the look-up of the list, an
`UPDATE` of the list if the name differs from the one read, the `DELETE` of the items,
an `INSERT` per reference, the commit. Their statements interleave under READ COMMITTED,
a `DELETE` row by row. The `SELECT`s on books between the inserts write nothing and are
left out; the `INSERT` of an item only takes a key-share lock on the list, which an
`UPDATE` of the name does not conflict with.

The `UPDATE` is the only statement that makes one submission wait for all of the other.
`replaces_iff` says that the list ends with the items of one of the two, whatever the
interleaving, exactly when both send it.
-/

namespace TenantLibrary.ReadingLists

open TenantLibrary.Lib TenantLibrary.Store

/-! ### The two transactions -/

/-- The two transactions. -/
inductive Submitter where
  | first
  | second
deriving DecidableEq, Repr

def Submitter.other : Submitter → Submitter
  | .first => .second
  | .second => .first

@[simp] theorem Submitter.other_ne (t : Submitter) : t.other ≠ t := by cases t <;> simp [other]

@[simp] theorem Submitter.other_other (t : Submitter) : t.other.other = t := by cases t <;> rfl

theorem Submitter.eq_or_eq_other (t u : Submitter) : u = t ∨ u = t.other := by
  cases t <;> cases u <;> simp [other]

/-- A submission whose email could be masked, with what its references resolve to: the
resolved book, and the id of the catalog's book. -/
structure Transaction where
  submission : Submission
  masked : (maskEmail submission.email).toOption.isSome
  resolve : Nat → Option ResolvedBook × Option Uuid
  itemId : Nat → Uuid

namespace Transaction

/-- The items it stores, in order. -/
def items (tx : Transaction) (readingListId : Uuid) : List ReadingListItem :=
  tx.submission.books.mapIdx fun i ref =>
    itemFor (tx.itemId i) readingListId ref (tx.resolve i).1 (tx.resolve i).2

/-- The list with the attributes assigned. -/
def rename (hashing : Hashing) (tx : Transaction) (list : ReadingList) : ReadingList :=
  { list with
    patronNameHash := hashPii hashing tx.submission.patronName
    patronNameMasked := maskName tx.submission.patronName }

/-- An attribute changes, so an `UPDATE` is sent. -/
def Renames (hashing : Hashing) (tx : Transaction) (list : ReadingList) : Prop :=
  tx.rename hashing list ≠ list

instance (hashing : Hashing) (tx : Transaction) (list : ReadingList) :
    Decidable (tx.Renames hashing list) :=
  inferInstanceAs (Decidable (_ ≠ _))

theorem items_ne_nil (tx : Transaction) (readingListId : Uuid) : tx.items readingListId ≠ [] := by
  simpa [items] using tx.submission.nonempty

theorem readingListId_of_mem {tx : Transaction} {readingListId : Uuid} {item : ReadingListItem}
    (mem : item ∈ tx.items readingListId) : item.readingListId = readingListId := by
  obtain ⟨i, _, rfl⟩ := List.mem_mapIdx.mp mem
  unfold itemFor
  split <;> rfl

end Transaction

/-- The list and the items stored before, and two submissions with its email. -/
structure Contest (hashing : Hashing) where
  list : ReadingList
  stored : List ReadingListItem
  tx : Submitter → Transaction
  sameEmail : ∀ t, hashPii hashing (tx t).submission.email = list.emailHash

/-! ### Interleavings -/

/-- Where a transaction stands. -/
inductive Phase where
  | start
  /-- the look-up returned the list -/
  | found (list : ReadingList)
  | updated
  /-- inside the `DELETE`, with the positions not yet taken -/
  | deleting (positions : List Nat)
  | inserting (items : List ReadingListItem)
  | committed
deriving DecidableEq, Repr

structure State where
  list : Cell ReadingList Submitter
  items : Heap ReadingListItem Submitter
  phase : Submitter → Phase

namespace State

def committed (s : State) (t : Submitter) : Bool := s.phase t = .committed

def goto (s : State) (t : Submitter) (phase : Phase) : State :=
  { s with phase := Function.update s.phase t phase }

@[simp] theorem goto_list (s : State) (t : Submitter) (phase : Phase) :
    (s.goto t phase).list = s.list := rfl

@[simp] theorem goto_items (s : State) (t : Submitter) (phase : Phase) :
    (s.goto t phase).items = s.items := rfl

@[simp] theorem phase_goto (s : State) (t : Submitter) (phase : Phase) :
    (s.goto t phase).phase t = phase := Function.update_self ..

@[simp] theorem phase_goto_other (s : State) (t : Submitter) (phase : Phase) :
    (s.goto t phase).phase t.other = s.phase t.other :=
  Function.update_of_ne t.other_ne ..

@[simp] theorem phase_goto_of_other (s : State) (t : Submitter) (phase : Phase) :
    (s.goto t.other phase).phase t = s.phase t :=
  Function.update_of_ne t.other_ne.symm ..

end State

section Contest

variable {hashing : Hashing} (contest : Contest hashing)

def Contest.start : State where
  list := .old contest.list
  items := .old contest.stored
  phase _ := .start

/-- A `DELETE` of the list's items begins. -/
def Contest.beginDelete (s : State) (t : Submitter) : State :=
  s.goto t (.deleting
    (s.items.targets s.committed t fun item => item.readingListId = contest.list.id))

/-- The next step of a transaction; `none` when it has to wait or has ended. -/
def Contest.step (s : State) (t : Submitter) : Option State :=
  let tx := contest.tx t
  match s.phase t with
  | .start => some (s.goto t (.found (s.list.read t)))
  | .found list =>
      if tx.Renames hashing list then do
        let cell ← s.list.update t (tx.rename hashing list)
        return { s with list := cell }.goto t .updated
      else some (contest.beginDelete s t)
  | .updated => some (contest.beginDelete s t)
  | .deleting [] => some (s.goto t (.inserting (tx.items contest.list.id)))
  | .deleting (i :: rest) => do
      let items ← s.items.deleteAt s.committed t i
      return { s with items }.goto t (.deleting rest)
  | .inserting (item :: rest) =>
      some ({ s with items := s.items.insert t item }.goto t (.inserting rest))
  | .inserting [] => some ({ s with list := s.list.commit t }.goto t .committed)
  | .committed => none

/-- The items of the list once both transactions are committed. -/
def Contest.itemsOf (s : State) : List ReadingListItem :=
  s.items.rows.filter fun item => item.readingListId = contest.list.id

/-- In every interleaving in which both commit, the list ends with the items of one. -/
def Contest.Replaces : Prop :=
  ∀ order s, Run (Steps contest.step) contest.start order s → (∀ t, s.phase t = .committed) →
    ∃ t, (contest.itemsOf s).Perm ((contest.tx t).items contest.list.id)

/-! ### Both submissions change the name -/

/-- Before the `UPDATE`, with the list read as it was before. -/
def Phase.Early (list : ReadingList) : Phase → Prop
  | .start => True
  | .found read => read = list
  | _ => False

/-- Between the `UPDATE` and the commit. -/
def Phase.Inside : Phase → Prop
  | .updated => True
  | .deleting _ => True
  | .inserting _ => True
  | _ => False

/-- Before the `DELETE`. -/
def Phase.Clearing : Phase → Prop
  | .start => True
  | .found _ => True
  | .updated => True
  | _ => False

/-- The states the two transactions pass through when each has to send an `UPDATE`:
one of them gets the row lock, and the other does not get past its own `UPDATE` before
the first has committed. -/
inductive Contest.Serial (s : State) : Prop where
  | apart (unlocked : s.list = .old contest.list) (early : ∀ t, (s.phase t).Early contest.list)
  | running (t : Submitter) (row : ReadingList) (locked : s.list = ⟨contest.list, some (t, row)⟩)
      (inside : (s.phase t).Inside) (early : (s.phase t.other).Early contest.list)
  | next (t : Submitter) (done : s.phase t = .committed) (clearing : (s.phase t.other).Clearing)
  | clearing (t : Submitter) (done : s.phase t = .committed) (positions : List Nat)
      (deleting : s.phase t.other = .deleting positions)
      (covered : ∀ (i : Nat) v, s.items[i]? = some v → v.deletedBy = none →
        v.row.readingListId = contest.list.id → i ∈ positions)
  | refilling (t : Submitter) (done : s.phase t = .committed) (rest : List ReadingListItem)
      (inserting : s.phase t.other = .inserting rest)
      (items : contest.itemsOf s ++ rest = (contest.tx t.other).items contest.list.id)
  | finished (t : Submitter) (done : ∀ u, s.phase u = .committed)
      (items : contest.itemsOf s = (contest.tx t).items contest.list.id)

variable {contest}

/-- When the other transaction has committed, everything counts. -/
theorem State.counts_of_done {s : State} {t : Submitter} (done : s.phase t = .committed)
    (author : Submitter) : Counts s.committed t.other author := by
  rcases t.eq_or_eq_other author with rfl | rfl <;> simp [Counts, State.committed, done]

/-- A `DELETE` that begins after the other commit works on every item of the list. -/
theorem Contest.serial_beginDelete {s : State} {t : Submitter} (done : s.phase t = .committed) :
    contest.Serial (contest.beginDelete s t.other) := by
  refine .clearing t ?_ _ (State.phase_goto ..) fun i v at_i kept inList => ?_
  · rwa [Contest.beginDelete, State.phase_goto_of_other]
  · exact Heap.mem_targets_of_counts (State.counts_of_done done) at_i kept (by simpa using inList)

/-- Inserting an item appends it to the items of the list. -/
theorem Contest.itemsOf_insert (s : State) (t : Submitter) {item : ReadingListItem}
    (inList : item.readingListId = contest.list.id) :
    contest.itemsOf { s with items := s.items.insert t item } = contest.itemsOf s ++ [item] := by
  simp [Contest.itemsOf, Heap.insert, Heap.rows, inList]

section Step

variable {s after : State} {t : Submitter}

/-- A step from `apart`. -/
theorem Contest.serial_step_apart (renames : ∀ t, (contest.tx t).Renames hashing contest.list)
    (unlocked : s.list = .old contest.list) (early : ∀ t, (s.phase t).Early contest.list)
    (stepped : contest.step s t = some after) : contest.Serial after := by
  have earlyT := early t
  have earlyOther := early t.other
  cases phase : s.phase t with
  | start =>
      simp only [Contest.step, phase, Option.some.injEq] at stepped
      subst stepped
      refine .apart unlocked fun u => ?_
      rcases t.eq_or_eq_other u with rfl | rfl
      · rw [State.phase_goto, unlocked]
        rfl
      · rwa [State.phase_goto_other]
  | found list =>
      rw [phase] at earlyT
      obtain rfl : list = contest.list := earlyT
      simp only [Contest.step, phase, if_pos (renames t), unlocked, Cell.update, Cell.old] at stepped
      obtain rfl := Option.some.inj stepped
      refine .running t ((contest.tx t).rename hashing contest.list) rfl ?_ ?_
      · rw [State.phase_goto]
        trivial
      · rwa [State.phase_goto_other]
  | updated => simp [phase, Phase.Early] at earlyT
  | deleting positions => simp [phase, Phase.Early] at earlyT
  | inserting items => simp [phase, Phase.Early] at earlyT
  | committed => simp [phase, Phase.Early] at earlyT

/-- The transaction with the row lock moves on. -/
theorem Contest.serial_goto {row : ReadingList} (locked : s.list = ⟨contest.list, some (t, row)⟩)
    (early : (s.phase t.other).Early contest.list) {phase : Phase} (inside : phase.Inside) :
    contest.Serial (s.goto t phase) :=
  .running t row locked (by rwa [State.phase_goto]) (by rwa [State.phase_goto_other])

/-- A step of the transaction that holds the row lock. -/
theorem Contest.serial_step_owner {row : ReadingList}
    (locked : s.list = ⟨contest.list, some (t, row)⟩) (inside : (s.phase t).Inside)
    (early : (s.phase t.other).Early contest.list) (stepped : contest.step s t = some after) :
    contest.Serial after := by
  cases phase : s.phase t with
  | start => simp [phase, Phase.Inside] at inside
  | found list => simp [phase, Phase.Inside] at inside
  | updated =>
      simp only [Contest.step, phase, Option.some.injEq] at stepped
      exact stepped ▸ Contest.serial_goto locked early trivial
  | deleting positions =>
      cases positions with
      | nil =>
          simp only [Contest.step, phase, Option.some.injEq] at stepped
          exact stepped ▸ Contest.serial_goto locked early trivial
      | cons i rest =>
          simp only [Contest.step, phase] at stepped
          obtain ⟨items, _, next⟩ := Option.bind_eq_some_iff.mp stepped
          obtain rfl := Option.some.inj next
          apply Contest.serial_goto
          · exact locked
          · exact early
          · trivial
  | inserting items =>
      cases items with
      | nil =>
          simp only [Contest.step, phase, Option.some.injEq] at stepped
          subst stepped
          refine .next t (State.phase_goto ..) ?_
          rw [State.phase_goto_other]
          cases other : s.phase t.other <;> simp_all [Phase.Early, Phase.Clearing]
      | cons item rest =>
          simp only [Contest.step, phase, Option.some.injEq] at stepped
          subst stepped
          apply Contest.serial_goto
          · exact locked
          · exact early
          · trivial
  | committed => simp [phase, Phase.Inside] at inside

/-- The other transaction cannot pass its own `UPDATE`. -/
theorem Contest.serial_step_waiting (renames : ∀ t, (contest.tx t).Renames hashing contest.list)
    {row : ReadingList} (locked : s.list = ⟨contest.list, some (t, row)⟩)
    (inside : (s.phase t).Inside) (early : (s.phase t.other).Early contest.list)
    (stepped : contest.step s t.other = some after) : contest.Serial after := by
  cases phase : s.phase t.other with
  | start =>
      simp only [Contest.step, phase, Option.some.injEq] at stepped
      subst stepped
      refine .running t row locked ?_ ?_
      · rwa [State.phase_goto_of_other]
      · rw [State.phase_goto, locked]
        exact if_neg t.other_ne.symm
  | found list =>
      rw [phase] at early
      obtain rfl : list = contest.list := early
      have waits : s.list.update t.other ((contest.tx t.other).rename hashing contest.list) = none := by
        rw [locked]
        exact if_neg t.other_ne.symm
      simp [Contest.step, phase, if_pos (renames t.other), waits] at stepped
  | updated => simp [phase, Phase.Early] at early
  | deleting positions => simp [phase, Phase.Early] at early
  | inserting items => simp [phase, Phase.Early] at early
  | committed => simp [phase, Phase.Early] at early

/-- A committed transaction has no further step. -/
theorem Contest.step_of_done (done : s.phase t = .committed) : contest.step s t = none := by
  simp only [Contest.step, done]

theorem State.done_goto (done : s.phase t = .committed) (phase : Phase) :
    (s.goto t.other phase).phase t = .committed := by
  rwa [State.phase_goto_of_other]

/-- A step of the second transaction after the first has committed. -/
theorem Contest.serial_step_next (done : s.phase t = .committed)
    (clearing : (s.phase t.other).Clearing) (stepped : contest.step s t.other = some after) :
    contest.Serial after := by
  cases phase : s.phase t.other with
  | start =>
      simp only [Contest.step, phase, Option.some.injEq] at stepped
      subst stepped
      refine .next t (State.done_goto done _) ?_
      rw [State.phase_goto]
      trivial
  | found list =>
      simp only [Contest.step, phase] at stepped
      split at stepped
      · obtain ⟨cell, _, next⟩ := Option.bind_eq_some_iff.mp stepped
        obtain rfl := Option.some.inj next
        refine .next t (State.done_goto done _) ?_
        rw [State.phase_goto]
        trivial
      · exact Option.some.inj stepped ▸ Contest.serial_beginDelete done
  | updated =>
      simp only [Contest.step, phase, Option.some.injEq] at stepped
      exact stepped ▸ Contest.serial_beginDelete done
  | deleting positions => simp [phase, Phase.Clearing] at clearing
  | inserting items => simp [phase, Phase.Clearing] at clearing
  | committed => simp [phase, Phase.Clearing] at clearing

/-- A step of the second transaction inside its `DELETE`. -/
theorem Contest.serial_step_clearing (done : s.phase t = .committed) {positions : List Nat}
    (deleting : s.phase t.other = .deleting positions)
    (covered : ∀ (i : Nat) v, s.items[i]? = some v → v.deletedBy = none →
      v.row.readingListId = contest.list.id → i ∈ positions)
    (stepped : contest.step s t.other = some after) : contest.Serial after := by
  cases positions with
  | nil =>
      simp only [Contest.step, deleting, Option.some.injEq] at stepped
      subst stepped
      refine .refilling t (State.done_goto done _) _ (State.phase_goto ..) ?_
      have empty : contest.itemsOf s = [] := by
        rw [Contest.itemsOf, List.filter_eq_nil_iff]
        intro item mem inList
        obtain ⟨i, v, at_i, kept, rfl⟩ := Heap.mem_rows.mp mem
        exact List.not_mem_nil (covered i v at_i kept (by simpa using inList))
      change contest.itemsOf s ++ _ = _
      rw [empty, List.nil_append]
  | cons i rest =>
      simp only [Contest.step, deleting] at stepped
      obtain ⟨items, deleted, next⟩ := Option.bind_eq_some_iff.mp stepped
      obtain rfl := Option.some.inj next
      refine .clearing t (State.done_goto done _) rest (State.phase_goto ..) fun j v at_j kept inList => ?_
      have other : j ≠ i := by
        rintro rfl
        exact Heap.deletedBy_deleteAt deleted at_j kept
      have before : s.items[j]? = some v := (Heap.getElem?_deleteAt deleted other).symm.trans at_j
      exact (List.mem_cons.mp (covered j v before kept inList)).resolve_left other

/-- A step of the second transaction while it inserts its items. -/
theorem Contest.serial_step_refilling (done : s.phase t = .committed) {rest : List ReadingListItem}
    (inserting : s.phase t.other = .inserting rest)
    (items : contest.itemsOf s ++ rest = (contest.tx t.other).items contest.list.id)
    (stepped : contest.step s t.other = some after) : contest.Serial after := by
  cases rest with
  | nil =>
      simp only [Contest.step, inserting, Option.some.injEq] at stepped
      subst stepped
      refine .finished t.other (fun u => ?_) ?_
      · rcases t.eq_or_eq_other u with rfl | rfl
        · exact State.done_goto done _
        · exact State.phase_goto ..
      · rw [List.append_nil] at items
        exact items
  | cons item rest =>
      simp only [Contest.step, inserting, Option.some.injEq] at stepped
      subst stepped
      refine .refilling t (State.done_goto done _) rest (State.phase_goto ..) ?_
      have inList : item.readingListId = contest.list.id :=
        Transaction.readingListId_of_mem (items ▸ List.mem_append_right _ List.mem_cons_self)
      change contest.itemsOf { s with items := s.items.insert t.other item } ++ rest = _
      rw [Contest.itemsOf_insert s t.other inList, List.append_assoc]
      exact items

end Step

/-- Every step keeps the two transactions one after the other. -/
theorem Contest.serial_step (renames : ∀ t, (contest.tx t).Renames hashing contest.list)
    {s after : State} {t : Submitter} (serial : contest.Serial s)
    (stepped : contest.step s t = some after) : contest.Serial after := by
  have notDone {u : Submitter} (done : s.phase u = .committed) : t = u.other := by
    refine (u.eq_or_eq_other t).resolve_left fun same => ?_
    rw [same, Contest.step_of_done done] at stepped
    cases stepped
  cases serial with
  | apart unlocked early => exact Contest.serial_step_apart renames unlocked early stepped
  | running u row locked inside early =>
      rcases u.eq_or_eq_other t with rfl | rfl
      · exact Contest.serial_step_owner locked inside early stepped
      · exact Contest.serial_step_waiting renames locked inside early stepped
  | next u done clearing =>
      obtain rfl := notDone done
      exact Contest.serial_step_next done clearing stepped
  | clearing u done positions deleting covered =>
      obtain rfl := notDone done
      exact Contest.serial_step_clearing done deleting covered stepped
  | refilling u done rest inserting items =>
      obtain rfl := notDone done
      exact Contest.serial_step_refilling done inserting items stepped
  | finished u done items =>
      rw [Contest.step_of_done (done t)] at stepped
      cases stepped

/-- With both names changed the list ends with the items of one submission. -/
theorem Contest.replaces_of_renames (renames : ∀ t, (contest.tx t).Renames hashing contest.list) :
    contest.Replaces := by
  intro order s run done
  have start : contest.Serial contest.start := .apart rfl fun _ => trivial
  have serial : contest.Serial s :=
    run.invariant contest.Serial (fun _ _ _ held stepped => Contest.serial_step renames held stepped)
      start
  cases serial with
  | apart _ early => simpa [done, Phase.Early] using early .first
  | running u _ _ inside => simp [done, Phase.Inside] at inside
  | next u _ clearing => simp [done, Phase.Clearing] at clearing
  | clearing u _ _ deleting => simp [done] at deleting
  | refilling u _ _ inserting => simp [done] at inserting
  | finished t _ items => exact ⟨t, .of_eq items⟩

/-! ### A submission that leaves the name as it is -/

section Mixing

variable {s : State} {t : Submitter}

/-- What a step of `t` does to its own phase does not change what counts for it. -/
theorem State.counts_goto (s : State) (t : Submitter) (phase : Phase) :
    Counts (s.goto t phase).committed t = Counts s.committed t := by
  funext author
  rcases t.eq_or_eq_other author with rfl | rfl
  · simp [Counts]
  · simp [Counts, State.committed]

/-- From the look-up to the `DELETE`: nothing else waits for the row lock of the list. -/
theorem Contest.run_to_delete (begins : s.phase t = .start) (reads : s.list.read t = contest.list)
    (free : s.list.writer = none ∨ ¬ (contest.tx t).Renames hashing contest.list) :
    ∃ order after, Run (Steps contest.step) s order after ∧
      (∃ positions, after.phase t = .deleting positions ∧ ∀ i ∈ positions, i < s.items.length) ∧
      after.phase t.other = s.phase t.other ∧ after.items = s.items ∧
      after.list.read t.other = s.list.read t.other := by
  have look : Steps contest.step s t (s.goto t (.found contest.list)) := by
    simp only [Steps, Contest.step, begins, reads]
  have inRange (before : State) (same : before.items = s.items) : ∀ i ∈ before.items.targets
      before.committed t (fun item => item.readingListId = contest.list.id), i < s.items.length :=
    fun i mem => same ▸ Heap.lt_of_mem_targets mem
  by_cases renames : (contest.tx t).Renames hashing contest.list
  · have unlocked := free.resolve_right (not_not.mpr renames)
    let cell : Cell ReadingList Submitter :=
      ⟨s.list.value, some (t, (contest.tx t).rename hashing contest.list)⟩
    let renamed := { s.goto t (.found contest.list) with list := cell }.goto t .updated
    have update : Steps contest.step (s.goto t (.found contest.list)) t renamed := by
      simp only [Steps, Contest.step, State.phase_goto, if_pos renames, State.goto_list,
        Cell.update, unlocked]
      rfl
    have delete : Steps contest.step renamed t (contest.beginDelete renamed t) := by
      have phase : renamed.phase t = .updated := State.phase_goto ..
      simp only [Steps, Contest.step, phase]
    refine ⟨_, _, .cons look (.cons update (.cons delete (.nil _))),
      ⟨_, State.phase_goto .., inRange renamed rfl⟩, ?_, rfl, ?_⟩
    · rw [Contest.beginDelete, State.phase_goto_other, State.phase_goto_other]
      exact State.phase_goto_other ..
    · change cell.read t.other = s.list.read t.other
      simp [Cell.read, cell, unlocked, t.other_ne.symm]
  · have delete : Steps contest.step (s.goto t (.found contest.list)) t
        (contest.beginDelete (s.goto t (.found contest.list)) t) := by
      simp only [Steps, Contest.step, State.phase_goto, if_neg renames]
    refine ⟨_, _, .cons look (.cons delete (.nil _)),
      ⟨_, State.phase_goto .., inRange (s.goto t (.found contest.list)) rfl⟩, ?_, rfl, rfl⟩
    rw [Contest.beginDelete, State.phase_goto_other, State.phase_goto_other]

/-- A `DELETE` that waits for nobody ends; it leaves the versions it does not work on. -/
theorem Contest.run_deletes {positions : List Nat} (deleting : s.phase t = .deleting positions)
    (unlocked : Heap.Unlocked s.committed t s.items) :
    ∃ order after, Run (Steps contest.step) s order after ∧
      after.phase t = .inserting ((contest.tx t).items contest.list.id) ∧
      after.phase t.other = s.phase t.other ∧ after.items.length = s.items.length ∧
      ∀ j ∉ positions, after.items[j]? = s.items[j]? := by
  induction positions generalizing s with
  | nil =>
      refine ⟨_, s.goto t (.inserting _), .cons (a := t) ?_ (.nil _), State.phase_goto ..,
        State.phase_goto_other .., rfl, fun j _ => rfl⟩
      simp only [Steps, Contest.step, deleting]
  | cons i rest ih =>
      obtain ⟨items, deleted, still⟩ := unlocked.deleteAt i
      let next := { s with items }.goto t (.deleting rest)
      have taken : Steps contest.step s t next := by
        simp only [Steps, Contest.step, deleting, deleted]
        rfl
      have unlockedNext : Heap.Unlocked next.committed t next.items := by
        have counts : Counts next.committed t = Counts s.committed t :=
          State.counts_goto { s with items } t _
        rwa [Heap.Unlocked, counts]
      obtain ⟨order, after, run, phase, other, length, kept⟩ :=
        ih (State.phase_goto { s with items } t _) unlockedNext
      refine ⟨t :: order, after, .cons taken run, phase, ?_, ?_, fun j outside => ?_⟩
      · rw [other]
        exact State.phase_goto_other ..
      · rw [length]
        exact Heap.length_deleteAt deleted
      · have notRest : j ∉ rest := fun mem => outside (List.mem_cons_of_mem _ mem)
        have notFirst : j ≠ i := fun same => outside (same ▸ List.mem_cons_self)
        rw [kept j notRest]
        exact Heap.getElem?_deleteAt deleted notFirst

/-- The rows a transaction inserts, as versions. -/
def insertedBy (t : Submitter) (items : List ReadingListItem) : Heap ReadingListItem Submitter :=
  items.map fun item => ⟨item, some t, none⟩

/-- The inserts and the commit. -/
theorem Contest.run_inserts {rest : List ReadingListItem} (inserting : s.phase t = .inserting rest) :
    ∃ order after, Run (Steps contest.step) s order after ∧ after.phase t = .committed ∧
      after.phase t.other = s.phase t.other ∧ after.items = s.items ++ insertedBy t rest := by
  induction rest generalizing s with
  | nil =>
      refine ⟨_, { s with list := s.list.commit t }.goto t .committed, .cons (a := t) ?_ (.nil _),
        State.phase_goto .., State.phase_goto_other .., (List.append_nil _).symm⟩
      simp only [Steps, Contest.step, inserting]
  | cons item rest ih =>
      let next := { s with items := s.items.insert t item }.goto t (.inserting rest)
      have inserts : Steps contest.step s t next := by
        simp only [Steps, Contest.step, inserting]
        rfl
      obtain ⟨order, after, run, phase, other, items⟩ :=
        ih (s := next) (State.phase_goto ..)
      refine ⟨t :: order, after, .cons inserts run, phase, ?_, ?_⟩
      · rw [other]
        exact State.phase_goto_other ..
      · rw [items]
        exact List.append_assoc ..

/-- From the `DELETE` to the commit. -/
theorem Contest.run_to_commit {positions : List Nat} (deleting : s.phase t = .deleting positions)
    (unlocked : Heap.Unlocked s.committed t s.items) :
    ∃ order after heap, Run (Steps contest.step) s order after ∧ after.phase t = .committed ∧
      after.phase t.other = s.phase t.other ∧
      after.items = heap ++ insertedBy t ((contest.tx t).items contest.list.id) ∧
      heap.length = s.items.length ∧ ∀ j ∉ positions, heap[j]? = s.items[j]? := by
  obtain ⟨order, middle, deletes, inserting, other, length, kept⟩ :=
    contest.run_deletes deleting unlocked
  obtain ⟨order', after, inserts, committed, other', items⟩ := contest.run_inserts inserting
  exact ⟨order ++ order', after, middle.items, deletes.append inserts, committed,
    other'.trans other, items, length, kept⟩

end Mixing

theorem Contest.filter_items (t : Submitter) :
    ((contest.tx t).items contest.list.id).filter (fun item => item.readingListId = contest.list.id) =
      (contest.tx t).items contest.list.id :=
  List.filter_eq_self.mpr fun _ mem => by simpa using Transaction.readingListId_of_mem mem

/-- If one submission leaves the name as it is, both can begin their `DELETE` on the old
items: then both sets of new items stay. -/
theorem Contest.mixes {t : Submitter} (same : ¬ (contest.tx t).Renames hashing contest.list) :
    ∃ order s, Run (Steps contest.step) contest.start order s ∧ (∀ u, s.phase u = .committed) ∧
      ∃ kept, contest.itemsOf s = kept ++ (contest.tx t).items contest.list.id ++
        (contest.tx t.other).items contest.list.id := by
  -- both look the list up and begin their `DELETE`
  obtain ⟨_, s₁, run₁, ⟨positions, deleting, inRange⟩, early, items₁, read₁⟩ :=
    contest.run_to_delete (s := contest.start) (t := t.other) rfl rfl (.inl rfl)
  rw [Submitter.other_other] at early read₁
  obtain ⟨_, s₂, run₂, ⟨_, deleting₂, _⟩, other₂, items₂, _⟩ :=
    contest.run_to_delete (t := t) early read₁ (.inr same)
  have old : s₂.items = .old contest.stored := items₂.trans items₁
  -- the first goes on to its commit
  have unlocked₂ : Heap.Unlocked s₂.committed t s₂.items := by
    intro v mem
    rw [old] at mem
    obtain ⟨_, _, rfl⟩ := List.mem_map.mp mem
    rfl
  obtain ⟨_, s₃, deleted, run₃, done₃, other₃, items₃, length₃, _⟩ :=
    contest.run_to_commit deleting₂ unlocked₂
  -- the second does not see what was inserted meanwhile
  have deleting₃ : s₃.phase t.other = .deleting positions := other₃.trans (other₂.trans deleting)
  have unlocked₃ : Heap.Unlocked s₃.committed t.other s₃.items := by
    intro v _
    cases v.deletedBy with
    | none => rfl
    | some author => exact State.counts_of_done done₃ author
  obtain ⟨_, s₄, skipped, run₄, done₄, other₄, items₄, length₄, kept₄⟩ :=
    contest.run_to_commit deleting₃ unlocked₃
  have tail : skipped.drop deleted.length =
      insertedBy t ((contest.tx t).items contest.list.id) := by
    refine List.ext_getElem? fun j => ?_
    have outside : deleted.length + j ∉ positions := fun mem => by
      have bound := inRange _ mem
      rw [length₃, old] at bound
      change _ < (Heap.old contest.stored).length at bound
      omega
    rw [List.getElem?_drop, kept₄ _ outside, items₃, List.getElem?_append_right (by omega)]
    congr 1
    omega
  obtain ⟨before, split⟩ : ∃ before : Heap ReadingListItem Submitter,
      skipped = before ++ insertedBy t ((contest.tx t).items contest.list.id) :=
    ⟨_, tail ▸ (List.take_append_drop deleted.length skipped).symm⟩
  refine ⟨_, s₄, run₁.append (run₂.append (run₃.append run₄)), fun u => ?_,
    before.rows.filter fun item => item.readingListId = contest.list.id, ?_⟩
  · rcases t.eq_or_eq_other u with rfl | rfl
    · rw [Submitter.other_other] at other₄
      exact other₄.trans done₃
    · exact done₄
  · rw [Contest.itemsOf, items₄, split]
    simp [insertedBy, Contest.filter_items]

/-- For every list, whatever items it has, and every two submissions with its email: in
every interleaving the list ends with the items of one of the two if and only if both
submissions change the patron's name hash or masked name. -/
theorem replaces_iff (contest : Contest hashing) :
    contest.Replaces ↔ ∀ t, (contest.tx t).Renames hashing contest.list := by
  constructor
  · intro replaces t
    by_contra same
    obtain ⟨order, s, run, done, kept, items⟩ := Contest.mixes same
    have nonempty (u : Submitter) : 0 < ((contest.tx u).items contest.list.id).length :=
      List.length_pos_iff.mpr ((contest.tx u).items_ne_nil contest.list.id)
    obtain ⟨u, only⟩ := replaces order s run done
    have lengths := only.length_eq
    rw [items, List.length_append, List.length_append] at lengths
    have positive := nonempty t
    have positive' := nonempty t.other
    rcases t.eq_or_eq_other u with rfl | rfl <;> omega
  · exact Contest.replaces_of_renames

end Contest

/-- No letters are changed and nothing is hidden. -/
def plainHashing : Hashing := ⟨id, id⟩

theorem masked_bob : (maskEmail "bob@example.com").toOption.isSome := by decide +kernel

theorem hashed_bob : hashPii plainHashing "bob@example.com" = "bob@example.com" := by
  decide +kernel

/-- A submission of one book that Open Library knows and the catalog does not. -/
def oneBook (patronName workKey : String) (key : workKey ≠ "") (itemId : Uuid) : Transaction where
  submission :=
    { patronName
      email := "bob@example.com"
      books := [⟨some workKey, none, .inl (by simpa [OpenLibrary.truthy] using key)⟩]
      nonempty := by simp }
  masked := masked_bob
  resolve _ := (some ⟨workKey, "", false⟩, none)
  itemId _ := itemId

/-- Bob's list with one item, and two submissions of Bob's. -/
def bobTwice (firstName secondName : String) : Contest plainHashing where
  list := ⟨7, 1, "Bob", "bob@example.com", "B**", "b*b@e*****e.com"⟩
  stored := [⟨10, 7, some "OL1W", none, none, true⟩]
  tx
    | .first => oneBook firstName "OL2W" (by simp) 20
    | .second => oneBook secondName "OL3W" (by simp) 30
  sameEmail t := by cases t <;> exact hashed_bob

/-- Under the stored name both submissions read the list and delete the old item before
either inserts: the second keeps the first one's item. -/
theorem unchanged_names_mix : ¬ (bobTwice "Bob" "Bob").Replaces := by
  intro replaces
  have computed : (exec (bobTwice "Bob" "Bob").step (bobTwice "Bob" "Bob").start
      [.first, .second, .first, .second, .first, .first, .first, .first,
        .second, .second, .second, .second]).any (fun s =>
          s.committed .first && s.committed .second &&
            (((bobTwice "Bob" "Bob").itemsOf s).map (·.id) = [20, 30])) = true := by decide +kernel
  obtain ⟨s, reached, final⟩ := (Option.any_eq_true _ _).mp computed
  simp only [Bool.and_eq_true, decide_eq_true_eq, State.committed] at final
  obtain ⟨⟨first, second⟩, mixed⟩ := final
  obtain ⟨t, only⟩ := replaces _ s (run_of_exec reached) fun t => by cases t <;> assumption
  have lengths := only.length_eq
  rw [← List.length_map (·.id), mixed] at lengths
  cases t <;> cases lengths

/-- Under two new names one of the two submissions wins. -/
theorem new_names_replace : (bobTwice "Rob" "Bert").Replaces := by
  refine (replaces_iff (bobTwice "Rob" "Bert")).mpr fun t => ?_
  cases t <;> decide +kernel

end TenantLibrary.ReadingLists

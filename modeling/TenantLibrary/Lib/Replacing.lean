import Mathlib.Data.Finset.Max
import Mathlib.Data.List.Perm.Basic
import Mathlib.Logic.Function.Basic
import TenantLibrary.Lib.ReadCommitted

/-!
Transactions that replace a group of rows, under READ COMMITTED.

Each transaction deletes the rows of its group that it sees and inserts its own, or only
inserts its own. Its `DELETE` sees the transactions that were committed when it began; the rows
of the others stay, also when these are committed before the `DELETE` ends. So what is found
are the rows of whole transactions: of those that no committed transaction has superseded
(`Whole.perm_found`).
-/

namespace TenantLibrary.Lib

variable {Row Key Tx : Type} [DecidableEq Tx]

/-! ### Rolling back -/

/-- A `SELECT` of some other transaction finds the version. -/
def Version.found (committed : Tx → Bool) (v : Version Row Tx) : Bool :=
  v.insertedBy.all committed && !v.deletedBy.any committed

namespace Heap

/-- The deletions of a transaction are undone. Its insertions never count. -/
def rollback (tx : Tx) (heap : Heap Row Tx) : Heap Row Tx :=
  heap.map fun v => if v.deletedBy = some tx then { v with deletedBy := none } else v

/-- The rows a `SELECT` of some other transaction finds. -/
def found (committed : Tx → Bool) (heap : Heap Row Tx) : List Row :=
  (heap.filter (·.found committed)).map (·.row)

/-- The rows of an author, deleted or not. -/
def writtenBy (author : Option Tx) (heap : Heap Row Tx) : List Row :=
  (heap.filter (·.insertedBy = author)).map (·.row)

/-- The versions without their deletions. -/
def origins (heap : Heap Row Tx) : List (Row × Option Tx) :=
  heap.map fun v => (v.row, v.insertedBy)

variable {committed : Tx → Bool} {tx : Tx} {heap after : Heap Row Tx} {i : Nat}

theorem writtenBy_eq (author : Option Tx) (heap : Heap Row Tx) :
    heap.writtenBy author = (heap.origins.filter (·.2 = author)).map (·.1) := by
  simp [writtenBy, origins, List.filter_map, Function.comp_def]

theorem writtenBy_of_origins (same : after.origins = heap.origins) (author : Option Tx) :
    after.writtenBy author = heap.writtenBy author := by
  rw [writtenBy_eq, same, ← writtenBy_eq]

theorem writtenBy_insert (author : Option Tx) (row : Row) :
    (heap.insert tx row).writtenBy author =
      heap.writtenBy author ++ if author = some tx then [row] else [] := by
  by_cases own : author = some tx
  · simp [writtenBy, insert, own]
  · simp [writtenBy, insert, own, Ne.symm own]

omit [DecidableEq Tx] in
theorem getElem?_insert {v : Version Row Tx} (there : heap[i]? = some v) (row : Row) :
    (heap.insert tx row)[i]? = some v := by
  obtain ⟨inside, -⟩ := List.getElem?_eq_some_iff.mp there
  rwa [insert, List.getElem?_append_left inside]

omit [DecidableEq Tx] in
/-- What stands at a position after an insertion. -/
theorem getElem?_of_insert {row : Row} {v : Version Row Tx}
    (there : (heap.insert tx row)[i]? = some v) : heap[i]? = some v ∨ v = ⟨row, some tx, none⟩ := by
  by_cases inside : i < heap.length
  · rw [insert, List.getElem?_append_left inside] at there
    exact .inl there
  · rw [insert, List.getElem?_append_right (Nat.le_of_not_lt inside)] at there
    exact .inr (List.mem_singleton.mp (List.mem_of_getElem? there))

omit [DecidableEq Tx] in
theorem mem_of_insert {row : Row} {v : Version Row Tx} (mem : v ∈ heap.insert tx row) :
    v ∈ heap ∨ v = ⟨row, some tx, none⟩ :=
  (List.mem_append.mp mem).imp_right List.mem_singleton.mp

/-- What stands at a position after one of them has been taken. -/
theorem getElem?_of_deleteAt (deleted : heap.deleteAt committed tx i = some after) {j : Nat}
    {w : Version Row Tx} (there : after[j]? = some w) :
    heap[j]? = some w ∧ (j = i → w.deletedBy.any (Counts committed tx)) ∨
    ∃ v, heap[j]? = some v ∧ v.deletedBy = none ∧ w = { v with deletedBy := some tx } := by
  rcases deleteAt_cases deleted with ⟨rfl, already⟩ | ⟨v, at_i, kept, rfl⟩
  · exact .inl ⟨there, fun same => already w (same ▸ there)⟩
  · obtain ⟨inside, -⟩ := List.getElem?_eq_some_iff.mp at_i
    by_cases same : j = i
    · subst same
      rw [List.getElem?_set_self inside] at there
      exact .inr ⟨v, at_i, kept, (Option.some.inj there).symm⟩
    · rw [List.getElem?_set_ne (Ne.symm same)] at there
      exact .inl ⟨there, fun is => absurd is same⟩

theorem mem_of_deleteAt (deleted : heap.deleteAt committed tx i = some after) {v : Version Row Tx}
    (mem : v ∈ after) : v ∈ heap ∨ ∃ w ∈ heap, v = { w with deletedBy := some tx } := by
  obtain ⟨j, there⟩ := List.mem_iff_getElem?.mp mem
  rcases getElem?_of_deleteAt deleted there with ⟨before, -⟩ | ⟨w, before, -, is⟩
  · exact .inl (List.mem_of_getElem? before)
  · exact .inr ⟨w, List.mem_of_getElem? before, is⟩

theorem origins_deleteAt (deleted : heap.deleteAt committed tx i = some after) :
    after.origins = heap.origins := by
  rcases deleteAt_cases deleted with ⟨rfl, -⟩ | ⟨v, at_i, -, rfl⟩
  · rfl
  · obtain ⟨inside, rfl⟩ := List.getElem?_eq_some_iff.mp at_i
    rw [origins, List.map_set]
    refine List.ext_getElem (by simp [origins]) fun j _ _ => ?_
    by_cases same : i = j
    · subst same
      simp [origins]
    · simp [origins, same]

theorem origins_rollback : (heap.rollback tx).origins = heap.origins := by
  simp only [origins, rollback, List.map_map]
  refine List.map_congr_left fun v _ => ?_
  by_cases own : v.deletedBy = some tx <;> simp [own]

/-- What stands at a position after a rollback. -/
theorem getElem?_of_rollback {j : Nat} {w : Version Row Tx}
    (there : (heap.rollback tx)[j]? = some w) :
    heap[j]? = some w ∧ w.deletedBy ≠ some tx ∨
    ∃ v, heap[j]? = some v ∧ v.deletedBy = some tx ∧ w = { v with deletedBy := none } := by
  rw [rollback, List.getElem?_map] at there
  obtain ⟨v, at_j, rfl⟩ := Option.map_eq_some_iff.mp there
  by_cases own : v.deletedBy = some tx
  · exact .inr ⟨v, at_j, own, if_pos own⟩
  · exact .inl ⟨by rw [if_neg own]; exact at_j, by rw [if_neg own]; exact own⟩

theorem mem_of_rollback {v : Version Row Tx} (mem : v ∈ heap.rollback tx) :
    v ∈ heap ∧ v.deletedBy ≠ some tx ∨ ∃ w ∈ heap, v = { w with deletedBy := none } := by
  obtain ⟨j, there⟩ := List.mem_iff_getElem?.mp mem
  rcases getElem?_of_rollback there with ⟨before, other⟩ | ⟨w, before, -, is⟩
  · exact .inl ⟨List.mem_of_getElem? before, other⟩
  · exact .inr ⟨w, List.mem_of_getElem? before, is⟩

omit [DecidableEq Tx] in
/-- A position keeps its row and its author. -/
theorem getElem?_of_origins (same : after.origins = heap.origins) {v : Version Row Tx}
    (there : heap[i]? = some v) :
    ∃ w, after[i]? = some w ∧ w.row = v.row ∧ w.insertedBy = v.insertedBy := by
  have origin : after.origins[i]? = some (v.row, v.insertedBy) := by
    rw [same, origins, List.getElem?_map, there, Option.map_some]
  rw [origins, List.getElem?_map] at origin
  obtain ⟨w, at_i, is⟩ := Option.map_eq_some_iff.mp origin
  exact ⟨w, at_i, Prod.mk.inj is⟩

omit [DecidableEq Tx] in
theorem mem_of_origins (same : after.origins = heap.origins) {v : Version Row Tx} (mem : v ∈ after) :
    ∃ w ∈ heap, w.row = v.row ∧ w.insertedBy = v.insertedBy := by
  obtain ⟨i, there⟩ := List.mem_iff_getElem?.mp mem
  obtain ⟨w, at_i, is⟩ := getElem?_of_origins same.symm there
  exact ⟨w, List.mem_of_getElem? at_i, is⟩

end Heap

/-! ### Transactions -/

inductive Fate where
  | open_
  | committed
  | rolledBack
deriving DecidableEq, Repr

/-- What a transaction does to its group; `seen` are the transactions that were committed when
its `DELETE` began, if it sends one. No step reads `seen`. -/
structure Replacement (Row Key Tx : Type) where
  group : Key
  seen : Option (List Tx)
  /-- the positions the `DELETE` has not taken -/
  left : List Nat
  inserted : List Row
  fate : Fate
deriving DecidableEq, Repr

/-- The transactions that have begun to write. -/
abbrev Replacements (Row Key Tx : Type) := Tx → Option (Replacement Row Key Tx)

def Replacements.committed (stages : Replacements Row Key Tx) (tx : Tx) : Bool :=
  (stages tx).any (·.fate = .committed)

/-- The `DELETE` of a transaction that sees these works on the version. -/
def InView (key : Row → Key) (group : Key) (seen : List Tx) (v : Version Row Tx) : Prop :=
  key v.row = group ∧ ∀ author, v.insertedBy = some author → author ∈ seen

omit [DecidableEq Tx] in
/-- Deletions do not matter. -/
theorem InView.congr {key : Row → Key} {group : Key} {seen : List Tx} {v w : Version Row Tx}
    (inView : InView key group seen v) (row : w.row = v.row) (author : w.insertedBy = v.insertedBy) :
    InView key group seen w := by
  unfold InView at inView ⊢
  rwa [row, author]

/-- What holds of one transaction and the heap. -/
structure Replacement.Kept (key : Row → Key) (committed : Tx → Bool) (heap : Heap Row Tx) (tx : Tx)
    (r : Replacement Row Key Tx) : Prop where
  inserted : heap.writtenBy (some tx) = r.inserted
  group : ∀ v ∈ heap, v.insertedBy = some tx → key v.row = r.group
  deleted : ∀ v ∈ heap, v.deletedBy = some tx →
    r.fate ≠ .rolledBack ∧ ∃ seen, r.seen = some seen ∧ InView key r.group seen v
  left : ∀ i ∈ r.left, ∃ v seen, heap[i]? = some v ∧ r.seen = some seen ∧ InView key r.group seen v
  cleared : r.fate ≠ .rolledBack → ∀ seen, r.seen = some seen →
    ∀ (i : Nat) v, heap[i]? = some v → InView key r.group seen v →
      i ∈ r.left ∨ v.deletedBy.any (Counts committed tx)
  seen : ∀ seen, r.seen = some seen → ∀ author ∈ seen, committed author
  done : r.fate = .committed → r.left = []

/-- What holds of all of them; `old` are the rows that were there before. -/
structure Whole (key : Row → Key) (old : List Row) (stages : Replacements Row Key Tx)
    (heap : Heap Row Tx) : Prop where
  old : heap.writtenBy none = old
  known : ∀ v ∈ heap, ∀ tx, v.insertedBy = some tx ∨ v.deletedBy = some tx → (stages tx).isSome
  kept : ∀ tx r, stages tx = some r → r.Kept key stages.committed heap tx

section

variable {key : Row → Key} {committed committed' : Tx → Bool} {heap after : Heap Row Tx} {tx other : Tx}
  {r : Replacement Row Key Tx}

theorem any_counts_mono (grows : ∀ author, committed author → committed' author)
    {deleter : Option Tx} (counts : deleter.any (Counts committed tx)) :
    deleter.any (Counts committed' tx) := by
  obtain ⟨author, rfl, counts⟩ := (Option.any_eq_true ..).mp counts
  simp only [Option.any_some, Counts, Bool.or_eq_true, decide_eq_true_eq] at counts ⊢
  exact counts.imp_right (grows author)

/-! ### The other transactions -/

namespace Replacement.Kept

/-- More transactions are committed. -/
theorem mono (kept : r.Kept key committed heap tx)
    (grows : ∀ author, committed author → committed' author) : r.Kept key committed' heap tx :=
  { kept with
    cleared := fun going seen isSeen i v at_i inView =>
      (kept.cleared going seen isSeen i v at_i inView).imp_right (any_counts_mono grows)
    seen := fun seen isSeen author mem => grows author (kept.seen seen isSeen author mem) }

/-- Only the deletions change, and how far the transaction is. -/
theorem change (kept : r.Kept key committed heap tx) (same : after.origins = heap.origins)
    {left : List Nat} {fate : Fate} (fewer : ∀ i ∈ left, i ∈ r.left)
    (deleted : ∀ v ∈ after, v.deletedBy = some tx →
      fate ≠ .rolledBack ∧ ∃ seen, r.seen = some seen ∧ InView key r.group seen v)
    (cleared : fate ≠ .rolledBack → ∀ seen, r.seen = some seen →
      ∀ (i : Nat) v, after[i]? = some v → InView key r.group seen v →
        i ∈ left ∨ v.deletedBy.any (Counts committed tx))
    (done : fate = .committed → left = []) :
    Replacement.Kept key committed after tx { r with left, fate } where
  inserted := (Heap.writtenBy_of_origins same _).trans kept.inserted
  group v mem own := by
    obtain ⟨w, before, row, author⟩ := Heap.mem_of_origins same mem
    rw [← row]
    exact kept.group w before (author.trans own)
  deleted := deleted
  left i mem := by
    obtain ⟨v, seen, at_i, isSeen, inView⟩ := kept.left i (fewer i mem)
    obtain ⟨w, there, row, author⟩ := Heap.getElem?_of_origins same at_i
    exact ⟨w, seen, there, isSeen, inView.congr row author⟩
  cleared := cleared
  seen := kept.seen
  done := done

/-- A row is inserted that the transaction has not seen. -/
theorem cleared_insert (kept : r.Kept key committed heap tx) (pending : ¬ committed other)
    {row : Row} (going : r.fate ≠ .rolledBack) (seen : List Tx) (isSeen : r.seen = some seen)
    (i : Nat) (v : Version Row Tx) (there : (heap.insert other row)[i]? = some v)
    (inView : InView key r.group seen v) : i ∈ r.left ∨ v.deletedBy.any (Counts committed tx) := by
  rcases Heap.getElem?_of_insert there with before | rfl
  · exact kept.cleared going seen isSeen i v before inView
  · exact absurd (kept.seen seen isSeen other (inView.2 other rfl)) pending

/-- Another transaction inserts a row. -/
theorem insert_other (kept : r.Kept key committed heap tx) (different : other ≠ tx)
    (pending : ¬ committed other) (row : Row) : r.Kept key committed (heap.insert other row) tx where
  inserted := by
    rw [Heap.writtenBy_insert, if_neg (by simpa using different.symm), List.append_nil]
    exact kept.inserted
  group v mem own := by
    rcases Heap.mem_of_insert mem with before | rfl
    · exact kept.group v before own
    · exact absurd (Option.some.inj own) different
  deleted v mem own := by
    rcases Heap.mem_of_insert mem with before | rfl
    · exact kept.deleted v before own
    · cases own
  left i mem := by
    obtain ⟨v, seen, at_i, isSeen, inView⟩ := kept.left i mem
    exact ⟨v, seen, Heap.getElem?_insert at_i row, isSeen, inView⟩
  cleared := kept.cleared_insert pending
  seen := kept.seen
  done := kept.done

/-- Another transaction takes a position. -/
theorem deleteAt_other (kept : r.Kept key committed heap tx) (different : other ≠ tx) {i : Nat}
    (taken : heap.deleteAt committed other i = some after) : r.Kept key committed after tx := by
  apply kept.change (Heap.origins_deleteAt taken) (fun _ mem => mem) ?deleted ?cleared kept.done
  case deleted =>
    intro v mem own
    rcases Heap.mem_of_deleteAt taken mem with before | ⟨w, before, rfl⟩
    · exact kept.deleted v before own
    · exact absurd (Option.some.inj own) different
  case cleared =>
    intro going seen isSeen j v at_j inView
    rcases Heap.getElem?_of_deleteAt taken at_j with ⟨before, -⟩ | ⟨w, before, free, rfl⟩
    · exact kept.cleared going seen isSeen j v before inView
    · have waits := kept.cleared going seen isSeen j w before inView
      exact .inl (waits.resolve_right (by simp [free]))

/-- Another transaction is rolled back. -/
theorem rollback_other (kept : r.Kept key committed heap tx) (different : other ≠ tx)
    (pending : ¬ committed other) : r.Kept key committed (heap.rollback other) tx := by
  apply kept.change Heap.origins_rollback (fun _ mem => mem) ?deleted ?cleared kept.done
  case deleted =>
    intro v mem own
    rcases Heap.mem_of_rollback mem with ⟨before, -⟩ | ⟨w, before, rfl⟩
    · exact kept.deleted v before own
    · cases own
  case cleared =>
    intro going seen isSeen j v at_j inView
    rcases Heap.getElem?_of_rollback at_j with ⟨before, -⟩ | ⟨w, before, is, rfl⟩
    · exact kept.cleared going seen isSeen j v before inView
    · have waits := kept.cleared going seen isSeen j w before inView
      refine .inl (waits.resolve_right ?_)
      simpa [is, Counts, different] using pending

end Replacement.Kept

end

/-! ### The steps of a transaction -/

namespace Whole

variable {key : Row → Key} {old : List Row} {stages : Replacements Row Key Tx}
  {heap after : Heap Row Tx} {tx : Tx} {r r' : Replacement Row Key Tx}

theorem committed_update_self (stages : Replacements Row Key Tx) (tx : Tx)
    (r : Replacement Row Key Tx) :
    Replacements.committed (Function.update stages tx (some r)) tx = (r.fate = .committed : Bool) := by
  simp [Replacements.committed]

theorem committed_update_of_ne {other : Tx} (different : other ≠ tx) :
    Replacements.committed (Function.update stages tx (some r)) other = stages.committed other := by
  simp [Replacements.committed, Function.update_of_ne different]

/-- Nothing is committed by a step that leaves the transaction open. -/
theorem committed_update_open (pending : ¬ stages.committed tx) (stays : r.fate ≠ .committed) :
    Replacements.committed (Function.update stages tx (some r)) = stages.committed := by
  funext other
  by_cases same : other = tx
  · subst same
    rw [committed_update_self, Bool.eq_false_iff.mpr pending]
    simpa using stays
  · exact committed_update_of_ne same

omit [DecidableEq Tx] in
theorem not_committed (is : stages tx = some r) (pending : r.fate ≠ .committed) :
    ¬ stages.committed tx := by
  simpa [Replacements.committed, is] using pending

/-- One transaction moves on, and the others keep what holds of them. -/
theorem update (before : after.writtenBy none = old)
    (known : ∀ v ∈ after, ∀ author, v.insertedBy = some author ∨ v.deletedBy = some author →
      author = tx ∨ (stages author).isSome)
    (own : r.Kept key (Replacements.committed (Function.update stages tx (some r))) after tx)
    (others : ∀ other s, other ≠ tx → stages other = some s →
      s.Kept key (Replacements.committed (Function.update stages tx (some r))) after other) :
    Whole key old (Function.update stages tx (some r)) after where
  old := before
  known v mem author is := by
    rcases known v mem author is with rfl | known
    · simp
    · by_cases same : author = tx
      · simp [same]
      · rwa [Function.update_of_ne same]
  kept other s is := by
    by_cases same : other = tx
    · subst same
      rw [Function.update_self] at is
      obtain rfl := Option.some.inj is
      exact own
    · exact others other s same (by rwa [Function.update_of_ne same] at is)

/-- Nobody has begun to write. -/
theorem start (nobody : ∀ tx, stages tx = none) (old : List Row) : Whole key old stages (.old old) where
  old := by simp [Heap.writtenBy, Heap.old, List.filter_map, Function.comp_def]
  known v mem tx is := by
    obtain ⟨row, -, rfl⟩ := List.mem_map.mp mem
    rcases is with is | is <;> cases is
  kept tx r is := by
    rw [nobody tx] at is
    cases is

/-- A transaction that has not written stands in no version. -/
theorem absent (whole : Whole key old stages heap) (new : stages tx = none) {v : Version Row Tx}
    (mem : v ∈ heap) : v.insertedBy ≠ some tx ∧ v.deletedBy ≠ some tx := by
  have unknown : ¬ (stages tx).isSome := by simp [new]
  exact ⟨fun is => unknown (whole.known v mem tx (.inl is)),
    fun is => unknown (whole.known v mem tx (.inr is))⟩

theorem writtenBy_absent (whole : Whole key old stages heap) (new : stages tx = none) :
    heap.writtenBy (some tx) = [] := by
  rw [Heap.writtenBy, List.filter_eq_nil_iff.mpr fun v mem => ?_, List.map_nil]
  simpa using (whole.absent new mem).1

/-- A transaction begins without a `DELETE`. -/
theorem begin (whole : Whole key old stages heap) (new : stages tx = none) (group : Key) :
    Whole key old (Function.update stages tx (some ⟨group, none, [], [], .open_⟩)) heap := by
  have same := committed_update_open (r := ⟨group, none, [], [], .open_⟩)
    (by simp [Replacements.committed, new] : ¬ stages.committed tx) (by simp)
  refine update whole.old (fun v mem author is => .inr (whole.known v mem author is)) ?_
    fun other s _ is => same ▸ whole.kept other s is
  exact
    { inserted := whole.writtenBy_absent new
      group := fun v mem own => absurd own (whole.absent new mem).1
      deleted := fun v mem own => absurd own (whole.absent new mem).2
      left := fun i mem => absurd mem List.not_mem_nil
      cleared := fun _ seen isSeen => by cases isSeen
      seen := fun seen isSeen => by cases isSeen
      done := fun _ => rfl }

/-- A `DELETE` begins. -/
theorem beginDelete [DecidableEq Key] (whole : Whole key old stages heap) (new : stages tx = none)
    (group : Key) {seen : List Tx} (isSeen : ∀ author, author ∈ seen ↔ stages.committed author) :
    Whole key old (Function.update stages tx (some ⟨group, some seen,
      heap.targets stages.committed tx fun row => key row = group, [], .open_⟩)) heap := by
  set r : Replacement Row Key Tx := ⟨group, some seen,
    heap.targets stages.committed tx fun row => key row = group, [], .open_⟩
  have same := committed_update_open (r := r)
    (by simp [Replacements.committed, new] : ¬ stages.committed tx) (by simp [r])
  -- what is to be deleted is what was committed, and not deleted for good
  have target {i : Nat} {v : Version Row Tx} (at_i : heap[i]? = some v) :
      i ∈ r.left ↔ InView key group seen v ∧ ¬ v.deletedBy.any (Counts stages.committed tx) := by
    have inside := (List.getElem?_eq_some_iff.mp at_i).1
    have apart : ∀ author, v.insertedBy = some author → author ≠ tx := by
      rintro author is rfl
      exact (whole.absent new (List.mem_of_getElem? at_i)).1 is
    have inserted : v.insertedBy.all (Counts stages.committed tx) ↔
        ∀ author, v.insertedBy = some author → author ∈ seen := by
      cases is : v.insertedBy with
      | none => simp
      | some author => simp [Counts, apart author is, isSeen]
    simp only [r, Heap.targets, List.mem_filter, List.mem_range, inside, true_and, at_i,
      Option.any_some, Version.visible, Bool.and_eq_true, decide_eq_true_eq, inserted, InView]
    simp only [Bool.not_eq_true', Bool.not_eq_true]
    tauto
  refine update whole.old (fun v mem author is => .inr (whole.known v mem author is)) ?_
    fun other s _ is => same ▸ whole.kept other s is
  rw [same]
  exact
    { inserted := whole.writtenBy_absent new
      group := fun v mem own => absurd own (whole.absent new mem).1
      deleted := fun v mem own => absurd own (whole.absent new mem).2
      left := fun i mem => by
        have inside : i < heap.length := List.mem_range.mp (List.mem_filter.mp mem).1
        have at_i := List.getElem?_eq_getElem inside
        exact ⟨_, seen, at_i, rfl, ((target at_i).mp mem).1⟩
      cleared := fun _ seen' is i v at_i inView => by
        obtain rfl := Option.some.inj is
        by_cases gone : v.deletedBy.any (Counts stages.committed tx)
        · exact .inr gone
        · exact .inl ((target at_i).mpr ⟨inView, gone⟩)
      seen := fun seen' is author mem => by
        obtain rfl := Option.some.inj is
        exact (isSeen author).mp mem
      done := fun is => by cases is }

/-- The `DELETE` takes its next position. -/
theorem take (whole : Whole key old stages heap) (is : stages tx = some r) (pending : r.fate = .open_)
    {i : Nat} {rest : List Nat} (next : r.left = i :: rest)
    (taken : heap.deleteAt stages.committed tx i = some after) :
    Whole key old (Function.update stages tx (some { r with left := rest })) after := by
  have open_ : ¬ stages.committed tx := not_committed is (by simp [pending])
  have same := committed_update_open (r := { r with left := rest }) open_ (by simp [pending])
  have kept := whole.kept tx r is
  have origins := Heap.origins_deleteAt taken
  apply update ((Heap.writtenBy_of_origins origins none).trans whole.old)
  · intro v mem author is
    rcases Heap.mem_of_deleteAt taken mem with before | ⟨w, before, rfl⟩
    · exact .inr (whole.known v before author is)
    · rcases is with is | is
      · exact .inr (whole.known w before author (.inl is))
      · exact .inl (Option.some.inj is).symm
  · rw [same]
    apply kept.change origins (fun j mem => next ▸ List.mem_cons_of_mem i mem) ?deleted ?cleared
      (fun done => absurd (pending.symm.trans done) (by simp))
    case deleted =>
      intro v mem own
      rcases Heap.deleteAt_cases taken with ⟨rfl, -⟩ | ⟨w, at_i, -, rfl⟩
      · exact kept.deleted v mem own
      · rcases List.mem_or_eq_of_mem_set mem with before | rfl
        · exact kept.deleted v before own
        · -- the version taken is one of those the `DELETE` works on
          obtain ⟨v, seen, at_v, isSeen, inView⟩ := kept.left i (next ▸ List.mem_cons_self)
          obtain rfl := Option.some.inj (at_i.symm.trans at_v)
          exact ⟨by simp [pending], seen, isSeen, inView⟩
    case cleared =>
      intro going seen isSeen j v at_j inView
      rcases Heap.getElem?_of_deleteAt taken at_j with ⟨before, already⟩ | ⟨w, before, free, rfl⟩
      · rcases kept.cleared going seen isSeen j v before inView with mem | gone
        · rcases List.mem_cons.mp (next ▸ mem) with rfl | mem
          · exact .inr (already rfl)
          · exact .inl mem
        · exact .inr gone
      · exact .inr (by simp [Counts])
  · intro other s different isOther
    rw [same]
    exact (whole.kept other s isOther).deleteAt_other different.symm taken

/-- A row is inserted. -/
theorem insert (whole : Whole key old stages heap) (is : stages tx = some r)
    (pending : r.fate = .open_) (emptied : r.left = []) {row : Row} (inGroup : key row = r.group) :
    Whole key old
      (Function.update stages tx (some { r with inserted := r.inserted ++ [row] }))
      (heap.insert tx row) := by
  have open_ : ¬ stages.committed tx := not_committed is (by simp [pending])
  have same := committed_update_open (r := { r with inserted := r.inserted ++ [row] }) open_
    (by simp [pending])
  have kept := whole.kept tx r is
  apply update
  · rw [Heap.writtenBy_insert, if_neg (by simp), List.append_nil]
    exact whole.old
  · intro v mem author is
    rcases Heap.mem_of_insert mem with before | rfl
    · exact .inr (whole.known v before author is)
    · rcases is with is | is
      · exact .inl (Option.some.inj is).symm
      · cases is
  · rw [same]
    exact
      { inserted := by rw [Heap.writtenBy_insert, if_pos rfl, kept.inserted]
        group := fun v mem own => by
          rcases Heap.mem_of_insert mem with before | rfl
          · exact kept.group v before own
          · exact inGroup
        deleted := fun v mem own => by
          rcases Heap.mem_of_insert mem with before | rfl
          · exact kept.deleted v before own
          · cases own
        left := fun j mem => absurd (emptied ▸ mem) List.not_mem_nil
        cleared := kept.cleared_insert open_
        seen := kept.seen
        done := fun done => absurd (pending.symm.trans done) (by simp) }
  · intro other s different isOther
    rw [same]
    exact (whole.kept other s isOther).insert_other different.symm open_ row

/-- The transaction is committed. -/
theorem commit (whole : Whole key old stages heap) (is : stages tx = some r)
    (pending : r.fate = .open_) (emptied : r.left = []) :
    Whole key old (Function.update stages tx (some { r with fate := .committed })) heap := by
  have kept := whole.kept tx r is
  have grows (author : Tx) (counts : stages.committed author) :
      Replacements.committed
        (Function.update stages tx (some { r with fate := .committed })) author := by
    by_cases same : author = tx
    · subst same
      simp [committed_update_self]
    · rwa [committed_update_of_ne same]
  have later := kept.mono grows
  refine update whole.old (fun v mem author is => .inr (whole.known v mem author is)) ?_
    fun other s different isOther => (whole.kept other s isOther).mono grows
  exact
    { inserted := kept.inserted
      group := kept.group
      deleted := fun v mem own => ⟨by simp, (kept.deleted v mem own).2⟩
      left := kept.left
      cleared := fun _ => later.cleared (by simp [pending])
      seen := later.seen
      done := fun _ => emptied }

/-- The transaction is rolled back. -/
theorem rollback (whole : Whole key old stages heap) (is : stages tx = some r)
    (pending : r.fate = .open_) :
    Whole key old
      (Function.update stages tx (some { r with left := [], fate := .rolledBack }))
      (heap.rollback tx) := by
  have open_ : ¬ stages.committed tx := not_committed is (by simp [pending])
  have same := committed_update_open (r := { r with left := [], fate := .rolledBack }) open_ (by simp)
  have origins : (heap.rollback tx).origins = heap.origins := Heap.origins_rollback
  apply update ((Heap.writtenBy_of_origins origins none).trans whole.old)
  · intro v mem author is
    rcases Heap.mem_of_rollback mem with ⟨before, -⟩ | ⟨w, before, rfl⟩
    · exact .inr (whole.known v before author is)
    · rcases is with is | is
      · exact .inr (whole.known w before author (.inl is))
      · cases is
  · rw [same]
    apply (whole.kept tx r is).change origins (fun j mem => absurd mem List.not_mem_nil) ?deleted
      (fun going => absurd rfl going) (fun _ => rfl)
    case deleted =>
      intro v mem own
      rcases Heap.mem_of_rollback mem with ⟨-, other⟩ | ⟨w, -, rfl⟩
      · exact absurd own other
      · cases own
  · intro other s different isOther
    rw [same]
    exact (whole.kept other s isOther).rollback_other different.symm open_

end Whole

/-! ### What is found -/

namespace Replacements

variable [DecidableEq Key]

/-- The later transaction has deleted its group, and began to when the other was committed. -/
def supersedes (stages : Replacements Row Key Tx) (later tx : Tx) : Bool :=
  match stages later, stages tx with
  | some s, some r =>
      s.fate = .committed && s.group = r.group && s.seen.any fun seen => seen.contains tx
  | _, _ => false

/-- The transaction has deleted the group, with the rows that were there before. -/
def clears (stages : Replacements Row Key Tx) (group : Key) (later : Tx) : Bool :=
  (stages later).any fun s => s.fate = .committed && s.group = group && s.seen.isSome

/-- The transactions of the group that none of these supersedes. -/
def standing (stages : Replacements Row Key Tx) (commits : List Tx) (group : Key) : List Tx :=
  commits.filter fun tx =>
    (stages tx).any (·.group = group) && !commits.any fun later => stages.supersedes later tx

def rowsOf (stages : Replacements Row Key Tx) (tx : Tx) : List Row :=
  ((stages tx).map (·.inserted)).getD []

end Replacements

theorem flatMap_ite {α β : Type} (p : α → Bool) (f : α → List β) (as : List α) :
    (as.flatMap fun a => if p a then f a else []) = (as.filter p).flatMap f := by
  induction as with
  | nil => rfl
  | cons a as ih => by_cases holds : p a <;> simp [holds, ih]

/-- Rows by their authors. -/
theorem perm_authors {α : Type} (author : α → Option Tx) {authors : List Tx} (distinct : authors.Nodup)
    (as : List α) (known : ∀ a ∈ as, ∀ tx, author a = some tx → tx ∈ authors) :
    as.Perm ((as.filter fun a => author a = none) ++
      authors.flatMap fun tx => as.filter fun a => author a = some tx) := by
  induction authors generalizing as with
  | nil =>
      rw [List.flatMap_nil, List.append_nil, List.filter_eq_self.mpr fun a mem => ?_]
      cases is : author a with
      | none => simp
      | some tx => exact absurd (known a mem tx is) List.not_mem_nil
  | cons first rest ih =>
      obtain ⟨new, distinct⟩ := List.nodup_cons.mp distinct
      have others := ih distinct (as.filter fun a => !decide (author a = some first)) fun a mem tx is => by
        obtain ⟨mem, apart⟩ := List.mem_filter.mp mem
        rcases List.mem_cons.mp (known a mem tx is) with rfl | mem
        · simp [is] at apart
        · exact mem
      rw [List.filter_filter] at others
      have none_ : as.filter (fun a => decide (author a = none) && !decide (author a = some first)) =
          as.filter fun a => author a = none := by
        refine List.filter_congr fun a _ => ?_
        cases author a <;> simp
      have later : (rest.flatMap fun tx =>
          (as.filter fun a => !decide (author a = some first)).filter fun a => author a = some tx) =
          rest.flatMap fun tx => as.filter fun a => author a = some tx := by
        refine List.flatMap_congr fun tx mem => ?_
        rw [List.filter_filter]
        refine List.filter_congr fun a _ => ?_
        by_cases is : author a = some tx
        · have apart : tx ≠ first := by
            rintro rfl
            exact new mem
          simp [is, apart]
        · simp [is]
      rw [none_, later] at others
      rw [List.flatMap_cons]
      exact (List.filter_append_perm (fun a => author a = some first) as).symm.trans
        ((others.append_left _).trans (List.perm_append_comm_assoc ..))

namespace Whole

variable {key : Row → Key} {old : List Row} {stages : Replacements Row Key Tx}
  {heap : Heap Row Tx}

/-- A version is deleted for good when a committed `DELETE` has worked on it. -/
theorem deleted_iff (whole : Whole key old stages heap) {v : Version Row Tx} (mem : v ∈ heap) :
    v.deletedBy.any stages.committed ↔ ∃ later s seen, stages later = some s ∧
      s.fate = .committed ∧ s.seen = some seen ∧ InView key s.group seen v := by
  constructor
  · intro deleted
    obtain ⟨later, is, committed⟩ := (Option.any_eq_true ..).mp deleted
    obtain ⟨s, isStage, fate⟩ := (Option.any_eq_true ..).mp committed
    obtain ⟨-, seen, isSeen, inView⟩ := (whole.kept later s isStage).deleted v mem is
    exact ⟨later, s, seen, isStage, of_decide_eq_true fate, isSeen, inView⟩
  · rintro ⟨later, s, seen, is, fate, isSeen, inView⟩
    have kept := whole.kept later s is
    obtain ⟨i, at_i⟩ := List.mem_iff_getElem?.mp mem
    have gone := (kept.cleared (by simp [fate]) seen isSeen i v at_i inView).resolve_left
      (by simp [kept.done fate])
    obtain ⟨deleter, isDeleter, counts⟩ := (Option.any_eq_true ..).mp gone
    rw [isDeleter, Option.any_some]
    simp only [Counts, Bool.or_eq_true, decide_eq_true_eq] at counts
    rcases counts with rfl | committed
    · simp [Replacements.committed, is, fate]
    · exact committed

variable [DecidableEq Key] {commits : List Tx}

omit [DecidableEq Tx] [DecidableEq Key] in
theorem mem_of_fate (complete : ∀ tx, tx ∈ commits ↔ stages.committed tx) {tx : Tx}
    {r : Replacement Row Key Tx} (is : stages tx = some r) (fate : r.fate = .committed) :
    tx ∈ commits :=
  (complete tx).mpr (by simp [Replacements.committed, is, fate])

/-- A row from before is found unless some transaction has cleared the group. -/
theorem found_old (whole : Whole key old stages heap)
    (complete : ∀ tx, tx ∈ commits ↔ stages.committed tx) {v : Version Row Tx} (mem : v ∈ heap)
    (is : v.insertedBy = none) :
    v.found stages.committed = !commits.any (stages.clears (key v.row)) := by
  rw [Version.found, is, Option.all_none, Bool.true_and]
  refine congrArg _ (Bool.eq_iff_iff.mpr ((whole.deleted_iff mem).trans ?_))
  simp only [List.any_eq_true, Replacements.clears, Option.any_eq_true, Bool.and_eq_true,
    decide_eq_true_eq, Option.isSome_iff_exists]
  constructor
  · rintro ⟨later, s, seen, isStage, fate, isSeen, inGroup, -⟩
    exact ⟨later, mem_of_fate complete isStage fate, s, isStage, ⟨fate, inGroup.symm⟩, seen, isSeen⟩
  · rintro ⟨later, -, s, isStage, ⟨fate, inGroup⟩, seen, isSeen⟩
    refine ⟨later, s, seen, isStage, fate, isSeen, inGroup.symm, fun author own => ?_⟩
    rw [is] at own
    cases own

/-- A row of a committed transaction is found unless the transaction is superseded. -/
theorem found_own (whole : Whole key old stages heap)
    (complete : ∀ tx, tx ∈ commits ↔ stages.committed tx) {v : Version Row Tx} (mem : v ∈ heap)
    {tx : Tx} {r : Replacement Row Key Tx} (is : v.insertedBy = some tx) (isStage : stages tx = some r)
    (fate : r.fate = .committed) :
    v.found stages.committed = !commits.any (stages.supersedes · tx) := by
  have inGroup := (whole.kept tx r isStage).group v mem is
  have counts : stages.committed tx := by simp [Replacements.committed, isStage, fate]
  rw [Version.found, is, Option.all_some, counts, Bool.true_and]
  refine congrArg _ (Bool.eq_iff_iff.mpr ((whole.deleted_iff mem).trans ?_))
  rw [List.any_eq_true]
  constructor
  · rintro ⟨later, s, seen, isLater, fate, isSeen, sameGroup, inView⟩
    refine ⟨later, mem_of_fate complete isLater fate, ?_⟩
    simp [Replacements.supersedes, isLater, isStage, fate, isSeen, ← sameGroup, inGroup, inView tx is]
  · rintro ⟨later, -, supersedes⟩
    unfold Replacements.supersedes at supersedes
    split at supersedes
    case h_1 s r' isLater same =>
      obtain rfl := Option.some.inj (isStage.symm.trans same)
      simp only [Bool.and_eq_true, decide_eq_true_eq, Option.any_eq_true,
        List.contains_iff_mem] at supersedes
      obtain ⟨⟨fate, sameGroup⟩, seen, isSeen, inSeen⟩ := supersedes
      refine ⟨later, s, seen, isLater, fate, isSeen, inGroup.trans sameGroup.symm, fun author own => ?_⟩
      obtain rfl := Option.some.inj (is.symm.trans own)
      exact inSeen
    case h_2 => cases supersedes

/-- The versions of an author that are found in a group. -/
theorem filter_found {author : Option Tx} {group : Key} {stands : Bool}
    (each : ∀ v ∈ heap, v.insertedBy = author → key v.row = group →
      v.found stages.committed = stands) :
    ((heap.filter fun v => v.found stages.committed && key v.row = group).filter
        fun v => v.insertedBy = author).map (·.row) =
      if stands then (heap.writtenBy author).filter fun row => key row = group else [] := by
  rw [List.filter_filter]
  cases stands with
  | false =>
      rw [List.filter_eq_nil_iff.mpr fun v mem => ?_]
      · rfl
      · simp only [Bool.and_eq_true, decide_eq_true_eq, not_and]
        intro own isFound inGroup
        rw [each v mem own inGroup] at isFound
        cases isFound
  | true =>
      rw [if_pos rfl, Heap.writtenBy, List.filter_map, List.filter_filter]
      refine congrArg _ (List.filter_congr fun v mem => ?_)
      by_cases own : v.insertedBy = author
      · by_cases inGroup : key v.row = group
        · simp [own, inGroup, each v mem own inGroup]
        · simp [own, inGroup]
      · simp [own]

/-- The rows found in a group are those of its transactions that stand, and the old ones if none
has cleared them. -/
theorem perm_found (whole : Whole key old stages heap) (distinct : commits.Nodup)
    (complete : ∀ tx, tx ∈ commits ↔ stages.committed tx) (group : Key) :
    ((heap.found stages.committed).filter fun row => key row = group).Perm
      ((if commits.any (stages.clears group) then [] else old.filter fun row => key row = group) ++
        (stages.standing commits group).flatMap stages.rowsOf) := by
  have all : (heap.found stages.committed).filter (fun row => key row = group) =
      (heap.filter fun v => v.found stages.committed && key v.row = group).map (·.row) := by
    rw [Heap.found, List.filter_map, List.filter_filter]
    exact congrArg _ (List.filter_congr fun v _ => Bool.and_comm ..)
  have authored := perm_authors (·.insertedBy) distinct
    (heap.filter fun v => v.found stages.committed && key v.row = group) fun v mem tx is => by
      have holds := (List.mem_filter.mp mem).2
      simp only [Version.found, is, Option.all_some, Bool.and_eq_true] at holds
      exact (complete tx).mpr holds.1.1
  rw [all]
  refine (authored.map _).trans (.of_eq ?_)
  rw [List.map_append, List.map_flatMap]
  refine congrArg₂ _ ?_ ?_
  · rw [filter_found fun v mem is inGroup => inGroup ▸ whole.found_old complete mem is, whole.old]
    cases commits.any (stages.clears group) <;> rfl
  · rw [Replacements.standing, ← flatMap_ite]
    refine List.flatMap_congr fun tx mem => ?_
    obtain ⟨r, isStage, fate⟩ := (Option.any_eq_true ..).mp ((complete tx).mp mem)
    have kept := whole.kept tx r isStage
    have groups : ∀ row ∈ heap.writtenBy (some tx), key row = r.group := by
      intro row written
      obtain ⟨v, mem, rfl⟩ := List.mem_map.mp written
      obtain ⟨mem, own⟩ := List.mem_filter.mp mem
      exact kept.group v mem (of_decide_eq_true own)
    rw [filter_found fun v mem is _ =>
      whole.found_own complete mem is isStage (of_decide_eq_true fate)]
    simp only [isStage, Option.any_some, Replacements.rowsOf, Option.map_some, Option.getD_some]
    rw [← kept.inserted]
    by_cases inGroup : r.group = group
    · rw [List.filter_eq_self.mpr fun row written => decide_eq_true ((groups row written).trans inGroup)]
      simp [inGroup]
    · rw [List.filter_eq_nil_iff.mpr fun row written => ?_]
      · simp [inGroup]
      · simpa [groups row written] using inGroup

end Whole

/-! ### Nobody waits in a circle -/

/-- The `DELETE` of a transaction takes its positions in order: those it has taken come before
those it has not. -/
structure Replacement.InOrder (heap : Heap Row Tx) (tx : Tx) (r : Replacement Row Key Tx) : Prop where
  sorted : r.left.Pairwise (· < ·)
  passed : ∀ (i : Nat) v, heap[i]? = some v → v.deletedBy = some tx → ∀ j ∈ r.left, i < j

def InOrder (stages : Replacements Row Key Tx) (heap : Heap Row Tx) : Prop :=
  ∀ tx r, stages tx = some r → r.InOrder heap tx

omit [DecidableEq Tx] in
theorem Replacement.inOrder_of_nil {r : Replacement Row Key Tx} (emptied : r.left = [])
    (heap : Heap Row Tx) (tx : Tx) : r.InOrder heap tx where
  sorted := emptied ▸ .nil
  passed _ _ _ _ _ mem := absurd (emptied ▸ mem) List.not_mem_nil

namespace InOrder

variable {stages : Replacements Row Key Tx} {heap after : Heap Row Tx} {tx : Tx}
  {r : Replacement Row Key Tx}

/-- One transaction moves on, and deletes nothing for another one. -/
theorem update (ordered : InOrder stages heap) (own : r.InOrder after tx)
    (others : ∀ (i : Nat) v other, other ≠ tx → after[i]? = some v → v.deletedBy = some other →
      ∃ w, heap[i]? = some w ∧ w.deletedBy = some other) :
    InOrder (Function.update stages tx (some r)) after := by
  intro other s is
  by_cases same : other = tx
  · subst same
    rw [Function.update_self] at is
    obtain rfl := Option.some.inj is
    exact own
  · rw [Function.update_of_ne same] at is
    refine ⟨(ordered other s is).sorted, fun i v there deleted => ?_⟩
    obtain ⟨w, before, deleted⟩ := others i v other same there deleted
    exact (ordered other s is).passed i w before deleted

/-- A transaction moves on without a deletion. -/
theorem stay (ordered : InOrder stages heap) (own : r.InOrder heap tx) :
    InOrder (Function.update stages tx (some r)) heap :=
  ordered.update own fun _ v _ _ there deleted => ⟨v, there, deleted⟩

theorem beginDelete {key : Row → Key} {old : List Row} (ordered : InOrder stages heap)
    (whole : Whole key old stages heap) (new : stages tx = none) (group : Key)
    (seen : Option (List Tx)) (condition : Row → Bool) :
    InOrder (Function.update stages tx (some ⟨group, seen,
      heap.targets stages.committed tx condition, [], .open_⟩)) heap := by
  apply ordered.stay
  refine ⟨List.pairwise_lt_range.filter _, fun i v there own => ?_⟩
  exact absurd own (whole.absent new (List.mem_of_getElem? there)).2

theorem take (ordered : InOrder stages heap) (is : stages tx = some r) {i : Nat} {rest : List Nat}
    (next : r.left = i :: rest) (taken : heap.deleteAt stages.committed tx i = some after) :
    InOrder (Function.update stages tx (some { r with left := rest })) after := by
  obtain ⟨sorted, passed⟩ := ordered tx r is
  rw [next] at sorted
  apply ordered.update
  · refine ⟨sorted.of_cons, fun j v there own k mem => ?_⟩
    rcases Heap.deleteAt_cases taken with ⟨rfl, -⟩ | ⟨w, at_i, -, rfl⟩
    · exact passed j v there own k (next ▸ List.mem_cons_of_mem i mem)
    · by_cases last : j = i
      · subst last
        exact List.rel_of_pairwise_cons sorted mem
      · rw [List.getElem?_set_ne (Ne.symm last)] at there
        exact passed j v there own k (next ▸ List.mem_cons_of_mem i mem)
  · intro j v other different there deleted
    rcases Heap.getElem?_of_deleteAt taken there with ⟨before, -⟩ | ⟨w, -, -, rfl⟩
    · exact ⟨v, before, deleted⟩
    · exact absurd (Option.some.inj deleted).symm different

theorem insert (ordered : InOrder stages heap) (emptied : r.left = []) (row : Row) :
    InOrder (Function.update stages tx (some r)) (heap.insert tx row) := by
  apply ordered.update (Replacement.inOrder_of_nil emptied ..)
  intro i v other _ there deleted
  rcases Heap.getElem?_of_insert there with before | rfl
  · exact ⟨v, before, deleted⟩
  · cases deleted

theorem rollback (ordered : InOrder stages heap) (emptied : r.left = []) :
    InOrder (Function.update stages tx (some r)) (heap.rollback tx) := by
  apply ordered.update (Replacement.inOrder_of_nil emptied ..)
  intro i v other _ there deleted
  rcases Heap.getElem?_of_rollback there with ⟨before, -⟩ | ⟨w, -, -, rfl⟩
  · exact ⟨v, before, deleted⟩
  · cases deleted

end InOrder

/-- A `DELETE` that waits, waits for another transaction that is open. -/
theorem Heap.deleteAt_eq_none {committed : Tx → Bool} {tx : Tx} {heap : Heap Row Tx} {i : Nat}
    (waits : heap.deleteAt committed tx i = none) : ∃ v other, heap[i]? = some v ∧
      v.deletedBy = some other ∧ ¬ committed other := by
  unfold deleteAt at waits
  split at waits
  · cases waits
  case h_2 v there =>
    split at waits
    · cases waits
    case h_2 other deleted =>
      split at waits
      · cases waits
      case isFalse uncounted =>
        exact ⟨v, other, there, deleted, fun committed => uncounted (by simp [Counts, committed])⟩

/-- Of the open transactions, the one whose `DELETE` has come furthest does not wait. -/
theorem Whole.exists_unlocked {key : Row → Key} {old : List Row} {stages : Replacements Row Key Tx}
    {heap : Heap Row Tx} (whole : Whole key old stages heap) (ordered : InOrder stages heap)
    {txs : Finset Tx} (finite : ∀ tx, (stages tx).isSome → tx ∈ txs) {tx : Tx}
    {r : Replacement Row Key Tx} (is : stages tx = some r) (pending : r.fate = .open_) :
    ∃ tx r, stages tx = some r ∧ r.fate = .open_ ∧ ∀ i rest, r.left = i :: rest →
      (heap.deleteAt stages.committed tx i).isSome := by
  -- a `DELETE` that has ended has come past every position
  let position (tx : Tx) : Nat := (stages tx).elim 0 fun r => r.left.headD heap.length
  have isOpen : (txs.filter fun tx => ∃ r, stages tx = some r ∧ r.fate = .open_).Nonempty :=
    ⟨tx, Finset.mem_filter.mpr ⟨finite tx (by simp [is]), r, is, pending⟩⟩
  obtain ⟨furthest, mem, le⟩ := Finset.exists_max_image _ position isOpen
  obtain ⟨-, r, is, pending⟩ := Finset.mem_filter.mp mem
  refine ⟨furthest, r, is, pending, fun i rest next => Option.isSome_iff_ne_none.mpr fun waits => ?_⟩
  obtain ⟨v, other, there, deleted, going⟩ := Heap.deleteAt_eq_none waits
  obtain ⟨s, isOther⟩ := Option.isSome_iff_exists.mp
    (whole.known v (List.mem_of_getElem? there) other (.inr deleted))
  have unended := ((whole.kept other s isOther).deleted v (List.mem_of_getElem? there) deleted).1
  have otherOpen : s.fate = .open_ := by
    cases fate : s.fate with
    | open_ => rfl
    | committed => exact absurd (by simp [Replacements.committed, isOther, fate]) going
    | rolledBack => exact absurd fate unended
  have bound := le other (Finset.mem_filter.mpr ⟨finite other (by simp [isOther]), s, isOther, otherOpen⟩)
  have inside : i < heap.length := (List.getElem?_eq_some_iff.mp there).1
  have further := (ordered other s isOther).passed i v there deleted
  simp only [position, isOther, is, Option.elim_some, next, List.headD_cons] at bound
  cases left : s.left with
  | nil =>
      rw [left, List.headD_nil] at bound
      omega
  | cons j later =>
      rw [left, List.headD_cons] at bound
      have := further j (left ▸ List.mem_cons_self)
      omega

end TenantLibrary.Lib

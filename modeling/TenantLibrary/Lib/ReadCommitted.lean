import Mathlib.Data.List.Basic

/-!
Rows under READ COMMITTED.

A heap keeps every version ever inserted, with the transaction that inserted it and
the one that deleted it. A statement of a transaction sees the versions whose insertion
counts for it and whose deletion does not: what was committed when the statement began,
and the transaction's own work. A `DELETE` fixes the positions it works on when it
begins. It then takes them one at a time: a version another open transaction deleted is
locked and makes it wait, a version whose deletion has been committed meanwhile is
skipped.

`Cell` is a row that is only ever updated in place: the committed value, and the value
of the transaction that holds the row lock.
-/

namespace TenantLibrary.Lib

/-- A version of a row; `none` stands for a transaction committed long ago as the
inserter, and for no deletion. -/
structure Version (Row Tx : Type) where
  row : Row
  insertedBy : Option Tx
  deletedBy : Option Tx
deriving DecidableEq, Repr

abbrev Heap (Row Tx : Type) := List (Version Row Tx)

variable {Row Tx : Type} [DecidableEq Tx]

/-- What `author` did counts for a statement of `tx`. -/
def Counts (committed : Tx → Bool) (tx author : Tx) : Bool := author = tx || committed author

def Version.visible (committed : Tx → Bool) (tx : Tx) (v : Version Row Tx) : Bool :=
  v.insertedBy.all (Counts committed tx) && !v.deletedBy.any (Counts committed tx)

namespace Heap

/-- A heap all of whose rows were committed before. -/
def old (rows : List Row) : Heap Row Tx := rows.map fun row => ⟨row, none, none⟩

/-- The rows a `SELECT` finds once every transaction is committed. -/
def rows (heap : Heap Row Tx) : List Row :=
  (heap.filter fun v => v.deletedBy.isNone).map (·.row)

def insert (tx : Tx) (row : Row) (heap : Heap Row Tx) : Heap Row Tx :=
  heap ++ [⟨row, some tx, none⟩]

/-- The positions a `DELETE` works on. -/
def targets (committed : Tx → Bool) (tx : Tx) (condition : Row → Bool) (heap : Heap Row Tx) :
    List Nat :=
  (List.range heap.length).filter fun i =>
    heap[i]?.any fun v => v.visible committed tx && condition v.row

/-- Take one position of a `DELETE`; `none` while another transaction has it locked. -/
def deleteAt (committed : Tx → Bool) (tx : Tx) (i : Nat) (heap : Heap Row Tx) :
    Option (Heap Row Tx) :=
  match heap[i]? with
  | none => some heap
  | some v =>
      match v.deletedBy with
      | none => some (heap.set i { v with deletedBy := some tx })
      | some other => if Counts committed tx other then some heap else none

variable {committed : Tx → Bool} {tx : Tx} {heap after : Heap Row Tx} {i : Nat}

omit [DecidableEq Tx] in
@[simp] theorem rows_append (first second : Heap Row Tx) :
    rows (first ++ second) = rows first ++ rows second := by
  simp [rows]

omit [DecidableEq Tx] in
/-- A row is found where it stands in a version that is not deleted. -/
theorem mem_rows {row : Row} :
    row ∈ heap.rows ↔ ∃ (i : Nat) (v : Version Row Tx),
      heap[i]? = some v ∧ v.deletedBy = none ∧ v.row = row := by
  simp only [rows, List.mem_map, List.mem_filter, Option.isNone_iff_eq_none]
  constructor
  · rintro ⟨v, ⟨mem, kept⟩, rfl⟩
    obtain ⟨i, at_i⟩ := List.mem_iff_getElem?.mp mem
    exact ⟨i, v, at_i, kept, rfl⟩
  · rintro ⟨i, v, at_i, kept, rfl⟩
    exact ⟨v, ⟨List.mem_of_getElem? at_i, kept⟩, rfl⟩

omit [DecidableEq Tx] in
@[simp] theorem rows_inserted (tx : Tx) (inserted : List Row) :
    rows (inserted.map fun row => (⟨row, some tx, none⟩ : Version Row Tx)) = inserted := by
  simp [rows, List.filter_map, Function.comp_def]

/-- When every transaction counts, a `DELETE` works on all that is not deleted. -/
theorem mem_targets_of_counts (all : ∀ author, Counts committed tx author) {condition : Row → Bool}
    {v : Version Row Tx} (at_i : heap[i]? = some v) (kept : v.deletedBy = none)
    (selected : condition v.row) : i ∈ heap.targets committed tx condition := by
  obtain ⟨inRange, _⟩ := List.getElem?_eq_some_iff.mp at_i
  have inserted : v.insertedBy.all (Counts committed tx) := by
    cases v.insertedBy with
    | none => rfl
    | some author => exact all author
  refine List.mem_filter.mpr ⟨List.mem_range.mpr inRange, ?_⟩
  simp [at_i, Version.visible, inserted, kept, selected]

theorem lt_of_mem_targets {condition : Row → Bool}
    (mem : i ∈ heap.targets committed tx condition) : i < heap.length :=
  List.mem_range.mp (List.mem_filter.mp mem).1

/-- Taking a position deletes the version there, unless a deletion that counts already has. -/
theorem deleteAt_cases (deleted : heap.deleteAt committed tx i = some after) :
    (after = heap ∧ ∀ v, heap[i]? = some v → v.deletedBy.any (Counts committed tx)) ∨
    ∃ v, heap[i]? = some v ∧ v.deletedBy = none ∧
      after = heap.set i { v with deletedBy := some tx } := by
  unfold deleteAt at deleted
  split at deleted
  case h_1 absent =>
    refine .inl ⟨(Option.some.inj deleted).symm, fun v present => ?_⟩
    rw [absent] at present
    cases present
  case h_2 v present =>
    split at deleted
    case h_1 kept => exact .inr ⟨v, present, kept, (Option.some.inj deleted).symm⟩
    case h_2 other already =>
      split at deleted
      case isTrue counts =>
        refine .inl ⟨(Option.some.inj deleted).symm, fun w same => ?_⟩
        obtain rfl := Option.some.inj (present.symm.trans same)
        simpa [already] using counts
      case isFalse => cases deleted

/-- The other versions are left alone. -/
theorem getElem?_deleteAt (deleted : heap.deleteAt committed tx i = some after) {j : Nat}
    (other : j ≠ i) : after[j]? = heap[j]? := by
  rcases deleteAt_cases deleted with ⟨rfl, _⟩ | ⟨v, _, _, rfl⟩
  · rfl
  · exact List.getElem?_set_ne (Ne.symm other)

theorem deletedBy_deleteAt (deleted : heap.deleteAt committed tx i = some after)
    {v : Version Row Tx} (at_i : after[i]? = some v) : v.deletedBy ≠ none := by
  rcases deleteAt_cases deleted with ⟨rfl, already⟩ | ⟨w, present, _, rfl⟩
  · intro kept
    simpa [kept] using already v at_i
  · obtain ⟨inRange, _⟩ := List.getElem?_eq_some_iff.mp present
    rw [List.getElem?_set_self inRange] at at_i
    obtain rfl := Option.some.inj at_i
    simp

theorem length_deleteAt (deleted : heap.deleteAt committed tx i = some after) :
    after.length = heap.length := by
  rcases deleteAt_cases deleted with ⟨rfl, _⟩ | ⟨v, _, _, rfl⟩
  · rfl
  · exact List.length_set

/-- Every deletion counts for the transaction, so it waits for nobody. -/
def Unlocked (committed : Tx → Bool) (tx : Tx) (heap : Heap Row Tx) : Prop :=
  ∀ v ∈ heap, v.deletedBy.all (Counts committed tx)

theorem Unlocked.deleteAt (unlocked : Unlocked committed tx heap) (i : Nat) :
    ∃ after, heap.deleteAt committed tx i = some after ∧ Unlocked committed tx after := by
  unfold Heap.deleteAt
  split
  case h_1 => exact ⟨heap, rfl, unlocked⟩
  case h_2 v present =>
    split
    case h_1 =>
      refine ⟨_, rfl, fun w mem => ?_⟩
      rcases List.mem_or_eq_of_mem_set mem with old | rfl
      · exact unlocked w old
      · simp [Counts]
    case h_2 other already =>
      have counts := unlocked v (List.mem_of_getElem? present)
      rw [already] at counts
      rw [if_pos (by simpa using counts)]
      exact ⟨heap, rfl, unlocked⟩

end Heap

/-- A row that is updated in place. -/
structure Cell (Row Tx : Type) where
  value : Row
  writer : Option (Tx × Row)

namespace Cell

def old (row : Row) : Cell Row Tx := ⟨row, none⟩

/-- What a transaction reads. -/
def read (tx : Tx) (cell : Cell Row Tx) : Row :=
  match cell.writer with
  | some (owner, row) => if owner = tx then row else cell.value
  | none => cell.value

/-- Update the row; `none` while another transaction holds its lock. -/
def update (tx : Tx) (row : Row) (cell : Cell Row Tx) : Option (Cell Row Tx) :=
  match cell.writer with
  | some (owner, _) => if owner = tx then some { cell with writer := some (tx, row) } else none
  | none => some { cell with writer := some (tx, row) }

def commit (tx : Tx) (cell : Cell Row Tx) : Cell Row Tx :=
  match cell.writer with
  | some (owner, row) => if owner = tx then ⟨row, none⟩ else cell
  | none => cell

end Cell

end TenantLibrary.Lib

import Mathlib.Data.Finset.Max
import Mathlib.Data.Finset.Range
import Mathlib.Logic.Function.Basic

/-!
Concurrent inserts into a table with unique indexes.

Each transaction inserts one row, and enters it into the indexes one after the other. Where a
committed row clashes, the insert fails. Where a row clashes that another transaction has
entered and not committed, it waits for that transaction. So rows that have come through all
the indexes can be committed (`Apart.commit`), and of the open transactions the one that has
come furthest never waits (`exists_ready`).
-/

namespace TenantLibrary.Lib

variable {Row : Type*}

/-- The pairs of rows an index keeps from being in one table. -/
structure UniqueIndex (Row : Type*) where
  Clash : Row → Row → Prop
  symm : ∀ {a b}, Clash a b → Clash b a
  decidable : DecidableRel Clash

namespace UniqueIndex

instance (index : UniqueIndex Row) : DecidableRel index.Clash := index.decidable

/-- The index of a key. -/
def on {Key : Type*} [DecidableEq Key] (key : Row → Key) : UniqueIndex Row where
  Clash a b := key a = key b
  symm := Eq.symm
  decidable a b := inferInstanceAs (Decidable (key a = key b))

end UniqueIndex

/-- A row that is being inserted, and the number of indexes it has been entered into. -/
structure Insertion (Row : Type*) where
  row : Row
  entered : Nat
deriving DecidableEq, Repr

/-- What happens at an index. -/
inductive Insertion.Outcome where
  | enters
  | waits
  | fails
deriving DecidableEq, Repr

namespace Insertion

/-- The next index of an insertion, given the rows committed and the insertions of the other
open transactions. -/
def entry (index : UniqueIndex Row) (committed : List Row) (others : List (Insertion Row))
    (own : Insertion Row) : Insertion.Outcome :=
  if committed.any (index.Clash · own.row) then .fails
  else if others.any fun other => own.entered < other.entered && index.Clash other.row own.row then
    .waits
  else .enters

variable {index : UniqueIndex Row} {committed : List Row} {others : List (Insertion Row)}
  {own : Insertion Row}

theorem entry_eq_fails :
    own.entry index committed others = .fails ↔ ∃ a ∈ committed, index.Clash a own.row := by
  have any : committed.any (index.Clash · own.row) ↔ ∃ a ∈ committed, index.Clash a own.row := by
    simp
  rw [← any]
  by_cases taken : committed.any (index.Clash · own.row)
  · simp only [entry, taken, if_true]
  · rw [entry, if_neg taken, iff_false_right taken]
    split <;> simp

/-- Whoever waits, waits for one that has come further. -/
theorem exists_of_waits (waits : own.entry index committed others = .waits) :
    ∃ other ∈ others, own.entered < other.entered := by
  unfold entry at waits
  split at waits
  · cases waits
  · split at waits
    case isTrue blocked =>
      obtain ⟨other, mem, further⟩ := List.any_eq_true.mp blocked
      simp only [Bool.and_eq_true, decide_eq_true_eq] at further
      exact ⟨other, mem, further.1⟩
    case isFalse => cases waits

theorem free_of_enters (enters : own.entry index committed others = .enters) :
    (∀ a ∈ committed, ¬ index.Clash a own.row) ∧
      ∀ other ∈ others, own.entered < other.entered → ¬ index.Clash other.row own.row := by
  unfold entry at enters
  split at enters
  · cases enters
  case isFalse free =>
    split at enters
    · cases enters
    case isFalse clear =>
      simp only [List.any_eq_true, decide_eq_true_eq, not_exists, not_and, Bool.and_eq_true] at free clear
      exact ⟨free, clear⟩

end Insertion

/-- The insertions of the open transactions. -/
abbrev Insertions (Row : Type*) := Nat → Option (Insertion Row)

/-- The insertions of the transactions but one. -/
def OthersOf (insertions : Insertions Row) (tx : Nat) (others : List (Insertion Row)) : Prop :=
  ∀ other, other ∈ others ↔ ∃ tx', tx' ≠ tx ∧ insertions tx' = some other

/-- Rows do not clash in an index that both have been entered into; a committed row has been
entered into all of them. -/
structure Apart (indexes : List (UniqueIndex Row)) (committed : List Row)
    (insertions : Insertions Row) : Prop where
  rows : committed.Pairwise fun a b => ∀ index ∈ indexes, ¬ index.Clash a b
  entered : ∀ tx own, insertions tx = some own → ∀ i < own.entered, ∀ index,
    indexes[i]? = some index → ∀ a ∈ committed, ¬ index.Clash a own.row
  open_ : ∀ tx own tx' other, insertions tx = some own → insertions tx' = some other →
    tx ≠ tx' → ∀ i, i < own.entered → i < other.entered → ∀ index, indexes[i]? = some index →
    ¬ index.Clash own.row other.row

namespace Apart

variable {indexes : List (UniqueIndex Row)} {committed : List Row} {insertions : Insertions Row}
  {tx : Nat} {own : Insertion Row}

/-- A transaction ends without its row, or has not begun to insert it. -/
theorem drop (apart : Apart indexes committed insertions) (tx : Nat) :
    Apart indexes committed (Function.update insertions tx none) := by
  have old {tx' : Nat} {other : Insertion Row}
      (is : Function.update insertions tx none tx' = some other) : insertions tx' = some other := by
    by_cases same : tx' = tx
    · subst same
      simp at is
    · rwa [Function.update_of_ne same] at is
  exact ⟨apart.rows, fun tx' other is => apart.entered tx' other (old is),
    fun tx' a tx'' b isA isB => apart.open_ tx' a tx'' b (old isA) (old isB)⟩

/-- What another transaction does not have, or what both have. -/
theorem of_update {new : Insertion Row} {tx' : Nat} {other : Insertion Row}
    (is : Function.update insertions tx (some new) tx' = some other) :
    tx' = tx ∧ other = new ∨ tx' ≠ tx ∧ insertions tx' = some other := by
  by_cases same : tx' = tx
  · subst same
    rw [Function.update_self] at is
    exact .inl ⟨rfl, (Option.some.inj is).symm⟩
  · rw [Function.update_of_ne same] at is
    exact .inr ⟨same, is⟩

/-- A transaction begins to insert a row. -/
theorem begin (apart : Apart indexes committed insertions) (tx : Nat) (row : Row) :
    Apart indexes committed (Function.update insertions tx (some ⟨row, 0⟩)) := by
  refine ⟨apart.rows, fun tx' other is => ?_, fun tx' a tx'' b isA isB different => ?_⟩
  · rcases of_update is with ⟨-, rfl⟩ | ⟨-, is⟩
    · exact fun i before => absurd before (Nat.not_lt_zero i)
    · exact apart.entered tx' other is
  · rcases of_update isA with ⟨-, rfl⟩ | ⟨-, isA⟩
    · exact fun i before => absurd before (Nat.not_lt_zero i)
    · rcases of_update isB with ⟨-, rfl⟩ | ⟨-, isB⟩
      · exact fun i _ before => absurd before (Nat.not_lt_zero i)
      · exact apart.open_ tx' a tx'' b isA isB different

/-- A row is entered into its next index. -/
theorem enter (apart : Apart indexes committed insertions) (is : insertions tx = some own)
    {index : UniqueIndex Row} (next : indexes[own.entered]? = some index)
    {others : List (Insertion Row)} (rest : OthersOf insertions tx others)
    (enters : own.entry index committed others = .enters) :
    Apart indexes committed
      (Function.update insertions tx (some { own with entered := own.entered + 1 })) := by
  obtain ⟨free, clear⟩ := Insertion.free_of_enters enters
  -- the row of this transaction against that of another one
  have against {tx' : Nat} {other : Insertion Row} (different : tx' ≠ tx)
      (isOther : insertions tx' = some other) {i : Nat} (before : i < own.entered + 1)
      (before' : i < other.entered) {index' : UniqueIndex Row} (is' : indexes[i]? = some index') :
      ¬ index'.Clash other.row own.row := by
    rcases Nat.lt_succ_iff_lt_or_eq.mp before with old | rfl
    · exact apart.open_ tx' other tx own isOther is different i before' old index' is'
    · obtain rfl := Option.some.inj (next.symm.trans is')
      exact clear other ((rest other).mpr ⟨tx', different, isOther⟩) before'
  refine ⟨apart.rows, fun tx' other isOther i before index' is' => ?_,
    fun tx' a tx'' b isA isB different i beforeA beforeB index' is' => ?_⟩
  · rcases of_update isOther with ⟨-, rfl⟩ | ⟨-, isOther⟩
    · rcases Nat.lt_succ_iff_lt_or_eq.mp before with old | rfl
      · exact apart.entered tx own is i old index' is'
      · obtain rfl := Option.some.inj (next.symm.trans is')
        exact free
    · exact apart.entered tx' other isOther i before index' is'
  · rcases of_update isA with ⟨rfl, rfl⟩ | ⟨otherA, oldA⟩
    · rcases of_update isB with ⟨rfl, -⟩ | ⟨otherB, oldB⟩
      · exact absurd rfl different
      · exact fun clash => against otherB oldB beforeA beforeB is' (index'.symm clash)
    · rcases of_update isB with ⟨rfl, rfl⟩ | ⟨-, oldB⟩
      · exact against otherA oldA beforeB beforeA is'
      · exact apart.open_ tx' a tx'' b oldA oldB different i beforeA beforeB index' is'

/-- A row that is in all the indexes is committed. -/
theorem commit (apart : Apart indexes committed insertions) (is : insertions tx = some own)
    (all : indexes.length ≤ own.entered) :
    Apart indexes (committed ++ [own.row]) (Function.update insertions tx none) := by
  have dropped := apart.drop tx
  have inIndex {index : UniqueIndex Row} (mem : index ∈ indexes) :
      ∃ i < own.entered, indexes[i]? = some index := by
    obtain ⟨i, before, rfl⟩ := List.getElem_of_mem mem
    exact ⟨i, before.trans_le all, List.getElem?_eq_getElem before⟩
  refine ⟨?_, fun tx' other isOther i before index is' a mem => ?_, dropped.open_⟩
  · refine List.pairwise_append.mpr ⟨apart.rows, List.pairwise_singleton .., ?_⟩
    intro a mem b last index memIndex
    obtain rfl := List.mem_singleton.mp last
    obtain ⟨i, before, is'⟩ := inIndex memIndex
    exact apart.entered tx own is i before index is' a mem
  · rcases List.mem_append.mp mem with old | last
    · exact dropped.entered tx' other isOther i before index is' a old
    · obtain rfl := List.mem_singleton.mp last
      have different : tx' ≠ tx := by
        rintro rfl
        simp at isOther
      rw [Function.update_of_ne different] at isOther
      have inside : i < own.entered := (List.getElem?_eq_some_iff.mp is').1.trans_le all
      exact apart.open_ tx own tx' other is isOther different.symm i inside before index is'

/-- Committed rows change, but not in what the indexes look at. -/
theorem map (apart : Apart indexes committed insertions) {change : Row → Row}
    (same : ∀ index ∈ indexes, ∀ a b, index.Clash (change a) b ↔ index.Clash a b) :
    Apart indexes (committed.map change) insertions := by
  refine ⟨?_, fun tx own is i before index at_ a mem => ?_, apart.open_⟩
  · refine List.pairwise_map.mpr (apart.rows.imp fun free index mem clash => free index mem ?_)
    exact index.symm ((same index mem _ _).mp (index.symm ((same index mem _ _).mp clash)))
  · obtain ⟨b, old, rfl⟩ := List.mem_map.mp mem
    rw [same index (List.mem_of_getElem? at_)]
    exact apart.entered tx own is i before index at_ b old

/-- A row that has come through all the indexes clashes with no committed one. -/
theorem free (apart : Apart indexes committed insertions) (is : insertions tx = some own)
    (all : indexes.length ≤ own.entered) : ∀ a ∈ committed, ∀ index ∈ indexes, ¬ index.Clash a own.row := by
  intro a mem index memIndex
  obtain ⟨i, before, rfl⟩ := List.getElem_of_mem memIndex
  exact apart.entered tx own is i (before.trans_le all) _ (List.getElem?_eq_getElem before) a mem

end Apart

/-! ### Transactions in a list -/

section

variable {α β : Type*} {as : List α} {a : α} {k : Nat}

/-- What each transaction of a list has, by its number. -/
def perTransaction (f : α → Option β) (as : List α) : Nat → Option β := fun k => as[k]?.bind f

/-- One more transaction, which has nothing. -/
theorem perTransaction_append (f : α → Option β) (as : List α) (nothing : f a = none) :
    perTransaction f (as ++ [a]) = perTransaction f as := by
  funext k
  simp only [perTransaction]
  by_cases old : k < as.length
  · rw [List.getElem?_append_left old]
  · rw [List.getElem?_append_right (Nat.le_of_not_lt old), List.getElem?_eq_none (Nat.le_of_not_lt old)]
    cases k - as.length with
    | zero => simpa using nothing
    | succ n => rfl

/-- One transaction changes. -/
theorem perTransaction_set (f : α → Option β) (there : as[k]? = some a) (b : α) :
    perTransaction f (as.set k b) = Function.update (perTransaction f as) k (f b) := by
  obtain ⟨inside, -⟩ := List.getElem?_eq_some_iff.mp there
  funext j
  by_cases same : j = k
  · subst same
    simp [perTransaction, inside]
  · simp [perTransaction, List.getElem?_set_ne (Ne.symm same), Function.update_of_ne same]

/-- The list around one transaction. -/
theorem exists_set_eq (there : as[k]? = some a) :
    ∃ before after, as = before ++ a :: after ∧ ∀ b, as.set k b = before ++ b :: after := by
  obtain ⟨inside, is⟩ := List.getElem?_eq_some_iff.mp there
  refine ⟨as.take k, as.drop (k + 1), ?_, fun b => ?_⟩
  · rw [← is, List.cons_getElem_drop_succ, List.take_append_drop]
  · rw [List.set_eq_take_append_cons_drop, if_pos inside]

theorem othersOf_perTransaction (f : α → Option (Insertion Row)) (as : List α) (k : Nat) :
    OthersOf (perTransaction f as) k ((as.eraseIdx k).filterMap f) := by
  intro other
  simp only [perTransaction, List.mem_filterMap, List.mem_eraseIdx_iff_getElem?,
    Option.bind_eq_some_iff]
  constructor
  · rintro ⟨a, ⟨j, different, there⟩, is⟩
    exact ⟨j, different, a, there, is⟩
  · rintro ⟨j, different, a, there, is⟩
    exact ⟨a, ⟨j, different, there⟩, is⟩

end

/-- Of finitely many open transactions one does not wait: nobody waits for one that has not
come further. -/
theorem exists_ready {insertions : Insertions Row} {n : Nat}
    (finite : ∀ tx, (insertions tx).isSome → tx < n) {tx : Nat} (isOpen : (insertions tx).isSome) :
    ∃ tx own, insertions tx = some own ∧
      ∀ index committed others, OthersOf insertions tx others →
        own.entry index committed others ≠ .waits := by
  have some_ : ((Finset.range n).filter fun tx => (insertions tx).isSome).Nonempty :=
    ⟨tx, Finset.mem_filter.mpr ⟨Finset.mem_range.mpr (finite tx isOpen), isOpen⟩⟩
  obtain ⟨furthest, mem, furthest_le⟩ := Finset.exists_max_image _
    (fun tx => ((insertions tx).map (·.entered)).getD 0) some_
  obtain ⟨own, is⟩ := Option.isSome_iff_exists.mp (Finset.mem_filter.mp mem).2
  refine ⟨furthest, own, is, fun index committed others rest waits => ?_⟩
  obtain ⟨other, memOther, further⟩ := Insertion.exists_of_waits waits
  obtain ⟨tx', -, isOther⟩ := (rest other).mp memOther
  have there : (insertions tx').isSome := by simp [isOther]
  have le := furthest_le tx' (Finset.mem_filter.mpr ⟨Finset.mem_range.mpr (finite tx' there), there⟩)
  simp only [isOther, is, Option.map_some, Option.getD_some] at le
  omega

end TenantLibrary.Lib

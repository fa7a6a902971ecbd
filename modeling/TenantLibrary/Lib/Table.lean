import Mathlib.Data.List.Basic
import Mathlib.Data.List.Pairwise

/-!
Tables with unique constraints.

A table is the list of its rows in insertion order. `Clash a b` says that two rows
agree on the columns of some unique constraint; a table carries the proof that no
two of its rows clash, so an operation that would break a constraint has to fail.
-/

namespace TenantLibrary.Lib

variable {Row : Type*} {Clash : Row → Row → Prop}

/-- Rows no two of which clash. -/
structure Table (Row : Type*) (Clash : Row → Row → Prop) where
  rows : List Row
  distinct : rows.Pairwise fun a b => ¬ Clash a b

namespace Table

instance [DecidableEq Row] : DecidableEq (Table Row Clash) := fun t u =>
  decidable_of_iff (t.rows = u.rows) ⟨fun same => by cases t; cases u; simp_all, congrArg rows⟩

@[ext] theorem ext {t u : Table Row Clash} (rows : t.rows = u.rows) : t = u := by
  cases t
  cases u
  simpa using rows

instance : Membership Row (Table Row Clash) := ⟨fun t row => row ∈ t.rows⟩

theorem mem_def {t : Table Row Clash} {row : Row} : row ∈ t ↔ row ∈ t.rows := Iff.rfl

def empty : Table Row Clash := ⟨[], .nil⟩

/-- Insert a row; `none` when it violates a constraint. -/
def insert [DecidableRel Clash] (t : Table Row Clash) (row : Row) : Option (Table Row Clash) :=
  if free : ∀ a ∈ t.rows, ¬ Clash a row then
    some ⟨t.rows ++ [row], List.pairwise_append.mpr
      ⟨t.distinct, .cons (by simp) .nil, fun a mem b last => by
        obtain rfl := List.mem_singleton.mp last
        exact free a mem⟩⟩
  else none

/-- Change rows in place without making two of them clash. -/
def modify (t : Table Row Clash) (change : Row → Row)
    (keeps : ∀ a b, Clash (change a) (change b) → Clash a b) : Table Row Clash :=
  ⟨t.rows.map change, List.pairwise_map.mpr
    (t.distinct.imp fun free clash => free (keeps _ _ clash))⟩

/-- Delete the rows a condition selects. -/
def delete (t : Table Row Clash) (condition : Row → Bool) : Table Row Clash :=
  ⟨t.rows.filter fun row => !condition row, t.distinct.filter _⟩

/-- The rows a condition selects. -/
def filter (t : Table Row Clash) (keep : Row → Bool) : Table Row Clash :=
  ⟨t.rows.filter keep, t.distinct.filter _⟩

theorem insert_eq_some [DecidableRel Clash] {t u : Table Row Clash} {row : Row} :
    t.insert row = some u ↔ (∀ a ∈ t.rows, ¬ Clash a row) ∧ u.rows = t.rows ++ [row] := by
  unfold insert
  split
  case isTrue free =>
    constructor
    · rintro ⟨rfl⟩
      exact ⟨free, rfl⟩
    · rintro ⟨_, rows⟩
      exact congrArg some (ext rows.symm)
  case isFalse taken =>
    simp only [reduceCtorEq, false_iff, not_and]
    exact fun free => absurd free taken

theorem insert_eq_none [DecidableRel Clash] {t : Table Row Clash} {row : Row} :
    t.insert row = none ↔ ¬ ∀ a ∈ t.rows, ¬ Clash a row := by
  unfold insert
  split
  case isTrue free => simpa using free
  case isFalse clashes => simpa using clashes

/-- A row that clashes with none is accepted. -/
theorem exists_insert [DecidableRel Clash] {t : Table Row Clash} {row : Row}
    (free : ∀ a ∈ t.rows, ¬ Clash a row) : ∃ u, t.insert row = some u :=
  ⟨_, dif_pos free⟩

theorem mem_insert [DecidableRel Clash] {t u : Table Row Clash} {row a : Row}
    (inserted : t.insert row = some u) (mem : a ∈ u.rows) : a ∈ t.rows ∨ a = row := by
  rw [(insert_eq_some.mp inserted).2] at mem
  exact (List.mem_append.mp mem).imp_right List.mem_singleton.mp

theorem mem_insert_of_mem [DecidableRel Clash] {t u : Table Row Clash} {row a : Row}
    (inserted : t.insert row = some u) (mem : a ∈ t.rows) : a ∈ u.rows := by
  rw [(insert_eq_some.mp inserted).2]
  exact List.mem_append_left _ mem

@[simp] theorem rows_modify (t : Table Row Clash) (change : Row → Row)
    (keeps : ∀ a b, Clash (change a) (change b) → Clash a b) :
    (t.modify change keeps).rows = t.rows.map change := rfl

@[simp] theorem rows_delete (t : Table Row Clash) (condition : Row → Bool) :
    (t.delete condition).rows = t.rows.filter fun row => !condition row := rfl

@[simp] theorem rows_filter (t : Table Row Clash) (keep : Row → Bool) :
    (t.filter keep).rows = t.rows.filter keep := rfl

/-- A change that keeps apart what is apart and together what is together can be made
before an insertion or after it. -/
theorem insert_modify [DecidableRel Clash] {t : Table Row Clash} {change : Row → Row} {row : Row}
    (clash : ∀ a b, Clash (change a) (change b) ↔ Clash a b) :
    (t.modify change fun a b => (clash a b).mp).insert (change row) =
      (t.insert row).map (·.modify change fun a b => (clash a b).mp) := by
  cases inserted : t.insert row with
  | some u =>
      obtain ⟨free, rows⟩ := insert_eq_some.mp inserted
      refine insert_eq_some.mpr ⟨fun a mem => ?_, ?_⟩
      · obtain ⟨old, oldMem, rfl⟩ := List.mem_map.mp mem
        rw [clash]
        exact free old oldMem
      · simp [rows]
  | none =>
      refine insert_eq_none.mpr fun free => insert_eq_none.mp inserted fun a mem together => ?_
      exact free (change a) (List.mem_map_of_mem mem) ((clash a row).mpr together)

/-- Two changes can be made in any order when they commute on rows. -/
theorem modify_modify {t : Table Row Clash} {f g f' g' : Row → Row}
    {keepsF : ∀ a b, Clash (f a) (f b) → Clash a b} {keepsG : ∀ a b, Clash (g a) (g b) → Clash a b}
    {keepsF' : ∀ a b, Clash (f' a) (f' b) → Clash a b}
    {keepsG' : ∀ a b, Clash (g' a) (g' b) → Clash a b} (commute : ∀ a, g' (f a) = f' (g a)) :
    (t.modify f keepsF).modify g' keepsG' = (t.modify g keepsG).modify f' keepsF' := by
  apply ext
  simp only [rows_modify, List.map_map]
  exact List.map_congr_left fun a _ => commute a

theorem delete_modify {t : Table Row Clash} {change : Row → Row}
    {keeps : ∀ a b, Clash (change a) (change b) → Clash a b} {condition renamed : Row → Bool}
    (same : ∀ a, renamed (change a) = condition a) :
    (t.modify change keeps).delete renamed = (t.delete condition).modify change keeps := by
  apply ext
  simp only [rows_modify, rows_delete, List.filter_map]
  congr 1
  exact List.filter_congr fun a _ => congrArg not (same a)

section Filter

variable {t u : Table Row Clash} {row : Row} {keep : Row → Bool} {change : Row → Row}
  {keeps : ∀ a b, Clash (change a) (change b) → Clash a b} {condition : Row → Bool}

/-- A row that can only clash with selected rows is inserted among them alone. -/
theorem filter_insert [DecidableRel Clash] (selected : keep row = true)
    (near : ∀ a ∈ t.rows, Clash a row → keep a = true) :
    (t.filter keep).insert row = (t.insert row).map (·.filter keep) := by
  cases inserted : t.insert row with
  | some u =>
      obtain ⟨free, rows⟩ := insert_eq_some.mp inserted
      refine insert_eq_some.mpr ⟨fun a mem => free a (List.mem_filter.mp mem).1, ?_⟩
      simp [rows, selected]
  | none =>
      refine insert_eq_none.mpr fun free => insert_eq_none.mp inserted fun a mem clash => ?_
      exact free a (List.mem_filter.mpr ⟨mem, near a mem clash⟩) clash

theorem filter_congr {selected : Row → Bool} (same : ∀ a ∈ t.rows, keep a = selected a) :
    t.filter keep = t.filter selected :=
  ext (List.filter_congr same)

/-- A row that is not selected does not show. -/
theorem filter_insert_of_not [DecidableRel Clash] (other : keep row = false)
    (inserted : t.insert row = some u) : u.filter keep = t.filter keep := by
  obtain ⟨_, rows⟩ := insert_eq_some.mp inserted
  exact ext (by simp [rows, other])

theorem filter_modify (stable : ∀ a, keep (change a) = keep a) :
    (t.modify change keeps).filter keep = (t.filter keep).modify change keeps := by
  refine ext ?_
  simp only [rows_filter, rows_modify, List.filter_map]
  exact congrArg _ (List.filter_congr fun a _ => stable a)

/-- A change to rows that are not selected does not show. -/
theorem filter_modify_of_not (stable : ∀ a, keep (change a) = keep a)
    (same : ∀ a, keep a = true → change a = a) :
    (t.modify change keeps).filter keep = t.filter keep := by
  rw [filter_modify stable]
  refine ext ((List.map_congr_left fun a mem => ?_).trans (List.map_id _))
  exact same a (List.mem_filter.mp mem).2

theorem filter_delete : (t.delete condition).filter keep = (t.filter keep).delete condition :=
  ext (by simp [List.filter_filter, Bool.and_comm])

theorem filter_delete_of_not (other : ∀ a, keep a = true → condition a = false) :
    (t.delete condition).filter keep = t.filter keep := by
  rw [filter_delete]
  refine ext (List.filter_eq_self.mpr fun a mem => ?_)
  simp [other a (List.mem_filter.mp mem).2]

end Filter

/-- A condition whose rows clash pairwise selects at most one row. -/
theorem filter_length_le_one (t : Table Row Clash) {condition : Row → Bool}
    (unique : ∀ a b, condition a → condition b → Clash a b) :
    (t.rows.filter condition).length ≤ 1 := by
  have distinct := t.distinct.filter condition
  match found : t.rows.filter condition with
  | [] => simp
  | [row] => simp
  | a :: b :: rest =>
      exfalso
      have selected : ∀ row ∈ a :: b :: rest, condition row := fun row mem =>
        (List.mem_filter.mp (found ▸ mem)).2
      rw [found] at distinct
      exact (List.rel_of_pairwise_cons distinct List.mem_cons_self)
        (unique a b (selected a (by simp)) (selected b (by simp)))

/-- A row found by a unique condition is the only one. -/
theorem find?_of_mem (t : Table Row Clash) {condition : Row → Bool}
    (unique : ∀ a b, condition a → condition b → Clash a b) {row : Row} (mem : row ∈ t.rows)
    (selected : condition row) : t.rows.find? condition = some row := by
  have atMostOne := t.filter_length_le_one unique
  have kept : row ∈ t.rows.filter condition := List.mem_filter.mpr ⟨mem, selected⟩
  rw [← List.head?_filter]
  match found : t.rows.filter condition with
  | [] => simp [found] at kept
  | [only] => simpa [found, eq_comm] using kept
  | _ :: _ :: _ => simp [found] at atMostOne

section Columns

variable {t : Table Row Clash} {β γ : Type*} [DecidableEq β] [DecidableEq γ] {f : Row → β}
  {g : Row → γ} {x : β} {y : γ}

/-- A pair of columns that is unique selects one row at most. -/
theorem clash_of_columns (key : ∀ a b, f a = f b → g a = g b → Clash a b) :
    ∀ a b, (f a = x && g a = y) = true → (f b = x && g b = y) = true → Clash a b := by
  intro a b selectedA selectedB
  simp only [Bool.and_eq_true, decide_eq_true_eq] at selectedA selectedB
  exact key a b (selectedA.1.trans selectedB.1.symm) (selectedA.2.trans selectedB.2.symm)

theorem find?_columns (key : ∀ a b, f a = f b → g a = g b → Clash a b) {row : Row} :
    t.rows.find? (fun a => f a = x && g a = y) = some row ↔
      row ∈ t.rows ∧ f row = x ∧ g row = y := by
  constructor
  · intro found
    have selected := List.find?_some found
    simp only [Bool.and_eq_true, decide_eq_true_eq] at selected
    exact ⟨List.mem_of_find?_eq_some found, selected⟩
  · rintro ⟨mem, first, second⟩
    exact t.find?_of_mem (clash_of_columns key) mem (by simp [first, second])

end Columns

/-- Two rows that clash are one row. -/
theorem eq_of_clash (t : Table Row Clash) (symm : ∀ a b, Clash a b → Clash b a) {a b : Row}
    (memA : a ∈ t.rows) (memB : b ∈ t.rows) (clash : Clash a b) : a = b := by
  by_contra different
  have symmetric : Std.Symm fun a b => ¬ Clash a b := ⟨fun a b free c => free (symm b a c)⟩
  exact t.distinct.forall memA memB different clash

end Table

/-! ### Rows that come after others -/

/-- The list goes on with elements that are such. -/
def Extends {α : Type*} (P : α → Prop) (xs ys : List α) : Prop :=
  ∃ new, ys = xs ++ new ∧ ∀ a ∈ new, P a

namespace Extends

variable {α : Type*} {P : α → Prop} {xs ys zs : List α} {a : α}

theorem refl (xs : List α) : Extends P xs xs := ⟨[], (List.append_nil xs).symm, nofun⟩

theorem of_eq (same : ys = xs) : Extends P xs ys := same ▸ refl ys

theorem snoc (rows : ys = xs ++ [a]) (holds : P a) : Extends P xs ys :=
  ⟨[a], rows, List.forall_mem_singleton.mpr holds⟩

theorem trans (first : Extends P xs ys) (second : Extends P ys zs) : Extends P xs zs := by
  obtain ⟨new, rfl, holds⟩ := first
  obtain ⟨later, rfl, holdsLater⟩ := second
  exact ⟨new ++ later, List.append_assoc .., List.forall_mem_append.mpr ⟨holds, holdsLater⟩⟩

theorem subset (extends_ : Extends P xs ys) : xs ⊆ ys := by
  obtain ⟨new, rfl, _⟩ := extends_
  exact List.subset_append_left xs new

/-- What is there later was there, or is such. -/
theorem mem_or (extends_ : Extends P xs ys) (mem : a ∈ ys) : a ∈ xs ∨ P a := by
  obtain ⟨new, rfl, holds⟩ := extends_
  exact (List.mem_append.mp mem).imp_right (holds a)

theorem eq_or_longer (extends_ : Extends P xs ys) : ys = xs ∨ xs.length < ys.length := by
  obtain ⟨new, rfl, _⟩ := extends_
  cases new with
  | nil => exact .inl (List.append_nil xs)
  | cons a rest => exact .inr (by simp)

end Extends

end TenantLibrary.Lib

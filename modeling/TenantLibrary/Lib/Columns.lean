import Mathlib.Data.List.Basic
import Mathlib.Data.List.Nodup

/-!
Records taken apart into two columns and joined again by position.

An entry has at most one value for each of two columns. Collecting each column
separately drops missing values, and joining the columns by position pairs the
i-th value of one with the i-th of the other. `Aligned` is the pattern of missing
values under which each joined pair still comes from one entry.
-/

namespace TenantLibrary.Lib

variable {κ ν : Type*}

/-- An entry with a key, a name, both or neither. -/
abbrev Entry (κ ν : Type*) := Option κ × Option ν

/-- The column of keys, without the missing ones. -/
def keyColumn (entries : List (Entry κ ν)) : List κ := entries.filterMap Prod.fst

/-- The column of names, without the missing ones. -/
def nameColumn (entries : List (Entry κ ν)) : List ν := entries.filterMap Prod.snd

/-- After an entry that has a key but no name, no entry has a name; after one that
has a name but no key, no entry has a key. -/
def Aligned : List (Entry κ ν) → Prop
  | [] => True
  | (some _, none) :: rest => nameColumn rest = []
  | (none, some _) :: rest => keyColumn rest = []
  | (some _, some _) :: rest => Aligned rest
  | (none, none) :: rest => Aligned rest

instance instDecidableAligned : ∀ entries : List (Entry κ ν), Decidable (Aligned entries)
  | [] => isTrue trivial
  | (some _, none) :: rest => inferInstanceAs (Decidable (nameColumn rest = []))
  | (none, some _) :: rest => inferInstanceAs (Decidable (keyColumn rest = []))
  | (some _, some _) :: rest => instDecidableAligned rest
  | (none, none) :: rest => instDecidableAligned rest

@[simp] theorem keyColumn_nil : keyColumn ([] : List (Entry κ ν)) = [] := rfl
@[simp] theorem nameColumn_nil : nameColumn ([] : List (Entry κ ν)) = [] := rfl

@[simp] theorem nameColumn_cons_some (key : Option κ) (name : ν) (rest : List (Entry κ ν)) :
    nameColumn ((key, some name) :: rest) = name :: nameColumn rest := rfl

@[simp] theorem nameColumn_cons_none (key : Option κ) (rest : List (Entry κ ν)) :
    nameColumn ((key, none) :: rest) = nameColumn rest := rfl

/-- The entries of two columns that belong together position by position; the longer
column ends in entries without the other value. -/
def pairedEntries : List κ → List ν → List (Entry κ ν)
  | key :: keys, name :: names => (some key, some name) :: pairedEntries keys names
  | [], names => names.map fun name => (none, some name)
  | keys, [] => keys.map fun key => (some key, none)

end TenantLibrary.Lib

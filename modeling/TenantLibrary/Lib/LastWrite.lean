import Mathlib.Data.List.Basic

/-!
Last-write-wins maps as histories.

A history is the list of the writes made, oldest first; `key` says which entry of the
map a write is for. The map itself is read off the history: an entry exists when there
is a write for it, it was created by the first one and holds what the last one wrote.
-/

namespace TenantLibrary.Lib

variable {Entry Key : Type*} [DecidableEq Key] (key : Entry → Key)

/-- The writes for an entry. -/
def writesTo (history : List Entry) (k : Key) : List Entry := history.filter fun e => key e = k

/-- The write that created an entry. -/
def firstWrite (history : List Entry) (k : Key) : Option Entry := (writesTo key history k).head?

/-- The write that an entry holds. -/
def lastWrite (history : List Entry) (k : Key) : Option Entry := (writesTo key history k).getLast?

variable {key} {history : List Entry} {k : Key} {e first : Entry}

theorem mem_writesTo {w : Entry} : w ∈ writesTo key history k ↔ w ∈ history ∧ key w = k := by
  simp [writesTo]

theorem writesTo_snoc_of_eq (same : key e = k) :
    writesTo key (history ++ [e]) k = writesTo key history k ++ [e] := by
  simp [writesTo, List.filter_append, same]

theorem writesTo_snoc_of_ne (other : key e ≠ k) :
    writesTo key (history ++ [e]) k = writesTo key history k := by
  simp [writesTo, List.filter_append, other]

theorem mem_of_firstWrite (found : firstWrite key history k = some first) :
    first ∈ history ∧ key first = k :=
  mem_writesTo.mp (List.mem_of_mem_head? found)

/-- A write for another entry changes nothing. -/
theorem firstWrite_snoc_of_ne (other : key e ≠ k) :
    firstWrite key (history ++ [e]) k = firstWrite key history k := by
  rw [firstWrite, writesTo_snoc_of_ne other, firstWrite]

theorem lastWrite_snoc_of_ne (other : key e ≠ k) :
    lastWrite key (history ++ [e]) k = lastWrite key history k := by
  rw [lastWrite, writesTo_snoc_of_ne other, lastWrite]

/-- An entry holds what was written last. -/
theorem lastWrite_snoc_of_eq (same : key e = k) : lastWrite key (history ++ [e]) k = some e := by
  rw [lastWrite, writesTo_snoc_of_eq same, List.getLast?_concat]

/-- A write to an existing entry does not create it anew. -/
theorem firstWrite_snoc_of_exists (written : ∃ w ∈ history, key w = k) :
    firstWrite key (history ++ [e]) k = firstWrite key history k := by
  obtain ⟨w, mem, same⟩ := written
  by_cases forKey : key e = k
  · rw [firstWrite, writesTo_snoc_of_eq forKey, firstWrite]
    have nonempty : writesTo key history k ≠ [] :=
      List.ne_nil_of_mem (mem_writesTo.mpr ⟨mem, same⟩)
    cases writes : writesTo key history k with
    | nil => exact absurd writes nonempty
    | cons first rest => rfl
  · exact firstWrite_snoc_of_ne forKey

/-- An entry that was written holds something. -/
theorem lastWrite_of_exists (written : ∃ w ∈ history, key w = k) :
    ∃ last, lastWrite key history k = some last := by
  obtain ⟨w, mem, same⟩ := written
  have nonempty : writesTo key history k ≠ [] :=
    List.ne_nil_of_mem (mem_writesTo.mpr ⟨mem, same⟩)
  exact ⟨_, List.getLast?_eq_some_getLast nonempty⟩

/-- The first write for an entry creates it. -/
theorem firstWrite_snoc_of_new (same : key e = k) (unwritten : ∀ w ∈ history, key w ≠ k) :
    firstWrite key (history ++ [e]) k = some e := by
  have none : writesTo key history k = [] :=
    List.filter_eq_nil_iff.mpr fun w mem => by simpa using unwritten w mem
  rw [firstWrite, writesTo_snoc_of_eq same, none]
  rfl

end TenantLibrary.Lib

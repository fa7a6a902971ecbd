import Mathlib.Data.List.Basic

/-!
The ledger of a queue whose consumer takes an item off the queue before it hands
the item on. Every item ever put in is delivered, dropped, in the consumer's hand
or still waiting; as long as nothing was dropped the four lists, delivered first,
are the items in the order they were put in.
-/

namespace TenantLibrary.Lib

variable {α : Type*}

/-- Where the items put into a queue are. -/
structure Ledger (α : Type*) where
  put : List α
  delivered : List α
  dropped : List α
  hand : List α
  waiting : List α

namespace Ledger

def empty : Ledger α := ⟨[], [], [], [], []⟩

structure Balanced (l : Ledger α) : Prop where
  count : l.put.length =
    l.delivered.length + l.dropped.length + l.hand.length + l.waiting.length
  order : l.dropped = [] → l.put = l.delivered ++ l.hand ++ l.waiting

theorem balanced_empty : (empty : Ledger α).Balanced := ⟨rfl, fun _ => rfl⟩

variable {put delivered dropped hand waiting : List α} {item : α}

/-- A new item goes to the end of the queue. -/
theorem Balanced.push (h : Balanced ⟨put, delivered, dropped, hand, waiting⟩) :
    Balanced ⟨put ++ [item], delivered, dropped, hand, waiting ++ [item]⟩ where
  count := by
    have count := h.count
    simp only [List.length_append, List.length_singleton] at count ⊢
    omega
  order := fun none => by
    have order := h.order none
    simp only at order ⊢
    rw [order]
    simp only [List.append_assoc]

/-- The consumer takes the head of the queue. -/
theorem Balanced.pop (h : Balanced ⟨put, delivered, dropped, [], item :: waiting⟩) :
    Balanced ⟨put, delivered, dropped, [item], waiting⟩ where
  count := by
    have count := h.count
    simp only [List.length_cons, List.length_nil] at count ⊢
    omega
  order := fun none => by
    have order := h.order none
    simp only at order ⊢
    rw [order]
    simp

/-- The consumer hands the item on. -/
theorem Balanced.deliver (h : Balanced ⟨put, delivered, dropped, [item], waiting⟩) :
    Balanced ⟨put, delivered ++ [item], dropped, [], waiting⟩ where
  count := by
    have count := h.count
    simp only [List.length_append, List.length_singleton, List.length_nil] at count ⊢
    omega
  order := fun none => by
    have order := h.order none
    simp only at order ⊢
    rw [order]
    simp

/-- The consumer fails with the item in its hand. -/
theorem Balanced.drop (h : Balanced ⟨put, delivered, dropped, [item], waiting⟩) :
    Balanced ⟨put, delivered, dropped ++ [item], [], waiting⟩ where
  count := by
    have count := h.count
    simp only [List.length_append, List.length_singleton, List.length_nil] at count ⊢
    omega
  order := fun none => by simp at none

/-- With an empty hand, the ledger is complete exactly when nothing was dropped. -/
theorem Balanced.complete_iff (h : Balanced ⟨put, delivered, dropped, [], waiting⟩) :
    put = delivered ++ waiting ↔ dropped = [] := by
  constructor
  · intro complete
    have count := h.count
    have lengths := congrArg List.length complete
    simp only [List.length_append, List.length_nil] at count lengths
    exact List.length_eq_zero_iff.mp (by omega)
  · intro none
    simpa using h.order none

end Ledger

end TenantLibrary.Lib

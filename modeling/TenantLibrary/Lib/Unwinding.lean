import Mathlib.Data.List.Basic

/-!
Unwinding of noninterference.

A service takes operations one after the other; each has an owner and gets a response.
Every owner has a view of the state. When an operation does on its owner's view what it
does on the whole state and leaves the other views alone, the responses an owner gets
are those of its own operations on its own view: the operations of others can be purged.
-/

namespace TenantLibrary.Lib

variable {State Op Response Owner : Type}

/-- The responses of a run to the operations of interest. -/
def answers (step : State → Op → Response × State) (mine : Op → Bool) : State → List Op → List Response
  | _, [] => []
  | s, op :: rest =>
      let (response, next) := step s op
      if mine op then response :: answers step mine next rest else answers step mine next rest

/-- The state at the end of a run. -/
def final (step : State → Op → Response × State) (s : State) (ops : List Op) : State :=
  ops.foldl (fun s op => (step s op).2) s

/-- A service that treats renamed operations on the renamed state alike gives the renamed
responses. -/
theorem answers_map {step : State → Op → Response × State} {mine : Op → Bool}
    {rename : State → State} {renameOp : Op → Op} {renameResponse : Response → Response}
    (commutes : ∀ s op,
      step (rename s) (renameOp op) = (renameResponse (step s op).1, rename (step s op).2))
    (sameMine : ∀ op, mine (renameOp op) = mine op) (s : State) (ops : List Op) :
    answers step mine (rename s) (ops.map renameOp) =
      (answers step mine s ops).map renameResponse := by
  induction ops generalizing s with
  | nil => rfl
  | cons op rest ih =>
      simp only [List.map_cons, answers, commutes, sameMine, ih]
      split
      · rfl
      · rfl

/-- The views of the owners are separate: what a step does in a sound state. -/
structure Separates (step : State → Op → Response × State) (ownerOf : Op → Owner)
    (view : Owner → State → State) (Sound : State → Prop) (Admits : Op → Prop) : Prop where
  kept : ∀ s op, Sound s → Admits op → Sound (step s op).2
  seen : ∀ s op, Sound s → Admits op →
    step (view (ownerOf op) s) op = ((step s op).1, view (ownerOf op) (step s op).2)
  others : ∀ s op, Sound s → Admits op → ∀ other, other ≠ ownerOf op →
    view other (step s op).2 = view other s

namespace Separates

variable {step : State → Op → Response × State} {ownerOf : Op → Owner}
  {view : Owner → State → State} {Sound : State → Prop} {Admits : Op → Prop}
  (separates : Separates step ownerOf view Sound Admits)
include separates

theorem sound_final {s : State} {ops : List Op} (sound : Sound s)
    (admitted : ∀ op ∈ ops, Admits op) : Sound (final step s ops) := by
  induction ops generalizing s with
  | nil => exact sound
  | cons op rest ih =>
      apply ih
      · exact separates.kept s op sound (admitted op List.mem_cons_self)
      · intro later mem
        exact admitted later (List.mem_cons_of_mem op mem)

variable [DecidableEq Owner]

/-- The operations of others can be purged. -/
theorem answers_purge (own : Owner) {s : State} {ops : List Op} (sound : Sound s)
    (admitted : ∀ op ∈ ops, Admits op) :
    answers step (fun op => ownerOf op = own) s ops =
      answers step (fun op => ownerOf op = own) (view own s)
        (ops.filter fun op => ownerOf op = own) := by
  induction ops generalizing s with
  | nil => rfl
  | cons op rest ih =>
      have admits := admitted op List.mem_cons_self
      have next := ih (separates.kept s op sound admits) fun later mem =>
        admitted later (List.mem_cons_of_mem op mem)
      by_cases mine : ownerOf op = own
      · have seen := separates.seen s op sound admits
        rw [mine] at seen
        simp only [answers, mine, decide_true, List.filter_cons_of_pos, if_true, seen, next]
      · have others := separates.others s op sound admits own fun same => mine same.symm
        rw [others] at next
        simp only [answers, mine, decide_false, Bool.false_eq_true, if_false, next,
          not_false_eq_true, List.filter_cons_of_neg]

end Separates

end TenantLibrary.Lib

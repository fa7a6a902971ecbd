import Mathlib.Algebra.Order.BigOperators.Group.List
import Mathlib.Algebra.Order.Ring.Nat
import TenantLibrary.ReadingLists.Concurrent

/-!
Submissions do not wait for ever.

A submission waits at a unique index for a list that another one is inserting, for the row of a
list that another one has updated, and in its `DELETE` for an item that another one has deleted.
`submissions_end` says that they never wait in a circle: an `INSERT` waits for one that has come
through more indexes, an `UPDATE` for a submission that is past its own, and a `DELETE` for one
that has come further, since both take the items in the same order.
-/

namespace TenantLibrary.ReadingLists.Concurrent

open TenantLibrary.Lib TenantLibrary.Store

variable {hashing : Hashing} {w v : World} {k : Nat} {request : Request}

/-! ### A bound on the steps -/

/-- The items that a submission may still insert. -/
def Request.unsent (request : Request) : Nat :=
  match request.phase with
  | .writing _ r =>
      if r.fate = .open_ then request.call.tx.submission.books.length - r.inserted.length else 0
  | .gaveUp => 0
  | _ => request.call.tx.submission.books.length

/-- A bound on the versions of items there will be. -/
def World.size (w : World) : Nat := w.items.length + (w.requests.map (·.unsent)).sum

/-- A bound on the steps that a submission still takes. -/
def Request.left (size : Nat) (request : Request) : Nat :=
  match request.phase with
  | .looking => 5 + size + request.unsent
  | .entering insertion => 2 + (indexes.length - insertion.entered) + request.unsent
  | .found _ => 3 + size + request.unsent
  | .updated .. => 2 + size + request.unsent
  | .writing _ r => if r.fate = .open_ then 1 + r.left.length + request.unsent else 0
  | .gaveUp => 0

def World.left (w : World) : Nat := (w.requests.map (·.left w.size)).sum

theorem Request.left_mono {size size' : Nat} (le : size ≤ size') (request : Request) :
    request.left size ≤ request.left size' := by
  unfold Request.left
  split <;> omega

theorem length_items (tx : Transaction) (listId : Uuid) :
    (tx.items listId).length = tx.submission.books.length := List.length_mapIdx

/-- The items there are, and those the submission may still insert. -/
theorem unsent_next {phase : Phase} {lists : List ReadingList} {items : Heap ReadingListItem Nat}
    {commits : List Nat}
    (next : Next hashing w k request.call request.phase phase lists items commits) :
    items.length + Request.unsent { request with phase } ≤ w.items.length + request.unsent := by
  obtain ⟨call, was⟩ := request
  dsimp only at next
  cases next with
  | takes hold r pending i rest is items taken =>
      simp [Request.unsent, Heap.length_deleteAt taken]
  | inserts hold r pending emptied item is =>
      obtain ⟨inside, -⟩ := List.getElem?_eq_some_iff.mp is
      rw [length_items] at inside
      simp only [Request.unsent, pending, if_true, Heap.insert, List.length_append, List.length_cons,
        List.length_nil]
      omega
  | rollsBack hold r pending => simp [Request.unsent, Heap.rollback]
  | _ => simp [Request.unsent]

/-- A submission comes closer to its end. -/
theorem left_next {phase : Phase} {lists : List ReadingList} {items : Heap ReadingListItem Nat}
    {commits : List Nat} {size : Nat} (bound : w.items.length ≤ size)
    (next : Next hashing w k request.call request.phase phase lists items commits) :
    Request.left size { request with phase } < request.left size := by
  obtain ⟨call, was⟩ := request
  dsimp only at next
  cases next with
  | misses | finds | updates => simp [Request.left, Request.unsent, indexes]; try omega
  | enters insertion index at_ free =>
      obtain ⟨inside, -⟩ := List.getElem?_eq_some_iff.mp at_
      simp only [Request.left, Request.unsent]
      omega
  | begins insertion all => simp [Request.left, Request.unsent]; try omega
  | clears listId update =>
      have targets := List.length_filter_le
        (fun i => w.items[i]?.any fun v => v.visible w.stages.committed k &&
          decide (v.row.readingListId = listId)) (List.range w.items.length)
      rw [List.length_range] at targets
      simp only [Request.left, Request.unsent, if_true, Heap.targets, List.length_nil]
      omega
  | takes hold r pending i rest is items taken => simp [Request.left, Request.unsent, pending, is]
  | inserts hold r pending emptied item is =>
      obtain ⟨inside, -⟩ := List.getElem?_eq_some_iff.mp is
      rw [length_items] at inside
      simp only [Request.left, Request.unsent, pending, if_true, List.length_append, List.length_cons,
        List.length_nil]
      omega
  | commits hold r pending emptied all => simp [Request.left, pending]
  | rollsBack hold r pending => simp [Request.left, pending]
  | givesUp _ before going =>
      cases was with
      | writing hold r => cases before
      | gaveUp => cases going
      | _ => simp [Request.left]

/-- A step that is no new submission. -/
def Continues (hashing : Hashing) (w : World) (action : Action) (v : World) : Prop :=
  (∀ call, action ≠ .arrive call) ∧ w.step hashing action = some v

theorem left_step {action : Action} (continued : Continues hashing w action v) : v.left < w.left := by
  obtain ⟨noArrival, stepped⟩ := continued
  rcases step_cases stepped with
    ⟨call, rfl, rfl⟩ | ⟨k, request, phase, lists, items, commits, there, next, rfl⟩
  · exact absurd rfl (noArrival call)
  · obtain ⟨before, after, isRequests, set⟩ := exists_set_eq there
    -- the bound on the versions does not grow
    have unsent := unsent_next next
    have smaller : World.size ⟨lists, items, w.requests.set k { request with phase }, commits⟩ ≤
        w.size := by
      simp only [World.size, set]
      rw [isRequests]
      simp only [List.map_append, List.map_cons, List.sum_append, List.sum_cons]
      omega
    have less : Request.left w.size { request with phase } < request.left w.size :=
      left_next (Nat.le_add_right _ _) next
    generalize isSize : World.size ⟨lists, items, w.requests.set k { request with phase }, commits⟩ =
      size at smaller
    have mono (requests : List Request) : (requests.map (·.left size)).sum ≤
        (requests.map (·.left w.size)).sum :=
      List.sum_le_sum fun request _ => request.left_mono smaller
    have first := mono before
    have last := mono after
    have own := Request.left_mono smaller { request with phase }
    rw [World.left, World.left, isSize]
    simp only [set]
    rw [isRequests]
    simp only [List.map_append, List.map_cons, List.sum_append, List.sum_cons]
    omega

/-! ### The submissions that can go on -/

theorem lt_of_perTransaction {α : Type} {f : Request → Option α} {k : Nat}
    (isOpen : (perTransaction f w.requests k).isSome) : k < w.requests.length := by
  obtain ⟨_, is⟩ := Option.isSome_iff_exists.mp isOpen
  obtain ⟨owner, there, -⟩ := Option.bind_eq_some_iff.mp is
  exact (List.getElem?_eq_some_iff.mp there).1

/-- Of the submissions that write items, the one that has come furthest does not wait. -/
theorem exists_advance_writing {db : Database} (inv : Inv hashing db w)
    {r : Replacement ReadingListItem Uuid Nat} (is : w.stages k = some r) (pending : r.fate = .open_) :
    ∃ j, (w.step hashing (.advance j)).isSome := by
  obtain ⟨ready, r, is, pending, free⟩ := inv.whole.exists_unlocked inv.ordered
    (fun tx isOpen => Finset.mem_range.mpr (lt_of_perTransaction isOpen)) is pending
  obtain ⟨owner, hold, there, isPhase, -⟩ := inv.writing is
  refine ⟨ready, ?_⟩
  simp only [World.step, there, Option.bind_some, World.advance, isPhase, pending, if_true]
  unfold World.write
  split
  case h_1 i rest next =>
    obtain ⟨items, taken⟩ := Option.isSome_iff_exists.mp (free i rest next)
    simp [taken]
  case h_2 => split <;> rfl

section

variable (idle : ∀ request ∈ w.requests, ∀ hold r, request.phase = .writing hold r → r.fate ≠ .open_)

include idle

/-- Of those in the `INSERT` of their list, one that has come furthest does not wait. -/
theorem exists_advance_entering (inserting : (w.insertions k).isSome) :
    ∃ j, (w.step hashing (.advance j)).isSome := by
  obtain ⟨ready, insertion, is, free⟩ :=
    exists_ready (fun tx isOpen => lt_of_perTransaction isOpen) inserting
  obtain ⟨owner, there, owns⟩ := Option.bind_eq_some_iff.mp is
  refine ⟨ready, ?_⟩
  unfold Phase.insertion at owns
  split at owns
  case h_1 entering isPhase =>
    obtain rfl := Option.some.inj owns
    simp only [World.step, there, Option.bind_some, World.advance, isPhase]
    split
    case h_1 index _ =>
      have notWaiting := free index w.lists (w.others ready) (othersOf w ready)
      cases isEntry : entering.entry index w.lists (w.others ready) with
      | enters | fails => rfl
      | waits => exact absurd isEntry notWaiting
    case h_2 => rfl
  case h_2 inserted r isPhase =>
    rw [if_neg (idle owner (List.mem_of_getElem? there) _ r isPhase)] at owns
    cases owns
  case h_3 => cases owns

theorem locked_eq_false
    (noUpdate : ∀ request ∈ w.requests, ∀ listId update, request.phase ≠ .updated listId update)
    (k : Nat) (listId : Uuid) : w.locked k listId = false := by
  apply List.any_eq_false.mpr
  intro other mem locks
  have mem := List.mem_of_mem_eraseIdx mem
  have locks := of_decide_eq_true locks
  unfold Phase.locks at locks
  split at locks
  case h_1 listId update isPhase => exact noUpdate other mem listId update isPhase
  case h_2 update r isPhase =>
    rw [if_neg (by simpa using fun _ => idle other mem _ r isPhase)] at locks
    cases locks
  case h_3 => cases locks

end

/-- One of the submissions that have not ended does not have to wait. -/
theorem exists_advance {db : Database} (inv : Inv hashing db w) (mem : request ∈ w.requests)
    (going : request.phase.isEnded = false) : ∃ k, (w.step hashing (.advance k)).isSome := by
  by_contra stuck
  -- nobody writes items, updates a list or inserts one
  have idle : ∀ request ∈ w.requests, ∀ hold r, request.phase = .writing hold r → r.fate ≠ .open_ := by
    intro other mem hold r is pending
    obtain ⟨j, there⟩ := List.mem_iff_getElem?.mp mem
    have isStage : w.stages j = some r := by
      rw [stages_of there, is]
      rfl
    exact stuck (exists_advance_writing inv isStage pending)
  have noUpdate : ∀ request ∈ w.requests, ∀ listId update, request.phase ≠ .updated listId update := by
    intro other mem listId update is
    obtain ⟨j, there⟩ := List.mem_iff_getElem?.mp mem
    exact stuck ⟨j, by simp [World.step, there, World.advance, is]⟩
  obtain ⟨k, there⟩ := List.mem_iff_getElem?.mp mem
  cases isPhase : request.phase with
  | looking =>
      refine stuck ⟨k, ?_⟩
      simp only [World.step, there, Option.bind_some, World.advance, isPhase]
      split <;> rfl
  | entering insertion =>
      have inserting : (w.insertions k).isSome := by
        rw [insertions_of there, isPhase]
        rfl
      exact stuck (exists_advance_entering idle inserting)
  | found list =>
      have free := locked_eq_false idle noUpdate k list.id
      exact stuck ⟨k, by simp [World.step, there, World.advance, isPhase, free]⟩
  | updated listId update => exact noUpdate request mem listId update isPhase
  | writing hold r =>
      have pending : r.fate = .open_ := by simpa [isPhase, Phase.isEnded] using going
      exact idle request mem hold r isPhase pending
  | gaveUp =>
      rw [isPhase] at going
      cases going

/-- However the submissions of a run go on: their steps are bounded, and as long as one has not
ended, some submission need not wait. -/
theorem submissions_end {db : Database} {before actions : List Action}
    (first : Run (Steps (World.step hashing)) (World.start db) before w)
    (run : Run (Continues hashing) w actions v) :
    actions.length ≤ w.left ∧ ((∀ k, v.step hashing (.advance k) = none) →
      ∀ request ∈ v.requests, request.phase.isEnded) := by
  constructor
  · have bound := run.length_add_le World.left fun _ _ _ continued => left_step continued
    omega
  · intro stuck request mem
    have inv := inv_run (first.append (run.mono fun _ _ _ continued => continued.2))
    by_contra going
    obtain ⟨k, enabled⟩ := exists_advance inv mem (Bool.eq_false_iff.mpr going)
    rw [stuck k] at enabled
    cases enabled

/-- From the point where a `DELETE` waits for another one to the end of all submissions. -/
theorem mixing_ends : ∃ w v,
    exec (World.step plainHashing) (World.start .empty) (mixing.take 16) = some w ∧
    w.step plainHashing (.advance 2) = none ∧
    exec (World.step plainHashing) w (mixing.drop 16) = some v ∧
    (mixing.drop 16).length ≤ w.left ∧
    (∀ k, v.step plainHashing (.advance k) = none) ∧ v.requests.length = 3 ∧
      ∀ request ∈ v.requests, request.phase.isEnded := by
  have goes : ((exec (World.step plainHashing) (World.start .empty) (mixing.take 16)).any fun w =>
      (w.step plainHashing (.advance 2)).isNone &&
        (exec (World.step plainHashing) w (mixing.drop 16)).any fun v =>
          v.requests.length = 3 &&
            (List.range 3).all fun k => (v.step plainHashing (.advance k)).isNone) = true := by
    decide +kernel
  obtain ⟨w, computed, waits⟩ := (Option.any_eq_true ..).mp goes
  rw [Bool.and_eq_true, Option.isNone_iff_eq_none] at waits
  obtain ⟨v, last, ended⟩ := (Option.any_eq_true ..).mp waits.2
  simp only [Bool.and_eq_true, decide_eq_true_eq, List.all_eq_true, List.mem_range,
    Option.isNone_iff_eq_none] at ended
  obtain ⟨three, first⟩ := ended
  have stuck : ∀ k, v.step plainHashing (.advance k) = none := by
    intro k
    by_cases submitted : k < 3
    · exact first k submitted
    · rw [World.step, List.getElem?_eq_none (by omega)]
      rfl
  have run : Run (Continues plainHashing) w (mixing.drop 16) v :=
    (run_of_exec last).guard fun _ action mem call isArrival => by
      rw [isArrival] at mem
      exact absurd mem (by simp [mixing])
  obtain ⟨bound, ends⟩ := submissions_end (run_of_exec computed) run
  exact ⟨w, v, computed, waits.1, last, bound, stuck, three, ends stuck⟩

end TenantLibrary.ReadingLists.Concurrent

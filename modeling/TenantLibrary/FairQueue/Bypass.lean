import TenantLibrary.FairQueue.Accounting

/-!
Bounded bypass: while a tenant waits, how often is another tenant served?

Each batch starts again from the smallest tenant id and stops when the free slots
of the Celery queue are used up, so a tenant late in the order can be passed over
by every batch. A batch passes a tenant over when it serves a smaller one and then
ends without reaching it. `bypass_at_most_once` shows that nothing else goes
wrong: if no `send_task` puts a waiting tenant behind it out of reach of the
batch, no tenant is served twice while another one waits.
-/

namespace TenantLibrary.FairQueue

open TenantLibrary.Lib

variable {Kwargs : Type} {codec : Codec Kwargs}

/-! ### Waiting, serving, passing over -/

/-- The step hands a task of this tenant to Celery. -/
def World.Serves (w : World Kwargs) (a : Action Kwargs) (tenantId : String) : Prop :=
  match a, w.dispatcher with
  | .dispatch, .sendTask _ _ t _ _ => t = tenantId
  | _, _ => False

/-- Before the step the tenant is pending, and the step does not serve it. A run
of such steps is a segment throughout which the tenant waits. -/
def WaitsFor (tenantId : String) (w : World Kwargs) (a : Action Kwargs) : Prop :=
  w.Pending tenantId ∧ ¬ w.Serves a tenantId

/-- A `send_task` leaves every waiting tenant behind it within reach: the tenant is
still to be visited by this batch, and a slot is left. A `send_task` that raises
ends the batch and leaves nobody within reach. -/
def KeepsReach (w : World Kwargs) (a : Action Kwargs) : Prop :=
  match a, w.dispatcher with
  | .dispatch, .sendTask slots dispatched u _ rest =>
      ∀ t ∈ w.tenants, u < t → w.queue t ≠ [] → t ∈ rest ∧ dispatched + 1 < slots
  | .sendRaises, _ => False
  | _, _ => True

instance (w : World Kwargs) (a : Action Kwargs) (tenantId : String) :
    Decidable (w.Serves a tenantId) := by
  obtain ⟨_, _, dispatcher, _, _, _⟩ := w
  rcases a with _ | _ | _ | _ | _ | _
  case dispatch =>
    rcases dispatcher with _ | _ | _ | _ | _ | ⟨_, _, t, _, _⟩ | _ | _ | _
    case sendTask => exact inferInstanceAs (Decidable (t = tenantId))
    all_goals exact inferInstanceAs (Decidable False)
  all_goals exact inferInstanceAs (Decidable False)

instance (w : World Kwargs) (tenantId : String) : Decidable (w.Pending tenantId) :=
  inferInstanceAs (Decidable (_ ∧ _))

instance (tenantId : String) (w : World Kwargs) (a : Action Kwargs) :
    Decidable (WaitsFor tenantId w a) :=
  inferInstanceAs (Decidable (_ ∧ _))

instance (w : World Kwargs) (a : Action Kwargs) : Decidable (KeepsReach w a) := by
  obtain ⟨_, _, dispatcher, _, _, _⟩ := w
  rcases a with _ | _ | _ | _ | _ | _
  case dispatch =>
    rcases dispatcher with _ | _ | _ | _ | _ | _ | _ | _ | _
    case sendTask => exact Finset.decidableDforallFinset
    all_goals exact inferInstanceAs (Decidable True)
  case sendRaises => exact inferInstanceAs (Decidable False)
  all_goals exact inferInstanceAs (Decidable True)

/-- The tenants the current batch may still serve, in the order of its visits. -/
def Dispatcher.remaining (d : Dispatcher Kwargs) : List String :=
  match d with
  | .lpop _ _ t rest | .sendTask _ _ t _ rest => t :: rest
  | .sremEmpty _ _ _ rest | .llenTenant _ _ _ rest | .sremDrained _ _ _ rest => rest
  | .idle | .llenCelery | .smembers _ | .release _ => []

/-- The batch is in its loop and has a free slot. -/
def Dispatcher.SlotLeft (d : Dispatcher Kwargs) : Prop :=
  match d with
  | .lpop slots n _ _ | .sendTask slots n _ _ _ | .sremEmpty slots n _ _
  | .llenTenant slots n _ _ | .sremDrained slots n _ _ => n < slots
  | .idle | .llenCelery | .smembers _ | .release _ => False

theorem remaining_nextTenant (slots dispatched : Nat) (ids : List String) :
    (Dispatcher.nextTenant slots dispatched ids : Dispatcher Kwargs).remaining =
      if dispatched < slots then ids else [] := by
  cases ids with
  | nil => simp [Dispatcher.nextTenant, Dispatcher.remaining]
  | cons t rest =>
      by_cases full : dispatched < slots
      · simp [Dispatcher.nextTenant, Dispatcher.remaining, full, Nat.not_le.mpr full]
      · simp [Dispatcher.nextTenant, Dispatcher.remaining, full, Nat.le_of_not_lt full]

theorem slotLeft_nextTenant {slots dispatched : Nat} {ids : List String} {t : String}
    (member : t ∈ ids) (slot : dispatched < slots) :
    (Dispatcher.nextTenant slots dispatched ids : Dispatcher Kwargs).SlotLeft := by
  cases ids with
  | nil => cases member
  | cons first rest =>
      simp [Dispatcher.nextTenant, Dispatcher.SlotLeft, slot, Nat.not_le.mpr slot]

/-! ### The shield of a tenant that has been passed by once -/

/-- `u` will not be served before `t`: in this batch `u` comes after `t` or not at
all, and if `u` is the smaller id, this batch still reaches `t`. -/
structure Shielded (u t : String) (d : Dispatcher Kwargs) : Prop where
  behind : u ∈ d.remaining → t < u ∧ t ∈ d.remaining
  reached : u < t → t ∈ d.remaining ∧ d.SlotLeft

/-- Outside the loop only a larger id is shielded. -/
theorem Shielded.lt_of_nil {u t : String} {d : Dispatcher Kwargs} (h : Shielded u t d)
    (ne : u ≠ t) (outside : d.remaining = []) : t < u := by
  rcases lt_or_gt_of_ne ne with less | greater
  · have := (h.reached less).1
    rw [outside] at this
    cases this
  · exact greater

theorem shielded_of_nil {u t : String} {d : Dispatcher Kwargs} (outside : d.remaining = [])
    (less : t < u) : Shielded u t d where
  behind := fun member => by rw [outside] at member; cases member
  reached := fun greater => absurd greater (lt_asymm less)

/-- A visit of a tenant other than `t` leaves `t` among the visits to come. -/
theorem Shielded.passed {u t v : String} {rest : List String} {d : Dispatcher Kwargs}
    (h : Shielded u t d) (visits : d.remaining = v :: rest) (other : t ≠ v) :
    (u ∈ rest → t < u ∧ t ∈ rest) ∧ (u < t → t ∈ rest ∧ d.SlotLeft) := by
  obtain ⟨behind, reached⟩ := h
  rw [visits] at behind reached
  constructor
  · intro later
    obtain ⟨less, here⟩ := behind (List.mem_cons_of_mem _ later)
    exact ⟨less, (List.mem_cons.mp here).resolve_left other⟩
  · intro less
    obtain ⟨here, slot⟩ := reached less
    exact ⟨(List.mem_cons.mp here).resolve_left other, slot⟩

/-- The next visit of the loop keeps the shield that the visits to come give. -/
theorem Shielded.nextTenant {u t : String} {slots dispatched : Nat} {ids : List String}
    (behind : u ∈ ids → t < u ∧ t ∈ ids) (reached : u < t → t ∈ ids ∧ dispatched < slots) :
    Shielded u t (Dispatcher.nextTenant slots dispatched ids : Dispatcher Kwargs) := by
  constructor
  · rw [remaining_nextTenant]
    by_cases slot : dispatched < slots
    · simpa only [if_pos slot] using behind
    · intro member
      rw [if_neg slot] at member
      cases member
  · intro less
    obtain ⟨member, slot⟩ := reached less
    refine ⟨?_, slotLeft_nextTenant member slot⟩
    rw [remaining_nextTenant, if_pos slot]
    exact member

/-! ### One step of the dispatcher -/

/-- The visits to come are in strictly increasing order of tenant ids. -/
def Dispatcher.Ordered (d : Dispatcher Kwargs) : Prop := d.remaining.Pairwise (· < ·)

theorem ordered_nextTenant {slots dispatched : Nat} {ids : List String}
    (h : ids.Pairwise (· < ·)) :
    (Dispatcher.nextTenant slots dispatched ids : Dispatcher Kwargs).Ordered := by
  unfold Dispatcher.Ordered
  rw [remaining_nextTenant]
  split
  · exact h
  · exact List.Pairwise.nil

theorem ordered_dispatch {w : World Kwargs} (h : w.dispatcher.Ordered) :
    (dispatchStep codec w).dispatcher.Ordered := by
  cases pc : w.dispatcher with
  | idle =>
      simp only [dispatchStep, pc]
      split
      · exact h
      · exact List.Pairwise.nil
  | llenCelery =>
      simp only [dispatchStep, pc]
      split <;> exact List.Pairwise.nil
  | smembers slots =>
      simp only [dispatchStep, pc]
      exact ordered_nextTenant (sorted_pairwise _)
  | lpop slots dispatched v rest =>
      rw [pc] at h
      simp only [dispatchStep, pc]
      split
      · exact h.tail
      · split
        · exact List.Pairwise.nil
        · exact h
  | sendTask slots dispatched v payload rest =>
      rw [pc] at h
      simp only [dispatchStep, pc]
      exact h.tail
  | llenTenant slots dispatched v rest =>
      rw [pc] at h
      simp only [dispatchStep, pc]
      split
      · exact h
      · exact ordered_nextTenant h
  | sremEmpty slots dispatched v rest | sremDrained slots dispatched v rest =>
      rw [pc] at h
      simp only [dispatchStep, pc]
      exact ordered_nextTenant h
  | release result =>
      simp only [dispatchStep, pc]
      exact List.Pairwise.nil

/-- While `t` waits, a step of the dispatcher within the reach condition keeps `u`
shielded, and does not serve `u`. -/
theorem shielded_dispatch {w : World Kwargs} {u t : String} (ne : u ≠ t)
    (h : Shielded u t w.dispatcher) (ordered : w.dispatcher.Ordered)
    (every : ∀ v, Accounted codec w v) (reach : KeepsReach w .dispatch)
    (waits : WaitsFor t w .dispatch) :
    Shielded u t (dispatchStep codec w).dispatcher ∧
      (dispatchStep codec w).accepted u = w.accepted u := by
  obtain ⟨⟨member, work⟩, unserved⟩ := waits
  cases pc : w.dispatcher with
  | idle =>
      have less := h.lt_of_nil ne (by rw [pc]; rfl)
      simp only [dispatchStep, pc]
      split
      · exact ⟨pc ▸ h, rfl⟩
      · exact ⟨shielded_of_nil rfl less, rfl⟩
  | llenCelery =>
      have less := h.lt_of_nil ne (by rw [pc]; rfl)
      simp only [dispatchStep, pc]
      split <;> exact ⟨shielded_of_nil rfl less, rfl⟩
  | smembers slots =>
      have less := h.lt_of_nil ne (by rw [pc]; rfl)
      simp only [dispatchStep, pc]
      refine ⟨Shielded.nextTenant (fun _ => ⟨less, ?_⟩) fun greater => ?_, trivial⟩
      · exact mem_sorted.mpr member
      · exact absurd greater (lt_asymm less)
  | lpop slots dispatched v rest =>
      rw [pc] at h ordered
      obtain ⟨waiting, texts, -⟩ := every v
      cases waiting with
      | nil =>
          -- the list of `v` is empty, so `v` is not `t` and `t` is still to come
          have other : t ≠ v := fun same => work (same ▸ texts)
          simp only [dispatchStep, pc, Redis.lpop_nil _ _ texts]
          obtain ⟨behind, reached⟩ := h.passed rfl other
          exact ⟨⟨behind, reached⟩, trivial⟩
      | cons payload tail =>
          simp only [dispatchStep, pc, Redis.lpop_cons _ _ _ texts, codec.loads_dumps]
          exact ⟨⟨h.behind, h.reached⟩, trivial⟩
  | sremEmpty slots dispatched v rest =>
      rw [pc] at h
      simp only [dispatchStep, pc]
      exact ⟨Shielded.nextTenant h.behind h.reached, trivial⟩
  | sendTask slots dispatched v payload rest =>
      rw [pc] at h ordered
      simp only [KeepsReach, pc] at reach
      simp only [World.Serves, pc] at unserved
      have later : ∀ x ∈ rest, v < x := (List.pairwise_cons.mp ordered).1
      have other : v ≠ u := by
        rintro rfl
        obtain ⟨less, here⟩ := h.behind List.mem_cons_self
        have := later t ((List.mem_cons.mp here).resolve_left (Ne.symm unserved))
        exact lt_asymm less this
      obtain ⟨behind, reached⟩ := h.passed rfl (Ne.symm unserved)
      simp only [dispatchStep, pc]
      refine ⟨⟨behind, fun less => ?_⟩, Function.update_of_ne (Ne.symm other) ..⟩
      exact reach t member (later t (reached less).1) work
  | llenTenant slots dispatched v rest =>
      rw [pc] at h
      simp only [dispatchStep, pc]
      split
      · exact ⟨⟨h.behind, h.reached⟩, rfl⟩
      · exact ⟨Shielded.nextTenant h.behind h.reached, rfl⟩
  | sremDrained slots dispatched v rest =>
      rw [pc] at h
      simp only [dispatchStep, pc]
      exact ⟨Shielded.nextTenant h.behind h.reached, trivial⟩
  | release result =>
      have less := h.lt_of_nil ne (by rw [pc]; rfl)
      simp only [dispatchStep, pc]
      exact ⟨shielded_of_nil rfl less, trivial⟩

/-- Serving `u` while `t` waits shields `u`; any other step serves `u` not at all. -/
theorem accepted_dispatch {w : World Kwargs} {u t : String} (ordered : w.dispatcher.Ordered)
    (reach : KeepsReach w .dispatch) (waits : WaitsFor t w .dispatch) :
    (dispatchStep codec w).accepted u = w.accepted u ∨
      ((dispatchStep codec w).accepted u).length = (w.accepted u).length + 1 ∧
        Shielded u t (dispatchStep codec w).dispatcher := by
  obtain ⟨⟨member, work⟩, unserved⟩ := waits
  cases pc : w.dispatcher with
  | sendTask slots dispatched v payload rest =>
      rw [pc] at ordered
      simp only [KeepsReach, pc] at reach
      simp only [dispatchStep, pc]
      by_cases same : v = u
      · subst same
        have later : ∀ x ∈ rest, v < x := (List.pairwise_cons.mp ordered).1
        refine .inr ⟨by simp, fun after => ?_, fun less => ?_⟩
        · exact absurd (later v after) (lt_irrefl v)
        · exact reach t member less work
      · exact .inl (Function.update_of_ne (Ne.symm same) ..)
  | idle | llenCelery | smembers | lpop | sremEmpty | llenTenant | sremDrained | release =>
      refine .inl ?_
      simp only [dispatchStep, pc] <;> (repeat' split) <;> rfl

/-! ### Whole segments -/

/-- The invariant of a segment in which `t` waits: since its start, where Celery
had accepted `before` tasks of `u`, it has accepted none, or one and `u` is
shielded. -/
structure ServedOnce (codec : Codec Kwargs) (before : Nat) (u t : String) (w : World Kwargs) :
    Prop where
  accounted : ∀ v, Accounted codec w v
  ordered : w.dispatcher.Ordered
  once : (w.accepted u).length = before ∨
    (w.accepted u).length = before + 1 ∧ Shielded u t w.dispatcher

theorem servedOnce_step {before : Nat} {u t : String} (ne : u ≠ t) {w next : World Kwargs}
    {a : Action Kwargs} (h : ServedOnce codec before u t w) (reach : KeepsReach w a)
    (waits : WaitsFor t w a) (stepped : step codec w a = some next) :
    ServedOnce codec before u t next := by
  have accounted := accounted_step h.accounted stepped
  cases a with
  | dispatch =>
      obtain rfl := Option.some.inj stepped
      refine ⟨accounted, ordered_dispatch h.ordered, ?_⟩
      rcases h.once with none | ⟨one, shield⟩
      · rcases @accepted_dispatch Kwargs codec w u t h.ordered reach waits with
          same | ⟨more, shield⟩
        · exact .inl (by rw [same, none])
        · exact .inr ⟨by rw [more, none], shield⟩
      · obtain ⟨kept, same⟩ := shielded_dispatch ne shield h.ordered h.accounted reach waits
        exact .inr ⟨by rw [same, one], kept⟩
  | sendRaises => exact reach.elim
  | consume =>
      obtain ⟨_, _, _, rfl⟩ := consume_eq_some stepped
      exact ⟨accounted, h.ordered, h.once⟩
  | enqueue | publish | lockExpires =>
      obtain rfl := Option.some.inj stepped
      exact ⟨accounted, h.ordered, h.once⟩

theorem ordered_step {w next : World Kwargs} {a : Action Kwargs} (h : w.dispatcher.Ordered)
    (stepped : step codec w a = some next) : next.dispatcher.Ordered := by
  cases a with
  | dispatch =>
      obtain rfl := Option.some.inj stepped
      exact ordered_dispatch h
  | sendRaises =>
      obtain ⟨_, _, _, _, _, _, rfl⟩ := sendRaises_eq_some stepped
      exact List.Pairwise.nil
  | consume =>
      obtain ⟨_, _, _, rfl⟩ := consume_eq_some stepped
      exact h
  | enqueue | publish | lockExpires =>
      obtain rfl := Option.some.inj stepped
      exact h

/-- From any reachable state: in a segment in which every `send_task` leaves the waiting
tenants behind it within reach of its batch, no tenant is served twice while another
tenant waits throughout. -/
theorem bypass_at_most_once {as bs : List (Action Kwargs)} {w₀ w₁ : World Kwargs}
    {t u : String} (ne : u ≠ t)
    (run : Run (Steps (step codec)) World.empty as w₀)
    (segment : Run (Guarded (fun w a => KeepsReach w a ∧ WaitsFor t w a) (Steps (step codec)))
      w₀ bs w₁) :
    (w₁.accepted u).length ≤ (w₀.accepted u).length + 1 := by
  have ordered := run.invariant (fun w => w.dispatcher.Ordered)
    (fun _ _ _ held stepped => ordered_step held stepped) List.Pairwise.nil
  have start : ServedOnce codec (w₀.accepted u).length u t w₀ :=
    ⟨accounted_run run, ordered, .inl rfl⟩
  have finish := segment.invariant (ServedOnce codec (w₀.accepted u).length u t)
    (fun _ _ _ held stepped => servedOnce_step ne held stepped.1.1 stepped.1.2 stepped.2) start
  rcases finish.once with none | ⟨one, -⟩
  · omega
  · omega

/-- Two tenants with two tasks each. -/
def twoTenants : List (Action Unit) :=
  List.replicate 2 (.enqueue "a" "ingest" ()) ++ List.replicate 2 (.enqueue "b" "ingest" ())

/-- One batch serves both; `a` is served once while `b` waits for its turn. -/
theorem bypass_two_tenants :
    ∃ w₀ w₁, exec (step bareCodec) World.empty twoTenants = some w₀ ∧
      exec (guardStep (fun w a => KeepsReach w a ∧ WaitsFor "b" w a) (step bareCodec)) w₀
        (List.replicate 6 .dispatch) = some w₁ ∧
      (w₁.accepted "a").length ≤ (w₀.accepted "a").length + 1 := by
  obtain ⟨w₀, w₁, enqueued, computed⟩ :
      ∃ w₀ w₁, exec (step bareCodec) World.empty twoTenants = some w₀ ∧
        exec (guardStep (fun w a => KeepsReach w a ∧ WaitsFor "b" w a) (step bareCodec)) w₀
          (List.replicate 6 .dispatch) = some w₁ :=
    ⟨_, _, rfl, rfl⟩
  have other : "a" ≠ "b" := by decide
  exact ⟨w₀, w₁, enqueued, computed,
    bypass_at_most_once other (run_of_exec enqueued) (guarded_run_of_exec computed)⟩

/-- Two tenants with two tasks each and a third one behind them. -/
def threeTenants : List (Action Unit) := twoTenants ++ [.enqueue "c" "ingest" ()]

/-- A batch that serves `a` and `b`, the worker's consumption of both, and the next
batch up to its first `send_task`. -/
def nextBatchStartsOver : List (Action Unit) :=
  List.replicate 10 .dispatch ++ [.consume, .consume] ++ List.replicate 5 .dispatch

/-- With three tenants, `a` is served in both batches while `c` waits. -/
theorem restart_passes_over :
    ¬ ∀ (as bs : List (Action Unit)) (w₀ w₁ : World Unit) (t u : String), u ≠ t →
      Run (Steps (step bareCodec)) World.empty as w₀ →
      Run (Guarded (WaitsFor t) (Steps (step bareCodec))) w₀ bs w₁ →
        (w₁.accepted u).length ≤ (w₀.accepted u).length + 1 := by
  intro bounded
  obtain ⟨w₀, w₁, enqueued, computed, twice⟩ :
      ∃ w₀ w₁, exec (step bareCodec) World.empty threeTenants = some w₀ ∧
        exec (guardStep (WaitsFor "c") (step bareCodec)) w₀ nextBatchStartsOver = some w₁ ∧
        ¬ (w₁.accepted "a").length ≤ (w₀.accepted "a").length + 1 :=
    ⟨_, _, rfl, rfl, by decide⟩
  exact twice (bounded _ _ w₀ w₁ "c" "a" (by decide) (run_of_exec enqueued)
    (guarded_run_of_exec computed))

end TenantLibrary.FairQueue

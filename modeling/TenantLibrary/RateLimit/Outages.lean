import Mathlib.Algebra.BigOperators.Group.Finset.Basic
import Mathlib.Algebra.Order.BigOperators.Group.Finset
import TenantLibrary.Lib.Lifetimes
import TenantLibrary.RateLimit.Quota

/-!
The rate limiter when Redis is slow or fails.

The pipeline of a request can raise before Redis executes it or after, and then the request
is let through without being metered; and Redis can execute it well after the clock was
read, in a later minute than the one the key names. What remains of the quota is a bound on
the metered requests that pass (`passes_bounded`), and that a request is refused for a
reason: so many requests with its key were executed in the minute before it
(`refusals_justified`).
-/

namespace TenantLibrary.RateLimit

open TenantLibrary.Lib

/-! ### Requests -/

/-- How the pipeline of a request ends. -/
inductive Pipeline where
  | answered
  /-- it raises, and Redis has not executed it -/
  | refused
  /-- it raises after Redis has executed it -/
  | unanswered
deriving DecidableEq, Repr

/-- `TenantRateLimitMiddleware.dispatch`: whatever the pipeline raises, the request is passed
on as when Redis is not available. -/
def serve (limit : Int) (pipeline : Pipeline) (redis : Counters String) (request : Request) :
    Outcome × Counters String :=
  match pipeline with
  | .answered => dispatch limit true redis request
  | .refused => dispatch limit false redis request
  | .unanswered =>
      ((dispatch limit false redis request).1, (dispatch limit true redis request).2)

/-- A request that was served. -/
structure Entry where
  request : Request
  pipeline : Pipeline
  outcome : Outcome
deriving DecidableEq, Repr

/-- Redis executed the pipeline of the request. -/
def Entry.executed (entry : Entry) : Bool :=
  entry.request.slug.isSome && entry.pipeline ≠ .refused

/-- A request is served: Redis executes its pipeline at a time that is not past and at most
`delay` after the clock was read. -/
structure Serving (limit : Int) (delay : Nat) (s : Counters.Clocked String) (entry : Entry)
    (t : Counters.Clocked String) : Prop where
  served : serve limit entry.pipeline s.counters entry.request = (entry.outcome, t.counters)
  clock : entry.executed → s.now ≤ entry.request.executedAt ∧
    entry.request.readAt ≤ entry.request.executedAt ∧
    entry.request.executedAt ≤ entry.request.readAt + delay ∧ t.now = entry.request.executedAt
  still : entry.executed = false → t.now = s.now

variable {limit : Int} {delay : Nat} {s t : Counters.Clocked String} {entry : Entry}

/-- An executed pipeline is a hit; when it is answered, the outcome follows from the count. -/
theorem Serving.hits (serving : Serving limit delay s entry t) {slug : String}
    (isSlug : entry.request.slug = some slug) (reached : entry.pipeline ≠ .refused) :
    ∃ count, Counters.Hits (60 * 1000) s (hitFor slug entry.request count) t ∧
      (entry.pipeline = .answered → entry.outcome = verdict limit entry.request count) := by
  have served := serving.served
  obtain ⟨order, -, -, clock⟩ := serving.clock (by simp [Entry.executed, isSlug, reached])
  have isSlug : tenantSlug entry.request.path = some slug := isSlug
  refine ⟨(s.counters.hit (60 * 1000) entry.request.executedAt
    (redisKey slug entry.request.minute)).1, ⟨order, ?_, clock⟩, ?_⟩
  · cases is : entry.pipeline with
    | answered =>
        simp only [is, serve, dispatch, isSlug, if_true] at served
        exact Prod.ext rfl (Prod.mk.inj served).2
    | refused => exact absurd is reached
    | unanswered =>
        simp only [is, serve, dispatch, isSlug, if_true] at served
        exact Prod.ext rfl (Prod.mk.inj served).2
  · intro answered
    simp only [answered, serve, dispatch, isSlug, if_true] at served
    exact (Prod.mk.inj served).1.symm

/-- Any other request leaves Redis alone and is passed on. -/
theorem Serving.bypass (serving : Serving limit delay s entry t)
    (apart : entry.executed = false) : t = s ∧ entry.outcome.Passed := by
  have served := serving.served
  have clock := serving.still apart
  have unchanged : t.counters = s.counters ∧ entry.outcome = .handled none := by
    simp only [Entry.executed, Bool.and_eq_false_iff, Option.isSome_eq_false_iff,
      Option.isNone_iff_eq_none, decide_eq_false_iff_not, not_not] at apart
    rcases apart with noSlug | refused
    · have noSlug : tenantSlug entry.request.path = none := noSlug
      cases is : entry.pipeline <;> simp only [is, serve, dispatch, noSlug] at served <;>
        exact ⟨(Prod.mk.inj served).2.symm, (Prod.mk.inj served).1.symm⟩
    · simp only [refused, serve, dispatch] at served
      split at served
      · exact ⟨(Prod.mk.inj served).2.symm, (Prod.mk.inj served).1.symm⟩
      · simp only [Bool.false_eq_true, if_false] at served
        exact ⟨(Prod.mk.inj served).2.symm, (Prod.mk.inj served).1.symm⟩
  obtain ⟨counters, outcome⟩ := unchanged
  refine ⟨?_, by rw [outcome]; trivial⟩
  cases s
  cases t
  simp_all

/-! ### What passes -/

/-- A metered request of the slug passes. -/
def Entry.passes (slug : String) (entry : Entry) : Bool :=
  entry.request.slug = some slug && entry.pipeline = .answered &&
    match entry.outcome with
    | .handled _ => true
    | .tooMany .. => false

/-- The clock minutes that a delay can reach into, the request's own included. -/
def lifetimes (delay : Nat) : Nat := (delay + 59999) / 60000 + 1

/-- The clock minutes that a time of this length can touch. -/
def minutes (length : Nat) : Nat := (length + 59998) / 60000 + 1

/-- The metered requests of a slug that pass under the key of a minute. -/
def passesIn (slug : String) (minute : Nat) (entries : List Entry) : Nat :=
  entries.countP fun entry => entry.passes slug && entry.request.minute = minute

/-- The counter of a slug and minute lets so many pass. -/
def Limited (limit : Int) (delay : Nat) (slug : String) (minute : Nat) (entries : List Entry)
    (s : Counters.Clocked String) : Prop :=
  Counters.Spent (minute * (60 * 1000)) (60 * 1000) (lifetimes delay) limit.toNat
    (redisKey slug minute) (passesIn slug minute entries) s

variable {slug : String} {minute : Nat} {entries : List Entry}

theorem passesIn_snoc : passesIn slug minute (entries ++ [entry]) = passesIn slug minute entries +
    if entry.passes slug && entry.request.minute = minute then 1 else 0 := by
  rw [passesIn, List.countP_append, List.countP_singleton, passesIn]

theorem Limited.step (limited : Limited limit delay slug minute entries s)
    (serving : Serving limit delay s entry t) :
    Limited limit delay slug minute (entries ++ [entry]) t := by
  unfold Limited
  rw [passesIn_snoc]
  -- no pass of this slug and minute
  have idle (spent : Counters.Spent (minute * (60 * 1000)) (60 * 1000) (lifetimes delay) limit.toNat
        (redisKey slug minute) (passesIn slug minute entries) t)
      (none_ : (entry.passes slug && entry.request.minute = minute) = false) :
      Counters.Spent (minute * (60 * 1000)) (60 * 1000) (lifetimes delay) limit.toNat
        (redisKey slug minute) (passesIn slug minute entries +
          if entry.passes slug && entry.request.minute = minute then 1 else 0) t := by
    rw [none_]
    exact spent
  cases reached : entry.executed with
  | false =>
      obtain ⟨rfl, -⟩ := serving.bypass reached
      refine idle limited ?_
      simp only [Entry.executed, Bool.and_eq_false_iff, Option.isSome_eq_false_iff,
        Option.isNone_iff_eq_none, decide_eq_false_iff_not, not_not] at reached
      rcases reached with noSlug | refused
      · simp [Entry.passes, noSlug]
      · simp [Entry.passes, refused]
  | true =>
      simp only [Entry.executed, Bool.and_eq_true, Option.isSome_iff_exists,
        decide_eq_true_eq] at reached
      obtain ⟨⟨slug', isSlug⟩, notRefused⟩ := reached
      obtain ⟨-, after, soon, -⟩ := serving.clock (by simp [Entry.executed, isSlug, notRefused])
      obtain ⟨count, hits, outcome⟩ := serving.hits isSlug notRefused
      by_cases same : slug' = slug ∧ entry.request.minute = minute
      · obtain ⟨rfl, rfl⟩ := same
        have inMinute : entry.request.minute * (60 * 1000) ≤ entry.request.readAt ∧
            entry.request.readAt < entry.request.minute * (60 * 1000) + 60000 := by
          simp only [Request.minute, seconds]
          omega
        have closes : entry.request.executedAt <
            entry.request.minute * (60 * 1000) + lifetimes delay * (60 * 1000) := by
          simp only [lifetimes]
          omega
        have spent := @Counters.Spent.hit _ _ _ _ _ _ _ _ _
          (hitFor slug' entry.request count) limited (inMinute.1.trans after) closes hits
        refine spent.mono (Nat.add_le_add_left ?_ _)
        -- a metered request passes only with a count within the limit
        by_cases passes : entry.passes slug' = true
        · have answered : entry.pipeline = .answered := by
            simp only [Entry.passes, Bool.and_eq_true, decide_eq_true_eq] at passes
            exact passes.1.2
          have passed : (verdict limit entry.request count).Passed := by
            rw [← outcome answered]
            simp only [Entry.passes, Bool.and_eq_true] at passes
            cases is : entry.outcome with
            | handled headers => trivial
            | tooMany detail retryAfter headers => simp [is] at passes
          have within : count ≤ limit.toNat := by
            have := (passed_verdict entry.request count).mp passed
            omega
          simp [passes, hitFor, within]
        · simp [passes]
      · have different : redisKey slug minute ≠ redisKey slug' entry.request.minute := by
          intro key
          obtain ⟨rfl, rfl⟩ := redisKey_inj.mp key
          exact same ⟨rfl, rfl⟩
        refine idle (Counters.Spent.other limited different hits) ?_
        by_cases passes : entry.passes slug = true
        · have slugs : slug' = slug := by
            simp only [Entry.passes, Bool.and_eq_true, decide_eq_true_eq, isSlug,
              Option.some.injEq] at passes
            exact passes.1.1
          have other : ¬ entry.request.minute = minute := fun isMinute => same ⟨slugs, isMinute⟩
          simp [passes, other]
        · simp [passes]

/-- Under the key of one minute, as many pass as the limit says, once for each lifetime. -/
theorem passesIn_le {start : Counters.Clocked String}
    (noKeys : ∀ slug minute, start.counters (redisKey slug minute) = none)
    (run : Run (Serving limit delay) start entries s) (slug : String) (minute : Nat) :
    passesIn slug minute entries ≤ lifetimes delay * limit.toNat := by
  have limited : Limited limit delay slug minute entries s :=
    run.invariant_trace (Limited limit delay slug minute) (fun _ _ _ _ held serving => held.step serving)
      (.gone 0 (noKeys slug minute) (.inl rfl) (Nat.zero_le _) (Nat.zero_le _))
  exact limited.le

/-- The metered requests of a slug that pass, of those whose clock reading falls into a time. -/
def passesWithin (slug : String) (opens length : Nat) (entries : List Entry) : Nat :=
  entries.countP fun entry => entry.passes slug && opens ≤ entry.request.readAt &&
    entry.request.readAt < opens + length

theorem countP_le_sum {α : Type*} (p : α → Bool) (q : Nat → α → Bool) (n : Nat) (xs : List α)
    (covered : ∀ x ∈ xs, p x → ∃ i < n, q i x) :
    xs.countP p ≤ ∑ i ∈ Finset.range n, xs.countP (q i) := by
  induction xs with
  | nil => simp
  | cons x xs ih =>
      have rest := ih fun y mem => covered y (List.mem_cons_of_mem _ mem)
      have head : (if p x then 1 else 0) ≤ ∑ i ∈ Finset.range n, if q i x then 1 else 0 := by
        by_cases holds : p x
        · obtain ⟨i, less, qi⟩ := covered x List.mem_cons_self holds
          have single := Finset.single_le_sum (f := fun i => if q i x then 1 else 0)
            (fun _ _ => Nat.zero_le _) (Finset.mem_range.mpr less)
          simpa [holds, qi] using single
        · simp [holds]
      simp only [List.countP_cons, Finset.sum_add_distrib]
      exact Nat.add_le_add rest head

/-- Whatever the pipelines do: of the metered requests of a slug whose clock readings fall into
a time of any length, no more pass than the limit for each clock minute the time can touch and
each lifetime a delay can bring about. Without delays that is twice the limit in any minute. -/
theorem passes_bounded {start : Counters.Clocked String}
    (noKeys : ∀ slug minute, start.counters (redisKey slug minute) = none)
    (run : Run (Serving limit delay) start entries s) (slug : String) (opens length : Nat) :
    passesWithin slug opens length entries ≤ minutes length * (lifetimes delay * limit.toNat) := by
  have covered : passesWithin slug opens length entries ≤
      ∑ i ∈ Finset.range (minutes length), passesIn slug (opens / 60000 + i) entries := by
    refine countP_le_sum _ (fun i entry => entry.passes slug &&
      entry.request.minute = opens / 60000 + i) _ entries fun entry _ holds => ?_
    simp only [Bool.and_eq_true, decide_eq_true_eq] at holds
    obtain ⟨⟨passes, after⟩, before⟩ := holds
    refine ⟨entry.request.minute - opens / 60000, ?_, ?_⟩
    · simp only [minutes, Request.minute, seconds]
      omega
    · have later : opens / 60000 ≤ entry.request.minute := by
        simp only [Request.minute, seconds]
        omega
      simp [passes, Nat.add_sub_of_le later]
  calc passesWithin slug opens length entries
      ≤ ∑ i ∈ Finset.range (minutes length), passesIn slug (opens / 60000 + i) entries := covered
    _ ≤ ∑ _i ∈ Finset.range (minutes length), lifetimes delay * limit.toNat :=
        Finset.sum_le_sum fun i _ => passesIn_le noKeys run slug _
    _ = minutes length * (lifetimes delay * limit.toNat) := by
        simp

/-- What a request of a tenant route does when Redis executes its pipeline. -/
def servedBy (limit : Int) (pipeline : Pipeline) (s : Counters.Clocked String)
    (request : Request) : Outcome × Counters.Clocked String :=
  let (outcome, counters) := serve limit pipeline s.counters request
  (outcome, ⟨request.executedAt, counters⟩)

theorem serving_servedBy {request : Request} {pipeline : Pipeline} (isTenant : request.slug.isSome)
    (reached : pipeline ≠ .refused)
    (timely : s.now ≤ request.executedAt ∧ request.readAt ≤ request.executedAt ∧
      request.executedAt ≤ request.readAt + delay) :
    Serving limit delay s ⟨request, pipeline, (servedBy limit pipeline s request).1⟩
      (servedBy limit pipeline s request).2 := by
  constructor
  case served => rfl
  case clock =>
    intro _
    obtain ⟨order, after, soon⟩ := timely
    exact ⟨order, after, soon, rfl⟩
  case still =>
    intro apart
    simp [Entry.executed, isTenant, reached] at apart

/-- At the turn of a clock minute twice the limit passes within a minute, and twice that when
the pipelines of two more requests are only executed once the keys have expired. A request
between them is counted, but not answered. -/
theorem passes_at_the_turn : ∃ entries s,
    Run (Serving 1 60000) ⟨0, fun _ => none⟩ entries s ∧
      entries.map (·.pipeline) = [.answered, .unanswered, .answered, .answered, .answered] ∧
      entries.map (fun entry => (entry.request.readAt, entry.request.executedAt)) =
        [(59999, 59999), (59999, 59999), (60000, 60000), (59999, 119999), (60000, 120000)] ∧
      passesWithin "acme" 59999 60000 entries = 4 ∧
      passesWithin "acme" 59999 60000 entries ≤
        minutes 60000 * (lifetimes 60000 * (1 : Int).toNat) ∧
      minutes 60000 * (lifetimes 60000 * (1 : Int).toNat) = 4 := by
  let late (readAt executedAt : Nat) : Request := { booksAt "acme" readAt with executedAt }
  let first := servedBy 1 .answered ⟨0, fun _ => none⟩ (late 59999 59999)
  let second := servedBy 1 .unanswered first.2 (late 59999 59999)
  let third := servedBy 1 .answered second.2 (late 60000 60000)
  let fourth := servedBy 1 .answered third.2 (late 59999 119999)
  let fifth := servedBy 1 .answered fourth.2 (late 60000 120000)
  have isTenant (readAt executedAt : Nat) : (late readAt executedAt).slug.isSome := by
    change (tenantSlug (booksAt "acme" 0).path).isSome = true
    decide +kernel
  have run : Run (Serving 1 60000) ⟨0, fun _ => none⟩
      [⟨late 59999 59999, .answered, first.1⟩, ⟨late 59999 59999, .unanswered, second.1⟩,
        ⟨late 60000 60000, .answered, third.1⟩, ⟨late 59999 119999, .answered, fourth.1⟩,
        ⟨late 60000 120000, .answered, fifth.1⟩] fifth.2 :=
    .cons (serving_servedBy (isTenant _ _) nofun (by decide)) <|
      .cons (serving_servedBy (isTenant _ _) nofun (by decide)) <|
      .cons (serving_servedBy (isTenant _ _) nofun (by decide)) <|
      .cons (serving_servedBy (isTenant _ _) nofun (by decide)) <|
      .cons (serving_servedBy (isTenant _ _) nofun (by decide)) <| .nil _
  exact ⟨_, _, run, rfl, rfl, by decide +kernel,
    passes_bounded (fun _ _ => rfl) run "acme" 59999 60000, by decide⟩

/-! ### What is refused -/

/-- The hits of the requests executed so far. -/
def hitsOf (entries : List Entry) : List (String × Nat) :=
  entries.filterMap fun entry =>
    if entry.executed then entry.request.counterKey.map (·, entry.request.executedAt) else none

theorem hitsOf_snoc_executed {slug : String} (isSlug : entry.request.slug = some slug)
    (reached : entry.pipeline ≠ .refused) :
    hitsOf (entries ++ [entry]) = hitsOf entries ++
      [(redisKey slug entry.request.minute, entry.request.executedAt)] := by
  simp [hitsOf, List.filterMap_append, Entry.executed, Request.counterKey, isSlug, reached]

theorem hitsOf_snoc_bypassed (apart : entry.executed = false) :
    hitsOf (entries ++ [entry]) = hitsOf entries := by
  simp [hitsOf, List.filterMap_append, apart]

theorem backed_step {key : String}
    (backed : Counters.Backed (60 * 1000) key (hitsOf entries) s)
    (serving : Serving limit delay s entry t) :
    Counters.Backed (60 * 1000) key (hitsOf (entries ++ [entry])) t := by
  cases reached : entry.executed with
  | false =>
      obtain ⟨rfl, -⟩ := serving.bypass reached
      rw [hitsOf_snoc_bypassed reached]
      exact backed
  | true =>
      simp only [Entry.executed, Bool.and_eq_true, Option.isSome_iff_exists,
        decide_eq_true_eq] at reached
      obtain ⟨⟨slug, isSlug⟩, notRefused⟩ := reached
      obtain ⟨count, hits, -⟩ := serving.hits isSlug notRefused
      rw [hitsOf_snoc_executed isSlug notRefused]
      by_cases same : key = redisKey slug entry.request.minute
      · subst same
        exact @Counters.Backed.hit _ _ _ _ _ (hitFor slug entry.request count) _ backed hits
      · exact @Counters.Backed.other _ _ _ _ _ _ (hitFor slug entry.request count) _ backed same hits

/-- The requests with a slug and a clock minute that Redis executed less than a minute before
a time. -/
def executedBefore (slug : String) (minute time : Nat) (entries : List Entry) : List Entry :=
  entries.filter fun entry => entry.executed && entry.request.slug = some slug &&
    entry.request.minute = minute && time < entry.request.executedAt + 60 * 1000

theorem length_recent (slug : String) (minute time : Nat) (entries : List Entry) :
    (Counters.recent (60 * 1000) (redisKey slug minute) time (hitsOf entries)).length =
      (executedBefore slug minute time entries).length := by
  have one (entry : Entry) :
      (Counters.recent (60 * 1000) (redisKey slug minute) time (hitsOf [entry])).length =
        (executedBefore slug minute time [entry]).length := by
    cases reached : entry.executed with
    | false => simp [hitsOf, executedBefore, reached, Counters.recent]
    | true =>
        cases isSlug : entry.request.slug with
        | none => simp [Entry.executed, isSlug] at reached
        | some slug' =>
            have keys : redisKey slug' entry.request.minute = redisKey slug minute ↔
                slug' = slug ∧ entry.request.minute = minute := redisKey_inj
            by_cases same : slug' = slug ∧ entry.request.minute = minute
            · by_cases recent : time < entry.request.executedAt + 60 * 1000 <;>
                simp [hitsOf, executedBefore, reached, Counters.recent, Request.counterKey, isSlug,
                  same, recent]
            · have other : redisKey slug' entry.request.minute ≠ redisKey slug minute :=
                mt keys.mp same
              have apart : executedBefore slug minute time [entry] = [] := by
                rw [executedBefore, List.filter_eq_nil_iff]
                intro each mem
                obtain rfl := List.mem_singleton.mp mem
                simp only [isSlug, Option.some.injEq, Bool.and_eq_true, decide_eq_true_eq, not_and]
                exact fun here => absurd ⟨here.1.2, here.2⟩ same
              rw [apart]
              simp [hitsOf, reached, Counters.recent, Request.counterKey, isSlug, other]
  induction entries with
  | nil => rfl
  | cons entry entries ih =>
      have hits : hitsOf (entry :: entries) = hitsOf [entry] ++ hitsOf entries := by
        rw [hitsOf, hitsOf, hitsOf, ← List.filterMap_append, List.singleton_append]
      have executed : executedBefore slug minute time (entry :: entries) =
          executedBefore slug minute time [entry] ++ executedBefore slug minute time entries := by
        rw [executedBefore, executedBefore, executedBefore, ← List.filter_append,
          List.singleton_append]
      rw [hits, executed, Counters.recent, List.filter_append, List.length_append,
        List.length_append]
      exact congrArg₂ (· + ·) (one entry) ih

/-- Whatever the pipelines do, a request is refused only after as many requests of its slug and
clock minute as the limit says, all executed within the minute before its own. -/
theorem refusals_justified {start : Counters.Clocked String}
    (noKeys : ∀ slug minute, start.counters (redisKey slug minute) = none)
    (run : Run (Serving limit delay) start entries s) (serving : Serving limit delay s entry t)
    (refused : ¬ entry.outcome.Passed) :
    ∃ slug, entry.request.slug = some slug ∧
      limit.toNat ≤ (executedBefore slug entry.request.minute entry.request.executedAt
        entries).length := by
  have reached : entry.executed = true := by
    by_contra apart
    exact refused (serving.bypass (Bool.eq_false_iff.mpr apart)).2
  simp only [Entry.executed, Bool.and_eq_true, Option.isSome_iff_exists,
    decide_eq_true_eq] at reached
  obtain ⟨⟨slug, isSlug⟩, notRefused⟩ := reached
  obtain ⟨count, hits, outcome⟩ := serving.hits isSlug notRefused
  have backed : Counters.Backed (60 * 1000) (redisKey slug entry.request.minute) (hitsOf entries) s :=
    run.invariant_trace
      (fun entries s => Counters.Backed (60 * 1000) (redisKey slug entry.request.minute)
        (hitsOf entries) s)
      (fun _ _ _ _ held serving => backed_step held serving)
      (fun counter there => by simp [noKeys] at there)
  have backed : Counters.Backed (60 * 1000) (hitFor slug entry.request count).key
    (hitsOf entries) s := backed
  have beyond : limit < (count : Int) := by
    cases is : entry.pipeline with
    | answered =>
        rw [outcome is, passed_verdict] at refused
        omega
    | refused => exact absurd is notRefused
    | unanswered =>
        have served := serving.served
        have isSlug : tenantSlug entry.request.path = some slug := isSlug
        simp only [is, serve, dispatch, isSlug, Bool.false_eq_true, if_false] at served
        rw [← (Prod.mk.inj served).1] at refused
        exact absurd trivial refused
  refine ⟨slug, isSlug, ?_⟩
  rw [← length_recent]
  have counted : count ≤ (Counters.recent (60 * 1000) (redisKey slug entry.request.minute)
    entry.request.executedAt (hitsOf entries)).length + 1 := backed.count_le hits
  omega

/-- A request that Redis counted, but did not answer, leaves no room for the next one. -/
theorem refused_after_unanswered : ∃ entries entry s t,
    Run (Serving 1 0) ⟨0, fun _ => none⟩ entries s ∧ Serving 1 0 s entry t ∧
      entries.map (·.outcome) = [.handled none] ∧
      entry.outcome = .tooMany "Rate limit exceeded" 40 ⟨1, 0, 60⟩ ∧
      ∃ slug, entry.request.slug = some slug ∧
        (1 : Int).toNat ≤ (executedBefore slug entry.request.minute entry.request.executedAt
          entries).length := by
  let first := servedBy 1 .unanswered ⟨0, fun _ => none⟩ (booksAt "acme" 10000)
  let second := servedBy 1 .answered first.2 (booksAt "acme" 20000)
  have run : Run (Serving 1 0) ⟨0, fun _ => none⟩
      [⟨booksAt "acme" 10000, .unanswered, first.1⟩] first.2 :=
    .cons (serving_servedBy (by decide +kernel) nofun (by decide)) <| .nil _
  have serving : Serving 1 0 first.2 ⟨booksAt "acme" 20000, .answered, second.1⟩ second.2 :=
    serving_servedBy (by decide +kernel) nofun (by decide)
  have tooMany : second.1 = .tooMany "Rate limit exceeded" 40 ⟨1, 0, 60⟩ := by decide +kernel
  have handled : first.1 = .handled none := by decide +kernel
  clear_value second first
  have refused : ¬ second.1.Passed := by
    rw [tooMany]
    exact id
  exact ⟨_, _, _, _, run, serving, by rw [List.map_singleton, handled], tooMany,
    refusals_justified (fun _ _ => rfl) run serving refused⟩

end TenantLibrary.RateLimit

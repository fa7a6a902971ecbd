import Std.Data.String.ToNat
import TenantLibrary.Lib.Run
import TenantLibrary.RateLimit.Middleware

/-!
The rate limiter admits exactly the quota.

A request of a tenant route is a hit of its key, and the keys of different slugs and
minutes are different (`redisKey_inj`). The lifetime of a key is as long as the window,
so a key does not disappear inside its window, and the requests of one slug in one
minute count 1, 2, 3, ...; `quota_exact` reads the decisions off the counts.
-/

namespace TenantLibrary.RateLimit

open TenantLibrary.Lib

/-! ### Keys -/

theorem colon_not_mem_repr (n : Nat) : ':' ∉ (Nat.repr n).toList := by
  intro mem
  have digit : ':'.isDigit := by
    rw [Nat.toList_repr] at mem
    exact Nat.isDigit_of_mem_toDigits (by decide) (by decide) mem
  exact absurd digit (by decide)

/-- The last colon of a key ends the slug. -/
theorem redisKey_inj {slug slug' : String} {m m' : Nat} :
    redisKey slug m = redisKey slug' m' ↔ slug = slug' ∧ m = m' := by
  constructor
  · intro same
    have texts : (Nat.repr m).toList.reverse ++ ':' ::
          (slug.toList.reverse ++ "ratelimit:".toList.reverse) =
        (Nat.repr m').toList.reverse ++ ':' ::
          (slug'.toList.reverse ++ "ratelimit:".toList.reverse) := by
      simpa [redisKey] using congrArg (List.reverse ∘ String.toList) same
    obtain ⟨digits, slugs⟩ := (append_cons_inj (by simpa using colon_not_mem_repr m)
      (by simpa using colon_not_mem_repr m')).mp texts
    exact ⟨String.toList_injective (List.reverse_injective (List.append_cancel_right slugs)),
      Nat.repr_injective (String.toList_injective (List.reverse_injective digits))⟩
  · rintro ⟨rfl, rfl⟩
    rfl

/-! ### Runs -/

/-- The slug of a request that is counted. -/
def Request.slug (request : Request) : Option String := tenantSlug request.path

/-- The counter of a request that is counted. -/
def Request.counterKey (request : Request) : Option String :=
  request.slug.map (redisKey · request.minute)

/-- A request changes no other counter. -/
theorem dispatch_other {limit : Int} {available : Bool} {redis : Counters String}
    {request : Request} {key : String} (other : request.counterKey ≠ some key) :
    ((dispatch limit available redis request).2.live request.executedAt) key =
      redis.live request.executedAt key := by
  cases isSlug : tenantSlug request.path with
  | none => simp only [dispatch, isSlug]
  | some slug =>
      cases available with
      | false => simp [dispatch, isSlug]
      | true =>
          have different : key ≠ redisKey slug request.minute := by
            rintro rfl
            exact other (by simp [Request.counterKey, Request.slug, isSlug])
          calc ((dispatch limit true redis request).2.live request.executedAt) key
              = ((redis.hit (60 * 1000) request.executedAt (redisKey slug request.minute)).2.live
                  request.executedAt) key := by simp only [dispatch, isSlug, if_true]
            _ = ((redis.live request.executedAt).live request.executedAt) key := by
                simp only [Counters.live, Counters.hit_of_ne different]
            _ = redis.live request.executedAt key := congrFun (Counters.live_live le_rfl) key

/-- A request with available Redis. When it is counted, the clock has not gone back, and Redis
executes the pipeline in the minute that was read. -/
structure Serves (limit : Int) (s : Counters.Clocked String) (label : Request × Outcome)
    (t : Counters.Clocked String) : Prop where
  dispatched : dispatch limit true s.counters label.1 = (label.2, t.counters)
  counted : label.1.slug.isSome → s.now ≤ label.1.executedAt ∧
    seconds label.1.executedAt / 60 = label.1.minute ∧ t.now = label.1.executedAt
  bypassed : label.1.slug = none → t.now = s.now

/-- The requests of a slug in a minute. -/
def requestsOf (labels : List (Request × Outcome)) (slug : String) (minute : Nat) :
    List (Request × Outcome) :=
  labels.filter fun label => label.1.slug = some slug ∧ label.1.minute = minute

/-- The response of the handler. -/
def Outcome.Passed : Outcome → Prop
  | .handled _ => True
  | .tooMany .. => False

/-- `X-RateLimit-Remaining`. -/
def Outcome.remaining : Outcome → Option Int
  | .handled headers => headers.map (·.remaining)
  | .tooMany _ _ headers => some headers.remaining

/-- The first requests, as many as the limit, pass; the `k`-th of them has the limit less `k`
remaining; the others get a 429. -/
structure MeetsQuota (limit : Int) (outcomes : List Outcome) : Prop where
  passed : ∀ o ∈ outcomes.take (min outcomes.length (max 0 limit).toNat), o.Passed
  refused : ∀ o ∈ outcomes.drop (min outcomes.length (max 0 limit).toNat), ¬ o.Passed
  remaining : ∀ k (h : k < outcomes.length), outcomes[k].Passed →
    outcomes[k].remaining = some (limit - (k + 1))

/-! ### Requests are hits -/

/-- The hit of a request of a slug. -/
def hitFor (slug : String) (request : Request) (count : Nat) : Counters.Hit String :=
  ⟨redisKey slug request.minute, request.executedAt, count⟩

variable {limit : Int} {s t : Counters.Clocked String} {label : Request × Outcome}

/-- A request of a tenant route is a hit in the window of its key, and its outcome follows
from the count. -/
theorem Serves.hits (serves : Serves limit s label t) {slug : String}
    (isSlug : label.1.slug = some slug) :
    ∃ count, Counters.Hits (60 * 1000) s (hitFor slug label.1 count) t ∧
      (hitFor slug label.1 count).InWindow (label.1.minute * (60 * 1000)) (60 * 1000) ∧
      label.2 = verdict limit label.1 count := by
  have dispatched := serves.dispatched
  obtain ⟨order, sameMinute, clock⟩ := serves.counted (by simp [isSlug])
  have isSlug : tenantSlug label.1.path = some slug := isSlug
  simp only [dispatch, isSlug, if_true] at dispatched
  obtain ⟨outcome, counters⟩ := Prod.mk.inj dispatched
  refine ⟨_, ⟨order, Prod.ext rfl counters, clock⟩, ?_, outcome.symm⟩
  simp only [seconds] at sameMinute
  constructor <;> simp only [hitFor] <;> omega

/-- Any other request changes nothing. -/
theorem Serves.bypass (serves : Serves limit s label t) (noSlug : label.1.slug = none) :
    t = s ∧ label.2 = .handled none := by
  have dispatched := serves.dispatched
  have clock := serves.bypassed noSlug
  have noSlug : tenantSlug label.1.path = none := noSlug
  simp only [dispatch, noSlug] at dispatched
  obtain ⟨outcome, counters⟩ := Prod.mk.inj dispatched
  refine ⟨?_, outcome.symm⟩
  cases s
  cases t
  simp_all

/-! ### The quota -/

/-- The `k`-th outcome is the one of count `k`. -/
def Numbered (limit : Int) (served : List (Request × Outcome)) : Prop :=
  ∀ k (h : k < served.length), served[k].2 = verdict limit served[k].1 (k + 1)

theorem Numbered.snoc {served : List (Request × Outcome)} (numbered : Numbered limit served)
    (last : label.2 = verdict limit label.1 (served.length + 1)) :
    Numbered limit (served ++ [label]) := by
  intro k h
  rw [List.length_append, List.length_singleton] at h
  by_cases old : k < served.length
  · rw [List.getElem_append_left old]
    exact numbered k old
  · obtain rfl : k = served.length := by omega
    simpa using last

variable {labels : List (Request × Outcome)} {slug : String} {minute : Nat}

theorem requestsOf_snoc_of_eq (isSlug : label.1.slug = some slug) (isMinute : label.1.minute = minute) :
    requestsOf (labels ++ [label]) slug minute = requestsOf labels slug minute ++ [label] := by
  simp [requestsOf, List.filter_append, isSlug, isMinute]

theorem requestsOf_snoc_of_ne (other : ¬ (label.1.slug = some slug ∧ label.1.minute = minute)) :
    requestsOf (labels ++ [label]) slug minute = requestsOf labels slug minute := by
  rw [requestsOf, List.filter_append]
  simp [requestsOf, other]

/-- The counter of a slug and minute counts the requests, and each got its number. -/
def Tallied (limit : Int) (slug : String) (minute : Nat) (labels : List (Request × Outcome))
    (s : Counters.Clocked String) : Prop :=
  Counters.Counting (minute * (60 * 1000)) (60 * 1000) (redisKey slug minute)
      (requestsOf labels slug minute).length s ∧
    Numbered limit (requestsOf labels slug minute)

theorem Tallied.step (tallied : Tallied limit slug minute labels s) (serves : Serves limit s label t) :
    Tallied limit slug minute (labels ++ [label]) t := by
  obtain ⟨counting, numbered⟩ := tallied
  cases isSlug : label.1.slug with
  | none =>
      obtain ⟨rfl, _⟩ := serves.bypass isSlug
      unfold Tallied
      rw [requestsOf_snoc_of_ne (by simp [isSlug])]
      exact ⟨counting, numbered⟩
  | some slug' =>
      obtain ⟨count, hits, inWindow, outcome⟩ := serves.hits isSlug
      unfold Tallied
      by_cases same : slug' = slug ∧ label.1.minute = minute
      · obtain ⟨rfl, rfl⟩ := same
        obtain ⟨counted, counting⟩ :=
          @Counters.Counting.hit _ _ _ _ _ _ _ (hitFor slug' label.1 count) counting inWindow hits
        rw [requestsOf_snoc_of_eq isSlug rfl, List.length_append, List.length_singleton]
        refine ⟨counting, numbered.snoc ?_⟩
        rw [outcome]
        exact congrArg (verdict limit label.1) counted
      · have different : redisKey slug minute ≠ redisKey slug' label.1.minute := by
          intro key
          obtain ⟨rfl, rfl⟩ := redisKey_inj.mp key
          exact same ⟨rfl, rfl⟩
        rw [requestsOf_snoc_of_ne (by simpa [isSlug] using same)]
        exact ⟨counting.other different hits, numbered⟩

theorem passed_verdict (request : Request) (count : Nat) :
    (verdict limit request count).Passed ↔ (count : Int) ≤ limit := by
  unfold verdict
  dsimp only
  split
  · simpa [Outcome.Passed] using ‹(count : Int) > limit›
  · simpa [Outcome.Passed] using ‹¬ (count : Int) > limit›

theorem remaining_verdict {request : Request} {count : Nat} (within : (count : Int) ≤ limit) :
    (verdict limit request count).remaining = some (limit - count) := by
  have admitted : ¬ (count : Int) > limit := by omega
  simp only [verdict, if_neg admitted, Outcome.remaining, Option.map_some]
  congr 1
  omega

/-- Outcomes with their numbers meet the quota. -/
theorem Numbered.meetsQuota {served : List (Request × Outcome)} (numbered : Numbered limit served) :
    MeetsQuota limit (served.map (·.2)) := by
  have passes (k : Nat) (h : k < served.length) : (served[k].2).Passed ↔ (k + 1 : Int) ≤ limit := by
    rw [numbered k h, passed_verdict]
    simp
  constructor
  · intro o mem
    obtain ⟨k, inside, rfl⟩ := List.mem_take_iff_getElem.mp mem
    simp only [List.length_map] at inside
    rw [List.getElem_map]
    exact (passes k (by omega)).mpr (by omega)
  · intro o mem
    obtain ⟨k, inside, rfl⟩ := List.mem_drop_iff_getElem.mp mem
    simp only [List.length_map] at inside
    rw [List.getElem_map]
    exact fun passed => by
      have within := (passes _ (by simp; omega)).mp passed
      simp only [List.length_map] at within
      omega
  · intro k h passed
    have inside : k < served.length := by simpa using h
    rw [List.getElem_map] at passed ⊢
    rw [numbered k inside, remaining_verdict]
    · simp
    · simpa using (passes k inside).mp passed

/-! ### Independence -/

/-- A hit with this count serves the request. -/
theorem serves_of_hits {s' t' : Counters.Clocked String} {slug : String} {count : Nat}
    (serves : Serves limit s label t) (isSlug : label.1.slug = some slug)
    (outcome : label.2 = verdict limit label.1 count)
    (hits : Counters.Hits (60 * 1000) s' (hitFor slug label.1 count) t') :
    Serves limit s' label t' := by
  obtain ⟨order, returned, clock⟩ := hits
  obtain ⟨_, sameMinute, _⟩ := serves.counted (by simp [isSlug])
  refine ⟨?_, fun _ => ⟨order, sameMinute, clock⟩, fun none => by simp [isSlug] at none⟩
  have isSlug : tenantSlug label.1.path = some slug := isSlug
  have returned : s'.counters.hit (60 * 1000) label.1.executedAt (redisKey slug label.1.minute) =
      (count, t'.counters) := returned
  simp only [dispatch, isSlug, if_true, returned, outcome]

/-- The keys of a slug. -/
def keysOf (slug : String) (key : String) : Prop := ∃ minute, key = redisKey slug minute

/-- The requests of one slug are served the same without the others. -/
theorem run_alone {s s' t : Counters.Clocked String} {labels : List (Request × Outcome)}
    (run : Run (Serves limit) s labels t) (agree : Counters.Agree (keysOf slug) s s') :
    ∃ t', Run (Serves limit) s' (labels.filter fun label => label.1.slug = some slug) t' := by
  induction run generalizing s' with
  | nil s => exact ⟨s', .nil s'⟩
  | @cons s t u label labels serves _ ih =>
      cases isSlug : label.1.slug with
      | none =>
          obtain ⟨rfl, _⟩ := serves.bypass isSlug
          simpa [isSlug] using ih agree
      | some slug' =>
          obtain ⟨count, hits, _, outcome⟩ := serves.hits isSlug
          by_cases same : slug' = slug
          · subst same
            obtain ⟨middle, hits', agree'⟩ := agree.hit ⟨_, rfl⟩ hits
            obtain ⟨t', rest⟩ := ih agree'
            refine ⟨t', ?_⟩
            simp only [List.filter_cons, isSlug, decide_true, if_true]
            exact .cons (serves_of_hits serves isSlug outcome hits') rest
          · have isOther : ¬ keysOf slug (redisKey slug' label.1.minute) := by
              rintro ⟨minute, key⟩
              exact same (redisKey_inj.mp key).1
            simpa [isSlug, same] using ih (agree.other isOther hits)

/-! ### The exact quota -/

/-- Each slug gets exactly its quota in each minute, whatever other slugs request. -/
theorem quota_exact {start s : Counters.Clocked String} {labels : List (Request × Outcome)}
    (noKeys : ∀ slug minute, start.counters (redisKey slug minute) = none)
    (run : Run (Serves limit) start labels s) (slug : String) :
    (∀ minute, MeetsQuota limit ((requestsOf labels slug minute).map (·.2))) ∧
      ∃ t, Run (Serves limit) start (labels.filter fun label => label.1.slug = some slug) t := by
  refine ⟨fun minute => ?_, run_alone run (.refl _ _)⟩
  have tallied : Tallied limit slug minute labels s :=
    run.invariant_trace (Tallied limit slug minute) (fun _ _ _ _ held serves => held.step serves)
      ⟨noKeys slug minute, nofun⟩
  exact tallied.2.meetsQuota

/-- What a request of a tenant route does. -/
def served (limit : Int) (s : Counters.Clocked String) (request : Request) :
    Outcome × Counters.Clocked String :=
  let (outcome, counters) := dispatch limit true s.counters request
  (outcome, ⟨request.executedAt, counters⟩)

theorem serves_served {request : Request} (isTenant : request.slug.isSome)
    (order : s.now ≤ request.executedAt)
    (sameMinute : seconds request.executedAt / 60 = request.minute) :
    Serves limit s (request, (served limit s request).1) (served limit s request).2 :=
  ⟨rfl, fun _ => ⟨order, sameMinute, rfl⟩, fun none => by simp [none] at isTenant⟩

/-- A request for the books of a tenant, handled at once. -/
def booksAt (slug : String) (time : Nat) : Request :=
  ⟨"/api/v1/tenants/" ++ slug ++ "/books", time, time, time⟩

/-- The second request of one slug in a minute is refused, the first one of another is not. -/
theorem second_request_refused : ∃ labels s,
    Run (Serves 1) ⟨0, fun _ => none⟩ labels s ∧
      labels.map (·.2) = [.handled (some ⟨1, 0, 60⟩), .handled (some ⟨1, 0, 60⟩),
        .tooMany "Rate limit exceeded" 30 ⟨1, 0, 60⟩] ∧
      MeetsQuota 1 ((requestsOf labels "acme" 0).map (·.2)) := by
  let first := served 1 ⟨0, fun _ => none⟩ (booksAt "acme" 10000)
  let second := served 1 first.2 (booksAt "bolt" 20000)
  let third := served 1 second.2 (booksAt "acme" 30000)
  have run : Run (Serves 1) ⟨0, fun _ => none⟩
      [(booksAt "acme" 10000, first.1), (booksAt "bolt" 20000, second.1),
        (booksAt "acme" 30000, third.1)] third.2 :=
    .cons (serves_served (by decide +kernel) (by decide +kernel) (by decide +kernel)) <|
      .cons (serves_served (by decide +kernel) (by decide +kernel) (by decide +kernel)) <|
        .cons (serves_served (by decide +kernel) (by decide +kernel) (by decide +kernel)) <| .nil _
  exact ⟨_, _, run, by decide +kernel, (quota_exact (fun _ _ => rfl) run "acme").1 0⟩

end TenantLibrary.RateLimit

import Mathlib.Algebra.Order.Ring.Int
import TenantLibrary.Lib.Counters
import TenantLibrary.Lib.Cut

/-!
The rate limit of tenant routes (`app/middleware/rate_limit.py`).

Requests are counted per tenant slug and clock minute under a Redis key built from both.
Times are in milliseconds; a request carries the three times at which the clock is read
or Redis executes its pipeline.
-/

namespace TenantLibrary.RateLimit

open TenantLibrary.Lib

/-! ### The route -/

/-- The text of `_TENANT_RE` before the slug. -/
def tenantRoute : String := "/api/v1/tenants/"

/-- What is left of a text after a prefix. -/
def afterPrefix : List Char → List Char → Option (List Char)
  | [], text => some text
  | p :: ps, c :: cs => if p = c then afterPrefix ps cs else none
  | _ :: _, [] => none

/-- `/.+$` matches: `.` is any character but a newline, and `$` also stands before a last
newline. -/
def matchesRest (text : List Char) : Bool :=
  match text with
  | '/' :: rest =>
      let line := rest.takeWhile (· ≠ '\n')
      !line.isEmpty && (rest.drop line.length = [] || rest.drop line.length = ['\n'])
  | _ => false

/-- `_TENANT_RE.match(path)`, with its group 1. -/
def tenantSlug (path : String) : Option String :=
  (afterPrefix tenantRoute.toList path.toList).bind fun text =>
    let slug := text.takeWhile (· ≠ '/')
    if !slug.isEmpty && matchesRest (text.drop slug.length) then some (String.ofList slug)
    else none

example : tenantSlug "/api/v1/tenants/acme/books" = some "acme" := by decide +kernel
example : tenantSlug "/api/v1/tenants/acme/" = none := by decide +kernel

theorem afterPrefix_eq_some {pre text rest : List Char} :
    afterPrefix pre text = some rest ↔ text = pre ++ rest := by
  induction pre generalizing text with
  | nil => simp [afterPrefix]
  | cons p ps ih =>
      cases text with
      | nil => simp [afterPrefix]
      | cons c cs =>
          by_cases same : p = c
          · simp [afterPrefix, same, ih]
          · simp [afterPrefix, same, Ne.symm same]

/-- A line of at least one character, and perhaps its end. -/
theorem matchesRest_iff {text : List Char} :
    matchesRest text ↔ ∃ line ending, text = '/' :: (line ++ ending) ∧ line ≠ [] ∧ '\n' ∉ line ∧
      (ending = [] ∨ ending = ['\n']) := by
  constructor
  · intro matched
    unfold matchesRest at matched
    split at matched
    next rest =>
      simp only [Bool.and_eq_true, Bool.or_eq_true, Bool.not_eq_true', List.isEmpty_eq_false_iff,
        decide_eq_true_eq] at matched
      exact ⟨_, _, by rw [takeWhile_append_drop], matched.1, notMem_takeWhile, matched.2⟩
    next => cases matched
  · rintro ⟨line, ending, rfl, nonempty, oneLine, ends⟩
    have taken : (line ++ ending).takeWhile (· ≠ '\n') = line := by
      rw [List.takeWhile_append_of_pos (ne_of_mem_before oneLine)]
      rcases ends with rfl | rfl <;> simp
    simp only [matchesRest, taken, List.drop_left]
    simp [nonempty, ends]

/-- Group 1 of a match. -/
theorem tenantSlug_eq_some {path slug : String} : tenantSlug path = some slug ↔
    ∃ rest, path.toList = tenantRoute.toList ++ (slug.toList ++ rest) ∧
      slug.toList ≠ [] ∧ '/' ∉ slug.toList ∧ matchesRest rest := by
  constructor
  · intro extracted
    obtain ⟨text, after, taken⟩ := Option.bind_eq_some_iff.mp extracted
    simp only [Option.ite_none_right_eq_some, Bool.and_eq_true, Bool.not_eq_true',
      List.isEmpty_eq_false_iff, Option.some.injEq] at taken
    obtain ⟨⟨nonempty, matched⟩, rfl⟩ := taken
    rw [String.toList_ofList]
    refine ⟨_, ?_, nonempty, notMem_takeWhile, matched⟩
    rw [takeWhile_append_drop, afterPrefix_eq_some.mp after]
  · rintro ⟨rest, whole, nonempty, noSlash, matched⟩
    have taken : (slug.toList ++ rest).takeWhile (· ≠ '/') = slug.toList := by
      obtain ⟨_, _, rfl, -⟩ := matchesRest_iff.mp matched
      exact takeWhile_append_cons noSlash
    rw [tenantSlug, afterPrefix_eq_some.mpr whole, Option.bind_some]
    simp only [taken, List.drop_left, String.ofList_toList]
    simp [nonempty, matched]

/-! ### One request -/

structure Request where
  path : String
  /-- the first `time.time()` -/
  readAt : Nat
  /-- when Redis executes the pipeline -/
  executedAt : Nat
  /-- the `time.time()` of `Retry-After` -/
  rejectedAt : Nat
deriving DecidableEq, Repr

/-- `X-RateLimit-Limit`, `X-RateLimit-Remaining` and `X-RateLimit-Reset`. -/
structure RateHeaders where
  limit : Int
  remaining : Int
  reset : Nat
deriving DecidableEq, Repr

/-- The response of the handler, with the headers that are added to it, or a 429. -/
inductive Outcome where
  | handled (headers : Option RateHeaders)
  | tooMany (detail : String) (retryAfter : Int) (headers : RateHeaders)
deriving DecidableEq, Repr

/-- `int(time.time())`. -/
def seconds (time : Nat) : Nat := time / 1000

/-- `now_minute` of a request. -/
def Request.minute (request : Request) : Nat := seconds request.readAt / 60

def redisKey (tenantSlug : String) (nowMinute : Nat) : String :=
  "ratelimit:" ++ tenantSlug ++ ":" ++ Nat.repr nowMinute

/-- What follows from the count of a request. -/
def verdict (limit : Int) (request : Request) (currentCount : Nat) : Outcome :=
  let windowReset := (request.minute + 1) * 60
  let remaining := max 0 (limit - currentCount)
  if (currentCount : Int) > limit then
    .tooMany "Rate limit exceeded" (windowReset - seconds request.rejectedAt)
      ⟨limit, 0, windowReset⟩
  else .handled (some ⟨limit, remaining, windowReset⟩)

/-- `TenantRateLimitMiddleware.dispatch`, when Redis is available or not. -/
def dispatch (limit : Int) (available : Bool) (redis : Counters String) (request : Request) :
    Outcome × Counters String :=
  match tenantSlug request.path with
  | none => (.handled none, redis)
  | some slug =>
      if available then
        let (currentCount, redis) :=
          redis.hit (60 * 1000) request.executedAt (redisKey slug request.minute)
        (verdict limit request currentCount, redis)
      else (.handled none, redis)

end TenantLibrary.RateLimit

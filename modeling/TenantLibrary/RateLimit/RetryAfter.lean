import Mathlib.Algebra.Order.Floor.Semifield
import Mathlib.Data.NNRat.Floor
import TenantLibrary.RateLimit.Middleware

/-!
What a rejected client is told to wait.

`Retry-After` is the end of the window, worked out from the clock reading before the Redis
round trip, less a second reading after it. It never asks for more than a minute, and it
leads out of the window (`leavesWindow_of_rejected`). But when the window is over at the
second reading, it is zero or negative: `retry_after_usable_iff`.
-/

namespace TenantLibrary.RateLimit

open TenantLibrary.Lib

/-! ### Clock readings -/

/-- A `time.time()`, a number of seconds, in milliseconds. -/
def millis (reading : ℚ≥0) : Nat := ⌊reading * 1000⌋₊

/-- The middleware uses the whole seconds alone. -/
theorem seconds_millis (reading : ℚ≥0) : seconds (millis reading) = ⌊reading⌋₊ := by
  rw [seconds, millis, ← Nat.floor_div_ofNat, mul_div_cancel_right₀ _ (by norm_num)]

/-- A request at which the clock reads this before and after the Redis round trip. -/
def requestAt (path : String) (first second : ℚ≥0) (executedAt : Nat) : Request :=
  ⟨path, millis first, executedAt, millis second⟩

/-- The window of a time. -/
def window (time : ℚ≥0) : Nat := ⌊time⌋₊ / 60

/-! ### The header -/

/-- The client is to wait at least a second and at most a minute, and when it has waited,
the window that rejected it is over. -/
structure Usable (first second : ℚ≥0) (retryAfter : Int) : Prop where
  atLeast : 1 ≤ retryAfter
  atMost : retryAfter ≤ 60
  leavesWindow : ∀ time : ℚ≥0, (second : ℚ) + retryAfter ≤ time → window first < window time

variable {limit : Int} {available : Bool} {redis after : Counters String} {detail : String}
  {retryAfter : Int} {headers : RateHeaders}

theorem verdict_tooMany {request : Request} {count : Nat}
    (rejected : verdict limit request count = .tooMany detail retryAfter headers) :
    retryAfter = (request.minute + 1 : Nat) * 60 - seconds request.rejectedAt := by
  unfold verdict at rejected
  dsimp only at rejected
  split at rejected
  · cases rejected
    push_cast
    rfl
  · cases rejected

/-- A rejection tells the time from the second reading to the end of the window. -/
theorem dispatch_tooMany {request : Request} (rejected :
      dispatch limit available redis request = (.tooMany detail retryAfter headers, after)) :
    retryAfter = (request.minute + 1 : Nat) * 60 - seconds request.rejectedAt := by
  unfold dispatch at rejected
  split at rejected
  · cases rejected
  · split at rejected
    · exact verdict_tooMany (congrArg Prod.fst rejected)
    · cases rejected

section Readings

variable {path : String} {first second : ℚ≥0} {executedAt : Nat}

theorem second_add_retryAfter (rejected : dispatch limit available redis
      (requestAt path first second executedAt) = (.tooMany detail retryAfter headers, after)) :
    (⌊second⌋₊ : Int) + retryAfter = ((window first + 1) * 60 : Nat) := by
  have told := dispatch_tooMany rejected
  rw [Request.minute, requestAt, seconds_millis, seconds_millis] at told
  simp only [window]
  omega

/-- Who waits as long as the header says comes in a later window. -/
theorem leavesWindow_of_rejected (rejected : dispatch limit available redis
      (requestAt path first second executedAt) = (.tooMany detail retryAfter headers, after))
    {time : ℚ≥0} (waited : (second : ℚ) + retryAfter ≤ time) : window first < window time := by
  have reset : (((window first + 1) * 60 : Nat) : ℚ) ≤ time := by
    calc (((window first + 1) * 60 : Nat) : ℚ)
        = (((⌊second⌋₊ : Int) + retryAfter : Int) : ℚ) := by
          rw [second_add_retryAfter rejected, Int.cast_natCast]
      _ = (⌊second⌋₊ : ℚ) + retryAfter := by rw [Int.cast_add, Int.cast_natCast]
      _ ≤ second + retryAfter := by
          gcongr
          exact_mod_cast Nat.floor_le second.2
      _ ≤ time := waited
  have whole : (window first + 1) * 60 ≤ ⌊time⌋₊ := Nat.le_floor (by exact_mod_cast reset)
  exact (Nat.le_div_iff_mul_le (by decide)).mpr whole

/-- A rejected client can use the header exactly when the second reading is in the window of
the first. -/
theorem retry_after_usable_iff (order : first ≤ second) (rejected : dispatch limit available redis
      (requestAt path first second executedAt) = (.tooMany detail retryAfter headers, after)) :
    Usable first second retryAfter ↔ window second = window first := by
  have told := second_add_retryAfter rejected
  have seconds_order : ⌊first⌋₊ ≤ ⌊second⌋₊ := Nat.floor_mono order
  constructor
  · intro usable
    have atLeast := usable.atLeast
    simp only [window] at told ⊢
    omega
  · intro same
    simp only [window] at told same
    exact ⟨by omega, by omega, fun _ => leavesWindow_of_rejected rejected⟩

end Readings

/-- The counter of a slug that has used up 60 requests of the first minute. -/
def usedUp : Counters String :=
  fun key => if key = redisKey "acme" 0 then some ⟨60, some 60500⟩ else none

/-- A request half a second before that minute is over. -/
def lateRequest (second : ℚ≥0) : Request :=
  requestAt "/api/v1/tenants/acme/books" (119 / 2) second 59600

theorem waits_one_second : Usable (119 / 2) (239 / 4) 1 := by
  have rejected : dispatch 60 true usedUp (lateRequest (239 / 4)) =
      (.tooMany "Rate limit exceeded" 1 ⟨60, 0, 60⟩, _) :=
    Prod.ext (by decide +kernel) rfl
  exact (retry_after_usable_iff (by decide +kernel) rejected).mpr (by decide +kernel)

/-- The answer of Redis arrives in the next minute. -/
theorem waits_no_second : (119 / 2 : ℚ≥0) ≤ 121 / 2 ∧
    (dispatch 60 true usedUp (lateRequest (121 / 2))).1 =
      .tooMany "Rate limit exceeded" 0 ⟨60, 0, 60⟩ ∧
    ¬ Usable (119 / 2) (121 / 2) 0 := by
  refine ⟨by decide +kernel, by decide +kernel, fun usable => ?_⟩
  exact absurd usable.atLeast (by decide)

end TenantLibrary.RateLimit

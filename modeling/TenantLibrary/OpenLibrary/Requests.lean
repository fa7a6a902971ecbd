import Mathlib.Algebra.Group.Int.Defs
import TenantLibrary.ReadingLists.Pii

/-!
One request with its retries (`OpenLibraryClient._rate_limited_get`).

A GET is answered, times out or raises something else, and the method returns, raises,
or waits for another attempt; after three attempts it raises `OpenLibraryError`. The
text of `Retry-After` goes through `int` and `asyncio.sleep`, whose exceptions nobody
catches, and so are the exceptions of a GET other than timeouts: `get_keeps_contract_iff`
says that the method returns a response or raises `OpenLibraryError` exactly when no
attempt it comes to escapes that way.
-/

namespace TenantLibrary.OpenLibrary

/-! ### `int` on a text -/

/-- The zeros of the decimal digits of Unicode 15.0; the digits of each follow it. -/
def decimalZeros : List Nat :=
  [0x30, 0x660, 0x6f0, 0x7c0, 0x966, 0x9e6, 0xa66, 0xae6, 0xb66, 0xbe6, 0xc66, 0xce6, 0xd66,
    0xde6, 0xe50, 0xed0, 0xf20, 0x1040, 0x1090, 0x17e0, 0x1810, 0x1946, 0x19d0, 0x1a80, 0x1a90,
    0x1b50, 0x1bb0, 0x1c40, 0x1c50, 0xa620, 0xa8d0, 0xa900, 0xa9d0, 0xa9f0, 0xaa50, 0xabf0,
    0xff10, 0x104a0, 0x10d30, 0x11066, 0x110f0, 0x11136, 0x111d0, 0x112f0, 0x11450, 0x114d0,
    0x11650, 0x116c0, 0x11730, 0x118e0, 0x11950, 0x11c50, 0x11d50, 0x11da0, 0x11f50, 0x16a60,
    0x16ac0, 0x16b50, 0x1d7ce, 0x1d7d8, 0x1d7e2, 0x1d7ec, 0x1d7f6, 0x1e140, 0x1e2f0, 0x1e4f0,
    0x1e950, 0x1fbf0]

def digitValue (c : Char) : Option Nat :=
  (decimalZeros.find? fun first => first ≤ c.toNat && c.toNat ≤ first + 9).map fun first =>
    c.toNat - first

/-- The white space `int` takes around a number: of ASCII, less than `str.isspace` does. -/
def intSpace (c : Char) : Bool :=
  if c.toNat < 127 then [' ', '\t', '\n', '\x0b', '\x0c', '\r'].contains c
  else ReadingLists.isSpace c

/-- Digits, with single underscores between them. -/
def readDigits : (afterDigit : Bool) → List Char → Option (List Nat)
  | afterDigit, [] => if afterDigit then some [] else none
  | afterDigit, c :: rest =>
      if c = '_' then if afterDigit then readDigits false rest else none
      else do
        let digit ← digitValue c
        let digits ← readDigits true rest
        return digit :: digits

/-- The number of digits `int` accepts. -/
def maxStrDigits : Nat := 4300

/-- A number without its sign. -/
def readNat (text : List Char) : Option Nat := do
  let digits ← readDigits false text
  if digits.length ≤ maxStrDigits then some (digits.foldl (fun n digit => 10 * n + digit) 0)
  else none

/-- `int(text)`; `none` is a `ValueError`. -/
def pyInt (text : String) : Option Int :=
  let trimmed := ((text.toList.dropWhile intSpace).reverse.dropWhile intSpace).reverse
  match trimmed with
  | '-' :: digits => (readNat digits).map fun n => -(n : Int)
  | '+' :: digits => (readNat digits).map Int.ofNat
  | digits => (readNat digits).map Int.ofNat

example : pyInt " 1_0\n" = some 10 := by decide +kernel
example : pyInt "1.5" = none := by decide +kernel

/-- What `asyncio.sleep` can convert to a float. -/
def sleepable (seconds : Int) : Bool := seconds < 2 ^ 1024 - 2 ^ 970

/-! ### The outcome of one GET -/

structure HttpResponse where
  status : Nat
  retryAfter : Option String
  text : String
deriving DecidableEq, Repr

/-- What `self._client.get` does. -/
inductive GetOutcome where
  | response (response : HttpResponse)
  /-- `httpx.TimeoutException` -/
  | timeout
  /-- any other exception: connection and protocol errors, too many redirects, ... -/
  | raised (exc : String)
deriving DecidableEq, Repr

/-- `raise_for_status` accepts the status. -/
def isSuccess (status : Nat) : Bool := 200 ≤ status && status < 300

def maxRetries : Nat := 3

/-- How an attempt ends. -/
inductive AttemptEnd where
  | returns (response : HttpResponse)
  | raises (failure : Failure)
  /-- sleep for some seconds, then go on to the next attempt -/
  | retries (seconds : Nat)
deriving DecidableEq, Repr

/-- `int(response.headers.get("Retry-After", 5))` and the sleep. -/
def afterTooManyRequests (retryAfter : Option String) : AttemptEnd :=
  match retryAfter with
  | none => .retries 5
  | some text =>
      match pyInt text with
      | none => .raises (.other "ValueError: invalid literal for int() with base 10")
      | some seconds =>
          if sleepable seconds then .retries seconds.toNat
          else .raises (.other "OverflowError: int too large to convert to float")

/-- The `try` statement of one attempt. -/
def attemptEnd (url : String) (attempt : Nat) : GetOutcome → AttemptEnd
  | .response response =>
      if response.status = 429 then afterTooManyRequests response.retryAfter
      else if isSuccess response.status then .returns response
      else if response.status ≥ 500 && attempt < maxRetries - 1 then .retries (2 ^ attempt)
      else .raises (.openLibraryError
        s!"HTTP {response.status} from {url}: {response.text.take 200}")
  | .timeout =>
      if attempt = maxRetries - 1 then
        .raises (.openLibraryError s!"Timeout after {maxRetries} retries: {url}")
      else .retries (2 ^ attempt)
  | .raised exc => .raises (.other exc)

/-- What `_rate_limited_get` gave, and after how many GETs. -/
structure GetResult where
  result : Except Failure HttpResponse
  gets : Nat

/-- The loop, with some attempts left; `outcomes` are those of the GETs by attempt. -/
def getFrom (url : String) (outcomes : Nat → GetOutcome) (attempt : Nat) : Nat → GetResult
  | 0 => ⟨.error (.openLibraryError s!"Failed after {maxRetries} retries: {url}"), 0⟩
  | left + 1 =>
      match attemptEnd url attempt (outcomes attempt) with
      | .returns response => ⟨.ok response, 1⟩
      | .raises failure => ⟨.error failure, 1⟩
      | .retries _ =>
          let later := getFrom url outcomes (attempt + 1) left
          { later with gets := later.gets + 1 }

/-- `_rate_limited_get`. -/
def rateLimitedGet (url : String) (outcomes : Nat → GetOutcome) : GetResult :=
  getFrom url outcomes 0 maxRetries

/-! ### What is to hold -/

/-- A response with a success status, or `OpenLibraryError`. -/
def Covered : Except Failure HttpResponse → Prop
  | .ok response => isSuccess response.status
  | .error (.openLibraryError _) => True
  | .error _ => False

/-- The method ends after three GETs at most, and no other exception escapes. -/
def KeepsContract (url : String) (outcomes : Nat → GetOutcome) : Prop :=
  (rateLimitedGet url outcomes).gets ≤ maxRetries ∧ Covered (rateLimitedGet url outcomes).result

/-- `int` and `asyncio.sleep` take the value of `Retry-After`, or there is none. -/
def Waitable (retryAfter : Option String) : Prop :=
  ∀ text, retryAfter = some text → ∃ seconds, pyInt text = some seconds ∧ sleepable seconds

/-- An outcome whose exception nobody catches. -/
def Escapes : GetOutcome → Prop
  | .response response => response.status = 429 ∧ ¬ Waitable response.retryAfter
  | .timeout => False
  | .raised _ => True

/-- An outcome after which the loop goes on. -/
def Retried (attempt : Nat) : GetOutcome → Prop
  | .response response =>
      (response.status = 429 ∧ Waitable response.retryAfter) ∨
        (response.status ≥ 500 ∧ attempt < maxRetries - 1)
  | .timeout => attempt ≠ maxRetries - 1
  | .raised _ => False

/-! ### One attempt -/

/-- What the `try` statement makes of an outcome. -/
inductive AttemptCases (attempt : Nat) (outcome : GetOutcome) : AttemptEnd → Prop where
  | returns (response : HttpResponse) (success : isSuccess response.status)
      (last : ¬ Retried attempt outcome) (caught : ¬ Escapes outcome) :
      AttemptCases attempt outcome (.returns response)
  | raises (message : String) (last : ¬ Retried attempt outcome) (caught : ¬ Escapes outcome) :
      AttemptCases attempt outcome (.raises (.openLibraryError message))
  | escapes (message : String) (escapes : Escapes outcome) :
      AttemptCases attempt outcome (.raises (.other message))
  | retries (seconds : Nat) (retried : Retried attempt outcome) (caught : ¬ Escapes outcome) :
      AttemptCases attempt outcome (.retries seconds)

theorem afterTooManyRequests_cases (attempt : Nat) {response : HttpResponse}
    (tooMany : response.status = 429) :
    AttemptCases attempt (.response response) (afterTooManyRequests response.retryAfter) := by
  unfold afterTooManyRequests
  cases header : response.retryAfter with
  | none =>
      have waitable : Waitable response.retryAfter := by simp [Waitable, header]
      exact .retries 5 (.inl ⟨tooMany, waitable⟩) fun escapes => escapes.2 waitable
  | some text =>
      dsimp only
      cases number : pyInt text with
      | none => exact .escapes _ ⟨tooMany, by simp [Waitable, header, number]⟩
      | some seconds =>
          dsimp only
          split
          case isTrue short =>
            have waitable : Waitable response.retryAfter := by simp [Waitable, header, number, short]
            exact .retries _ (.inl ⟨tooMany, waitable⟩) fun escapes => escapes.2 waitable
          case isFalse long =>
            exact .escapes _ ⟨tooMany, by simpa [Waitable, header, number] using long⟩

theorem attemptEnd_cases (url : String) (attempt : Nat) (outcome : GetOutcome) :
    AttemptCases attempt outcome (attemptEnd url attempt outcome) := by
  cases outcome with
  | response response =>
      rw [attemptEnd]
      split
      case isTrue tooMany => exact afterTooManyRequests_cases attempt tooMany
      case isFalse notTooMany =>
        have caught : ¬ Escapes (.response response) := fun escapes => notTooMany escapes.1
        split
        case isTrue success =>
          refine .returns response success ?_ caught
          simp only [isSuccess, Bool.and_eq_true, decide_eq_true_eq] at success
          rintro (⟨tooMany, _⟩ | ⟨serverError, _⟩)
          · exact notTooMany tooMany
          · omega
        case isFalse =>
          split
          case isTrue again =>
            simp only [Bool.and_eq_true, decide_eq_true_eq] at again
            exact .retries _ (.inr again) caught
          case isFalse last =>
            simp only [Bool.and_eq_true, decide_eq_true_eq] at last
            exact .raises _ (fun retried => retried.elim (fun h => notTooMany h.1) last) caught
  | timeout =>
      rw [attemptEnd]
      split
      case isTrue last => exact .raises _ (fun retried => retried last) nofun
      case isFalse again => exact .retries _ again nofun
  | raised exc => exact .escapes exc trivial

/-! ### The loop -/

variable {url : String} {outcomes : Nat → GetOutcome}

theorem gets_getFrom_le {attempt left : Nat} : (getFrom url outcomes attempt left).gets ≤ left := by
  induction left generalizing attempt with
  | zero => exact Nat.le_refl 0
  | succ left ih =>
      unfold getFrom
      split
      · exact Nat.le_add_left 1 left
      · exact Nat.le_add_left 1 left
      · exact Nat.succ_le_succ ih

/-- The loop comes to an attempt when all those before are retried. -/
def ComesTo (outcomes : Nat → GetOutcome) (first attempt : Nat) : Prop :=
  ∀ earlier, first ≤ earlier → earlier < attempt → Retried earlier (outcomes earlier)

theorem covered_getFrom_iff {attempt left : Nat} :
    Covered (getFrom url outcomes attempt left).result ↔
      ∀ i, attempt ≤ i → i < attempt + left → ComesTo outcomes attempt i → ¬ Escapes (outcomes i) := by
  induction left generalizing attempt with
  | zero =>
      simp only [getFrom, Covered, true_iff]
      omega
  | succ left ih =>
      have cases_ := attemptEnd_cases url attempt (outcomes attempt)
      -- an attempt that is not retried is the last one the loop comes to
      have only (last : ¬ Retried attempt (outcomes attempt)) (caught : ¬ Escapes (outcomes attempt))
          (i : Nat) (from_ : attempt ≤ i) (comes : ComesTo outcomes attempt i) :
          ¬ Escapes (outcomes i) := by
        rcases Nat.eq_or_lt_of_le from_ with rfl | later
        · exact caught
        · exact absurd (comes attempt (Nat.le_refl _) later) last
      rw [getFrom]
      cases ended : attemptEnd url attempt (outcomes attempt) with
      | returns response =>
          rw [ended] at cases_
          cases cases_ with
          | returns _ success last caught =>
              exact ⟨fun _ i from_ _ comes => only last caught i from_ comes, fun _ => success⟩
      | raises failure =>
          rw [ended] at cases_
          cases cases_ with
          | raises message last caught =>
              exact ⟨fun _ i from_ _ comes => only last caught i from_ comes, fun _ => trivial⟩
          | escapes message escapes =>
              refine ⟨False.elim, fun all => ?_⟩
              exact all attempt (Nat.le_refl _) (by omega) (fun _ _ _ => by omega) escapes
      | retries seconds =>
          rw [ended] at cases_
          cases cases_ with
          | retries _ retried caught =>
              refine Iff.trans ih ⟨fun all i from_ short comes => ?_, fun all i from_ short comes => ?_⟩
              · rcases Nat.eq_or_lt_of_le from_ with rfl | later
                · exact caught
                · exact all i later (by omega) fun e first before => comes e (by omega) before
              · refine all i (by omega) (by omega) fun e first before => ?_
                rcases Nat.eq_or_lt_of_le first with rfl | later
                · exact retried
                · exact comes e later before

/-- The method keeps its contract exactly when no attempt it comes to escapes. -/
theorem get_keeps_contract_iff (url : String) (outcomes : Nat → GetOutcome) :
    KeepsContract url outcomes ↔
      ∀ attempt < maxRetries, (∀ earlier < attempt, Retried earlier (outcomes earlier)) →
        ¬ Escapes (outcomes attempt) := by
  have covered := @covered_getFrom_iff url outcomes 0 maxRetries
  constructor
  · intro keeps attempt short comes
    exact covered.mp keeps.2 attempt (Nat.zero_le _) (by omega) fun e _ before => comes e before
  · intro all
    refine ⟨gets_getFrom_le, covered.mpr fun i _ short comes => ?_⟩
    exact all i (by omega) fun e before => comes e (Nat.zero_le _) before

/-- The server cannot be reached. -/
def unreachableServer : Nat → GetOutcome := fun _ => .raised "ConnectError"

/-- A connection error escapes at once. -/
theorem connection_error_escapes :
    rateLimitedGet "https://openlibrary.org/works/OL1W.json" unreachableServer =
        ⟨.error (.other "ConnectError"), 1⟩ ∧
      ¬ KeepsContract "https://openlibrary.org/works/OL1W.json" unreachableServer := by
  refine ⟨rfl, fun keeps => ?_⟩
  exact keeps.2

end TenantLibrary.OpenLibrary

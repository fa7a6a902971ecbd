import TenantLibrary.OpenLibrary.Pacing

/-!
Any number of callers of `_rate_limited_get` on one client.

The callers share the semaphore and the time of the last request. A call is queued at the
semaphore, then goes through its attempts, and gives the semaphore back when it returns or
raises; `callStep` lets any caller move next. `ContractKept` says what each call is to come
to, from the answers its GETs got, and that on the client the GETs of one call stand together
and all GETs are an interval apart. `calls_decided` shows it of every run in which no redirect
is followed and the waits that the server asks for can be slept; `redirects_and_long_waits`
are two runs in which it is broken. `call_ends` says that no call is stuck.

An attempt starts its GET when `_last_request_time` is read, with no `await` between the two.
httpx follows a redirect with a GET of its own, at once. A sleep ends when it was asked to or
at any later time.
-/

namespace TenantLibrary.OpenLibrary

open TenantLibrary.Lib

/-! ### The shared client -/

/-- Where a call stands. -/
inductive Stage where
  /-- at `async with self._semaphore` -/
  | queued
  /-- inside, with the semaphore -/
  | running (phase : Phase)
  | returned (result : Except Failure HttpResponse)

/-- A call, with the answers its GETs have got; no step reads these. -/
structure Call where
  url : String
  answers : List GetOutcome
  stage : Stage

/-- A GET that started, of an attempt or to follow a redirect: of which call, and when. -/
structure CallGet where
  call : Nat
  start : Nat
deriving DecidableEq, Repr

/-- The client with its callers, and the GETs so far. -/
structure SharedClient where
  now : Nat
  lastRequestTime : Nat
  permits : Nat
  calls : Nat → Option Call
  gets : List CallGet

inductive CallAction where
  | begin (c : Nat) (url : String)
  | acquire (c : Nat)
  | send (c : Nat)
  /-- the response is a redirect with a `Location`, which httpx follows with another GET -/
  | redirect (c : Nat) (response : HttpResponse)
  | answer (c : Nat) (outcome : GetOutcome)
  | wake (c : Nat)
  | tick (elapsed : Nat)

namespace SharedClient

/-- `OpenLibraryClient()`. -/
def initial (now : Nat) : SharedClient := ⟨now, 0, 1, fun _ => none, []⟩

def set (s : SharedClient) (c : Nat) (call : Call) : SharedClient :=
  { s with calls := Function.update s.calls c (some call) }

/-- "Enforce rate limit" before an attempt. -/
def enforce (pace : Pace) (s : SharedClient) (url : String) (attempt : Nat) : Phase :=
  (Client.enforce pace ⟨url, s.lastRequestTime, .idle⟩ s.now attempt).phase

/-- A call enters the `async with` block. -/
def enter (pace : Pace) (s : SharedClient) (c : Nat) (call : Call) : SharedClient :=
  { s.set c { call with stage := .running (s.enforce pace call.url 0) } with
    permits := s.permits - 1 }

/-- A GET starts. -/
def start (s : SharedClient) (c : Nat) (call : Call) (attempt : Nat) : SharedClient :=
  { s.set c { call with stage := .running (.inFlight attempt) } with
    lastRequestTime := s.now
    gets := s.gets ++ [⟨c, s.now⟩] }

/-- httpx answers a redirect with the next GET. -/
def follow (s : SharedClient) (c : Nat) (call : Call) (response : HttpResponse) : SharedClient :=
  { s.set c { call with answers := call.answers ++ [.response response] } with
    gets := s.gets ++ [⟨c, s.now⟩] }

/-- A call leaves the `async with` block with its result. -/
def leave (s : SharedClient) (c : Nat) (call : Call) (result : Except Failure HttpResponse) :
    SharedClient :=
  { s.set c { call with stage := .returned result } with permits := s.permits + 1 }

end SharedClient

/-- The statuses of `has_redirect_location`. -/
def isRedirect (status : Nat) : Bool := [301, 302, 303, 307, 308].contains status

/-- One step of a caller; `none` when the action is not possible. -/
def callStep (pace : Pace) (s : SharedClient) : CallAction → Option SharedClient
  | .begin c url =>
      match s.calls c with
      | none => some (s.set c ⟨url, [], .queued⟩)
      | some _ => none
  | .acquire c => do
      let call ← s.calls c
      match call.stage with
      | .queued =>
          if s.permits = 0 then none else some (s.enter pace c call)
      | _ => none
  | .send c => do
      let call ← s.calls c
      match call.stage with
      | .running (.waiting attempt until_) =>
          if until_ ≤ s.now then some (s.start c call attempt) else none
      | _ => none
  | .redirect c response => do
      let call ← s.calls c
      match call.stage with
      | .running (.inFlight _) =>
          if isRedirect response.status then some (s.follow c call response) else none
      | _ => none
  | .answer c outcome => do
      let call ← s.calls c
      match call.stage with
      | .running (.inFlight attempt) =>
          let answered := { call with answers := call.answers ++ [outcome] }
          match attemptEnd call.url attempt outcome with
          | .returns response => some (s.leave c answered (.ok response))
          | .raises failure => some (s.leave c answered (.error failure))
          | .retries seconds => some (s.set c
              { answered with
                stage := .running (.sleeping (attempt + 1) (s.now + seconds * pace.second)) })
      | _ => none
  | .wake c => do
      let call ← s.calls c
      match call.stage with
      | .running (.sleeping next until_) =>
          if until_ ≤ s.now then
            if next < maxRetries then
              some (s.set c { call with stage := .running (s.enforce pace call.url next) })
            else some (s.leave c call (.error
              (.openLibraryError s!"Failed after {maxRetries} retries: {call.url}")))
          else none
      | _ => none
  | .tick elapsed => some { s with now := s.now + elapsed }

/-! ### What is to hold -/

/-- The text is that of an integer, of any size. -/
def isInteger (text : String) : Bool :=
  let trimmed := ((text.toList.dropWhile intSpace).reverse.dropWhile intSpace).reverse
  match trimmed with
  | '-' :: digits => (readDigits false digits).isSome
  | '+' :: digits => (readDigits false digits).isSome
  | digits => (readDigits false digits).isSome

/-- A 2xx, a 429 with an integer `Retry-After`, another 3xx or 4xx, a 5xx, or a timeout. -/
def Listed : GetOutcome → Prop
  | .response response => 200 ≤ response.status ∧ response.status < 600 ∧
      (response.status = 429 → ∀ text, response.retryAfter = some text → isInteger text)
  | .timeout => True
  | .raised _ => False

/-- Every GET is answered by one of these. -/
def AnswersListed (_ : SharedClient) : CallAction → Prop
  | .redirect _ response => Listed (.response response)
  | .answer _ outcome => Listed outcome
  | _ => True

/-- A 429 asks for a wait that `int` reads and a sleep can last, or for none. -/
def Awaitable : GetOutcome → Prop
  | .response response => response.status = 429 → Waitable response.retryAfter
  | _ => True

/-- No redirect is followed, and the waits can be slept. -/
def Manageable (_ : SharedClient) : CallAction → Prop
  | .redirect _ _ => False
  | .answer _ outcome => Awaitable outcome
  | _ => True

/-- The answers are listed, none is followed, and the waits can be slept. -/
def Expected (s : SharedClient) (a : CallAction) : Prop := AnswersListed s a ∧ Manageable s a

/-- A 429, a 5xx or a timeout. -/
def Retryable : GetOutcome → Prop
  | .response response => response.status = 429 ∨ 500 ≤ response.status
  | .timeout => True
  | .raised _ => False

/-- What the answers of a call make of it: it stops at the first that is not retryable, or
after three. -/
inductive Decided : List GetOutcome → Except Failure HttpResponse → Prop where
  | success (earlier : List GetOutcome) (response : HttpResponse)
      (few : earlier.length < maxRetries) (retried : ∀ answer ∈ earlier, Retryable answer)
      (success : isSuccess response.status) :
      Decided (earlier ++ [.response response]) (.ok response)
  | refused (earlier : List GetOutcome) (last : GetOutcome) (message : String)
      (few : earlier.length < maxRetries) (retried : ∀ answer ∈ earlier, Retryable answer)
      (final : ¬ Retryable last) (failed : ∀ response, last = .response response →
        ¬ isSuccess response.status) :
      Decided (earlier ++ [last]) (.error (.openLibraryError message))
  | exhausted (answers : List GetOutcome) (message : String) (all : answers.length = maxRetries)
      (retried : ∀ answer ∈ answers, Retryable answer) :
      Decided answers (.error (.openLibraryError message))

/-- The GETs a call has issued. -/
def SharedClient.getsOf (s : SharedClient) (c : Nat) : Nat := s.gets.countP (·.call = c)

/-- Between two members of the same call there is no other call. -/
def Uninterrupted (calls : List Nat) : Prop :=
  ∀ i j k c : Nat, i < j → j < k → calls[i]? = some c → calls[k]? = some c → calls[j]? = some c

/-! ### One answer -/

/-- How a listed answer ends an attempt for good. -/
inductive Concludes (attempt : Nat) : GetOutcome → Except Failure HttpResponse → Prop where
  | success (response : HttpResponse) (success : isSuccess response.status) :
      Concludes attempt (.response response) (.ok response)
  | refused (last : GetOutcome) (message : String) (final : ¬ Retryable last)
      (failed : ∀ response, last = .response response → ¬ isSuccess response.status) :
      Concludes attempt last (.error (.openLibraryError message))
  | exhausted (last : GetOutcome) (message : String) (retried : Retryable last)
      (lastAttempt : maxRetries ≤ attempt + 1) :
      Concludes attempt last (.error (.openLibraryError message))

/-- What the `try` statement makes of a listed answer. -/
inductive ListedEnd (attempt : Nat) (outcome : GetOutcome) : AttemptEnd → Prop where
  | returns (response : HttpResponse) (concludes : Concludes attempt outcome (.ok response)) :
      ListedEnd attempt outcome (.returns response)
  | raises (failure : Failure) (concludes : Concludes attempt outcome (.error failure)) :
      ListedEnd attempt outcome (.raises failure)
  | retries (seconds : Nat) (retried : Retryable outcome) :
      ListedEnd attempt outcome (.retries seconds)

theorem listedEnd_tooMany (attempt : Nat) {response : HttpResponse} (tooMany : response.status = 429)
    (waitable : Waitable response.retryAfter) :
    ListedEnd attempt (.response response) (afterTooManyRequests response.retryAfter) := by
  unfold afterTooManyRequests
  cases header : response.retryAfter with
  | none => exact .retries 5 (.inl tooMany)
  | some text =>
      obtain ⟨seconds, number, short⟩ := waitable text header
      simp only [number, short, if_true]
      exact .retries _ (.inl tooMany)

theorem attemptEnd_listed (url : String) (attempt : Nat) {outcome : GetOutcome}
    (listed : Listed outcome) (awaitable : Awaitable outcome) :
    ListedEnd attempt outcome (attemptEnd url attempt outcome) := by
  cases outcome with
  | response response =>
      rw [attemptEnd]
      split
      case isTrue tooMany => exact listedEnd_tooMany attempt tooMany (awaitable tooMany)
      case isFalse notTooMany =>
        split
        case isTrue success => exact .returns response (.success response success)
        case isFalse failed =>
          have failed : ∀ other, GetOutcome.response response = .response other →
              ¬ isSuccess other.status := by
            rintro _ ⟨rfl⟩
            exact failed
          split
          case isTrue again =>
            simp only [Bool.and_eq_true, decide_eq_true_eq] at again
            exact .retries _ (.inr again.1)
          case isFalse last =>
            simp only [Bool.and_eq_true, decide_eq_true_eq, not_and, Nat.not_lt] at last
            by_cases server : 500 ≤ response.status
            · have lastAttempt := last server
              exact .raises _ (.exhausted _ _ (.inr server) (by simp only [maxRetries] at *; omega))
            · exact .raises _ (.refused _ _ (fun retried => retried.elim notTooMany server) failed)
  | timeout =>
      rw [attemptEnd]
      split
      case isTrue last =>
        exact .raises _ (.exhausted _ _ trivial (by simp only [maxRetries] at *; omega))
      case isFalse => exact .retries _ trivial
  | raised exc => exact listed.elim

/-- An answer that concludes the attempt decides the call. -/
theorem Concludes.decided {attempt : Nat} {answers : List GetOutcome} {last : GetOutcome}
    {result : Except Failure HttpResponse} (concludes : Concludes attempt last result)
    (short : attempt < maxRetries) (count : answers.length = attempt)
    (retried : ∀ answer ∈ answers, Retryable answer) : Decided (answers ++ [last]) result := by
  have few : answers.length < maxRetries := count ▸ short
  cases concludes with
  | success response success => exact .success answers response few retried success
  | refused last message final failed => exact .refused answers last message few retried final failed
  | exhausted last message retryable lastAttempt =>
      refine .exhausted _ message ?_ ?_
      · rw [List.length_append, List.length_singleton]
        omega
      · simpa [or_imp, forall_and] using ⟨retried, retryable⟩

/-! ### What a step does -/

/-- What the actions do. -/
inductive CallChange (pace : Pace) (s : SharedClient) : SharedClient → Prop where
  | begun (c : Nat) (url : String) (fresh : s.calls c = none) :
      CallChange pace s (s.set c ⟨url, [], .queued⟩)
  | entered (c : Nat) (call : Call) (exists_ : s.calls c = some call)
      (queued : call.stage = .queued) (free : s.permits ≠ 0) :
      CallChange pace s (s.enter pace c call)
  | started (c : Nat) (call : Call) (exists_ : s.calls c = some call) (attempt until_ : Nat)
      (waits : call.stage = .running (.waiting attempt until_)) (ended : until_ ≤ s.now) :
      CallChange pace s (s.start c call attempt)
  | concluded (c : Nat) (call : Call) (exists_ : s.calls c = some call) (attempt : Nat)
      (inFlight : call.stage = .running (.inFlight attempt)) (outcome : GetOutcome)
      (result : Except Failure HttpResponse) (concludes : Concludes attempt outcome result) :
      CallChange pace s (s.leave c { call with answers := call.answers ++ [outcome] } result)
  | retried (c : Nat) (call : Call) (exists_ : s.calls c = some call) (attempt until_ : Nat)
      (inFlight : call.stage = .running (.inFlight attempt)) (outcome : GetOutcome)
      (retryable : Retryable outcome) :
      CallChange pace s (s.set c
        { call with
          answers := call.answers ++ [outcome]
          stage := .running (.sleeping (attempt + 1) until_) })
  | woken (c : Nat) (call : Call) (exists_ : s.calls c = some call) (next until_ : Nat)
      (sleeps : call.stage = .running (.sleeping next until_)) (again : next < maxRetries) :
      CallChange pace s (s.set c { call with stage := .running (s.enforce pace call.url next) })
  | gaveUp (c : Nat) (call : Call) (exists_ : s.calls c = some call) (next until_ : Nat)
      (sleeps : call.stage = .running (.sleeping next until_)) (last : ¬ next < maxRetries)
      (message : String) :
      CallChange pace s (s.leave c call (.error (.openLibraryError message)))
  | ticked (elapsed : Nat) : CallChange pace s { s with now := s.now + elapsed }

variable {pace : Pace} {s t : SharedClient}

theorem callStep_cases {a : CallAction} (expected : Expected s a)
    (stepped : callStep pace s a = some t) : CallChange pace s t := by
  cases a with
  | begin c url =>
      simp only [callStep] at stepped
      split at stepped
      case h_1 fresh =>
        obtain rfl := Option.some.inj stepped
        exact .begun c url fresh
      case h_2 => cases stepped
  | acquire c =>
      obtain ⟨call, exists_, rest⟩ := Option.bind_eq_some_iff.mp stepped
      split at rest
      case h_1 queued =>
        split at rest
        case isTrue => cases rest
        case isFalse free =>
          obtain rfl := Option.some.inj rest
          exact .entered c call exists_ queued free
      case h_2 => cases rest
  | send c =>
      obtain ⟨call, exists_, rest⟩ := Option.bind_eq_some_iff.mp stepped
      split at rest
      case h_1 attempt until_ waits =>
        split at rest
        case isTrue ended =>
          obtain rfl := Option.some.inj rest
          exact .started c call exists_ attempt until_ waits ended
        case isFalse => cases rest
      case h_2 => cases rest
  | redirect c response => exact expected.2.elim
  | answer c outcome =>
      obtain ⟨call, exists_, rest⟩ := Option.bind_eq_some_iff.mp stepped
      split at rest
      case h_1 attempt inFlight =>
        have ends := attemptEnd_listed call.url attempt expected.1 expected.2
        cases ended : attemptEnd call.url attempt outcome with
        | returns response =>
            rw [ended] at ends rest
            cases ends with
            | returns _ concludes =>
                obtain rfl := Option.some.inj rest
                exact .concluded c call exists_ attempt inFlight outcome _ concludes
        | raises failure =>
            rw [ended] at ends rest
            cases ends with
            | raises _ concludes =>
                obtain rfl := Option.some.inj rest
                exact .concluded c call exists_ attempt inFlight outcome _ concludes
        | retries seconds =>
            rw [ended] at ends rest
            cases ends with
            | retries _ retryable =>
                obtain rfl := Option.some.inj rest
                exact .retried c call exists_ attempt _ inFlight outcome retryable
      case h_2 => cases rest
  | wake c =>
      obtain ⟨call, exists_, rest⟩ := Option.bind_eq_some_iff.mp stepped
      split at rest
      case h_1 next until_ sleeps =>
        split at rest
        case isTrue =>
          split at rest
          case isTrue again =>
            obtain rfl := Option.some.inj rest
            exact .woken c call exists_ next until_ sleeps again
          case isFalse last =>
            obtain rfl := Option.some.inj rest
            exact .gaveUp c call exists_ next until_ sleeps last _
        case isFalse => cases rest
      case h_2 => cases rest
  | tick elapsed =>
      obtain rfl := Option.some.inj stepped
      exact .ticked elapsed

/-! ### The invariant -/

/-- The call is inside the `async with` block. -/
def Call.Runs (call : Call) : Prop := ∃ phase, call.stage = .running phase

def SharedClient.Running (s : SharedClient) (c : Nat) : Prop :=
  ∃ call, s.calls c = some call ∧ call.Runs

/-- The stage, the answers and the GETs of a call fit together. -/
def Call.Consistent (call : Call) (gets : Nat) : Prop :=
  match call.stage with
  | .queued => call.answers = [] ∧ gets = 0
  | .running .idle => False
  | .running (.waiting attempt _) =>
      attempt < maxRetries ∧ call.answers.length = attempt ∧ gets = attempt ∧
        ∀ answer ∈ call.answers, Retryable answer
  | .running (.inFlight attempt) =>
      attempt < maxRetries ∧ call.answers.length = attempt ∧ gets = attempt + 1 ∧
        ∀ answer ∈ call.answers, Retryable answer
  | .running (.sleeping next _) =>
      0 < next ∧ next ≤ maxRetries ∧ call.answers.length = next ∧ gets = next ∧
        ∀ answer ∈ call.answers, Retryable answer
  | .returned result => gets = call.answers.length ∧ Decided call.answers result

/-- Either one call is inside and the semaphore is taken, or none is and it is free. -/
def SharedClient.Exclusive (s : SharedClient) : Prop :=
  (s.permits = 0 ∧ ∃ c, s.Running c ∧ ∀ c', s.Running c' → c' = c) ∨
    (s.permits = 1 ∧ ∀ c, ¬ s.Running c)

/-- What every step keeps. -/
structure Sound (pace : Pace) (s : SharedClient) : Prop where
  consistent : ∀ c call, s.calls c = some call → call.Consistent (s.getsOf c)
  unknown : ∀ c, s.calls c = none → s.getsOf c = 0
  exclusive : s.Exclusive
  clock : s.lastRequestTime ≤ s.now
  past : ∀ get ∈ s.gets, get.start ≤ s.lastRequestTime
  spaced : s.gets.Pairwise fun earlier later => earlier.start + pace.interval ≤ later.start
  waits : ∀ c call attempt until_, s.calls c = some call →
    call.stage = .running (.waiting attempt until_) → s.lastRequestTime + pace.interval ≤ until_
  uninterrupted : Uninterrupted (s.gets.map CallGet.call)
  latest : ∀ c, s.Running c → s.getsOf c ≠ 0 → (s.gets.map CallGet.call).getLast? = some c

theorem sound_initial (now : Nat) : Sound pace (.initial now) where
  consistent := nofun
  unknown _ _ := rfl
  exclusive := .inr ⟨rfl, by rintro c ⟨call, exists_, -⟩; cases exists_⟩
  clock := Nat.zero_le now
  past := nofun
  spaced := .nil
  waits := nofun
  uninterrupted := by intro i j k c _ _ at_; cases at_
  latest := by rintro c ⟨call, exists_, -⟩; cases exists_

theorem Sound.begun (sound : Sound pace s) {c : Nat} (url : String) (fresh : s.calls c = none) :
    Sound pace (s.set c ⟨url, [], .queued⟩) := by
  have running {c' : Nat} : (s.set c ⟨url, [], .queued⟩).Running c' ↔ s.Running c' := by
    constructor
    · rintro ⟨call, exists_, phase, runs⟩
      rcases clients_update exists_ with ⟨-, same⟩ | ⟨-, before⟩
      · obtain rfl := Option.some.inj same
        cases runs
      · exact ⟨call, before, phase, runs⟩
    · rintro ⟨call, exists_, runs⟩
      have other : c' ≠ c := by
        rintro rfl
        cases fresh.symm.trans exists_
      exact ⟨call, by simpa [SharedClient.set, other] using exists_, runs⟩
  constructor
  case consistent =>
    intro c' call exists_
    rcases clients_update exists_ with ⟨rfl, same⟩ | ⟨-, before⟩
    · obtain rfl := Option.some.inj same
      exact ⟨rfl, sound.unknown c' fresh⟩
    · exact sound.consistent c' call before
  case unknown =>
    intro c' none_
    by_cases same : c' = c
    · exact same ▸ sound.unknown c fresh
    · exact sound.unknown c' (by simpa [SharedClient.set, same] using none_)
  case exclusive =>
    simp only [SharedClient.Exclusive, running]
    exact sound.exclusive
  case clock => exact sound.clock
  case past => exact sound.past
  case spaced => exact sound.spaced
  case waits =>
    intro c' call attempt until_ exists_ waits
    rcases clients_update exists_ with ⟨-, same⟩ | ⟨-, before⟩
    · obtain rfl := Option.some.inj same
      cases waits
    · exact sound.waits c' call attempt until_ before waits
  case uninterrupted => exact sound.uninterrupted
  case latest => exact fun c' runs => sound.latest c' (running.mp runs)

/-- Nobody but `c` is inside. -/
theorem Sound.others (sound : Sound pace s) {c : Nat} (running : s.Running c) :
    s.permits = 0 ∧ ∀ c' ≠ c, ¬ s.Running c' := by
  rcases sound.exclusive with ⟨taken, holder, -, only⟩ | ⟨-, nobody⟩
  · refine ⟨taken, fun c' other runs => other ?_⟩
    rw [only c' runs, only c running]
  · exact absurd running (nobody c)

/-- What is known of a call inside. -/
theorem Sound.inside (sound : Sound pace s) {c : Nat} {call : Call} {phase : Phase}
    (exists_ : s.calls c = some call) (inside : call.stage = .running phase) :
    s.Running c ∧ s.permits = 0 ∧ (∀ c' ≠ c, ¬ s.Running c') ∧ call.Consistent (s.getsOf c) := by
  have runs : s.Running c := ⟨call, exists_, phase, inside⟩
  obtain ⟨taken, others⟩ := sound.others runs
  exact ⟨runs, taken, others, sound.consistent c call exists_⟩

theorem Sound.nobody (sound : Sound pace s) (free : s.permits ≠ 0) :
    s.permits = 1 ∧ ∀ c, ¬ s.Running c :=
  sound.exclusive.resolve_left fun taken => free taken.1

/-- The call that is or comes inside changes; it sends nothing. -/
theorem Sound.changed (sound : Sound pace s) {c permits : Nat} {call : Call}
    (others : ∀ c' ≠ c, ¬ s.Running c') (consistent : call.Consistent (s.getsOf c))
    (permit : (permits = 0 ∧ call.Runs) ∨ (permits = 1 ∧ ¬ call.Runs))
    (waits : ∀ attempt until_, call.stage = .running (.waiting attempt until_) →
      s.lastRequestTime + pace.interval ≤ until_)
    (latest : s.getsOf c ≠ 0 → (s.gets.map CallGet.call).getLast? = some c) :
    Sound pace { s.set c call with permits } := by
  have running {c' : Nat} (runs : SharedClient.Running { s.set c call with permits } c') :
      c' = c ∧ call.Runs := by
    obtain ⟨call', exists_, runs⟩ := runs
    rcases clients_update exists_ with ⟨rfl, same⟩ | ⟨other, before⟩
    · obtain rfl := Option.some.inj same
      exact ⟨rfl, runs⟩
    · exact absurd ⟨call', before, runs⟩ (others c' other)
  constructor
  case consistent =>
    intro c' call' exists_
    rcases clients_update exists_ with ⟨rfl, same⟩ | ⟨-, before⟩
    · obtain rfl := Option.some.inj same
      exact consistent
    · exact sound.consistent c' call' before
  case unknown =>
    intro c' none_
    have other : c' ≠ c := by
      rintro rfl
      simp [SharedClient.set] at none_
    exact sound.unknown c' (by simpa [SharedClient.set, other] using none_)
  case exclusive =>
    rcases permit with ⟨taken, runs⟩ | ⟨free, outside⟩
    · exact .inl ⟨taken, c, ⟨call, by simp [SharedClient.set], runs⟩, fun c' runs' => (running runs').1⟩
    · exact .inr ⟨free, fun c' runs => outside (running runs).2⟩
  case clock => exact sound.clock
  case past => exact sound.past
  case spaced => exact sound.spaced
  case waits =>
    intro c' call' attempt until_ exists_ waiting
    rcases clients_update exists_ with ⟨-, same⟩ | ⟨-, before⟩
    · obtain rfl := Option.some.inj same
      exact waits attempt until_ waiting
    · exact sound.waits c' call' attempt until_ before waiting
  case uninterrupted => exact sound.uninterrupted
  case latest =>
    intro c' runs some_
    obtain ⟨rfl, -⟩ := running runs
    exact latest some_

theorem enforce_waiting (sound : Sound pace s) (url : String) (first : Nat) {attempt until_ : Nat}
    (waits : s.enforce pace url first = .waiting attempt until_) :
    attempt = first ∧ s.lastRequestTime + pace.interval ≤ until_ := by
  obtain ⟨_, phase, after, -⟩ :=
    @enforce_waits pace ⟨url, s.lastRequestTime, .idle⟩ s.now first sound.clock
  obtain ⟨rfl, rfl⟩ := Phase.waiting.inj (phase.symm.trans waits)
  exact ⟨rfl, after⟩

/-- A member put after the members of its own call interrupts nobody. -/
theorem Uninterrupted.snoc {calls : List Nat} {c : Nat} (before : Uninterrupted calls)
    (last : c ∈ calls → calls.getLast? = some c) : Uninterrupted (calls ++ [c]) := by
  intro i j k d first second at_i at_k
  have short : k < calls.length + 1 := by
    have bound := (List.getElem?_eq_some_iff.mp at_k).1
    simpa using bound
  have inside : j < calls.length := by omega
  rw [List.getElem?_append_left (by omega)] at at_i
  rw [List.getElem?_append_left inside]
  by_cases old : k < calls.length
  · rw [List.getElem?_append_left old] at at_k
    exact before i j k d first second at_i at_k
  · -- the new member: it stands next to the last one, which is of its call
    obtain rfl : k = calls.length := by omega
    obtain rfl : c = d := by simpa using at_k
    have newest := last (List.mem_of_getElem? at_i)
    rw [List.getLast?_eq_getElem?] at newest
    by_cases next : j = calls.length - 1
    · rw [next]
      exact newest
    · exact before i j (calls.length - 1) c first (by omega) at_i newest

theorem mem_calls_iff (c : Nat) : c ∈ s.gets.map CallGet.call ↔ s.getsOf c ≠ 0 := by
  rw [SharedClient.getsOf, ← Nat.pos_iff_ne_zero, List.countP_pos_iff]
  simp

theorem Sound.started (sound : Sound pace s) {c : Nat} {call : Call}
    (exists_ : s.calls c = some call) {attempt until_ : Nat}
    (waits : call.stage = .running (.waiting attempt until_)) (ended : until_ ≤ s.now) :
    Sound pace (s.start c call attempt) := by
  obtain ⟨runs, taken, others, consistent⟩ := sound.inside exists_ waits
  simp only [Call.Consistent, waits] at consistent
  obtain ⟨short, length, count, retried⟩ := consistent
  have due := (sound.waits c call attempt until_ exists_ waits).trans ended
  have own : (s.start c call attempt).getsOf c = s.getsOf c + 1 := by
    simp [SharedClient.getsOf, SharedClient.start]
  have foreign {c' : Nat} (other : c' ≠ c) : (s.start c call attempt).getsOf c' = s.getsOf c' := by
    simp [SharedClient.getsOf, SharedClient.start, other.symm]
  have running {c' : Nat} (runs : (s.start c call attempt).Running c') : c' = c := by
    obtain ⟨call', exists', runs'⟩ := runs
    rcases clients_update exists' with ⟨rfl, -⟩ | ⟨other, before⟩
    · rfl
    · exact absurd ⟨call', before, runs'⟩ (others c' other)
  constructor
  case consistent =>
    intro c' call' exists'
    rcases clients_update exists' with ⟨rfl, same⟩ | ⟨other, before⟩
    · obtain rfl := Option.some.inj same
      rw [own]
      exact ⟨short, length, congrArg (· + 1) count, retried⟩
    · rw [foreign other]
      exact sound.consistent c' call' before
  case unknown =>
    intro c' none_
    have other : c' ≠ c := by
      rintro rfl
      simp [SharedClient.start, SharedClient.set] at none_
    rw [foreign other]
    exact sound.unknown c' (by simpa [SharedClient.start, SharedClient.set, other] using none_)
  case exclusive =>
    refine .inl ⟨taken, c, ⟨{ call with stage := .running (.inFlight attempt) }, ?_, _, rfl⟩,
      fun c' runs' => running runs'⟩
    exact Function.update_self ..
  case clock => exact Nat.le_refl _
  case past =>
    intro get mem
    rcases List.mem_append.mp mem with old | last
    · exact (sound.past get old).trans sound.clock
    · obtain rfl := List.mem_singleton.mp last
      exact Nat.le_refl _
  case spaced =>
    refine List.pairwise_append.mpr ⟨sound.spaced, List.pairwise_singleton _ _, ?_⟩
    intro get mem last isLast
    obtain rfl := List.mem_singleton.mp isLast
    exact (Nat.add_le_add_right (sound.past get mem) _).trans due
  case waits =>
    intro c' call' attempt' until' exists' waiting
    rcases clients_update exists' with ⟨-, same⟩ | ⟨other, before⟩
    · obtain rfl := Option.some.inj same
      cases waiting
    · exact absurd ⟨call', before, _, waiting⟩ (others c' other)
  case uninterrupted =>
    rw [SharedClient.start, List.map_append]
    exact sound.uninterrupted.snoc fun mem => sound.latest c runs ((mem_calls_iff c).mp mem)
  case latest =>
    intro c' runs' _
    rw [running runs', SharedClient.start, List.map_append]
    exact List.getLast?_concat ..

theorem Sound.ticked (sound : Sound pace s) (elapsed : Nat) :
    Sound pace { s with now := s.now + elapsed } :=
  { sound with clock := sound.clock.trans (Nat.le_add_right ..) }

theorem Sound.step (sound : Sound pace s) (change : CallChange pace s t) : Sound pace t := by
  cases change with
  | begun c url fresh => exact sound.begun url fresh
  | entered c call exists_ queued free =>
      obtain ⟨one, nobody⟩ := sound.nobody free
      have consistent := sound.consistent c call exists_
      simp only [Call.Consistent, queued] at consistent
      obtain ⟨none_, count⟩ := consistent
      obtain ⟨until_, waits, -⟩ :=
        @enforce_waits pace ⟨call.url, s.lastRequestTime, .idle⟩ s.now 0 sound.clock
      refine sound.changed (fun c' _ => nobody c') ?_ (.inl ⟨by rw [one], _, rfl⟩) ?_ ?_
      · simp only [Call.Consistent, SharedClient.enforce, waits, none_, count]
        simp [maxRetries]
      · intro attempt until' waiting
        exact (enforce_waiting sound call.url 0 (Stage.running.inj waiting)).2
      · exact fun some_ => absurd count some_
  | started c call exists_ attempt until_ waits ended => exact sound.started exists_ waits ended
  | concluded c call exists_ attempt inFlight outcome result concludes =>
      obtain ⟨runs, taken, others, consistent⟩ := sound.inside exists_ inFlight
      simp only [Call.Consistent, inFlight] at consistent
      obtain ⟨short, length, count, retried⟩ := consistent
      refine sound.changed others ?_ (.inr ⟨by rw [taken], nofun⟩) nofun (sound.latest c runs)
      exact ⟨by rw [count, List.length_append, length]; rfl, concludes.decided short length retried⟩
  | retried c call exists_ attempt until_ inFlight outcome retryable =>
      obtain ⟨runs, taken, others, consistent⟩ := sound.inside exists_ inFlight
      simp only [Call.Consistent, inFlight] at consistent
      obtain ⟨short, length, count, retried⟩ := consistent
      refine sound.changed others ?_ (.inl ⟨taken, _, rfl⟩) nofun (sound.latest c runs)
      refine ⟨Nat.succ_pos _, short, by rw [List.length_append, length]; rfl, count, ?_⟩
      simpa [or_imp, forall_and] using ⟨retried, retryable⟩
  | woken c call exists_ next until_ sleeps again =>
      obtain ⟨runs, taken, others, consistent⟩ := sound.inside exists_ sleeps
      simp only [Call.Consistent, sleeps] at consistent
      obtain ⟨-, -, length, count, retried⟩ := consistent
      obtain ⟨_, waits, -⟩ :=
        @enforce_waits pace ⟨call.url, s.lastRequestTime, .idle⟩ s.now next sound.clock
      refine sound.changed others ?_ (.inl ⟨taken, _, rfl⟩) ?_ (sound.latest c runs)
      · simp only [Call.Consistent, SharedClient.enforce, waits]
        exact ⟨again, length, count, retried⟩
      · intro attempt until' waiting
        exact (enforce_waiting sound call.url next (Stage.running.inj waiting)).2
  | gaveUp c call exists_ next until_ sleeps last message =>
      obtain ⟨runs, taken, others, consistent⟩ := sound.inside exists_ sleeps
      simp only [Call.Consistent, sleeps] at consistent
      obtain ⟨-, most, length, count, retried⟩ := consistent
      refine sound.changed others ?_ (.inr ⟨by rw [taken], nofun⟩) nofun (sound.latest c runs)
      have all : call.answers.length = maxRetries := by omega
      exact ⟨count.trans length.symm, .exhausted _ message all retried⟩
  | ticked elapsed => exact sound.ticked elapsed

/-! ### No call is stuck -/

/-- The server has no part in the action. -/
def CallAction.IsOwn : CallAction → Prop
  | .redirect _ _ => False
  | .answer _ _ => False
  | _ => True

theorem CallAction.IsOwn.expected {a : CallAction} (own : a.IsOwn) : Expected s a := by
  cases a with
  | redirect c response => exact own.elim
  | answer c outcome => exact own.elim
  | _ => exact ⟨trivial, trivial⟩

/-- The callers and the clock can move so that the goal is reached, however the server
answers the GETs on the way, with waits that can be slept. -/
inductive Surely (pace : Pace) (goal : SharedClient → Prop) : SharedClient → Prop where
  | here {s : SharedClient} (reached : goal s) : Surely pace goal s
  | moves {s t : SharedClient} (a : CallAction) (own : a.IsOwn)
      (stepped : callStep pace s a = some t) (rest : Surely pace goal t) : Surely pace goal s
  | answers {s : SharedClient} (c : Nat) (next : GetOutcome → SharedClient)
      (steps : ∀ outcome, Expected s (.answer c outcome) →
        callStep pace s (.answer c outcome) = some (next outcome))
      (rest : ∀ outcome, Expected s (.answer c outcome) → Surely pace goal (next outcome)) :
      Surely pace goal s

theorem Surely.trans {goal further : SharedClient → Prop} (first : Surely pace goal s)
    (second : ∀ t, goal t → Surely pace further t) : Surely pace further s := by
  induction first with
  | here reached => exact second _ reached
  | moves a own stepped _ ih => exact .moves a own stepped ih
  | answers c next steps _ ih => exact .answers c next steps ih

/-- The invariant holds where the goal is reached. -/
theorem Surely.sound {goal : SharedClient → Prop} (surely : Surely pace goal s)
    (sound : Sound pace s) : Surely pace (fun t => goal t ∧ Sound pace t) s := by
  induction surely with
  | here reached => exact .here ⟨reached, sound⟩
  | @moves s t a own stepped _ ih =>
      exact .moves a own stepped (ih (sound.step (callStep_cases own.expected stepped)))
  | answers c next steps _ ih =>
      exact .answers c next steps fun outcome expected =>
        ih outcome expected (sound.step (callStep_cases expected (steps outcome expected)))

/-- The call has returned or raised. -/
def SharedClient.Returned (s : SharedClient) (c : Nat) : Prop :=
  ∃ call result, s.calls c = some call ∧ call.stage = .returned result

/-- The call has ended, and the others stand where they stood. -/
def Ends (s : SharedClient) (c : Nat) (t : SharedClient) : Prop :=
  t.Returned c ∧ ∀ c' ≠ c, t.calls c' = s.calls c'

theorem ends_leave {c : Nat} (call : Call) (result : Except Failure HttpResponse) :
    Ends s c (s.leave c call result) := by
  refine ⟨⟨_, result, Function.update_self .., rfl⟩, fun c' other => ?_⟩
  exact Function.update_of_ne other ..

/-- What ends from where the call has moved to ends from before. -/
theorem Ends.of_moved {c : Nat} {call : Option Call} {u : SharedClient} (ends : Ends t c u)
    (moved : t.calls = Function.update s.calls c call) : Ends s c u := by
  refine ⟨ends.1, fun c' other => ?_⟩
  rw [ends.2 c' other, moved, Function.update_of_ne other]

theorem Surely.of_moved {c : Nat} {call : Option Call} (surely : Surely pace (Ends t c) t)
    (moved : t.calls = Function.update s.calls c call) : Surely pace (Ends s c) t :=
  surely.trans fun _ ends => .here (ends.of_moved moved)

theorem ticked_ends {c : Nat} (elapsed : Nat)
    (surely : Surely pace (Ends { s with now := s.now + elapsed } c)
      { s with now := s.now + elapsed }) : Surely pace (Ends s c) s := by
  refine .moves (.tick elapsed) trivial rfl (surely.trans fun _ ends => .here ends)

section

variable {c : Nat} {call : Call} {attempt : Nat}

theorem inFlight_ends (exists_ : s.calls c = some call)
    (inFlight : call.stage = .running (.inFlight attempt))
    (again : ∀ (t : SharedClient) (call : Call) (until_ : Nat), t.calls c = some call →
      call.stage = .running (.sleeping (attempt + 1) until_) → Surely pace (Ends t c) t) :
    Surely pace (Ends s c) s := by
  let answered (outcome : GetOutcome) : Call := { call with answers := call.answers ++ [outcome] }
  let next (outcome : GetOutcome) : SharedClient :=
    match attemptEnd call.url attempt outcome with
    | .returns response => s.leave c (answered outcome) (.ok response)
    | .raises failure => s.leave c (answered outcome) (.error failure)
    | .retries seconds => s.set c
        { answered outcome with
          stage := .running (.sleeping (attempt + 1) (s.now + seconds * pace.second)) }
  refine .answers c next (fun outcome _ => ?_) fun outcome _ => ?_
  · simp only [callStep, exists_, Option.bind_eq_bind, Option.bind_some, inFlight, next]
    cases attemptEnd call.url attempt outcome <;> rfl
  · simp only [next]
    cases attemptEnd call.url attempt outcome with
    | returns response => exact .here (ends_leave _ _)
    | raises failure => exact .here (ends_leave _ _)
    | retries seconds => exact (again _ _ _ (Function.update_self ..) rfl).of_moved rfl

theorem waiting_ends {until_ : Nat} (exists_ : s.calls c = some call)
    (waits : call.stage = .running (.waiting attempt until_))
    (sent : ∀ (t : SharedClient) (call : Call), t.calls c = some call →
      call.stage = .running (.inFlight attempt) → Surely pace (Ends t c) t) :
    Surely pace (Ends s c) s := by
  let later : SharedClient := { s with now := s.now + until_ }
  have stepped : callStep pace later (.send c) = some (later.start c call attempt) := by
    simp only [callStep, later, exists_, Option.bind_eq_bind, Option.bind_some, waits]
    exact if_pos (Nat.le_add_left ..)
  have ends := sent (later.start c call attempt) _ (Function.update_self ..) rfl
  exact ticked_ends until_ (.moves (.send c) trivial stepped (ends.of_moved rfl))

/-- A call asleep ends: by induction on the attempts it has left. -/
theorem sleeping_ends (left : Nat) {next until_ : Nat} (attempts : next + left = maxRetries)
    (exists_ : s.calls c = some call) (sleeps : call.stage = .running (.sleeping next until_)) :
    Surely pace (Ends s c) s := by
  induction left generalizing s call next until_ with
  | zero =>
      let later : SharedClient := { s with now := s.now + until_ }
      have stepped : callStep pace later (.wake c) = some (later.leave c call (.error
          (.openLibraryError s!"Failed after {maxRetries} retries: {call.url}"))) := by
        simp only [callStep, later, exists_, Option.bind_eq_bind, Option.bind_some, sleeps]
        rw [if_pos (Nat.le_add_left ..), if_neg (by omega)]
      exact ticked_ends until_ (.moves (.wake c) trivial stepped (.here (ends_leave _ _)))
  | succ left ih =>
      let later : SharedClient := { s with now := s.now + until_ }
      let woken := later.set c { call with stage := .running (later.enforce pace call.url next) }
      have stepped : callStep pace later (.wake c) = some woken := by
        simp only [callStep, later, exists_, Option.bind_eq_bind, Option.bind_some, sleeps]
        rw [if_pos (Nat.le_add_left ..), if_pos (by omega)]
      have ends : Surely pace (Ends woken c) woken :=
        waiting_ends (Function.update_self ..) rfl fun t call' exists' inFlight =>
          inFlight_ends exists' inFlight fun u call'' until' exists'' sleeps' =>
            ih (by omega) exists'' sleeps'
      exact ticked_ends until_ (.moves (.wake c) trivial stepped (ends.of_moved rfl))

/-- A call inside ends. -/
theorem running_ends (sound : Sound pace s) (runs : s.Running c) : Surely pace (Ends s c) s := by
  obtain ⟨call, exists_, phase, stage⟩ := runs
  have consistent := sound.consistent c call exists_
  cases phase with
  | idle =>
      simp only [Call.Consistent, stage] at consistent
  | waiting attempt until_ =>
      simp only [Call.Consistent, stage] at consistent
      exact waiting_ends exists_ stage fun t call' exists' inFlight =>
        inFlight_ends exists' inFlight fun u call'' until' exists'' sleeps =>
          sleeping_ends (maxRetries - (attempt + 1)) (by omega) exists'' sleeps
  | inFlight attempt =>
      simp only [Call.Consistent, stage] at consistent
      exact inFlight_ends exists_ stage fun t call' until' exists' sleeps =>
        sleeping_ends (maxRetries - (attempt + 1)) (by omega) exists' sleeps
  | sleeping next until_ =>
      simp only [Call.Consistent, stage] at consistent
      exact sleeping_ends (maxRetries - next) (by omega) exists_ stage

/-- A queued call ends once the semaphore is free. -/
theorem queued_ends (sound : Sound pace s) (exists_ : s.calls c = some call)
    (queued : call.stage = .queued) (free : s.permits ≠ 0) : Surely pace (Ends s c) s := by
  have stepped : callStep pace s (.acquire c) = some (s.enter pace c call) := by
    simp only [callStep, exists_, Option.bind_eq_bind, Option.bind_some, queued]
    exact if_neg free
  have entered := sound.step (.entered c call exists_ queued free)
  have ends := running_ends (c := c) entered ⟨_, Function.update_self .., _, rfl⟩
  exact .moves (.acquire c) trivial stepped (ends.of_moved rfl)

/-- Every call ends, however its GETs are answered: a queued one after the one inside. -/
theorem call_ends (sound : Sound pace s) (exists_ : s.calls c = some call) :
    Surely pace (·.Returned c) s := by
  cases stage : call.stage with
  | returned result => exact .here ⟨call, result, exists_, stage⟩
  | running phase =>
      exact (running_ends sound ⟨call, exists_, phase, stage⟩).trans fun _ ends => .here ends.1
  | queued =>
      rcases sound.exclusive with ⟨-, holder, inside, -⟩ | ⟨free, -⟩
      · refine ((running_ends sound inside).sound sound).trans ?_
        rintro t ⟨⟨⟨other, result, isOther, returned⟩, same⟩, sound'⟩
        have apart : c ≠ holder := by
          rintro rfl
          obtain ⟨call', exists', phase, runs⟩ := inside
          obtain rfl := Option.some.inj (exists_.symm.trans exists')
          cases stage.symm.trans runs
        have free : t.permits ≠ 0 := by
          intro taken
          rcases sound'.exclusive with ⟨-, d, ⟨call', exists', phase, runs⟩, -⟩ | ⟨one, -⟩
          · by_cases again : d = holder
            · rw [again] at exists'
              obtain rfl := Option.some.inj (isOther.symm.trans exists')
              cases returned.symm.trans runs
            · exact (sound.others inside).2 d again
                ⟨call', (same d again).symm.trans exists', phase, runs⟩
          · omega
        exact (queued_ends sound' ((same c apart).trans exists_) stage free).trans
          fun _ ends => .here ends.1
      · exact (queued_ends sound exists_ stage (by omega)).trans fun _ ends => .here ends.1

end

/-! ### Every run -/

theorem Decided.length {answers : List GetOutcome} {result : Except Failure HttpResponse}
    (decided : Decided answers result) : 1 ≤ answers.length ∧ answers.length ≤ maxRetries := by
  cases decided with
  | success earlier response few retried success => simp; omega
  | refused earlier last message few retried final failed => simp; omega
  | exhausted answers message all retried => simp [all, maxRetries]

/-- A call that has not returned has only got answers it retries. -/
theorem Call.Consistent.unreturned {call : Call} {gets : Nat} (consistent : call.Consistent gets)
    (unreturned : ∀ result, call.stage ≠ .returned result) :
    gets ≤ maxRetries ∧ ∀ answer ∈ call.answers, Retryable answer := by
  unfold Call.Consistent at consistent
  split at consistent
  case h_1 => simp [consistent.1, consistent.2]
  case h_2 => exact consistent.elim
  case h_3 => exact ⟨by omega, consistent.2.2.2⟩
  case h_4 => exact ⟨by omega, consistent.2.2.2⟩
  case h_5 => exact ⟨by omega, consistent.2.2.2.2⟩
  case h_6 result stage => exact absurd stage (unreturned result)

theorem sound_run {now : Nat} {actions : List CallAction}
    (run : Run (Guarded Expected (Steps (callStep pace))) (.initial now) actions s) :
    Sound pace s := by
  refine run.invariant (Sound pace) ?_ (sound_initial now)
  rintro before action after sound ⟨expected, stepped⟩
  exact sound.step (callStep_cases expected stepped)

/-- A call that has ended issued between one and three GETs, and what it gave is decided by
their answers; one that has not has got answers it retries only, and it can always be brought
to its end; the GETs of a call stand together, and all GETs are an interval apart. -/
structure ContractKept (pace : Pace) (s : SharedClient) : Prop where
  ended : ∀ c call result, s.calls c = some call → call.stage = .returned result →
    1 ≤ s.getsOf c ∧ s.getsOf c ≤ 3 ∧ s.getsOf c = call.answers.length ∧
      Decided call.answers result
  unended : ∀ c call, s.calls c = some call → (∀ result, call.stage ≠ .returned result) →
    s.getsOf c ≤ 3 ∧ ∀ answer ∈ call.answers, Retryable answer
  ends : ∀ c call, s.calls c = some call → Surely pace (·.Returned c) s
  uninterrupted : Uninterrupted (s.gets.map CallGet.call)
  spaced : s.gets.Pairwise fun earlier later => earlier.start + pace.interval ≤ later.start

/-- After any run in which every GET gets a listed answer, no redirect is followed and the
waits can be slept, the contract is kept. -/
theorem calls_decided {now : Nat} {actions : List CallAction}
    (run : Run (Guarded Expected (Steps (callStep pace))) (.initial now) actions s) :
    ContractKept pace s := by
  have sound := sound_run run
  constructor
  case ended =>
    intro c call result exists_ returned
    have consistent := sound.consistent c call exists_
    simp only [Call.Consistent, returned] at consistent
    obtain ⟨count, decided⟩ := consistent
    rw [count]
    exact ⟨decided.length.1, decided.length.2, rfl, decided⟩
  case unended =>
    intro c call exists_ unreturned
    exact (sound.consistent c call exists_).unreturned unreturned
  case ends => exact fun c call exists_ => call_ends sound exists_
  case uninterrupted => exact sound.uninterrupted
  case spaced => exact sound.spaced

/-- Two callers: the first one's GET is answered with 503, and then with 404. -/
theorem two_callers_decided : ∃ s,
    Run (Guarded Expected (Steps (callStep ⟨1, 3⟩))) (.initial 5)
      [.begin 0 "/works/OL1W.json", .begin 1 "/works/OL2W.json", .acquire 0, .send 0,
        .answer 0 (.response ⟨503, none, ""⟩), .tick 3, .wake 0, .send 0,
        .answer 0 (.response ⟨404, none, ""⟩), .acquire 1, .tick 1, .send 1] s ∧
      s.gets = [⟨0, 5⟩, ⟨0, 8⟩, ⟨1, 9⟩] ∧ ContractKept ⟨1, 3⟩ s := by
  have answered {s : SharedClient} {c status : Nat} (low : 200 ≤ status) (high : status < 600)
      (other : status ≠ 429) : Expected s (.answer c (.response ⟨status, none, ""⟩)) :=
    ⟨⟨low, high, fun tooMany => absurd tooMany other⟩, fun tooMany => absurd tooMany other⟩
  have own {s : SharedClient} {a : CallAction} (own : a.IsOwn) : Expected s a := own.expected
  have run : Run (Guarded Expected (Steps (callStep ⟨1, 3⟩))) (.initial 5)
      [.begin 0 "/works/OL1W.json", .begin 1 "/works/OL2W.json", .acquire 0, .send 0,
        .answer 0 (.response ⟨503, none, ""⟩), .tick 3, .wake 0, .send 0,
        .answer 0 (.response ⟨404, none, ""⟩), .acquire 1, .tick 1, .send 1] _ :=
    .cons ⟨own trivial, rfl⟩ <| .cons ⟨own trivial, rfl⟩ <| .cons ⟨own trivial, rfl⟩ <|
      .cons ⟨own trivial, rfl⟩ <|
      .cons ⟨answered (by decide) (by decide) (by decide), rfl⟩ <| .cons ⟨own trivial, rfl⟩ <|
      .cons ⟨own trivial, rfl⟩ <| .cons ⟨own trivial, rfl⟩ <|
      .cons ⟨answered (by decide) (by decide) (by decide), rfl⟩ <| .cons ⟨own trivial, rfl⟩ <|
      .cons ⟨own trivial, rfl⟩ <| .cons ⟨own trivial, rfl⟩ <| .nil _
  exact ⟨_, run, rfl, calls_decided run⟩

/-- The digits of `10 ^ 309`. -/
def longDigits : List Char := '1' :: List.replicate 309 '0'

/-- A wait of so many seconds: an integer, and too long for `asyncio.sleep`. -/
def longWait : String := String.ofList longDigits

theorem isInteger_longWait : isInteger longWait := by
  rw [isInteger, longWait, String.toList_ofList]
  decide +kernel

theorem pyInt_longWait : pyInt longWait = some (10 ^ 309) := by
  rw [pyInt, longWait, String.toList_ofList]
  decide +kernel

theorem attemptEnd_longWait (url : String) :
    attemptEnd url 0 (.response ⟨429, some longWait, ""⟩) =
      .raises (.other "OverflowError: int too large to convert to float") := by
  have long : ¬ sleepable (10 ^ 309) := by decide +kernel
  rw [attemptEnd, if_pos rfl, afterTooManyRequests, pyInt_longWait]
  exact if_neg long

/-- An exception that is no `OpenLibraryError` decides nothing. -/
theorem Decided.isOpenLibraryError {answers : List GetOutcome} {failure : Failure}
    (decided : Decided answers (.error failure)) : ∃ message, failure = .openLibraryError message := by
  generalize result : Except.error failure = raised at decided
  cases decided with
  | success => cases result
  | refused _ _ message => exact ⟨message, Except.error.inj result⟩
  | exhausted _ message => exact ⟨message, Except.error.inj result⟩

/-- A redirect that is followed sends a second GET at once; a wait that is too long leaves
the call with an exception that is no `OpenLibraryError`. -/
theorem redirects_and_long_waits :
    (∃ s, Run (Guarded AnswersListed (Steps (callStep ⟨1, 3⟩))) (.initial 5)
      [.begin 0 "/works/OL1W.json", .acquire 0, .send 0, .redirect 0 ⟨302, none, ""⟩,
        .answer 0 (.response ⟨200, none, ""⟩)] s ∧ ¬ ContractKept ⟨1, 3⟩ s) ∧
    ∃ s, Run (Guarded AnswersListed (Steps (callStep ⟨1, 3⟩))) (.initial 5)
      [.begin 0 "/works/OL1W.json", .acquire 0, .send 0,
        .answer 0 (.response ⟨429, some longWait, ""⟩)] s ∧ ¬ ContractKept ⟨1, 3⟩ s := by
  constructor
  · have run : Run (Guarded AnswersListed (Steps (callStep ⟨1, 3⟩))) (.initial 5)
        [.begin 0 "/works/OL1W.json", .acquire 0, .send 0, .redirect 0 ⟨302, none, ""⟩,
          .answer 0 (.response ⟨200, none, ""⟩)] _ :=
      .cons ⟨trivial, rfl⟩ <| .cons ⟨trivial, rfl⟩ <| .cons ⟨trivial, rfl⟩ <|
        .cons ⟨⟨by decide, by decide, nofun⟩, rfl⟩ <|
        .cons ⟨⟨by decide, by decide, nofun⟩, rfl⟩ <| .nil _
    refine ⟨_, run, fun kept => ?_⟩
    have spaced : [CallGet.mk 0 5, ⟨0, 5⟩].Pairwise
        fun earlier later => earlier.start + 1 ≤ later.start := kept.spaced
    exact absurd spaced (by decide)
  · have listed : Listed (.response ⟨429, some longWait, ""⟩) := by
      refine ⟨by decide, by decide, ?_⟩
      intro _ text isText
      obtain rfl := Option.some.inj isText
      exact isInteger_longWait
    have answered (s : SharedClient) (call : Call) (exists_ : s.calls 0 = some call)
        (inFlight : call.stage = .running (.inFlight 0)) :
        callStep ⟨1, 3⟩ s (.answer 0 (.response ⟨429, some longWait, ""⟩)) =
          some (s.leave 0
            { call with answers := call.answers ++ [.response ⟨429, some longWait, ""⟩] }
            (.error (.other "OverflowError: int too large to convert to float"))) := by
      simp only [callStep, exists_, Option.bind_eq_bind, Option.bind_some, inFlight,
        attemptEnd_longWait]
    have run : Run (Guarded AnswersListed (Steps (callStep ⟨1, 3⟩))) (.initial 5)
        [.begin 0 "/works/OL1W.json", .acquire 0, .send 0,
          .answer 0 (.response ⟨429, some longWait, ""⟩)] _ :=
      .cons ⟨trivial, rfl⟩ <| .cons ⟨trivial, rfl⟩ <| .cons ⟨trivial, rfl⟩ <|
        .cons ⟨listed, answered _ _ rfl rfl⟩ <| .nil _
    refine ⟨_, run, fun kept => ?_⟩
    obtain ⟨-, -, -, decided⟩ := kept.ended 0 _ _ rfl rfl
    obtain ⟨message, other⟩ := decided.isOpenLibraryError
    cases other

end TenantLibrary.OpenLibrary

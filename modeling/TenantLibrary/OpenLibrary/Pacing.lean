import Mathlib.Logic.Function.Basic
import Mathlib.Order.Nat
import TenantLibrary.Lib.Run
import TenantLibrary.OpenLibrary.Requests

/-!
The pace of the requests to Open Library.

The semaphore and the time of the last request live in the client object, and every
submission and every ingestion task creates its own client. A `ClientPool` holds the clients
that exist: any number of the API process's submissions, and the one of the task the
worker executes. `gets_spaced` says when all GETs of the service are an interval apart;
`two_submissions_at_once` is a run in which they are not.

Times are in ticks; an interval is `1 / OL_RATE_LIMIT_RPS` seconds.
-/

namespace TenantLibrary.OpenLibrary

open TenantLibrary.Lib

/-- `_rate_limit_interval`, and a second. -/
structure Pace where
  interval : Nat
  second : Nat

/-! ### One client -/

/-- Where `_rate_limited_get` stands. The owner of a client makes one call after the other,
so the semaphore is free whenever it makes one. -/
inductive Phase where
  | idle
  /-- it waits for the rate limit before an attempt -/
  | waiting (attempt : Nat) (until_ : Nat)
  | inFlight (attempt : Nat)
  /-- it sleeps after an attempt that is retried -/
  | sleeping (next : Nat) (until_ : Nat)
deriving DecidableEq, Repr

/-- A client, with `_last_request_time`. -/
structure Client where
  url : String
  lastRequestTime : Nat
  phase : Phase
deriving DecidableEq, Repr

namespace Client

/-- `OpenLibraryClient()`. -/
def new : Client := ⟨"", 0, .idle⟩

/-- "Enforce rate limit": until when an attempt waits. -/
def enforce (pace : Pace) (client : Client) (now attempt : Nat) : Client :=
  let elapsed := now - client.lastRequestTime
  let until_ := if elapsed < pace.interval then now + (pace.interval - elapsed) else now
  { client with phase := .waiting attempt until_ }

/-- A call of `_rate_limited_get`. -/
def call (pace : Pace) (client : Client) (now : Nat) (url : String) : Option Client :=
  match client.phase with
  | .idle => some ({ client with url }.enforce pace now 0)
  | _ => none

/-- The GET starts. -/
def send (client : Client) (now : Nat) : Option Client :=
  match client.phase with
  | .waiting attempt until_ =>
      if until_ ≤ now then
        some { client with lastRequestTime := now, phase := .inFlight attempt }
      else none
  | _ => none

/-- The GET has its outcome. -/
def answer (pace : Pace) (client : Client) (now : Nat) (outcome : GetOutcome) : Option Client :=
  match client.phase with
  | .inFlight attempt =>
      match attemptEnd client.url attempt outcome with
      | .retries seconds =>
          some { client with phase := .sleeping (attempt + 1) (now + seconds * pace.second) }
      | _ => some { client with phase := .idle }
  | _ => none

/-- The sleep has ended: the next attempt, or the exception after the last one. -/
def wake (pace : Pace) (client : Client) (now : Nat) : Option Client :=
  match client.phase with
  | .sleeping next until_ =>
      if until_ ≤ now then
        if next < maxRetries then some (client.enforce pace now next)
        else some { client with phase := .idle }
      else none
  | _ => none

end Client

/-! ### The service -/

/-- A GET that started: whose, and when. -/
structure Get where
  client : Nat
  start : Nat
deriving DecidableEq, Repr

/-- The clients that exist, by the number of their creation, the one of the worker's task,
and the GETs so far. -/
structure ClientPool where
  now : Nat
  created : Nat
  clients : Nat → Option Client
  worker : Option Nat
  gets : List Get

inductive PoolAction where
  | openSubmission
  | openTask
  | close (c : Nat)
  | call (c : Nat) (url : String)
  | send (c : Nat)
  /-- the response is a redirect, and httpx follows it with another GET -/
  | redirect (c : Nat)
  | answer (c : Nat) (outcome : GetOutcome)
  | wake (c : Nat)
  | tick (elapsed : Nat)

namespace ClientPool

def initial : ClientPool := ⟨0, 0, fun _ => none, none, []⟩

/-- One more client. -/
def create (s : ClientPool) : ClientPool :=
  { s with
    created := s.created + 1
    clients := Function.update s.clients s.created (some .new) }

/-- A client changes. -/
def set (s : ClientPool) (c : Nat) (client : Client) : ClientPool :=
  { s with clients := Function.update s.clients c (some client) }

/-- A GET of a client starts now. -/
def record (s : ClientPool) (c : Nat) : ClientPool := { s with gets := s.gets ++ [⟨c, s.now⟩] }

end ClientPool

/-- One step of the service; `none` when the action is not possible. -/
def poolStep (pace : Pace) (s : ClientPool) : PoolAction → Option ClientPool
  | .openSubmission => some s.create
  | .openTask =>
      match s.worker with
      | none => some { s.create with worker := some s.created }
      | some _ => none
  | .close c => do
      let client ← s.clients c
      if client.phase = .idle then
        some { s with
          clients := Function.update s.clients c none
          worker := if s.worker = some c then none else s.worker }
      else none
  | .call c url => do
      let client ← s.clients c
      let called ← client.call pace s.now url
      return s.set c called
  | .send c => do
      let client ← s.clients c
      let sent ← client.send s.now
      return (s.set c sent).record c
  | .redirect c => do
      let client ← s.clients c
      match client.phase with
      | .inFlight _ => return s.record c
      | _ => none
  | .answer c outcome => do
      let client ← s.clients c
      let answered ← client.answer pace s.now outcome
      return s.set c answered
  | .wake c => do
      let client ← s.clients c
      let woken ← client.wake pace s.now
      return s.set c woken
  | .tick elapsed => some { s with now := s.now + elapsed }

/-! ### What is to hold -/

/-- Any two GETs start an interval apart. -/
def ClientPool.Spaced (pace : Pace) (s : ClientPool) : Prop :=
  s.gets.Pairwise fun earlier later => earlier.start + pace.interval ≤ later.start

/-- The client waits to send. -/
def ClientPool.WaitsUntil (s : ClientPool) (c until_ : Nat) : Prop :=
  ∃ client attempt, s.clients c = some client ∧ client.phase = .waiting attempt until_

/-- Nobody else waits to send, and nobody else has sent within the last interval. -/
structure ClientPool.Alone (pace : Pace) (s : ClientPool) (c : Nat) : Prop where
  waits : ∀ other ≠ c, ∀ until_, ¬ s.WaitsUntil other until_
  sent : ∀ get ∈ s.gets, get.client ≠ c → get.start + pace.interval ≤ s.now

/-- The client works out how long to wait: at a call, and before another attempt. -/
def ClientPool.Enforces (s : ClientPool) : PoolAction → Nat → Prop
  | .call c _, c' => c = c'
  | .wake c, c' => c = c' ∧ ∃ client next until_, s.clients c = some client ∧
      client.phase = .sleeping next until_ ∧ next < maxRetries
  | _, _ => False

/-- No response is a redirect, and a client that works out how long to wait is alone. -/
structure Paced (pace : Pace) (s : ClientPool) (a : PoolAction) : Prop where
  direct : ∀ c, a ≠ .redirect c
  alone : ∀ c, s.Enforces a c → s.Alone pace c

/-! ### What a step does -/

/-- A client neither waits to send nor has sent anything new. -/
def Client.Rests (before after : Client) : Prop :=
  after.lastRequestTime = before.lastRequestTime ∧
    ∀ attempt until_, after.phase ≠ .waiting attempt until_

/-- What the actions do, as far as the pace is concerned. -/
inductive PoolChange (pace : Pace) (s : ClientPool) (a : PoolAction) : ClientPool → Prop where
  | created (worker : Option Nat) : PoolChange pace s a { s.create with worker }
  | closed (c : Nat) (worker : Option Nat) : PoolChange pace s a
      { s with clients := Function.update s.clients c none, worker }
  | enforced (c : Nat) (client : Client) (exists_ : s.clients c = some client) (url : String)
      (attempt : Nat) (enforces : s.Enforces a c) :
      PoolChange pace s a (s.set c ({ client with url }.enforce pace s.now attempt))
  | rested (c : Nat) (client after : Client) (exists_ : s.clients c = some client)
      (rests : client.Rests after) : PoolChange pace s a (s.set c after)
  | sent (c : Nat) (client : Client) (exists_ : s.clients c = some client) (attempt until_ : Nat)
      (waits : client.phase = .waiting attempt until_) (ended : until_ ≤ s.now) :
      PoolChange pace s a
        ((s.set c { client with lastRequestTime := s.now, phase := .inFlight attempt }).record c)
  | redirected (c : Nat) (isRedirect : a = .redirect c) : PoolChange pace s a (s.record c)
  | ticked (elapsed : Nat) : PoolChange pace s a { s with now := s.now + elapsed }

variable {pace : Pace} {s t : ClientPool} {a : PoolAction}

namespace Client

variable {client after : Client} {now : Nat}

theorem call_eq_some {url : String} (called : client.call pace now url = some after) :
    after = { client with url }.enforce pace now 0 := by
  unfold call at called
  split at called
  · exact (Option.some.inj called).symm
  · cases called

theorem send_eq_some (sent : client.send now = some after) :
    ∃ attempt until_, client.phase = .waiting attempt until_ ∧ until_ ≤ now ∧
      after = { client with lastRequestTime := now, phase := .inFlight attempt } := by
  unfold send at sent
  split at sent
  case h_1 attempt until_ waits =>
    split at sent
    case isTrue ended => exact ⟨attempt, until_, waits, ended, (Option.some.inj sent).symm⟩
    case isFalse => cases sent
  case h_2 => cases sent

/-- After an answer the client sleeps or is done. -/
theorem rests_of_answer {outcome : GetOutcome}
    (answered : client.answer pace now outcome = some after) : client.Rests after := by
  unfold answer at answered
  split at answered
  · split at answered
    · obtain rfl := Option.some.inj answered
      exact ⟨rfl, nofun⟩
    · obtain rfl := Option.some.inj answered
      exact ⟨rfl, nofun⟩
  · cases answered

theorem wake_cases (woken : client.wake pace now = some after) :
    (∃ next until_, client.phase = .sleeping next until_ ∧ next < maxRetries ∧
      after = client.enforce pace now next) ∨ client.Rests after := by
  unfold wake at woken
  split at woken
  case h_1 next until_ sleeps =>
    split at woken
    case isTrue =>
      split at woken
      case isTrue again =>
        exact .inl ⟨next, until_, sleeps, again, (Option.some.inj woken).symm⟩
      case isFalse =>
        obtain rfl := Option.some.inj woken
        exact .inr ⟨rfl, nofun⟩
    case isFalse => cases woken
  case h_2 => cases woken

end Client

theorem poolStep_cases (stepped : poolStep pace s a = some t) : PoolChange pace s a t := by
  cases a with
  | openSubmission =>
      obtain rfl := Option.some.inj stepped
      exact .created _
  | openTask =>
      simp only [poolStep] at stepped
      split at stepped
      · obtain rfl := Option.some.inj stepped
        exact .created _
      · cases stepped
  | close c =>
      obtain ⟨client, _, closed⟩ := Option.bind_eq_some_iff.mp stepped
      split at closed
      · obtain rfl := Option.some.inj closed
        exact .closed c _
      · cases closed
  | call c url =>
      obtain ⟨client, exists_, rest⟩ := Option.bind_eq_some_iff.mp stepped
      obtain ⟨called, isCall, made⟩ := Option.bind_eq_some_iff.mp rest
      obtain rfl := Option.some.inj made
      obtain rfl := Client.call_eq_some isCall
      exact .enforced c client exists_ url 0 rfl
  | send c =>
      obtain ⟨client, exists_, rest⟩ := Option.bind_eq_some_iff.mp stepped
      obtain ⟨sent, isSend, made⟩ := Option.bind_eq_some_iff.mp rest
      obtain rfl := Option.some.inj made
      obtain ⟨attempt, until_, waits, ended, rfl⟩ := Client.send_eq_some isSend
      exact .sent c client exists_ attempt until_ waits ended
  | redirect c =>
      obtain ⟨client, _, rest⟩ := Option.bind_eq_some_iff.mp stepped
      split at rest
      · obtain rfl := Option.some.inj rest
        exact .redirected c rfl
      · cases rest
  | answer c outcome =>
      obtain ⟨client, exists_, rest⟩ := Option.bind_eq_some_iff.mp stepped
      obtain ⟨answered, isAnswer, made⟩ := Option.bind_eq_some_iff.mp rest
      obtain rfl := Option.some.inj made
      exact .rested c client _ exists_ (Client.rests_of_answer isAnswer)
  | wake c =>
      obtain ⟨client, exists_, rest⟩ := Option.bind_eq_some_iff.mp stepped
      obtain ⟨woken, isWake, made⟩ := Option.bind_eq_some_iff.mp rest
      obtain rfl := Option.some.inj made
      rcases Client.wake_cases isWake with ⟨next, until_, sleeps, again, rfl⟩ | rests
      · exact .enforced c client exists_ client.url next
          ⟨rfl, client, next, until_, exists_, sleeps, again⟩
      · exact .rested c client _ exists_ rests
  | tick elapsed =>
      obtain rfl := Option.some.inj stepped
      exact .ticked elapsed

/-! ### The invariant -/

/-- What holds in every state of a paced run. -/
structure Kept (pace : Pace) (s : ClientPool) : Prop where
  spaced : s.Spaced pace
  numbered : ∀ c client, s.clients c = some client → c < s.created
  known : ∀ get ∈ s.gets, get.client < s.created
  clock : ∀ c client, s.clients c = some client → client.lastRequestTime ≤ s.now
  own : ∀ c client, s.clients c = some client →
    ∀ get ∈ s.gets, get.client = c → get.start ≤ client.lastRequestTime
  waiting : ∀ c until_, s.WaitsUntil c until_ → ∀ get ∈ s.gets, get.start + pace.interval ≤ until_
  single : ∀ c c' until_ until_', s.WaitsUntil c until_ → s.WaitsUntil c' until_' → c = c'

/-- A client of an updated service is the new one or was there. -/
theorem clients_update {α : Type} {clients : Nat → Option α} {new : Option α} {c c' : Nat}
    {client : α} (exists_ : Function.update clients c new c' = some client) :
    (c' = c ∧ new = some client) ∨ (c' ≠ c ∧ clients c' = some client) := by
  by_cases same : c' = c
  · subst same
    exact .inl ⟨rfl, by simpa using exists_⟩
  · exact .inr ⟨same, by simpa [same] using exists_⟩

/-- The wait ends an interval after the last request. -/
theorem enforce_waits (client : Client) (now attempt : Nat) (past : client.lastRequestTime ≤ now) :
    ∃ until_, (client.enforce pace now attempt).phase = .waiting attempt until_ ∧
      client.lastRequestTime + pace.interval ≤ until_ ∧ now ≤ until_ := by
  refine ⟨_, rfl, ?_, ?_⟩ <;> split <;> omega

theorem kept_initial : Kept pace .initial where
  spaced := .nil
  numbered := nofun
  known := nofun
  clock := nofun
  own := nofun
  waiting := by rintro c until_ ⟨client, attempt, exists_, _⟩; cases exists_
  single := by rintro c c' until_ until_' ⟨client, attempt, exists_, _⟩; cases exists_

theorem Kept.created (kept : Kept pace s) (worker : Option Nat) :
    Kept pace { s.create with worker } := by
  have old {c : Nat} {client : Client} (exists_ : s.create.clients c = some client) :
      (c = s.created ∧ client = .new) ∨ s.clients c = some client := by
    rcases clients_update exists_ with ⟨rfl, same⟩ | ⟨_, before⟩
    · exact .inl ⟨rfl, (Option.some.inj same).symm⟩
    · exact .inr before
  have waited {c until_ : Nat} (waits : s.create.WaitsUntil c until_) : s.WaitsUntil c until_ := by
    obtain ⟨client, attempt, exists_, phase⟩ := waits
    rcases old exists_ with ⟨rfl, rfl⟩ | before
    · cases phase
    · exact ⟨client, attempt, before, phase⟩
  constructor
  case spaced => exact kept.spaced
  case numbered =>
    intro c client exists_
    rcases old exists_ with ⟨rfl, _⟩ | before
    · exact Nat.lt_succ_self _
    · exact Nat.lt_succ_of_lt (kept.numbered c client before)
  case known => exact fun get mem => Nat.lt_succ_of_lt (kept.known get mem)
  case clock =>
    intro c client exists_
    rcases old exists_ with ⟨rfl, rfl⟩ | before
    · exact Nat.zero_le _
    · exact kept.clock c client before
  case own =>
    intro c client exists_ get mem isOwn
    rcases old exists_ with ⟨rfl, _⟩ | before
    · exact absurd (kept.known get mem) (by omega)
    · exact kept.own c client before get mem isOwn
  case waiting => exact fun c until_ waits => kept.waiting c until_ (waited waits)
  case single => exact fun c c' u u' waits waits' => kept.single c c' u u' (waited waits) (waited waits')

theorem Kept.closed (kept : Kept pace s) (c : Nat) (worker : Option Nat) :
    Kept pace { s with clients := Function.update s.clients c none, worker } := by
  have old {c' : Nat} {client : Client}
      (exists_ : Function.update s.clients c none c' = some client) : s.clients c' = some client := by
    rcases clients_update exists_ with ⟨_, none⟩ | ⟨_, before⟩
    · cases none
    · exact before
  constructor
  case spaced => exact kept.spaced
  case numbered => exact fun c' client exists_ => kept.numbered c' client (old exists_)
  case known => exact kept.known
  case clock => exact fun c' client exists_ => kept.clock c' client (old exists_)
  case own => exact fun c' client exists_ => kept.own c' client (old exists_)
  case waiting =>
    rintro c' until_ ⟨client, attempt, exists_, phase⟩
    exact kept.waiting c' until_ ⟨client, attempt, old exists_, phase⟩
  case single =>
    rintro c' c'' u u' ⟨client, attempt, exists_, phase⟩ ⟨client', attempt', exists', phase'⟩
    exact kept.single c' c'' u u' ⟨client, attempt, old exists_, phase⟩
      ⟨client', attempt', old exists', phase'⟩

/-- A client that sent nothing changes, and the waits are still right. -/
theorem Kept.set (kept : Kept pace s) {c : Nat} {client after : Client}
    (exists_ : s.clients c = some client) (sameTime : after.lastRequestTime = client.lastRequestTime)
    (waiting : ∀ attempt until_, after.phase = .waiting attempt until_ →
      (∀ get ∈ s.gets, get.start + pace.interval ≤ until_) ∧
        ∀ other ≠ c, ∀ u, ¬ s.WaitsUntil other u) : Kept pace (s.set c after) := by
  have waited {c' u : Nat} (waits : (s.set c after).WaitsUntil c' u) :
      (c' = c ∧ ∃ attempt, after.phase = .waiting attempt u) ∨ (c' ≠ c ∧ s.WaitsUntil c' u) := by
    obtain ⟨client', attempt, exists', phase⟩ := waits
    rcases clients_update exists' with ⟨rfl, same⟩ | ⟨other, before⟩
    · obtain rfl := Option.some.inj same
      exact .inl ⟨rfl, attempt, phase⟩
    · exact .inr ⟨other, client', attempt, before, phase⟩
  constructor
  case spaced => exact kept.spaced
  case numbered =>
    intro c' client' exists'
    rcases clients_update exists' with ⟨rfl, _⟩ | ⟨_, before⟩
    · exact kept.numbered c' client exists_
    · exact kept.numbered c' client' before
  case known => exact kept.known
  case clock =>
    intro c' client' exists'
    rcases clients_update exists' with ⟨rfl, same⟩ | ⟨_, before⟩
    · obtain rfl := Option.some.inj same
      exact sameTime ▸ kept.clock c' client exists_
    · exact kept.clock c' client' before
  case own =>
    intro c' client' exists'
    rcases clients_update exists' with ⟨rfl, same⟩ | ⟨_, before⟩
    · obtain rfl := Option.some.inj same
      exact sameTime ▸ kept.own c' client exists_
    · exact kept.own c' client' before
  case waiting =>
    intro c' u waits
    rcases waited waits with ⟨_, attempt, phase⟩ | ⟨_, before⟩
    · exact (waiting attempt u phase).1
    · exact kept.waiting c' u before
  case single =>
    intro c' c'' u u' waits waits'
    rcases waited waits with ⟨rfl, attempt, phase⟩ | ⟨other, before⟩ <;>
      rcases waited waits' with ⟨rfl, attempt', phase'⟩ | ⟨other', before'⟩
    · rfl
    · exact absurd before' ((waiting attempt u phase).2 c'' other' u')
    · exact absurd before ((waiting attempt' u' phase').2 c' other u)
    · exact kept.single c' c'' u u' before before'

/-- The client whose wait has ended sends a GET. -/
theorem Kept.sent (kept : Kept pace s) {c attempt until_ : Nat} {client : Client}
    (exists_ : s.clients c = some client) (waits : client.phase = .waiting attempt until_)
    (ended : until_ ≤ s.now) :
    Kept pace
      ((s.set c { client with lastRequestTime := s.now, phase := .inFlight attempt }).record c) := by
  have waitsUntil : s.WaitsUntil c until_ := ⟨client, attempt, exists_, waits⟩
  have early (get : Get) (mem : get ∈ s.gets) : get.start + pace.interval ≤ s.now :=
    (kept.waiting c until_ waitsUntil get mem).trans ended
  have nobody {c' u : Nat} (waits' : ClientPool.WaitsUntil ((s.set c
      { client with lastRequestTime := s.now, phase := .inFlight attempt }).record c) c' u) :
      False := by
    obtain ⟨client', attempt', exists', phase⟩ := waits'
    rcases clients_update exists' with ⟨rfl, same⟩ | ⟨other, before⟩
    · obtain rfl := Option.some.inj same
      cases phase
    · exact other (kept.single c' c u until_ ⟨client', attempt', before, phase⟩ waitsUntil)
  constructor
  case spaced =>
    refine List.pairwise_append.mpr ⟨kept.spaced, List.pairwise_singleton _ _, ?_⟩
    intro get mem last isLast
    obtain rfl := List.mem_singleton.mp isLast
    exact early get mem
  case numbered =>
    intro c' client' exists'
    rcases clients_update exists' with ⟨rfl, _⟩ | ⟨_, before⟩
    · exact kept.numbered c' client exists_
    · exact kept.numbered c' client' before
  case known =>
    intro get mem
    rcases List.mem_append.mp mem with old | last
    · exact kept.known get old
    · obtain rfl := List.mem_singleton.mp last
      exact kept.numbered c client exists_
  case clock =>
    intro c' client' exists'
    rcases clients_update exists' with ⟨rfl, same⟩ | ⟨_, before⟩
    · obtain rfl := Option.some.inj same
      exact Nat.le_refl _
    · exact kept.clock c' client' before
  case own =>
    intro c' client' exists' get mem isOwn
    rcases clients_update exists' with ⟨rfl, same⟩ | ⟨other, before⟩
    · obtain rfl := Option.some.inj same
      rcases List.mem_append.mp mem with old | last
      · exact (Nat.le_add_right _ _).trans (early get old)
      · obtain rfl := List.mem_singleton.mp last
        exact Nat.le_refl _
    · rcases List.mem_append.mp mem with old | last
      · exact kept.own c' client' before get old isOwn
      · obtain rfl := List.mem_singleton.mp last
        exact absurd isOwn.symm other
  case waiting => exact fun c' u waits' => (nobody waits').elim
  case single => exact fun c' c'' u u' waits' => (nobody waits').elim

theorem Kept.ticked (kept : Kept pace s) (elapsed : Nat) :
    Kept pace { s with now := s.now + elapsed } :=
  ⟨kept.spaced, kept.numbered, kept.known,
    fun c client exists_ => (kept.clock c client exists_).trans (Nat.le_add_right _ _),
    kept.own, kept.waiting, kept.single⟩

theorem Kept.step (kept : Kept pace s) (paced : Paced pace s a)
    (stepped : poolStep pace s a = some t) : Kept pace t := by
  cases poolStep_cases stepped with
  | created worker => exact kept.created worker
  | closed c worker => exact kept.closed c worker
  | enforced c client exists_ url attempt enforces =>
      have alone := paced.alone c enforces
      have clock := kept.clock c client exists_
      obtain ⟨until_, phase, afterOwn, afterNow⟩ :=
        @enforce_waits pace { client with url } s.now attempt clock
      refine kept.set exists_ rfl fun attempt' u waits => ⟨fun get mem => ?_, alone.waits⟩
      obtain ⟨_, rfl⟩ := Phase.waiting.inj (phase.symm.trans waits)
      by_cases isOwn : get.client = c
      · have start := kept.own c client exists_ get mem isOwn
        exact (Nat.add_le_add_right start _).trans afterOwn
      · exact (alone.sent get mem isOwn).trans afterNow
  | rested c client after exists_ rests =>
      exact kept.set exists_ rests.1 fun attempt until_ waits => absurd waits (rests.2 attempt until_)
  | sent c client exists_ attempt until_ waits ended => exact kept.sent exists_ waits ended
  | redirected c isRedirect => exact absurd isRedirect (paced.direct c)
  | ticked elapsed => exact kept.ticked elapsed

/-- In a run in which no response is a redirect and every client is alone when it works out
how long to wait, all GETs of the service are an interval apart. -/
theorem gets_spaced {actions : List PoolAction}
    (run : Run (Guarded (Paced pace) (Steps (poolStep pace))) .initial actions s) :
    s.Spaced pace := by
  have kept : Kept pace s := by
    refine run.invariant (Kept pace) ?_ kept_initial
    rintro before action after held ⟨paced, stepped⟩
    exact held.step paced stepped
  exact kept.spaced

/-- The other client has sent a GET an interval ago and waits for its answer. -/
theorem alone_beside {s : ClientPool} {c other : Nat} {client : Client}
    (only : ∀ c', c' ≠ c → c' ≠ other → s.clients c' = none)
    (exists_ : s.clients other = some client)
    (rests : ∀ attempt until_, client.phase ≠ .waiting attempt until_)
    (sent : ∀ get ∈ s.gets, get.client ≠ c → get.start + pace.interval ≤ s.now) :
    s.Alone pace c := by
  refine ⟨fun c' isOther until_ waits => ?_, sent⟩
  obtain ⟨client', attempt, exists', phase⟩ := waits
  by_cases same : c' = other
  · rw [same, exists_] at exists'
    obtain rfl := Option.some.inj exists'
    exact rests attempt until_ phase
  · rw [only c' isOther same] at exists'
    cases exists'

/-- Two submissions: the first GET of one, an interval later the GET of the other, and then
the second GET of the first, whose first one was answered with a server error. -/
theorem retried_get_spaced : ∃ s,
    Run (Guarded (Paced ⟨1, 3⟩) (Steps (poolStep ⟨1, 3⟩))) .initial
      [.openSubmission, .openSubmission, .tick 5, .call 0 "/works/OL1W.json", .send 0, .tick 1,
        .call 1 "/works/OL2W.json", .send 1, .answer 0 (.response ⟨503, none, ""⟩), .tick 3,
        .wake 0, .send 0] s ∧
      s.gets = [⟨0, 5⟩, ⟨1, 6⟩, ⟨0, 9⟩] ∧ s.Spaced ⟨1, 3⟩ := by
  have others {s : ClientPool} {c c' : Nat} (pair : c = 0 ∧ c' = 1 ∨ c = 1 ∧ c' = 0)
      (none_ : ∀ n, s.clients (n + 2) = none) :
      ∀ c'', c'' ≠ c → c'' ≠ c' → s.clients c'' = none := by
    rintro (_ | _ | n) first second
    · omega
    · omega
    · exact none_ n
  have run : Run (Guarded (Paced ⟨1, 3⟩) (Steps (poolStep ⟨1, 3⟩))) .initial
      [.openSubmission, .openSubmission, .tick 5, .call 0 "/works/OL1W.json", .send 0, .tick 1,
        .call 1 "/works/OL2W.json", .send 1, .answer 0 (.response ⟨503, none, ""⟩), .tick 3,
        .wake 0, .send 0] _ :=
    .cons ⟨⟨nofun, nofun⟩, rfl⟩ <| .cons ⟨⟨nofun, nofun⟩, rfl⟩ <| .cons ⟨⟨nofun, nofun⟩, rfl⟩ <|
      .cons ⟨⟨nofun, by
        rintro c rfl
        exact alone_beside (others (.inl ⟨rfl, rfl⟩) fun _ => rfl) rfl nofun nofun⟩, rfl⟩ <|
      .cons ⟨⟨nofun, nofun⟩, rfl⟩ <| .cons ⟨⟨nofun, nofun⟩, rfl⟩ <|
      .cons ⟨⟨nofun, by
        rintro c rfl
        refine alone_beside (others (.inr ⟨rfl, rfl⟩) fun _ => rfl) rfl nofun fun get mem _ => ?_
        obtain rfl : get = ⟨0, 5⟩ := List.mem_singleton.mp mem
        exact Nat.le_refl 6⟩, rfl⟩ <|
      .cons ⟨⟨nofun, nofun⟩, rfl⟩ <| .cons ⟨⟨nofun, nofun⟩, rfl⟩ <|
      .cons ⟨⟨nofun, nofun⟩, rfl⟩ <|
      .cons ⟨⟨nofun, by
        rintro c ⟨rfl, _⟩
        refine alone_beside (others (.inl ⟨rfl, rfl⟩) fun _ => rfl) rfl nofun fun get mem isOther => ?_
        have gets : get ∈ [Get.mk 0 5, ⟨1, 6⟩] := mem
        rcases List.mem_pair.mp gets with rfl | rfl
        · exact absurd rfl isOther
        · exact Nat.le_of_lt (by decide : 7 < 9)⟩, rfl⟩ <|
      .cons ⟨⟨nofun, nofun⟩, rfl⟩ <| .nil _
  exact ⟨_, run, by decide +kernel, gets_spaced run⟩

/-- Two submissions at the same time both find that their client has sent nothing yet. -/
theorem two_submissions_at_once : ∃ s,
    Run (Steps (poolStep ⟨1, 3⟩)) .initial
      [.openSubmission, .openSubmission, .tick 5, .call 0 "/search.json", .call 1 "/search.json",
        .send 0, .send 1] s ∧ ¬ s.Spaced ⟨1, 3⟩ := by
  have computed : (exec (poolStep ⟨1, 3⟩) .initial
      [.openSubmission, .openSubmission, .tick 5, .call 0 "/search.json", .call 1 "/search.json",
        .send 0, .send 1]).any (fun s => s.gets = [⟨0, 5⟩, ⟨1, 5⟩]) = true := by decide +kernel
  obtain ⟨s, reached, final⟩ := (Option.any_eq_true _ _).mp computed
  refine ⟨s, run_of_exec reached, fun spaced => ?_⟩
  unfold ClientPool.Spaced at spaced
  rw [of_decide_eq_true final] at spaced
  exact absurd spaced (by decide)

end TenantLibrary.OpenLibrary

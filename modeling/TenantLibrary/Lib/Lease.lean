import Mathlib.Logic.Function.Basic
import TenantLibrary.Lib.Run

/-!
Locks that disappear by themselves.

A client gets in by acquiring the lock, when nobody has it, and leaves by deleting
whatever lock there is; `ttl` after it was acquired a lock disappears. The lock excludes
as long as nobody is still inside when its lock disappears (`exclusive_of_timely`).
-/

namespace TenantLibrary.Lib

/-- The lock, and the clients inside. -/
structure Lease (Client : Type*) where
  now : Nat
  /-- who acquired the lock, and when it disappears -/
  lock : Option (Client × Nat)
  /-- when a client that is inside got in -/
  since : Client → Option Nat

inductive LeaseEvent (Client : Type*) where
  | acquire (client : Client)
  | release (client : Client)
  | tick (elapsed : Nat)

namespace Lease

section Steps

variable {Client : Type*} [DecidableEq Client]

def acquire (ttl : Nat) (s : Lease Client) (client : Client) : Lease Client :=
  { s with
    lock := some (client, s.now + ttl)
    since := Function.update s.since client (some s.now) }

def release (s : Lease Client) (client : Client) : Lease Client :=
  { s with lock := none, since := Function.update s.since client none }

end Steps

variable {Client : Type*}

/-- Time passes, and the lock disappears when its time has come. -/
def tick (s : Lease Client) (elapsed : Nat) : Lease Client :=
  { s with
    now := s.now + elapsed
    lock := s.lock.filter fun lock => s.now + elapsed < lock.2 }

inductive Step [DecidableEq Client] (ttl : Nat) (s : Lease Client) :
    LeaseEvent Client → Lease Client → Prop where
  | acquire (client : Client) (outside : s.since client = none) (free : s.lock = none) :
      Step ttl s (.acquire client) (s.acquire ttl client)
  | release (client : Client) (inside : (s.since client).isSome) :
      Step ttl s (.release client) (s.release client)
  | tick (elapsed : Nat) : Step ttl s (.tick elapsed) (s.tick elapsed)

/-- Time does not pass beyond the end of the lock of a client that is inside. -/
def Timely (ttl : Nat) (s : Lease Client) : LeaseEvent Client → Prop
  | .tick elapsed => ∀ client t, s.since client = some t → s.now + elapsed < t + ttl
  | _ => True

/-- At most one client is inside. -/
def Exclusive (s : Lease Client) : Prop :=
  ∀ c c', (s.since c).isSome → (s.since c').isSome → c = c'

/-- A client that is inside would delete its own lock. -/
def Owned (s : Lease Client) : Prop :=
  ∀ c, (s.since c).isSome → ∃ expiry, s.lock = some (c, expiry)

/-- Whoever is inside has the lock it acquired. -/
def Held (ttl : Nat) (s : Lease Client) : Prop :=
  ∀ c t, s.since c = some t → s.lock = some (c, t + ttl)

variable {ttl : Nat} {s t : Lease Client} {event : LeaseEvent Client}

theorem Held.exclusive (held : Held ttl s) : s.Exclusive := by
  intro c c' inside inside'
  obtain ⟨t, at_t⟩ := Option.isSome_iff_exists.mp inside
  obtain ⟨t', at_t'⟩ := Option.isSome_iff_exists.mp inside'
  have same := Option.some.inj ((held c t at_t).symm.trans (held c' t' at_t'))
  exact congrArg Prod.fst same

theorem Held.owned (held : Held ttl s) : s.Owned := by
  intro c inside
  obtain ⟨t, at_t⟩ := Option.isSome_iff_exists.mp inside
  exact ⟨t + ttl, held c t at_t⟩

theorem held_of_outside (outside : ∀ c, s.since c = none) : Held ttl s := by
  intro c t at_t
  rw [outside c] at at_t
  cases at_t

variable [DecidableEq Client]

/-- Timely steps keep the lock with whoever is inside. -/
theorem Held.step (held : Held ttl s) (timely : s.Timely ttl event) (step : Step ttl s event t) :
    Held ttl t := by
  cases step with
  | acquire client outside free =>
      intro c at_ inside
      by_cases same : c = client
      · subst same
        obtain rfl : s.now = at_ := by simpa [Lease.acquire] using inside
        rfl
      · have before : s.since c = some at_ := by simpa [Lease.acquire, same] using inside
        cases free.symm.trans (held c at_ before)
  | release client inside =>
      intro c at_ later
      by_cases same : c = client
      · subst same
        simp [Lease.release] at later
      · have before : s.since c = some at_ := by simpa [Lease.release, same] using later
        have alone := held.exclusive c client (Option.isSome_iff_exists.mpr ⟨at_, before⟩) inside
        exact absurd alone same
  | tick elapsed =>
      intro c at_ inside
      have left : s.now + elapsed < at_ + ttl := timely c at_ inside
      simp [Lease.tick, held c at_ inside, left]

/-- The lock excludes when every step is timely. -/
theorem exclusive_of_timely {events : List (LeaseEvent Client)}
    (run : Run (Guarded (Timely ttl) (Step ttl)) s events t) (outside : ∀ c, s.since c = none) :
    t.Exclusive ∧ t.Owned := by
  have held : Held ttl t :=
    run.invariant (Held ttl) (fun _ _ _ held step => held.step step.1 step.2)
      (held_of_outside outside)
  exact ⟨held.exclusive, held.owned⟩

end Lease

end TenantLibrary.Lib

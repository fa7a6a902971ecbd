import Mathlib.Data.List.Basic
import Mathlib.Logic.Function.Basic
import Mathlib.Order.Nat

/-!
Redis counters with a lifetime.

A hit is the pipeline of `INCR` and `EXPIRE NX`: the first hit of a key gives it a
lifetime, the later ones keep it, and a key is gone when its lifetime has elapsed.
When the hits of a key fall into a window as long as the lifetime, the key is not gone
before its window is over, and each hit returns how many there were (`Counting.hit`).
What a hit returns does not depend on the hits of other keys (`Agree.hit`).
-/

namespace TenantLibrary.Lib

structure Counter where
  /-- unbounded here: 2^63 hits of one key would make Redis's 64-bit integer overflow -/
  count : Nat
  /-- when the key is gone, if it has a lifetime -/
  expiresAt : Option Nat
deriving DecidableEq, Repr

/-- The counters by key. -/
abbrev Counters (Key : Type*) := Key → Option Counter

namespace Counters

section Commands

variable {Key : Type*}

/-- The keys that are still there at a time. -/
def live (c : Counters Key) (now : Nat) : Counters Key :=
  fun key => (c key).filter fun counter => counter.expiresAt.all (now < ·)

theorem live_live {now later : Nat} {c : Counters Key} (order : now ≤ later) :
    (c.live now).live later = c.live later := by
  funext key
  unfold live
  cases c key with
  | none => rfl
  | some counter =>
      obtain ⟨count, expiresAt⟩ := counter
      cases expiresAt with
      | none => simp [Option.filter]
      | some expiry =>
          by_cases there : later < expiry
          · have before : now < expiry := by omega
            simp [Option.filter, there, before]
          · by_cases before : now < expiry <;> simp [Option.filter, there, before]

variable [DecidableEq Key]

/-- `INCR`: a missing key counts as 0, and a key keeps its lifetime. -/
def incr (c : Counters Key) (key : Key) : Nat × Counters Key :=
  let counter := (c key).getD ⟨0, none⟩
  (counter.count + 1, Function.update c key (some { counter with count := counter.count + 1 }))

/-- `EXPIRE NX` until a time: only a key without a lifetime gets one. -/
def expireNx (c : Counters Key) (key : Key) (expiry : Nat) : Counters Key :=
  Function.update c key ((c key).map fun counter =>
    { counter with expiresAt := counter.expiresAt.or (some expiry) })

/-- `INCR` and `EXPIRE NX`, executed as one unit at a time. -/
def hit (ttl : Nat) (c : Counters Key) (now : Nat) (key : Key) : Nat × Counters Key :=
  let (count, counted) := (c.live now).incr key
  (count, counted.expireNx key (now + ttl))

variable {ttl now expiry count : Nat} {c : Counters Key} {key other : Key}

/-- The first hit of a key. -/
theorem hit_of_none (gone : c.live now key = none) :
    c.hit ttl now key = (1, Function.update (c.live now) key (some ⟨1, some (now + ttl)⟩)) := by
  simp [hit, incr, gone, expireNx]

/-- A later hit of a key. -/
theorem hit_of_some (there : c.live now key = some ⟨count, some expiry⟩) :
    c.hit ttl now key =
      (count + 1, Function.update (c.live now) key (some ⟨count + 1, some expiry⟩)) := by
  simp [hit, incr, there, expireNx]

theorem hit_of_ne (different : other ≠ key) : (c.hit ttl now key).2 other = c.live now other := by
  simp [hit, incr, expireNx, different]

/-- A hit depends on the counter of its key alone. -/
theorem hit_congr {c' : Counters Key} (same : c.live now key = c'.live now key) :
    (c.hit ttl now key).1 = (c'.hit ttl now key).1 ∧
      (c.hit ttl now key).2 key = (c'.hit ttl now key).2 key := by
  simp [hit, incr, expireNx, same]

end Commands

/-! ### Hits -/

/-- A hit and what it returned. -/
structure Hit (Key : Type*) where
  key : Key
  at_ : Nat
  count : Nat

/-- The counters and the time. -/
structure Clocked (Key : Type*) where
  now : Nat
  counters : Counters Key

variable {Key : Type*} [DecidableEq Key]

/-- A hit at a time that is not past. -/
def Hits (ttl : Nat) (s : Clocked Key) (one : Hit Key) (t : Clocked Key) : Prop :=
  s.now ≤ one.at_ ∧ s.counters.hit ttl one.at_ one.key = (one.count, t.counters) ∧
    t.now = one.at_

/-- The hit falls into a window as long as the lifetime. -/
def Hit.InWindow (opens ttl : Nat) (one : Hit Key) : Prop :=
  opens ≤ one.at_ ∧ one.at_ < opens + ttl

/-- The counter of a key after `n` hits in its window: it counts them and outlives the
window, or it is gone and so is the window. -/
def Counting (opens ttl : Nat) (key : Key) (n : Nat) (s : Clocked Key) : Prop :=
  match n with
  | 0 => s.counters key = none
  | n + 1 =>
      (s.counters key = none ∧ opens + ttl ≤ s.now) ∨
        ∃ expiry, opens + ttl ≤ expiry ∧ s.counters key = some ⟨n + 1, some expiry⟩

variable {opens ttl n : Nat} {key : Key} {s t : Clocked Key} {one : Hit Key}

/-- A hit in the window returns the number of the hits so far. -/
theorem Counting.hit (counting : Counting opens ttl one.key n s)
    (inWindow : one.InWindow opens ttl) (hits : Hits ttl s one t) :
    one.count = n + 1 ∧ Counting opens ttl one.key (n + 1) t := by
  obtain ⟨later, returned, _⟩ := hits
  obtain ⟨opened, open_⟩ := inWindow
  cases n with
  | zero =>
      have counting : s.counters one.key = none := counting
      have gone : s.counters.live one.at_ one.key = none := by simp [live, counting]
      rw [hit_of_none gone] at returned
      obtain ⟨count, counters⟩ := Prod.mk.inj returned
      refine ⟨count.symm, .inr ⟨one.at_ + ttl, by omega, ?_⟩⟩
      rw [← counters, Function.update_self]
  | succ n =>
      rcases counting with ⟨_, past⟩ | ⟨expiry, outlives, counter⟩
      · omega
      · have alive : one.at_ < expiry := by omega
        have there : s.counters.live one.at_ one.key = some ⟨n + 1, some expiry⟩ := by
          simp [live, counter, Option.filter, alive]
        rw [hit_of_some there] at returned
        obtain ⟨count, counters⟩ := Prod.mk.inj returned
        refine ⟨count.symm, .inr ⟨expiry, outlives, ?_⟩⟩
        rw [← counters, Function.update_self]

/-- A hit of another key does not count. -/
theorem Counting.other (counting : Counting opens ttl key n s) (different : key ≠ one.key)
    (hits : Hits ttl s one t) : Counting opens ttl key n t := by
  obtain ⟨later, returned, clock⟩ := hits
  have untouched : t.counters key = s.counters.live one.at_ key := by
    rw [← hit_of_ne different, returned]
  cases n with
  | zero =>
      have counting : s.counters key = none := counting
      simp [Counting, untouched, live, counting]
  | succ n =>
      rcases counting with ⟨gone, past⟩ | ⟨expiry, outlives, counter⟩
      · exact .inl ⟨by simp [untouched, live, gone], by omega⟩
      · by_cases alive : one.at_ < expiry
        · exact .inr ⟨expiry, outlives, by simp [untouched, live, counter, Option.filter, alive]⟩
        · exact .inl ⟨by simp [untouched, live, counter, Option.filter, alive], by omega⟩

/-! ### Independence -/

/-- The counters of some of the keys are the same, now and later. -/
structure Agree (keys : Key → Prop) (s s' : Clocked Key) : Prop where
  order : s'.now ≤ s.now
  counters : ∀ key, keys key → ∀ later, s.now ≤ later →
    s.counters.live later key = s'.counters.live later key

omit [DecidableEq Key] in
theorem Agree.refl (keys : Key → Prop) (s : Clocked Key) : Agree keys s s :=
  ⟨le_rfl, fun _ _ _ _ => rfl⟩

variable {keys : Key → Prop} {s' : Clocked Key}

/-- A hit of one of the keys returns the same, and the counters stay the same. -/
theorem Agree.hit (agree : Agree keys s s') (isKey : keys one.key) (hits : Hits ttl s one t) :
    ∃ t', Hits ttl s' one t' ∧ Agree keys t t' := by
  obtain ⟨later, returned, clock⟩ := hits
  have same := agree.counters one.key isKey one.at_ later
  obtain ⟨count, counter⟩ := @hit_congr _ _ ttl _ _ _ _ same
  have returnedCount : (s.counters.hit ttl one.at_ one.key).1 = one.count :=
    congrArg Prod.fst returned
  have reached : (s.counters.hit ttl one.at_ one.key).2 = t.counters :=
    congrArg Prod.snd returned
  let after := (s'.counters.hit ttl one.at_ one.key).2
  refine ⟨⟨one.at_, after⟩, ⟨agree.order.trans later, ?_, rfl⟩, ⟨clock.ge, ?_⟩⟩
  · exact Prod.ext (count.symm.trans returnedCount) rfl
  · intro key isKey' time afterwards
    rw [clock] at afterwards
    have counters : t.counters key = after key := by
      rw [← reached]
      by_cases own : key = one.key
      · subst own
        exact counter
      · rw [hit_of_ne own, show after key = _ from hit_of_ne own]
        exact agree.counters key isKey' one.at_ later
    simp only [live, counters]

/-- A hit of another key changes none of them. -/
theorem Agree.other (agree : Agree keys s s') (isOther : ¬ keys one.key)
    (hits : Hits ttl s one t) : Agree keys t s' := by
  obtain ⟨later, returned, clock⟩ := hits
  refine ⟨agree.order.trans (later.trans clock.ge), fun key isKey time afterwards => ?_⟩
  rw [clock] at afterwards
  have different : key ≠ one.key := by
    rintro rfl
    exact isOther isKey
  have counters : t.counters key = s.counters.live one.at_ key := by
    rw [← hit_of_ne different, returned]
  have agreed := agree.counters key isKey time (later.trans afterwards)
  have stillThere := congrFun (@live_live _ _ _ s.counters afterwards) key
  rw [← agreed, ← stillThere]
  simp only [live, counters]

end Counters

end TenantLibrary.Lib

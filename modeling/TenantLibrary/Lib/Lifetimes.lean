import TenantLibrary.Lib.Counters

/-!
Counters over many lifetimes.

When the hits of a key do not all fall into one window, its counter can be gone and start
again. Two things still hold. Of the hits that fall into `k` windows, at most `cap` in each
lifetime return a count of at most `cap`, and there are at most `k` lifetimes (`Spent`). And
the count a hit returns is at most the number of the key's hits in the last lifetime's span,
its own included (`Backed`).
-/

namespace TenantLibrary.Lib.Counters

variable {Key : Type*} [DecidableEq Key]

/-! ### What the lifetimes let pass -/

/-- So many of a key's hits returned a count of at most `cap`: at most `cap` for each lifetime
that is over, and no more than the counter says for the one that is not. The lifetimes begin
in the `k` windows from `opens` on. -/
inductive Spent (opens ttl k cap : Nat) (key : Key) (passes : Nat) (s : Clocked Key) : Prop where
  | gone (past : Nat) (counter : s.counters key = none)
      (ended : past = 0 ∨ opens + past * ttl ≤ s.now) (inside : past ≤ k)
      (bound : passes ≤ past * cap)
  | alive (past count expiry : Nat) (counter : s.counters key = some ⟨count, some expiry⟩)
      (outlives : opens + (past + 1) * ttl ≤ expiry) (inside : past + 1 ≤ k)
      (bound : passes ≤ past * cap + min count cap)

variable {opens ttl k cap passes : Nat} {key : Key} {s t : Clocked Key} {one : Hit Key}

omit [DecidableEq Key] in
theorem Spent.le (spent : Spent opens ttl k cap key passes s) : passes ≤ k * cap := by
  cases spent with
  | gone past _ _ inside bound => exact bound.trans (Nat.mul_le_mul_right cap inside)
  | alive past count expiry _ _ inside bound =>
      calc passes ≤ past * cap + min count cap := bound
        _ ≤ (past + 1) * cap := by rw [Nat.succ_mul]; omega
        _ ≤ k * cap := Nat.mul_le_mul_right cap inside

omit [DecidableEq Key] in
theorem Spent.mono {fewer : Nat} (spent : Spent opens ttl k cap key passes s)
    (less : fewer ≤ passes) : Spent opens ttl k cap key fewer s := by
  cases spent with
  | gone past counter ended inside bound => exact .gone past counter ended inside (less.trans bound)
  | alive past count expiry counter outlives inside bound =>
      exact .alive past count expiry counter outlives inside (less.trans bound)

/-- A lifetime that begins after `past` others, in one of the windows. -/
theorem window_of_birth {past time : Nat} (opened : opens ≤ time) (closes : time < opens + k * ttl)
    (ended : past = 0 ∨ opens + past * ttl ≤ time) :
    past + 1 ≤ k ∧ opens + (past + 1) * ttl ≤ time + ttl := by
  have later : opens + past * ttl ≤ time := by
    rcases ended with rfl | ended
    · simpa using opened
    · exact ended
  refine ⟨?_, by rw [Nat.succ_mul]; omega⟩
  by_contra beyond
  have := Nat.mul_le_mul_right ttl (show k ≤ past by omega)
  omega

/-- A hit of the key in one of the windows. -/
theorem Spent.hit (spent : Spent opens ttl k cap one.key passes s) (opened : opens ≤ one.at_)
    (closes : one.at_ < opens + k * ttl) (hits : Hits ttl s one t) :
    Spent opens ttl k cap one.key (passes + if one.count ≤ cap then 1 else 0) t := by
  obtain ⟨later, returned, clock⟩ := hits
  -- a lifetime begins: the counter counts this hit alone
  have born (past : Nat) (gone : s.counters.live one.at_ one.key = none)
      (ended : past = 0 ∨ opens + past * ttl ≤ one.at_) (bound : passes ≤ past * cap) :
      Spent opens ttl k cap one.key (passes + if one.count ≤ cap then 1 else 0) t := by
    rw [hit_of_none gone] at returned
    obtain ⟨count, counters⟩ := Prod.mk.inj returned
    obtain ⟨inside, outlives⟩ := window_of_birth opened closes ended
    refine .alive past 1 (one.at_ + ttl) ?_ outlives inside ?_
    · rw [← counters, Function.update_self]
    · rw [← count]
      split <;> omega
  cases spent with
  | gone past counter ended inside bound =>
      refine born past (by simp [live, counter]) ?_ bound
      exact ended.imp id fun ended => ended.trans later
  | alive past count expiry counter outlives inside bound =>
      by_cases there : one.at_ < expiry
      · have live_ : s.counters.live one.at_ one.key = some ⟨count, some expiry⟩ := by
          simp [live, counter, Option.filter, there]
        rw [hit_of_some live_] at returned
        obtain ⟨counted, counters⟩ := Prod.mk.inj returned
        refine .alive past (count + 1) expiry ?_ outlives inside ?_
        · rw [← counters, Function.update_self]
        · rw [← counted]
          split <;> omega
      · refine born (past + 1) ?_ (.inr (by omega)) ?_
        · simp [live, counter, Option.filter, there]
        · rw [Nat.succ_mul]
          omega

/-- A hit of another key. -/
theorem Spent.other (spent : Spent opens ttl k cap key passes s) (different : key ≠ one.key)
    (hits : Hits ttl s one t) : Spent opens ttl k cap key passes t := by
  obtain ⟨later, returned, clock⟩ := hits
  have untouched : t.counters key = s.counters.live one.at_ key := by
    rw [← hit_of_ne different, returned]
  cases spent with
  | gone past counter ended inside bound =>
      refine .gone past (by simp [untouched, live, counter]) ?_ inside bound
      exact ended.imp id fun ended => by omega
  | alive past count expiry counter outlives inside bound =>
      by_cases there : one.at_ < expiry
      · refine .alive past count expiry ?_ outlives inside bound
        simp [untouched, live, counter, Option.filter, there]
      · refine .gone (past + 1) ?_ (.inr (by omega)) inside (by rw [Nat.succ_mul]; omega)
        simp [untouched, live, counter, Option.filter, there]

/-! ### What a count stands for -/

/-- The hits of a key, by key and time, that a lifetime lasts from until after a time. -/
def recent (ttl : Nat) (key : Key) (time : Nat) (hits : List (Key × Nat)) : List (Key × Nat) :=
  hits.filter fun hit => hit.1 = key ∧ time < hit.2 + ttl

/-- The counter of a key counts hits of its lifetime. -/
def Backed (ttl : Nat) (key : Key) (hits : List (Key × Nat)) (s : Clocked Key) : Prop :=
  ∀ counter, s.counters key = some counter → ∃ expiry, counter.expiresAt = some expiry ∧
    expiry ≤ s.now + ttl ∧
    counter.count ≤ (hits.filter fun hit => hit.1 = key ∧ expiry ≤ hit.2 + ttl).length

variable {hits : List (Key × Nat)}

theorem Backed.hit (backed : Backed ttl one.key hits s) (step : Hits ttl s one t) :
    Backed ttl one.key (hits ++ [(one.key, one.at_)]) t := by
  obtain ⟨later, returned, clock⟩ := step
  intro counter isCounter
  by_cases there : ∃ count expiry, s.counters one.key = some ⟨count, some expiry⟩ ∧ one.at_ < expiry
  · obtain ⟨count, expiry, old, alive⟩ := there
    have live_ : s.counters.live one.at_ one.key = some ⟨count, some expiry⟩ := by
      simp [live, old, Option.filter, alive]
    rw [hit_of_some live_] at returned
    obtain ⟨-, counters⟩ := Prod.mk.inj returned
    rw [← counters, Function.update_self] at isCounter
    cases isCounter
    obtain ⟨_, same, within, counts⟩ := backed _ old
    cases same
    have spans : expiry ≤ one.at_ + ttl := by omega
    refine ⟨expiry, rfl, by omega, ?_⟩
    simp only [List.filter_append, List.length_append]
    simpa [spans] using counts
  · have gone : s.counters.live one.at_ one.key = none := by
      unfold live
      cases old : s.counters one.key with
      | none => rfl
      | some counter =>
          obtain ⟨expiry, same, -⟩ := backed _ old
          obtain ⟨count, expiresAt⟩ := counter
          cases same
          have elapsed : ¬ one.at_ < expiry := fun alive => there ⟨count, expiry, old, alive⟩
          simp [Option.filter, elapsed]
    rw [hit_of_none gone] at returned
    obtain ⟨-, counters⟩ := Prod.mk.inj returned
    rw [← counters, Function.update_self] at isCounter
    cases isCounter
    refine ⟨one.at_ + ttl, rfl, by omega, ?_⟩
    simp [List.filter_append]

theorem Backed.other (backed : Backed ttl key hits s) (different : key ≠ one.key)
    (step : Hits ttl s one t) : Backed ttl key (hits ++ [(one.key, one.at_)]) t := by
  obtain ⟨later, returned, clock⟩ := step
  have untouched : t.counters key = s.counters.live one.at_ key := by
    rw [← hit_of_ne different, returned]
  intro counter isCounter
  rw [untouched] at isCounter
  have old : s.counters key = some counter := by
    unfold live at isCounter
    obtain ⟨old, -⟩ := Option.filter_eq_some_iff.mp isCounter
    exact old
  obtain ⟨expiry, same, within, counts⟩ := backed _ old
  refine ⟨expiry, same, by omega, ?_⟩
  simpa [List.filter_append, Ne.symm different] using counts

/-- A hit returns at most the number of the key's hits in the lifetime before it, and one for
itself. -/
theorem Backed.count_le (backed : Backed ttl one.key hits s) (step : Hits ttl s one t) :
    one.count ≤ (recent ttl one.key one.at_ hits).length + 1 := by
  obtain ⟨later, returned, clock⟩ := step
  cases there : s.counters.live one.at_ one.key with
  | none =>
      rw [hit_of_none there] at returned
      have := (Prod.mk.inj returned).1
      omega
  | some counter =>
      obtain ⟨old, alive⟩ := Option.filter_eq_some_iff.mp there
      obtain ⟨expiry, same, -, counts⟩ := backed _ old
      obtain ⟨count, expiresAt⟩ := counter
      cases same
      have alive : one.at_ < expiry := by simpa using alive
      rw [hit_of_some there] at returned
      have counted := (Prod.mk.inj returned).1
      have fewer : (hits.filter fun hit => hit.1 = one.key ∧ expiry ≤ hit.2 + ttl).length ≤
          (recent ttl one.key one.at_ hits).length := by
        refine (List.monotone_filter_right hits fun hit both => ?_).length_le
        simp only [decide_eq_true_eq] at both ⊢
        exact ⟨both.1, alive.trans_le both.2⟩
      dsimp only at counts
      omega

end TenantLibrary.Lib.Counters

import Mathlib.Data.Finset.Basic
import Mathlib.Logic.Function.Basic

/-!
The Redis commands on lists, sets and plain strings that a client library sends
one at a time. A missing key is an empty list, an empty set or no string, which
is how Redis itself treats a key whose last element is removed. Keys of the three
types are kept apart; no client modelled over this library uses one key at two
types, so the `WRONGTYPE` error never arises.
-/

namespace TenantLibrary.Lib

/-- The keyspace. -/
structure Redis where
  lists : String → List String
  sets : String → Finset String
  strings : String → Option String

namespace Redis

/-- A database with no keys. -/
def empty : Redis := ⟨fun _ => [], fun _ => ∅, fun _ => none⟩

def rpush (r : Redis) (key value : String) : Redis :=
  { r with lists := Function.update r.lists key (r.lists key ++ [value]) }

/-- `LPOP`: the head of the list, or nil, and the list without it. -/
def lpop (r : Redis) (key : String) : Option String × Redis :=
  match r.lists key with
  | [] => (none, r)
  | value :: rest => (some value, { r with lists := Function.update r.lists key rest })

def llen (r : Redis) (key : String) : Nat := (r.lists key).length

def sadd (r : Redis) (key member : String) : Redis :=
  { r with sets := Function.update r.sets key (insert member (r.sets key)) }

def srem (r : Redis) (key member : String) : Redis :=
  { r with sets := Function.update r.sets key ((r.sets key).erase member) }

def smembers (r : Redis) (key : String) : Finset String := r.sets key

/-- `SET key value NX`: whether the key was free, and the database afterwards. -/
def setNx (r : Redis) (key value : String) : Bool × Redis :=
  match r.strings key with
  | some _ => (false, r)
  | none => (true, { r with strings := Function.update r.strings key (some value) })

/-- `DEL` of a string key; also what the expiry of the key does. -/
def del (r : Redis) (key : String) : Redis :=
  { r with strings := Function.update r.strings key none }

variable (r : Redis) (key value : String)

@[simp] theorem rpush_lists :
    (r.rpush key value).lists = Function.update r.lists key (r.lists key ++ [value]) := rfl
@[simp] theorem rpush_sets : (r.rpush key value).sets = r.sets := rfl
@[simp] theorem sadd_lists : (r.sadd key value).lists = r.lists := rfl
@[simp] theorem sadd_sets :
    (r.sadd key value).sets = Function.update r.sets key (insert value (r.sets key)) := rfl
@[simp] theorem srem_lists : (r.srem key value).lists = r.lists := rfl
@[simp] theorem srem_sets :
    (r.srem key value).sets = Function.update r.sets key ((r.sets key).erase value) := rfl
@[simp] theorem del_lists : (r.del key).lists = r.lists := rfl
@[simp] theorem del_sets : (r.del key).sets = r.sets := rfl

@[simp] theorem setNx_lists : (r.setNx key value).2.lists = r.lists := by
  unfold setNx; split <;> rfl
@[simp] theorem setNx_sets : (r.setNx key value).2.sets = r.sets := by
  unfold setNx; split <;> rfl

/-- `SET NX` changes neither lists nor sets. -/
theorem same_of_setNx {r r' : Redis} {key value : String} {set_ : Bool}
    (returned : r.setNx key value = (set_, r')) : r'.lists = r.lists ∧ r'.sets = r.sets := by
  have lists := setNx_lists r key value
  have sets := setNx_sets r key value
  rw [returned] at lists sets
  exact ⟨lists, sets⟩

theorem lpop_nil (empty : r.lists key = []) : r.lpop key = (none, r) := by
  simp [lpop, empty]

theorem lpop_cons {rest : List String} (nonempty : r.lists key = value :: rest) :
    r.lpop key = (some value, { r with lists := Function.update r.lists key rest }) := by
  simp [lpop, nonempty]

end Redis

end TenantLibrary.Lib

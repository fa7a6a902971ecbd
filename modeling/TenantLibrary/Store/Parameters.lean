import Mathlib.Algebra.Ring.Int.Defs
import TenantLibrary.Store.Schema

/-!
The values bound into statements.

A value is sent with the type of its column, or of the expression it stands in, and the
database refuses what the type cannot represent. From a text for a column it may still cut
spaces. A stored row of a reading list has only values that fit.
-/

namespace TenantLibrary.Store

open TenantLibrary.Lib

/-- A value with the type it is bound as. -/
inductive Parameter where
  | varchar (n : Nat) (value : String)
  | text (value : String)
  | integer (number : Int)
  | bigint (number : Int)
deriving DecidableEq, Repr

/-- An integer of `bits` bits, one of them for the sign. -/
def fitsBits (bits : Nat) (number : Int) : Bool :=
  -2 ^ (bits - 1) ≤ number && number < 2 ^ (bits - 1)

/-- The type represents the value. -/
def Parameter.fits : Parameter → Bool
  | .varchar n value => fitsColumn n value
  | .text value => noNul value
  | .integer number => fitsBits 32 number
  | .bigint number => fitsBits 64 number

/-- The error for a value its type cannot represent. -/
def refusedParameter : DbError := .dataError "invalid input for query argument"

/-- A query that binds values, beside identifiers. One that does not fit has it refused. -/
def selectBinding {α ε : Type} (parameters : List Parameter) (query : Database → α) :
    SessionM Database Write DbError ε α := do
  let result ← SessionM.select (Write.send Refusal.never) query
  if parameters.all Parameter.fits then return result
  else throw (.database refusedParameter)

/-- What an `INSERT` of a reading list binds, beside identifiers. -/
def ReadingList.parameters (list : ReadingList) : List Parameter :=
  [.varchar 128 list.patronNameHash, .varchar 128 list.emailHash,
    .varchar 255 list.patronNameMasked, .varchar 255 list.emailMasked]

/-- What an `INSERT` of an item binds; a missing value is `NULL`. -/
def ReadingListItem.parameters (item : ReadingListItem) : List Parameter :=
  item.olWorkKey.toList.map (.varchar 50) ++ item.isbn.toList.map (.varchar 20)

theorem fits_text_iff {text : String} : (Parameter.text text).fits ↔ noNul text := Iff.rfl

/-- A text that a column takes is a text. -/
theorem fits_text_of_fitsColumn {n : Nat} {text : String} (fits : fitsColumn n text) :
    (Parameter.text text).fits :=
  noNul_iff.mpr (fitsColumn_iff.mp fits).2

theorem fitsBits_natCast {bits number : Nat} :
    fitsBits (bits + 1) number ↔ number < 2 ^ bits := by
  have lower : -(2 : Int) ^ bits ≤ number := by
    have positive : (0 : Int) < 2 ^ bits := Int.pow_pos (by omega)
    omega
  simp only [fitsBits, Nat.add_sub_cancel, Bool.and_eq_true, decide_eq_true_eq, lower, true_and]
  exact_mod_cast Iff.rfl

/-- On a fresh session a query returns when what it binds fits. -/
theorem runOn_selectBinding {α ε : Type} (parameters : List Parameter) (query : Database → α)
    (db : Database) :
    SessionM.runOn (selectBinding parameters query : SessionM Database Write DbError ε α)
        (.opened db) =
      (if parameters.all Parameter.fits then .ok (query db)
        else .error (.database refusedParameter), .opened db) := by
  unfold selectBinding
  split <;> rfl

theorem forM_requireFits_eq_ok {n : Nat} {text : Option String} :
    text.forM (requireFits n) = .ok () ↔ text.all (fitsColumn n) := by
  cases text with
  | none => exact iff_of_true rfl rfl
  | some text => exact requireFits_eq_ok

/-- Of two checks in a row both pass. -/
theorem bind_requireFits {first second : Except DbError Unit} :
    (first >>= fun _ => second) = .ok () ↔ first = .ok () ∧ second = .ok () := by
  cases first <;> simp [bind, Except.bind]

theorem ReadingList.fits_parameters {list : ReadingList} :
    (∀ parameter ∈ list.parameters, parameter.fits) ↔
      (fitsColumn 128 list.patronNameHash ∧ fitsColumn 128 list.emailHash) ∧
        fitsColumn 255 list.patronNameMasked ∧ fitsColumn 255 list.emailMasked := by
  simp [parameters, Parameter.fits, and_assoc]

/-- A list is stored only when its parameters fit. -/
theorem ReadingList.requireFits_eq_ok {list : ReadingList} :
    list.requireFits = .ok () ↔ ∀ parameter ∈ list.parameters, parameter.fits := by
  rw [fits_parameters, and_assoc]
  simp only [requireFits, bind_requireFits, Store.requireFits_eq_ok]

/-- A list that fits is stored as it is. -/
theorem ReadingList.cut_of_fits {list : ReadingList}
    (fits : ∀ parameter ∈ list.parameters, parameter.fits) : list.cut = list := by
  obtain ⟨_, name, email⟩ := fits_parameters.mp fits
  unfold ReadingList.cut
  rw [Store.cut_of_fits name, Store.cut_of_fits email]

theorem ReadingListItem.fits_parameters {item : ReadingListItem} :
    (∀ parameter ∈ item.parameters, parameter.fits) ↔
      item.olWorkKey.all (fitsColumn 50) ∧ item.isbn.all (fitsColumn 20) := by
  have column (n : Nat) (text : Option String) :
      (∀ parameter ∈ text.toList.map (Parameter.varchar n), parameter.fits) ↔
        text.all (fitsColumn n) := by
    cases text <;> simp [Parameter.fits]
  rw [parameters, List.forall_mem_append, column, column]

theorem ReadingListItem.requireFits_eq_ok {item : ReadingListItem} :
    item.requireFits = .ok () ↔ ∀ parameter ∈ item.parameters, parameter.fits := by
  rw [fits_parameters, requireFits, bind_requireFits, forM_requireFits_eq_ok,
    forM_requireFits_eq_ok]

theorem ReadingListItem.cut_of_fits {item : ReadingListItem}
    (fits : ∀ parameter ∈ item.parameters, parameter.fits) : item.cut = item := by
  have column {n : Nat} {text : Option String} (fits : text.all (fitsColumn n)) :
      text.map (Store.cut n) = text := by
    cases text with
    | none => rfl
    | some text => exact congrArg some (Store.cut_of_fits (by simpa using fits))
  obtain ⟨key, isbn⟩ := fits_parameters.mp fits
  unfold ReadingListItem.cut
  rw [column key, column isbn]

end TenantLibrary.Store

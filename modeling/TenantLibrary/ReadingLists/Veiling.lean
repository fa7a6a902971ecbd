import TenantLibrary.Lib.Share
import TenantLibrary.ReadingLists.Submitting
import TenantLibrary.Store.Parameters

/-!
Reading lists without the hashes of their patrons.

A veiled list has no hash of its patron's name, and a name of its tenant's choosing in place
of the hash of the email. The statements do on the veiled lists what they do on the lists:
which hash is stored matters only where two of them are compared.
-/

namespace TenantLibrary.ReadingLists

open TenantLibrary.Lib TenantLibrary.Store

/-- What each tenant calls the email hashes of its patrons. -/
abbrev Pseudonyms := Uuid → Equiv.Perm String

variable (names : Pseudonyms)

/-! ### Rows -/

def veilList (list : ReadingList) : ReadingList :=
  { list with
    patronNameHash := ""
    emailHash := names list.tenantId list.emailHash }

/-- The hashes of a list, and the name of one of them, fit their columns. -/
structure HashesFit (list : ReadingList) : Prop where
  patronName : fitsColumn 128 list.patronNameHash
  email : fitsColumn 128 list.emailHash
  pseudonym : fitsColumn 128 (names list.tenantId list.emailHash)

/-- A list as the table stores it, whose hash has a name that fits. -/
structure StoredList (list : ReadingList) : Prop where
  fits : list.requireFits = .ok ()
  pseudonym : fitsColumn 128 (names list.tenantId list.emailHash)

variable {names}

theorem clash_veilList (a b : ReadingList) :
    (veilList names a).Clash (veilList names b) ↔ a.Clash b := by
  constructor
  · rintro (id | ⟨tenant, hash⟩)
    · exact .inl id
    · refine .inr ⟨tenant, ?_⟩
      have same : names a.tenantId a.emailHash = names b.tenantId b.emailHash := hash
      rw [show a.tenantId = b.tenantId from tenant] at same
      exact (names b.tenantId).injective same
  · rintro (id | ⟨tenant, hash⟩)
    · exact .inl id
    · refine .inr ⟨tenant, ?_⟩
      change names a.tenantId a.emailHash = names b.tenantId b.emailHash
      rw [tenant, hash]

theorem fits_iff {list : ReadingList} : list.requireFits = .ok () ↔
    (fitsColumn 128 list.patronNameHash ∧ fitsColumn 128 list.emailHash) ∧
      fitsColumn 255 list.patronNameMasked ∧ fitsColumn 255 list.emailMasked :=
  ReadingList.requireFits_eq_ok.trans ReadingList.fits_parameters

theorem StoredList.hashesFit {list : ReadingList} (stored : StoredList names list) :
    HashesFit names list := by
  obtain ⟨⟨patronName, email⟩, _⟩ := fits_iff.mp stored.fits
  exact ⟨patronName, email, stored.pseudonym⟩

/-- The veil leaves the texts that may not fit, and those that may be cut. -/
theorem requireFits_veilList {list : ReadingList} (fit : HashesFit names list) :
    (veilList names list).requireFits = list.requireFits := by
  have nothing : fitsColumn 128 (veilList names list).patronNameHash :=
    show fitsColumn 128 "" by decide
  have pseudonym : fitsColumn 128 (veilList names list).emailHash := fit.pseudonym
  simp only [ReadingList.requireFits, requireFits_eq_ok.mpr fit.patronName,
    requireFits_eq_ok.mpr fit.email, requireFits_eq_ok.mpr nothing, requireFits_eq_ok.mpr pseudonym]
  rfl

theorem veilList_cut (list : ReadingList) : (veilList names list).cut = veilList names list.cut :=
  rfl

/-- A stored list stays storable with the name of another that fits. -/
theorem StoredList.replaceList {list row : ReadingList} (stored : StoredList names row)
    (fits : list.requireFits = .ok ()) : StoredList names (replaceList list row) := by
  refine ⟨?_, ?_⟩
  · unfold Store.replaceList
    split
    · obtain ⟨⟨_, email⟩, _, emailMasked⟩ := fits_iff.mp stored.fits
      obtain ⟨⟨patronName, _⟩, nameMasked, _⟩ := fits_iff.mp fits
      exact fits_iff.mpr ⟨⟨patronName, email⟩, nameMasked, emailMasked⟩
    · exact stored.fits
  · rw [replaceList_tenantId, replaceList_emailHash]
    exact stored.pseudonym

theorem replaceList_veilList (list row : ReadingList) :
    replaceList (veilList names list) (veilList names row) =
      veilList names (replaceList list row) := by
  by_cases same : row.id = list.id
  · simp [replaceList, veilList, same]
  · simp [replaceList, veilList, same]

/-! ### Tables and statements -/

variable (names)

def veil (db : Database) : Database :=
  { db with
    readingLists := db.readingLists.modify (veilList names) fun a b => (clash_veilList a b).mp }

def veilWrite : Write → Write
  | .insertReadingList list => .insertReadingList (veilList names list)
  | .updateReadingList list => .updateReadingList (veilList names list)
  | write => write

/-- The lists a statement writes have hashes that fit. -/
def WritesFit : Write → Prop
  | .insertReadingList list => HashesFit names list
  | .updateReadingList list => HashesFit names list
  | _ => True

/-- The veil as a view of the whole database. -/
def veiled : Share Database Write where
  view := veil names
  translate := veilWrite names
  Inv db := ∀ list ∈ db.readingLists.rows, StoredList names list
  Owns := WritesFit names

/-- A statement on other tables. -/
theorem seen_of_others {refuse : Refusal} {db : Database} (write : Write)
    (same : veilWrite names write = write)
    (acts : write.send refuse (veil names db) = (write.send refuse db).map (veil names))
    (lists : ∀ after, write.send refuse db = .ok after → after.readingLists = db.readingLists)
    (stored : ∀ list ∈ db.readingLists.rows, StoredList names list) :
    (veilWrite names write).send refuse (veil names db) = (write.send refuse db).map (veil names) ∧
      ∀ after, write.send refuse db = .ok after →
        ∀ list ∈ after.readingLists.rows, StoredList names list := by
  rw [same]
  refine ⟨acts, ?_⟩
  intro after sent list mem
  rw [lists after sent] at mem
  exact stored list mem

/-- Inserting a veiled list inserts the list under the veil. -/
theorem insertReadingList_veil {list : ReadingList} (fit : HashesFit names list) (refuse : Refusal)
    (db : Database) :
    (Write.insertReadingList (veilList names list)).send refuse (veil names db) =
      ((Write.insertReadingList list).send refuse db).map (veil names) := by
  have fit : HashesFit names list.cut := ⟨fit.patronName, fit.email, fit.pseudonym⟩
  simp only [Write.send, veilList_cut, requireFits_veilList fit, veil,
    Table.insert_modify clash_veilList]
  cases list.cut.requireFits with
  | error e => rfl
  | ok _ => cases db.readingLists.insert list.cut <;> rfl

theorem updateReadingList_veil {list : ReadingList} (fit : HashesFit names list) (refuse : Refusal)
    (db : Database) :
    (Write.updateReadingList (veilList names list)).send refuse (veil names db) =
      ((Write.updateReadingList list).send refuse db).map (veil names) := by
  have fit : HashesFit names list.cut := ⟨fit.patronName, fit.email, fit.pseudonym⟩
  simp only [Write.send, veilList_cut, requireFits_veilList fit]
  cases list.cut.requireFits with
  | error e => rfl
  | ok _ =>
      apply congrArg Except.ok
      simp only [veil]
      congr 1
      exact Table.modify_modify (replaceList_veilList list.cut)

theorem insertReadingListItem_veil (item : ReadingListItem) (refuse : Refusal) (db : Database) :
    (Write.insertReadingListItem item).send refuse (veil names db) =
      ((Write.insertReadingListItem item).send refuse db).map (veil names) := by
  have refers : item.refersTo (veil names db) = item.refersTo db := by
    simp only [ReadingListItem.refersTo, veil, Table.rows_modify, List.any_map]
    rfl
  simp only [Write.send, refers]
  cases item.cut.requireFits with
  | error e => rfl
  | ok _ =>
      by_cases there : item.refersTo db
      · simp only [there, if_true, veil]
        cases db.readingListItems.insert item.cut <;> rfl
      · simp only [there]
        rfl

/-- The store does the same under the veil. -/
theorem veils (refuse : Refusal) :
    (veiled names).Sends (Write.send refuse) (Write.send refuse) := by
  intro write db fit stored
  cases write with
  | catalog write =>
      refine seen_of_others names (.catalog write) rfl ?_ ?_ stored
      · simp only [Write.send, veil]
        cases write.send refuse db.catalog <;> rfl
      · intro after sent
        obtain ⟨catalog, _, made⟩ := bind_eq_ok.mp sent
        obtain rfl := Except.ok.inj made
        rfl
  | insertJob job =>
      refine seen_of_others names (.insertJob job) rfl ?_ ?_ stored
      · simp only [Write.send, veil]
        cases requireFits 500 job.queryValue with
        | error e => rfl
        | ok _ => cases db.jobs.insert job <;> rfl
      · intro after sent
        obtain ⟨_, _, sent⟩ := bind_eq_ok.mp sent
        obtain ⟨jobs, _, made⟩ := bind_eq_ok.mp sent
        obtain rfl := Except.ok.inj made
        rfl
  | updateJob job =>
      refine seen_of_others names (.updateJob job) rfl rfl ?_ stored
      intro after sent
      obtain rfl := Except.ok.inj sent
      rfl
  | insertLog log =>
      refine seen_of_others names (.insertLog log) rfl ?_ ?_ stored
      · simp only [Write.send, veil]
        cases db.logs.insert log <;> rfl
      · intro after sent
        obtain ⟨logs, _, made⟩ := bind_eq_ok.mp sent
        obtain rfl := Except.ok.inj made
        rfl
  | updateLog log =>
      refine seen_of_others names (.updateLog log) rfl rfl ?_ stored
      intro after sent
      obtain rfl := Except.ok.inj sent
      rfl
  | insertReadingList list =>
      have fit : HashesFit names list := fit
      refine ⟨insertReadingList_veil names fit refuse db, ?_⟩
      intro after sent row mem
      obtain ⟨fits, lists, inserted, rfl⟩ := insertReadingList_eq_ok.mp sent
      rcases Table.mem_insert inserted mem with old | rfl
      · exact stored row old
      · exact ⟨fits, fit.pseudonym⟩
  | updateReadingList list =>
      have fit : HashesFit names list := fit
      refine ⟨updateReadingList_veil names fit refuse db, ?_⟩
      intro after sent row mem
      obtain ⟨fits, rfl⟩ := updateReadingList_eq_ok.mp sent
      obtain ⟨old, oldMem, rfl⟩ := List.mem_map.mp mem
      exact (stored old oldMem).replaceList fits
  | deleteReadingListItems readingListId =>
      refine seen_of_others names (.deleteReadingListItems readingListId) rfl rfl ?_ stored
      intro after sent
      obtain rfl := Except.ok.inj sent
      rfl
  | insertReadingListItem item =>
      refine seen_of_others names (.insertReadingListItem item) rfl
        (insertReadingListItem_veil names item refuse db) ?_ stored
      intro after sent
      obtain ⟨_, _, items, _, rfl⟩ := insertReadingListItem_eq_ok.mp sent
      rfl

end TenantLibrary.ReadingLists

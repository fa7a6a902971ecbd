import Mathlib.Algebra.GroupWithZero.Nat
import Mathlib.Algebra.Order.BigOperators.Group.List
import TenantLibrary.ReadingLists.Masking
import TenantLibrary.Store.Parameters

/-!
What masking does to the length of a text.

The mask of a name is no longer than the name. The mask of an email is as long as the
email, but for a local part or a first label of one character, which gain a `*`. Masks
keep some of the characters of a text, and may so keep a NUL.
-/

namespace TenantLibrary.ReadingLists

open TenantLibrary.Lib TenantLibrary.Store

/-! ### Names -/

theorem length_maskWord (word : List Char) : (maskWord word).length = word.length := by
  cases word with
  | nil => rfl
  | cons first rest => simp [maskWord]

/-- Pieces joined by one character each. -/
theorem length_intercalate {separator : Char} {pieces : List (List Char)}
    (nonempty : pieces ≠ []) :
    (List.intercalate [separator] pieces).length + 1 = (pieces.map (·.length + 1)).sum := by
  induction pieces with
  | nil => exact absurd rfl nonempty
  | cons piece rest ih =>
      cases rest with
      | nil => simp
      | cons next rest =>
          have later := ih (List.cons_ne_nil _ _)
          rw [List.intercalate_cons_cons, List.map_cons, List.sum_cons, ← later]
          simp only [List.length_append, List.length_singleton]
          omega

/-- The pieces of a split, each with the separator after it. -/
theorem length_splitOnP (p : Char → Bool) (text : List Char) :
    ((text.splitOnP p).map (·.length + 1)).sum = text.length + 1 := by
  induction text with
  | nil => rfl
  | cons c text ih =>
      rw [List.splitOnP_cons_eq_if_modifyHead]
      split
      case isTrue =>
        rw [List.map_cons, List.sum_cons, ih]
        simp only [List.length_nil, List.length_cons]
        omega
      case isFalse =>
        cases found : text.splitOnP p with
        | nil => exact absurd found (List.splitOnP_ne_nil p text)
        | cons piece rest =>
            rw [found, List.map_cons, List.sum_cons] at ih
            rw [List.modifyHead_cons, List.map_cons, List.sum_cons, List.length_cons,
              List.length_cons]
            omega

/-- The mask of a name is no longer than the name. -/
theorem length_maskName_le (name : String) :
    (maskName name).toList.length ≤ name.toList.length := by
  rw [maskName, String.toList_ofList]
  by_cases none : (words name.toList).map maskWord = []
  · simp [none]
  · have joined : (List.intercalate [' '] ((words name.toList).map maskWord)).length + 1 = _ :=
      length_intercalate none
    have same : ((words name.toList).map maskWord).map (·.length + 1) =
        (words name.toList).map (·.length + 1) := by
      simp [length_maskWord]
    have fewer : ((words name.toList).map (·.length + 1)).sum ≤
        ((name.toList.splitOnP isSpace).map (·.length + 1)).sum :=
      (List.filter_sublist.map _).sum_le_sum fun _ _ => Nat.zero_le _
    rw [same] at joined
    rw [length_splitOnP] at fewer
    omega

/-- Joined pieces have the characters of the pieces, and the separator. -/
theorem mem_intercalate {c separator : Char} (other : c ≠ separator)
    {pieces : List (List Char)} :
    c ∈ List.intercalate [separator] pieces ↔ ∃ piece ∈ pieces, c ∈ piece := by
  induction pieces with
  | nil => simp [List.intercalate]
  | cons piece rest ih =>
      cases rest with
      | nil => simp
      | cons next rest =>
          rw [List.intercalate_cons_cons, List.mem_append, List.mem_append, ih]
          simp [other]

theorem mem_maskWord {c : Char} (shown : c ≠ '*') {word : List Char} :
    c ∈ maskWord word ↔ word.head? = some c := by
  cases word with
  | nil => simp [maskWord]
  | cons first rest => simp [maskWord, shown, eq_comm]

/-- The mask of a name shows the first characters of its words. -/
theorem mem_maskName {c : Char} (shown : c ≠ '*') (other : c ≠ ' ') {name : String} :
    c ∈ (maskName name).toList ↔ ∃ word ∈ words name.toList, word.head? = some c := by
  rw [maskName, String.toList_ofList, mem_intercalate other]
  simp only [List.mem_map, exists_exists_and_eq_and, mem_maskWord shown]

/-- The mask of a name that fits a column. -/
theorem fitsColumn_maskName {n : Nat} {name : String} (short : name.toList.length ≤ n) :
    fitsColumn n (maskName name) ↔ ∀ word ∈ words name.toList, word.head? ≠ some '\x00' := by
  rw [fitsColumn_iff, mem_maskName (by decide) (by decide)]
  simp [(length_maskName_le name).trans short]

/-! ### Emails -/

/-- What a mask adds to a part. -/
def padding (part : List Char) : Nat := if part.length = 1 then 1 else 0

/-- The characters of a part that its mask keeps. -/
def kept (part : List Char) : List Char :=
  part.head?.toList ++ if part.length ≤ 2 then [] else part.getLast?.toList

theorem maskPart_kept {part : List Char} (nonempty : part ≠ []) :
    ∃ masked, maskPart part = .ok masked ∧ masked.length = part.length + padding part ∧
      ∀ c ≠ '*', c ∈ masked ↔ c ∈ kept part := by
  obtain ⟨first, last, starts, ends⟩ := ends_of_ne_nil nonempty
  have positive := List.length_pos_iff.mpr nonempty
  by_cases short : part.length ≤ 2
  · refine ⟨_, maskPart_short short starts, ?_, fun c shown => ?_⟩
    · simp only [padding, List.length_cons, List.length_nil]
      split <;> omega
    · simp [kept, short, starts, shown, eq_comm]
  · refine ⟨_, maskPart_long (by omega) starts ends, ?_, fun c shown => ?_⟩
    · rw [padding, if_neg (by omega)]
      simp only [List.length_cons, List.length_append, List.length_replicate, List.length_nil]
      omega
    · simp [kept, short, starts, ends, shown, eq_comm]

/-- The length of the mask of an email. -/
def maskLength (email : String) : Nat :=
  email.toList.length + padding (localOf email) + padding (labelOf email)

/-- The characters of an email that its mask keeps. -/
def keptOf (email : String) : List Char :=
  kept (localOf email) ++ kept (labelOf email) ++ afterDot email

/-- The mask of an accepted email fits a column when its length does and it keeps no NUL. -/
theorem fitsColumn_maskEmail {n : Nat} {email masked : String} (accepted : acceptsEmail email)
    (returned : maskEmail email = .ok masked) :
    fitsColumn n masked ↔ maskLength email ≤ n ∧ '\x00' ∉ keptOf email := by
  obtain ⟨address, is⟩ := exists_address accepted
  obtain ⟨localIs, _, labelIs, restIs⟩ := parts_of_address is
  have labelled : address.label ≠ [] := fun unlabelled => by
    rw [maskEmail_of_label_eq_nil is unlabelled] at returned
    cases returned
  obtain ⟨maskedLocal, ofLocal, localLength, fromLocal⟩ := maskPart_kept address.localPart_ne
  obtain ⟨maskedLabel, ofLabel, labelLength, fromLabel⟩ := maskPart_kept labelled
  have whole : masked = String.ofList (maskedText maskedLocal maskedLabel address.rest) := by
    rw [maskEmail_of_address is, ofLocal, ofLabel] at returned
    exact (Except.ok.inj returned).symm
  have length : masked.toList.length = maskLength email := by
    rw [whole, String.toList_ofList, maskedText, maskLength, is, Address.text, localIs, labelIs]
    simp only [List.length_append, List.length_cons]
    omega
  have nul : '\x00' ∈ masked.toList ↔ '\x00' ∈ keptOf email := by
    rw [whole, String.toList_ofList, maskedText, keptOf, localIs, labelIs, restIs]
    simp only [List.mem_append, List.mem_cons, fromLocal _ (by decide : '\x00' ≠ '*'),
      fromLabel _ (by decide : '\x00' ≠ '*')]
    simp [or_assoc]
  rw [fitsColumn_iff, length, nul]

/-- An accepted email is masked, or its domain begins with a `.`. -/
theorem masked_or_leading_dot {email : String} (accepted : acceptsEmail email) :
    (∃ masked, maskEmail email = .ok masked) ∧ (domainOf email).head? ≠ some '.' ∨
      (∃ failure, maskEmail email = .error failure) ∧ (domainOf email).head? = some '.' := by
  obtain ⟨address, is⟩ := exists_address accepted
  by_cases unlabelled : address.label = []
  · exact .inr ⟨⟨_, maskEmail_of_label_eq_nil is unlabelled⟩, (label_eq_nil_iff is).mp unlabelled⟩
  · obtain ⟨_, _, _, _, returned, _⟩ := maskEmail_ok is unlabelled
    exact .inl ⟨⟨_, returned⟩, (label_eq_nil_iff is).not.mp unlabelled⟩

end TenantLibrary.ReadingLists

import Mathlib.Data.List.Basic

/-!
Texts in columns.

A `String(n)` column cuts off the spaces that a text has beyond its first `n` characters. It
refuses a text that is still longer, and one with a NUL.
-/

namespace TenantLibrary.Store

inductive DbError where
  | uniqueViolation
  | notNullViolation
  | foreignKeyViolation
  | dataError (message : String)
deriving DecidableEq, Repr

/-- The text as a column of `n` characters keeps it. What is more than spaces is not cut. -/
def cut (n : Nat) (text : String) : String :=
  if (text.toList.drop n).all (· = ' ') then String.ofList (text.toList.take n) else text

def noNul (text : String) : Bool := !text.toList.contains '\x00'

/-- A text the column takes as it is: at most `n` characters, none of them NUL. -/
def fitsColumn (n : Nat) (text : String) : Bool :=
  text.toList.length ≤ n && noNul text

def requireFits (n : Nat) (text : String) : Except DbError Unit :=
  if !noNul text then .error (.dataError "invalid byte sequence for encoding UTF8")
  else if text.toList.length ≤ n then .ok ()
  else .error (.dataError s!"value too long for type character varying({n})")

/-- What a `String(n)` column makes of a text. -/
def varchar (n : Nat) (text : String) : Except DbError String := do
  requireFits n (cut n text)
  return cut n text

variable {n : Nat} {text stored : String}

theorem noNul_iff : noNul text ↔ '\x00' ∉ text.toList := by
  simp [noNul]

theorem fitsColumn_iff : fitsColumn n text ↔ text.toList.length ≤ n ∧ '\x00' ∉ text.toList := by
  rw [fitsColumn, Bool.and_eq_true, decide_eq_true_eq, noNul_iff]

theorem requireFits_eq_ok : requireFits n text = .ok () ↔ fitsColumn n text := by
  unfold requireFits fitsColumn
  cases noNul text
  · simp
  · split <;> simp_all

/-- A refused text is a data error. -/
theorem dataError_of_requireFits {failure : DbError} (refused : requireFits n text = .error failure) :
    ∃ message, failure = .dataError message := by
  unfold requireFits at refused
  split at refused
  · exact ⟨_, (Except.error.inj refused).symm⟩
  · split at refused
    · cases refused
    · exact ⟨_, (Except.error.inj refused).symm⟩

/-! ### Cutting -/

/-- A text that is not too long is not cut. -/
theorem cut_of_length_le (short : text.toList.length ≤ n) : cut n text = text := by
  rw [cut, List.drop_of_length_le short, List.take_of_length_le short]
  exact String.ofList_toList

theorem cut_of_fits (fits : fitsColumn n text) : cut n text = text :=
  cut_of_length_le (fitsColumn_iff.mp fits).1

/-- A text that ends in another character than a space is not cut. -/
theorem cut_of_last (last : ∀ c ∈ text.toList.getLast?, c ≠ ' ') : cut n text = text := by
  by_cases short : text.toList.length ≤ n
  · exact cut_of_length_le short
  · apply if_neg
    intro spaces
    have ends : text.toList.drop n ≠ [] := by simpa using Nat.lt_of_not_le short
    obtain ⟨c, isLast⟩ := Option.isSome_iff_exists.mp (List.getLast?_isSome.mpr ends)
    have space := of_decide_eq_true
      (List.all_eq_true.mp spaces c (List.mem_of_mem_getLast? isLast))
    rw [List.getLast?_drop, if_neg (by omega)] at isLast
    exact last c isLast space

/-- What a column keeps is the text, or its first characters. -/
theorem cut_cases (n : Nat) (text : String) : cut n text = text ∨
    (cut n text).toList = text.toList.take n ∧ ∀ c ∈ text.toList.drop n, c = ' ' := by
  unfold cut
  split
  case isTrue spaces =>
    exact .inr ⟨String.toList_ofList, by simpa using spaces⟩
  case isFalse => exact .inl rfl

/-- A column never makes a text longer. -/
theorem length_cut_le (n : Nat) (text : String) :
    (cut n text).toList.length ≤ text.toList.length := by
  rcases cut_cases n text with same | ⟨kept, _⟩
  · exact Nat.le_of_eq (by rw [same])
  · rw [kept, List.length_take]
    exact Nat.min_le_right ..

/-- A text that is not made shorter is not cut. -/
theorem cut_of_length (same : (cut n text).toList.length = text.toList.length) :
    cut n text = text := by
  rcases cut_cases n text with whole | ⟨kept, _⟩
  · exact whole
  · apply cut_of_length_le
    rw [kept, List.length_take] at same
    omega

theorem noNul_cut : noNul (cut n text) ↔ noNul text := by
  rw [noNul_iff, noNul_iff]
  rcases cut_cases n text with same | ⟨kept, spaces⟩
  · rw [same]
  · rw [kept]
    constructor
    · intro first mem
      rw [← List.take_append_drop n text.toList] at mem
      rcases List.mem_append.mp mem with inside | beyond
      · exact first inside
      · exact absurd (spaces _ beyond) (by decide)
    · exact fun none_ mem => none_ (List.mem_of_mem_take mem)

@[simp] theorem cut_cut : cut n (cut n text) = cut n text := by
  rcases cut_cases n text with same | ⟨kept, _⟩
  · rw [same, same]
  · apply cut_of_length_le
    rw [kept, List.length_take]
    exact Nat.min_le_left ..

theorem cut_empty : cut n "" = "" := cut_of_length_le (Nat.zero_le n)

/-- Nothing but the empty text is cut to nothing. -/
theorem cut_eq_empty (some_ : 0 < n) : cut n text = "" ↔ text = "" := by
  constructor
  · intro nothing
    rcases cut_cases n text with same | ⟨kept, _⟩
    · exact same.symm.trans nothing
    · rw [nothing] at kept
      have empty : text.toList = [] := by
        rcases List.take_eq_nil_iff.mp kept.symm with zero | empty
        · omega
        · exact empty
      exact String.toList_inj.mp empty
  · rintro rfl
    exact cut_empty

/-! ### Texts that stay apart -/

/-- No text of the list that is cut becomes one that is stored, or what is made of a text
before it. -/
structure CutsApart (n : Nat) (Stored : String → Prop) (texts : List String) : Prop where
  stored : ∀ text ∈ texts, cut n text ≠ text → ¬ Stored (cut n text)
  before : texts.Pairwise fun earlier text => cut n text ≠ text → cut n earlier ≠ cut n text

section Apart

variable {Stored Stored' : String → Prop} {rest texts : List String}

/-- A text that is not stored is not stored as it is cut. -/
theorem CutsApart.head (apart : CutsApart n Stored (text :: rest)) (missing : ¬ Stored text) :
    ¬ Stored (cut n text) := by
  by_cases whole : cut n text = text
  · rwa [whole]
  · exact apart.stored text List.mem_cons_self whole

/-- After the first text is stored the others stay apart. -/
theorem CutsApart.next (apart : CutsApart n Stored (text :: rest))
    (later : ∀ other, Stored' other → Stored other ∨ other = cut n text) :
    CutsApart n Stored' rest := by
  obtain ⟨first, before⟩ := List.pairwise_cons.mp apart.before
  refine ⟨fun other mem shorter stored => ?_, before⟩
  rcases later _ stored with old | same
  · exact apart.stored other (List.mem_cons_of_mem _ mem) shorter old
  · exact first other mem shorter same.symm

theorem cutsApart_of_whole (whole : ∀ text ∈ texts, cut n text = text) :
    CutsApart n Stored texts where
  stored text mem shorter := absurd (whole text mem) shorter
  before := List.pairwise_of_forall_mem_list fun _ _ text mem shorter =>
    absurd (whole text mem) shorter

end Apart

/-! ### Columns -/

theorem varchar_eq_ok_iff : varchar n text = .ok stored ↔
    fitsColumn n (cut n text) ∧ stored = cut n text := by
  unfold varchar
  cases accepted : requireFits n (cut n text) with
  | error failure =>
      have refused : ¬ fitsColumn n (cut n text) := fun fits => by
        rw [requireFits_eq_ok.mpr fits] at accepted
        cases accepted
      exact iff_of_false nofun fun kept => refused kept.1
  | ok _ =>
      rw [and_iff_right (requireFits_eq_ok.mp accepted)]
      exact ⟨fun made => (Except.ok.inj made).symm, fun made => congrArg Except.ok made.symm⟩

/-- A column keeps a text as it is when the text fits. -/
theorem varchar_eq_ok :
    varchar n text = .ok text ↔ '\x00' ∉ text.toList ∧ text.toList.length ≤ n := by
  rw [varchar_eq_ok_iff, and_comm, ← noNul_iff]
  constructor
  · rintro ⟨same, fits⟩
    rw [← same] at fits
    obtain ⟨short, text_⟩ := fitsColumn_iff.mp fits
    exact ⟨noNul_iff.mpr text_, short⟩
  · rintro ⟨text_, short⟩
    rw [cut_of_length_le short]
    exact ⟨rfl, fitsColumn_iff.mpr ⟨short, noNul_iff.mp text_⟩⟩

theorem dataError_of_varchar {failure : DbError} (refused : varchar n text = .error failure) :
    ∃ message, failure = .dataError message := by
  unfold varchar at refused
  cases accepted : requireFits n (cut n text) with
  | error other =>
      rw [accepted] at refused
      obtain rfl : other = failure := Except.error.inj refused
      exact dataError_of_requireFits accepted
  | ok _ =>
      rw [accepted] at refused
      cases refused

theorem varchar_of_nul (nul : '\x00' ∈ text.toList) :
    varchar n text = .error (.dataError "invalid byte sequence for encoding UTF8") := by
  have kept : ¬ noNul (cut n text) := fun text_ => noNul_iff.mp (noNul_cut.mp text_) nul
  rw [varchar, requireFits, if_pos (by simpa using kept)]
  rfl

end TenantLibrary.Store

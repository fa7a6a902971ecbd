import TenantLibrary.Lib.Cut
import TenantLibrary.Lib.Regex
import TenantLibrary.ReadingLists.Pii
import TenantLibrary.Store.Varchar

/-!
What masking accepts and what it reveals.

The schema accepts an email by a pattern, `mask_email` takes it apart at the `@` and at
the first `.` of the domain. An accepted email is an `Address`; `masks_iff` says that it is
masked exactly when its domain does not begin with a `.`, which the pattern allows.
`masking_reveals` says which emails and which names share a mask.
-/

namespace TenantLibrary.ReadingLists

open TenantLibrary.Lib

/-! ### The pattern of the schema -/

/-- `\s` in the patterns of the schema library: the property `White_Space`. -/
def isWhiteSpace (c : Char) : Bool :=
  ('\t' ≤ c && c ≤ '\r') || c = ' ' || c = '\x85' || c = '\xa0' || c = '\u1680' ||
    ('\u2000' ≤ c && c ≤ '\u200a') || c = '\u2028' || c = '\u2029' || c = '\u202f' ||
    c = '\u205f' || c = '\u3000'

/-- `[^@\s]`. -/
def addressChar (c : Char) : Bool := c ≠ '@' && !isWhiteSpace c

/-- `[^@\s]+@[^@\s]+\.[^@\s]+`. -/
def emailPattern : Regex Char :=
  let part := Regex.plus (.one addressChar)
  .seq part (.seq (.one (· = '@')) (.seq part (.seq (.one (· = '.')) part)))

/-- The schema accepts the email. -/
def acceptsEmail (email : String) : Bool := emailPattern.accepts email.toList

/-- An email, taken apart at the `@` and at the first `.` of the domain. -/
structure Address where
  localPart : List Char
  label : List Char
  rest : List Char
  localPart_ne : localPart ≠ []
  localPart_at : '@' ∉ localPart
  label_at : '@' ∉ label
  label_dot : '.' ∉ label
  rest_at : '@' ∉ rest

def Address.text (address : Address) : List Char :=
  address.localPart ++ '@' :: (address.label ++ '.' :: address.rest)

theorem addressChar_at {c : Char} (accepted : addressChar c) : c ≠ '@' := by
  simp only [addressChar, Bool.and_eq_true, decide_eq_true_eq] at accepted
  exact accepted.1

theorem notMem_at {part : List Char} (accepted : ∀ c ∈ part, addressChar c) : '@' ∉ part :=
  fun mem => addressChar_at (accepted _ mem) rfl

/-- An accepted email is an address. -/
theorem exists_address {email : String} (accepted : acceptsEmail email) :
    ∃ address : Address, email.toList = address.text := by
  rw [acceptsEmail, Regex.accepts_iff] at accepted
  simp only [emailPattern, Regex.mem_language_seq, Regex.mem_language_plus_one,
    Regex.mem_language_one, decide_eq_true_eq] at accepted
  obtain ⟨localPart, ⟨nonempty, ofLocal⟩, _, ⟨_, ⟨_, rfl, rfl⟩, _, ⟨name, ⟨_, ofName⟩, _,
    ⟨_, ⟨_, rfl, rfl⟩, tld, ⟨_, ofTld⟩, rfl⟩, rfl⟩, rfl⟩, whole⟩ := accepted
  obtain ⟨label, rest, apart, first⟩ :=
    List.eq_append_cons_of_mem (show '.' ∈ name ++ ['.'] ++ tld by simp)
  have noAt : '@' ∉ label ++ '.' :: rest := by
    rw [← apart]
    simp [notMem_at ofName, notMem_at ofTld]
  simp only [List.mem_append, List.mem_cons, not_or] at noAt
  refine ⟨⟨localPart, label, rest, nonempty, notMem_at ofLocal, noAt.1, first, noAt.2.2⟩, ?_⟩
  rw [Address.text, ← apart, ← whole]
  simp

/-! ### The parts of an email -/

/-- What precedes the first `@`. -/
def localOf (email : String) : List Char := email.toList.takeWhile (· ≠ '@')

/-- What follows the first `@`. -/
def domainOf (email : String) : List Char := (email.toList.dropWhile (· ≠ '@')).tail

/-- The first label of the domain. -/
def labelOf (email : String) : List Char := (domainOf email).takeWhile (· ≠ '.')

/-- What follows the first `.` of the domain. -/
def afterDot (email : String) : List Char := ((domainOf email).dropWhile (· ≠ '.')).tail

section Parts

variable {email : String} {address : Address}

theorem parts_of_address (is : email.toList = address.text) :
    localOf email = address.localPart ∧
      domainOf email = address.label ++ '.' :: address.rest ∧
      labelOf email = address.label ∧ afterDot email = address.rest := by
  have domain : domainOf email = address.label ++ '.' :: address.rest := by
    rw [domainOf, is, Address.text, dropWhile_append_cons address.localPart_at, List.tail_cons]
  refine ⟨?_, domain, ?_, ?_⟩
  · rw [localOf, is, Address.text, takeWhile_append_cons address.localPart_at]
  · rw [labelOf, domain, takeWhile_append_cons address.label_dot]
  · rw [afterDot, domain, dropWhile_append_cons address.label_dot, List.tail_cons]

/-- The masked text of an address with these masks. -/
def maskedText (maskedLocal maskedLabel rest : List Char) : List Char :=
  maskedLocal ++ '@' :: (maskedLabel ++ '.' :: rest)

/-- `mask_email` on an address. -/
theorem maskEmail_of_address (is : email.toList = address.text) : maskEmail email = (do
    let maskedLocal ← maskPart address.localPart
    let maskedLabel ← maskPart address.label
    return String.ofList (maskedText maskedLocal maskedLabel address.rest)) := by
  have noAt : '@' ∉ address.label ++ '.' :: address.rest := by
    simp [address.label_at, address.rest_at]
  rw [maskEmail, is, Address.text, List.splitOn_append_cons_self_of_not_mem address.localPart_at,
    List.splitOn_eq_singleton noAt]
  dsimp only
  rw [List.splitOn_append_cons_self_of_not_mem address.label_dot, List.headD_cons, List.tail_cons,
    List.intercalate_splitOn]
  simp [maskedText]

end Parts

/-! ### Masking one part -/

/-- Two parts between which a mask does not distinguish. -/
def SameShape (part other : List Char) : Prop :=
  (part.length ≤ 2 ∧ other.length ≤ 2 ∧ part.head? = other.head?) ∨
    (part.length = other.length ∧ 3 ≤ part.length ∧ part.head? = other.head? ∧
      part.getLast? = other.getLast?)

section MaskPart

variable {part other : List Char}

theorem maskPart_short {first : Char} (short : part.length ≤ 2) (starts : part.head? = some first) :
    maskPart part = .ok [first, '*'] := by
  cases part with
  | nil => cases starts
  | cons c rest =>
      obtain rfl := Option.some.inj starts
      rw [maskPart, if_pos short]

theorem maskPart_long {first last : Char} (long : 3 ≤ part.length) (starts : part.head? = some first)
    (ends : part.getLast? = some last) :
    maskPart part = .ok (first :: (List.replicate (part.length - 2) '*' ++ [last])) := by
  cases part with
  | nil => cases starts
  | cons c rest =>
      obtain rfl := Option.some.inj starts
      rw [maskPart, if_neg (by omega)]
      rw [List.getLast?_cons, Option.some.injEq] at ends
      rw [List.getLastD_eq_getLast?, ends]
      rfl

theorem ends_of_ne_nil (nonempty : part ≠ []) :
    ∃ first last, part.head? = some first ∧ part.getLast? = some last :=
  ⟨_, _, List.head?_eq_some_head nonempty, List.getLast?_eq_some_getLast nonempty⟩

/-- A part that is not empty has a mask of its own characters and `*`. -/
theorem exists_maskPart (nonempty : part ≠ []) : ∃ masked, maskPart part = .ok masked ∧
    masked ≠ [] ∧ ∀ c ∈ masked, c = '*' ∨ c ∈ part := by
  obtain ⟨first, last, starts, ends⟩ := ends_of_ne_nil nonempty
  by_cases short : part.length ≤ 2
  · refine ⟨_, maskPart_short short starts, List.cons_ne_nil _ _, fun c mem => ?_⟩
    simp only [List.mem_cons, List.not_mem_nil, or_false] at mem
    rcases mem with rfl | rfl
    · exact .inr (List.mem_of_head? starts)
    · exact .inl rfl
  · refine ⟨_, maskPart_long (by omega) starts ends, List.cons_ne_nil _ _, fun c mem => ?_⟩
    simp only [List.mem_cons, List.mem_append, List.mem_replicate, List.not_mem_nil,
      or_false] at mem
    rcases mem with rfl | ⟨_, rfl⟩ | rfl
    · exact .inr (List.mem_of_head? starts)
    · exact .inl rfl
    · exact .inr (List.mem_of_getLast? ends)

theorem notMem_mask {c : Char} {masked : List Char} (absent : c ∉ part) (star : c ≠ '*')
    (from_ : ∀ d ∈ masked, d = '*' ∨ d ∈ part) : c ∉ masked :=
  fun mem => (from_ c mem).elim star absent

/-- Masks are equal between parts of one shape only. -/
theorem maskPart_eq_iff (nonempty : part ≠ []) (nonempty' : other ≠ []) :
    maskPart part = maskPart other ↔ SameShape part other := by
  obtain ⟨first, last, starts, ends⟩ := ends_of_ne_nil nonempty
  obtain ⟨first', last', starts', ends'⟩ := ends_of_ne_nil nonempty'
  rw [SameShape, starts, starts', ends, ends']
  by_cases short : part.length ≤ 2
  · by_cases short' : other.length ≤ 2
    · rw [maskPart_short short starts, maskPart_short short' starts']
      simp [short, short', show ¬ 3 ≤ part.length by omega]
    · -- a mask of two characters against a longer one
      rw [maskPart_short short starts, maskPart_long (by omega) starts' ends']
      have different : [first, '*'] ≠
          first' :: (List.replicate (other.length - 2) '*' ++ [last']) := fun same => by
        have := congrArg List.length same
        simp at this
        omega
      simp [different, short', show ¬ 3 ≤ part.length by omega]
  · rw [maskPart_long (by omega) starts ends]
    by_cases short' : other.length ≤ 2
    · rw [maskPart_short short' starts']
      have different : first :: (List.replicate (part.length - 2) '*' ++ [last]) ≠
          [first', '*'] := fun same => by
        have := congrArg List.length same
        simp at this
        omega
      simp [different, short, show part.length ≠ other.length by omega]
    · rw [maskPart_long (by omega) starts' ends']
      constructor
      · intro same
        obtain ⟨rfl, tails⟩ := List.cons.inj (Except.ok.inj same)
        obtain ⟨stars, lasts⟩ := List.append_inj' tails rfl
        obtain rfl := (List.cons.inj lasts).1
        have lengths := congrArg List.length stars
        rw [List.length_replicate, List.length_replicate] at lengths
        exact .inr ⟨by omega, by omega, rfl, rfl⟩
      · rintro (⟨absurd, _⟩ | ⟨lengths, _, same, same'⟩)
        · exact (short absurd).elim
        · obtain rfl := Option.some.inj same
          obtain rfl := Option.some.inj same'
          rw [lengths]

end MaskPart

/-! ### Masking accepts -/

/-- A text with one `@` and something on each side of it. -/
def OneAt (text : String) : Prop :=
  ∃ before after, text.toList = before ++ '@' :: after ∧ '@' ∉ before ∧ '@' ∉ after ∧
    before ≠ [] ∧ after ≠ []

/-- The mask of an address whose domain begins with a label. -/
theorem maskEmail_ok {email : String} {address : Address} (is : email.toList = address.text)
    (labelled : address.label ≠ []) : ∃ maskedLocal maskedLabel,
      maskPart address.localPart = .ok maskedLocal ∧ maskPart address.label = .ok maskedLabel ∧
      maskEmail email = .ok (String.ofList (maskedText maskedLocal maskedLabel address.rest)) ∧
      maskedLocal ≠ [] ∧ '@' ∉ maskedLocal ∧ '@' ∉ maskedLabel ∧ '.' ∉ maskedLabel := by
  obtain ⟨maskedLocal, masked, nonempty, fromLocal⟩ := exists_maskPart address.localPart_ne
  obtain ⟨maskedLabel, masked', _, fromLabel⟩ := exists_maskPart labelled
  refine ⟨maskedLocal, maskedLabel, masked, masked', ?_, nonempty, ?_, ?_, ?_⟩
  · rw [maskEmail_of_address is, masked, masked']
    rfl
  · exact notMem_mask address.localPart_at (by decide) fromLocal
  · exact notMem_mask address.label_at (by decide) fromLabel
  · exact notMem_mask address.label_dot (by decide) fromLabel

/-- A domain begins with a label unless it begins with a `.`. -/
theorem label_eq_nil_iff {email : String} {address : Address} (is : email.toList = address.text) :
    address.label = [] ↔ (domainOf email).head? = some '.' := by
  rw [(parts_of_address is).2.1]
  cases found : address.label with
  | nil => simp
  | cons c label =>
      have first : c ≠ '.' := fun same => address.label_dot (by rw [found, same]; simp)
      simp [first]

theorem maskEmail_of_label_eq_nil {email : String} {address : Address}
    (is : email.toList = address.text) (unlabelled : address.label = []) :
    maskEmail email = .error .indexError := by
  obtain ⟨maskedLocal, masked, _⟩ := exists_maskPart address.localPart_ne
  rw [maskEmail_of_address is, masked, unlabelled]
  rfl

/-- An accepted email is masked, with one `@` between two texts, exactly when its domain
does not begin with a `.`. -/
theorem masks_iff {email : String} (accepted : acceptsEmail email) :
    (∃ masked, maskEmail email = .ok masked ∧ OneAt masked) ↔
      (domainOf email).head? ≠ some '.' := by
  obtain ⟨address, is⟩ := exists_address accepted
  rw [Ne, ← label_eq_nil_iff is]
  constructor
  · rintro ⟨masked, returned, _⟩ unlabelled
    rw [maskEmail_of_label_eq_nil is unlabelled] at returned
    cases returned
  · intro labelled
    obtain ⟨maskedLocal, maskedLabel, _, _, returned, nonempty, localAt, labelAt, _⟩ :=
      maskEmail_ok is labelled
    refine ⟨_, returned, maskedLocal, maskedLabel ++ '.' :: address.rest, ?_, localAt, ?_, nonempty,
      by simp⟩
    · rw [String.toList_ofList, maskedText]
    · simp [labelAt, address.rest_at]

/-- A standard email is accepted and masked. -/
theorem standard_email_masks :
    ∃ masked, maskEmail "john.doe@example.com" = .ok masked ∧ OneAt masked :=
  (masks_iff (by decide +kernel)).mpr (by decide +kernel)

/-- The pattern accepts a domain that begins with a `.`; masking it raises. -/
theorem leading_dot_raises :
    acceptsEmail "a@.b.c" ∧ maskEmail "a@.b.c" = .error .indexError ∧
      ¬ ∃ masked, maskEmail "a@.b.c" = .ok masked ∧ OneAt masked := by
  have raised : maskEmail "a@.b.c" = .error .indexError := by decide +kernel
  refine ⟨by decide +kernel, raised, ?_⟩
  rintro ⟨masked, returned, _⟩
  rw [raised] at returned
  cases returned

/-! ### What masking reveals -/

/-- The masks of two accepted emails are equal exactly when the emails agree after the
first `.` of the domain and have parts of one shape before it. -/
theorem maskEmail_eq_iff {email other : String} {masked masked' : String}
    (accepted : acceptsEmail email) (accepted' : acceptsEmail other)
    (returned : maskEmail email = .ok masked) (returned' : maskEmail other = .ok masked') :
    masked = masked' ↔ afterDot email = afterDot other ∧
      SameShape (localOf email) (localOf other) ∧ SameShape (labelOf email) (labelOf other) := by
  obtain ⟨address, is⟩ := exists_address accepted
  obtain ⟨address', is'⟩ := exists_address accepted'
  have labelled : address.label ≠ [] := fun unlabelled => by
    rw [maskEmail_of_label_eq_nil is unlabelled] at returned
    cases returned
  have labelled' : address'.label ≠ [] := fun unlabelled => by
    rw [maskEmail_of_label_eq_nil is' unlabelled] at returned'
    cases returned'
  obtain ⟨localIs, _, labelIs, restIs⟩ := parts_of_address is
  obtain ⟨localIs', _, labelIs', restIs'⟩ := parts_of_address is'
  obtain ⟨ml, md, maskedLocal, maskedLabel, made, _, localAt, _, labelDot⟩ :=
    maskEmail_ok is labelled
  obtain ⟨ml', md', maskedLocal', maskedLabel', made', _, localAt', _, labelDot'⟩ :=
    maskEmail_ok is' labelled'
  obtain rfl := Except.ok.inj (returned.symm.trans made)
  obtain rfl := Except.ok.inj (returned'.symm.trans made')
  rw [localIs, localIs', labelIs, labelIs', restIs, restIs',
    ← maskPart_eq_iff address.localPart_ne address'.localPart_ne,
    ← maskPart_eq_iff labelled labelled', maskedLocal, maskedLocal', maskedLabel, maskedLabel',
    String.ofList_inj, maskedText, maskedText, append_cons_inj localAt localAt',
    append_cons_inj labelDot labelDot', Except.ok.injEq, Except.ok.injEq]
  constructor
  · rintro ⟨sameLocal, sameLabel, sameRest⟩
    exact ⟨sameRest, sameLocal, sameLabel⟩
  · rintro ⟨sameRest, sameLocal, sameLabel⟩
    exact ⟨sameLocal, sameLabel, sameRest⟩

/-- Two words between which a mask does not distinguish. -/
def SameOutline (word other : List Char) : Prop :=
  word.length = other.length ∧ word.head? = other.head?

theorem maskWord_eq_iff {word other : List Char} :
    maskWord word = maskWord other ↔ SameOutline word other := by
  cases word with
  | nil => cases other <;> simp [maskWord, SameOutline]
  | cons c word =>
      cases other with
      | nil => simp [maskWord, SameOutline]
      | cons d other =>
          simp only [maskWord, SameOutline, List.cons.injEq, List.length_cons, List.head?_cons,
            Option.some.injEq, Nat.add_right_cancel_iff]
          constructor
          · rintro ⟨rfl, stars⟩
            have lengths := congrArg List.length stars
            rw [List.length_replicate, List.length_replicate] at lengths
            exact ⟨lengths, rfl⟩
          · rintro ⟨lengths, rfl⟩
            rw [lengths]
            exact ⟨rfl, rfl⟩

/-- The pieces of a split have none of the separators. -/
theorem not_separator_of_mem_splitOnP {p : Char → Bool} {text piece : List Char}
    (mem : piece ∈ text.splitOnP p) : ∀ c ∈ piece, p c = false := by
  induction text generalizing piece with
  | nil =>
      obtain rfl := List.mem_singleton.mp mem
      nofun
  | cons c text ih =>
      rw [List.splitOnP_cons_eq_if_modifyHead] at mem
      split at mem
      case isTrue =>
        rcases List.mem_cons.mp mem with rfl | later
        · nofun
        · exact ih later
      case isFalse other =>
        cases found : text.splitOnP p with
        | nil => exact absurd found (List.splitOnP_ne_nil p text)
        | cons first later =>
            rw [found, List.modifyHead_cons] at mem
            rcases List.mem_cons.mp mem with rfl | rest
            · refine List.forall_mem_cons.mpr ⟨by simpa using other, ih ?_⟩
              rw [found]
              exact List.mem_cons_self
            · refine ih ?_
              rw [found]
              exact List.mem_cons_of_mem _ rest

theorem of_mem_words {text word : List Char} (mem : word ∈ words text) :
    word ≠ [] ∧ ∀ c ∈ word, isSpace c = false := by
  obtain ⟨split, nonempty⟩ := List.mem_filter.mp mem
  exact ⟨by simpa using nonempty, not_separator_of_mem_splitOnP split⟩

/-- The mask of a word is a word. -/
theorem mem_maskWords {text masked : List Char} (mem : masked ∈ (words text).map maskWord) :
    masked ≠ [] ∧ ' ' ∉ masked := by
  obtain ⟨word, wordMem, rfl⟩ := List.mem_map.mp mem
  obtain ⟨nonempty, spaceless⟩ := of_mem_words wordMem
  obtain ⟨c, rest, rfl⟩ := List.exists_cons_of_ne_nil nonempty
  refine ⟨List.cons_ne_nil _ _, fun space => ?_⟩
  rcases List.mem_cons.mp space with rfl | star
  · exact absurd (spaceless ' ' List.mem_cons_self) (by decide)
  · exact absurd (List.eq_of_mem_replicate star) (by decide)

/-- What is joined of pieces that are not empty ends in a character of the last one. -/
theorem last_mem_of_intercalate {separator c : Char} {pieces : List (List Char)}
    (nonempty : ∀ piece ∈ pieces, piece ≠ [])
    (last : (List.intercalate [separator] pieces).getLast? = some c) :
    ∃ piece ∈ pieces, c ∈ piece := by
  induction pieces with
  | nil => cases last
  | cons piece rest ih =>
      obtain ⟨some_, others⟩ := List.forall_mem_cons.mp nonempty
      cases rest with
      | nil =>
          rw [List.intercalate_singleton] at last
          exact ⟨piece, List.mem_cons_self, List.mem_of_mem_getLast? last⟩
      | cons next rest =>
          have joined : List.intercalate [separator] (next :: rest) ≠ [] := by
            have some_ := others next List.mem_cons_self
            cases rest with
            | nil => simpa using some_
            | cons => simp [List.intercalate_cons_cons]
          rw [List.intercalate_cons_cons, List.getLast?_append_of_ne_nil _ joined] at last
          obtain ⟨found, mem, inside⟩ := ih others last
          exact ⟨found, List.mem_cons_of_mem _ mem, inside⟩

/-- The mask of a name does not end in a space, and no column cuts it. -/
theorem cut_maskName (n : Nat) (name : String) : Store.cut n (maskName name) = maskName name := by
  apply Store.cut_of_last
  intro c last
  rw [maskName, String.toList_ofList] at last
  obtain ⟨masked, mem, inside⟩ :=
    last_mem_of_intercalate (fun piece mem => (mem_maskWords mem).1) last
  rintro rfl
  exact (mem_maskWords mem).2 inside

/-- Words joined by a separator can be told apart again. -/
theorem intercalate_inj {separator : Char} {pieces pieces' : List (List Char)}
    (apart : ∀ piece ∈ pieces, piece ≠ [] ∧ separator ∉ piece)
    (apart' : ∀ piece ∈ pieces', piece ≠ [] ∧ separator ∉ piece) :
    List.intercalate [separator] pieces = List.intercalate [separator] pieces' ↔
      pieces = pieces' := by
  -- no pieces are joined to the empty text, and so is no other list of pieces
  have splits {pieces : List (List Char)} (nonempty : pieces ≠ [])
      (apart : ∀ piece ∈ pieces, piece ≠ [] ∧ separator ∉ piece) :
      (List.intercalate [separator] pieces).splitOn separator = pieces :=
    List.splitOn_intercalate _ (fun piece mem => (apart piece mem).2) nonempty
  have joins {pieces : List (List Char)} (nonempty : pieces ≠ [])
      (apart : ∀ piece ∈ pieces, piece ≠ [] ∧ separator ∉ piece) :
      List.intercalate [separator] pieces ≠ [] := fun joined => by
    have split := splits nonempty apart
    rw [joined, List.splitOn_nil] at split
    exact (apart [] (split ▸ List.mem_cons_self)).1 rfl
  refine ⟨fun same => ?_, congrArg _⟩
  by_cases none : pieces = []
  · by_contra different
    subst none
    exact joins (Ne.symm different) apart' same.symm
  · by_cases none' : pieces' = []
    · subst none'
      exact absurd same (joins none apart)
    · rw [← splits none apart, ← splits none' apart', same]

/-- The masks of two names are equal exactly when the names have as many words and
corresponding words have the same length and first character. -/
theorem maskName_eq_iff {name other : String} :
    maskName name = maskName other ↔
      List.Forall₂ SameOutline (words name.toList) (words other.toList) := by
  rw [maskName, maskName, String.ofList_inj,
    intercalate_inj (fun _ => mem_maskWords) fun _ => mem_maskWords, ← List.forall₂_eq_eq_eq,
    List.forall₂_map_left_iff, List.forall₂_map_right_iff]
  exact ⟨List.Forall₂.imp fun _ _ => maskWord_eq_iff.mp,
    List.Forall₂.imp fun _ _ => maskWord_eq_iff.mpr⟩

/-- Two accepted emails have one mask, and two names have one mask, exactly when they agree
in what a mask keeps. -/
theorem masking_reveals :
    (∀ email other masked masked' : String, acceptsEmail email → acceptsEmail other →
      maskEmail email = .ok masked → maskEmail other = .ok masked' →
        (masked = masked' ↔ afterDot email = afterDot other ∧
          SameShape (localOf email) (localOf other) ∧
            SameShape (labelOf email) (labelOf other))) ∧
      ∀ name other : String, maskName name = maskName other ↔
        List.Forall₂ SameOutline (words name.toList) (words other.toList) :=
  ⟨fun _ _ _ _ => maskEmail_eq_iff, fun _ _ => maskName_eq_iff⟩

/-- A local part of one character and one of two have the same mask, and so have two names
with the same initials and lengths. -/
theorem short_parts_share_a_mask :
    (afterDot "a@example.com" = afterDot "ab@example.com" ∧
      SameShape (localOf "a@example.com") (localOf "ab@example.com") ∧
        SameShape (labelOf "a@example.com") (labelOf "ab@example.com")) ∧
      List.Forall₂ SameOutline (words "Ann Doe".toList) (words "Abe Dow".toList) := by
  have first : maskEmail "a@example.com" = .ok "a*@e*****e.com" := by decide +kernel
  have second : maskEmail "ab@example.com" = .ok "a*@e*****e.com" := by decide +kernel
  exact ⟨(masking_reveals.1 _ _ _ _ (by decide +kernel) (by decide +kernel) first second).mp rfl,
    (masking_reveals.2 _ _).mp (by decide +kernel)⟩

end TenantLibrary.ReadingLists

import TenantLibrary.Lib.Json

/-!
Reading back what `dumps` writes.

Every reader is followed by what it leaves: a token's reader, given the token's text and
anything after it that does not continue the token, returns the token and the rest. The
values are read by induction on the bound of the nesting, the items of a sequence by
induction on their list, whatever their reader is.
-/

namespace TenantLibrary.Lib.Json

/-! ### Hexadecimal digits -/

theorem hexValue_hexDigit {n : Nat} (small : n < 16) : hexValue (hexDigit n) = some n := by
  have all : ∀ n < 16, hexValue (hexDigit n) = some n := by decide
  exact all n small

/-- The digits of a number bring its reader to the number. -/
theorem readHex_hexDigits (k j value n : Nat) (small : n < 16 ^ k) (rest : List Char) :
    readHex (k + j) value (hexDigits k n ++ rest) = readHex j (16 ^ k * value + n) rest := by
  induction k generalizing j n rest with
  | zero =>
      have : n = 0 := by simpa using small
      simp [hexDigits, this]
  | succ k ih =>
      have upper : n / 16 < 16 ^ k := Nat.div_lt_of_lt_mul (by rw [Nat.pow_succ'] at small; exact small)
      have lower : n % 16 < 16 := Nat.mod_lt _ (by decide)
      have value_eq : 16 * (16 ^ k * value + n / 16) + n % 16 = 16 ^ (k + 1) * value + n := by
        rw [Nat.mul_add, ← Nat.mul_assoc, ← Nat.pow_succ', Nat.add_assoc, Nat.div_add_mod]
      rw [hexDigits, List.append_assoc, Nat.add_right_comm, Nat.add_assoc, ih (j + 1) _ upper]
      simp [readHex, hexValue_hexDigit lower, value_eq]

theorem readHex_four {code : Nat} (small : code < 0x10000) (rest : List Char) :
    readHex 4 0 (hexDigits 4 code ++ rest) = some (code, rest) := by
  have read := readHex_hexDigits 4 0 0 code small rest
  simpa [readHex] using read

/-! ### Strings -/

/-- A character is no surrogate. -/
theorem scalar (c : Char) : c.toNat < 0xd800 ∨ 0xdfff < c.toNat ∧ c.toNat < 0x110000 := c.valid

theorem readEscape_below {c : Char} (below : c.toNat < 0x10000) (text : List Char) :
    readEscape ('u' :: (hexDigits 4 c.toNat ++ text)) = some (c, text) := by
  have notHigh : ¬ (0xd800 ≤ c.toNat ∧ c.toNat ≤ 0xdbff) := by have := scalar c; omega
  have notLow : ¬ (0xdc00 ≤ c.toNat ∧ c.toNat ≤ 0xdfff) := by have := scalar c; omega
  rw [readEscape, readHex_four below]
  simp only [Option.bind_some, if_neg notHigh, if_neg notLow, Char.ofNat_toNat]

/-- A surrogate pair is read as the character it was made from. -/
theorem readEscape_above {c : Char} (above : 0x10000 ≤ c.toNat) (text : List Char) :
    readEscape ('u' :: (hexDigits 4 (0xd800 + (c.toNat - 0x10000) / 0x400) ++
      (unicodeEscape (0xdc00 + (c.toNat - 0x10000) % 0x400) ++ text))) = some (c, text) := by
  have limit : c.toNat < 0x110000 := by have := scalar c; omega
  obtain ⟨high, isHigh⟩ : ∃ high, high = 0xd800 + (c.toNat - 0x10000) / 0x400 := ⟨_, rfl⟩
  obtain ⟨low, isLow⟩ : ∃ low, low = 0xdc00 + (c.toNat - 0x10000) % 0x400 := ⟨_, rfl⟩
  have highIn : 0xd800 ≤ high ∧ high ≤ 0xdbff := by omega
  have lowIn : 0xdc00 ≤ low ∧ low ≤ 0xdfff := by omega
  have joined : 0x10000 + (high - 0xd800) * 0x400 + (low - 0xdc00) = c.toNat := by omega
  rw [← isHigh, ← isLow, readEscape, readHex_four (by omega)]
  simp only [Option.bind_some, if_pos highIn, unicodeEscape, List.cons_append, readLowSurrogate]
  rw [readHex_four (by omega)]
  simp only [Option.bind_some, if_pos lowIn, joined, Char.ofNat_toNat]

theorem shortEscape_letter {c letter : Char} (short : escapeLetter c = some letter) :
    letter ≠ 'u' ∧ shortEscape letter = some c := by
  unfold escapeLetter at short
  (repeat' split at short) <;> simp_all <;> subst short <;> decide

theorem not_quote {c : Char} (long : escapeLetter c = none) : c ≠ '"' ∧ c ≠ '\\' := by
  constructor <;> rintro rfl <;> simp [escapeLetter] at long

/-- A backslash and what is read after it. -/
theorem readChars_backslash {fuel : Nat} {c : Char} (body : List Char) {text : List Char}
    (reads : readEscape (body ++ text) = some (c, text)) :
    readChars (fuel + 1) ('\\' :: (body ++ text)) =
      (readChars fuel text).map fun (chars, rest) => (c :: chars, rest) := by
  simp [readChars, reads]

/-- One character of a string. -/
theorem readChars_escape (fuel : Nat) (c : Char) (text : List Char) :
    readChars (fuel + 1) (escape c ++ text) =
      (readChars fuel text).map fun (chars, rest) => (c :: chars, rest) := by
  unfold escape
  cases letters : escapeLetter c with
  | some letter =>
      obtain ⟨notU, stands⟩ := shortEscape_letter letters
      refine readChars_backslash [letter] ?_
      rw [List.singleton_append, readEscape, stands]
      · rfl
      · exact fun same => notU same
  | none =>
      obtain ⟨notQuote, notBackslash⟩ := not_quote letters
      dsimp only
      by_cases plain : 0x20 ≤ c.toNat ∧ c.toNat ≤ 0x7e
      · have printable : ¬ c.toNat < 0x20 := by omega
        rw [if_pos plain, List.singleton_append, readChars, if_neg notQuote, if_neg notBackslash,
          if_neg printable]
      · rw [if_neg plain]
        by_cases below : c.toNat < 0x10000
        · rw [if_pos below]
          exact readChars_backslash _ (readEscape_below below text)
        · rw [if_neg below, unicodeEscape, List.cons_append, List.cons_append]
          have pair := readEscape_above (Nat.le_of_not_lt below) text
          rw [← List.append_assoc, ← List.cons_append] at pair
          exact readChars_backslash _ pair

theorem escape_ne_nil (c : Char) : escape c ≠ [] := by
  unfold escape unicodeEscape
  (repeat' split) <;> simp

theorem readChars_escaped (chars rest : List Char) {fuel : Nat} (enough : chars.length < fuel) :
    readChars fuel (chars.flatMap escape ++ '"' :: rest) = some (chars, rest) := by
  induction chars generalizing fuel with
  | nil =>
      obtain ⟨fuel, rfl⟩ := Nat.exists_eq_add_one_of_ne_zero (Nat.ne_of_gt enough)
      simp [readChars]
  | cons c chars ih =>
      obtain ⟨fuel, rfl⟩ := Nat.exists_eq_add_one_of_ne_zero (Nat.ne_zero_of_lt enough)
      rw [List.flatMap_cons, List.append_assoc, readChars_escape,
        ih (by simpa using enough), Option.map_some]

theorem length_le_escaped (chars : List Char) : chars.length ≤ (chars.flatMap escape).length := by
  induction chars with
  | nil => simp
  | cons c chars ih =>
      have one := List.length_pos_iff.mpr (escape_ne_nil c)
      rw [List.flatMap_cons, List.length_append, List.length_cons]
      omega

theorem readString_escaped (s : String) (rest : List Char) :
    readString (s.toList.flatMap escape ++ '"' :: rest) = some (s, rest) := by
  have enough : s.toList.length < (s.toList.flatMap escape ++ '"' :: rest).length := by
    have := length_le_escaped s.toList
    rw [List.length_append, List.length_cons]
    omega
  rw [readString, readChars_escaped _ _ enough]
  simp

/-! ### Integers -/

/-- What can follow a value in a text: nothing, or a character that ends every token. -/
def Ended (rest : List Char) : Prop := ∀ c ∈ rest.head?, c = ',' ∨ c = ']' ∨ c = '}'

theorem ended_nil : Ended [] := by simp [Ended]

theorem ended_cons {c : Char} (ends : c = ',' ∨ c = ']' ∨ c = '}') (rest : List Char) :
    Ended (c :: rest) := by
  simpa [Ended] using ends

theorem Ended.not_digit {rest : List Char} (ended : Ended rest) :
    ∀ c ∈ rest.head?, c.isDigit = false := by
  intro c head
  rcases ended c head with rfl | rfl | rfl <;> decide

theorem Ended.not_float {rest : List Char} (ended : Ended rest) : continuesFloat rest = false := by
  cases rest with
  | nil => rfl
  | cons c rest => rcases ended c rfl with rfl | rfl | rfl <;> cases rest <;> simp [continuesFloat]

theorem span_digits {digits rest : List Char} (all : ∀ c ∈ digits, c.isDigit)
    (stops : ∀ c ∈ rest.head?, c.isDigit = false) :
    (digits ++ rest).takeWhile Char.isDigit = digits ∧
      (digits ++ rest).dropWhile Char.isDigit = rest := by
  have none_of_rest : rest.takeWhile Char.isDigit = [] ∧ rest.dropWhile Char.isDigit = rest := by
    cases rest with
    | nil => simp
    | cons c rest => simp [stops c rfl]
  rw [List.takeWhile_append_of_pos all, List.dropWhile_append_of_pos all, none_of_rest.1,
    none_of_rest.2, List.append_nil]
  exact ⟨rfl, rfl⟩

/-- Only zero is written with a zero in front. -/
theorem head_toDigits {n : Nat} (positive : n ≠ 0) :
    ∀ c ∈ (Nat.toDigits 10 n).head?, c ≠ '0' := by
  induction n using Nat.strong_induction_on with
  | _ n ih =>
      by_cases small : n < 10
      · rw [Nat.toDigits_of_lt_base small]
        have all : ∀ n < 10, n ≠ 0 → n.digitChar ≠ '0' := by decide
        simpa using all n small positive
      · rw [Nat.toDigits_of_base_le (by decide) (Nat.le_of_not_lt small)]
        have before := ih (n / 10) (by omega) (by omega)
        have nonempty : Nat.toDigits 10 (n / 10) ≠ [] := Nat.toDigits_ne_nil
        simpa [List.head?_append_of_ne_nil _ nonempty] using before

theorem readDigits_toDigits (n : Nat) {rest : List Char}
    (stops : ∀ c ∈ rest.head?, c.isDigit = false) :
    readDigits (Nat.toDigits 10 n ++ rest) = some (n, rest) := by
  rcases Nat.eq_zero_or_pos n with rfl | positive
  · simp [readDigits]
  · obtain ⟨c, digits, text⟩ := List.exists_cons_of_ne_nil (Nat.toDigits_ne_nil (n := n) (b := 10))
    have all : ∀ c ∈ Nat.toDigits 10 n, c.isDigit := fun c mem =>
      Nat.isDigit_of_mem_toDigits (by decide) (by decide) mem
    have notZero : c ≠ '0' := head_toDigits positive.ne' c (by simp [text])
    obtain ⟨taken, left⟩ := span_digits all stops
    have digit : c.isDigit := all c (by simp [text])
    have value : Nat.ofDigitChars 10 (Nat.toDigits 10 n) 0 = n := Nat.ofDigitChars_ten_toDigits
    rw [text] at taken left value
    rw [text, List.cons_append, readDigits, if_neg notZero, if_pos digit, ← List.cons_append,
      taken, left, value]

/-- The minus sign is no digit. -/
theorem head_toDigits_ne_minus (n : Nat) (rest : List Char) :
    ∃ c digits, Nat.toDigits 10 n ++ rest = c :: digits ∧ c.isDigit := by
  obtain ⟨c, digits, text⟩ := List.exists_cons_of_ne_nil (Nat.toDigits_ne_nil (n := n) (b := 10))
  have digit : c.isDigit := Nat.isDigit_of_mem_toDigits (b := 10) (n := n) (by decide) (by decide)
    (by simp [text])
  exact ⟨c, digits ++ rest, by rw [text, List.cons_append], digit⟩

theorem readInt_intText (i : Int) {rest : List Char} (ended : Ended rest) :
    readInt (intText i ++ rest) = some (i, rest) := by
  have read := readDigits_toDigits i.natAbs ended.not_digit
  unfold intText
  by_cases negative : i < 0
  · have value : (-(i.natAbs : Int)) = i := by omega
    rw [if_pos negative, List.cons_append]
    simp only [readInt, read, Option.map_some, value, Option.bind_some, ended.not_float]
    rfl
  · have value : ((i.natAbs : Nat) : Int) = i := by omega
    rw [if_neg negative]
    obtain ⟨c, digits, text, digit⟩ := head_toDigits_ne_minus i.natAbs rest
    have notMinus : c ≠ '-' := by rintro rfl; exact absurd digit (by decide)
    rw [text] at read ⊢
    unfold readInt
    simp only
    split
    · rename_i other same
      exact absurd (List.cons.inj same).1 notMinus
    · simp [read, value, ended.not_float]

/-! ### Sequences -/

section Sequence

variable {α : Type}

/-- A text that begins with a token. -/
def Token (text : List Char) : Prop := ∃ c rest, text = c :: rest ∧ isSpace c = false ∧ c ≠ ']' ∧ c ≠ '}'

/-- The reader reads the item's text, whatever follows it in a sequence. -/
def Reads (item : List Char → Option (α × List Char)) (text : α → List Char) (x : α) : Prop :=
  Token (text x) ∧ ∀ rest, Ended rest → item (text x ++ rest) = some (x, rest)

theorem Token.skipSpace {text : List Char} (token : Token text) (rest : List Char) :
    skipSpace (text ++ rest) = text ++ rest := by
  obtain ⟨c, more, rfl, solid, -⟩ := token
  simp [Json.skipSpace, solid]

variable {item : List Char → Option (α × List Char)} {text : α → List Char} {closing : Char}

theorem intercalate_starts (text : α → List Char) (first : α) (others : List α) :
    ∃ more, [',', ' '].intercalate ((first :: others).map text) = text first ++ more := by
  cases others with
  | nil => exact ⟨[], by simp⟩
  | cons second others =>
      exact ⟨_, by
        rw [List.map_cons, List.map_cons, List.intercalate_cons_cons, List.append_assoc]⟩

theorem length_le_intercalate (text : α → List Char) (first : α) (others : List α) :
    others.length ≤ ([',', ' '].intercalate ((first :: others).map text)).length := by
  induction others generalizing first with
  | nil => exact Nat.zero_le _
  | cons second others ih =>
      have later := ih second
      rw [List.map_cons, List.map_cons, List.intercalate_cons_cons, ← List.map_cons,
        List.length_append, List.length_append]
      simp only [List.length_cons, List.length_nil] at later ⊢
      omega

/-- The items of a sequence, from the first on. -/
theorem readItems_intercalate (bracket : closing = ']' ∨ closing = '}') (first : α)
    (others : List α) (reads : ∀ x ∈ first :: others, Reads item text x) {fuel : Nat}
    (enough : others.length < fuel) (rest : List Char) :
    readItems item closing fuel
        ([',', ' '].intercalate ((first :: others).map text) ++ closing :: rest) =
      some (first :: others, rest) := by
  have solid : isSpace closing = false := by rcases bracket with rfl | rfl <;> decide
  have notComma : closing ≠ ',' := by rcases bracket with rfl | rfl <;> decide
  induction others generalizing first fuel with
  | nil =>
      obtain ⟨fuel, rfl⟩ := Nat.exists_eq_add_one_of_ne_zero (Nat.ne_of_gt enough)
      obtain ⟨-, readsFirst⟩ := reads first List.mem_cons_self
      have ended := ended_cons (.inr bracket) rest
      simp [readItems, readsFirst _ ended, skipSpace, solid]
  | cons second others ih =>
      obtain ⟨fuel, rfl⟩ := Nat.exists_eq_add_one_of_ne_zero (Nat.ne_zero_of_lt enough)
      obtain ⟨-, readsFirst⟩ := reads first List.mem_cons_self
      obtain ⟨token, -⟩ := reads second (by simp)
      have later := ih second (fun x mem => reads x (List.mem_cons_of_mem _ mem))
        (by simpa using enough)
      have ended (more : List Char) : Ended (',' :: more) := ended_cons (.inl rfl) more
      obtain ⟨more, starts⟩ := intercalate_starts text second others
      rw [List.map_cons, List.map_cons, List.intercalate_cons_cons, ← List.map_cons, List.append_assoc,
        List.append_assoc, readItems]
      simp only [List.cons_append, List.nil_append]
      rw [readsFirst _ (ended _)]
      have skipped : skipSpace (' ' :: ([',', ' '].intercalate ((second :: others).map text) ++
          closing :: rest)) =
          [',', ' '].intercalate ((second :: others).map text) ++ closing :: rest := by
        rw [starts, List.append_assoc]
        exact token.skipSpace _
      have comma : skipSpace (',' :: ' ' :: ([',', ' '].intercalate ((second :: others).map text) ++
          closing :: rest)) = ',' :: ' ' :: ([',', ' '].intercalate ((second :: others).map text) ++
          closing :: rest) := rfl
      simp only [Option.bind_some, comma, if_neg notComma.symm, if_true, skipped, later,
        Option.map_some]

/-- A bracketed sequence, its opening bracket read. -/
theorem readSequence_bracketed (bracket : closing = ']' ∨ closing = '}') (items : List α)
    (reads : ∀ x ∈ items, Reads item text x) (rest : List Char) :
    readSequence item closing ([',', ' '].intercalate (items.map text) ++ closing :: rest) =
      some (items, rest) := by
  cases items with
  | nil =>
      have solid : isSpace closing = false := by rcases bracket with rfl | rfl <;> decide
      simp [readSequence, skipSpace, solid]
  | cons first others =>
      obtain ⟨token, -⟩ := reads first List.mem_cons_self
      obtain ⟨more, starts⟩ := intercalate_starts text first others
      obtain ⟨c, body, textFirst, solid, notBracket⟩ := token
      have notClosing : c ≠ closing := by
        rcases bracket with rfl | rfl
        · exact notBracket.1
        · exact notBracket.2
      have enough : others.length < ([',', ' '].intercalate ((first :: others).map text) ++
          closing :: rest).length := by
        have := length_le_intercalate text first others
        rw [List.length_append, List.length_cons]
        omega
      have items := readItems_intercalate bracket first others reads enough rest
      have opened : [',', ' '].intercalate ((first :: others).map text) ++ closing :: rest =
          c :: (body ++ more ++ closing :: rest) := by
        rw [starts, textFirst, List.cons_append, List.cons_append]
      rw [opened] at items ⊢
      simp only [readSequence, skipSpace, List.dropWhile_cons, solid, Bool.false_eq_true, if_false,
        if_neg notClosing]
      exact items

/-- A dictionary built from pairs with different keys holds them in their order. -/
theorem dictOf_of_nodup {pairs : List (String × α)} (distinct : (pairs.map Prod.fst).Nodup) :
    dictOf pairs = pairs := by
  have append (dict : List (String × α)) (key : String) (value : α)
      (fresh : key ∉ dict.map Prod.fst) : setItem key value dict = dict ++ [(key, value)] := by
    induction dict with
    | nil => rfl
    | cons member dict ih =>
        rw [List.map_cons, List.mem_cons] at fresh
        obtain ⟨other, later⟩ := not_or.mp fresh
        rw [setItem, if_neg (Ne.symm other), ih later, List.cons_append]
  have build (dict : List (String × α)) (distinct : ((dict ++ pairs).map Prod.fst).Nodup) :
      pairs.foldl (fun dict pair => setItem pair.1 pair.2 dict) dict = dict ++ pairs := by
    clear * - append distinct
    induction pairs generalizing dict with
    | nil => simp
    | cons pair pairs ih =>
        have fresh : pair.1 ∉ dict.map Prod.fst := by
          rw [List.map_append, List.map_cons] at distinct
          exact fun mem => (List.nodup_append.mp distinct).2.2 _ mem _ List.mem_cons_self rfl
        rw [List.foldl_cons, append dict pair.1 pair.2 fresh, ih _ (by simpa using distinct)]
        simp
  simpa [dictOf] using build [] (by simpa using distinct)

end Sequence

/-! ### Values -/

mutual

/-- How deep the brackets of a value are nested, with one more for itself. -/
def Value.depth : Value → Nat
  | .arr items => depthItems items + 1
  | .obj members => depthMembers members + 1
  | _ => 1

def depthItems : List Value → Nat
  | [] => 0
  | value :: rest => max value.depth (depthItems rest)

def depthMembers : List (String × Value) → Nat
  | [] => 0
  | (_, value) :: rest => max value.depth (depthMembers rest)

end

theorem depth_le_items {value : Value} {items : List Value} (mem : value ∈ items) :
    value.depth ≤ depthItems items := by
  induction items with
  | nil => cases mem
  | cons first rest ih =>
      rcases List.mem_cons.mp mem with rfl | later
      · exact le_max_left _ _
      · exact (ih later).trans (le_max_right _ _)

theorem depth_le_members {member : String × Value} {members : List (String × Value)}
    (mem : member ∈ members) : member.2.depth ≤ depthMembers members := by
  induction members with
  | nil => cases mem
  | cons first rest ih =>
      rcases List.mem_cons.mp mem with rfl | later
      · exact le_max_left _ _
      · exact (ih later).trans (le_max_right _ _)

theorem token_intText (i : Int) : Token (intText i) := by
  unfold intText
  split
  · exact ⟨'-', _, rfl, by decide, by decide, by decide⟩
  · obtain ⟨c, digits, text, digit⟩ := head_toDigits_ne_minus i.natAbs []
    rw [List.append_nil] at text
    have other (d : Char) (noDigit : d.isDigit = false) : c ≠ d := by
      rintro rfl
      exact Bool.false_ne_true (noDigit.symm.trans digit)
    refine ⟨c, digits, text, ?_, other ']' (by decide), other '}' (by decide)⟩
    simp [isSpace, other ' ' (by decide), other '\t' (by decide), other '\n' (by decide),
      other '\r' (by decide)]

theorem token_cons {c : Char} (solid : isSpace c = false) (notArr : c ≠ ']') (notObj : c ≠ '}')
    (rest : List Char) : Token (c :: rest) :=
  ⟨c, rest, rfl, solid, notArr, notObj⟩

theorem token_dumps (value : Value) : Token (dumps value) := by
  cases value with
  | int i => exact token_intText i
  | bool b => cases b <;> exact token_cons (by decide) (by decide) (by decide) _
  | _ => exact token_cons (by decide) (by decide) (by decide) _

theorem token_memberText (member : String × Value) :
    Token (memberText member.1 (dumps member.2)) :=
  token_cons (by decide) (by decide) (by decide) _

/-- A text that begins like a number is read as one. -/
theorem readValue_number {fuel : Nat} {c : Char} {text : List Char}
    (number : c.isDigit ∨ c = '-') :
    readValue (fuel + 1) (c :: text) =
      (readInt (c :: text)).map fun (i, rest) => (.int i, rest) := by
  have other (d : Char) (noDigit : d.isDigit = false) (noSign : d ≠ '-') : c ≠ d := by
    rintro rfl
    rcases number with digit | sign
    · exact Bool.false_ne_true (noDigit.symm.trans digit)
    · exact noSign sign
  have quote := other '"' (by decide) (by decide)
  have square := other '[' (by decide) (by decide)
  have curly := other '{' (by decide) (by decide)
  have n := other 'n' (by decide) (by decide)
  have t := other 't' (by decide) (by decide)
  have f := other 'f' (by decide) (by decide)
  simp only [readValue]
  split <;> simp_all

theorem readMember_memberText {fuel : Nat} {member : String × Value}
    (reads : ∀ rest, Ended rest →
      readValue fuel (dumps member.2 ++ rest) = some (member.2, rest))
    {rest : List Char} (ended : Ended rest) :
    readMember (readValue fuel) (memberText member.1 (dumps member.2) ++ rest) =
      some (member, rest) := by
  obtain ⟨key, value⟩ := member
  have shape : memberText key (dumps value) ++ rest =
      '"' :: (key.toList.flatMap escape ++ '"' :: ':' :: ' ' :: (dumps value ++ rest)) := by
    simp [memberText, quoted]
  have colon (text : List Char) : skipSpace (':' :: text) = ':' :: text := rfl
  have space : skipSpace (' ' :: (dumps value ++ rest)) = dumps value ++ rest :=
    (token_dumps value).skipSpace rest
  rw [shape, readMember, readString_escaped]
  simp only [Option.bind_some, colon, space, reads rest ended, Option.map_some]

/-- A value is read back from its text. -/
theorem readValue_dumps (fuel : Nat) (value : Value) (shallow : value.depth ≤ fuel)
    (distinct : value.Distinct) {rest : List Char} (ended : Ended rest) :
    readValue fuel (dumps value ++ rest) = some (value, rest) := by
  induction fuel generalizing value rest with
  | zero => cases value <;> simp [Value.depth] at shallow
  | succ fuel ih =>
      cases value with
      | null => rfl
      | bool b => cases b <;> rfl
      | int i =>
          have read := readInt_intText i ended
          obtain ⟨c, text, shape, number⟩ :
              ∃ c text, intText i ++ rest = c :: text ∧ (c.isDigit ∨ c = '-') := by
            unfold intText
            split
            · exact ⟨'-', _, rfl, .inr rfl⟩
            · obtain ⟨c, text, shape, digit⟩ := head_toDigits_ne_minus i.natAbs rest
              exact ⟨c, text, shape, .inl digit⟩
          rw [dumps, shape, readValue_number number, ← shape, read, Option.map_some]
      | str s =>
          have shape : dumps (.str s) ++ rest = '"' :: (s.toList.flatMap escape ++ '"' :: rest) := by
            simp [dumps, quoted]
          rw [shape]
          simp only [readValue, readString_escaped, Option.map_some]
      | arr items =>
          have reads : ∀ value ∈ items, Reads (readValue fuel) dumps value := fun value mem =>
            ⟨token_dumps value, fun rest ended => ih value
              ((depth_le_items mem).trans (Nat.le_of_succ_le_succ shallow))
              ((distinct_arr.mp distinct) value mem) ended⟩
          have sequence := readSequence_bracketed (.inl rfl) items reads rest
          have shape : dumps (.arr items) ++ rest =
              '[' :: ([',', ' '].intercalate (items.map dumps) ++ ']' :: rest) := by
            simp [dumps, bracketed, itemTexts_eq]
          rw [shape]
          simp only [readValue, sequence, Option.map_some]
      | obj members =>
          obtain ⟨keys, values⟩ := distinct_obj.mp distinct
          have reads : ∀ member ∈ members, Reads (readMember (readValue fuel))
              (fun member => memberText member.1 (dumps member.2)) member := fun member mem =>
            ⟨token_memberText member, fun rest ended =>
              readMember_memberText (fun rest ended => ih member.2
                ((depth_le_members mem).trans (Nat.le_of_succ_le_succ shallow))
                (values member mem) ended) ended⟩
          have sequence := readSequence_bracketed (.inr rfl) members reads rest
          have shape : dumps (.obj members) ++ rest =
              '{' :: ([',', ' '].intercalate
                (members.map fun member => memberText member.1 (dumps member.2)) ++ '}' :: rest) := by
            simp [dumps, bracketed, memberTexts_eq]
          rw [shape]
          simp only [readValue, sequence, Option.map_some, dictOf_of_nodup keys]

theorem length_le_joined (first : List Char) (others : List (List Char)) :
    first.length ≤ ([',', ' '].intercalate (first :: others)).length ∧
      ([',', ' '].intercalate others).length ≤ ([',', ' '].intercalate (first :: others)).length := by
  cases others with
  | nil => simp
  | cons second others =>
      rw [List.intercalate_cons_cons, List.length_append, List.length_append]
      omega

mutual

theorem depth_le_length : ∀ value : Value, value.depth ≤ (dumps value).length
  | .null => by decide
  | .bool true => by decide
  | .bool false => by decide
  | .int i => by
      obtain ⟨c, text, shape, -⟩ := token_intText i
      rw [dumps, shape]
      simp [Value.depth]
  | .str s => by simp [Value.depth, dumps, quoted]
  | .arr items => by
      have inside := depthItems_le_length items
      simp only [Value.depth, dumps, bracketed, List.length_cons, List.length_append]
      omega
  | .obj members => by
      have inside := depthMembers_le_length members
      simp only [Value.depth, dumps, bracketed, List.length_cons, List.length_append]
      omega

theorem depthItems_le_length : ∀ items : List Value,
    depthItems items ≤ ([',', ' '].intercalate (itemTexts items)).length
  | [] => Nat.zero_le _
  | value :: rest => by
      have first := depth_le_length value
      have later := depthItems_le_length rest
      have joined := length_le_joined (dumps value) (itemTexts rest)
      rw [depthItems, itemTexts]
      omega

theorem depthMembers_le_length : ∀ members : List (String × Value),
    depthMembers members ≤ ([',', ' '].intercalate (memberTexts members)).length
  | [] => Nat.zero_le _
  | (key, value) :: rest => by
      have first := depth_le_length value
      have later := depthMembers_le_length rest
      have text : (dumps value).length ≤ (memberText key (dumps value)).length := by
        simp only [memberText, List.length_append, List.length_cons]
        omega
      have joined := length_le_joined (memberText key (dumps value)) (memberTexts rest)
      rw [depthMembers, memberTexts]
      omega

end

/-- The round trip. -/
theorem loads_dumps {value : Value} (distinct : value.Distinct) :
    loads (dumps value) = some value := by
  have nothing : skipSpace (dumps value) = dumps value := by
    simpa using (token_dumps value).skipSpace []
  have read := readValue_dumps _ value (depth_le_length value) distinct ended_nil
  rw [List.append_nil] at read
  rw [loads, nothing, read]
  rfl

/-! ### What is read has no key twice -/

section Sequence

variable {α : Type} {item : List Char → Option (α × List Char)} {closing : Char}

theorem readItems_good (good : α → Prop) (each : ∀ text x rest, item text = some (x, rest) → good x) {fuel : Nat}
    {text rest : List Char} {items : List α}
    (read : readItems item closing fuel text = some (items, rest)) : ∀ x ∈ items, good x := by
  induction fuel generalizing text items rest with
  | zero => simp [readItems] at read
  | succ fuel ih =>
      obtain ⟨⟨first, after⟩, readFirst, read⟩ := Option.bind_eq_some_iff.mp read
      have goodFirst := each _ _ _ readFirst
      cases next : skipSpace after with
      | nil => simp [next] at read
      | cons c after =>
          simp only [next] at read
          split at read
          · cases read
            simpa using goodFirst
          · split at read
            · obtain ⟨⟨others, left⟩, readOthers, same⟩ := Option.map_eq_some_iff.mp read
              cases same
              intro x mem
              rcases List.mem_cons.mp mem with rfl | later
              · exact goodFirst
              · exact ih readOthers x later
            · cases read

theorem readSequence_good (good : α → Prop) (each : ∀ text x rest, item text = some (x, rest) → good x)
    {text rest : List Char} {items : List α}
    (read : readSequence item closing text = some (items, rest)) : ∀ x ∈ items, good x := by
  unfold readSequence at read
  split at read
  · cases read
  · split at read
    · cases read
      simp
    · exact readItems_good good each read

theorem mem_setItem {key : String} {value : α} {dict : List (String × α)} {member : String × α}
    (mem : member ∈ setItem key value dict) : member = (key, value) ∨ member ∈ dict := by
  induction dict with
  | nil => simpa [setItem] using mem
  | cons first dict ih =>
      unfold setItem at mem
      split at mem
      · rcases List.mem_cons.mp mem with new | later
        · exact .inl new
        · exact .inr (List.mem_cons_of_mem _ later)
      · rcases List.mem_cons.mp mem with rfl | later
        · exact .inr List.mem_cons_self
        · exact (ih later).imp id (List.mem_cons_of_mem _)

theorem nodup_setItem (key : String) (value : α) {dict : List (String × α)}
    (nodup : (dict.map Prod.fst).Nodup) : ((setItem key value dict).map Prod.fst).Nodup := by
  induction dict with
  | nil => simp [setItem]
  | cons first dict ih =>
      obtain ⟨fresh, nodup⟩ := List.nodup_cons.mp nodup
      unfold setItem
      split
      · rename_i same
        exact List.nodup_cons.mpr ⟨same ▸ fresh, nodup⟩
      · rename_i other
        refine List.nodup_cons.mpr ⟨fun mem => ?_, ih nodup⟩
        obtain ⟨member, mem, same⟩ := List.mem_map.mp mem
        rcases mem_setItem mem with rfl | old
        · exact other same.symm
        · exact fresh (List.mem_map.mpr ⟨member, old, same⟩)

/-- A dict has each key once, and only what the pairs had. -/
theorem dictOf_spec (pairs : List (String × α)) :
    ((dictOf pairs).map Prod.fst).Nodup ∧ ∀ member ∈ dictOf pairs, member ∈ pairs := by
  have fold (dict : List (String × α)) (nodup : (dict.map Prod.fst).Nodup) :
      ((pairs.foldl (fun dict pair => setItem pair.1 pair.2 dict) dict).map Prod.fst).Nodup ∧
        ∀ member ∈ pairs.foldl (fun dict pair => setItem pair.1 pair.2 dict) dict,
          member ∈ dict ∨ member ∈ pairs := by
    induction pairs generalizing dict with
    | nil => exact ⟨nodup, fun member mem => .inl mem⟩
    | cons pair pairs ih =>
        obtain ⟨keys, from_⟩ := ih _ (nodup_setItem pair.1 pair.2 nodup)
        refine ⟨keys, fun member mem => ?_⟩
        rcases from_ member mem with inDict | later
        · rcases mem_setItem inDict with rfl | old
          · exact .inr List.mem_cons_self
          · exact .inl old
        · exact .inr (List.mem_cons_of_mem _ later)
  obtain ⟨keys, from_⟩ := fold [] List.nodup_nil
  exact ⟨keys, fun member mem => (from_ member mem).resolve_left (List.not_mem_nil)⟩

end Sequence

theorem distinct_readMember {fuel : Nat}
    (each : ∀ text value rest, readValue fuel text = some (value, rest) → value.Distinct)
    {text rest : List Char} {member : String × Value}
    (read : readMember (readValue fuel) text = some (member, rest)) : member.2.Distinct := by
  unfold readMember at read
  split at read
  · obtain ⟨⟨key, after⟩, -, read⟩ := Option.bind_eq_some_iff.mp read
    dsimp only at read
    split at read
    · obtain ⟨⟨value, left⟩, readIt, same⟩ := Option.map_eq_some_iff.mp read
      cases same
      exact each _ _ _ readIt
    · cases read
  · cases read

theorem distinct_readValue {fuel : Nat} {text rest : List Char} {value : Value}
    (read : readValue fuel text = some (value, rest)) : value.Distinct := by
  induction fuel generalizing text value rest with
  | zero => simp [readValue] at read
  | succ fuel ih =>
      simp only [readValue] at read
      split at read
      · obtain ⟨⟨s, after⟩, -, same⟩ := Option.map_eq_some_iff.mp read
        cases same
        rfl
      · obtain ⟨⟨items, after⟩, readItems, same⟩ := Option.map_eq_some_iff.mp read
        cases same
        exact distinct_arr.mpr (readSequence_good _ (fun _ _ _ => ih) readItems)
      · obtain ⟨⟨members, after⟩, readMembers, same⟩ := Option.map_eq_some_iff.mp read
        cases same
        obtain ⟨keys, from_⟩ := dictOf_spec members
        refine distinct_obj.mpr ⟨keys, fun member mem => ?_⟩
        exact readSequence_good (fun member : String × Value => member.2.Distinct)
          (fun _ _ _ => distinct_readMember fun _ _ _ => ih) readMembers member (from_ member mem)
      · cases read
        rfl
      · cases read
        rfl
      · cases read
        rfl
      · obtain ⟨⟨i, after⟩, -, same⟩ := Option.map_eq_some_iff.mp read
        cases same
        rfl

/-- Whatever the text, its objects are dicts. -/
theorem distinct_loads {text : List Char} {value : Value} (read : loads text = some value) :
    value.Distinct := by
  obtain ⟨⟨found, rest⟩, readIt, same⟩ := Option.bind_eq_some_iff.mp read
  dsimp only at same
  split at same
  · cases same
    exact distinct_readValue readIt
  · cases same

/-! ### What the texts are made of -/

/-- The printable characters of ASCII. -/
def Printable (c : Char) : Prop := 0x20 ≤ c.toNat ∧ c.toNat ≤ 0x7e

instance (c : Char) : Decidable (Printable c) := by unfold Printable; infer_instance

theorem printable_hexDigits (k n : Nat) : ∀ c ∈ hexDigits k n, Printable c := by
  induction k generalizing n with
  | zero => simp [hexDigits]
  | succ k ih =>
      have digit : ∀ d < 16, Printable (hexDigit d) := by decide
      intro c mem
      rcases List.mem_append.mp mem with before | last
      · exact ih _ c before
      · exact List.mem_singleton.mp last ▸ digit _ (Nat.mod_lt _ (by decide))

theorem printable_unicodeEscape (code : Nat) : ∀ c ∈ unicodeEscape code, Printable c := by
  intro c mem
  rcases List.mem_cons.mp mem with rfl | mem
  · decide
  · rcases List.mem_cons.mp mem with rfl | mem
    · decide
    · exact printable_hexDigits 4 code c mem

theorem printable_escape (c : Char) : ∀ d ∈ escape c, Printable d := by
  unfold escape
  cases letters : escapeLetter c with
  | some letter =>
      have printable : Printable letter := by
        unfold escapeLetter at letters
        (repeat' split at letters) <;> simp at letters <;> subst letters <;> decide
      intro d mem
      rcases List.mem_cons.mp mem with rfl | mem
      · decide
      · exact List.mem_singleton.mp mem ▸ printable
  | none =>
      dsimp only
      split
      · rename_i plain
        intro d mem
        exact List.mem_singleton.mp mem ▸ plain
      · split
        · exact printable_unicodeEscape _
        · intro d mem
          rcases List.mem_append.mp mem with high | low
          · exact printable_unicodeEscape _ d high
          · exact printable_unicodeEscape _ d low

theorem printable_quoted (s : String) : ∀ c ∈ quoted s, Printable c := by
  intro c mem
  rcases List.mem_cons.mp mem with rfl | mem
  · decide
  · rcases List.mem_append.mp mem with inside | last
    · obtain ⟨d, -, mem⟩ := List.mem_flatMap.mp inside
      exact printable_escape d c mem
    · exact List.mem_singleton.mp last ▸ by decide

theorem printable_intText (i : Int) : ∀ c ∈ intText i, Printable c := by
  have digits : ∀ c ∈ Nat.toDigits 10 i.natAbs, Printable c := by
    intro c mem
    have digit : c.isDigit := Nat.isDigit_of_mem_toDigits (by decide) (by decide) mem
    rw [Char.isDigit_iff_toNat] at digit
    have low : '0'.toNat = 48 := rfl
    have high : '9'.toNat = 57 := rfl
    exact ⟨by omega, by omega⟩
  unfold intText
  split
  · intro c mem
    rcases List.mem_cons.mp mem with rfl | mem
    · decide
    · exact digits c mem
  · exact digits

theorem printable_intercalate {texts : List (List Char)}
    (all : ∀ text ∈ texts, ∀ c ∈ text, Printable c) :
    ∀ c ∈ [',', ' '].intercalate texts, Printable c := by
  induction texts with
  | nil => simp
  | cons first others ih =>
      have later := ih fun text mem => all text (List.mem_cons_of_mem _ mem)
      cases others with
      | nil => simpa using all
      | cons second others =>
          intro c mem
          rw [List.intercalate_cons_cons] at mem
          rcases List.mem_append.mp mem with mem | mem
          · rcases List.mem_append.mp mem with mem | mem
            · exact all first List.mem_cons_self c mem
            · rcases (by simpa using mem : c = ',' ∨ c = ' ') with rfl | rfl <;> decide
          · exact later c mem

theorem printable_bracketed {opening closing : Char} {texts : List (List Char)}
    (opens : Printable opening) (closes : Printable closing)
    (all : ∀ text ∈ texts, ∀ c ∈ text, Printable c) :
    ∀ c ∈ bracketed opening closing texts, Printable c := by
  intro c mem
  rcases List.mem_cons.mp mem with rfl | mem
  · exact opens
  · rcases List.mem_append.mp mem with inside | last
    · exact printable_intercalate all c inside
    · exact List.mem_singleton.mp last ▸ closes

mutual

/-- A text is printable ASCII, whatever characters its strings have. -/
theorem printable_dumps : ∀ value : Value, ∀ c ∈ dumps value, Printable c
  | .null => by simp [dumps, Printable]
  | .bool true => by simp [dumps, Printable]
  | .bool false => by simp [dumps, Printable]
  | .int i => printable_intText i
  | .str s => printable_quoted s
  | .arr items => printable_bracketed (by decide) (by decide) (printable_itemTexts items)
  | .obj members => printable_bracketed (by decide) (by decide) (printable_memberTexts members)

theorem printable_itemTexts : ∀ items : List Value,
    ∀ text ∈ itemTexts items, ∀ c ∈ text, Printable c
  | [] => by simp [itemTexts]
  | value :: rest => by
      intro text mem
      rcases List.mem_cons.mp mem with rfl | later
      · exact printable_dumps value
      · exact printable_itemTexts rest text later

theorem printable_memberTexts : ∀ members : List (String × Value),
    ∀ text ∈ memberTexts members, ∀ c ∈ text, Printable c
  | [] => by simp [memberTexts]
  | (key, value) :: rest => by
      intro text mem
      rcases List.mem_cons.mp mem with rfl | later
      · intro c mem
        rcases List.mem_append.mp mem with inside | mem
        · exact printable_quoted key c inside
        · rcases List.mem_cons.mp mem with rfl | mem
          · decide
          · rcases List.mem_cons.mp mem with rfl | mem
            · decide
            · exact printable_dumps value c mem
      · exact printable_memberTexts rest text later

end

end TenantLibrary.Lib.Json

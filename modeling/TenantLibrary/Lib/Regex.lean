import Mathlib.Computability.Language

/-!
Regular expressions over classes of symbols.

`Regex.language` is what an expression denotes, in Mathlib's algebra of languages.
`Regex.accepts` decides it by derivatives: the derivative by a symbol denotes what may
follow that symbol (`mem_language_derivative`).
-/

namespace TenantLibrary.Lib

variable {α : Type}

/-- Regular expressions; `one` is a class of symbols. -/
inductive Regex (α : Type) where
  | empty
  | epsilon
  | one (class_ : α → Bool)
  | seq (first second : Regex α)
  | alt (left right : Regex α)
  | star (body : Regex α)

namespace Regex

/-- One or more. -/
def plus (body : Regex α) : Regex α := .seq body (.star body)

/-- None or one. -/
def optional (body : Regex α) : Regex α := .alt .epsilon body

/-- One text. -/
def literal [DecidableEq α] : List α → Regex α
  | [] => .epsilon
  | a :: text => .seq (.one (· = a)) (literal text)

/-! ### What an expression denotes -/

def language : Regex α → Language α
  | empty => 0
  | epsilon => 1
  | one class_ => {word | ∃ a, class_ a ∧ word = [a]}
  | seq first second => first.language * second.language
  | alt left right => left.language + right.language
  | star body => KStar.kstar body.language

section Membership

variable {first second left right body : Regex α} {class_ : α → Bool} {word : List α} {a : α}

@[simp] theorem mem_language_empty : word ∉ (empty : Regex α).language := Language.notMem_zero word

@[simp] theorem mem_language_epsilon : word ∈ (epsilon : Regex α).language ↔ word = [] :=
  Language.mem_one word

@[simp] theorem mem_language_one : word ∈ (one class_).language ↔ ∃ a, class_ a ∧ word = [a] :=
  Iff.rfl

@[simp] theorem mem_language_seq : word ∈ (seq first second).language ↔
    ∃ u ∈ first.language, ∃ v ∈ second.language, u ++ v = word :=
  Language.mem_mul

@[simp] theorem mem_language_alt : word ∈ (alt left right).language ↔
    word ∈ left.language ∨ word ∈ right.language :=
  Language.mem_add _ _ word

theorem mem_language_optional :
    word ∈ (optional body).language ↔ word = [] ∨ word ∈ body.language := by
  simp [optional]

theorem nil_mem_language_star : [] ∈ (star body).language := Language.nil_mem_kstar _

/-- A repetition that begins with a symbol begins with a round that does. -/
theorem cons_mem_language_star : a :: word ∈ (star body).language ↔
    ∃ u v, a :: u ∈ body.language ∧ v ∈ (star body).language ∧ u ++ v = word := by
  constructor
  · intro mem
    obtain ⟨rounds, joined, each⟩ := Language.mem_kstar_iff_exists_nonempty.mp mem
    cases rounds with
    | nil => cases joined
    | cons round later =>
        obtain ⟨⟨inBody, nonempty⟩, rest⟩ := List.forall_mem_cons.mp each
        cases round with
        | nil => exact absurd rfl nonempty
        | cons b u =>
            obtain ⟨rfl, rfl⟩ := List.cons.inj joined
            exact ⟨u, later.flatten, inBody,
              Language.join_mem_kstar fun v mem => (rest v mem).1, rfl⟩
  · rintro ⟨u, v, inBody, later, rfl⟩
    obtain ⟨rounds, rfl, each⟩ := Language.mem_kstar.mp later
    exact Language.mem_kstar.mpr
      ⟨(a :: u) :: rounds, rfl, List.forall_mem_cons.mpr ⟨inBody, each⟩⟩

theorem mem_language_star_one : word ∈ (star (one class_)).language ↔ ∀ a ∈ word, class_ a := by
  induction word with
  | nil => simp [nil_mem_language_star]
  | cons a word ih =>
      rw [cons_mem_language_star, List.forall_mem_cons]
      constructor
      · rintro ⟨u, v, ⟨b, accepted, single⟩, later, rfl⟩
        obtain ⟨rfl, rfl⟩ := List.cons.inj single
        exact ⟨accepted, ih.mp later⟩
      · rintro ⟨accepted, rest⟩
        exact ⟨[], word, ⟨a, accepted, rfl⟩, ih.mpr rest, rfl⟩

/-- One or more symbols of a class. -/
theorem mem_language_plus_one :
    word ∈ (plus (one class_)).language ↔ word ≠ [] ∧ ∀ a ∈ word, class_ a := by
  rw [plus, mem_language_seq]
  constructor
  · rintro ⟨_, ⟨a, accepted, rfl⟩, rest, later, rfl⟩
    exact ⟨List.cons_ne_nil _ _,
      List.forall_mem_cons.mpr ⟨accepted, mem_language_star_one.mp later⟩⟩
  · rintro ⟨nonempty, each⟩
    obtain ⟨a, rest, rfl⟩ := List.exists_cons_of_ne_nil nonempty
    obtain ⟨accepted, later⟩ := List.forall_mem_cons.mp each
    exact ⟨[a], ⟨a, accepted, rfl⟩, rest, mem_language_star_one.mpr later, rfl⟩

@[simp] theorem mem_language_literal [DecidableEq α] {text : List α} :
    word ∈ (literal text).language ↔ word = text := by
  induction text generalizing word with
  | nil => exact mem_language_epsilon
  | cons a text ih => simp [literal, ih, eq_comm]

end Membership

/-! ### Words joined by a symbol -/

section Joined

variable {body : Regex α} {word : List α} {sep : α}

theorem intercalate_cons_eq (words : List (List α)) :
    [sep].intercalate (word :: words) = word ++ words.flatMap (sep :: ·) := by
  induction words generalizing word with
  | nil => simp
  | cons next words ih =>
      rw [List.intercalate_cons_cons, ih]
      simp

variable [DecidableEq α]

/-- Any number of words, each after the symbol. -/
theorem mem_language_star_seq : word ∈ (star (seq (one (· = sep)) body)).language ↔
    ∃ words : List (List α), (∀ w ∈ words, w ∈ body.language) ∧
      word = words.flatMap (sep :: ·) := by
  rw [language, Language.mem_kstar]
  constructor
  · rintro ⟨rounds, rfl, each⟩
    induction rounds with
    | nil => exact ⟨[], nofun, rfl⟩
    | cons round rounds ih =>
        obtain ⟨first, later⟩ := List.forall_mem_cons.mp each
        obtain ⟨words, inBody, joined⟩ := ih later
        obtain ⟨_, ⟨_, isSep, rfl⟩, w, one, rfl⟩ := mem_language_seq.mp first
        obtain rfl := of_decide_eq_true isSep
        exact ⟨w :: words, List.forall_mem_cons.mpr ⟨one, inBody⟩, by simp [joined]⟩
  · rintro ⟨words, inBody, rfl⟩
    refine ⟨words.map (sep :: ·), rfl, ?_⟩
    rw [List.forall_mem_map]
    intro w mem
    exact mem_language_seq.mpr ⟨[sep], ⟨sep, decide_eq_true rfl, rfl⟩, w, inBody w mem, rfl⟩

/-- One or more words, joined by the symbol. -/
theorem mem_language_joined : word ∈ (seq body (star (seq (one (· = sep)) body))).language ↔
    ∃ words : List (List α), words ≠ [] ∧ (∀ w ∈ words, w ∈ body.language) ∧
      word = [sep].intercalate words := by
  rw [mem_language_seq]
  constructor
  · rintro ⟨first, one, _, later, rfl⟩
    obtain ⟨words, inBody, rfl⟩ := mem_language_star_seq.mp later
    exact ⟨first :: words, List.cons_ne_nil _ _, List.forall_mem_cons.mpr ⟨one, inBody⟩,
      (intercalate_cons_eq words).symm⟩
  · rintro ⟨words, nonempty, inBody, rfl⟩
    obtain ⟨first, words, rfl⟩ := List.exists_cons_of_ne_nil nonempty
    obtain ⟨one, later⟩ := List.forall_mem_cons.mp inBody
    exact ⟨first, one, _, mem_language_star_seq.mpr ⟨words, later, rfl⟩,
      (intercalate_cons_eq words).symm⟩

end Joined

/-! ### The symbols of a word -/

/-- Every class of the expression lies within the set. -/
def Within (p : α → Prop) : Regex α → Prop
  | empty => True
  | epsilon => True
  | one class_ => ∀ a, class_ a → p a
  | seq first second => first.Within p ∧ second.Within p
  | alt left right => left.Within p ∧ right.Within p
  | star body => body.Within p

/-- A word of the language has no other symbols. -/
theorem Within.forall_mem {p : α → Prop} {r : Regex α} {word : List α} (within : r.Within p)
    (mem : word ∈ r.language) : ∀ a ∈ word, p a := by
  induction r generalizing word with
  | empty => exact absurd mem mem_language_empty
  | epsilon =>
      obtain rfl := mem_language_epsilon.mp mem
      simp
  | one class_ =>
      obtain ⟨a, accepted, rfl⟩ := mem_language_one.mp mem
      simpa using within a accepted
  | seq first second firstIh secondIh =>
      obtain ⟨u, one, v, two, rfl⟩ := mem_language_seq.mp mem
      intro a member
      exact (List.mem_append.mp member).elim (firstIh within.1 one a) (secondIh within.2 two a)
  | alt left right leftIh rightIh =>
      exact (mem_language_alt.mp mem).elim (leftIh within.1) (rightIh within.2)
  | star body ih =>
      obtain ⟨rounds, rfl, each⟩ := Language.mem_kstar.mp mem
      intro a member
      obtain ⟨round, inRounds, inRound⟩ := List.mem_flatten.mp member
      exact ih within (each round inRounds) a inRound

/-! ### Deciding it -/

def nullable : Regex α → Bool
  | empty => false
  | epsilon => true
  | one _ => false
  | seq first second => first.nullable && second.nullable
  | alt left right => left.nullable || right.nullable
  | star _ => true

/-- What may follow a symbol. -/
def derivative (a : α) : Regex α → Regex α
  | empty => empty
  | epsilon => empty
  | one class_ => if class_ a then epsilon else empty
  | seq first second =>
      let after := seq (first.derivative a) second
      if first.nullable then alt after (second.derivative a) else after
  | alt left right => alt (left.derivative a) (right.derivative a)
  | star body => seq (body.derivative a) (star body)

/-- Whether an expression matches a whole word. -/
def accepts (r : Regex α) (word : List α) : Bool :=
  (word.foldl (fun r a => r.derivative a) r).nullable

theorem nullable_iff (r : Regex α) : r.nullable ↔ [] ∈ r.language := by
  induction r with
  | empty => simp [nullable]
  | epsilon => simp [nullable]
  | one class_ => simp [nullable]
  | seq first second firstIh secondIh =>
      simp only [nullable, Bool.and_eq_true, firstIh, secondIh, mem_language_seq,
        List.append_eq_nil_iff]
      constructor
      · rintro ⟨one, two⟩
        exact ⟨[], one, [], two, rfl, rfl⟩
      · rintro ⟨_, one, _, two, rfl, rfl⟩
        exact ⟨one, two⟩
  | alt left right leftIh rightIh => simp [nullable, leftIh, rightIh]
  | star body => simp [nullable, nil_mem_language_star]

theorem mem_language_derivative (r : Regex α) {a : α} {word : List α} :
    word ∈ (r.derivative a).language ↔ a :: word ∈ r.language := by
  induction r generalizing word with
  | empty => simp [derivative]
  | epsilon => simp [derivative]
  | one class_ =>
      by_cases accepted : class_ a
      · simp [derivative, accepted]
      · simp [derivative, accepted]
  | seq first second firstIh secondIh =>
      -- the symbol is taken from the first part, or the first part is empty
      have split : a :: word ∈ (seq first second).language ↔
          (∃ u, a :: u ∈ first.language ∧ ∃ v ∈ second.language, u ++ v = word) ∨
            ([] ∈ first.language ∧ a :: word ∈ second.language) := by
        rw [mem_language_seq]
        constructor
        · rintro ⟨u, one, v, two, joined⟩
          cases u with
          | nil => exact .inr ⟨one, by rwa [← joined]⟩
          | cons b u =>
              obtain ⟨rfl, rfl⟩ := List.cons.inj joined
              exact .inl ⟨u, one, v, two, rfl⟩
        · rintro (⟨u, one, v, two, rfl⟩ | ⟨one, two⟩)
          · exact ⟨a :: u, one, v, two, rfl⟩
          · exact ⟨[], one, a :: word, two, rfl⟩
      rw [split, ← nullable_iff]
      by_cases nullable : first.nullable
      · simp [derivative, nullable, firstIh, secondIh]
      · simp [derivative, nullable, firstIh]
  | alt left right leftIh rightIh => simp [derivative, leftIh, rightIh]
  | star body ih =>
      rw [cons_mem_language_star, derivative, mem_language_seq]
      simp only [ih]
      constructor
      · rintro ⟨u, one, v, two, joined⟩
        exact ⟨u, v, one, two, joined⟩
      · rintro ⟨u, v, one, two, joined⟩
        exact ⟨u, one, v, two, joined⟩

/-- Derivatives decide the language. -/
theorem accepts_iff (r : Regex α) {word : List α} : r.accepts word ↔ word ∈ r.language := by
  induction word generalizing r with
  | nil => exact nullable_iff r
  | cons a word ih => exact (ih (r.derivative a)).trans (mem_language_derivative r)

end Regex

end TenantLibrary.Lib

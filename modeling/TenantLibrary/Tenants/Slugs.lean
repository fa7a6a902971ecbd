import TenantLibrary.RateLimit.Quota
import TenantLibrary.Tenants.Creation

/-!
Slugs, and the counters of their tenants.

The schema is to take the slugs and no other text, and the rate limit is to count each
tenant alone. But the `$` of the schema's pattern also stands before a last line break, so
a slug with a line break is taken as well (`accepts_iff`), and splitting the URL removes the
line break again: its tenant is counted together with the tenant of the slug itself.
`slugs_agree_iff` says that nothing else goes wrong, apart from tails that are removed whole.
-/

namespace TenantLibrary.Tenants

open TenantLibrary.Lib TenantLibrary.RateLimit

/-! ### The grammar -/

/-- One or more non-empty runs of `[a-z0-9]`, joined by single hyphens. -/
def IsSlug (v : String) : Prop :=
  ∃ runs : List (List Char), runs ≠ [] ∧ (∀ run ∈ runs, run ≠ [] ∧ ∀ c ∈ run, slugChar c) ∧
    v.toList = ['-'].intercalate runs

/-- `slugPattern` without its `$`. -/
def runsPattern : Regex Char :=
  let word := Regex.plus (.one slugChar)
  .seq word (.star (.seq (.one (· = '-')) word))

theorem isSlug_iff {v : String} : IsSlug v ↔ v.toList ∈ runsPattern.language := by
  simp only [IsSlug, runsPattern, Regex.mem_language_joined, Regex.mem_language_plus_one]

instance (v : String) : Decidable (IsSlug v) :=
  decidable_of_iff (runsPattern.accepts v.toList) ((Regex.accepts_iff _).trans isSlug_iff.symm)

theorem IsSlug.mem {v : String} (isSlug : IsSlug v) {c : Char} (mem : c ∈ v.toList) :
    slugChar c ∨ c = '-' := by
  have word : (Regex.plus (.one slugChar)).Within fun c => slugChar c ∨ c = '-' :=
    ⟨fun _ => .inl, fun _ => .inl⟩
  have within : runsPattern.Within fun c => slugChar c ∨ c = '-' :=
    ⟨word, fun _ hyphen => .inr (of_decide_eq_true hyphen), word⟩
  exact within.forall_mem (isSlug_iff.mp isSlug) c mem

theorem not_isSlug_lineBreak {slug : String} : ¬ IsSlug (slug ++ "\n") := by
  intro isSlug
  have symbol := isSlug.mem (c := '\n') (by simp)
  simp [slugChar] at symbol

/-- The schema takes slugs, and slugs with a line break after them. -/
theorem accepts_iff {v : String} :
    slugPattern.accepts v.toList ↔ IsSlug v ∨ ∃ slug, IsSlug slug ∧ v = slug ++ "\n" := by
  have regrouped : slugPattern.language =
      runsPattern.language * (Regex.optional (.one (· = '\n'))).language :=
    (mul_assoc _ _ _).symm
  rw [Regex.accepts_iff, regrouped, Language.mem_mul]
  simp only [Regex.mem_language_optional, Regex.mem_language_one, decide_eq_true_eq]
  constructor
  · rintro ⟨runs, inRuns, _, rfl | ⟨_, rfl, rfl⟩, whole⟩
    · rw [List.append_nil] at whole
      exact .inl (isSlug_iff.mpr (whole ▸ inRuns))
    · refine .inr ⟨String.ofList runs, isSlug_iff.mpr (by rwa [String.toList_ofList]), ?_⟩
      exact String.toList_injective (by simp [← whole])
  · rintro (isSlug | ⟨slug, isSlug, rfl⟩)
    · exact ⟨_, isSlug_iff.mp isSlug, [], .inl rfl, List.append_nil _⟩
    · exact ⟨_, isSlug_iff.mp isSlug, ['\n'], .inr ⟨_, rfl, rfl⟩, by simp⟩

theorem validate_iff {name v : String} :
    (∃ body, TenantCreate.validate name v = .ok body) ↔ slugPattern.accepts v.toList := by
  unfold TenantCreate.validate
  split
  next accepted => simp [accepted]
  next refused => simp [refused]

/-! ### The route -/

/-- `^/api/v1/tenants/([^/]+)/.+$`, with what stands for its group. -/
def tenantPattern (group : Regex Char) : Regex Char :=
  .seq (.literal tenantRoute.toList) (.seq group (.seq (.one (· = '/'))
    (.seq (.plus (.one (· ≠ '\n'))) (.optional (.one (· = '\n'))))))

/-- What the middleware extracts is what the group of its pattern matches. -/
theorem tenantSlug_iff {path slug : String} : tenantSlug path = some slug ↔
    slug.toList ∈ (Regex.plus (.one fun c : Char => c ≠ '/')).language ∧
      path.toList ∈ (tenantPattern (.literal slug.toList)).language := by
  rw [tenantSlug_eq_some, Regex.mem_language_plus_one]
  simp only [tenantPattern, Regex.mem_language_seq, Regex.mem_language_literal,
    Regex.mem_language_plus_one, Regex.mem_language_optional, Regex.mem_language_one,
    decide_eq_true_eq, matchesRest_iff, exists_eq_left, ne_eq, List.forall_mem_ne']
  constructor
  · rintro ⟨_, whole, nonempty, noSlash, line, ending, rfl, some_, oneLine, ends⟩
    exact ⟨⟨nonempty, noSlash⟩, _, ⟨_, ⟨_, ⟨line, ⟨some_, oneLine⟩, ending, ends, rfl⟩, rfl⟩, rfl⟩,
      whole.symm⟩
  · rintro ⟨⟨nonempty, noSlash⟩, _, ⟨_, ⟨_, ⟨line, ⟨some_, oneLine⟩, ending, ends, rfl⟩, rfl⟩, rfl⟩,
      whole⟩
    exact ⟨_, whole.symm, nonempty, noSlash, line, ending, rfl, some_, oneLine, ends⟩

/-- What splitting a URL removes from it. -/
def removedFromUrl (c : Char) : Bool := c = '\t' || c = '\r' || c = '\n'

/-- `request.url.path` of a routed path, where splitting the URL is all that changes it. -/
def urlPath (routed : String) : String :=
  String.ofList (routed.toList.filter fun c => !removedFromUrl c)

/-- `/api/v1/tenants/{slug}/{tail}`, as it is routed. -/
def tenantPath (slug tail : String) : String := tenantRoute ++ slug ++ "/" ++ tail

/-- The slug under which the requests of a route are counted. -/
def countedAs (slug tail : String) : Option String := tenantSlug (urlPath (tenantPath slug tail))

theorem urlPath_tenantPath (slug tail : String) : (urlPath (tenantPath slug tail)).toList =
    tenantRoute.toList ++ (slug.toList.filter (fun c => !removedFromUrl c) ++
      '/' :: tail.toList.filter fun c => !removedFromUrl c) := by
  have route : tenantRoute.toList.filter (fun c => !removedFromUrl c) = tenantRoute.toList := by
    decide
  have slash : (!removedFromUrl '/') = true := rfl
  simp only [urlPath, tenantPath, String.toList_ofList, String.toList_append, List.filter_append,
    route, List.append_assoc]
  simp [slash]

theorem exists_slugChar (body : TenantCreate) : ∃ c ∈ body.slug.toList, slugChar c := by
  have accepted := (Regex.accepts_iff _).mp body.slugFormat
  simp only [slugPattern, Regex.mem_language_seq, Regex.mem_language_plus_one] at accepted
  obtain ⟨run, ⟨nonempty, ofRun⟩, rest, -, whole⟩ := accepted
  obtain ⟨c, mem⟩ := List.exists_mem_of_ne_nil run nonempty
  exact ⟨c, whole ▸ List.mem_append_left rest mem, ofRun c mem⟩

theorem slugChar_stays {c : Char} (isChar : slugChar c) : ¬ removedFromUrl c := by
  intro removed
  simp only [removedFromUrl, Bool.or_eq_true, decide_eq_true_eq, or_assoc] at removed
  rcases removed with rfl | rfl | rfl <;> simp [slugChar] at isChar

/-- Whether the requests are counted depends on the tail alone, and a line break of the slug
is not counted. -/
theorem countedAs_eq_some (body : TenantCreate) {slug tail : String} :
    countedAs body.slug tail = some slug ↔
      slug.toList = body.slug.toList.filter (fun c => !removedFromUrl c) ∧
        ∃ c ∈ tail.toList, ¬ removedFromUrl c := by
  set kept := body.slug.toList.filter fun c => !removedFromUrl c with kept_eq
  have nonempty : kept ≠ [] := by
    obtain ⟨c, mem, isChar⟩ := exists_slugChar body
    exact List.ne_nil_of_mem (List.mem_filter.mpr ⟨mem, by simpa using slugChar_stays isChar⟩)
  have noSlash : '/' ∉ kept := by
    intro mem
    have symbol := mem_slug body (List.mem_of_mem_filter mem)
    simp [slugChar] at symbol
  rw [countedAs, tenantSlug_eq_some, urlPath_tenantPath]
  constructor
  · rintro ⟨rest, whole, -, noSlash', matched⟩
    obtain ⟨line, ending, rfl, some_, -⟩ := matchesRest_iff.mp matched
    obtain ⟨slugs, tails⟩ :=
      (append_cons_inj noSlash noSlash').mp (List.append_cancel_left whole)
    obtain ⟨c, mem⟩ := List.exists_mem_of_ne_nil line some_
    have inTail : c ∈ tail.toList.filter fun c => !removedFromUrl c := by
      rw [tails]
      exact List.mem_append_left _ mem
    obtain ⟨inTail, stays⟩ := List.mem_filter.mp inTail
    exact ⟨slugs.symm, c, inTail, by simpa using stays⟩
  · rintro ⟨same, c, mem, stays⟩
    refine ⟨_, by rw [same], same ▸ nonempty, same ▸ noSlash,
      matchesRest_iff.mpr ⟨_, [], by rw [List.append_nil], ?_, ?_, .inl rfl⟩⟩
    · exact List.ne_nil_of_mem (List.mem_filter.mpr ⟨mem, by simpa using stays⟩)
    · intro newline
      exact absurd (List.of_mem_filter newline) (by decide)

/-- The slug has no line break, and something of the tail stays in the URL. -/
structure Stays (slug tail : String) : Prop where
  slug : '\n' ∉ slug.toList
  tail : ∃ c ∈ tail.toList, ¬ removedFromUrl c

theorem countedAs_self_iff (body : TenantCreate) {tail : String} :
    countedAs body.slug tail = some body.slug ↔ Stays body.slug tail := by
  have unchanged : body.slug.toList = body.slug.toList.filter (fun c => !removedFromUrl c) ↔
      '\n' ∉ body.slug.toList := by
    rw [eq_comm, List.filter_eq_self]
    constructor
    · intro stay newline
      exact absurd (stay _ newline) (by decide)
    · intro noBreak c mem
      rcases mem_slug body mem with isChar | rfl | rfl
      · simpa using slugChar_stays isChar
      · rfl
      · exact absurd mem noBreak
  rw [countedAs_eq_some, unchanged]
  exact ⟨fun ⟨noBreak, some_⟩ => ⟨noBreak, some_⟩, fun ⟨noBreak, some_⟩ => ⟨noBreak, some_⟩⟩

/-! ### Two tenants -/

/-- Requests of the two routes are counted under the slugs of the routes, and no two of
them by the same counter. -/
structure CountedApart (slug tail slug' tail' : String) : Prop where
  first : countedAs slug tail = some slug
  second : countedAs slug' tail' = some slug'
  counters : ∀ request request' : Request, request.path = urlPath (tenantPath slug tail) →
    request'.path = urlPath (tenantPath slug' tail') → request.counterKey ≠ request'.counterKey

theorem counterKey_eq {slug tail slug' : String} {request : Request}
    (counted : countedAs slug tail = some slug')
    (routed : request.path = urlPath (tenantPath slug tail)) :
    request.counterKey = some (redisKey slug' request.minute) := by
  rw [Request.counterKey, Request.slug, routed, show tenantSlug _ = some slug' from counted]
  rfl

/-- The schema is right about a text unless it is a slug with a line break after it, and two
different slugs are counted apart exactly when neither has one and both tails are in the URL. -/
theorem slugs_agree_iff (name v : String) {body body' : TenantCreate}
    (different : body.slug ≠ body'.slug) (tail tail' : String) :
    (((∃ body, TenantCreate.validate name v = .ok body) ↔ IsSlug v) ↔
      ¬ ∃ slug, IsSlug slug ∧ v = slug ++ "\n") ∧
    (CountedApart body.slug tail body'.slug tail' ↔
      Stays body.slug tail ∧ Stays body'.slug tail') := by
  constructor
  · rw [validate_iff, accepts_iff]
    constructor
    · rintro same ⟨slug, isSlug, rfl⟩
      exact not_isSlug_lineBreak (same.mp (.inr ⟨slug, isSlug, rfl⟩))
    · intro noBreak
      exact or_iff_left noBreak
  · constructor
    · intro apart
      exact ⟨(countedAs_self_iff body).mp apart.first, (countedAs_self_iff body').mp apart.second⟩
    · rintro ⟨stays, stays'⟩
      have counted := (countedAs_self_iff body).mpr stays
      have counted' := (countedAs_self_iff body').mpr stays'
      refine ⟨counted, counted', fun request request' routed routed' same => ?_⟩
      rw [counterKey_eq counted routed, counterKey_eq counted' routed'] at same
      exact different (redisKey_inj.mp (Option.some.inj same)).1

def acme : TenantCreate := ⟨"Acme", "acme", by decide⟩
def bolt : TenantCreate := ⟨"Bolt", "bolt-2", by decide⟩
def acmeLineBreak : TenantCreate := ⟨"Acme Too", "acme\n", by decide⟩

theorem acme_and_bolt_counted_apart : CountedApart "acme" "books" "bolt-2" "ingestion/jobs" :=
  have ⟨_, apart⟩ := slugs_agree_iff "Acme" "acme" (show acme.slug ≠ bolt.slug by decide)
    "books" "ingestion/jobs"
  apart.mpr ⟨⟨by decide, 'b', by decide, by decide⟩, ⟨by decide, 'i', by decide, by decide⟩⟩

/-- A slug with a line break is taken, and its tenant shares the counter of another one. -/
theorem line_break_shares_counter :
    TenantCreate.validate "Acme Too" "acme\n" = .ok acmeLineBreak ∧ ¬ IsSlug "acme\n" ∧
    acme.slug ≠ acmeLineBreak.slug ∧
    countedAs acme.slug "books" = some "acme" ∧ countedAs acmeLineBreak.slug "books" = some "acme" :=
  ⟨rfl, by decide, by decide, by decide +kernel, by decide +kernel⟩

end TenantLibrary.Tenants

import TenantLibrary.FairQueue.Model
import TenantLibrary.Lib.JsonRoundTrip
import TenantLibrary.Store.Schema

/-!
The payload of an ingestion task, as a text.

A producer writes the ids of its job as texts (`str(uuid)`), puts them into a dict and
the dict into a JSON text; the dispatcher reads the text back and sends the dict with its
task name; the worker calls `ingest_works(**kwargs)`, which reads the ids
(`uuid.UUID`). `wireCodec` is the queue's codec with these very texts.
-/

namespace TenantLibrary.JobQueue

open TenantLibrary.Lib TenantLibrary.Lib.Json TenantLibrary.Store TenantLibrary.FairQueue

/-! ### Identifiers as texts -/

/-- An identifier has 128 bits. -/
def uuidBound : Nat := 0x100000000000000000000000000000000

/-- `str(uuid)`: the digits in groups of 8, 4, 4, 4 and 12. -/
def uuidText (id : Uuid) : String :=
  let hex := hexDigits 32 id
  String.ofList (hex.take 8 ++ '-' :: ((hex.drop 8).take 4 ++ '-' :: ((hex.drop 12).take 4 ++
    '-' :: ((hex.drop 16).take 4 ++ '-' :: hex.drop 20))))

/-- `text.replace(word, "")`; `fuel` is at least the length of the text. -/
def without (word : List Char) : Nat → List Char → List Char
  | 0, text => text
  | _ + 1, [] => []
  | fuel + 1, c :: rest =>
      if word.isPrefixOf (c :: rest) then without word fuel ((c :: rest).drop word.length)
      else c :: without word fuel rest

def isBrace (c : Char) : Bool := c = '{' || c = '}'

/-- `uuid.UUID(text)`; `none` when it raises. -/
def readUuid (text : String) : Option Uuid :=
  let bare := without "urn:".toList text.length text.toList
  let bare := without "uuid:".toList bare.length bare
  let stripped := ((bare.dropWhile isBrace).reverse.dropWhile isBrace).reverse
  let hex := stripped.filter (· ≠ '-')
  if hex.length = 32 then (readHex 32 0 hex).map Prod.fst else none

/-- The characters of an identifier's text. -/
def IdChar (c : Char) : Prop := c = '-' ∨ ∃ n < 16, c = hexDigit n

theorem length_hexDigits (k n : Nat) : (hexDigits k n).length = k := by
  induction k generalizing n with
  | zero => rfl
  | succ k ih => simp [hexDigits, ih]

theorem mem_hexDigits {k n : Nat} {c : Char} (mem : c ∈ hexDigits k n) :
    ∃ m < 16, c = hexDigit m := by
  induction k generalizing n with
  | zero => simp [hexDigits] at mem
  | succ k ih =>
      rcases List.mem_append.mp mem with before | last
      · exact ih before
      · exact ⟨n % 16, Nat.mod_lt _ (by decide), List.mem_singleton.mp last⟩

theorem idChar_ne {c d : Char} (idChar : IdChar c) (hyphen : d ≠ '-')
    (digits : ∀ n < 16, hexDigit n ≠ d) : c ≠ d := by
  rcases idChar with rfl | ⟨n, small, rfl⟩
  · exact hyphen.symm
  · exact digits n small

theorem idChar_uuidText (id : Uuid) : ∀ c ∈ (uuidText id).toList, IdChar c := by
  intro c mem
  have group {part : List Char} (sub : part ⊆ hexDigits 32 id) (inside : c ∈ part) : IdChar c :=
    .inr (mem_hexDigits (sub inside))
  have dropped (k : Nat) : (hexDigits 32 id).drop k ⊆ hexDigits 32 id := List.drop_subset ..
  have taken (k j : Nat) : ((hexDigits 32 id).drop k).take j ⊆ hexDigits 32 id :=
    fun _ inside => dropped k (List.take_subset _ _ inside)
  simp only [uuidText, String.toList_ofList, List.mem_append, List.mem_cons] at mem
  rcases mem with mem | rfl | mem | rfl | mem | rfl | mem | rfl | mem
  · exact group (List.take_subset _ _) mem
  · exact .inl rfl
  · exact group (taken _ _) mem
  · exact .inl rfl
  · exact group (taken _ _) mem
  · exact .inl rfl
  · exact group (taken _ _) mem
  · exact .inl rfl
  · exact group (dropped _) mem

/-- Nothing is replaced in a text that lacks the word's first character. -/
theorem without_absent {c : Char} {word text : List Char} (absent : c ∉ text) (fuel : Nat) :
    without (c :: word) fuel text = text := by
  induction fuel generalizing text with
  | zero => rfl
  | succ fuel ih =>
      cases text with
      | nil => rfl
      | cons d rest =>
          obtain ⟨other, later⟩ := not_or.mp (mt List.mem_cons.mpr absent)
          have apart : ((c :: word).isPrefixOf (d :: rest)) = false := by
            simp [List.isPrefixOf, other]
          rw [without, apart, ih later]
          rfl

theorem dropWhile_none {p : Char → Bool} {text : List Char} (none_ : ∀ c ∈ text, p c = false) :
    text.dropWhile p = text := by
  cases text with
  | nil => rfl
  | cons c rest => simp [none_ c List.mem_cons_self]

theorem filter_uuidText (id : Uuid) :
    (uuidText id).toList.filter (· ≠ '-') = hexDigits 32 id := by
  have digits : ∀ n < 16, hexDigit n ≠ '-' := by decide
  have kept {part : List Char} (sub : part ⊆ hexDigits 32 id) :
      part.filter (· ≠ '-') = part := by
    apply List.filter_eq_self.mpr
    intro c mem
    obtain ⟨n, small, rfl⟩ := mem_hexDigits (sub mem)
    simpa using digits n small
  have dropped (k : Nat) : (hexDigits 32 id).drop k ⊆ hexDigits 32 id := List.drop_subset ..
  have taken (k j : Nat) : ((hexDigits 32 id).drop k).take j ⊆ hexDigits 32 id :=
    fun _ inside => dropped k (List.take_subset _ _ inside)
  have hyphen (rest : List Char) : ('-' :: rest).filter (· ≠ '-') = rest.filter (· ≠ '-') := by
    simp
  have joined (k j : Nat) : ((hexDigits 32 id).drop k).take j ++ (hexDigits 32 id).drop (k + j) =
      (hexDigits 32 id).drop k := by
    rw [← List.drop_drop, List.take_append_drop]
  simp only [uuidText, String.toList_ofList, List.filter_append, hyphen,
    kept (List.take_subset _ _), kept (taken _ _), kept (dropped _), joined]
  exact List.take_append_drop 8 _

theorem hexDigits_mod (k n : Nat) : hexDigits k (n % 16 ^ k) = hexDigits k n := by
  induction k generalizing n with
  | zero => rfl
  | succ k ih =>
      have above : n % 16 ^ (k + 1) / 16 = n / 16 % 16 ^ k := by
        rw [pow_succ', Nat.mod_mul_right_div_self]
      have last : n % 16 ^ (k + 1) % 16 = n % 16 :=
        Nat.mod_mod_of_dvd n (dvd_pow_self 16 k.succ_ne_zero)
      rw [hexDigits, hexDigits, above, last, ih]

/-- The 128 lowest bits of an identifier are read back from its text. -/
theorem readUuid_uuidText_mod (id : Uuid) : readUuid (uuidText id) = some (id % uuidBound) := by
  have absent {d : Char} (hyphen : d ≠ '-') (digits : ∀ n < 16, hexDigit n ≠ d) :
      d ∉ (uuidText id).toList :=
    fun mem => idChar_ne (idChar_uuidText id d mem) hyphen digits rfl
  have noBrace : ∀ c ∈ (uuidText id).toList, isBrace c = false := by
    intro c mem
    have idChar := idChar_uuidText id c mem
    simp [isBrace, idChar_ne idChar (d := '{') (by decide) (by decide),
      idChar_ne idChar (d := '}') (by decide) (by decide)]
  have urn (fuel : Nat) : without "urn:".toList fuel (uuidText id).toList = (uuidText id).toList :=
    without_absent (absent (by decide) (by decide)) fuel
  have uuid (fuel : Nat) : without "uuid:".toList fuel (uuidText id).toList = (uuidText id).toList :=
    without_absent (absent (by decide) (by decide)) fuel
  have reversed : ∀ c ∈ (uuidText id).toList.reverse, isBrace c = false := fun c mem =>
    noBrace c (List.mem_reverse.mp mem)
  have digits : hexDigits 32 (id % uuidBound) = hexDigits 32 id := hexDigits_mod 32 id
  have read := readHex_hexDigits 32 0 0 (id % uuidBound) (Nat.mod_lt id (by decide)) []
  rw [List.append_nil, digits] at read
  simp only [readUuid, urn, uuid, dropWhile_none noBrace, dropWhile_none reversed,
    List.reverse_reverse, filter_uuidText, length_hexDigits, if_true]
  rw [read]
  simp [readHex]

/-- An identifier is read back from its text. -/
theorem readUuid_uuidText {id : Uuid} (fits : id < uuidBound) : readUuid (uuidText id) = some id := by
  rw [readUuid_uuidText_mod, Nat.mod_eq_of_lt fits]

theorem uuidText_inj {a b : Uuid} (fitsA : a < uuidBound) (fitsB : b < uuidBound) :
    uuidText a = uuidText b ↔ a = b := by
  refine ⟨fun same => ?_, congrArg uuidText⟩
  have read := readUuid_uuidText fitsA
  rw [same, readUuid_uuidText fitsB] at read
  exact (Option.some.inj read).symm

/-! ### Query types as texts -/

def queryTypeText : QueryType → String
  | .author => "author"
  | .subject => "subject"

def readQueryType (text : String) : QueryType := if text = "author" then .author else .subject

@[simp] theorem readQueryType_text (queryType : QueryType) :
    readQueryType (queryTypeText queryType) = queryType := by
  cases queryType <;> decide

/-! ### Dicts -/

/-- A dict of JSON values. -/
structure Dict where
  members : List (String × Value)
  distinct : (Value.obj members).Distinct

/-- A value as Python has it. -/
structure PyValue where
  value : Value
  distinct : value.Distinct

/-- `json.loads` -/
def loadsPy (text : List Char) : Option PyValue :=
  (Json.loads text).attach.map fun read => ⟨read.1, distinct_loads read.2⟩

theorem map_attach {α β : Type} {o : Option α} {a : α} (present : o = some a)
    (f : { x // o = some x } → β) : o.attach.map f = some (f ⟨a, present⟩) := by
  subst present
  rfl

theorem loadsPy_dumps (value : PyValue) : loadsPy (Json.dumps value.value) = some value :=
  map_attach (loads_dumps value.distinct) _

/-- `dict[key]` -/
def Dict.get? (dict : Dict) (key : String) : Option PyValue :=
  (dict.members.find? (·.1 = key)).attach.map fun found =>
    ⟨found.1.2, (distinct_obj.mp dict.distinct).2 found.1 (List.mem_of_find?_eq_some found.2)⟩

theorem Dict.get?_of_find {dict : Dict} {key : String} {value : Value}
    (found : dict.members.find? (·.1 = key) = some (key, value)) :
    ∃ distinct, dict.get? key = some ⟨value, distinct⟩ := ⟨_, map_attach found _⟩

def PyValue.asText : PyValue → Option String
  | ⟨.str s, _⟩ => some s
  | _ => none

def PyValue.asDict : PyValue → Option Dict
  | ⟨.obj members, distinct⟩ => some ⟨members, distinct⟩
  | _ => none

def PyValue.asNat : PyValue → Option Nat
  | ⟨.int (.ofNat n), _⟩ => some n
  | _ => none

/-! ### The payload -/

theorem distinct_payload (taskName : String) (kwargs : Dict) :
    (Value.obj [("task_name", .str taskName), ("kwargs", .obj kwargs.members)]).Distinct :=
  distinct_obj.mpr ⟨by simp, by
    intro member mem
    rcases List.mem_cons.mp mem with rfl | mem
    · rfl
    · exact List.mem_singleton.mp mem ▸ kwargs.distinct⟩

/-- `json.dumps({"task_name": task_name, "kwargs": kwargs})` and what the dispatcher takes
from `json.loads(raw)`. -/
def wireCodec : Codec Dict where
  dumps payload := String.ofList (Json.dumps
    (.obj [("task_name", .str payload.taskName), ("kwargs", .obj payload.kwargs.members)]))
  loads raw := do
    let payload ← (loadsPy raw.toList).bind PyValue.asDict
    let taskName ← (payload.get? "task_name").bind PyValue.asText
    let kwargs ← (payload.get? "kwargs").bind PyValue.asDict
    some ⟨taskName, kwargs⟩
  loads_dumps payload := by
    have read := loadsPy_dumps ⟨_, distinct_payload payload.taskName payload.kwargs⟩
    rw [String.toList_ofList, read]
    rfl

/-- The keyword arguments both producers enqueue for a job. -/
def ingestKwargs (job : IngestionJob) : Dict where
  members :=
    [("tenant_id", .str (uuidText job.tenantId)),
     ("job_id", .str (uuidText job.id)),
     ("query_type", .str (queryTypeText job.queryType)),
     ("query_value", .str job.queryValue),
     ("limit", .int job.limit)]
  distinct := distinct_obj.mpr ⟨by simp, by simp [Value.Distinct, Value.distinct]⟩

def ingestWorksName : String := "app.tasks.ingestion_tasks.ingest_works"

/-- The payload both producers enqueue for a job. -/
def payloadOf (job : IngestionJob) : Payload Dict := ⟨ingestWorksName, ingestKwargs job⟩

/-- The arguments of `ingest_works`, the ids read. -/
structure JobKwargs where
  tenantId : Uuid
  jobId : Uuid
  queryType : QueryType
  queryValue : String
  limit : Nat
deriving DecidableEq, Repr

/-- The arguments a job's row stands for. -/
def argumentsOf (job : IngestionJob) : JobKwargs where
  tenantId := job.tenantId
  jobId := job.id
  queryType := job.queryType
  queryValue := job.queryValue
  limit := job.limit

/-- The parameters of `ingest_works`. -/
def parameters : List String := ["tenant_id", "job_id", "query_type", "query_value", "limit"]

/-- `ingest_works(**kwargs)` up to its first statement: a keyword it does not know or a
parameter it is not given is a `TypeError`, only `limit` has a default, and the ids have to be
texts of identifiers. -/
def ingestWorks (kwargs : Dict) : Option JobKwargs :=
  if kwargs.members.all (·.1 ∈ parameters) then do
    let tenantId ← (kwargs.get? "tenant_id").bind PyValue.asText
    let jobId ← (kwargs.get? "job_id").bind PyValue.asText
    let queryType ← (kwargs.get? "query_type").bind PyValue.asText
    let queryValue ← (kwargs.get? "query_value").bind PyValue.asText
    let limit ← match kwargs.get? "limit" with
      | none => some 50
      | some limit => limit.asNat
    let jobId ← readUuid jobId
    let tenantId ← readUuid tenantId
    some { tenantId, jobId, queryType := readQueryType queryType, queryValue, limit }
  else none

theorem ingestWorks_ingestKwargs (job : IngestionJob) :
    ingestWorks (ingestKwargs job) =
      some { argumentsOf job with
        tenantId := job.tenantId % uuidBound
        jobId := job.id % uuidBound } := by
  have known : (ingestKwargs job).members.all (·.1 ∈ parameters) = true := by
    simp [ingestKwargs, parameters]
  have text (key s : String)
      (found : (ingestKwargs job).members.find? (·.1 = key) = some (key, .str s)) :
      ((ingestKwargs job).get? key).bind PyValue.asText = some s := by
    obtain ⟨_, get⟩ := Dict.get?_of_find found
    rw [get, Option.bind_some]
    rfl
  have foundLimit : (ingestKwargs job).members.find? (·.1 = "limit") =
      some ("limit", .int job.limit) := by simp [ingestKwargs]
  obtain ⟨_, limit⟩ := Dict.get?_of_find foundLimit
  have limitRead (distinct : (Value.int job.limit).Distinct) :
      PyValue.asNat ⟨.int job.limit, distinct⟩ = some job.limit := rfl
  rw [ingestWorks, if_pos known, text "tenant_id" (uuidText job.tenantId) (by simp [ingestKwargs]),
    text "job_id" (uuidText job.id) (by simp [ingestKwargs]),
    text "query_type" (queryTypeText job.queryType) (by simp [ingestKwargs]),
    text "query_value" job.queryValue (by simp [ingestKwargs]), limit]
  simp only [Option.bind_eq_bind, Option.bind_some, limitRead, readUuid_uuidText_mod,
    readQueryType_text, argumentsOf]

/-- A job whose ids are ids. -/
structure StoredJob where
  row : IngestionJob
  id_fits : row.id < uuidBound
  tenantId_fits : row.tenantId < uuidBound

/-- The worker gets back what the job's row says. -/
theorem ingestWorks_stored (job : StoredJob) :
    ingestWorks (ingestKwargs job.row) = some (argumentsOf job.row) := by
  rw [ingestWorks_ingestKwargs, Nat.mod_eq_of_lt job.id_fits, Nat.mod_eq_of_lt job.tenantId_fits]
  rfl

/-- The arguments of the call a payload leads to. -/
def callOf (payload : Payload Dict) : Option JobKwargs := ingestWorks payload.kwargs

end TenantLibrary.JobQueue

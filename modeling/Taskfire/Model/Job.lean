import Mathlib.Algebra.Group.Nat.Defs
import Mathlib.Algebra.Ring.Int.Defs
import Mathlib.Data.List.Basic

/-!
# Jobs and their wire format

`Job` is the worker's record (`worker/queue/redis_queue.go`); `EnqueuePayload` is the record the API
writes (`api/src/services/redis.ts`).  Both end up as members of the Redis sorted sets.  A member
is the text of a JSON object: it is kept here as the fields of that object (`JobJson`), where a key
that the encoder leaves out is `none`, so that two members are equal when they spell the same object.
-/

namespace Taskfire

abbrev JobId := String

/-- What a Go `int` keeps of an integer: the residue modulo `2^64` in its range. -/
def goInt (value : Int) : Int := value.bmod (2 ^ 64)

theorem goInt_of_fits {value : Int} (lower : -2 ^ 63 ≤ value) (upper : value < 2 ^ 63) :
    goInt value = value :=
  Int.bmod_eq_of_le_mul_two (by omega) (by omega)

theorem le_goInt (value : Int) : -2 ^ 63 ≤ goInt value := by
  have lower : -((2 ^ 64 : Nat) / 2 : Nat) ≤ value.bmod (2 ^ 64) := Int.le_bmod (by decide)
  rw [goInt]
  omega

/-- To wrap makes a number smaller, if it is not below the range. -/
theorem goInt_le {value : Int} (lower : -2 ^ 63 ≤ value) : goInt value ≤ value := by
  rw [goInt, Int.bmod]
  split <;> omega

/-- Sums may wrap at any point; what is read in the end is the sum, wrapped. -/
theorem goInt_add (value step : Int) : goInt (goInt value + step) = goInt (value + step) :=
  Int.bmod_add_bmod

/-- Nanoseconds since the Unix epoch. -/
abbrev Time := Int

def Time.unixSeconds (time : Time) : Int := time / 1000000000

def Time.unixMilli (time : Time) : Int := time / 1000000

inductive JobStatus where
  | pending
  | active
  | completed
  | failed
  | dead
  deriving DecidableEq, Ord, Repr

/-- `Priority` of the worker: higher values are processed first. -/
abbrev Priority := Int

def priorityLow : Priority := 100
def priorityMedium : Priority := 200
def priorityHigh : Priority := 300

structure Job where
  id : JobId
  jobType : String
  payload : String
  priority : Priority
  status : JobStatus
  maxRetries : Int
  retryCount : Int
  createdAt : Time
  scheduledAt : Option Time
  startedAt : Option Time
  completedAt : Option Time
  failedAt : Option Time
  errorMessage : String
  dependencies : List JobId
  deriving DecidableEq, Repr

/-- The record `enqueueJob` and `enqueueDelayed` of the API serialise; the two optional fields may be
undefined, and the first may be null. -/
structure EnqueuePayload where
  id : JobId
  jobType : String
  payload : String
  priority : Priority
  status : JobStatus
  maxRetries : Int
  retryCount : Int
  createdAt : Time
  scheduledAt : Option (Option Time)
  dependencies : Option (List JobId)
  deriving DecidableEq, Repr

/-- The JSON object of a job.  `scheduledAt` may be left out, `null` or a time. -/
structure JobJson where
  id : JobId
  jobType : String
  payload : String
  priority : Int
  status : JobStatus
  maxRetries : Int
  retryCount : Int
  createdAt : Time
  scheduledAt : Option (Option Time)
  startedAt : Option Time
  completedAt : Option Time
  failedAt : Option Time
  errorMessage : Option String
  dependencies : Option (List JobId)
  deriving DecidableEq, Ord, Repr

/-- A member of a sorted set: the JSON of a job, or a text that no decoder takes for one. -/
inductive Member where
  | record (json : JobJson)
  | text (content : String)
  deriving DecidableEq, Ord, Repr

/-- The `id` of a decoded Lua table: missing (or false), something that concatenates with a string,
or any other value. -/
inductive LuaId where
  | absent
  | text (id : JobId)
  | other
  deriving DecidableEq, Repr

/-- What Lua's `cjson.decode` makes of a member: no table, or a table with its `id` and the number,
rounded down, that `tonumber` makes of its `priority`. -/
inductive Decoded where
  | notTable
  | table (id : LuaId) (priority : Option Int)
  deriving DecidableEq, Repr

/-- The decoders the scripts and the worker apply to members. -/
class Decoding (M : Type) where
  cjson : M → Decoded
  unmarshal : M → Option Job

/-! ## Encoders -/

/-- `omitempty` leaves out an empty string and an empty list. -/
def omitEmptyString (text : String) : Option String := if text = "" then none else some text

def omitEmptyList (ids : List JobId) : Option (List JobId) := if ids = [] then none else some ids

/-- `json.Marshal` of the worker's `Job`, by its struct tags. -/
def Job.marshal (job : Job) : Member :=
  .record {
    id := job.id
    jobType := job.jobType
    payload := job.payload
    priority := job.priority
    status := job.status
    maxRetries := job.maxRetries
    retryCount := job.retryCount
    createdAt := job.createdAt
    scheduledAt := job.scheduledAt.map some
    startedAt := job.startedAt
    completedAt := job.completedAt
    failedAt := job.failedAt
    errorMessage := omitEmptyString job.errorMessage
    dependencies := omitEmptyList job.dependencies }

/-- `JSON.stringify` of the API's payload: keys that are undefined are left out, and `scheduled_at` is
written when it is null. -/
def EnqueuePayload.stringify (payload : EnqueuePayload) : Member :=
  .record {
    id := payload.id
    jobType := payload.jobType
    payload := payload.payload
    priority := payload.priority
    status := payload.status
    maxRetries := payload.maxRetries
    retryCount := payload.retryCount
    createdAt := payload.createdAt
    scheduledAt := payload.scheduledAt
    startedAt := none
    completedAt := none
    failedAt := none
    errorMessage := none
    dependencies := payload.dependencies }

/-! ## Decoders -/

/-- The nesting that `cjson` reads, the record's own braces included. -/
def decodeMaxDepth : Nat := 1000

/-- Where `cjson` is in a text.  `paired` says that the escape just read was the first half of a
surrogate pair, and `digits` of the four digits of a unicode escape have been read. -/
inductive Lexing where
  | outside
  | string (paired : Bool)
  | escape (paired : Bool)
  | unicode (paired : Bool) (digits codeUnit : Nat)

structure Reading where
  depth : Nat
  lexing : Lexing

def hexDigit (c : Char) : Nat :=
  if c ≤ '9' then c.toNat - 48 else if c ≤ 'F' then c.toNat - 55 else c.toNat - 87

/-- One character of a JSON text.  `cjson` refuses what is nested too deeply, and escapes that are
half of a surrogate pair. -/
def Reading.next (reading : Reading) (c : Char) : Option Reading :=
  match reading.lexing with
  | .outside =>
    if c = '"' then some { reading with lexing := .string false }
    else if c = '{' ∨ c = '[' then
      if reading.depth < decodeMaxDepth then some { reading with depth := reading.depth + 1 } else none
    else if c = '}' ∨ c = ']' then some { reading with depth := reading.depth - 1 }
    else some reading
  | .string paired =>
    if c = '\\' then some { reading with lexing := .escape paired }
    else if paired then none
    else if c = '"' then some { reading with lexing := .outside }
    else some reading
  | .escape paired =>
    if c = 'u' then some { reading with lexing := .unicode paired 0 0 }
    else if paired then none
    else some { reading with lexing := .string false }
  | .unicode paired digits codeUnit =>
    let codeUnit := 16 * codeUnit + hexDigit c
    if digits < 3 then some { reading with lexing := .unicode paired (digits + 1) codeUnit }
    else if paired = decide (0xDC00 ≤ codeUnit ∧ codeUnit < 0xE000) then
      some { reading with lexing := .string (decide (0xD800 ≤ codeUnit ∧ codeUnit < 0xDC00)) }
    else none

/-- Lua's `cjson` reads a record with this payload, a JSON text.  The rest of a record is nested less
deeply, and its encoders write no halves of pairs. -/
def cjsonReads (payload : String) : Bool :=
  (payload.toList.foldlM Reading.next ⟨1, .outside⟩).isSome

/-- `json.Unmarshal` into a zero `Job`: keys that are absent or null leave the zero value. -/
def JobJson.toJob (json : JobJson) : Job where
  id := json.id
  jobType := json.jobType
  payload := json.payload
  priority := json.priority
  status := json.status
  maxRetries := json.maxRetries
  retryCount := json.retryCount
  createdAt := json.createdAt
  scheduledAt := json.scheduledAt.join
  startedAt := json.startedAt
  completedAt := json.completedAt
  failedAt := json.failedAt
  errorMessage := json.errorMessage.getD ""
  dependencies := json.dependencies.getD []

/-- What `cjson` makes of the record of a job. -/
def Decoded.ofRecord (id : JobId) (priority : Priority) (payload : String) : Decoded :=
  if cjsonReads payload then .table (.text id) (some priority) else .notTable

instance : Decoding Member where
  cjson
    | .record json => .ofRecord json.id json.priority json.payload
    | .text _ => .notTable
  unmarshal
    | .record json => some json.toJob
    | .text _ => none

/-- Members written by the two encoders, each with the id of its job.  The scripts find this id, and
the priority, in the members they read. -/
class Encoding (M : Type) extends Decoding M where
  marshal : Job → M
  stringify : EnqueuePayload → M
  idOf : M → Option JobId
  marshal_id : ∀ job, idOf (marshal job) = some job.id
  stringify_id : ∀ payload, idOf (stringify payload) = some payload.id
  marshal_cjson : ∀ job, cjson (marshal job) = .ofRecord job.id job.priority job.payload
  stringify_cjson : ∀ payload,
    cjson (stringify payload) = .ofRecord payload.id payload.priority payload.payload
  cjson_id : ∀ member id priority, cjson member = .table (.text id) priority → idOf member = some id

/-- The `id` that `JSON.parse` finds in a member. -/
def Member.id? : Member → Option JobId
  | .record json => some json.id
  | .text _ => none

instance : Encoding Member where
  marshal := Job.marshal
  stringify := EnqueuePayload.stringify
  idOf := Member.id?
  marshal_id := fun _ => rfl
  stringify_id := fun _ => rfl
  marshal_cjson := fun _ => rfl
  stringify_cjson := fun _ => rfl
  cjson_id := by
    intro member id priority decoded
    cases member with
    | record json =>
      simp only [Decoding.cjson, Decoded.ofRecord] at decoded
      split at decoded
      · cases decoded
        rfl
      · cases decoded
    | text content => cases decoded

/-- What the retry policy reads of a record. -/
structure Brief where
  jobType : String
  retryCount : Int
  deriving DecidableEq, Repr

def Brief.failedOnce (brief : Brief) : Brief :=
  { brief with retryCount := goInt (brief.retryCount + 1) }

def Job.brief (job : Job) : Brief := ⟨job.jobType, job.retryCount⟩

def EnqueuePayload.brief (payload : EnqueuePayload) : Brief := ⟨payload.jobType, payload.retryCount⟩

def Member.brief : Member → Brief
  | .record json => ⟨json.jobType, json.retryCount⟩
  | .text _ => ⟨"", 0⟩

/-- The member is a record of job `id`. -/
def Member.isOf (id : JobId) (member : Member) : Bool := member.id? == some id

@[simp] theorem Member.isOf_iff {id : JobId} {member : Member} :
    member.isOf id = true ↔ member.id? = some id := by
  simp [Member.isOf]

@[simp] theorem Job.marshal_id? (job : Job) : job.marshal.id? = some job.id := rfl

@[simp] theorem EnqueuePayload.stringify_id? (payload : EnqueuePayload) :
    payload.stringify.id? = some payload.id := rfl

@[simp] theorem Job.marshal_brief (job : Job) : job.marshal.brief = job.brief := rfl

@[simp] theorem EnqueuePayload.stringify_brief (payload : EnqueuePayload) :
    payload.stringify.brief = payload.brief := rfl

theorem toJob_of_marshal (job : Job) : Decoding.unmarshal job.marshal = some job := by
  obtain ⟨_, _, _, _, _, _, _, _, scheduledAt, _, _, _, errorMessage, dependencies⟩ := job
  have text : (omitEmptyString errorMessage).getD "" = errorMessage := by
    unfold omitEmptyString; split <;> simp_all
  have ids : (omitEmptyList dependencies).getD [] = dependencies := by
    unfold omitEmptyList; split <;> simp_all
  have time : (scheduledAt.map some).join = scheduledAt := by cases scheduledAt <;> rfl
  simp only [Decoding.unmarshal, Job.marshal, JobJson.toJob, text, ids, time]

end Taskfire

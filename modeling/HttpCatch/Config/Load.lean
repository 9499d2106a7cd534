import HttpCatch.Library.Decimal
import HttpCatch.Library.HostPort
import HttpCatch.Redact.Ruleset

/-!
# The configuration

`internal/config`: `Load` takes the defaults, lets the settings of a YAML document and then
those of the environment replace them, and rejects the result when `Validate` finds anything
wrong with it. What the YAML library, `time.ParseDuration` and the file system do is a
parameter (`Runtime`); a document is what `yaml.Unmarshal` makes of it, with a nil pointer for
each setting that is not there.

* `validate_eq_nil` — what `Validate` checks, all together (`Valid`).
* `load_ok` — a configuration that is loaded is valid, has a bind address, and its admin token
  is the one of the environment, or else of the document, or else empty.
* `load_safe` — so it is safe to run exactly when that token is: `Validate` does not look at it.
-/

namespace HttpCatch

open HttpCatch.Go HttpCatch.Redact

namespace Config

/-! ### Settings -/

/-- `TimeoutsConfig`; a duration is a number of nanoseconds. -/
structure TimeoutsConfig where
  readHeader : ℤ
  read : ℤ
  write : ℤ
  idle : ℤ

/-- `SinksRetentionConfig`. -/
structure SinksRetentionConfig where
  maxAge : ℤ
  maxCount : ℤ
  interval : ℤ

/-- `SinksConfig`. -/
structure SinksConfig where
  stdout : Bool
  memory : Bool
  memoryCapacity : ℤ
  sqlite : Bool
  sqlitePath : GoString
  retention : SinksRetentionConfig

/-- `AdminConfig`. -/
structure AdminConfig where
  bind : GoString
  token : GoString
  insecureListen : Bool
  sessionTTL : ℤ
  sessionSecure : Bool

end Config

open Config in
/-- `Config`; `InspectConfig` is its one field. -/
structure Config where
  capturePort : ℤ
  captureBind : GoString
  queueSize : ℤ
  bodyCap : ℤ
  maxEventsPayload : ℤ
  maxEventsPerBatch : ℤ
  workers : ℤ
  serviceHeader : GoString
  logFormat : GoString
  timeouts : TimeoutsConfig
  sinks : SinksConfig
  redaction : RedactionConfig
  admin : AdminConfig
  queryTimeout : ℤ

namespace Config

/-- `rawTimeoutsConfig`. -/
structure RawTimeouts where
  readHeader : Option GoString
  read : Option GoString
  write : Option GoString
  idle : Option GoString

/-- `rawSinksRetentionConfig`. -/
structure RawRetention where
  maxAge : Option GoString
  maxCount : Option ℤ
  interval : Option GoString

/-- `rawSinks`. -/
structure RawSinks where
  stdout : Option Bool
  memory : Option Bool
  memoryCapacity : Option ℤ
  sqlite : Option Bool
  sqlitePath : Option GoString
  retention : Option RawRetention

/-- `rawAdminConfig`. -/
structure RawAdmin where
  bind : Option GoString
  token : Option GoString
  insecureListen : Option Bool
  sessionTTL : Option GoString
  sessionSecure : Option Bool

/-- `rawConfig`; of `inspect`, the outer option is the pointer to the section. -/
structure RawConfig where
  capturePort : Option ℤ
  captureBind : Option GoString
  queueSize : Option ℤ
  bodyCap : Option ℤ
  maxEventsPayload : Option ℤ
  maxEventsPerBatch : Option ℤ
  workers : Option ℤ
  serviceHeader : Option GoString
  logFormat : Option GoString
  timeouts : Option RawTimeouts
  sinks : RawSinks
  redaction : Option RedactionConfig
  admin : Option RawAdmin
  inspect : Option (Option GoString)

/-- What `Load` rests on. -/
structure Runtime where
  /-- `runtime.NumCPU`. -/
  numCPU : ℤ
  /-- `time.ParseDuration`. -/
  parseDuration : GoString → Except GoString ℤ
  /-- `Duration.String`. -/
  durationString : ℤ → GoString
  /-- The verb `%q`. -/
  quote : GoString → GoString
  /-- `os.ReadFile`. -/
  readFile : GoString → Except GoString GoString
  /-- `yaml.Unmarshal` into a `rawConfig`; the sections `timeouts`, `sinks.retention`,
  `redaction`, `admin` and `inspect` reject unknown keys. -/
  unmarshal : GoString → Except GoString RawConfig
  unicode : Unicode

/-- A number of seconds. -/
def seconds (n : ℤ) : ℤ := n * 10 ^ 9

/-- `Defaults`. -/
def defaults (rt : Runtime) : Config where
  capturePort := 8080
  captureBind := []
  queueSize := 1024
  bodyCap := 1048576
  maxEventsPayload := 1048576
  maxEventsPerBatch := 1000
  workers := rt.numCPU
  serviceHeader := str "X-Httpcatch-Service"
  logFormat := str "text"
  timeouts := ⟨seconds 10, seconds 60, seconds 30, seconds 120⟩
  sinks := ⟨false, false, 1000, false, str "./httpcatch.db", ⟨0, 0, 0⟩⟩
  redaction := ⟨[], [], [], [], []⟩
  admin := ⟨str "127.0.0.1:8081", [], false, seconds 86400, false⟩
  queryTimeout := seconds 5

/-! ### The document -/

/-- A setting that cannot be read. -/
inductive SettingError where
  /-- `%s: invalid duration %q: %w`. -/
  | duration (name value err : GoString)
  /-- `%s: invalid integer %q: %w`. -/
  | integer (name value : GoString)
  /-- `%s: invalid boolean %q: must be true/1 or false/0`. -/
  | boolean (name value : GoString)
  /-- `HTTPCATCH_SINKS: unknown sink %q`. -/
  | sink (name : GoString)
  deriving DecidableEq

section Apply

variable (rt : Runtime)

/-- A duration of the document replaces `dst`, if there is one. -/
def rawDuration (name : String) (src : Option GoString) (dst : ℤ) : Except SettingError ℤ :=
  match src with
  | none => .ok dst
  | some s =>
    match rt.parseDuration s with
    | .ok d => .ok d
    | .error err => .error (.duration (str name) s err)

/-- `applyRaw`, on `timeouts`. -/
def applyRawTimeouts (t : TimeoutsConfig) : Option RawTimeouts → Except SettingError TimeoutsConfig
  | none => .ok t
  | some raw => do
    let readHeader ← rawDuration rt "timeouts.read_header" raw.readHeader t.readHeader
    let read ← rawDuration rt "timeouts.read" raw.read t.read
    let write ← rawDuration rt "timeouts.write" raw.write t.write
    let idle ← rawDuration rt "timeouts.idle" raw.idle t.idle
    return { readHeader, read, write, idle }

/-- `applyRaw`, on `sinks.retention`. -/
def applyRawRetention (r : SinksRetentionConfig) :
    Option RawRetention → Except SettingError SinksRetentionConfig
  | none => .ok r
  | some raw => do
    let maxAge ← rawDuration rt "sinks.retention.max_age" raw.maxAge r.maxAge
    let interval ← rawDuration rt "sinks.retention.interval" raw.interval r.interval
    return { maxAge, maxCount := raw.maxCount.getD r.maxCount, interval }

/-- `applyRaw`, on `redaction`: rules of the last two kinds are copied only if there are any. -/
def applyRawRedaction (r : RedactionConfig) : Option RedactionConfig → RedactionConfig
  | none => r
  | some raw => {
      headers := raw.headers
      queryParams := raw.queryParams
      jsonPaths := raw.jsonPaths
      regex := if 0 < raw.regex.length then raw.regex else r.regex
      cookies := if 0 < raw.cookies.length then raw.cookies else r.cookies }

/-- `applyRaw`, on `admin`. -/
def applyRawAdmin (a : AdminConfig) : Option RawAdmin → Except SettingError AdminConfig
  | none => .ok a
  | some raw => do
    let sessionTTL ← rawDuration rt "admin.session_ttl" raw.sessionTTL a.sessionTTL
    return {
      bind := raw.bind.getD a.bind
      token := raw.token.getD a.token
      insecureListen := raw.insecureListen.getD a.insecureListen
      sessionTTL
      sessionSecure := raw.sessionSecure.getD a.sessionSecure }

/-- `applyRaw`. -/
def applyRaw (cfg : Config) (raw : RawConfig) : Except SettingError Config := do
  let timeouts ← applyRawTimeouts rt cfg.timeouts raw.timeouts
  let retention ← applyRawRetention rt cfg.sinks.retention raw.sinks.retention
  let admin ← applyRawAdmin rt cfg.admin raw.admin
  let queryTimeout ← rawDuration rt "inspect.query_timeout" (raw.inspect.getD none) cfg.queryTimeout
  return {
    capturePort := raw.capturePort.getD cfg.capturePort
    captureBind := raw.captureBind.getD cfg.captureBind
    queueSize := raw.queueSize.getD cfg.queueSize
    bodyCap := raw.bodyCap.getD cfg.bodyCap
    maxEventsPayload := raw.maxEventsPayload.getD cfg.maxEventsPayload
    maxEventsPerBatch := raw.maxEventsPerBatch.getD cfg.maxEventsPerBatch
    workers := raw.workers.getD cfg.workers
    serviceHeader := raw.serviceHeader.getD cfg.serviceHeader
    logFormat := raw.logFormat.getD cfg.logFormat
    timeouts
    sinks := {
      stdout := raw.sinks.stdout.getD cfg.sinks.stdout
      memory := raw.sinks.memory.getD cfg.sinks.memory
      memoryCapacity := raw.sinks.memoryCapacity.getD cfg.sinks.memoryCapacity
      sqlite := raw.sinks.sqlite.getD cfg.sinks.sqlite
      sqlitePath := raw.sinks.sqlitePath.getD cfg.sinks.sqlitePath
      retention }
    redaction := applyRawRedaction cfg.redaction raw.redaction
    admin
    queryTimeout }

/-! ### The environment -/

variable (env : GoString → GoString)

/-- A variable that is set replaces a text. -/
def envText (name : String) (dest : GoString) : GoString :=
  if env (str name) = [] then dest else env (str name)

/-- A variable that is set replaces a number. -/
def envInt (name : String) (dest : ℤ) : Except SettingError ℤ :=
  if env (str name) = [] then .ok dest
  else
    match atoi (env (str name)) with
    | some n => .ok n
    | none => .error (.integer (str name) (env (str name)))

/-- A variable that is set replaces a duration. -/
def envDuration (name : String) (dest : ℤ) : Except SettingError ℤ :=
  rawDuration rt name (if env (str name) = [] then none else some (env (str name))) dest

/-- `parseBoolEnv`. -/
def parseBoolEnv (name : String) (v : GoString) : Except SettingError Bool :=
  if v = str "true" ∨ v = str "1" then .ok true
  else if v = str "false" ∨ v = str "0" then .ok false
  else .error (.boolean (str name) v)

/-- A variable that is set replaces a flag. -/
def envBool (name : String) (dest : Bool) : Except SettingError Bool :=
  if env (str name) = [] then .ok dest else parseBoolEnv name (env (str name))

/-- The loop over the names of `HTTPCATCH_SINKS`. -/
def enableSinks (s : SinksConfig) : List GoString → Except SettingError SinksConfig
  | [] => .ok s
  | name :: names =>
    let key := toLower rt.unicode (trimSpace name)
    if key = str "stdout" then enableSinks { s with stdout := true } names
    else if key = str "memory" then enableSinks { s with memory := true } names
    else if key = str "sqlite" then enableSinks { s with sqlite := true } names
    else .error (.sink name)

/-- `applyEnv`, on `HTTPCATCH_SINKS`: the names are what is between commas, where that is not
empty. -/
def applyEnvSinks (s : SinksConfig) : Except SettingError SinksConfig :=
  let v := env (str "HTTPCATCH_SINKS")
  if v = [] then .ok s
  else enableSinks rt { s with stdout := false, memory := false, sqlite := false }
    ((split v 0x2C).filter (· ≠ []))

/-- `applyEnv`, on the variables of `admin`. -/
def applyEnvAdmin (a : AdminConfig) : Except SettingError AdminConfig := do
  let insecureListen ← envBool env "HTTPCATCH_ADMIN_INSECURE_LISTEN" a.insecureListen
  let sessionTTL ← envDuration rt env "HTTPCATCH_ADMIN_SESSION_TTL" a.sessionTTL
  let sessionSecure ← envBool env "HTTPCATCH_ADMIN_SESSION_SECURE" a.sessionSecure
  return {
    bind := envText env "HTTPCATCH_ADMIN_BIND" a.bind
    token := envText env "HTTPCATCH_ADMIN_TOKEN" a.token
    insecureListen, sessionTTL, sessionSecure }

/-- `applyEnv`. -/
def applyEnv (cfg : Config) : Except SettingError Config := do
  let capturePort ← envInt env "HTTPCATCH_CAPTURE_PORT" cfg.capturePort
  let queueSize ← envInt env "HTTPCATCH_QUEUE_SIZE" cfg.queueSize
  let bodyCap ← envInt env "HTTPCATCH_BODY_CAP" cfg.bodyCap
  let maxEventsPayload ← envInt env "HTTPCATCH_MAX_EVENTS_PAYLOAD" cfg.maxEventsPayload
  let maxEventsPerBatch ← envInt env "HTTPCATCH_MAX_EVENTS_PER_BATCH" cfg.maxEventsPerBatch
  let workers ← envInt env "HTTPCATCH_WORKER_COUNT" cfg.workers
  let memoryCapacity ← envInt env "HTTPCATCH_MEMORY_CAPACITY" cfg.sinks.memoryCapacity
  let maxAge ← envDuration rt env "HTTPCATCH_SINKS_RETENTION_MAX_AGE" cfg.sinks.retention.maxAge
  let interval ← envDuration rt env "HTTPCATCH_SINKS_RETENTION_INTERVAL"
      cfg.sinks.retention.interval
  let maxCount ← envInt env "HTTPCATCH_SINKS_RETENTION_MAX_COUNT" cfg.sinks.retention.maxCount
  let sinks ← applyEnvSinks rt env {
    cfg.sinks with
    memoryCapacity, sqlitePath := envText env "HTTPCATCH_SQLITE_PATH" cfg.sinks.sqlitePath
    retention := { maxAge, maxCount, interval } }
  let readHeader ← envDuration rt env "HTTPCATCH_READ_HEADER_TIMEOUT" cfg.timeouts.readHeader
  let read ← envDuration rt env "HTTPCATCH_READ_TIMEOUT" cfg.timeouts.read
  let write ← envDuration rt env "HTTPCATCH_WRITE_TIMEOUT" cfg.timeouts.write
  let idle ← envDuration rt env "HTTPCATCH_IDLE_TIMEOUT" cfg.timeouts.idle
  let admin ← applyEnvAdmin rt env cfg.admin
  let queryTimeout ← envDuration rt env "HTTPCATCH_INSPECT_QUERY_TIMEOUT" cfg.queryTimeout
  return {
    cfg with
    capturePort, queueSize, bodyCap, maxEventsPayload, maxEventsPerBatch, workers, sinks, admin,
    queryTimeout
    captureBind := envText env "HTTPCATCH_CAPTURE_BIND" cfg.captureBind
    serviceHeader := envText env "HTTPCATCH_SERVICE_HEADER" cfg.serviceHeader
    logFormat := envText env "HTTPCATCH_LOG_FORMAT" cfg.logFormat
    timeouts := { readHeader, read, write, idle } }

end Apply

/-! ### Validation -/

/-- A finding of `Validate`: `field: must`, and the value where it is told. -/
structure FieldError where
  field : GoString
  must : GoString
  got : Option GoString
  deriving DecidableEq

/-- The text of a finding. -/
def FieldError.text (e : FieldError) : GoString :=
  e.field ++ str ": " ++ e.must ++ (e.got.map fun v => str ", got " ++ v).getD []

/-- A check: the finding where something is wrong. -/
def check (wrong : Bool) (e : FieldError) : List FieldError := if wrong then [e] else []

/-- The check of a lower bound. -/
def atLeast (field : String) (bound value : ℤ) (shown : GoString) : List FieldError :=
  check (value < bound) ⟨str field, str "must be >= " ++ sprintDecimal bound, some shown⟩

/-- `host:port` with a port from 1 to 65535. -/
def isHostPort (bind : GoString) : Bool :=
  match splitHostPort bind with
  | .error _ => false
  | .ok (_, port) =>
    match atoi port with
    | none => false
    | some p => 1 ≤ p ∧ p ≤ 65535

/-- `Config.Validate`: what `errors.Join` gets. -/
def validate (rt : Runtime) (c : Config) : List FieldError :=
  check (c.capturePort < 1 ∨ 65535 < c.capturePort)
    ⟨str "capture_port", str "must be 1-65535", some (sprintDecimal c.capturePort)⟩ ++
  check (c.captureBind ≠ [] ∧ ¬isHostPort c.captureBind)
    ⟨str "capture_bind", str "must be host:port with port 1-65535", none⟩ ++
  atLeast "queue_size" 1 c.queueSize (sprintDecimal c.queueSize) ++
  atLeast "workers" 1 c.workers (sprintDecimal c.workers) ++
  atLeast "body_cap" 0 c.bodyCap (sprintDecimal c.bodyCap) ++
  atLeast "max_events_payload" 0 c.maxEventsPayload (sprintDecimal c.maxEventsPayload) ++
  atLeast "max_events_per_batch" 0 c.maxEventsPerBatch (sprintDecimal c.maxEventsPerBatch) ++
  atLeast "timeouts.read_header" 0 c.timeouts.readHeader
    (rt.durationString c.timeouts.readHeader) ++
  atLeast "timeouts.read" 0 c.timeouts.read (rt.durationString c.timeouts.read) ++
  atLeast "timeouts.write" 0 c.timeouts.write (rt.durationString c.timeouts.write) ++
  atLeast "timeouts.idle" 0 c.timeouts.idle (rt.durationString c.timeouts.idle) ++
  atLeast "sinks.memory_capacity" 1 c.sinks.memoryCapacity (sprintDecimal c.sinks.memoryCapacity) ++
  check (c.sinks.sqlite ∧ c.sinks.sqlitePath = [])
    ⟨str "sinks.sqlite_path", str "must be set when sinks.sqlite is true", none⟩ ++
  check (0 < c.sinks.retention.maxAge ∧ 0 < c.sinks.retention.maxCount)
    ⟨str "sinks.retention", str "max_age and max_count are mutually exclusive", none⟩ ++
  atLeast "sinks.retention.max_age" 0 c.sinks.retention.maxAge
    (rt.durationString c.sinks.retention.maxAge) ++
  atLeast "sinks.retention.max_count" 0 c.sinks.retention.maxCount
    (sprintDecimal c.sinks.retention.maxCount) ++
  atLeast "sinks.retention.interval" 0 c.sinks.retention.interval
    (rt.durationString c.sinks.retention.interval) ++
  check ((0 < c.sinks.retention.maxAge ∨ 0 < c.sinks.retention.maxCount ∨
    0 < c.sinks.retention.interval) ∧ !c.sinks.sqlite)
    ⟨str "sinks.retention", str "requires sinks.sqlite: true", none⟩ ++
  check (c.logFormat ≠ str "text" ∧ c.logFormat ≠ str "json")
    ⟨str "log_format", str "must be " ++ rt.quote (str "text") ++ str " or " ++
      rt.quote (str "json"), some (rt.quote c.logFormat)⟩ ++
  check (c.admin.sessionTTL ≤ 0)
    ⟨str "admin.session_ttl", str "must be > 0", some (rt.durationString c.admin.sessionTTL)⟩ ++
  atLeast "inspect.query_timeout" 0 c.queryTimeout (rt.durationString c.queryTimeout)

/-! ### Loading -/

/-- The errors of `Load`. -/
inductive LoadError where
  /-- `read config %q: %w`. -/
  | read (path err : GoString)
  /-- `parse config %q: %w`, of the YAML library. -/
  | yaml (path err : GoString)
  /-- `parse config %q: %w`, of `applyRaw`. -/
  | setting (path : GoString) (err : SettingError)
  /-- An error of `applyEnv`. -/
  | env (err : SettingError)
  /-- What `Validate` found. -/
  | invalid (errs : List FieldError)
  deriving DecidableEq

section Load

variable (rt : Runtime) (path : GoString) (env : GoString → GoString)

/-- The document, if a path is given. -/
def readRaw : Except LoadError (Option RawConfig) :=
  if path = [] then .ok none
  else
    match rt.readFile path with
    | .error err => .error (.read path err)
    | .ok data =>
      match rt.unmarshal data with
      | .error err => .error (.yaml path err)
      | .ok raw => .ok (some raw)

/-- The defaults with the settings of the document. -/
def withRaw : Option RawConfig → Except LoadError Config
  | none => .ok (defaults rt)
  | some raw => (applyRaw rt (defaults rt) raw).mapError (.setting path)

/-- A configuration without a bind address listens on all interfaces. -/
def withBind (cfg : Config) : Config :=
  if cfg.captureBind = [] then
    { cfg with captureBind := str "0.0.0.0:" ++ sprintDecimal cfg.capturePort }
  else cfg

/-- `Load`. -/
def load : Except LoadError Config := do
  let raw ← readRaw rt path
  let cfg ← withRaw rt path raw
  let cfg ← (applyEnv rt env cfg).mapError .env
  match validate rt (withBind cfg) with
  | [] => .ok (withBind cfg)
  | errs => .error (.invalid errs)

end Load

/-! ### What `Validate` checks -/

/-- Everything that `Validate` asks for. -/
structure Valid (c : Config) : Prop where
  capturePort : 1 ≤ c.capturePort ∧ c.capturePort ≤ 65535
  captureBind : c.captureBind ≠ [] → isHostPort c.captureBind = true
  queueSize : 1 ≤ c.queueSize
  workers : 1 ≤ c.workers
  bodyCap : 0 ≤ c.bodyCap
  maxEventsPayload : 0 ≤ c.maxEventsPayload
  maxEventsPerBatch : 0 ≤ c.maxEventsPerBatch
  timeouts : 0 ≤ c.timeouts.readHeader ∧ 0 ≤ c.timeouts.read ∧ 0 ≤ c.timeouts.write ∧
    0 ≤ c.timeouts.idle
  memoryCapacity : 1 ≤ c.sinks.memoryCapacity
  sqlitePath : c.sinks.sqlite = true → c.sinks.sqlitePath ≠ []
  exclusive : 0 < c.sinks.retention.maxAge → c.sinks.retention.maxCount ≤ 0
  retention : 0 ≤ c.sinks.retention.maxAge ∧ 0 ≤ c.sinks.retention.maxCount ∧
    0 ≤ c.sinks.retention.interval
  sqlite : 0 < c.sinks.retention.maxAge ∨ 0 < c.sinks.retention.maxCount ∨
    0 < c.sinks.retention.interval →
    c.sinks.sqlite = true
  logFormat : c.logFormat = str "text" ∨ c.logFormat = str "json"
  sessionTTL : 0 < c.admin.sessionTTL
  queryTimeout : 0 ≤ c.queryTimeout

theorem check_eq_nil {p : Prop} [Decidable p] {e : FieldError} : check p e = [] ↔ ¬p := by
  by_cases h : p <;> simp [check, h]

theorem atLeast_eq_nil {field : String} {bound value : ℤ} {shown : GoString} :
    atLeast field bound value shown = [] ↔ bound ≤ value := by
  rw [atLeast, check_eq_nil, not_lt]

/-- **`Validate` finds nothing exactly when the configuration is valid.** -/
theorem validate_eq_nil {rt : Runtime} {c : Config} : validate rt c = [] ↔ Valid c := by
  unfold validate
  simp only [List.append_eq_nil_iff, atLeast_eq_nil, check_eq_nil, not_or, not_and, not_lt, not_le,
    not_not, ne_eq, Bool.not_eq_true', Bool.not_eq_false, and_assoc]
  constructor
  · rintro ⟨h₁, h₂, h₃, h₄, h₅, h₆, h₇, h₈, h₉, h₁₀, h₁₁, h₁₂, h₁₃, h₁₄, h₁₅, h₁₆, h₁₇, h₁₈, h₁₉,
      h₂₀, h₂₁, h₂₂⟩
    exact ⟨⟨h₁, h₂⟩, h₃, h₄, h₅, h₆, h₇, h₈, ⟨h₉, h₁₀, h₁₁, h₁₂⟩, h₁₃, h₁₄, h₁₅,
      ⟨h₁₆, h₁₇, h₁₈⟩, h₁₉, or_iff_not_imp_left.mpr h₂₀, h₂₁, h₂₂⟩
  · intro h
    exact ⟨h.capturePort.1, h.capturePort.2, h.captureBind, h.queueSize, h.workers, h.bodyCap,
      h.maxEventsPayload, h.maxEventsPerBatch, h.timeouts.1, h.timeouts.2.1, h.timeouts.2.2.1,
      h.timeouts.2.2.2, h.memoryCapacity, h.sqlitePath, h.exclusive, h.retention.1, h.retention.2.1,
      h.retention.2.2, h.sqlite, or_iff_not_imp_left.mp h.logFormat, h.sessionTTL, h.queryTimeout⟩

/-- A machine with one processor and no files. -/
def bare : Runtime where
  numCPU := 1
  parseDuration _ := .error []
  durationString _ := []
  quote s := s
  readFile _ := .error []
  unmarshal _ := .error []
  unicode := .asciiOnly

example : (validate bare { defaults bare with queueSize := 0 }).map FieldError.text =
    [str "queue_size: must be >= 1, got 0"] := by decide

/-! ### What `Load` returns -/

section Loaded

variable {rt : Runtime} {path : GoString} {env : GoString → GoString}

theorem bind_eq_ok {ε α β : Type} {x : Except ε α} {f : α → Except ε β} {b : β} :
    (x >>= f) = .ok b ↔ ∃ a, x = .ok a ∧ f a = .ok b := by
  cases x <;> simp [bind, Except.bind]

theorem mapError_eq_ok {ε ε' α : Type} {x : Except ε α} {f : ε → ε'} {a : α} :
    x.mapError f = .ok a ↔ x = .ok a := by
  cases x <;> simp [Except.mapError]

/-- The token that the document gives. -/
def RawConfig.token (raw : RawConfig) : Option GoString := raw.admin.bind RawAdmin.token

theorem applyRawAdmin_token {a a' : AdminConfig} {raw : Option RawAdmin}
    (h : applyRawAdmin rt a raw = .ok a') :
    a'.token = (raw.bind RawAdmin.token).getD a.token := by
  cases raw with
  | none => cases h; rfl
  | some raw =>
    obtain ⟨ttl, -, h⟩ := bind_eq_ok.mp h
    cases h
    rfl

theorem applyRaw_token {cfg cfg' : Config} {raw : RawConfig} (h : applyRaw rt cfg raw = .ok cfg') :
    cfg'.admin.token = raw.token.getD cfg.admin.token := by
  obtain ⟨timeouts, -, h⟩ := bind_eq_ok.mp h
  obtain ⟨retention, -, h⟩ := bind_eq_ok.mp h
  obtain ⟨admin, hadmin, h⟩ := bind_eq_ok.mp h
  obtain ⟨queryTimeout, -, h⟩ := bind_eq_ok.mp h
  cases h
  exact applyRawAdmin_token hadmin

theorem applyEnvAdmin_token {a a' : AdminConfig} (h : applyEnvAdmin rt env a = .ok a') :
    a'.token = envText env "HTTPCATCH_ADMIN_TOKEN" a.token := by
  obtain ⟨insecureListen, -, h⟩ := bind_eq_ok.mp h
  obtain ⟨sessionTTL, -, h⟩ := bind_eq_ok.mp h
  obtain ⟨sessionSecure, -, h⟩ := bind_eq_ok.mp h
  cases h
  rfl

theorem applyEnv_token {cfg cfg' : Config} (h : applyEnv rt env cfg = .ok cfg') :
    cfg'.admin.token = envText env "HTTPCATCH_ADMIN_TOKEN" cfg.admin.token := by
  simp only [applyEnv, bind_eq_ok] at h
  obtain ⟨_, -, _, -, _, -, _, -, _, -, _, -, _, -, _, -, _, -, _, -, _, -, _, -, _, -, _, -, _, -,
      admin, hadmin, _, -, h⟩ := h
  cases h
  exact applyEnvAdmin_token hadmin

theorem withBind_captureBind (cfg : Config) : (withBind cfg).captureBind ≠ [] := by
  rw [withBind]
  split_ifs with h
  · exact List.append_ne_nil_of_left_ne_nil (by decide) _
  · exact h

theorem withBind_admin (cfg : Config) : (withBind cfg).admin = cfg.admin := by
  rw [withBind]
  split_ifs <;> rfl

/-- The admin token that a document and an environment come to. -/
def effectiveToken (raw : Option RawConfig) (env : GoString → GoString) : GoString :=
  envText env "HTTPCATCH_ADMIN_TOKEN" ((raw.bind RawConfig.token).getD [])

/-- **A configuration that is loaded** is valid, has a bind address and the token of the
environment, or else of the document. -/
theorem load_ok {cfg : Config} (h : load rt path env = .ok cfg) :
    ∃ raw, readRaw rt path = .ok raw ∧ Valid cfg ∧ cfg.captureBind ≠ [] ∧
      cfg.admin.token = effectiveToken raw env := by
  obtain ⟨raw, hraw, h⟩ := bind_eq_ok.mp h
  obtain ⟨cfg₁, h₁, h⟩ := bind_eq_ok.mp h
  obtain ⟨cfg₂, h₂, h⟩ := bind_eq_ok.mp h
  have htoken : cfg₁.admin.token = (raw.bind RawConfig.token).getD [] := by
    cases raw with
    | none => cases h₁; rfl
    | some raw => exact applyRaw_token (mapError_eq_ok.mp h₁)
  split at h
  · rename_i hvalid
    cases h
    refine ⟨raw, hraw, validate_eq_nil.mp hvalid, withBind_captureBind cfg₂, ?_⟩
    rw [withBind_admin, applyEnv_token (mapError_eq_ok.mp h₂), htoken]
    rfl
  · cases h

end Loaded

/-! ### Safe configurations -/

/-- The number of characters of a text, as `utf8.RuneCountInString` counts them. -/
def runeCount (s : GoString) : ℕ := (pieces s).length

/-- A token that is empty or not too short. -/
def SafeToken (token : GoString) : Prop := token = [] ∨ 32 ≤ runeCount token

instance (token : GoString) : Decidable (SafeToken token) := inferInstanceAs (Decidable (_ ∨ _))

/-- What a configuration that is safe to run has. -/
structure Safe (c : Config) : Prop where
  token : SafeToken c.admin.token
  sessionTTL : 0 < c.admin.sessionTTL
  atLeastOne : 1 ≤ c.queueSize ∧ 1 ≤ c.workers ∧ 1 ≤ c.sinks.memoryCapacity
  caps : 0 ≤ c.bodyCap ∧ 0 ≤ c.maxEventsPayload ∧ 0 ≤ c.maxEventsPerBatch
  timeouts : 0 ≤ c.timeouts.readHeader ∧ 0 ≤ c.timeouts.read ∧ 0 ≤ c.timeouts.write ∧
    0 ≤ c.timeouts.idle ∧ 0 ≤ c.queryTimeout
  retention : 0 ≤ c.sinks.retention.maxAge ∧ 0 ≤ c.sinks.retention.maxCount ∧
    0 ≤ c.sinks.retention.interval
  exclusive : ¬(0 < c.sinks.retention.maxAge ∧ 0 < c.sinks.retention.maxCount)
  sqlite : 0 < c.sinks.retention.maxAge ∨ 0 < c.sinks.retention.maxCount → c.sinks.sqlite = true
  captureBind : c.captureBind ≠ [] ∧ ∃ host port p, splitHostPort c.captureBind = .ok (host, port) ∧
    (c.captureBind = host ++ 0x3A :: port ∨
      c.captureBind = 0x5B :: (host ++ 0x5D :: 0x3A :: port)) ∧
    atoi port = some p ∧ 1 ≤ p ∧ p ≤ 65535

theorem isHostPort_iff {bind : GoString} :
    isHostPort bind = true ↔ ∃ host port p, splitHostPort bind = .ok (host, port) ∧ atoi port =
      some p ∧ 1 ≤ p ∧ p ≤ 65535 := by
  rw [isHostPort]
  cases h : splitHostPort bind with
  | error err => simp
  | ok hostport =>
    obtain ⟨host, port⟩ := hostport
    cases hp : atoi port with
    | none => simp [hp]
    | some p => simp [hp]

/-- A valid configuration with a bind address is safe but for its token. -/
theorem safe_iff {c : Config} (h : Valid c) (hbind : c.captureBind ≠ []) :
    Safe c ↔ SafeToken c.admin.token := by
  refine ⟨Safe.token, fun htoken => ?_⟩
  obtain ⟨host, port, p, hsplit, hport⟩ := isHostPort_iff.mp (h.captureBind hbind)
  exact {
    token := htoken
    sessionTTL := h.sessionTTL
    atLeastOne := ⟨h.queueSize, h.workers, h.memoryCapacity⟩
    caps := ⟨h.bodyCap, h.maxEventsPayload, h.maxEventsPerBatch⟩
    timeouts := ⟨h.timeouts.1, h.timeouts.2.1, h.timeouts.2.2.1, h.timeouts.2.2.2, h.queryTimeout⟩
    retention := h.retention
    exclusive := fun hboth => absurd (h.exclusive hboth.1) (not_le.mpr hboth.2)
    sqlite := fun hset => h.sqlite (hset.imp_right .inl)
    captureBind := ⟨hbind, host, port, p, hsplit, splitHostPort_text hsplit, hport⟩ }

/-- **A configuration that `Load` accepts is safe to run exactly when its admin token is empty
or long enough.** Nothing else can be wrong with it, and nothing checks the token. -/
theorem load_safe (rt : Runtime) (path : GoString) (env : GoString → GoString) (cfg : Config)
    (h : load rt path env = .ok cfg) :
    ∃ raw, readRaw rt path = .ok raw ∧ (Safe cfg ↔ SafeToken (effectiveToken raw env)) := by
  obtain ⟨raw, hraw, hvalid, hbind, htoken⟩ := load_ok h
  refine ⟨raw, hraw, ?_⟩
  rw [safe_iff hvalid hbind, htoken]

/-- A document that sets the size of the queue, a short token and the sink SQLite. -/
def shortDocument : RawConfig where
  capturePort := none
  captureBind := none
  queueSize := some 16
  bodyCap := none
  maxEventsPayload := none
  maxEventsPerBatch := none
  workers := none
  serviceHeader := none
  logFormat := none
  timeouts := none
  sinks := ⟨none, none, none, some true, none, none⟩
  redaction := none
  admin := some ⟨none, some (str "x"), none, none, none⟩
  inspect := none

/-- A machine where the document is. -/
def furnished : Runtime :=
  { bare with readFile := fun _ => .ok [], unmarshal := fun _ => .ok shortDocument }

/-- A longer token, and a larger queue. -/
def overriding (name : GoString) : GoString :=
  if name = str "HTTPCATCH_ADMIN_TOKEN" then str "0123456789abcdef0123456789abcdef"
  else if name = str "HTTPCATCH_QUEUE_SIZE" then str "32"
  else []

/-- The variables override the document, which overrides the defaults; the outcome is safe,
though the token of the document is not. -/
theorem load_safe_overriding :
    ∃ cfg, load furnished (str "c.yaml") overriding = .ok cfg ∧ cfg.queueSize = 32 ∧
      cfg.sinks.sqlite = true ∧ ¬SafeToken (str "x") ∧ Safe cfg := by
  obtain ⟨cfg, hcfg, hqueue, hsqlite⟩ : ∃ cfg, load furnished (str "c.yaml") overriding = .ok cfg ∧
      cfg.queueSize = 32 ∧ cfg.sinks.sqlite = true := ⟨_, rfl, rfl, rfl⟩
  obtain ⟨raw, hraw, hsafe⟩ := load_safe furnished (str "c.yaml") overriding cfg hcfg
  cases hraw
  exact ⟨cfg, hcfg, hqueue, hsqlite, by decide, hsafe.mpr (by decide)⟩

/-- The token `x` is accepted. -/
theorem load_short_token :
    ∃ cfg, load bare [] (fun name => if name = str "HTTPCATCH_ADMIN_TOKEN" then str "x" else []) =
      .ok cfg ∧
      cfg.admin.token = str "x" ∧ ¬Safe cfg := by
  refine ⟨_, rfl, rfl, fun h => ?_⟩
  rcases h.token with h | h
  · cases h
  · exact absurd h (by decide)

end Config

end HttpCatch

import ReviewRota.Error
import ReviewRota.Text.Blank
import ReviewRota.Text.Decimal

/-!
# ReviewRota.Settings

Where the store is and how many connections share it.  Settings come with
defaults, are overridden by five environment variables and are checked
before use.

A number in the environment may be surrounded by blanks, since it is often
written by hand; a path is taken as it stands.
-/

namespace ReviewRota

/-- The settings of a store. -/
structure Settings where
  /-- The file that holds the store. -/
  path : String := "review-assign.db"
  maxConnections : Nat := 5
  minConnections : Nat := 1
  /-- Seconds to wait for a free connection. -/
  acquireTimeout : Nat := 10
  /-- Seconds to wait for the write lock. -/
  busyTimeout : Nat := 30
  deriving DecidableEq, Repr, Inhabited

/-! ## The environment -/

/-- The variables that override a setting, in the order in which they are
read. -/
inductive Variable where
  | path
  | maxConnections
  | minConnections
  | acquireTimeout
  | busyTimeout
  deriving DecidableEq, Repr

/-- The name of a variable. -/
def Variable.name : Variable → String
  | .path => "REVIEW_ASSIGN_DB_PATH"
  | .maxConnections => "REVIEW_ASSIGN_MAX_CONNECTIONS"
  | .minConnections => "REVIEW_ASSIGN_MIN_CONNECTIONS"
  | .acquireTimeout => "REVIEW_ASSIGN_ACQUIRE_TIMEOUT_SECS"
  | .busyTimeout => "REVIEW_ASSIGN_BUSY_TIMEOUT_SECS"

/-- The values of the variables that are set and are text. -/
abbrev Environment := String → Option String

/-- The variables as they are set, byte by byte.  One that is not UTF-8 is as good as
not set. -/
def Environment.ofBytes (bytes : String → Option ByteArray) : Environment :=
  fun name => (bytes name).bind String.fromUTF8?

/-- The number a variable is set to, or the default.  It has to fit the
given number of bits. -/
def Environment.number (env : Environment) (v : Variable) (bits default : Nat) :
    Except Error Nat :=
  match env v.name with
  | none => .ok default
  | some raw =>
    match readNat? (Nat.pow 2 bits) (trim raw.toList) with
    | some n => .ok n
    | none => .error (.invalidInput ("cannot parse '" ++ raw ++ "'") (some v.name))

namespace Settings

/-- The settings of a store at that path, all else by default. -/
def atPath (path : String) : Settings := { path := path }

/-- Refuses settings under which no connection could be opened. -/
def validate (s : Settings) : Except Error Unit :=
  if s.maxConnections = 0 then
    .error (.invalidInput "must be at least 1" (some Variable.maxConnections.name))
  else if s.maxConnections < s.minConnections then
    .error (.invalidInput "must not exceed max_connections" (some Variable.minConnections.name))
  else .ok ()

/-- Whether a first connection is made before the time for it is up. -/
def allowsConnecting (s : Settings) : Bool := 0 < s.acquireTimeout

/-- Whether the time to wait for the write lock can be set: in milliseconds
it has to fit 32 bits with a sign. -/
def allowsWaiting (s : Settings) : Bool := 1000 * s.busyTimeout < 0x80000000

/-- The defaults as the environment overrides them, validated. -/
def ofEnvironment (env : Environment) : Except Error Settings := do
  let base : Settings := {}
  let maxConnections ← env.number .maxConnections 32 base.maxConnections
  let minConnections ← env.number .minConnections 32 base.minConnections
  let acquireTimeout ← env.number .acquireTimeout 64 base.acquireTimeout
  let busyTimeout ← env.number .busyTimeout 64 base.busyTimeout
  let path := (env Variable.path.name).getD base.path
  let settings : Settings :=
    ⟨path, maxConnections, minConnections, acquireTimeout, busyTimeout⟩
  settings.validate
  return settings

end Settings

end ReviewRota

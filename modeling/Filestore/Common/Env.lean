import Mathlib.Data.List.TakeWhile
import Mathlib.Logic.Function.Basic

/-!
# Environment variables

`var`, `var_parsed` and `required_var` read the environment of the process through the library
`dotenvy`, whose first call loads a `.env` file.  The library is a parameter with what it documents
of that.  The environment may be changed between the reads: what a read returns is determined by the
last change of its key since the first read, or else by what that read found and loaded.
-/

namespace Filestore.Common.Env

/-- The value of a variable, which need not be Unicode. -/
inductive EnvValue where
  | unicode (text : String)
  | notUnicode (bytes : List UInt8)
  deriving DecidableEq

abbrev Environment := String → Option EnvValue

inductive VarError where
  | notPresent
  | notUnicode (bytes : List UInt8)

/-- The reading function of the standard library. -/
def envVar (key : String) (env : Environment) : Except VarError String :=
  match env key with
  | some (.unicode text) => .ok text
  | some (.notUnicode bytes) => .error (.notUnicode bytes)
  | none => .error .notPresent

/-! ## The library -/

inductive DotenvyError where
  | lineParse (line : String) (index : ℕ)
  | io (error : String)
  | envVar (error : VarError)

/-- The library `dotenvy`, with a state of its own. -/
structure Dotenvy where
  State : Type
  var : String → State × Environment → (State × Environment) × Except DotenvyError String
  /-- Whether the file has been loaded. -/
  loaded : State → Bool
  /-- The environment with the variables of the file. -/
  load : Environment → Environment
  var_first {state : State} (env : Environment) (key : String) : loaded state = false →
    loaded (var key (state, env)).1.1 = true ∧ (var key (state, env)).1.2 = load env
  var_later {state : State} (env : Environment) (key : String) : loaded state = true →
    (var key (state, env)).1 = (state, env)
  /-- A call returns what the standard library reads after it. -/
  var_result (process : State × Environment) (key : String) :
    (var key process).2 = (envVar key (var key process).1.2).mapError .envVar
  /-- Variables that exist are not overridden. -/
  load_unicode {env : Environment} {key text : String} : env key = some (.unicode text) →
    load env key = some (.unicode text)

/-- A text, with the error that it is about. -/
structure Whatever (Source : Type) where
  message : String
  source : Option Source

section Functions

variable (dotenvy : Dotenvy) (key : String) (process : dotenvy.State × Environment)

/-- Reads an environment variable for the current process. -/
def var : (dotenvy.State × Environment) × Except (Whatever DotenvyError) (Option String) :=
  match dotenvy.var key process with
  | (process, .ok content) => (process, .ok (some content))
  | (process, .error (.envVar .notPresent)) => (process, .ok none)
  | (process, .error error) =>
    (process, .error ⟨s!"Failed to read {key} environment variable", some error⟩)

end Functions

/-- What happens to the environment of a process. -/
inductive Event where
  /-- A call of one of the reading functions. -/
  | read (key : String)
  | setVar (key : String) (value : EnvValue)
  | removeVar (key : String)

namespace Event

def isRead : Event → Bool
  | .read _ => true
  | .setVar _ _ | .removeVar _ => false

/-- What the event writes to a variable, if it does. -/
def write (key : String) : Event → Option (Option EnvValue)
  | .read _ => none
  | .setVar other value => if other = key then some (some value) else none
  | .removeVar other => if other = key then some none else none

end Event

def step (dotenvy : Dotenvy) (process : dotenvy.State × Environment) :
    Event → dotenvy.State × Environment
  | .read key => (var dotenvy key process).1
  | .setVar key value => (process.1, Function.update process.2 key (some value))
  | .removeVar key => (process.1, Function.update process.2 key none)

/-! ## What a read returns -/

/-- The last of the events that write to a variable. -/
def lastWrite (key : String) : List Event → Option (Option EnvValue)
  | [] => none
  | event :: events => (lastWrite key events).or (event.write key)

/-- The events before the first read. -/
def beforeRead (history : List Event) : List Event :=
  history.takeWhile fun event ↦ !event.isRead

/-- The environment that the first read of a history finds. -/
def found (initial : Environment) (history : List Event) : Environment :=
  fun key ↦ (lastWrite key (beforeRead history)).getD (initial key)

variable {dotenvy : Dotenvy}

end Filestore.Common.Env

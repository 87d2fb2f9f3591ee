import Mathlib.Data.List.Basic

/-!
# Worker guards of the global logging

The first initialisation of the process installs the subscriber and returns one guard for each
writer; every later one returns none.  A writer stops when its guard is dropped.
-/

namespace Filestore.Telemetry

/-- The guard of a writer of the installed subscriber. -/
inductive WorkerGuard where
  | stdout
  | file
  | errorFile
  deriving DecidableEq

/-- The options that decide which writers there are. -/
structure LoggingOptions where
  dir : String := ""
  appendStdout : Bool := true

/-- The guards of the first initialisation. -/
def LoggingOptions.writerGuards (opts : LoggingOptions) : List WorkerGuard :=
  (if opts.appendStdout then [.stdout] else []) ++
    if opts.dir = "" then [] else [.file, .errorFile]

/-- The guards that a call returns, by whether the `Once` has run before it. -/
def initGlobalLogging (opts : LoggingOptions) (initialised : Bool) : List WorkerGuard :=
  if initialised then [] else opts.writerGuards

/-- Initialize tracing with default configuration. -/
def initTracingSubscriber (initialised : Bool) : List WorkerGuard :=
  initGlobalLogging {} initialised

end Filestore.Telemetry

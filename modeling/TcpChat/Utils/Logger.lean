import TcpChat.Base.BoundedWriter

/-!
# The logger (utils/src/logger.c)

One thread calls the logger. A call that would wait for the mutex that the thread itself holds
has no result. A message is taken as `vsnprintf` writes it out.
-/

namespace TcpChat.Utils

open Base
set_option autoImplicit false

inductive LogLevel where
  | debug
  | info
  | warn
  | error
  | fatal
  deriving DecidableEq

def LogLevel.toNat : LogLevel → Nat
  | .debug => 0
  | .info => 1
  | .warn => 2
  | .error => 3
  | .fatal => 4

def levelName : LogLevel → CString
  | .debug => "DEBUG"
  | .info => "INFO"
  | .warn => "WARN"
  | .error => "ERROR"
  | .fatal => "FATAL"

def colorReset : CString := "\x1b[0m"
def colorBold : CString := "\x1b[1m"

def levelColor : LogLevel → CString
  | .debug => "\x1b[36m"
  | .info => "\x1b[32m"
  | .warn => "\x1b[33m"
  | .error => "\x1b[31m"
  | .fatal => "\x1b[35m"

/-- Where a `FILE *` writes to. -/
inductive Output where
  | stdout
  | stderr
  | logFile
  deriving DecidableEq

structure LoggerConfig where
  minLevel : LogLevel
  outputFile : Option Output
  useColors : Bool
  showTimestamp : Bool
  showLevel : Bool
  showFileInfo : Bool
  componentName : CString

inductive LoggerEvent where
  | print (output : Output) (text : CString)
  | close (output : Output)

/-- `held` says whether the thread holds `g_logger_mutex`. -/
structure Logger where
  config : LoggerConfig
  initialized : Bool
  held : Bool
  trace : List LoggerEvent

/-- What a call meets: the local time, the memory around the buffer, which outputs support
colors, the text of `errno`, and the line of the call that the logger makes itself. -/
structure LogEnv where
  year : Int
  month : Int
  day : Int
  hour : Int
  minute : Int
  second : Int
  usec : Int
  stack : Int → UInt8
  supportsColor : Output → Bool
  errorText : CString
  line : Int

structure LogEntry where
  level : LogLevel
  file : CString
  line : Int
  func : CString
  message : CString

/-- The logger before the first call. -/
def Logger.start : Logger :=
  { config := ⟨.info, none, true, true, true, false, .empty⟩
    initialized := false
    held := false
    trace := [] }

/-- What follows the last `/`. -/
def getBasename (path : CString) : CString where
  bytes := (path.bytes.reverse.takeWhile (· != 47)).reverse
  noNul := fun h => path.noNul
    (List.mem_reverse.mp ((List.takeWhile_subset _) (List.mem_reverse.mp h)))

def zeros (n : Nat) : CString := ⟨List.replicate n 48, fun h => by
  rw [List.mem_replicate] at h
  exact absurd h.2 (by decide)⟩

/-- `%0*d`: the zeros come between the sign and the digits. -/
def zeroPadded (width : Nat) (n : Int) : CString :=
  let sign : CString := if n < 0 then "-" else .empty
  let digits := CString.ofInt n.natAbs
  sign ++ zeros (width - sign.length - digits.length) ++ digits

def timestamp (env : LogEnv) : CString :=
  "[" ++ zeroPadded 4 (env.year + 1900) ++ "-" ++ zeroPadded 2 (env.month + 1) ++ "-" ++
    zeroPadded 2 env.day ++ " " ++ zeroPadded 2 env.hour ++ ":" ++ zeroPadded 2 env.minute ++
    ":" ++ zeroPadded 2 env.second ++ "." ++ zeroPadded 3 (env.usec.tdiv 1000) ++ "]"

def levelField (config : LoggerConfig) (level : LogLevel) : CString :=
  if config.useColors then "[" ++ colorBold ++ levelName level ++ colorReset ++ "]"
  else "[" ++ levelName level ++ "]"

def fileInfo (entry : LogEntry) : CString :=
  "[" ++ getBasename entry.file ++ ":" ++ CString.ofInt entry.line ++ ":" ++ entry.func ++ "]"

def logBufferSize : Nat := 4096

/-- The calls of `snprintf` in `logger_log`. The first one does not ask for room. -/
def formatRecord (config : LoggerConfig) (env : LogEnv) (entry : LogEntry) : Writer :=
  let w := Writer.start env.stack logBufferSize
  let w := if config.useColors then w.format (levelColor entry.level) else w
  let w := w.appendIf config.showTimestamp (timestamp env)
  let w := w.appendIf (decide (config.componentName.length > 0))
    ("[" ++ config.componentName ++ "]")
  let w := w.appendIf config.showLevel (levelField config entry.level)
  let w := w.appendIf config.showFileInfo (fileInfo entry)
  let w := w.appendIf true " "
  let w := w.appendIf config.useColors colorReset
  let w := w.appendIf true entry.message
  w.appendIf true "\n"

section Calls
variable (env : LogEnv) (logger : Logger)

/-- `pthread_mutex_lock`. -/
def Logger.lock : Option Logger :=
  if logger.held then none else some { logger with held := true }

def Logger.unlock : Logger := { logger with held := false }

def Logger.setConfig (config : LoggerConfig) : Logger := { logger with config := config }

def Logger.emit (e : LoggerEvent) : Logger := { logger with trace := logger.trace ++ [e] }

/-- The entry is shown: what it is compared with is read without the mutex. -/
def Shown (entry : LogEntry) : Prop :=
  logger.initialized = true ∧ logger.config.minLevel.toNat ≤ entry.level.toNat

instance (entry : LogEntry) : Decidable (Shown logger entry) :=
  inferInstanceAs (Decidable (_ ∧ _))

def loggerLog (entry : LogEntry) : Option Logger :=
  if logger.initialized = false ∨ entry.level.toNat < logger.config.minLevel.toNat then some logger
  else
    logger.lock.map fun logger =>
      let output := logger.config.outputFile.getD .stdout
      let logger := logger.setConfig { logger.config with outputFile := some output }
      let w := formatRecord logger.config env entry
      (logger.emit (.print output (w.record logBufferSize))).unlock

/-- `LOG_INFO` in this file. -/
def ownEntry (func message : CString) : LogEntry := ⟨.info, "logger.c", env.line, func, message⟩

/-- `strncpy` into the 64 bytes of `component_name`. Without a name the old one stays. -/
def Logger.nameFor (componentName : Option CString) : CString :=
  componentName.elim logger.config.componentName (CString.take 63)

def loggerInit (componentName : Option CString) (minLevel : LogLevel) : Option Logger :=
  logger.lock.bind fun logger =>
    let logger := logger.setConfig
      { minLevel := minLevel
        outputFile := some .stdout
        useColors := env.supportsColor .stdout
        showTimestamp := true
        showLevel := true
        showFileInfo := false
        componentName := logger.nameFor componentName }
    let logger := { logger with initialized := true }.unlock
    loggerLog env logger (ownEntry env "logger_init"
      ("Logger initialized for component '" ++ componentName.getD "UNKNOWN" ++ "' with level " ++
        levelName minLevel))

/-- `opened` says whether `fopen` has succeeded. -/
def loggerInitWithFile (componentName : Option CString) (minLevel : LogLevel)
    (logFile : CString) (opened : Bool) : Option Logger :=
  logger.lock.bind fun logger =>
    if opened = false then
      let logger := logger.unlock.emit (.print .stderr
        ("Failed to open log file '" ++ logFile ++ "': " ++ env.errorText ++ "\n"))
      loggerInit env logger componentName minLevel
    else
      let logger := logger.setConfig
        { minLevel := minLevel
          outputFile := some .logFile
          useColors := false
          showTimestamp := true
          showLevel := true
          showFileInfo := true
          componentName := logger.nameFor componentName }
      let logger := { logger with initialized := true }.unlock
      loggerLog env logger (ownEntry env "logger_init_with_file"
        ("Logger initialized for component '" ++ componentName.getD "UNKNOWN" ++
          "' with level " ++ levelName minLevel ++ ", output to file '" ++ logFile ++ "'"))

/-- The farewell is logged, and the file closed, before the mutex is given back. -/
def loggerCleanup : Option Logger :=
  logger.lock.bind fun logger =>
    let closed :=
      if logger.initialized = true ∧ logger.config.outputFile = some .logFile then
        (loggerLog env logger (ownEntry env "logger_cleanup" "Logger shutting down")).map
          fun logger => logger.emit (.close .logFile)
      else some logger
    closed.map fun logger =>
      { logger.setConfig { logger.config with outputFile := none } with
        initialized := false }.unlock

def loggerSetLevel (level : LogLevel) : Option Logger :=
  logger.lock.map fun logger => (logger.setConfig { logger.config with minLevel := level }).unlock

def loggerEnableColors (enable : Bool) : Option Logger :=
  logger.lock.map fun logger =>
    let useColors := enable && match logger.config.outputFile with
      | some .stdout => env.supportsColor .stdout
      | some .stderr => env.supportsColor .stderr
      | _ => false
    (logger.setConfig { logger.config with useColors := useColors }).unlock

def loggerEnableTimestamps (enable : Bool) : Option Logger :=
  logger.lock.map fun logger =>
    (logger.setConfig { logger.config with showTimestamp := enable }).unlock

def loggerEnableFileInfo (enable : Bool) : Option Logger :=
  logger.lock.map fun logger =>
    (logger.setConfig { logger.config with showFileInfo := enable }).unlock

end Calls

end TcpChat.Utils

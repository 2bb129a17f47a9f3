import TcpChat.Utils.Logger

/-!
# What a log record holds

The length that `snprintf` returns is added to the pointer whether or not the text was cut. No
call is made from behind the buffer, because each one asks for room first.
-/

namespace TcpChat.Utils

open Base Base.Writer
set_option autoImplicit false

/-- The fields of a record in order, and whether the configuration asks for them. -/
def recordFields (config : LoggerConfig) (env : LogEnv) (entry : LogEntry) :
    List (Bool × CString) :=
  [(config.useColors, levelColor entry.level), (config.showTimestamp, timestamp env),
    (decide (config.componentName.length > 0), "[" ++ config.componentName ++ "]"),
    (config.showLevel, levelField config entry.level),
    (config.showFileInfo, fileInfo entry), (true, " "), (config.useColors, colorReset),
    (true, entry.message), (true, "\n")]

/-- The text of a record, if it could be of any length. -/
def fullRecord (config : LoggerConfig) (env : LogEnv) (entry : LogEntry) : CString :=
  CString.concat (enabled (recordFields config env entry))

/-- Every call is given the place behind the text and what is left of the buffer, nothing is
written outside the buffer, and what is in it afterwards is the text, cut to its length. -/
structure RecordOk (memory : Int → UInt8) (w : Writer) (text : CString) : Prop where
  calls : ∀ call ∈ w.calls, call.ptr = logBufferSize - call.remaining ∧ 0 < call.remaining
  touched : ∀ i ∈ w.touched, 0 ≤ i ∧ i < logBufferSize
  kept : ∀ i : Int, i < 0 ∨ logBufferSize ≤ i → w.memory i = memory i
  record_eq : w.record logBufferSize = text.take (logBufferSize - 1)

section Record
variable (config : LoggerConfig) (env : LogEnv) (entry : LogEntry)

/-- There is room for the first field, which is the one that does not ask for it. -/
theorem formatRecord_eq :
    formatRecord config env entry =
      (start env.stack logBufferSize).appendAll (recordFields config env entry) := by
  have hroom : (start env.stack logBufferSize).remaining > 0 := by
    change (4096 : Int) > 0
    decide
  have hfirst : (if config.useColors = true then
        (start env.stack logBufferSize).format (levelColor entry.level)
      else start env.stack logBufferSize) =
      (start env.stack logBufferSize).appendIf config.useColors (levelColor entry.level) := by
    unfold appendIf
    cases config.useColors with
    | true => rw [if_pos rfl, if_pos ⟨rfl, hroom⟩]
    | false => rw [if_neg Bool.false_ne_true, if_neg fun hall => Bool.false_ne_true hall.1]
  unfold formatRecord
  dsimp only
  rw [hfirst]
  rfl

/-- A record that is written without an error. -/
theorem formatRecord_ok (hok : (formatRecord config env entry).Succeeds) :
    RecordOk env.stack (formatRecord config env entry) (fullRecord config env entry) := by
  rw [formatRecord_eq] at hok ⊢
  have hwrote := (wrote_start env.stack (by decide : 0 < logBufferSize)).appendAll
    (by decide) hok
  rw [List.nil_append] at hwrote
  have hcalls : ((start env.stack logBufferSize).appendAll
      (recordFields config env entry)).calls ≠ [] :=
    calls_appendAll_ne_nil (by change (0 : Int) < 4096; decide)
      ⟨(true, "\n"), by simp [recordFields], rfl⟩
  exact ⟨hwrote.calls, hwrote.touched, hwrote.kept, hwrote.record_eq (by decide) hcalls⟩

end Record

/-- Where the record goes: to the output of the configuration, or to `stdout`. -/
def recordOutput (config : LoggerConfig) : Output := config.outputFile.getD .stdout

/-- The configuration that the record is written with. -/
def recordConfig (config : LoggerConfig) : LoggerConfig :=
  { config with outputFile := some (recordOutput config) }

theorem Shown.written {logger : Logger} {entry : LogEntry} (h : Shown logger entry) :
    ¬ (logger.initialized = false ∨ entry.level.toNat < logger.config.minLevel.toNat) := by
  rintro (hoff | hlow)
  · rw [h.1] at hoff
    cases hoff
  · exact Nat.not_lt.mpr h.2 hlow

theorem loggerLog_of_shown (env : LogEnv) {logger : Logger} {entry : LogEntry}
    (hshown : Shown logger entry) (hfree : logger.held = false) :
    loggerLog env logger entry =
      some { logger with
        config := recordConfig logger.config
        trace := logger.trace ++ [.print (recordOutput logger.config)
          ((formatRecord (recordConfig logger.config) env entry).record logBufferSize)] } := by
  rw [loggerLog, if_neg hshown.written, Logger.lock, hfree, if_neg Bool.false_ne_true]
  simp only [Option.map_some, Logger.setConfig, Logger.emit, Logger.unlock]
  rw [← hfree]
  rfl

theorem held_of_loggerLog {env : LogEnv} {logger logger' : Logger} {entry : LogEntry}
    (hshown : Shown logger entry) (hlogged : loggerLog env logger entry = some logger') :
    logger.held = false := by
  rw [loggerLog, if_neg hshown.written, Logger.lock] at hlogged
  cases hheld : logger.held with
  | false => rfl
  | true =>
    rw [hheld, if_pos rfl] at hlogged
    cases hlogged

/-- As long as `snprintf` does not fail, the calls for a record stay in the buffer, and what is
printed is the text of the fields that are asked for, cut to the buffer. -/
theorem loggerLog_prints (env : LogEnv) (logger : Logger) (entry : LogEntry)
    (hok : (formatRecord (recordConfig logger.config) env entry).Succeeds) :
    RecordOk env.stack (formatRecord (recordConfig logger.config) env entry)
        (fullRecord logger.config env entry) ∧
      ∀ logger', Shown logger entry → loggerLog env logger entry = some logger' →
        logger'.trace = logger.trace ++ [.print (recordOutput logger.config)
          ((fullRecord logger.config env entry).take (logBufferSize - 1))] := by
  have hrecord := formatRecord_ok (recordConfig logger.config) env entry hok
  refine ⟨hrecord, ?_⟩
  intro logger' hshown hlogged
  have hfree := held_of_loggerLog hshown hlogged
  rw [loggerLog_of_shown env hshown hfree] at hlogged
  rw [← Option.some.inj hlogged]
  dsimp only
  rw [hrecord.record_eq]
  rfl

/-- Noon on New Year's Day, at a terminal. -/
def noon : LogEnv :=
  { year := 125
    month := 0
    day := 1
    hour := 12
    minute := 0
    second := 0
    usec := 0
    stack := fun _ => 0xCC
    supportsColor := fun _ => true
    errorText := "No such file or directory"
    line := 73 }

/-- A record with every field, for a component with a name of a hundred letters. -/
theorem loggerLog_prints_all :
    let logger : Logger := ⟨⟨.info, none, true, true, true, true,
      ⟨List.replicate 100 65, by decide⟩⟩, true, false, []⟩
    RecordOk noon.stack
      (formatRecord (recordConfig logger.config) noon
        ⟨.warn, "src/main.c", 7, "main", "ready"⟩)
      (fullRecord logger.config noon ⟨.warn, "src/main.c", 7, "main", "ready"⟩) := by
  intro logger
  exact (loggerLog_prints noon logger _ (by decide +kernel)).1

end TcpChat.Utils

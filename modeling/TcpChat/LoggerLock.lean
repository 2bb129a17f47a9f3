import TcpChat.Base.Runs
import TcpChat.Utils.Logger

/-!
# The logger and its mutex

The mutex is not recursive, and some functions of the logger log on their own account. They do so
after they have given the mutex back, with one exception.
-/

namespace TcpChat.Utils

open Base Base.Runs
set_option autoImplicit false

inductive LoggerCall where
  | init (componentName : Option CString) (minLevel : LogLevel)
  | initWithFile (componentName : Option CString) (minLevel : LogLevel) (logFile : CString)
    (opened : Bool)
  | setLevel (level : LogLevel)
  | enableColors (enable : Bool)
  | enableTimestamps (enable : Bool)
  | enableFileInfo (enable : Bool)
  | log (entry : LogEntry)
  | cleanup

def LoggerCall.run (env : LogEnv) (logger : Logger) : LoggerCall → Option Logger
  | .init componentName minLevel => loggerInit env logger componentName minLevel
  | .initWithFile componentName minLevel logFile opened =>
    loggerInitWithFile env logger componentName minLevel logFile opened
  | .setLevel level => loggerSetLevel logger level
  | .enableColors enable => loggerEnableColors env logger enable
  | .enableTimestamps enable => loggerEnableTimestamps logger enable
  | .enableFileInfo enable => loggerEnableFileInfo logger enable
  | .log entry => loggerLog env logger entry
  | .cleanup => loggerCleanup env logger

/-- A thread that waits for itself makes no more calls. -/
def callStep (s : Option Logger) (label : LogEnv × LoggerCall) : Option Logger :=
  s.bind fun logger => label.2.run label.1 logger

/-- No call has waited for a mutex that the thread held, and the thread holds none. -/
def MutexFree (s : Option Logger) : Prop := ∃ logger, s = some logger ∧ logger.held = false

/-- The logger writes to a file that it has opened, and it shows informative entries. -/
def LogsFarewell (logger : Logger) : Prop :=
  logger.initialized = true ∧ logger.config.outputFile = some .logFile ∧
    logger.config.minLevel.toNat ≤ LogLevel.info.toNat

/-- The call is no cleanup with a farewell. -/
def NoFarewell (s : Option Logger) (label : LogEnv × LoggerCall) : Prop :=
  ∀ logger, s = some logger → label.2 = .cleanup → ¬ LogsFarewell logger

section Calls
variable {env : LogEnv} {logger : Logger}

theorem lock_of_free (hfree : logger.held = false) :
    logger.lock = some { logger with held := true } := by
  rw [Logger.lock, hfree, if_neg Bool.false_ne_true]

theorem lock_of_held (hheld : logger.held = true) : logger.lock = none := by
  rw [Logger.lock, if_pos hheld]

theorem MutexFree.log (hfree : logger.held = false) (entry : LogEntry) :
    MutexFree (loggerLog env logger entry) := by
  unfold loggerLog
  split
  · exact ⟨logger, rfl, hfree⟩
  · rw [lock_of_free hfree]
    exact ⟨_, rfl, rfl⟩

theorem MutexFree.init (hfree : logger.held = false) (componentName : Option CString)
    (minLevel : LogLevel) : MutexFree (loggerInit env logger componentName minLevel) := by
  unfold loggerInit
  rw [lock_of_free hfree]
  exact MutexFree.log rfl _

theorem MutexFree.initWithFile (hfree : logger.held = false) (componentName : Option CString)
    (minLevel : LogLevel) (logFile : CString) (opened : Bool) :
    MutexFree (loggerInitWithFile env logger componentName minLevel logFile opened) := by
  unfold loggerInitWithFile
  rw [lock_of_free hfree, Option.bind_some]
  split
  · exact MutexFree.init rfl _ _
  · exact MutexFree.log rfl _

/-- The farewell asks for the mutex that the cleanup holds. -/
theorem mutexFree_cleanup_iff (hfree : logger.held = false) :
    MutexFree (loggerCleanup env logger) ↔ ¬ LogsFarewell logger := by
  unfold loggerCleanup
  rw [lock_of_free hfree, Option.bind_some]
  dsimp only
  split
  · rename_i hopen
    unfold loggerLog
    dsimp only
    split
    · rename_i hquiet
      refine iff_of_true ⟨_, rfl, rfl⟩ ?_
      rintro ⟨hinitialized, _, hlevel⟩
      rcases hquiet with hoff | hlow
      · rw [hinitialized] at hoff
        cases hoff
      · exact Nat.not_lt.mpr hlevel hlow
    · rename_i hshown
      rw [lock_of_held rfl]
      refine iff_of_false ?_ ?_
      · rintro ⟨_, heq, _⟩
        cases heq
      · obtain ⟨_, hlow⟩ := not_or.mp hshown
        exact not_not.mpr ⟨hopen.1, hopen.2, Nat.not_lt.mp hlow⟩
  · rename_i hclosed
    exact iff_of_true ⟨_, rfl, rfl⟩ fun hfarewell => hclosed ⟨hfarewell.1, hfarewell.2.1⟩

theorem mutexFree_run_iff (hfree : logger.held = false) (call : LoggerCall) :
    MutexFree (call.run env logger) ↔ (call = .cleanup → ¬ LogsFarewell logger) := by
  have hlock := lock_of_free hfree
  cases call with
  | init componentName minLevel =>
    exact iff_of_true (MutexFree.init hfree _ _) (fun h => by cases h)
  | initWithFile componentName minLevel logFile opened =>
    exact iff_of_true (MutexFree.initWithFile hfree _ _ _ _) (fun h => by cases h)
  | setLevel | enableColors | enableTimestamps | enableFileInfo =>
    refine iff_of_true ?_ (fun h => by cases h)
    simp only [LoggerCall.run, loggerSetLevel, loggerEnableColors, loggerEnableTimestamps,
      loggerEnableFileInfo, hlock]
    exact ⟨_, rfl, rfl⟩
  | log entry => exact iff_of_true (MutexFree.log hfree entry) (fun h => by cases h)
  | cleanup =>
    exact (mutexFree_cleanup_iff hfree).trans ⟨fun h _ => h, fun h => h rfl⟩

end Calls

theorem mutexFree_step_iff {s : Option Logger} (h : MutexFree s) (label : LogEnv × LoggerCall) :
    MutexFree (callStep s label) ↔ NoFarewell s label := by
  obtain ⟨logger, rfl, hfree⟩ := h
  refine (mutexFree_run_iff hfree label.2).trans ?_
  constructor
  · rintro hcall _ ⟨⟩
    exact hcall
  · intro hall
    exact hall logger rfl

/-- The logger never waits for itself, and gives the mutex back after each call, exactly as long
as no cleanup logs its farewell. -/
theorem mutexFree_iff_noFarewell (labels : List (LogEnv × LoggerCall)) :
    Always callStep MutexFree (some Logger.start) labels ↔
      EachStep callStep NoFarewell (some Logger.start) labels :=
  always_iff_eachStep (I := fun _ => True) (H := fun _ _ => True)
    (fun _ _ _ _ _ _ => trivial)
    (fun _ label _ hfree _ => mutexFree_step_iff hfree label)
    trivial ⟨_, rfl, rfl⟩ (fun _ _ _ => trivial)

/-- An entry that is logged does not change where the next one goes. -/
theorem LogsFarewell.log {env : LogEnv} {logger logger' : Logger} {entry : LogEntry}
    (h : LogsFarewell logger) (hlogged : loggerLog env logger entry = some logger') :
    LogsFarewell logger' := by
  unfold loggerLog at hlogged
  split at hlogged
  · rw [← Option.some.inj hlogged]
    exact h
  · unfold Logger.lock at hlogged
    split at hlogged
    · cases hlogged
    · rw [← Option.some.inj hlogged]
      refine ⟨h.1, ?_, h.2.2⟩
      change some (logger.config.outputFile.getD .stdout) = some .logFile
      rw [h.2.1]
      rfl

theorem LogsFarewell.of_initWithFile {env : LogEnv} {logger logger' : Logger}
    {componentName : Option CString} {minLevel : LogLevel} {logFile : CString}
    (hfree : logger.held = false) (hlevel : minLevel.toNat ≤ LogLevel.info.toNat)
    (hopened : loggerInitWithFile env logger componentName minLevel logFile true =
      some logger') : LogsFarewell logger' := by
  unfold loggerInitWithFile at hopened
  rw [lock_of_free hfree, Option.bind_some, if_neg Bool.noConfusion] at hopened
  exact LogsFarewell.log ⟨rfl, rfl, hlevel⟩ hopened

/-- Logging to a file at a low level and then cleaning up, as the demonstration does. -/
theorem cleanup_waits_for_itself :
    ¬ ∀ labels, Always callStep MutexFree (some Logger.start) labels := by
  intro h
  let env : LogEnv := ⟨125, 0, 1, 12, 0, 0, 0, fun _ => 0, fun _ => true, .empty, 104⟩
  let opening : LogEnv × LoggerCall :=
    (env, .initWithFile (some "DEMO-FILE") .debug "/tmp/chat_demo.log" true)
  obtain ⟨logger, heq, hfree⟩ := (h [opening]).last
  have hfarewell : LogsFarewell logger :=
    @LogsFarewell.of_initWithFile env Logger.start logger (some "DEMO-FILE") .debug
      "/tmp/chat_demo.log" rfl (by decide) heq
  have hclosed := (h [opening, (env, .cleanup)]).last
  change MutexFree (callStep (run callStep (some Logger.start) [opening]) (env, .cleanup))
    at hclosed
  rw [heq] at hclosed
  exact (mutexFree_cleanup_iff hfree).mp hclosed hfarewell

end TcpChat.Utils

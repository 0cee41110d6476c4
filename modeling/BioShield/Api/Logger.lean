import BioShield.Api.CacheText

/-!
# Api/Logger — structured logs (`api/utils/logger.py`)

`JSONFormatter` writes a record as one line of JSON, whatever its message holds: a reader that
splits the error log at line breaks of any kind and loads each line gets the records back
(`read_errorText`), after any calls of `setup_logging` and any records.  With the other format a
message can hold a whole line of its own: one record writes what two would (`exists_message`).
-/

namespace BioShield

open Machinery Machinery.JsonText

/-- What the formatters read of a `logging.LogRecord`; `exc_info` as its text. -/
structure LogRecord (F : Type) where
  levelno : ℕ
  levelname : String
  name : String
  message : String
  moduleName : String
  funcName : String
  lineno : ℕ
  requestId : Option (Json F)
  excInfo : Option String

/-! ## The formatters -/

section Formatters

variable {F : Type} (ft : FloatText F)

/-- `log_entry`. -/
def LogRecord.logEntry (timestamp : String) (record : LogRecord F) : Json F :=
  .dict ([("timestamp", .str timestamp), ("level", .str record.levelname),
      ("logger", .str record.name), ("message", .str record.message),
      ("module", .str record.moduleName), ("function", .str record.funcName),
      ("line", .int record.lineno)] ++
    (record.requestId.map fun requestId => ("request_id", requestId)).toList ++
      (record.excInfo.map fun exception => ("exception", .str exception)).toList)

/-- `JSONFormatter.format`. -/
def LogRecord.formatJson (timestamp : String) (record : LogRecord F) : List Char :=
  Json.dumps ft (record.logEntry timestamp)

/-- `'%(asctime)s - %(name)s - %(levelname)s - '`… -/
def LogRecord.formatHead (asctime : String) (record : LogRecord F) : List Char :=
  asctime.toList ++ [' ', '-', ' '] ++ record.name.toList ++ [' ', '-', ' '] ++
    record.levelname.toList ++ [' ', '-', ' ']

/-- …and `'%(message)s'`. -/
def LogRecord.formatMessage (asctime : String) (record : LogRecord F) : List Char :=
  record.formatHead asctime ++ record.message.toList

/-- `logging.Formatter.format`: the exception starts a line. -/
def LogRecord.formatPlain (asctime : String) (record : LogRecord F) : List Char :=
  let s := record.formatMessage asctime
  match record.excInfo with
  | none => s
  | some exception => (if s.getLast? = some '\n' then s else s ++ ['\n']) ++ exception.toList

end Formatters

/-! ## The root logger -/

/-- The root logger: its level, its handlers (the console with or without JSON, and the file of
errors), and what these have written. -/
structure RootLogger where
  level : ℕ
  console : Option Bool
  errorFile : Bool
  consoleText : List Char
  errorText : List Char

/-- `getattr(logging, name)`, where it is a level. -/
def levelOf (name : String) : Option ℕ :=
  if name = "CRITICAL" ∨ name = "FATAL" then some 50
  else if name = "ERROR" then some 40
  else if name = "WARNING" ∨ name = "WARN" then some 30
  else if name = "INFO" then some 20
  else if name = "DEBUG" then some 10
  else if name = "NOTSET" then some 0
  else none

/-- `logging.ERROR`. -/
def levelError : ℕ := 40

/-- A call of `setup_logging`, which can open the file or not, or a record, with the times at which
the handlers format it. -/
inductive LogEvent (F : Type)
  | setup (level : String) (jsonFormat : Bool) (opens : Bool)
  | log (record : LogRecord F) (asctime consoleTime fileTime : String)

namespace RootLogger

variable {F : Type} (ft : FloatText F) (upper : String → String)

/-- Before any call: `WARNING`, and no handler. -/
def unconfigured : RootLogger := ⟨30, none, false, [], []⟩

/-- `setup_logging`; it raises for an unknown level, and where the file does not open. -/
def setupLogging (logger : RootLogger) (level : String) (jsonFormat opens : Bool) : RootLogger :=
  match levelOf (upper level) with
  | none => logger
  | some n => { logger with level := n, console := some jsonFormat, errorFile := opens }

/-- A record at the root: each handler formats it for itself, and ends the line. -/
def handle (logger : RootLogger) (record : LogRecord F) (asctime consoleTime fileTime : String) :
    RootLogger :=
  if record.levelno < logger.level then logger
  else
    { logger with
      consoleText := logger.consoleText ++
        match logger.console with
        | none => []
        | some true => record.formatJson ft consoleTime ++ ['\n']
        | some false => record.formatPlain asctime ++ ['\n']
      errorText := logger.errorText ++
        if logger.errorFile = true ∧ levelError ≤ record.levelno then
          record.formatJson ft fileTime ++ ['\n']
        else [] }

/-- An event. -/
def step (logger : RootLogger) : LogEvent F → RootLogger
  | .setup level jsonFormat opens => logger.setupLogging upper level jsonFormat opens
  | .log record asctime consoleTime fileTime => logger.handle ft record asctime consoleTime fileTime

/-- After some events. -/
def after (events : List (LogEvent F)) : RootLogger := events.foldl (step ft upper) unconfigured

end RootLogger

/-! ## Reading a log -/

/-- The lines of a text, each with its end. -/
def writeLines (lines : List (List Char)) : List Char := lines.flatMap (· ++ ['\n'])

/-- A text split after each of its line breaks. -/
def readLines (isBreak : Char → Bool) (text : List Char) : List (List Char) :=
  (text.splitOnP isBreak).dropLast

theorem splitOnP_writeLines {isBreak : Char → Bool} (hnewline : isBreak '\n' = true)
    {lines : List (List Char)} (hlines : ∀ line ∈ lines, ∀ c ∈ line, isBreak c = false)
    (rest : List Char) :
    (writeLines lines ++ rest).splitOnP isBreak = lines ++ rest.splitOnP isBreak := by
  induction lines with
  | nil => rfl
  | cons line lines ih =>
    obtain ⟨hline, hlines⟩ := List.forall_mem_cons.mp hlines
    have htext : writeLines (line :: lines) ++ rest =
        line ++ '\n' :: (writeLines lines ++ rest) := by
      simp [writeLines]
    rw [htext, List.splitOnP_append_cons_of_forall_mem hline _ hnewline, ih hlines]
    rfl

/-- **Lines without a break are read back.** -/
theorem readLines_writeLines {isBreak : Char → Bool} (hnewline : isBreak '\n' = true)
    {lines : List (List Char)} (hlines : ∀ line ∈ lines, ∀ c ∈ line, isBreak c = false) :
    readLines isBreak (writeLines lines) = lines := by
  have hsplit := splitOnP_writeLines hnewline hlines []
  rw [List.append_nil, List.splitOnP_nil] at hsplit
  rw [readLines, hsplit, List.dropLast_concat]

/-- A line break, for a reader: a newline is one, and no printable character is. -/
structure LineBreaks (isBreak : Char → Bool) : Prop where
  newline : isBreak '\n' = true
  printable : ∀ c, Printable c → isBreak c = false

/-- The log as its records: every line loaded. -/
def readLog {F : Type} (ft : FloatText F) (isBreak : Char → Bool) (text : List Char) :
    List (Option (Json F)) := (readLines isBreak text).map (Json.loads ft)

/-- **A log of faithful entries is read back**, whatever breaks its reader sees. -/
theorem readLog_writeLines {F : Type} {ft : FloatText F} {isBreak : Char → Bool}
    (hbreaks : LineBreaks isBreak) {entries : List (Json F)}
    (hfaithful : ∀ entry ∈ entries, entry.Faithful ft) :
    readLog ft isBreak (writeLines (entries.map (Json.dumps ft))) = entries.map some := by
  have hlines : ∀ line ∈ entries.map (Json.dumps ft), ∀ c ∈ line, isBreak c = false := by
    simp only [List.forall_mem_map]
    exact fun entry hentry c hc =>
      hbreaks.printable c (Json.printable_dumps entry (hfaithful entry hentry) c hc)
  rw [readLog, readLines_writeLines hbreaks.newline hlines, List.map_map]
  exact List.map_congr_left fun entry hentry => Json.loads_dumps (hfaithful entry hentry)

/-! ## The log of errors -/

/-- A log event's request id, if it has one, can be written. -/
def LogEvent.Faithful {F : Type} (ft : FloatText F) : LogEvent F → Prop
  | .setup _ _ _ => True
  | .log record _ _ _ => ∀ requestId ∈ record.requestId, requestId.Faithful ft

section Errors

variable {F : Type} (ft : FloatText F) (upper : String → String)

/-- The level that the last call of `setup_logging` with a known level has set, and whether it
opened the file. -/
def settings : List (LogEvent F) → Option (ℕ × Bool)
  | [] => none
  | .log _ _ _ _ :: events => settings events
  | .setup level _ opens :: events =>
      (settings events).or ((levelOf (upper level)).map fun n => (n, opens))

/-- The settings let the record through, to an open file. -/
def Lets (settings : Option (ℕ × Bool)) (record : LogRecord F) : Prop :=
  ∃ n, settings = some (n, true) ∧ n ≤ record.levelno

instance (settings : Option (ℕ × Bool)) (record : LogRecord F) : Decidable (Lets settings record) :=
  decidable_of_iff (settings.any fun s => s.2 && decide (s.1 ≤ record.levelno)) (by
    cases settings <;> simp [Lets, and_comm, Prod.ext_iff])

/-- An error that the settings let through, with the time at which the file formats it. -/
def recorded (settings : Option (ℕ × Bool)) : LogEvent F → Option (Json F)
  | .setup _ _ _ => none
  | .log record _ _ fileTime =>
      if Lets settings record ∧ levelError ≤ record.levelno then some (record.logEntry fileTime)
      else none

/-- The errors among some events, each under the settings it finds. -/
def errorEntries (events : List (LogEvent F)) : List (Json F) :=
  (List.range events.length).filterMap fun i =>
    events[i]?.bind (recorded (settings upper (events.take i)))

variable {ft upper}

theorem LogRecord.faithful_logEntry {record : LogRecord F}
    (h : ∀ requestId ∈ record.requestId, requestId.Faithful ft) (timestamp : String) :
    (record.logEntry timestamp).Faithful ft := by
  cases hid : record.requestId with
  | none =>
    cases hexc : record.excInfo <;>
      simp [LogRecord.logEntry, hid, hexc, Json.Faithful, Json.FaithfulItems]
  | some requestId =>
    have hrequest := h requestId (by simp [hid])
    cases hexc : record.excInfo <;>
      simp [LogRecord.logEntry, hid, hexc, Json.Faithful, Json.FaithfulItems, hrequest]

theorem settings_concat (events : List (LogEvent F)) (event : LogEvent F) :
    settings upper (events ++ [event]) = (settings upper [event]).or (settings upper events) := by
  induction events with
  | nil => simp [settings]
  | cons e events ih =>
    cases e with
    | log record asctime consoleTime fileTime => exact ih
    | setup level jsonFormat opens =>
      rw [List.cons_append, settings, ih, settings, Option.or_assoc]

theorem errorEntries_concat (events : List (LogEvent F)) (event : LogEvent F) :
    errorEntries upper (events ++ [event]) =
      errorEntries upper events ++ (recorded (settings upper events) event).toList := by
  rw [errorEntries, List.length_append, List.length_singleton, List.range_succ,
    List.filterMap_append]
  have hbefore : (List.range events.length).filterMap (fun i => (events ++ [event])[i]?.bind
      (recorded (settings upper ((events ++ [event]).take i)))) = errorEntries upper events := by
    refine List.filterMap_congr fun i hi => ?_
    have hlt : i < events.length := List.mem_range.mp hi
    rw [List.getElem?_append_left hlt, List.take_append_of_le_length hlt.le]
  rw [hbefore]
  cases hrecorded : recorded (settings upper events) event <;> simp [hrecorded]

/-- What is recorded, was logged. -/
theorem faithful_errorEntries {events : List (LogEvent F)}
    (h : ∀ event ∈ events, event.Faithful ft) :
    ∀ entry ∈ errorEntries upper events, entry.Faithful ft := by
  intro entry hentry
  obtain ⟨i, -, hi⟩ := List.mem_filterMap.mp hentry
  obtain ⟨event, hevent, hrecorded⟩ := Option.bind_eq_some_iff.mp hi
  have hfaithful := h event (List.mem_of_getElem? hevent)
  cases event with
  | setup level jsonFormat opens => simp [recorded] at hrecorded
  | log record asctime consoleTime fileTime =>
    rw [recorded] at hrecorded
    split_ifs at hrecorded
    cases hrecorded
    exact LogRecord.faithful_logEntry hfaithful fileTime

namespace RootLogger

theorem after_concat (events : List (LogEvent F)) (event : LogEvent F) :
    after ft upper (events ++ [event]) = (after ft upper events).step ft upper event := by
  simp [after]

/-- The root logger is as it was last set up. -/
theorem after_settings (events : List (LogEvent F)) :
    ((after ft upper events).level, (after ft upper events).errorFile) =
      (settings upper events).getD (30, false) := by
  induction events using List.reverseRecOn with
  | nil => rfl
  | append_singleton events event ih =>
    rw [after_concat, settings_concat]
    cases event with
    | log record asctime consoleTime fileTime =>
      rw [step, handle]
      split_ifs <;> exact ih
    | setup level jsonFormat opens =>
      simp only [step, setupLogging, settings, Option.none_or]
      cases levelOf (upper level) with
      | none => exact ih
      | some n => rfl

/-- **The error log is its entries**, a line each. -/
theorem errorText_after (events : List (LogEvent F)) :
    (after ft upper events).errorText =
      writeLines ((errorEntries upper events).map (Json.dumps ft)) := by
  induction events using List.reverseRecOn with
  | nil => rfl
  | append_singleton events event ih =>
    have hsettings := @after_settings F ft upper events
    rw [after_concat, errorEntries_concat, List.map_append, writeLines, List.flatMap_append,
      ← writeLines, ← ih]
    cases event with
    | setup level jsonFormat opens =>
      simp only [step, setupLogging, recorded]
      cases levelOf (upper level) <;> simp
    | log record asctime consoleTime fileTime =>
      have hlets : Lets (settings upper events) record ↔
          (after ft upper events).level ≤ record.levelno ∧
            (after ft upper events).errorFile = true := by
        have hlevel := congrArg Prod.fst hsettings
        have hfile := congrArg Prod.snd hsettings
        dsimp only at hlevel hfile
        rw [hlevel, hfile]
        cases settings upper events <;> simp [Lets, and_comm, Prod.ext_iff]
      simp only [step, handle, recorded, hlets]
      by_cases hlevel : record.levelno < (after ft upper events).level
      · simp [hlevel, not_le.mpr hlevel]
      · by_cases hfile : (after ft upper events).errorFile = true <;>
          by_cases herror : levelError ≤ record.levelno <;>
            simp [hlevel, not_lt.mp hlevel, hfile, herror, LogRecord.formatJson]

end RootLogger

/-- **The error log is read back.** After any calls of `setup_logging` and any records, whatever
these hold, splitting the log at its line breaks and loading each line gives the errors that were
let through, each once and in order. -/
theorem read_errorText {events : List (LogEvent F)} (hevents : ∀ event ∈ events, event.Faithful ft)
    {isBreak : Char → Bool} (hbreaks : LineBreaks isBreak) :
    readLog ft isBreak (RootLogger.after ft upper events).errorText =
      (errorEntries upper events).map some := by
  rw [RootLogger.errorText_after]
  exact readLog_writeLines hbreaks (faithful_errorEntries hevents)

end Errors

/-- What is not printable breaks a line. -/
theorem lineBreaks_not_printable : LineBreaks fun c => !decide (Printable c) where
  newline := by decide
  printable := fun c h => by simpa using h

/-- A record whose message holds a line of JSON. -/
def forged : LogRecord ℚ where
  levelno := 40
  levelname := "ERROR"
  name := "api"
  message := "x\n\x7b\"level\": \"CRITICAL\"\x7d"
  moduleName := "m"
  funcName := "f"
  lineno := 1
  requestId := none
  excInfo := none

theorem read_errorText_forged :
    readLog wholeText (fun c => !decide (Printable c))
      (RootLogger.after wholeText id [.setup "INFO" true true, .log forged "" "" "now"]).errorText =
        (errorEntries id [.setup "INFO" true true, .log forged "" "" "now"]).map some :=
  read_errorText (by simp [LogEvent.Faithful, forged]) lineBreaks_not_printable

/-! ## The other format -/

theorem LogRecord.exists_formatPlain {F : Type} (record : LogRecord F) (asctime : String) :
    ∃ rest, record.formatPlain asctime = record.formatHead asctime ++ rest := by
  cases hexc : record.excInfo with
  | none => exact ⟨record.message.toList, by simp [formatPlain, formatMessage, hexc]⟩
  | some exception =>
    simp only [formatPlain, hexc]
    split_ifs
    · exact ⟨record.message.toList ++ exception.toList, by simp [formatMessage]⟩
    · exact ⟨record.message.toList ++ '\n' :: exception.toList, by simp [formatMessage]⟩

/-- **One record for two**: under the other format, some message makes a record without an exception
write the lines of any two. -/
theorem exists_message {F : Type} (record record' : LogRecord F) (asctime asctime' : String) :
    ∃ message, writeLines [({ record with message, excInfo := none }).formatPlain asctime] =
      writeLines [record.formatPlain asctime, record'.formatPlain asctime'] := by
  obtain ⟨rest, hrest⟩ := record.exists_formatPlain asctime
  refine ⟨String.ofList (rest ++ '\n' :: record'.formatPlain asctime'), ?_⟩
  have hhead : ∀ message : String, ({ record with message, excInfo := none }).formatHead asctime =
      record.formatHead asctime := fun _ => rfl
  rw [writeLines, writeLines, List.flatMap_singleton, List.flatMap_cons, List.flatMap_singleton,
    hrest, LogRecord.formatPlain, LogRecord.formatMessage, hhead]
  simp

end BioShield

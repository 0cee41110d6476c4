import BioShield.Api.AuthResponses
import BioShield.Api.Logger

/-!
# Api/RequestLogging — `LoggingMiddleware` (`api/middleware/logging.py`)

A request is logged before the application gets it and after the application is done with it.  Its
path goes into both records as the server decoded it: in the format of `api/main.py`, for any lines
there is a path that makes the log hold them (`exists_path`).
-/

namespace BioShield

open Machinery

/-! ## The application -/

/-- How an application ends: it returns, or raises an `Exception`, or something else. -/
inductive Ending
  | returned
  | raised (text : String)
  | cancelled
  deriving DecidableEq

/-- What an application hands to `send`, and how it ends. -/
structure AppRun where
  sent : List AsgiMessage
  ending : Ending

/-- `response_status[0]`, after the messages. -/
def responseStatus (sent : List AsgiMessage) : ℕ :=
  sent.foldl (fun status message => match message with
    | .responseStart status _ => status
    | .responseBody _ => status) 200

/-! ## The client's address -/

/-- `str.isspace` of one character. -/
def isSpaceChar (c : Char) : Bool :=
  (0x9 ≤ c.toNat && c.toNat ≤ 0xd) || (0x1c ≤ c.toNat && c.toNat ≤ 0x20) ||
    c.toNat ∈ [0x85, 0xa0, 0x1680, 0x2028, 0x2029, 0x202f, 0x205f, 0x3000] ||
      (0x2000 ≤ c.toNat && c.toNat ≤ 0x200a)

/-- `value.split(",")[0].strip()`. -/
def firstField (value : String) : String :=
  .ofList ((((value.toList.takeWhile (· ≠ ',')).dropWhile isSpaceChar).reverse.dropWhile
    isSpaceChar).reverse)

section ClientIp

variable (lower : String → String)

/-- The loop over `headers.items()`. -/
def scanClientIp : List (ByteArray × ByteArray) → Except PyError (Option String)
  | [] => .ok none
  | (key, value) :: items => do
    let name ← decode key
    if lower name = "x-forwarded-for" then
      let value ← decode value
      return some (firstField value)
    else if lower name = "x-real-ip" then
      let value ← decode value
      return some value
    else scanClientIp items

/-- `client_ip`: from the headers, or else of the connection. -/
def clientIp (scope : Scope) : Except PyError (Option String) := do
  match (← scanClientIp lower (Dict.ofPairs scope.headers).items).filter (· ≠ "") with
  | some clientIp => return some clientIp
  | none =>
    match scope.client with
    | .missing => return none
    | .none => .error .typeError
    | .address host _ => return some host

end ClientIp

/-! ## The middleware -/

/-- `str(client_ip)`. -/
def ipText (clientIp : Option String) : String := clientIp.getD "None"

/-- A record of the logger `bioshield.api`. -/
def apiRecord (levelno : ℕ) (levelname : String) (lineno : ℕ) (message : String) : LogRecord ℚ where
  levelno := levelno
  levelname := levelname
  name := "bioshield.api"
  message := message
  moduleName := "logging"
  funcName := "__call__"
  lineno := lineno
  requestId := none
  excInfo := none

/-- `logger.info(f"REQUEST: …")`. -/
def requestRecord (method path : String) (clientIp : Option String) : LogRecord ℚ :=
  apiRecord 20 "INFO" 41 s!"REQUEST: {method} {path} from {ipText clientIp}"

/-- `logger.error(f"ERROR: …")`, of an `Exception`. -/
def errorRecord (method path : String) : Ending → Option (LogRecord ℚ)
  | .raised text => some (apiRecord 40 "ERROR" 54 s!"ERROR: {method} {path} - {text}")
  | .returned | .cancelled => none

/-- `logger.info(f"RESPONSE: …")`; `duration` is `f"{duration_ms:.2f}"`. -/
def responseRecord (method path : String) (clientIp : Option String) (status : ℕ)
    (duration : String) : LogRecord ℚ :=
  apiRecord 20 "INFO" 58
    s!"RESPONSE: {method} {path} -> {status} in {duration}ms from {ipText clientIp}"

/-- `LoggingMiddleware.__call__` of an HTTP request, around an application that runs as `app`: the
records, and what is sent and how the call ends. -/
def loggingMiddleware (lower : String → String) (method : String) (scope : Scope)
    (duration : String) (app : AppRun) : List (LogRecord ℚ) × Except PyError AppRun :=
  match clientIp lower scope with
  | .error e => ([], .error e)
  | .ok clientIp =>
    (requestRecord method scope.path clientIp ::
        (errorRecord method scope.path app.ending).toList ++
          [responseRecord method scope.path clientIp (responseStatus app.sent) duration],
      .ok app)

/-! ## Forged lines -/

/-- What the handlers of `api/main.py` write for some records, each at its time. -/
def apiLog (asctime : LogRecord ℚ → String) (records : List (LogRecord ℚ)) : List Char :=
  writeLines (records.map fun record => record.formatPlain (asctime record))

/-- The path goes into the first record as it is. -/
theorem toList_requestRecord (method path : String) (clientIp : Option String) :
    (requestRecord method path clientIp).message.toList =
      s!"REQUEST: {method} ".toList ++ path.toList ++ s!" from {ipText clientIp}".toList := by
  simp only [requestRecord, apiRecord, String.toList_append, List.append_assoc]
  rfl

/-- Lines that a text holds after a line break are read from it. -/
theorem infix_readLines {isBreak : Char → Bool} (hnewline : isBreak '\n' = true)
    {lines : List (List Char)} (hlines : ∀ line ∈ lines, ∀ c ∈ line, isBreak c = false)
    (before after : List Char) :
    lines <:+: readLines isBreak (before ++ '\n' :: (writeLines lines ++ after)) := by
  rw [readLines, List.splitOnP_append_cons _ _ hnewline, splitOnP_writeLines hnewline hlines,
    ← List.append_assoc, List.dropLast_append_of_ne_nil (List.splitOnP_ne_nil _ _)]
  exact List.infix_append _ _ _

/-- **Any lines can be forged**: whatever else a request holds, as long as its client's address can
be read, there is a path, starting with a slash as all do, that makes its log hold the lines,
however it is answered and whenever. -/
theorem exists_path {lower : String → String} {scope : Scope}
    (hip : ∃ ip, clientIp lower scope = .ok ip) (method duration : String)
    {lines : List (List Char)} (hlines : ∀ line ∈ lines, '\n' ∉ line) :
    ∃ path : String, path.toList.head? = some '/' ∧ ∀ app asctime,
      lines <:+: readLines (· = '\n') (apiLog asctime
        (loggingMiddleware lower method { scope with path } duration app).1) := by
  obtain ⟨ip, hip⟩ := hip
  let path : String := .ofList ('/' :: '\n' :: writeLines lines)
  have hpath : path.toList = '/' :: '\n' :: writeLines lines := String.toList_ofList
  refine ⟨path, by rw [hpath]; rfl, fun app asctime => ?_⟩
  have hip' : clientIp lower { scope with path } = .ok ip := hip
  obtain ⟨rest, hrest⟩ : ∃ rest, (loggingMiddleware lower method { scope with path } duration
      app).1 = requestRecord method path ip :: rest := by
    simp only [loggingMiddleware, hip']
    exact ⟨_, rfl⟩
  have htext : apiLog asctime (requestRecord method path ip :: rest) =
      (requestRecord method path ip).formatHead (asctime (requestRecord method path ip)) ++
        (s!"REQUEST: {method} ".toList ++ ['/']) ++ '\n' :: (writeLines lines ++
          (s!" from {ipText ip}".toList ++ '\n' :: apiLog asctime rest)) := by
    have hplain : (requestRecord method path ip).formatPlain
          (asctime (requestRecord method path ip)) =
        (requestRecord method path ip).formatMessage
          (asctime (requestRecord method path ip)) := rfl
    simp only [apiLog, List.map_cons, writeLines, List.flatMap_cons, hplain,
      LogRecord.formatMessage, toList_requestRecord, hpath, List.append_assoc, List.cons_append,
      List.nil_append]
  rw [hrest, htext]
  refine infix_readLines (by simp) (fun line hline c hc => ?_) _ _
  have hne : c ≠ '\n' := fun h => hlines line hline (h ▸ hc)
  simpa using hne

/-- A request without headers. -/
theorem exists_path_anonymous :
    ∃ path : String, path.toList.head? = some '/' ∧ ∀ app asctime,
      [['x'], ['y']] <:+: readLines (· = '\n') (apiLog asctime (loggingMiddleware id "GET"
        { (⟨"/", [], .address "192.0.2.1" 50000⟩ : Scope) with path } "0.10" app).1) :=
  exists_path ⟨some "192.0.2.1", rfl⟩ "GET" "0.10" (by simp)

end BioShield

import BioShield.Api.AuthMiddleware
import BioShield.Api.DeepfakeService

/-!
# Api/Responses — the responses the middlewares write themselves

`send_error_response` and `send_rate_limit_response` answer a request without the framework, one
ASGI message after the other.  Both send a complete response: one start, one body, and the length of
that body among the headers (`complete_sendErrorResponse`, `complete_sendRateLimitResponse`).
-/

namespace BioShield

/-- What is handed to `send`. -/
inductive AsgiMessage
  /-- `{"type": "http.response.start", …}`. -/
  | responseStart (status : ℕ) (headers : List (ByteArray × ByteArray))
  /-- `{"type": "http.response.body", …}`. -/
  | responseBody (body : ByteArray)
  deriving DecidableEq

/-- The values of the headers with a name. -/
def headerValues (name : String) (headers : List (ByteArray × ByteArray)) : List ByteArray :=
  (headers.filter fun h => h.1 = name.toUTF8).map Prod.snd

/-- One start, one body, and one `content-length`, which is right. -/
def CompleteResponse (status : ℕ) (messages : List AsgiMessage) : Prop :=
  ∃ headers body, messages = [.responseStart status headers, .responseBody body] ∧
    headerValues "content-length" headers = [(toString body.size).toUTF8]

/-- `send_error_response`. -/
def sendErrorResponse (statusCode : ℕ) (detail : String) : List AsgiMessage :=
  let responseBody := s!"\x7b\"detail\":\"{detail}\"\x7d".toUTF8
  [.responseStart statusCode [
      ("content-type".toUTF8, "application/json".toUTF8),
      ("content-length".toUTF8, (toString responseBody.size).toUTF8)],
    .responseBody responseBody]

/-- `f"{x:.1f}"`. -/
def oneDecimal (x : ℚ) : String :=
  let tenths := (roundHalfEven (10 * x)).natAbs
  (if x < 0 then "-" else "") ++ s!"{tenths / 10}.{tenths % 10}"

/-- `int(x)`: towards zero. -/
def intOf (x : ℚ) : ℤ := if 0 ≤ x then ⌊x⌋ else ⌈x⌉

/-- `send_rate_limit_response`. -/
def sendRateLimitResponse (waitTime : ℚ) : List AsgiMessage :=
  let responseBody :=
    (s!"\x7b\"detail\":\"Rate limit exceeded. Try again in {oneDecimal waitTime} seconds."
      ++ "\"\x7d").toUTF8
  [.responseStart 429 [
      ("content-type".toUTF8, "application/json".toUTF8),
      ("retry-after".toUTF8, (toString (intOf waitTime)).toUTF8),
      ("content-length".toUTF8, (toString responseBody.size).toUTF8)],
    .responseBody responseBody]

/-- A header of the name comes before what the rest holds of it… -/
theorem headerValues_cons_self (name : String) (value : ByteArray)
    (headers : List (ByteArray × ByteArray)) :
    headerValues name ((name.toUTF8, value) :: headers) = value :: headerValues name headers := by
  simp [headerValues]

/-- …and one of another name does not count. -/
theorem headerValues_cons_of_ne {name : String} {h : ByteArray × ByteArray}
    (hne : h.1 ≠ name.toUTF8) (headers : List (ByteArray × ByteArray)) :
    headerValues name (h :: headers) = headerValues name headers := by
  rw [headerValues, List.filter_cons_of_neg (by simpa only [decide_eq_true_eq] using hne),
    headerValues]

theorem complete_sendErrorResponse (statusCode : ℕ) (detail : String) :
    CompleteResponse statusCode (sendErrorResponse statusCode detail) := by
  refine ⟨_, _, rfl, ?_⟩
  have htype : "content-type".toUTF8 ≠ "content-length".toUTF8 := by decide
  rw [headerValues_cons_of_ne htype, headerValues_cons_self]
  rfl

theorem complete_sendRateLimitResponse (waitTime : ℚ) :
    CompleteResponse 429 (sendRateLimitResponse waitTime) := by
  refine ⟨_, _, rfl, ?_⟩
  have htype : "content-type".toUTF8 ≠ "content-length".toUTF8 := by decide
  have hretry : "retry-after".toUTF8 ≠ "content-length".toUTF8 := by decide
  rw [headerValues_cons_of_ne htype, headerValues_cons_of_ne hretry, headerValues_cons_self]
  rfl

end BioShield

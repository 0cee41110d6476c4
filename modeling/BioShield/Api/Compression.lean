import BioShield.Api.AuthMiddleware

/-!
# Api/Compression — `CompressionMiddleware` (`api/middleware/compression.py`)

A body message that is long enough is compressed, and then its `headers` are to get a
`content-encoding`; but the headers went out with the start message, and a body message has none.
So a response reaches the client as it was sent, or not at all (`transparent_iff`).
-/

namespace BioShield

open Machinery

/-- What the middleware may raise. -/
inductive SendError
  /-- From reading the request's headers. -/
  | raised (e : PyError)
  /-- From reading a message's item that is not there. -/
  | keyError (key : String)
  deriving DecidableEq

/-! ## The request -/

section Accept

variable (lower : String → String)

/-- The loop over `headers.items()`, for the header called `header`. -/
def scanHeader (header : String) :
    List (ByteArray × ByteArray) → Except PyError (Option String)
  | [] => .ok none
  | (key, value) :: items => do
    let name ← decode key
    if lower name = header then
      let value ← decode value
      return some value
    else scanHeader header items

/-- The other middlewares have the same loop. -/
theorem scanToken_eq_scanHeader (items : List (ByteArray × ByteArray)) :
    scanToken lower items = scanHeader lower "x-bioshield-token" items := by
  induction items with
  | nil => rfl
  | cons item items ih => rw [scanToken, scanHeader, ih]

/-- The `accept_encoding` found in `dict(scope.get("headers", []))`. -/
def acceptEncoding (headers : List (ByteArray × ByteArray)) : Except PyError (Option String) :=
  scanHeader lower "accept-encoding" (Dict.ofPairs headers).items

end Accept

/-- `"gzip" in accept_encoding`; nothing found accepts nothing. -/
def acceptsGzip (acceptEncoding : Option String) : Bool :=
  acceptEncoding.any fun accept => "gzip".toList <:+: accept.toList

/-! ## Messages -/

/-- The types of the messages of a response. -/
inductive MessageType
  | responseStart | responseBody
  deriving DecidableEq

/-- A message of a response; an item may be absent. -/
structure Message where
  type : MessageType
  headers : Option (List (ByteArray × ByteArray))
  body : Option (List UInt8)
  deriving DecidableEq

/-- `gzip.compress` and its inverse. -/
structure Gzip where
  compress : List UInt8 → List UInt8
  decompress : List UInt8 → List UInt8
  decompress_compress : ∀ b, decompress (compress b) = b

/-- `(b"content-encoding", b"gzip")`. -/
def contentEncodingGzip : ByteArray × ByteArray := ("content-encoding".toUTF8, "gzip".toUTF8)

/-- `message[key]`. -/
def getItem {α : Type} (key : String) : Option α → Except SendError α
  | some a => .ok a
  | none => .error (.keyError key)

/-- `send_wrapper`, up to the call of `send`. -/
def sendWrapper (gz : Gzip) (minimumSize : ℤ) (message : Message) : Except SendError Message :=
  match message.type with
  | .responseBody =>
    if minimumSize ≤ (message.body.getD []).length then do
      let body ← getItem "body" message.body
      let headers ← getItem "headers" message.headers
      return { message with
        body := some (gz.compress body)
        headers := some (headers ++ [contentEncodingGzip]) }
    else return message
  | .responseStart => return message

/-- An application sends its messages one after another; what a `send` raises ends it. -/
def sendAll (send : Message → Except SendError Message) :
    List Message → List Message × Except SendError Unit
  | [] => ([], .ok ())
  | message :: messages =>
    match send message with
    | .error e => ([], .error e)
    | .ok sent => (sent :: (sendAll send messages).1, (sendAll send messages).2)

/-- `CompressionMiddleware.__call__` of an HTTP request to which the application answers `messages`:
what is sent, and how the call ends. -/
def compressionMiddleware (lower : String → String) (gz : Gzip) (minimumSize : ℤ) (scope : Scope)
    (messages : List Message) : List Message × Except SendError Unit :=
  match acceptEncoding lower scope.headers with
  | .error e => ([], .error (.raised e))
  | .ok accept =>
    if acceptsGzip accept then sendAll (sendWrapper gz minimumSize) messages
    else (messages, .ok ())

section SendAll

variable {send : Message → Except SendError Message} {messages : List Message}

theorem sendAll_eq (h : ∀ message ∈ messages, send message = .ok message) :
    sendAll send messages = (messages, .ok ()) := by
  induction messages with
  | nil => rfl
  | cons message messages ih =>
    have hrest := ih fun m hm => h m (List.mem_cons_of_mem _ hm)
    simp only [sendAll, h message List.mem_cons_self, hrest]

/-- An application that comes to its end could send every message. -/
theorem exists_of_sendAll (h : (sendAll send messages).2 = .ok ()) :
    ∀ message ∈ messages, ∃ sent, send message = .ok sent := by
  induction messages with
  | nil => exact fun _ hm => absurd hm List.not_mem_nil
  | cons message messages ih =>
    rw [sendAll] at h
    cases hsend : send message with
    | error e => rw [hsend] at h; cases h
    | ok sent =>
      rw [hsend] at h
      intro m hm
      rcases List.mem_cons.mp hm with rfl | hm
      · exact ⟨sent, hsend⟩
      · exact ih h m hm

end SendAll

/-! ## Responses -/

/-- A response: the headers of its start message, and the bodies that follow. -/
structure Response where
  headers : Option (List (ByteArray × ByteArray))
  bodies : List (Option (List UInt8))
  bodies_ne : bodies ≠ []

/-- A body message has no headers. -/
def bodyMessage (body : Option (List UInt8)) : Message := ⟨.responseBody, none, body⟩

/-- The messages of a response. -/
def Response.messages (response : Response) : List Message :=
  ⟨.responseStart, response.headers, none⟩ :: response.bodies.map bodyMessage

/-- A body message is sent exactly if it is too short to be compressed, and then as it is. -/
theorem sendWrapper_bodyMessage (gz : Gzip) (minimumSize : ℤ) (body : Option (List UInt8))
    (sent : Message) :
    sendWrapper gz minimumSize (bodyMessage body) = .ok sent ↔
      ((body.getD []).length : ℤ) < minimumSize ∧ sent = bodyMessage body := by
  change (if minimumSize ≤ ((bodyMessage body).body.getD []).length then _ else _) = _ ↔ _
  split_ifs with hsize
  · refine iff_of_false (fun h => ?_) fun h => absurd h.1 (not_lt.mpr hsize)
    cases body <;> cases h
  · exact ⟨fun h => ⟨not_le.mp hsize, (Except.ok.inj h).symm⟩, fun h => congrArg Except.ok h.2.symm⟩

/-- The header entries of the start messages. -/
def startHeaders (messages : List Message) : List (ByteArray × ByteArray) :=
  messages.flatMap fun m => if m.type = .responseStart then m.headers.getD [] else []

/-- The bytes of the bodies. -/
def bodyBytes (messages : List Message) : List UInt8 :=
  messages.flatMap fun m => if m.type = .responseBody then m.body.getD [] else []

/-- Every `content-length` says `n`. -/
def ContentLength (headers : List (ByteArray × ByteArray)) (n : ℕ) : Prop :=
  ∀ value, ("content-length".toUTF8, value) ∈ headers →
    (String.fromUTF8? value).bind String.toNat? = some n

section Transparency

variable (lower : String → String) (gz : Gzip) (minimumSize : ℤ) (scope : Scope)
  (response : Response)

/-- The middleware compresses a body of the response. -/
def Compresses : Prop :=
  ∃ accept, acceptEncoding lower scope.headers = .ok accept ∧ acceptsGzip accept ∧
    ∃ body ∈ response.bodies, minimumSize ≤ (body.getD []).length

/-- **The client's view is faithful**: everything is forwarded; `content-encoding: gzip` is added
exactly if a body was compressed; the bytes, decoded accordingly, are the application's; and a
`content-length` that was right still is. -/
structure Transparent (run : List Message × Except SendError Unit) : Prop where
  forwards : run.2 = .ok ()
  encoding : (startHeaders response.messages).count contentEncodingGzip <
    (startHeaders run.1).count contentEncodingGzip ↔ Compresses lower minimumSize scope response
  decoded : Compresses lower minimumSize scope response →
    gz.decompress (bodyBytes run.1) = bodyBytes response.messages
  same : ¬ Compresses lower minimumSize scope response →
    bodyBytes run.1 = bodyBytes response.messages
  contentLength : ContentLength (startHeaders response.messages)
    (bodyBytes response.messages).length →
      ContentLength (startHeaders run.1) (bodyBytes run.1).length

variable {lower gz minimumSize scope response}

/-- What is sent as it is, is seen as it is. -/
theorem transparent_messages (h : ¬ Compresses lower minimumSize scope response) :
    Transparent lower gz minimumSize scope response (response.messages, .ok ()) where
  forwards := rfl
  encoding := iff_of_false (lt_irrefl _) h
  decoded hc := absurd hc h
  same _ := rfl
  contentLength hlen := hlen

variable (lower gz minimumSize scope response)

/-- **When compression is transparent**: exactly if the request's headers can be read, and gzip is
not accepted or every body is shorter than the minimum. -/
theorem transparent_iff :
    Transparent lower gz minimumSize scope response
        (compressionMiddleware lower gz minimumSize scope response.messages) ↔
      ∃ accept, acceptEncoding lower scope.headers = .ok accept ∧
        (acceptsGzip accept →
          ∀ body ∈ response.bodies, ((body.getD []).length : ℤ) < minimumSize) := by
  simp only [compressionMiddleware]
  cases haccept : acceptEncoding lower scope.headers with
  | error e => exact iff_of_false (fun h => nomatch h.forwards) fun ⟨_, h, _⟩ => nomatch h
  | ok accept =>
    have hcompresses : Compresses lower minimumSize scope response ↔ acceptsGzip accept ∧
        ∃ body ∈ response.bodies, minimumSize ≤ (body.getD []).length := by
      simp only [Compresses, haccept, Except.ok.injEq, exists_eq_left']
    simp only [Except.ok.injEq, exists_eq_left']
    split_ifs with hgzip
    · simp only [hgzip, true_implies]
      constructor
      · intro h body hbody
        obtain ⟨sent, hsent⟩ := exists_of_sendAll h.forwards (bodyMessage body)
          (List.mem_cons_of_mem _ (List.mem_map_of_mem hbody))
        exact ((sendWrapper_bodyMessage _ _ _ _).mp hsent).1
      · intro h
        have hall : ∀ m ∈ response.messages, sendWrapper gz minimumSize m = .ok m := by
          intro m hm
          rcases List.mem_cons.mp hm with rfl | hm
          · rfl
          · obtain ⟨body, hbody, rfl⟩ := List.mem_map.mp hm
            exact (sendWrapper_bodyMessage _ _ _ _).mpr ⟨h body hbody, rfl⟩
        rw [sendAll_eq hall]
        refine transparent_messages fun hc => ?_
        obtain ⟨-, body, hbody, hsize⟩ := hcompresses.mp hc
        exact absurd (h body hbody) (not_lt.mpr hsize)
    · exact iff_of_true (transparent_messages fun hc => hgzip (hcompresses.mp hc).1)
        fun h => absurd h hgzip

end Transparency

/-- A request that accepts gzip. -/
def gzipScope : Scope where
  path := "/v1/dashboard"
  headers := [("host".toUTF8, "api".toUTF8), ("accept-encoding".toUTF8, "gzip, br".toUTF8)]
  client := .address "192.0.2.1" 50000

/-- One body of a thousand bytes. -/
def longResponse : Response where
  headers := some [("content-length".toUTF8, "1000".toUTF8)]
  bodies := [some (List.replicate 1000 0)]
  bodies_ne := List.cons_ne_nil _ _

/-- With the default minimum the long response is not sent. -/
theorem not_forall_transparent :
    ¬ ∀ (lower : String → String) (gz : Gzip) (minimumSize : ℤ) (scope : Scope)
      (response : Response),
      Transparent lower gz minimumSize scope response
        (compressionMiddleware lower gz minimumSize scope response.messages) := by
  intro h
  have hforwards := (h id ⟨id, id, fun _ => rfl⟩ 1000 gzipScope longResponse).forwards
  have haccept : acceptEncoding id gzipScope.headers = .ok (some "gzip, br") := by decide +kernel
  have hgzip : acceptsGzip (some "gzip, br") := by decide +kernel
  simp only [compressionMiddleware, haccept, hgzip, if_true] at hforwards
  obtain ⟨sent, hsent⟩ := exists_of_sendAll hforwards (bodyMessage (some (List.replicate 1000 0)))
    (List.mem_cons_of_mem _ List.mem_cons_self)
  have hsize := ((sendWrapper_bodyMessage _ _ _ _).mp hsent).1
  rw [Option.getD_some, List.length_replicate] at hsize
  exact absurd hsize (by decide)

end BioShield

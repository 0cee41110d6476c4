import BioShield.Api.Responses

/-!
# Api/AuthResponses — every request is answered, if its headers can be read

`AuthMiddleware` decodes the header names one by one until it meets the token, and then the token's
value.  A byte string that is not UTF-8 raises there, outside any handler: the request is neither
forwarded nor refused.  Whatever comes after the token is never read (`authAnswered_iff`).
-/

namespace BioShield

open Machinery

/-! ## What the scan reads -/

section Scan

variable (lower : String → String)

/-- The name is `x-bioshield-token` up to case. -/
def namesToken (name : ByteArray) : Bool :=
  match String.fromUTF8? name with
  | some s => lower s = "x-bioshield-token"
  | none => false

/-- UTF-8. -/
def decodable (b : ByteArray) : Bool := (String.fromUTF8? b).isSome

/-- The value of the last header with a name. -/
def lastValue (headers : List (ByteArray × ByteArray)) (name : ByteArray) : Option ByteArray :=
  ((headers.filter fun h => h.1 = name).getLast?).map Prod.snd

/-- The names before the first that names the token are UTF-8 (all of them if none does), and so is
the last value given under that very name. -/
def ReadableHeaders (headers : List (ByteArray × ByteArray)) : Prop :=
  (∀ name ∈ (headers.map Prod.fst).takeWhile fun name => !namesToken lower name, decodable name) ∧
    ∀ name, (headers.map Prod.fst).find? (namesToken lower) = some name →
      ∀ value, lastValue headers name = some value → decodable value

variable {lower}

theorem exists_decode_iff {b : ByteArray} : (∃ s, decode b = .ok s) ↔ decodable b := by
  simp only [decode_eq_ok_iff, decodable, Option.isSome_iff_exists]

theorem namesToken_iff {name : ByteArray} :
    namesToken lower name ↔
      ∃ s, String.fromUTF8? name = some s ∧ lower s = "x-bioshield-token" := by
  cases h : String.fromUTF8? name <;> simp [namesToken, h]

section Cons

variable {key value : ByteArray} {items : List (ByteArray × ByteArray)}

/-- A name that cannot be read raises… -/
theorem scanToken_of_not_decodable (h : ¬ decodable key) :
    scanToken lower ((key, value) :: items) = .error .unicodeDecodeError := by
  have hkey : String.fromUTF8? key = none := by simpa [decodable] using h
  rw [scanToken, decode, hkey]
  rfl

/-- …at the token all depends on its value… -/
theorem scanToken_isOk_of_namesToken (h : namesToken lower key) :
    (∃ found, scanToken lower ((key, value) :: items) = .ok found) ↔ decodable value := by
  obtain ⟨name, hkey, hname⟩ := namesToken_iff.mp h
  have hscan : scanToken lower ((key, value) :: items) =
      decode value >>= fun apiKey => return some apiKey := by
    rw [scanToken, decode, hkey]
    exact if_pos hname
  rw [hscan, ← exists_decode_iff]
  constructor
  · rintro ⟨_, h⟩
    exact (bind_eq_ok_iff.mp h).imp fun _ h => h.1
  · rintro ⟨apiKey, h⟩
    exact ⟨some apiKey, bind_eq_ok_iff.mpr ⟨apiKey, h, rfl⟩⟩

/-- …and any other name is passed over. -/
theorem scanToken_of_not_namesToken (hkey : decodable key) (h : ¬ namesToken lower key) :
    scanToken lower ((key, value) :: items) = scanToken lower items := by
  obtain ⟨name, hname⟩ := Option.isSome_iff_exists.mp hkey
  have hother : lower name ≠ "x-bioshield-token" := fun heq =>
    h (namesToken_iff.mpr ⟨name, hname, heq⟩)
  rw [scanToken, decode, hname]
  exact if_neg hother

end Cons

/-- The scan returns if it can read the names up to the token and the value of the token. -/
theorem scanToken_isOk_iff (items : List (ByteArray × ByteArray)) :
    (∃ found, scanToken lower items = .ok found) ↔
      (∀ name ∈ (items.map Prod.fst).takeWhile fun name => !namesToken lower name,
        decodable name) ∧
      ∀ name, (items.map Prod.fst).find? (namesToken lower) = some name →
        ∀ value, (items.find? fun p => p.1 = name).map Prod.snd = some value → decodable value := by
  induction items with
  | nil => simp [scanToken]
  | cons item items ih =>
    obtain ⟨key, value⟩ := item
    by_cases hname : namesToken lower key
    · rw [scanToken_isOk_of_namesToken hname]
      simp [hname]
    by_cases hkey : decodable key
    · have hother : ∀ name, (items.map Prod.fst).find? (namesToken lower) = some name →
          (key = name) = False := fun name hfind =>
        eq_false fun h => hname (h ▸ List.find?_some hfind)
      rw [scanToken_of_not_namesToken hkey hname, ih]
      simp only [List.map_cons, Bool.eq_false_iff.mpr hname, Bool.not_false,
        List.takeWhile_cons_of_pos, List.forall_mem_cons, hkey, true_and, List.find?_cons]
      refine and_congr_right fun _ => forall₂_congr fun name hfind => ?_
      simp only [hother name hfind, decide_false]
    · rw [scanToken_of_not_decodable hkey]
      refine iff_of_false (fun h => by simp at h) fun h => hkey (h.1 key ?_)
      simp [hname]

/-- **The token is looked for without an error** if the headers are readable, and only then. -/
theorem findToken_isOk_iff (headers : List (ByteArray × ByteArray)) :
    (∃ found, findToken lower headers = .ok found) ↔ ReadableHeaders lower headers := by
  have hvalue : ∀ name, ((Dict.ofPairs headers).items.find? fun p => p.1 = name).map Prod.snd =
      lastValue headers name := Dict.get?_ofPairs headers
  simp only [findToken, scanToken_isOk_iff, ReadableHeaders, Dict.mem_takeWhile_keys_ofPairs,
    Dict.find?_keys_ofPairs, hvalue]

/-- A token that is found is the value of a header that names it… -/
theorem exists_header_of_findToken {headers : List (ByteArray × ByteArray)} {apiKey : String}
    (h : findToken lower headers = .ok (some apiKey)) :
    ∃ header ∈ headers, namesToken lower header.1 ∧ String.fromUTF8? header.2 = some apiKey := by
  obtain ⟨key, value, name, hmem, hkey, hname, hvalue⟩ := exists_of_scanToken lower h
  rw [Dict.mem_items_iff, Dict.get?_ofPairs] at hmem
  obtain ⟨header, hlast, rfl⟩ := Option.map_eq_some_iff.mp hmem
  obtain ⟨hheader, hsame⟩ := List.mem_filter.mp (List.mem_of_getLast? hlast)
  obtain rfl := of_decide_eq_true hsame
  exact ⟨header, hheader, namesToken_iff.mpr ⟨name, hkey, hname⟩, hvalue⟩

/-- …where nothing is found, no header names it… -/
theorem not_namesToken_of_scanToken {items : List (ByteArray × ByteArray)}
    (h : scanToken lower items = .ok none) : ∀ item ∈ items, ¬ namesToken lower item.1 := by
  induction items with
  | nil => simp
  | cons item items ih =>
    obtain ⟨key, value⟩ := item
    obtain ⟨name, hkey, h⟩ := bind_eq_ok_iff.mp h
    split_ifs at h with hname
    · obtain ⟨v, -, hv⟩ := bind_eq_ok_iff.mp h
      cases hv
    · refine List.forall_mem_cons.mpr ⟨?_, ih h⟩
      simp [namesToken, decode_eq_ok_iff.mp hkey, hname]

/-- …and where one header names it, its value is found. -/
theorem findToken_of_filter {headers : List (ByteArray × ByteArray)}
    {header : ByteArray × ByteArray} {apiKey : String} {found : Option String}
    (hone : headers.filter (fun h => namesToken lower h.1) = [header])
    (hvalue : String.fromUTF8? header.2 = some apiKey)
    (h : findToken lower headers = .ok found) : found = some apiKey := by
  have hmine : ∀ other, other ∈ headers ∧ namesToken lower other.1 ↔ other = header :=
    fun other => by
      rw [← List.mem_singleton (a := other), ← hone, List.mem_filter]
  obtain ⟨hheader, hname⟩ := (hmine header).mpr rfl
  cases found with
  | none =>
    have hkey := (Dict.mem_keys_ofPairs headers header.1).mpr (List.mem_map_of_mem hheader)
    obtain ⟨item, hitem, hsame⟩ := List.mem_map.mp hkey
    exact absurd (hsame ▸ hname) (not_namesToken_of_scanToken h item hitem)
  | some apiKey' =>
    obtain ⟨other, hother, hname', hvalue'⟩ := exists_header_of_findToken h
    obtain rfl := (hmine other).mp ⟨hother, hname'⟩
    exact hvalue'.symm.trans hvalue

end Scan

/-! ## What is sent -/

/-- The answer to the token that was found. -/
def judgeToken : Option String → AuthAnswer
  | none => .refused "Missing API key"
  | some apiKey =>
    if apiKey = "" then .refused "Missing API key"
    else
      match validateApiKey apiKey with
      | none => .refused "Invalid API key"
      | some clientId => .forwarded apiKey clientId

theorem authMiddleware_of_exempt {lower : String → String} {scope : Scope}
    (h : scope.path ∈ exemptPaths) : authMiddleware lower scope = .ok .exempt := by
  rw [authMiddleware, if_pos h]
  rfl

theorem authMiddleware_of_not_exempt {lower : String → String} {scope : Scope}
    (h : scope.path ∉ exemptPaths) :
    authMiddleware lower scope = (findToken lower scope.headers).map judgeToken := by
  rw [authMiddleware, if_neg h]
  cases findToken lower scope.headers with
  | error e => rfl
  | ok found =>
    cases found with
    | none => rfl
    | some apiKey =>
      dsimp only [bind, Except.bind, Except.map, judgeToken]
      split_ifs
      · rfl
      · cases validateApiKey apiKey <;> rfl

/-- A token that names a client is forwarded for that client… -/
theorem judgeToken_of_validate {apiKey clientId : String}
    (h : validateApiKey apiKey = some clientId) :
    judgeToken (some apiKey) = .forwarded apiKey clientId := by
  have hnone : validateApiKey "" = none := by decide
  have hempty : apiKey ≠ "" := by
    rintro rfl
    exact Option.some_ne_none _ (h.symm.trans hnone)
  simp only [judgeToken, if_neg hempty, h]

/-- …and nothing else is forwarded. -/
theorem judgeToken_cases (found : Option String) :
    (∃ detail, judgeToken found = .refused detail) ∨
      ∃ apiKey clientId, found = some apiKey ∧ validateApiKey apiKey = some clientId ∧
        judgeToken found = .forwarded apiKey clientId := by
  cases found with
  | none => exact .inl ⟨_, rfl⟩
  | some apiKey =>
    cases hclient : validateApiKey apiKey with
    | none =>
      simp only [judgeToken, hclient]
      split_ifs <;> exact .inl ⟨_, rfl⟩
    | some clientId => exact .inr ⟨apiKey, clientId, rfl, hclient, judgeToken_of_validate hclient⟩

namespace AuthAnswer

/-- Whether the request goes on to the application. -/
def forwards : AuthAnswer → Bool
  | .refused _ => false
  | _ => true

/-- `scope["client_id"]`, where it is set. -/
def clientId : AuthAnswer → Option String
  | .forwarded _ clientId => some clientId
  | _ => none

/-- What `AuthMiddleware.__call__` sends itself. -/
def messages : AuthAnswer → List AsgiMessage
  | .refused detail => sendErrorResponse 401 detail
  | _ => []

end AuthAnswer

/-- **Every request is answered**, forwarded in silence or refused with one complete response; what
is forwarded past a path that is not exempt has a token that names the client; and a token that is
alone and names a client is forwarded. -/
structure AuthAnswered (lower : String → String) (scope : Scope) : Prop where
  answers : ∃ answer, authMiddleware lower scope = .ok answer ∧
    (answer.forwards ∧ answer.messages = [] ∨
      ¬ answer.forwards ∧ CompleteResponse 401 answer.messages)
  identified : ∀ answer, authMiddleware lower scope = .ok answer → answer.forwards →
    scope.path ∉ exemptPaths → ∃ header ∈ scope.headers, namesToken lower header.1 ∧
      ∃ apiKey clientId, String.fromUTF8? header.2 = some apiKey ∧
        validateApiKey apiKey = some clientId ∧ answer.clientId = some clientId
  admits : ∀ header apiKey clientId,
    scope.headers.filter (fun h => namesToken lower h.1) = [header] →
    String.fromUTF8? header.2 = some apiKey → validateApiKey apiKey = some clientId →
    ∃ answer, authMiddleware lower scope = .ok answer ∧ answer.forwards

section Answers

variable {lower : String → String} {scope : Scope}

/-- The middleware does not raise if the path is exempt or the headers are readable. -/
theorem authMiddleware_isOk_iff :
    (∃ answer, authMiddleware lower scope = .ok answer) ↔
      scope.path ∈ exemptPaths ∨ ReadableHeaders lower scope.headers := by
  by_cases hexempt : scope.path ∈ exemptPaths
  · exact iff_of_true ⟨_, authMiddleware_of_exempt hexempt⟩ (.inl hexempt)
  · rw [authMiddleware_of_not_exempt hexempt, or_iff_right hexempt, ← findToken_isOk_iff]
    cases findToken lower scope.headers <;> simp [Except.map]

/-- What is answered past a path that is not exempt is the judgement on a token that was found. -/
theorem exists_found_of_answer (hexempt : scope.path ∉ exemptPaths) {answer : AuthAnswer}
    (h : authMiddleware lower scope = .ok answer) :
    ∃ found, findToken lower scope.headers = .ok found ∧ answer = judgeToken found := by
  rw [authMiddleware_of_not_exempt hexempt] at h
  cases hfound : findToken lower scope.headers with
  | error e => rw [hfound] at h; cases h
  | ok found =>
    rw [hfound] at h
    exact ⟨found, rfl, (Except.ok.inj h).symm⟩

/-- **A request is answered as it should be** if its path is exempt or its headers are readable as
far as they are read, and only then. -/
theorem authAnswered_iff :
    AuthAnswered lower scope ↔ scope.path ∈ exemptPaths ∨ ReadableHeaders lower scope.headers := by
  rw [← authMiddleware_isOk_iff]
  refine ⟨fun h => h.answers.imp fun _ h => h.1, fun ⟨answer, hanswer⟩ => ?_⟩
  by_cases hexempt : scope.path ∈ exemptPaths
  · have hall : authMiddleware lower scope = .ok .exempt := authMiddleware_of_exempt hexempt
    exact ⟨⟨.exempt, hall, .inl ⟨rfl, rfl⟩⟩, fun _ _ _ hne => absurd hexempt hne,
      fun _ _ _ _ _ _ => ⟨.exempt, hall, rfl⟩⟩
  · obtain ⟨found, hfound, rfl⟩ := exists_found_of_answer hexempt hanswer
    refine ⟨⟨_, hanswer, ?_⟩, fun answer' hanswer' hforwards _ => ?_,
      fun header apiKey clientId hone hvalue hclient => ⟨_, hanswer, ?_⟩⟩
    · rcases judgeToken_cases found with ⟨detail, hrefused⟩ | ⟨apiKey, clientId, -, -, hforwarded⟩
      · rw [hrefused]
        exact .inr ⟨Bool.false_ne_true, complete_sendErrorResponse 401 detail⟩
      · rw [hforwarded]
        exact .inl ⟨rfl, rfl⟩
    · obtain rfl := Except.ok.inj (hanswer.symm.trans hanswer')
      rcases judgeToken_cases found with
        ⟨detail, hrefused⟩ | ⟨apiKey, clientId, rfl, hclient, hforwarded⟩
      · rw [hrefused] at hforwards
        exact absurd hforwards Bool.false_ne_true
      · obtain ⟨header, hheader, hname, hvalue⟩ := exists_header_of_findToken hfound
        exact ⟨header, hheader, hname, apiKey, clientId, hvalue, hclient, by rw [hforwarded]; rfl⟩
    · rw [findToken_of_filter hone hvalue hfound, judgeToken_of_validate hclient]
      rfl

end Answers

/-- A request whose token is not UTF-8. -/
def probe : Scope := ⟨"/v1/audit-voice", [(tokenHeader, ⟨#[0xff]⟩)], .address "192.0.2.1" 50000⟩

/-- The probe makes the middleware raise. -/
theorem not_forall_authAnswered : ¬ ∀ lower scope, AuthAnswered lower scope := by
  intro h
  have hanswers := (h id probe).answers.imp fun _ h => h.1
  have hread := (authMiddleware_isOk_iff.mp hanswers).resolve_left (by decide)
  have hname : (probe.headers.map Prod.fst).find? (namesToken id) = some tokenHeader := by
    have htoken : namesToken id tokenHeader = true := by decide
    simp [probe, htoken]
  have hvalue : lastValue probe.headers tokenHeader = some ⟨#[0xff]⟩ := by
    simp [probe, lastValue]
  exact absurd (hread.2 _ hname _ hvalue) (by decide)

end BioShield

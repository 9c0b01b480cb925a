import PolyLex.Config.Basic
import PolyLex.Json.Value
import PolyLex.Remote.Prompt
import PolyLex.Text.Quoted

/-!
# The remote service

The service answers questions about sources over the web. `Service.select` makes it out of the
settings, if they allow for it and there is a key; `Service.request` is the request that carries a
question. No request asks for training or for any use of its data.
-/

namespace PolyLex.Remote

open Json (Value)
open Numeric

/-- A service that can be asked. -/
structure Service where
  apiKey : String
  endpoint : Url.Address
  model : String
  temperature : Binary
  siteUrl : String
  siteName : String
  deriving Repr, DecidableEq

def serviceName : String := "openrouter"

/-! ### Making a service -/

/-- The address that questions are sent to. Slashes at the end of the base do not matter. -/
def endpoint [Url.DomainNames] (base : String) : Except ConfigProblem Url.Address :=
  let directory := String.ofList (Text.dropEndWhile (· == '/') base.toList) ++ "/"
  match Url.Address.parse directory with
  | .error fault => .error (.endpoint base fault)
  | .ok address =>
    match address.sibling ["chat", "completions"] with
    | .error fault => .error (.endpoint base fault)
    | .ok address => .ok address

namespace Service

section Names

variable [Url.DomainNames]

/-- The service of some settings, with a key. -/
def ofSettings (r : RemoteSettings) (key : String) : Except Error Service :=
  match Remote.endpoint r.apiBase with
  | .error problem => .error (.config problem)
  | .ok endpoint =>
    .ok { apiKey := key, endpoint, model := r.model, temperature := r.temperature,
          siteUrl := r.siteUrl, siteName := r.siteName }

/-- The service that the settings ask for, if it is enabled and there is a key. -/
def select (r : RemoteSettings) (keyOfEnvironment : Option String) :
    Except Error (Option Service) :=
  if !r.enabled then .ok none
  else if r.provider ≠ serviceName then .error (.config (.unknownProvider r.provider))
  else match r.resolveKey? keyOfEnvironment with
    | none => .ok none
    | some key => (ofSettings r key).map some

end Names

/-- In descriptions numbers from a ten-thousandth up to ten quadrillion have no exponent. -/
def numberLayout : Layout := { lowestPlain := some (-4), plainBelow := some 16 }

/-- A description for people, which keeps the key to itself. -/
def description (s : Service) : String :=
  "OpenRouterProvider \x7b api_key: \"[REDACTED]\", endpoint: " ++ Text.quote s.endpoint.text ++
    ", model: " ++ Text.quote s.model ++ ", temperature: " ++
    numberLayout.write .single s.temperature ++ " \x7d"

end Service

/-! ### Requests -/

/-- A request that posts a JSON document. -/
structure Request where
  url : String
  /-- Names and values, apart from what the transport adds. -/
  headers : List (String × String)
  body : Value

/-- May the character stand in a header? -/
def isHeaderPart (c : Char) : Bool := c == '\t' || (' ' ≤ c && c ≠ '\x7F')

/-- A message of a conversation. -/
def message (role content : String) : Value :=
  .obj [("role", .str role), ("content", .str content)]

namespace Service

/-- The question about a source. -/
def question (s : Service) (language : Language) (source : String) : Value :=
  .obj [
    ("model", .str s.model),
    ("messages", .arr [message "system" systemPrompt,
      message "user" (analysisPrompt language source)]),
    ("temperature", .real .single s.temperature),
    ("allow_training", .bool false),
    ("data_policy", .obj [
      ("allow_collection", .bool false),
      ("allow_search_index", .bool false),
      ("allow_prompt_training", .bool false)])]

def headers (s : Service) : List (String × String) :=
  [("authorization", "Bearer " ++ s.apiKey), ("http-referer", s.siteUrl), ("x-title", s.siteName),
   ("content-type", "application/json")]

/-- The request that carries the question about a source. -/
def request (s : Service) (language : Language) (source : String) : Except SendProblem Request :=
  if s.headers.all fun h => h.2.toList.all isHeaderPart then
    .ok { url := s.endpoint.text, headers := s.headers, body := s.question language source }
  else .error .badHeader

end Service

end PolyLex.Remote

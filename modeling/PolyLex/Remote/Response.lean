import PolyLex.Json.Decode
import PolyLex.Remote.Payload
import PolyLex.Remote.Service

/-!
# Responses of the remote service

A response of success holds a list of choices; the text of the first one's message is the reply. Any
other response is a refusal. `Service.ask` puts a question to the service over a transport and
returns the reply.
-/

namespace PolyLex.Remote

open Json (Value)

/-- What comes back for a request. -/
structure Response where
  status : Nat
  body : String

/-- A way to send requests. -/
abbrev Transport := Request → Except SendProblem Response

/-- The transport of a machine without a network. -/
def noNetwork : Transport := fun request => .error (.unreachable request.url)

/-! ### Statuses -/

/-- The phrases of the statuses. -/
def phrases : List (Nat × String) :=
  [(100, "Continue"), (101, "Switching Protocols"), (102, "Processing"), (200, "OK"),
   (201, "Created"), (202, "Accepted"), (203, "Non Authoritative Information"),
   (204, "No Content"), (205, "Reset Content"), (206, "Partial Content"), (207, "Multi-Status"),
   (208, "Already Reported"), (226, "IM Used"), (300, "Multiple Choices"),
   (301, "Moved Permanently"), (302, "Found"), (303, "See Other"), (304, "Not Modified"),
   (305, "Use Proxy"), (307, "Temporary Redirect"), (308, "Permanent Redirect"),
   (400, "Bad Request"), (401, "Unauthorized"), (402, "Payment Required"), (403, "Forbidden"),
   (404, "Not Found"), (405, "Method Not Allowed"), (406, "Not Acceptable"),
   (407, "Proxy Authentication Required"), (408, "Request Timeout"), (409, "Conflict"),
   (410, "Gone"), (411, "Length Required"), (412, "Precondition Failed"),
   (413, "Payload Too Large"), (414, "URI Too Long"), (415, "Unsupported Media Type"),
   (416, "Range Not Satisfiable"), (417, "Expectation Failed"), (418, "I'm a teapot"),
   (421, "Misdirected Request"), (422, "Unprocessable Entity"), (423, "Locked"),
   (424, "Failed Dependency"), (425, "Too Early"), (426, "Upgrade Required"),
   (428, "Precondition Required"), (429, "Too Many Requests"),
   (431, "Request Header Fields Too Large"), (451, "Unavailable For Legal Reasons"),
   (500, "Internal Server Error"), (501, "Not Implemented"), (502, "Bad Gateway"),
   (503, "Service Unavailable"), (504, "Gateway Timeout"), (505, "HTTP Version Not Supported"),
   (506, "Variant Also Negotiates"), (507, "Insufficient Storage"), (508, "Loop Detected"),
   (510, "Not Extended"), (511, "Network Authentication Required")]

def statusText (status : Nat) : String :=
  toString status ++ " " ++ (phrases.lookup status).getD "<unknown status code>"

def isSuccess (status : Nat) : Bool := 200 ≤ status && status < 300

/-! ### Replies -/

/-- The text of a message, if it has one. -/
def messageContent? (v : Value) : Option (Option String) := do
  let [content] ← Json.record? ["content"] v | none
  Json.fieldOr none (Json.nullable? Json.str?) content

/-- The text of a choice's message, if it has one. -/
def choiceContent? (v : Value) : Option (Option String) := do
  let [message] ← Json.record? ["message"] v | none
  Json.required? messageContent? message

/-- The texts of the choices. -/
def choices? (v : Value) : Option (List (Option String)) := do
  let [choices] ← Json.record? ["choices"] v | none
  Json.fieldOr [] (fun
    | .arr items => items.mapM choiceContent?
    | _ => none) choices

/-- The reply in the body of a response of success. -/
def readBody (body : String) : Except ReplyProblem String :=
  match (Json.readRecord body).toOption.bind choices? with
  | none => .error .undecodable
  | some (some content :: _) =>
    if Text.isBlankText content then .error .noContent else .ok content
  | some _ => .error .noContent

def readResponse (r : Response) : Except Error String :=
  if isSuccess r.status then (readBody r.body).mapError Error.malformedReply
  else .error (.remoteUnavailable (.refused (statusText r.status) (preview r.body)))

/-- The reply of the service to the question about a source. -/
def Service.ask (s : Service) (transport : Transport) (language : Language) (source : String) :
    Except Error String :=
  match (s.request language source).bind transport with
  | .error problem => .error (.remoteUnavailable (.notSent problem))
  | .ok response => readResponse response

end PolyLex.Remote

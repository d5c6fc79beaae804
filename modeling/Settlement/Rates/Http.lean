import Settlement.Service.Basic
import Settlement.Service.Encoding

/-!
The rate provider over HTTP: the address of a pair's rate, and what the service makes of the reply.
-/

namespace Settlement

structure RateEndpoint where
  baseUrl : String

inductive HttpReply where
  /-- No connection, or one that was closed without an answer. -/
  | nothing
  /-- A body that ended early is missing. -/
  | answer (status : Nat) (body : Option String)
deriving DecidableEq

def HttpReply.statusOf (line : String) : Option Nat :=
  match line.toList with
  | a :: b :: c :: rest =>
    if rest.isEmpty || rest.head? = some ' ' then
      match Digits.readMagnitude 999 .tooLarge 0 [a, b, c] with
      | .ok status => if status < 100 then none else some status
      | .error _ => none
    else none
  | _ => none

/-- What a status and a body come to. A status that only announces an answer is none. -/
def HttpReply.ofStatus (line : String) (body : Option String) : HttpReply :=
  match statusOf line with
  | none => .nothing
  | some status => if status < 200 ∧ status ≠ 101 then .nothing else .answer status body

namespace RateEndpoint

def name : String := "frankfurter"

def root (e : RateEndpoint) : List Char :=
  (e.baseUrl.toList.reverse.dropWhile (· = '/')).reverse

def url (e : RateEndpoint) (source target : Currency) : String :=
  String.ofList e.root ++ "/latest?from=" ++ source.code ++ "&to=" ++ target.code

def pathOf (url : List Char) : List Char :=
  match url.dropWhile (· ≠ ':') with
  | ':' :: '/' :: '/' :: rest => rest.dropWhile (· ≠ '/')
  | _ => url

def requestLine (e : RateEndpoint) (source target : Currency) : String :=
  "GET " ++ String.ofList (pathOf (e.url source target).toList) ++ " HTTP/1.1"

def reason : Nat → Option String
  | 101 => "Switching Protocols" | 200 => "OK" | 201 => "Created" | 202 => "Accepted"
  | 203 => "Non Authoritative Information" | 204 => "No Content" | 205 => "Reset Content"
  | 206 => "Partial Content" | 207 => "Multi-Status" | 208 => "Already Reported" | 226 => "IM Used"
  | 300 => "Multiple Choices" | 301 => "Moved Permanently" | 302 => "Found" | 303 => "See Other"
  | 304 => "Not Modified" | 305 => "Use Proxy" | 307 => "Temporary Redirect"
  | 308 => "Permanent Redirect" | 400 => "Bad Request" | 401 => "Unauthorized"
  | 402 => "Payment Required" | 403 => "Forbidden" | 404 => "Not Found"
  | 405 => "Method Not Allowed" | 406 => "Not Acceptable" | 407 => "Proxy Authentication Required"
  | 408 => "Request Timeout" | 409 => "Conflict" | 410 => "Gone" | 411 => "Length Required"
  | 412 => "Precondition Failed" | 413 => "Payload Too Large" | 414 => "URI Too Long"
  | 415 => "Unsupported Media Type" | 416 => "Range Not Satisfiable" | 417 => "Expectation Failed"
  | 418 => "I'm a teapot" | 421 => "Misdirected Request" | 422 => "Unprocessable Entity"
  | 423 => "Locked" | 424 => "Failed Dependency" | 425 => "Too Early" | 426 => "Upgrade Required"
  | 428 => "Precondition Required" | 429 => "Too Many Requests"
  | 431 => "Request Header Fields Too Large" | 451 => "Unavailable For Legal Reasons"
  | 500 => "Internal Server Error" | 501 => "Not Implemented" | 502 => "Bad Gateway"
  | 503 => "Service Unavailable" | 504 => "Gateway Timeout" | 505 => "HTTP Version Not Supported"
  | 506 => "Variant Also Negotiates" | 507 => "Insufficient Storage" | 508 => "Loop Detected"
  | 510 => "Not Extended" | 511 => "Network Authentication Required"
  | _ => none

def statusText (status : Nat) : String :=
  Digits.natText status ++ " " ++ (reason status).getD "<unknown status code>"

def bodyOf (status : Nat) (body : Option String) : Option String :=
  if status = 204 then some "" else body

/-- The rates in a reply. Only a status of the 200s has any. -/
def rates (e : RateEndpoint) (source target : Currency) :
    HttpReply → Except RateError RateResponse
  | .nothing =>
    .error (.unavailable ("error sending request for url (" ++ e.url source target ++ ")"))
  | .answer status body =>
    if status < 200 ∨ 300 ≤ status then
      .error (.unavailable ("Rate provider returned " ++ statusText status))
    else
      match ((bodyOf status body).bind Json.ofText?).bind RateResponse.ofJson? with
      | some response => .ok response
      | none => .error (.unavailable "Invalid rate response: error decoding response body")

end RateEndpoint
end Settlement

import Mathlib.Data.List.Infix
import Janus.Server.Models

/-! The HTTP client of the runners: what it makes of a response, and the texts of its errors. -/

namespace Janus.Server

/-- `str::contains`. -/
def contains (text pattern : String) : Bool := decide (pattern.toList <:+: text.toList)

/-- `str::trim`. -/
def trim (text : String) : String :=
  String.ofList ((text.toList.dropWhile isWhitespace).reverse.dropWhile isWhitespace).reverse

structure LimitsConfig where
  runnerJsonBytes : ℕ
  runnerLogsBytes : ℕ
  runnerArtifactBytes : ℕ
  runnerErrorBytes : ℕ

inductive Payload
  | created (response : JobCreatedResponse)
  | status (response : JobStatusResponse)
  | logs (response : JobLogsResponse)
  | uploaded (response : ArtifactUploadResponse)
  | capabilities (response : RunnerCapabilitiesResponse)
  | jobs (jobs : List RunnerJobDefinition)
  | other

structure HttpBody where
  bytes : Bytes := []
  text : String := ""
  json : Option Value := none
  payload : Payload := .other
  parseError : String := ""

structure HttpResponse where
  status : ℕ
  retryAfter : Option String := none
  body : Except String HttpBody := .ok {}

def StatusCode.canonicalReason : ℕ → Option String
  | 100 => "Continue"
  | 101 => "Switching Protocols"
  | 102 => "Processing"
  | 200 => "OK"
  | 201 => "Created"
  | 202 => "Accepted"
  | 203 => "Non Authoritative Information"
  | 204 => "No Content"
  | 205 => "Reset Content"
  | 206 => "Partial Content"
  | 207 => "Multi-Status"
  | 208 => "Already Reported"
  | 226 => "IM Used"
  | 300 => "Multiple Choices"
  | 301 => "Moved Permanently"
  | 302 => "Found"
  | 303 => "See Other"
  | 304 => "Not Modified"
  | 305 => "Use Proxy"
  | 307 => "Temporary Redirect"
  | 308 => "Permanent Redirect"
  | 400 => "Bad Request"
  | 401 => "Unauthorized"
  | 402 => "Payment Required"
  | 403 => "Forbidden"
  | 404 => "Not Found"
  | 405 => "Method Not Allowed"
  | 406 => "Not Acceptable"
  | 407 => "Proxy Authentication Required"
  | 408 => "Request Timeout"
  | 409 => "Conflict"
  | 410 => "Gone"
  | 411 => "Length Required"
  | 412 => "Precondition Failed"
  | 413 => "Payload Too Large"
  | 414 => "URI Too Long"
  | 415 => "Unsupported Media Type"
  | 416 => "Range Not Satisfiable"
  | 417 => "Expectation Failed"
  | 418 => "I'm a teapot"
  | 421 => "Misdirected Request"
  | 422 => "Unprocessable Entity"
  | 423 => "Locked"
  | 424 => "Failed Dependency"
  | 425 => "Too Early"
  | 426 => "Upgrade Required"
  | 428 => "Precondition Required"
  | 429 => "Too Many Requests"
  | 431 => "Request Header Fields Too Large"
  | 451 => "Unavailable For Legal Reasons"
  | 500 => "Internal Server Error"
  | 501 => "Not Implemented"
  | 502 => "Bad Gateway"
  | 503 => "Service Unavailable"
  | 504 => "Gateway Timeout"
  | 505 => "HTTP Version Not Supported"
  | 506 => "Variant Also Negotiates"
  | 507 => "Insufficient Storage"
  | 508 => "Loop Detected"
  | 510 => "Not Extended"
  | 511 => "Network Authentication Required"
  | _ => none

def StatusCode.display (status : ℕ) : String :=
  let reason := (StatusCode.canonicalReason status).getD "<unknown status code>"
  s!"{status} {reason}"

def Value.getStr (value : Value) (field : String) : Option String :=
  match value with
  | .object fields =>
    match fields.lookup field with
    | some (.string text) => some text
    | _ => none
  | _ => none

def readResponseBytes (response : HttpResponse) (maxBytes : ℕ) : Except String HttpBody :=
  match response.body with
  | .error message => .error message
  | .ok body =>
    if body.bytes.length > maxBytes then .error s!"runner response exceeded {maxBytes} bytes"
    else .ok body

def readJsonResponse {α : Type} (response : HttpResponse) (maxBytes : ℕ)
    (awaited : Payload → Option α) : Except String α :=
  (readResponseBytes response maxBytes).bind fun body =>
    match awaited body.payload with
    | some a => .ok a
    | none => .error body.parseError

def runnerHttpErrorDetail (body : HttpBody) : Option String :=
  let detail := body.json.bind fun value =>
    match value.getStr "code", value.getStr "message" with
    | some code, some message => some (code ++ ": " ++ message)
    | some code, none => some code
    | none, some message => some message
    | none, none => none
  detail.or (if isBlank body.text then none else some (trim body.text))

def runnerHttpError (context : String) (response : HttpResponse) (maxErrorBytes : ℕ) : String :=
  let body := match readResponseBytes response maxErrorBytes with
    | .ok body => body
    | .error _ => {}
  let retryAfter := match response.retryAfter with
    | some value => " retry_after=" ++ value ++ "s"
    | none => ""
  let failed := context ++ " with " ++ StatusCode.display response.status
  match runnerHttpErrorDetail body with
  | some detail => failed ++ ": " ++ detail ++ retryAfter
  | none => failed ++ retryAfter

inductive RunnerRequest
  | uploadArtifact (bytes : Bytes) (sha256 : String)
  | createJobRun (jobRunId : Id) (runnerJobName : String) (idempotencyKey : Id)
      (body : List (String × Value))
  | getJobRun (runnerRunId : String)
  | getJobLogs (runnerRunId : String)
  | cancelJobRun (runnerRunId : String)
  | downloadArtifact (artifactId : String)

def RunnerRequest.Result : RunnerRequest → Type
  | .uploadArtifact _ _ => ArtifactUploadResponse
  | .createJobRun _ _ _ _ => JobCreatedResponse
  | .getJobRun _ => JobStatusResponse
  | .getJobLogs _ => JobLogsResponse
  | .cancelJobRun _ => Unit
  | .downloadArtifact _ => Bytes

def RunnerRequest.receive (limits : LimitsConfig) (reply : Except String HttpResponse) :
    (request : RunnerRequest) → Except String request.Result
  | .uploadArtifact _ _ => reply.bind fun response =>
    if response.status ≠ 201 then
      .error (runnerHttpError "runner artifact upload failed" response limits.runnerErrorBytes)
    else
      readJsonResponse response limits.runnerJsonBytes fun
        | .uploaded upload => some upload
        | _ => none
  | .createJobRun _ _ _ _ => reply.bind fun response =>
    if response.status ≠ 201 ∧ response.status ≠ 200 then
      .error (runnerHttpError "runner create job failed" response limits.runnerErrorBytes)
    else
      readJsonResponse response limits.runnerJsonBytes fun
        | .created created => some created
        | _ => none
  | .getJobRun _ => reply.bind fun response =>
    if response.status ≠ 200 then
      .error ("runner get run failed with " ++ StatusCode.display response.status)
    else
      readJsonResponse response limits.runnerJsonBytes fun
        | .status status => some status
        | _ => none
  | .getJobLogs _ => reply.bind fun response =>
    if response.status ≠ 200 then
      .error ("runner logs failed with " ++ StatusCode.display response.status)
    else
      readJsonResponse response limits.runnerLogsBytes fun
        | .logs logs => some logs
        | _ => none
  | .cancelJobRun _ => reply.bind fun response =>
    if response.status ≠ 202 then
      .error ("runner cancel failed with " ++ StatusCode.display response.status)
    else
      .ok ()
  | .downloadArtifact _ => reply.bind fun response =>
    if response.status ≠ 200 then
      .error (runnerHttpError "runner artifact download failed" response limits.runnerErrorBytes)
    else
      (readResponseBytes response limits.runnerArtifactBytes).map HttpBody.bytes

end Janus.Server

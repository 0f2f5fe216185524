import Paymaster.Json.Value
import Paymaster.Text.Blank
/-!
# Replies

A reply of one of the services, before it is sent: the status, the type and the text of the body,
and the time after which a refused caller may come back.
-/

namespace Paymaster.Http

/-- A reply to a request. -/
structure Reply where
  /-- The status code. -/
  status : Nat
  /-- The type of the body. -/
  contentType : String
  body : String
  /-- The seconds after which the caller may come back. -/
  retryAfter : Option Nat
  deriving DecidableEq, Repr

namespace Reply

/-- A reply with a JSON body. -/
def json (status : Nat) (body : Json) : Reply := ⟨status, "application/json", body.compact, none⟩

/-- A reply with a text of a given type. -/
def text (status : Nat) (contentType body : String) : Reply := ⟨status, contentType, body, none⟩

/-- The type of metrics. -/
def metricsType : String := "text/plain; version=0.0.4"

/-- The reply to a request for metrics that are not kept. -/
def metricsDisabled : Reply := text 404 "text/plain" "metrics disabled\n"

/-- An error in the body of a reply. -/
def errorBody (code message : String) : Json :=
  .table [("error", .table [("code", .text code), ("message", .text message)])]

/-- The reply to a request for something that is not there. -/
def notFound : Reply := json 404 (errorBody "NOT_FOUND" "not found")

end Reply

/-- The value of the first header with a name, in whatever case the name is written. -/
def header? (headers : List (String × String)) (name : String) : Option String :=
  (headers.find? fun h => Text.asciiLower h.1 == Text.asciiLower name).map (·.2)

end Paymaster.Http

import Paymaster.Http.Reply
import Paymaster.Http.Status
import Paymaster.Text.Split
/-!
# Requests and replies on the wire

The head of a request is a line with the method and the target, then a line for each header. A reply
is sent with its type and length; a refused caller is told when to come back.
-/

namespace Paymaster.Http

/-- The head of a request. -/
structure RequestHead where
  method : String
  /-- The path and the query. -/
  target : String
  /-- The headers in order. -/
  headers : List (String × String)
  deriving DecidableEq, Repr

/-- The name and the value of a header. -/
def headerOfLine (line : String) : Option (String × String) :=
  match Text.cut ':' line.toList with
  | (name, some value) => some (Text.trim (String.ofList name), Text.trim (String.ofList value))
  | (_, none) => none

/-- The head of a request that some lines are. -/
def RequestHead.ofLines : List String → Option RequestHead
  | [] => none
  | first :: rest =>
    match first.splitOn " " with
    | method :: target :: _ => some ⟨method, target, rest.filterMap headerOfLine⟩
    | _ => none

/-- The end of a line. -/
def lineEnd : String := "\r\n"

/-- A reply as it is sent. -/
def Reply.render (r : Reply) : String :=
  let headers := [("Content-Type", r.contentType), ("Content-Length", toString r.body.utf8ByteSize)] ++
    (r.retryAfter.map fun n => ("Retry-After", toString n)).toList
  String.join (s!"HTTP/1.1 {describeStatus r.status}{lineEnd}" ::
    (headers.map fun (k, v) => s!"{k}: {v}{lineEnd}") ++ [lineEnd, r.body])

end Paymaster.Http

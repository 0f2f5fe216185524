import Paymaster.Text.Blank
import Paymaster.Text.Hex
import Paymaster.Text.Split
import Paymaster.Text.Utf8
/-!
# Query strings

The part of a request line behind the question mark is a list of keys and values. In both a plus
sign stands for a blank and a percent sign with two digits for one byte of UTF-8; a percent sign
without two digits stands for itself. Of several values of one key the last counts.
-/

namespace Paymaster.Http

/-- The bytes that an escaped text stands for. -/
def percentDecode : List UInt8 → List UInt8
  | [] => []
  | 0x25 :: a :: b :: rest =>
    match Text.Hex.value? a, Text.Hex.value? b with
    | some x, some y => UInt8.ofNat (16 * x + y) :: percentDecode rest
    | _, _ => 0x25 :: percentDecode (a :: b :: rest)
  | 0x2b :: rest => 0x20 :: percentDecode rest
  | b :: rest => b :: percentDecode rest

/-- The text that an escaped text stands for. -/
def unescape (cs : List Char) : String :=
  Text.Utf8.decodeLossy (percentDecode (Text.Utf8.encode (String.ofList cs)))

/-- The keys and values of a query, in order. -/
abbrev Query := List (String × String)

namespace Query

/-- The key and the value of one part. -/
def ofPart (part : List Char) : String × String :=
  match Text.cut '=' part with
  | (key, some value) => (unescape key, unescape value)
  | (key, none) => (unescape key, "")

/-- Reads a query; parts of nothing but blanks are skipped. -/
def parse (q : String) : Query :=
  ((Text.splitOn '&' q.toList).filter fun part => !part.all Text.isBlank).map ofPart

/-- The last value of a key. -/
def get? (q : Query) (key : String) : Option String := q.reverse.lookup key

end Query

/-- The path and the query of a request target. -/
def splitTarget (url : String) : String × String :=
  match Text.cut '?' url.toList with
  | (path, some query) => (String.ofList path, String.ofList query)
  | (_, none) => (url, "")

theorem splitTarget_append {path : String} (h : '?' ∉ path.toList) (query : String) :
    splitTarget (path ++ "?" ++ query) = (path, query) := by
  have htarget : (path ++ "?" ++ query).toList = path.toList ++ '?' :: query.toList := by simp
  rw [splitTarget, htarget, Text.cut_append h]
  simp

theorem splitTarget_of_not_mem {path : String} (h : '?' ∉ path.toList) :
    splitTarget path = (path, "") := by
  rw [splitTarget, Text.cut_of_not_mem _ _ h]

end Paymaster.Http

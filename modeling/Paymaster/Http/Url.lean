import Paymaster.Text.Blank
import Paymaster.Text.Hex
import Paymaster.Text.Split
import Paymaster.Text.Unsigned
/-!
# Addresses on the web

Whether a text is an absolute URL that names a server. A scheme comes first. The common schemes need
a host, whatever the number of slashes before it; others need one only if two slashes announce it. A
host is a name without reserved characters, four numbers, or an address in brackets; a port is a
number of 16 bits. What follows the host is not looked at, since every text is a path.
-/

namespace Paymaster.Http.Url

/-- The character can stand in a scheme behind its first. -/
def isSchemeChar (c : Char) : Bool := c.isAlphanum || c == '+' || c == '-' || c == '.'

/-- The character is a control or a blank; such characters at the ends do not count. -/
def isMargin (c : Char) : Bool := c.toNat ≤ 0x20

/-- The characters of a URL that count: margins, tabs and ends of lines do not. -/
def significant (s : String) : List Char :=
  let trimmed := ((s.toList.dropWhile isMargin).reverse.dropWhile isMargin).reverse
  trimmed.filter fun c => c != '\t' && c != '\n' && c != '\r'

/-- The scheme in small letters, and what follows its colon. -/
def scheme? (cs : List Char) : Option (String × List Char) :=
  match cs.takeWhile isSchemeChar, cs.dropWhile isSchemeChar with
  | first :: name, ':' :: rest =>
    if first.isAlpha then some (Text.asciiLower (String.ofList (first :: name)), rest) else none
  | _, _ => none

/-- The schemes that need a host. -/
def hostSchemes : List String := ["http", "https", "ws", "wss", "ftp"]

/-- The character is a slash, or stands for one in the common schemes. -/
def isSlash (c : Char) : Bool := c == '/' || c == '\\'

/-- The characters that end the host and the port; the backslash does so in the common schemes
only. -/
def endsAuthority (common : Bool) (c : Char) : Bool :=
  c == '/' || c == '?' || c == '#' || (common && c == '\\')

/-- What follows the last at sign. -/
def afterUser (cs : List Char) : List Char := (cs.reverse.takeWhile (· != '@')).reverse

/-- The characters that no host holds. -/
def reservedChars : List Char :=
  [' ', '#', '/', ':', '<', '>', '?', '@', '[', '\\', ']', '^', '|', '%', '\x7f']

/-- The character can stand in a host. -/
def isHostChar (c : Char) : Bool := 0x20 < c.toNat && !reservedChars.contains c

/-- The number a part of four numbers denotes: decimal, octal behind `0`, hexadecimal behind
`0x`. -/
def part? (cs : List Char) : Option Nat :=
  let (base, digits) := match cs with
    | '0' :: 'x' :: rest => (16, rest)
    | '0' :: 'X' :: rest => (16, rest)
    | '0' :: d :: rest => (8, d :: rest)
    | cs => (10, cs)
  digits.foldlM (fun n c => do
    let d ← Text.Hex.value? (UInt8.ofNat c.toNat)
    if c.toNat < 128 && d < base then some (base * n + d) else none) 0

/-- The parts of a host between points, a single point at the end not counted. -/
def parts (host : List Char) : List (List Char) :=
  let parts := Text.splitOn '.' host
  if 1 < parts.length && parts.getLast? == some [] then parts.dropLast else parts

/-- The host reads as numbers: its last part is all digits, or a number. -/
def endsInNumber (host : List Char) : Bool :=
  match (parts host).getLast? with
  | some last => !last.isEmpty && (last.all Char.isDigit || (part? last).isSome)
  | none => false

/-- The parts are at most four numbers that fit: all but the last a byte, the last what is left. -/
def isAddress (host : List Char) : Bool :=
  let parts := parts host
  match parts.mapM fun p => if p.isEmpty then none else part? p with
  | none => false
  | some numbers =>
    numbers.length ≤ 4 && numbers.dropLast.all (· < 256) &&
      numbers.getLast?.all (· < 1 <<< (8 * (5 - numbers.length)))

/-- The group of an address in brackets is one to four digits. -/
def isGroup (cs : List Char) : Bool :=
  0 < cs.length && cs.length ≤ 4 && cs.all fun c => (part? ('0' :: 'x' :: [c])).isSome

/-- How many groups a list of groups counts for; a last one of four numbers counts for two. -/
def groups? (cs : List Char) : Option Nat :=
  if cs.isEmpty then some 0
  else
    let groups := Text.splitOn ':' cs
    match groups.getLast? with
    | some last =>
      if groups.all isGroup then some groups.length
      else if groups.dropLast.all isGroup && (Text.splitOn '.' last).length == 4 &&
          (Text.splitOn '.' last).all fun p => p.all Char.isDigit && !p.isEmpty &&
            ((part? p).any (· < 256) && (p.length == 1 || p.head? != some '0'))
      then some (groups.length + 1)
      else none
    | none => none

/-- What stands before two colons, and what behind them. -/
def cutColons : List Char → Option (List Char × List Char)
  | ':' :: ':' :: rest => some ([], rest)
  | c :: rest => (cutColons rest).map fun (a, b) => (c :: a, b)
  | [] => none

/-- The text is an address as it stands in brackets. -/
def isBracketed (cs : List Char) : Bool :=
  match cutColons cs with
  | none => groups? cs == some 8
  | some (front, back) =>
    match groups? front, groups? back with
    | some a, some b => a + b < 8 && !front.contains '.'
    | _, _ => false

/-- The text is a host; in the common schemes one that ends in a number has to be an address. -/
def isHost (common : Bool) (host : List Char) : Bool :=
  match host with
  | '[' :: rest => rest.getLast? == some ']' && isBracketed rest.dropLast
  | _ =>
    if common then
      host.all isHostChar && (!endsInNumber host || isAddress host)
    else host.all fun c => c == '%' || isHostChar c

/-- The text is a port, perhaps left out. -/
def isPort (cs : List Char) : Bool :=
  cs.all Char.isDigit && cs.foldl (fun n c => 10 * n + (c.toNat - '0'.toNat)) 0 < UInt16.size

/-- The host and the port; colons in brackets do not separate them. -/
def cutPort (cs : List Char) : List Char × Option (List Char) :=
  let tail := cs.reverse.takeWhile fun c => c != ':' && c != ']'
  let front := cs.reverse.drop tail.length
  match front with
  | ':' :: host => (host.reverse, some tail.reverse)
  | _ => (cs, none)

/-- The text names a server. -/
def isServer (common : Bool) (cs : List Char) : Bool :=
  let (host, port) := cutPort (afterUser cs)
  if host.isEmpty then !common && port.isNone && afterUser cs == cs
  else isHost common host && port.all isPort

/-- The text is an absolute URL. -/
def isAbsolute (s : String) : Bool :=
  match scheme? (significant s) with
  | none => false
  | some (name, rest) =>
    if hostSchemes.contains name then
      isServer true ((rest.dropWhile isSlash).takeWhile fun c => !endsAuthority true c)
    else match rest with
      | '/' :: '/' :: rest => isServer false (rest.takeWhile fun c => !endsAuthority false c)
      | _ => true

end Paymaster.Http.Url

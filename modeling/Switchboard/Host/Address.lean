/-
  Socket addresses: an IP address and a port.

  An IPv4 address has four numbers below 256.  An IPv6 address has eight groups of up to four
  hexadecimal digits; one run of zero groups may be left out, and the last two groups may be written
  as an IPv4 address.  In front of a port it stands in brackets.
-/
import Switchboard.Number.Integer

namespace Switchboard.Host

/-- A number in decimal up to a limit, without a sign. -/
def isNumberUpTo (limit : Nat) (cs : List Char) : Bool :=
  !cs.isEmpty && cs.all Char.isDigit && (Number.magnitude limit .tooLarge cs).isOk

/-- One of the four numbers of an IPv4 address, without zeros in front. -/
def isOctet (cs : List Char) : Bool :=
  isNumberUpTo 255 cs && cs.length ≤ 3 && (cs.head? != some '0' || cs.length == 1)

/-- Four numbers parted by dots. -/
def isIPv4 (cs : List Char) : Bool :=
  let octets := cs.splitOn '.'
  octets.length == 4 && octets.all isOctet

/-- A hexadecimal digit in either case. -/
def isHexDigit (c : Char) : Bool := c.isDigit || ('a' ≤ c && c ≤ 'f') || ('A' ≤ c && c ≤ 'F')

/-- One of the groups of an IPv6 address. -/
def isGroup (cs : List Char) : Bool := !cs.isEmpty && cs.length ≤ 4 && cs.all isHexDigit

/-- How many groups stand in a part of an IPv6 address; the last may be an IPv4 address. -/
def groupCount? (cs : List Char) : Option Nat :=
  if cs.isEmpty then some 0
  else
    let groups := cs.splitOn ':'
    let last := groups.getLastD []
    if groups.all isGroup then some groups.length
    else if groups.dropLast.all isGroup && isIPv4 last then some (groups.length + 1)
    else none

/-- The parts around the first double colon, if there is one. -/
def splitAtGap (front : List Char) : List Char → Option (List Char × List Char)
  | ':' :: ':' :: cs => some (front.reverse, cs)
  | c :: cs => splitAtGap (c :: front) cs
  | [] => none

/-- Eight groups, or fewer around a double colon that stands for at least one. -/
def isIPv6 (cs : List Char) : Bool :=
  match splitAtGap [] cs with
  | none => groupCount? cs == some 8
  | some (front, behind) =>
    !front.contains '.' &&
      match groupCount? front, groupCount? behind with
      | some m, some n => m + n ≤ 7
      | _, _ => false

/-- A port in decimal. -/
def isPort (cs : List Char) : Bool := isNumberUpTo 65535 cs

/-- The address and the port of a socket address. -/
def parseSocketAddress? (s : String) : Option (String × Nat) :=
  let cs := s.toList
  let port (cs : List Char) := ((Number.magnitude 65535 .tooLarge cs).toOption).getD 0
  match cs with
  | '[' :: rest =>
    let address := rest.takeWhile (· != ']')
    match rest.dropWhile (· != ']') with
    | ']' :: ':' :: p =>
      if isIPv6 address && isPort p then some (String.ofList address, port p) else none
    | _ => none
  | _ =>
    let address := cs.takeWhile (· != ':')
    match cs.dropWhile (· != ':') with
    | _ :: p => if isIPv4 address && isPort p then some (String.ofList address, port p) else none
    | [] => none

/-! ## Refusals -/

/-- What the system says when an address cannot be taken, by the number of its error. -/
def bindReason (code : Nat) : String :=
  (match code with
    | 13 => "Permission denied"
    | 98 => "Address already in use"
    | 99 => "Cannot assign requested address"
    | _ => "Unknown error " ++ toString code) ++ " (os error " ++ toString code ++ ")"

/-- What is said of a host name that stands for no address. -/
def lookupFailure : String := "failed to lookup address information: Name or service not known"

end Switchboard.Host

import NexaStays.SqlText

/-!
# Destinations of outbound requests

Which addresses and host names a server may contact on behalf of a host. Addresses come as
texts, from the answers of a resolver as well as from the host part of a URL.
-/
namespace NexaStays.OutboundUrl

open NexaStays.SqlText (trim)

/-- `toLowerCase` of a host or an address. -/
def toLowerCase (s : String) : String := String.ofList (s.toList.map Char.toLower)

/-- `replace(/^\[|\]$/g, '')`. -/
def dropBrackets (cs : List Char) : List Char :=
  let cs := if cs.head? = some '[' then cs.tail else cs
  if cs.getLast? = some ']' then cs.dropLast else cs

def stripBrackets (host : String) : String :=
  String.ofList (dropBrackets (toLowerCase (trim host)).toList)

/-- `split` at one character. -/
def splitAt (sep : Char) : List Char → List (List Char)
  | [] => [[]]
  | c :: cs =>
    match splitAt sep cs with
    | [] => [[c]]
    | part :: parts => if c = sep then [] :: part :: parts else (c :: part) :: parts

/-- The texts before and after the first `::`. -/
def splitDoubleColon : List Char → Option (List Char × List Char)
  | ':' :: ':' :: cs => some ([], cs)
  | c :: cs => (splitDoubleColon cs).map fun (left, right) => (c :: left, right)
  | [] => none

def isDigit (c : Char) : Bool := '0' ≤ c && c ≤ '9'

def isHexDigit (c : Char) : Bool := isDigit c || ('a' ≤ c && c ≤ 'f') || ('A' ≤ c && c ≤ 'F')

def digitValue (c : Char) : ℕ :=
  if isDigit c then c.toNat - '0'.toNat else c.toLower.toNat - 'a'.toNat + 10

def numberOf (base : ℕ) (cs : List Char) : ℕ := cs.foldl (fun n c => n * base + digitValue c) 0

/-- `(\d{1,3})\.(\d{1,3})\.(\d{1,3})\.(\d{1,3})`, with parts up to 255. -/
def parseIpv4 (ip : List Char) : Option (ℕ × ℕ × ℕ × ℕ) :=
  let part? (cs : List Char) : Option ℕ :=
    if cs ≠ [] ∧ cs.length ≤ 3 ∧ cs.all isDigit ∧ numberOf 10 cs ≤ 255 then some (numberOf 10 cs)
    else none
  match splitAt '.' ip with
  | [a, b, c, d] => do
    let a ← part? a
    let b ← part? b
    let c ← part? c
    let d ← part? d
    pure (a, b, c, d)
  | _ => none

/-- The ranges that are never contacted. -/
def blockedRange (a b : ℕ) : Bool :=
  a = 0 || a = 10 || a = 127 || (a = 169 && b = 254) || (a = 172 && (16 ≤ b && b ≤ 31)) ||
    (a = 192 && b = 168) || (a = 100 && (64 ≤ b && b ≤ 127)) || 224 ≤ a

def isBlockedIPv4 (ip : List Char) : Bool :=
  match parseIpv4 ip with
  | none => true
  | some (a, b, _, _) => blockedRange a b

/-- `parseInt(h, 16)` of the digits of a group; nothing for `NaN`. -/
def parseHex (cs : List Char) : Option ℕ :=
  match cs.takeWhile isHexDigit with
  | [] => none
  | digits => some (numberOf 16 digits)

/-- `split(':').filter(Boolean)`. -/
def groups (cs : List Char) : List (List Char) := (splitAt ':' cs).filter (· ≠ [])

def hextet? (cs : List Char) : Option ℕ := (parseHex cs).filter (· ≤ 0xffff)

/-- Four groups of one to three digits with dots between them. -/
def looksLikeIpv4 (cs : List Char) : Bool :=
  match splitAt '.' cs with
  | [a, b, c, d] => [a, b, c, d].all fun part => part ≠ [] && part.length ≤ 3 && part.all isDigit
  | _ => false

/-- The eight groups of an address, as far as they can be told. -/
def expandIpv6Hextets (ip : List Char) : Option (List ℕ) :=
  let bare := ((splitAt '%' (dropBrackets ip)).head?).getD []
  if ':' ∉ bare then none
  else
    let tail := ((splitAt ':' bare).getLast?).getD []
    let embedded := looksLikeIpv4 tail
    let core := if embedded then bare.take (bare.length - tail.length - 1) ++ ":0:0".toList else bare
    if embedded ∧ parseIpv4 tail = none then none
    else
      match splitDoubleColon core with
      | some (left, right) =>
        let left := groups left
        let right := groups (((splitDoubleColon right).map (·.1)).getD right)
        if left.length + right.length > 8 then none
        else do
          let left ← left.mapM hextet?
          let right ← right.mapM hextet?
          let hextets := left ++ List.replicate (8 - left.length - right.length) 0 ++ right
          match if embedded then parseIpv4 tail else none with
          | none => pure hextets
          | some (a, b, c, d) => pure ((hextets.set 6 (a * 256 + b)).set 7 (c * 256 + d))
      | none =>
        if (splitAt ':' core).length ≠ 8 then none else (splitAt ':' core).mapM hextet?

def isBlockedIPv6 (ip : List Char) : Bool :=
  match expandIpv6Hextets ip with
  | some [h0, h1, h2, h3, h4, h5, h6, h7] =>
    let mapped := h0 = 0 ∧ h1 = 0 ∧ h2 = 0 ∧ h3 = 0 ∧ h4 = 0 ∧ h5 = 0xffff
    if [h0, h1, h2, h3, h4, h5, h6, h7].all (· = 0) then true
    else if [h0, h1, h2, h3, h4, h5, h6].all (· = 0) ∧ h7 = 1 then true
    else if mapped then blockedRange (h6 / 256) (h6 % 256)
    else (h0 &&& 0xffc0) = 0xfe80 || (h0 &&& 0xfe00) = 0xfc00 || (h0 &&& 0xff00) = 0xff00
  | _ => true

/-- A decimal number up to 255 without leading zeros. -/
def ipv4Segment (cs : List Char) : Bool :=
  cs ≠ [] && cs.length ≤ 3 && cs.all isDigit && (numberOf 10 cs ≤ 255) &&
    (cs.length = 1 || cs.head? ≠ some '0')

def isIPv4 (cs : List Char) : Bool :=
  match splitAt '.' cs with
  | [a, b, c, d] => ipv4Segment a && ipv4Segment b && ipv4Segment c && ipv4Segment d
  | _ => false

def ipv6Group (cs : List Char) : Bool := cs ≠ [] && cs.length ≤ 4 && cs.all isHexDigit

/-- The number of groups of a part of an address, of which an IPv4 address at the end is two. -/
def ipv6Groups (cs : List Char) (last : Bool) : Option ℕ :=
  if cs = [] then some 0
  else
    let parts := splitAt ':' cs
    let tail := (parts.getLast?).getD []
    if last ∧ isIPv4 tail then
      if parts.dropLast.all ipv6Group then some (parts.length + 1) else none
    else if parts.all ipv6Group then some parts.length
    else none

def isIPv6 (cs : List Char) : Bool :=
  match splitAt '%' cs with
  | [] => false
  | address :: zone =>
    let validZone := match zone with
      | [] => true
      | [zone] => zone ≠ [] && zone.all fun c => c.isAlphanum || c ∈ ['-', '.', ':']
      | _ => false
    validZone &&
      match splitDoubleColon address with
      | some (left, right) =>
        match ipv6Groups left false, ipv6Groups right true with
        | some m, some n => m + n ≤ 7
        | _, _ => false
      | none => ipv6Groups address true = some 8

/-- `isIP` of the platform. -/
def isIP (host : String) : ℕ :=
  if isIPv4 host.toList then 4 else if isIPv6 host.toList then 6 else 0

def isBlockedIpAddress (ip : String) : Bool :=
  let host := stripBrackets ip
  match isIP host with
  | 4 => isBlockedIPv4 host.toList
  | 6 => isBlockedIPv6 host.toList
  | _ => true

/-- `BLOCKED_HOSTNAMES`. -/
def blockedHostnames : List String :=
  ["localhost", "metadata.google.internal", "metadata.goog", "metadata"]

def isBlockedOutboundHostname (hostname : String) : Bool :=
  let host := stripBrackets hostname
  if host ∈ blockedHostnames then true
  else if ".localhost".toList.isSuffixOf host.toList || ".local".toList.isSuffixOf host.toList then true
  else if isIP host = 4 ∨ isIP host = 6 then isBlockedIpAddress host
  else false

/-- An IPv4 address that is not blocked is in none of the ranges. -/
theorem not_blocked_ipv4 {ip : String} {a b c d : ℕ} (h : isBlockedIpAddress ip = false)
    (hversion : isIP (stripBrackets ip) = 4) (hip : parseIpv4 (stripBrackets ip).toList = some (a, b, c, d)) :
    blockedRange a b = false := by
  unfold isBlockedIpAddress at h
  simpa [hversion, isBlockedIPv4, hip] using h

/-- Loopback, private and link-local destinations, in the notations that name them. -/
example : ["127.0.0.1", "10.1.2.3", "169.254.169.254", "100.64.0.1", "::1", "[::1]", "::ffff:10.0.0.1",
    "fe80::1", "fd00::5", "not an address", "01.2.3.4"].all isBlockedIpAddress ∧
      isBlockedIpAddress "93.184.216.34" = false ∧ isBlockedIpAddress "2606:2800:220:1::5" = false := by
  decide +kernel

end NexaStays.OutboundUrl

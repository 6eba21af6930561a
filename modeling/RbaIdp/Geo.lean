import Mathlib.Algebra.Order.Ring.Nat
import RbaIdp.Environment

/-!
# Where an address is

Client IP to country and ASN for the login path.  Three sources, in order: the
TEST-NET table, the GeoIP databases, nothing.  An explicit override beats all
three and marks the login `simulated` when it changes what the address says.

The parser is the source language's `ipaddress.ip_address`.
-/

namespace RbaIdp

/-! ## Parsing addresses -/

def decimalDigit? (c : Char) : Option ℕ :=
  if '0' ≤ c ∧ c ≤ '9' then some (c.toNat - '0'.toNat) else none

def hexDigit? (c : Char) : Option ℕ :=
  if '0' ≤ c ∧ c ≤ '9' then some (c.toNat - '0'.toNat)
  else if 'a' ≤ c ∧ c ≤ 'f' then some (c.toNat - 'a'.toNat + 10)
  else if 'A' ≤ c ∧ c ≤ 'F' then some (c.toNat - 'A'.toNat + 10)
  else none

def digits? (base : ℕ) (digit? : Char → Option ℕ) : List Char → Option ℕ :=
  List.foldlM (fun acc c => (digit? c).map fun d => acc * base + d) 0

/-- `IPv4Address._parse_octet` -/
def parseOctet (octet : String) : Option ℕ :=
  let cs := octet.toList
  if cs.isEmpty || cs.length > 3 || (cs != ['0'] && cs.head? == some '0') then none
  else (digits? 10 decimalDigit? cs).filter (· ≤ 255)

/-- `IPv4Address._ip_int_from_string` -/
def parseIpv4 (s : String) : Option ℕ :=
  match split s '.' with
  | [a, b, c, d] => do
      let a ← parseOctet a
      let b ← parseOctet b
      let c ← parseOctet c
      let d ← parseOctet d
      return ((a * 256 + b) * 256 + c) * 256 + d
  | _ => none

/-- `IPv6Address._parse_hextet` -/
def parseHextet (hextet : String) : Option ℕ :=
  let cs := hextet.toList
  if cs.isEmpty || cs.length > 4 then none else digits? 16 hexDigit? cs

/-- The hextets of an IPv6 text, with a dotted tail written as two of them. -/
def ipv6Parts (s : String) : Option (List String) :=
  let parts := split s ':'
  if parts.length < 3 then none
  else
    let last := parts.getLastD ""
    if last.toList.contains '.' then do
      let tail ← parseIpv4 last
      let hex := fun n : ℕ => String.ofList (Nat.toDigits 16 n)
      return parts.dropLast ++ [hex (tail / 65536), hex (tail % 65536)]
    else some parts

/-- `IPv6Address._ip_int_from_string` -/
def parseIpv6 (s : String) : Option ℕ := do
  let parts ← ipv6Parts s
  let hextets := fun ps : List String => ps.mapM parseHextet
  let value := fun ns : List ℕ => ns.foldl (fun acc n => acc * 65536 + n) 0
  if parts.length > 9 then none
  else
    -- a blank part strictly inside the text is the `::`
    let inner := (parts.drop 1).dropLast
    match (inner.zipIdx 1).filter fun p => p.1 == "" with
    | [] =>
        if parts.length ≠ 8 then none
        else do
          let ns ← hextets parts
          return value ns
    | [(_, skip)] =>
        let hi := parts.take skip
        let lo := parts.drop (skip + 1)
        let hi' := if hi.head? == some "" then hi.drop 1 else hi
        let lo' := if lo.getLast? == some "" then lo.dropLast else lo
        if (hi.head? == some "" && !hi'.isEmpty) || (lo.getLast? == some "" && !lo'.isEmpty) then
          none
        else if hi'.length + lo'.length ≥ 8 then none
        else do
          let high ← hextets hi'
          let low ← hextets lo'
          return value high * 65536 ^ (8 - high.length) + value low
    | _ => none

/-- `ipaddress.ip_address` -/
def ipAddress (s : String) : Option IpAddress :=
  if s.toList.contains '/' then none
  else
    match parseIpv4 s with
    | some ip => some (.v4 ip)
    | none =>
        match partition s '%' with
        | (addr, false, _) => (parseIpv6 addr).map fun ip => .v6 ip none
        | (addr, true, scope) =>
            if scope.toList.isEmpty || scope.toList.contains '%' then none
            else (parseIpv6 addr).map fun ip => .v6 ip (some scope)

/-! ## Signals -/

structure LoginSignals where
  country : Option String
  asn : Option String
  simulated : Bool
deriving DecidableEq

/-- Is an address of `bits` bits inside the network of a base and prefix length? -/
def inNetwork (bits base prefixLength ip : ℕ) : Bool :=
  ip / 2 ^ (bits - prefixLength) == base / 2 ^ (bits - prefixLength)

def ipv4 (a b c d : ℕ) : ℕ := ((a * 256 + b) * 256 + c) * 256 + d

/-- `_PREFIXES`: the TEST-NETs as demo home, far and EU. -/
def testNets : List (ℕ × String × String) :=
  [(ipv4 203 0 113 0, "AR", "7303"), (ipv4 192 0 2 0, "JP", "2516"),
    (ipv4 198 51 100 0, "DE", "3320")]

def homeIp : String := "203.0.113.10"

variable (env : Env)

def normalizeCountry (value : Option String) : Option String :=
  match value with
  | none => none
  | some value =>
      let text := env.lib.upper (strip value)
      if text.toList.length ≠ 2 ∨ ¬ text.toList.all env.lib.isAlpha then none else some text

def normalizeAsn (value : Option String) : Option String :=
  match value with
  | none => none
  | some value =>
      let text := (env.lib.upper (strip value)).toList
      let text := strip (String.ofList (if ['A', 'S'].isPrefixOf text then text.drop 2 else text))
      if !text.toList.isEmpty && text.toList.all env.lib.isDigit then some text else none

def isUnroutableV4 (ip : ℕ) : Bool :=
  inNetwork 32 (ipv4 127 0 0 0) 8 ip || inNetwork 32 (ipv4 169 254 0 0) 16 ip || ip == 0 ||
    inNetwork 32 (ipv4 10 0 0 0) 8 ip || inNetwork 32 (ipv4 172 16 0 0) 12 ip ||
    inNetwork 32 (ipv4 192 168 0 0) 16 ip

def isUnroutableAddress : IpAddress → Bool
  | .v4 ip => isUnroutableV4 ip
  | .v6 ip _ =>
      if ip / 2 ^ 32 == 0xFFFF then isUnroutableV4 (ip % 2 ^ 32)
      else ip == 1 || inNetwork 128 (0xFE80 * 2 ^ 112) 10 ip ||
        inNetwork 128 (0xFC00 * 2 ^ 112) 7 ip || ip == 0

/-- `is_unroutable` -/
def isUnroutable (ip : String) : Bool :=
  match ipAddress (strip ip) with
  | none => true
  | some addr => isUnroutableAddress addr

/-- `GeoDatabase.lookup` -/
def geoLookup (addr : IpAddress) : LoginSignals :=
  let record := env.lib.geoip addr
  { country := normalizeCountry env record.isoCode
    asn := (record.autonomousSystemNumber.filter (· ≠ 0)).map fun n => toString n
    simulated := false }

/-- `lookup_ip` -/
def lookupIp (ip : String) : LoginSignals :=
  match ipAddress (strip ip) with
  | none => ⟨none, none, false⟩
  | some addr =>
      let net : Option (ℕ × String × String) :=
        match addr with
        | .v4 ip => testNets.find? fun net => inNetwork 32 net.1 24 ip
        | .v6 _ _ => none
      match net with
      | some (_, country, asn) => ⟨some country, some asn, false⟩
      | none => if isUnroutableAddress addr then ⟨none, none, false⟩ else geoLookup env addr

/-- `scored_ip` -/
def scoredIp (ip : String) (privateIsHome : Bool) : String :=
  if privateIsHome && isUnroutable ip then homeIp else strip ip

/-- `resolve_login_signals` -/
def resolveLoginSignals (ip : String) (country asn : Option String) : LoginSignals :=
  let looked := lookupIp env ip
  let finalCountry := (normalizeCountry env country).or looked.country
  let finalAsn := (normalizeAsn env asn).or looked.asn
  { country := finalCountry
    asn := finalAsn
    simulated := (finalCountry, finalAsn) != (looked.country, looked.asn) }

end RbaIdp

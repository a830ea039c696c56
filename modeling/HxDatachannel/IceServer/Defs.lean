import HxDatachannel.IceServer.Url
import Mathlib.Algebra.Group.Nat.Defs
import Mathlib.Data.List.Infix

/-!
# `IceServer.Defs` — one ICE server URL, read by both backends

Under HL the URL goes unchanged to the constructor `IceServer` of libdatachannel. Under JS the constructor of
`RTCPeerConnection` cuts it into an element of the `iceServers` of the browser, and the browser reads the
`urls` of that element by the syntax of STUN and TURN URIs: scheme, `:`, host, optional port, and for TURN an
optional transport. Both readings are taken to a `Server`, so that they can be compared.
-/

namespace HxDatachannel.Ice

open Span

/-- The bytes of a text of ASCII characters. -/
def ascii (s : String) : Bytes := s.toList.map Char.toUInt8

def openBracket  : UInt8 := 91
def closeBracket : UInt8 := 93

/-! ## What a URL denotes -/

/-- `IceServer::Type` -/
inductive ServerType where
  | Stun
  | Turn
deriving DecidableEq, Repr

inductive Transport where
  | udp
  | tcp
  | tls
  | dtls
deriving DecidableEq, Repr

structure Server where
  type      : ServerType
  host      : Bytes
  port      : Nat
  transport : Transport
  username  : Bytes
  password  : Bytes
deriving DecidableEq, Repr

/-! ## Percent-encoding -/

def hexValue (c : UInt8) : Option UInt8 :=
  if 48 ≤ c ∧ c ≤ 57 then some (c - 48)
  else if 65 ≤ c ∧ c ≤ 70 then some (c - 55)
  else if 97 ≤ c ∧ c ≤ 102 then some (c - 87)
  else none

/-- The value of `%ab`. -/
def escapeValue (c a b : UInt8) : Option UInt8 :=
  if c = percent then
    match hexValue a, hexValue b with
    | some x, some y => some (16 * x + y)
    | _, _           => none
  else none

/-- `utils::url_decode`. A `%` without two digits behind it stays. -/
def url_decode : Bytes → Bytes
  | c :: a :: b :: rest =>
      match escapeValue c a b with
      | some v => v :: url_decode rest
      | none   => c :: url_decode (a :: b :: rest)
  | rest => rest

/-- Whether `url_decode` finds something to decode. -/
def escaped : Bytes → Bool
  | c :: a :: b :: rest => (escapeValue c a b).isSome || escaped (a :: b :: rest)
  | _                   => false

/-! ## Numbers -/

def isDigit (c : UInt8) : Bool := 48 ≤ c ∧ c ≤ 57

def isSpace (c : UInt8) : Bool := c = 32 ∨ (9 ≤ c ∧ c ≤ 13)

/-- The number that decimal digits stand for. -/
def digitsValue (digits : Bytes) : Nat := digits.foldl (fun n c => 10 * n + (c.toNat - 48)) 0

/-- `std::stoul`: spaces, a sign, and as many digits as there are. It throws when there is no digit, or too
    many; a minus sign negates modulo 2^64. -/
def stoul (s : Bytes) : Option Nat :=
  let s := s.dropWhile isSpace
  let minus := s.head? = some 45
  let plus := s.head? = some 43
  let digits := (if minus ∨ plus then s.tail else s).takeWhile isDigit
  if digits = [] ∨ 2 ^ 64 ≤ digitsValue digits then none
  else some (if minus then (2 ^ 64 - digitsValue digits) % 2 ^ 64 else digitsValue digits)

/-! ## libdatachannel -/

/-- `IceServer::RelayType` -/
inductive RelayType where
  | TurnUdp
  | TurnTcp
  | TurnTls
deriving DecidableEq, Repr

structure IceServer where
  hostname  : Bytes
  port      : Nat
  type      : ServerType
  username  : Bytes
  password  : Bytes
  relayType : RelayType
deriving DecidableEq, Repr

/-- A group that matched nothing, or the empty text, has no value. -/
def group (matched : Option Bytes) : Option Bytes := matched.filter (· ≠ [])

/-- The type that a scheme stands for, and the relay type unless the query says otherwise. -/
def schemeType (scheme : Bytes) : Option (ServerType × RelayType) :=
  if scheme = ascii "stun" ∨ scheme = ascii "STUN" then some (.Stun, .TurnUdp)
  else if scheme = ascii "turn" ∨ scheme = ascii "TURN" then some (.Turn, .TurnUdp)
  else if scheme = ascii "turns" ∨ scheme = ascii "TURNS" then some (.Turn, .TurnTls)
  else none

/-- The last of the three texts that is found decides. -/
def relayTypeOf (relayType : RelayType) (query : Option Bytes) : RelayType :=
  match query with
  | some q =>
      if ascii "transport=tls" <:+: q then .TurnTls
      else if ascii "transport=tcp" <:+: q then .TurnTcp
      else if ascii "transport=udp" <:+: q then .TurnUdp
      else relayType
  | none => relayType

/-- A name in brackets is taken literally, and any other one decoded. -/
def hostnameOf (host : Bytes) : Bytes :=
  if host.head? = some openBracket ∧ host.getLast? = some closeBracket then host.tail.dropLast
  else url_decode host

/-- The constructor `IceServer(url)`; `none` where it throws. -/
def iceServer (url : Bytes) : Option IceServer := do
  let u ← (matchUrl url).filter (·.host ≠ [])
  let (type, relay) ← schemeType ((group u.scheme).getD (ascii "stun"))
  let relayType := relayTypeOf relay (group u.query)
  let service := (group u.port).getD (if relayType = .TurnTls then ascii "5349" else ascii "3478")
  let port ← stoul service
  some { hostname := hostnameOf u.host, port := port % 2 ^ 16, type, relayType,
         username := url_decode ((group (u.userinfo.map Prod.fst)).getD []),
         password := url_decode ((group (u.userinfo.bind Prod.snd)).getD []) }

def RelayType.transport : RelayType → Transport
  | .TurnUdp => .udp
  | .TurnTcp => .tcp
  | .TurnTls => .tls

def IceServer.server (s : IceServer) : Server :=
  { type := s.type, host := s.hostname, port := s.port, transport := s.relayType.transport,
    username := s.username, password := s.password }

/-! ## The JS backend -/

/-- An element of the `iceServers` of the browser, with its one URL. -/
structure RTCIceServer where
  urls       : Bytes
  username   : Option Bytes
  credential : Option Bytes
deriving DecidableEq, Repr

/-- `String.indexOf` -/
def indexOf (s : Bytes) (c : UInt8) : Int :=
  match s.findIdx? (· == c) with
  | some i => i
  | none   => -1

/-- Haxe's `String.substr` on JavaScript: a negative length counts from the end, but only at position 0. -/
def substr (s : Bytes) (pos len : Int) : Bytes :=
  if 0 ≤ len then (s.drop pos.toNat).take len.toNat
  else if pos = 0 then s.take (s.length + len).toNat
  else []

/-- The loop body of the constructor of `RTCPeerConnection`. -/
def properServer (server : Bytes) : RTCIceServer :=
  let atIdx := indexOf server atSign
  if atIdx ≠ -1 then
    let colonIdx := indexOf server colon
    let proto := substr server 0 colonIdx
    let creds := substr server (colonIdx + 1) (atIdx - colonIdx - 1)
    let hostpart := server.drop (atIdx + 1).toNat
    let credParts := creds.splitOn colon
    { urls := proto ++ colon :: hostpart, username := credParts[0]?, credential := credParts[1]? }
  else
    { urls := server, username := none, credential := none }

/-! ## The browser -/

def lower (c : UInt8) : UInt8 := if 65 ≤ c ∧ c ≤ 90 then c + 32 else c

def isLetter (c : UInt8) : Bool := 97 ≤ lower c ∧ lower c ≤ 122

/-- `unreserved` and `sub-delims` -/
def nameChar (c : UInt8) : Bool := isLetter c || isDigit c || c ∈ ascii "-._~!$&'()*+,;="

/-- A character of a registered name. -/
def regNameChar (c : UInt8) : Bool := nameChar c || c = percent

/-- A character of an IP literal. -/
def literalChar (c : UInt8) : Bool := nameChar c || c = colon

/-- In a registered name every `%` has two digits behind it. -/
def validEscapes : Bytes → Bool
  | c :: a :: b :: rest => (c ≠ percent || (escapeValue c a b).isSome) && validEscapes (a :: b :: rest)
  | rest                => rest.all (· ≠ percent)

/-- The type, and whether the connection is secured. -/
def browserScheme (scheme : Bytes) : Option (ServerType × Bool) :=
  if scheme.map lower = ascii "stun" then some (.Stun, false)
  else if scheme.map lower = ascii "stuns" then some (.Stun, true)
  else if scheme.map lower = ascii "turn" then some (.Turn, false)
  else if scheme.map lower = ascii "turns" then some (.Turn, true)
  else none

section Browser

-- what may stand between the brackets of an IP literal, by the syntax of IPv6 and of later versions
variable (ipLiteral : Bytes → Bool)

/-- The host that a text begins with, and the rest of it. -/
def readHost (s : Bytes) : Option (Bytes × Bytes) :=
  match eat openBracket s with
  | some inner => do
      let rest ← eat closeBracket (inner.dropWhile literalChar)
      if ipLiteral (inner.takeWhile literalChar) then some (inner.takeWhile literalChar, rest) else none
  | none =>
      if validEscapes (s.takeWhile regNameChar) then
        some (url_decode (s.takeWhile regNameChar), s.dropWhile regNameChar)
      else none

def readPort (secure : Bool) (port : Option Bytes) : Option Nat :=
  match group port with
  | some digits => if digitsValue digits < 2 ^ 16 then some (digitsValue digits) else none
  | none        => some (if secure then 5349 else 3478)

/-- The end of the URI: nothing, or for TURN the transport. -/
def readTransport (type : ServerType) (secure : Bool) : Bytes → Option Transport
  | []     => some (if secure then .tls else .udp)
  | c :: q =>
      if c = question ∧ type = .Turn then
        if q.map lower = ascii "transport=udp" then some (if secure then .dtls else .udp)
        else if q.map lower = ascii "transport=tcp" then some (if secure then .tls else .tcp)
        else none
      else none

/-- What stands behind the scheme. -/
def readAddress (type : ServerType) (secure : Bool) (s : Bytes) :
    Option (Bytes × Nat × Transport) := do
  let (host, rest) ← readHost ipLiteral s
  let port ← readPort secure (Span.optional colon isDigit rest).1
  let transport ← readTransport type secure (Span.optional colon isDigit rest).2
  some (host, port, transport)

/-- The browser's reading of an element of `iceServers`. TURN needs a user name and a credential. -/
def browserServer (entry : RTCIceServer) : Option Server := do
  let (type, secure) ← browserScheme (entry.urls.takeWhile (· ≠ colon))
  let rest ← eat colon (entry.urls.dropWhile (· ≠ colon))
  let (host, port, transport) ← readAddress ipLiteral type secure rest
  if type = .Turn ∧ (entry.username = none ∨ entry.credential = none) then none
  else some { type, host, port, transport, username := entry.username.getD [],
              password := entry.credential.getD [] }

end Browser

end HxDatachannel.Ice

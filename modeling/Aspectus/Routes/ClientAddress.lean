import Aspectus.Core.Text

/-!
This module contains how the address of a client is determined, which is the key under which the
requests of the client are limited.
-/

namespace Aspectus

inductive IpAddr where
  | v4 (octets : Vector UInt8 4)
  | v6 (segments : Vector UInt16 8)
deriving DecidableEq

namespace IpAddr

structure Span where
  start : Nat
  length : Nat

/--
The first of the longest runs of zeros.
-/
def longestZeros (segments : List UInt16) : Span :=
  (segments.zipIdx.foldl (fun spans next =>
    let (longest, current) := spans
    if next.1 = 0 then
      let current : Span :=
        ⟨if current.length = 0 then next.2 else current.start, current.length + 1⟩
      (if longest.length < current.length then current else longest, current)
    else
      (longest, ⟨0, 0⟩)) ((⟨0, 0⟩, ⟨0, 0⟩) : Span × Span)).1

def octetsText (octets : List UInt8) : String :=
  join "." (octets.map fun octet => toString octet.toNat)

def segmentsText (segments : List UInt16) : String :=
  join ":" (segments.map fun segment => String.ofList (Nat.toDigits 16 segment.toNat))

def toString : IpAddr → String
  | .v4 octets => octetsText octets.toList
  | .v6 segments =>
    match segments.toList with
    | [0, 0, 0, 0, 0, 0xffff, high, low] =>
      "::ffff:" ++ octetsText [(high >>> 8).toUInt8, high.toUInt8, (low >>> 8).toUInt8, low.toUInt8]
    | segments =>
      let zeros := longestZeros segments
      if 1 < zeros.length then
        segmentsText (segments.take zeros.start) ++ "::"
          ++ segmentsText (segments.drop (zeros.start + zeros.length))
      else
        segmentsText segments

example : (v6 #v[0x2001, 0xdb8, 0, 0, 1, 0, 0, 1]).toString = "2001:db8::1:0:0:1" := by
  decide +kernel

end IpAddr

structure SocketAddr where
  ip : IpAddr
  port : UInt16

/--
A request as the layers see it: its headers, with names in lower case, and the address it was sent from.
-/
structure HttpRequest where
  headers : List (String × List UInt8)
  remote : Option SocketAddr

namespace HttpRequest

/--
The first value of a header.
-/
def header (req : HttpRequest) (name : String) : Option (List UInt8) :=
  req.headers.lookup name

end HttpRequest

namespace HeaderValue

def isVisibleAscii (b : UInt8) : Bool :=
  (32 ≤ b && b < 127) || b = 9

/--
The text that consists of some ASCII characters.
-/
def ascii (bytes : List UInt8) : String :=
  String.ofList (bytes.map fun b => Char.ofNat b.toNat)

def toStr (bytes : List UInt8) : Option String :=
  if bytes.all isVisibleAscii then some (ascii bytes) else none

end HeaderValue

/--
Networks in CIDR notation.
-/
structure IpNetworks where
  Network : Type
  parse : String → Option Network
  contains : Network → IpAddr → Bool

/--
The networks in the value of `ASPECTUS_TRUSTED_PROXIES`.
-/
def trustedProxyNetworks (networks : IpNetworks) (trustedProxies : Option String) :
    List networks.Network :=
  (((split (trustedProxies.getD "") ',').map trim).filter (· ≠ "")).filterMap networks.parse

def isTrustedProxy (networks : IpNetworks) (trustedProxies : Option String) (addr : SocketAddr) : Bool :=
  (trustedProxyNetworks networks trustedProxies).any fun net => networks.contains net addr.ip

/--
The first element of the `X-Forwarded-For` header.
-/
def forwardedFor (req : HttpRequest) : Option String :=
  (((req.header "x-forwarded-for").bind HeaderValue.toStr).bind fun v => (split v ',').head?).map trim

/--
The key under which the requests of a client are limited.
-/
def ipKey (networks : IpNetworks) (trustedProxies : Option String) (req : HttpRequest) : String :=
  match req.remote, forwardedFor req with
  | some remote, some forwarded =>
    if isTrustedProxy networks trustedProxies remote then forwarded else remote.ip.toString
  | some remote, none => remote.ip.toString
  | none, some forwarded => forwarded
  | none, none => "unknown"

end Aspectus

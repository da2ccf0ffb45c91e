import Aspectus.Core.Split
import Aspectus.Routes.ClientAddress

/-!
This module contains what the key depends on under which the requests of a client are limited.
-/

namespace Aspectus

open HeaderValue

variable {networks : IpNetworks} {trustedProxies : Option String} {req : HttpRequest}
  {remote : SocketAddr}

/--
The text before the first comma, without the whitespace around it.
-/
def firstElement (s : String) : String :=
  trim ((split s ',').headD "")

theorem firstElement_append (s t : String) : firstElement (s ++ "," ++ t) = firstElement s := by
  unfold firstElement
  rw [split_append rfl]
  rcases hs : split s ',' with _ | ⟨first, rest⟩
  . exact absurd hs (split_ne_nil s ',')
  . rfl

theorem ascii_append (b b' : List UInt8) : ascii (b ++ b') = ascii b ++ ascii b' := by
  simp [ascii]

theorem forwardedFor_eq {value : List UInt8} (hheader : req.header "x-forwarded-for" = some value) :
    forwardedFor req
      =
    if value.all isVisibleAscii then some (firstElement (ascii value)) else none := by
  unfold forwardedFor toStr firstElement
  rw [hheader]
  dsimp only [Option.bind_some]
  split
  . rcases hs : split (ascii value) ',' with _ | ⟨first, rest⟩
    . exact absurd hs (split_ne_nil _ ',')
    . simp [hs]
  . rfl

theorem ipKey_untrusted (hremote : req.remote = some remote)
    (huntrusted : isTrustedProxy networks trustedProxies remote = false)
    : ipKey networks trustedProxies req = remote.ip.toString := by
  unfold ipKey
  rw [hremote]
  cases forwardedFor req <;> simp [huntrusted]

theorem ipKey_trusted (hremote : req.remote = some remote)
    (htrusted : isTrustedProxy networks trustedProxies remote = true)
    : ipKey networks trustedProxies req = (forwardedFor req).getD remote.ip.toString := by
  unfold ipKey
  rw [hremote]
  cases forwardedFor req <;> simp [htrusted]

/--
Behind a trusted proxy the key is the first element of the `X-Forwarded-For` header, which the proxy
only appends to. Without one the header does not matter.
-/
theorem ip_key_first_element (networks : IpNetworks) (trustedProxies : Option String)
    (remote : SocketAddr) :
    (isTrustedProxy networks trustedProxies remote = true →
      ∀ req, req.remote = some remote →
      ∀ supplied appended, req.header "x-forwarded-for" = some (supplied ++ utf8 ", " ++ appended) →
        ipKey networks trustedProxies req
          = if supplied.all isVisibleAscii && appended.all isVisibleAscii then
              firstElement (ascii supplied)
            else
              remote.ip.toString)
    ∧ (isTrustedProxy networks trustedProxies remote = false →
      ∀ req req', req.remote = some remote → req'.remote = some remote →
        ipKey networks trustedProxies req = ipKey networks trustedProxies req') := by
  constructor
  . intro htrusted req hremote supplied appended hheader
    have hseparator : utf8 ", " = [44, 32] := by rfl
    have hvisible : (supplied ++ utf8 ", " ++ appended).all isVisibleAscii
        = (supplied.all isVisibleAscii && appended.all isVisibleAscii) := by
      rw [hseparator, List.all_append, List.all_append]
      have : ([44, 32] : List UInt8).all isVisibleAscii = true := by decide
      rw [this, Bool.and_true]
    have hfirst : firstElement (ascii (supplied ++ utf8 ", " ++ appended))
        = firstElement (ascii supplied) := by
      rw [hseparator, List.append_assoc, ascii_append]
      have : ascii ([44, 32] ++ appended) = "," ++ (" " ++ ascii appended) := by
        rw [ascii_append, ← String.append_assoc]
        rfl
      rw [this, ← String.append_assoc, firstElement_append]
    rw [ipKey_trusted hremote htrusted, forwardedFor_eq hheader, hvisible, hfirst]
    split <;> rfl
  . intro huntrusted req req' hremote hremote'
    rw [ipKey_untrusted hremote huntrusted, ipKey_untrusted hremote' huntrusted]

namespace Sample

/--
The network that only consists of the local host.
-/
def localHost : IpNetworks where
  Network := IpAddr
  parse s := if s = "127.0.0.1/32" then some (.v4 #v[127, 0, 0, 1]) else none
  contains := (· = ·)

/--
A request over a proxy on the local host, for a client that has sent a header of its own.
-/
def proxied (supplied : String) : HttpRequest where
  headers := [("x-forwarded-for", utf8 supplied ++ utf8 ", " ++ utf8 "10.0.0.2")]
  remote := some ⟨.v4 #v[127, 0, 0, 1], 12345⟩

end Sample

open Sample in
/--
A client behind a trusted proxy chooses its key.
-/
theorem ip_key_chosen :
    ¬∀ (networks : IpNetworks) (trustedProxies : Option String) (remote : SocketAddr),
      (isTrustedProxy networks trustedProxies remote = true →
        ∀ req req', req.remote = some remote → req'.remote = some remote →
        ∀ supplied supplied' appended,
          req.header "x-forwarded-for" = some (supplied ++ utf8 ", " ++ appended) →
          req'.header "x-forwarded-for" = some (supplied' ++ utf8 ", " ++ appended) →
          ipKey networks trustedProxies req = ipKey networks trustedProxies req')
      ∧ (isTrustedProxy networks trustedProxies remote = false →
        ∀ req req', req.remote = some remote → req'.remote = some remote →
          ipKey networks trustedProxies req = ipKey networks trustedProxies req') := by
  intro hclaim
  have heq := (hclaim localHost (some "127.0.0.1/32") ⟨.v4 #v[127, 0, 0, 1], 12345⟩).1 (by decide +kernel)
    (proxied "1.2.3.4") (proxied "5.6.7.8") rfl rfl (utf8 "1.2.3.4") (utf8 "5.6.7.8") (utf8 "10.0.0.2") rfl rfl
  have hne : ipKey localHost (some "127.0.0.1/32") (proxied "1.2.3.4")
      ≠ ipKey localHost (some "127.0.0.1/32") (proxied "5.6.7.8") := by
    decide +kernel
  contradiction

end Aspectus

import ProxyPlane.Text.Decimal
import ProxyPlane.Url.Host

/-!
# Addresses

Addresses of hosts and sockets in their plain notation, which is stricter than the one of links:
four decimal bytes without leading zeros, or eight pieces in hexadecimal, in brackets before a port.
-/

set_option autoImplicit false
namespace ProxyPlane

/-- The address of a host. -/
inductive IpAddress
  | v4 (address : Nat)
  /-- Eight pieces of sixteen bits. -/
  | v6 (pieces : List Nat)
  deriving DecidableEq, Repr

namespace IpAddress

/-- Four bytes. -/
def v4? (s : List Char) : Option IpAddress :=
  match Ipv6.embedded? s with
  | some [high, low] => some (.v4 (high * 65536 + low))
  | _ => none

/-- The address that a text stands for. -/
def ofText? (s : List Char) : Option IpAddress := (v4? s).or (.v6 <$> Ipv6.parse? s)

/-- The text of an address.  One that maps four bytes into the longer form shows them. -/
def render : IpAddress → String
  | .v4 address => Ipv4.render address
  | .v6 [0, 0, 0, 0, 0, 0xFFFF, high, low] => "::ffff:" ++ Ipv4.render (high * 65536 + low)
  | .v6 pieces => Ipv6.render pieces

end IpAddress

/-- The address of a socket. -/
structure SocketAddress where
  host : IpAddress
  /-- The interface that an address is meant for; 0 where it is not named. -/
  scope : Nat
  port : Nat
  deriving DecidableEq, Repr

namespace SocketAddress

/-- A number after a mark, with any number of leading zeros. -/
def number? (limit : Nat) (s : List Char) : Option Nat := (Text.natOfDigits? s).filter (· < limit)

/-- The port after a colon. -/
def port? : List Char → Option Nat
  | ':' :: digits => number? 65536 digits
  | _ => none

/-- The address that a text stands for. -/
def ofText? (s : List Char) : Option SocketAddress :=
  match s with
  | '[' :: rest => do
    let inside := rest.takeWhile (· != ']')
    let port ← port? (rest.drop (inside.length + 1))
    let address ← Ipv6.parse? (inside.takeWhile (· != '%'))
    match inside.dropWhile (· != '%') with
    | [] => some ⟨.v6 address, 0, port⟩
    | _ :: digits => some ⟨.v6 address, ← number? 0x100000000 digits, port⟩
  | _ => do
    let host := s.takeWhile (· != ':')
    some ⟨← IpAddress.v4? host, 0, ← port? (s.drop host.length)⟩

/-- The text of the address of a socket. -/
def render (a : SocketAddress) : String :=
  match a.host with
  | .v4 _ => a.host.render ++ ":" ++ toString a.port
  | .v6 _ =>
    let scope := if a.scope = 0 then "" else "%" ++ toString a.scope
    "[" ++ a.host.render ++ scope ++ "]:" ++ toString a.port

end SocketAddress
end ProxyPlane

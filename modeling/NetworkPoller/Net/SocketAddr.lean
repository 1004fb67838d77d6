import Mathlib.Logic.Function.Defs

/-!
# `SocketAddr` and the names of connections

`SocketAddr::ToString` of `core/net/socket/socket_addr.cpp` and the `name_` of a `TcpConnection`. A
`std::string` is its list of characters. `inet_ntop` is the C library's; what is relied on is in
`InetNtop`. Of the two structures of the union, `ToString` reads the family, the address and the port.
-/

namespace Liang.Net

abbrev Text := List Char

/-- `in_addr` and `in6_addr`, byte by byte. -/
abbrev InAddr := Vector UInt8 4
abbrev In6Addr := Vector UInt8 16

/-- The texts `inet_ntop` gives for `AF_INET` and `AF_INET6`: no two addresses of a family share one,
`INET6_ADDRSTRLEN` holds it, and it is dotted decimal, or hexadecimal groups with two colons at least. -/
structure InetNtop where
  text4 : InAddr → Text
  text6 : In6Addr → Text
  injective4 : Function.Injective text4
  injective6 : Function.Injective text6
  length4 : ∀ a, (text4 a).length ≤ 45
  length6 : ∀ a, (text6 a).length ≤ 45
  chars4 : ∀ a, ∀ x ∈ text4 a, x ∈ "0123456789.".toList
  chars6 : ∀ a, ∀ x ∈ text6 a, x ∈ "0123456789abcdef:.".toList
  colons6 : ∀ a, 2 ≤ (text6 a).count ':'

/-- `sockaddr_in` or `sockaddr_in6`, by `sa_family`; the port is in network byte order. -/
inductive SocketAddr
  | inet (addr : InAddr) (port : UInt16)
  | inet6 (addr : In6Addr) (port : UInt16)
  deriving DecidableEq, Repr

/-- On a little-endian machine. -/
def ntohs (n : UInt16) : Nat := n.toNat % 256 * 256 + n.toNat / 256

/-- `"%d"` of a number that is not negative. -/
def decimal (n : Nat) : Text := Nat.toDigits 10 n

/-- `inet_ntop` into a zeroed buffer of `size` bytes: nothing is stored if there is no room. -/
def stored (size : Nat) (text : Text) : Text := if text.length < size then text else []

/-- `snprintf(buf + strlen(buf), size - strlen(buf), ...)`: what has no room is cut off. -/
def snprintf (size : Nat) (buf text : Text) : Text := buf ++ text.take (size - buf.length - 1)

namespace SocketAddr

/-- `sizeof(buf)` in `ToString`. -/
def bufSize : Nat := 64

def toString (ntop : InetNtop) : SocketAddr → Text
  | inet6 addr port => snprintf bufSize (stored bufSize (ntop.text6 addr)) (decimal (ntohs port))
  | inet addr port => snprintf bufSize (stored bufSize (ntop.text4 addr)) (':' :: decimal (ntohs port))

end SocketAddr

/-- `name_`, as the constructor sets it. -/
def TcpConnection.name (ntop : InetNtop) (localAddr peerAddr : SocketAddr) : Text :=
  localAddr.toString ntop ++ '_' :: peerAddr.toString ntop

end Liang.Net

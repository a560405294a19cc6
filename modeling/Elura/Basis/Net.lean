import Mathlib.Data.Vector.Basic

/-!
Internet addresses as `std::net` has them. The flow label and scope of an IPv6 socket address
are not read by the modelled code and are left out.
-/

namespace Elura

inductive IpAddr
  | v4 (octets : Vector UInt8 4)
  | v6 (octets : Vector UInt8 16)
  deriving DecidableEq, Repr

structure SocketAddr where
  ip : IpAddr
  port : UInt16
  deriving DecidableEq, Repr

end Elura

import Mathlib.Algebra.Order.Ring.Nat
import Tns.Util

/-!
# Addresses and subnets
-/

namespace Tns.Ip

/-- A reading of the steady clock, in nanoseconds. -/
abbrev TimePoint := ℤ

/-- An address and a port, in host byte order. -/
structure Ipv4Address where
  addr : UInt32
  port : UInt16 := 0
  deriving DecidableEq, Repr

namespace Ipv4Address

def LOCALHOST : Ipv4Address := { addr := 0x7f000001 }

/-- `inet_ntoa`. -/
def toStringAddr (a : Ipv4Address) : String :=
  toString (a.addr >>> 24) ++ "." ++ toString (a.addr >>> 16 &&& 255) ++ "." ++
    toString (a.addr >>> 8 &&& 255) ++ "." ++ toString (a.addr &&& 255)

end Ipv4Address

/-- `util::sameSubnet`. -/
def sameSubnet (addr1 addr2 : Ipv4Address) (mask : UInt32) : Prop :=
  addr1.addr &&& mask = addr2.addr &&& mask

instance (addr1 addr2 : Ipv4Address) (mask : UInt32) : Decidable (sameSubnet addr1 addr2 mask) :=
  inferInstanceAs (Decidable (_ = _))

-- Named, so that a literal of `Fin 33` reads the same in every module.
instance instNeZeroThirtyThree : NeZero 33 := Nat.instNeZeroSucc

/-- `util::Subnet`, as `parseCidr` fills it: the length of the mask is at most that of an
address. -/
structure Subnet where
  address : Ipv4Address
  maskLength : Fin 33

def Subnet.mask (s : Subnet) : UInt32 :=
  if s.maskLength.val = 0 then 0 else (0xffffffff : UInt32) <<< UInt32.ofNat (32 - s.maskLength.val)

end Tns.Ip

/-!
# Addresses on air

A node is addressed by a 16-bit number. The largest one means every node, so it never names a
single node in a destination that was made from a number.
-/
namespace RadioModem

abbrev Address := UInt16

def broadcastAddress : Address := 0xFFFF

/-- Where a relayed command goes. -/
inductive Destination
  | broadcast
  | node (id : Address)
  deriving DecidableEq, Repr

namespace Destination

def address : Destination → Address
  | broadcast => broadcastAddress
  | node id => id

def ofAddress (a : Address) : Destination :=
  if a = broadcastAddress then broadcast else node a

end Destination

end RadioModem

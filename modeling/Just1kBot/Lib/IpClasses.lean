import Just1kBot.Lib.IpAddress

/-! The classes of addresses of the language's module `ipaddress`, with the networks they are made
    of. An IPv4-mapped IPv6 address stands for the IPv4 address in it. -/

namespace Lib.IpAddress

namespace Network

/-- The network of this IPv4 address. -/
def net4 (a b c d prefixlen : ℕ) : Network :=
  .v4 (BitVec.ofNat 32 (ofDigits 256 [a, b, c, d])) (netmask 32 prefixlen)

/-- The network of the IPv6 address with these first hextets, the other ones zero. -/
def net6 (hextets : List ℕ) (prefixlen : ℕ) : Network :=
  .v6 (BitVec.ofNat 128 (ofDigits 65536 (hextets ++ List.replicate (8 - hextets.length) 0)))
    (netmask 128 prefixlen)

/-- `_private_networks`, of both versions. -/
def privateNetworks : List Network :=
  [net4 0 0 0 0 8, net4 10 0 0 0 8, net4 127 0 0 0 8, net4 169 254 0 0 16, net4 172 16 0 0 12,
    net4 192 0 0 0 24, net4 192 0 0 170 31, net4 192 0 2 0 24, net4 192 168 0 0 16,
    net4 198 18 0 0 15, net4 198 51 100 0 24, net4 203 0 113 0 24, net4 240 0 0 0 4,
    net4 255 255 255 255 32,
    net6 [0, 0, 0, 0, 0, 0, 0, 1] 128, net6 [] 128, net6 [0, 0, 0, 0, 0, 0xffff] 96,
    net6 [0x64, 0xff9b, 1] 48, net6 [0x100] 64, net6 [0x2001] 23, net6 [0x2001, 0xdb8] 32,
    net6 [0x2002] 16, net6 [0x3fff] 20, net6 [0xfc00] 7, net6 [0xfe80] 10]

/-- `_private_networks_exceptions`. -/
def privateExceptions : List Network :=
  [net4 192 0 0 9 32, net4 192 0 0 10 32,
    net6 [0x2001, 1, 0, 0, 0, 0, 0, 1] 128, net6 [0x2001, 1, 0, 0, 0, 0, 0, 2] 128,
    net6 [0x2001, 3] 32, net6 [0x2001, 4, 0x112] 48, net6 [0x2001, 0x20] 28,
    net6 [0x2001, 0x30] 28]

/-- `_reserved_network` and `_reserved_networks`. -/
def reservedNetworks : List Network :=
  [net4 240 0 0 0 4,
    net6 [] 8, net6 [0x100] 8, net6 [0x200] 7, net6 [0x400] 6, net6 [0x800] 5, net6 [0x1000] 4,
    net6 [0x4000] 3, net6 [0x6000] 3, net6 [0x8000] 3, net6 [0xa000] 3, net6 [0xc000] 3,
    net6 [0xe000] 4, net6 [0xf000] 5, net6 [0xf800] 6, net6 [0xfe00] 9]

def linkLocalNetworks : List Network := [net4 169 254 0 0 16, net6 [0xfe80] 10]

def loopbackNetworks : List Network := [net4 127 0 0 0 8, net6 [0, 0, 0, 0, 0, 0, 0, 1] 128]

def multicastNetworks : List Network := [net4 224 0 0 0 4, net6 [0xff00] 8]

end Network

namespace Address
open Network

/-- `ipv4_mapped`. -/
def ipv4Mapped : Address → Option (BitVec 32)
  | .v4 _ => none
  | .v6 ip _ => if ip >>> 32 = 0xffff#128 then some (ip.setWidth 32) else none

/-- The IPv4 address of an IPv4-mapped one. -/
def unmapped (ip : Address) : Address := (ip.ipv4Mapped.map .v4).getD ip

/-- The address is in one of the networks. -/
def isIn (ip : Address) (networks : List Network) : Bool := networks.any (·.contains ip.unmapped)

def isPrivate (ip : Address) : Bool := ip.isIn privateNetworks && !ip.isIn privateExceptions

def isLinkLocal (ip : Address) : Bool := ip.isIn linkLocalNetworks

def isReserved (ip : Address) : Bool := ip.isIn reservedNetworks

def isMulticast (ip : Address) : Bool := ip.isIn multicastNetworks

def isLoopback (ip : Address) : Bool := ip.isIn loopbackNetworks

def isUnspecified (ip : Address) : Bool :=
  match ip.unmapped with
  | .v4 ip => ip = 0
  | .v6 ip _ => ip = 0

/-- The IPv4 address in an IPv6 one is not mapped itself. -/
@[simp] theorem unmapped_unmapped (ip : Address) : ip.unmapped.unmapped = ip.unmapped := by
  cases ip with
  | v4 ip => rfl
  | v6 ip scopeId =>
    by_cases h : ip >>> 32 = 0xffff#128 <;> simp [unmapped, ipv4Mapped, h]

end Address

end Lib.IpAddress

import Mathlib.Logic.Function.Basic

/-!
# Addresses, error codes and interfaces

The data that the stack shares. The target is big-endian, so `htonl` and `ntohl`
do nothing and an `ip_addr_t` is its 32-bit value.
-/

namespace MultiIp.Lwip

/-- `lwip/err.h`. -/
inductive err_t
  | ERR_OK | ERR_MEM | ERR_BUF | ERR_TIMEOUT | ERR_RTE | ERR_INPROGRESS | ERR_VAL | ERR_WOULDBLOCK
  | ERR_USE | ERR_ISCONN | ERR_ABRT | ERR_RST | ERR_CLSD | ERR_CONN | ERR_ARG | ERR_IF
  deriving DecidableEq, Repr

/-! ## Addresses -/

abbrev ip_addr_t := UInt32

def IPADDR_ANY : ip_addr_t := 0
def IPADDR_BROADCAST : ip_addr_t := 0xffffffff

def ip_addr_isany (a : ip_addr_t) : Bool := a == IPADDR_ANY
def ip_addr_netcmp (a b mask : ip_addr_t) : Bool := (a &&& mask) == (b &&& mask)
def ip_addr_ismulticast (a : ip_addr_t) : Bool := (a &&& 0xf0000000) == 0xe0000000
def ip_addr_islinklocal (a : ip_addr_t) : Bool := (a &&& 0xffff0000) == 0xa9fe0000

/-- A MAC address, `ETHARP_HWADDR_LEN` bytes. -/
abbrev eth_addr := Vector UInt8 6

def ethbroadcast : eth_addr := Vector.replicate 6 0xff
def ethzero : eth_addr := Vector.replicate 6 0

/-! ## Interfaces -/

/-- `MAX_ALIAS_NETIF`. -/
abbrev maxAliasNetif : Nat := 7

instance : @NeZero Nat Zero.ofOfNat0 maxAliasNetif := ⟨Nat.succ_ne_zero 6⟩

/-- A non-NULL `struct netif *`: `&hdkNetIF[0]` or `&alias_list[i].netif`. -/
inductive NetifPtr
  | phys
  | alias_list (i : Fin maxAliasNetif)
  deriving DecidableEq, Repr

/-- What `netif->state` can point to. -/
inductive StatePtr
  | null
  | instNum (n : Nat)
  | hdkif_data (n : Nat)
  deriving DecidableEq, Repr

inductive netif_output_fn
  | etharp_output
  deriving DecidableEq, Repr

inductive netif_linkoutput_fn
  | hdkif_output
  deriving DecidableEq, Repr

def NETIF_FLAG_UP : UInt8 := 0x01
def NETIF_FLAG_BROADCAST : UInt8 := 0x02
def NETIF_FLAG_LINK_UP : UInt8 := 0x10
def NETIF_FLAG_ETHARP : UInt8 := 0x20

/-- `struct netif`, without the fields that no modelled function reads. The `next` fields of all
interfaces are kept together in `Net.next`. -/
structure netif where
  ip_addr : ip_addr_t
  netmask : ip_addr_t
  gw : ip_addr_t
  output : Option netif_output_fn
  linkoutput : Option netif_linkoutput_fn
  state : StatePtr
  mtu : UInt16
  hwaddr_len : UInt8
  hwaddr : eth_addr
  flags : UInt8
  deriving DecidableEq

/-- A `struct netif` in zeroed memory. -/
def netif.zero : netif where
  ip_addr := 0
  netmask := 0
  gw := 0
  output := none
  linkoutput := none
  state := .null
  mtu := 0
  hwaddr_len := 0
  hwaddr := ethzero
  flags := 0

def netif.has (n : netif) (flag : UInt8) : Bool := (n.flags &&& flag) != 0

def netif_is_up (n : netif) : Bool := n.has NETIF_FLAG_UP

def ip4_addr_isbroadcast (addr : ip_addr_t) (n : netif) : Bool :=
  if ~~~addr == IPADDR_ANY || addr == IPADDR_ANY then true
  else if !n.has NETIF_FLAG_BROADCAST then false
  else if addr == n.ip_addr then false
  else ip_addr_netcmp addr n.ip_addr n.netmask &&
    (addr &&& ~~~n.netmask) == (IPADDR_BROADCAST &&& ~~~n.netmask)

end MultiIp.Lwip

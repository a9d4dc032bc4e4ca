import MultiIp.Board.Firmware
import MultiIp.Board.IpInput

/-!
# Which interface gets a frame

`src/netif_alias_filter.c` on the bytes of a frame. Two checks stand in front of
the search for the owner of the destination address, and the second one takes
frames away from an owner whose address is a broadcast on the default interface.
-/

namespace MultiIp.Board

open Lwip Lib

def ETHTYPE_ARP : UInt16 := 0x0806
def SIZEOF_ETHARP_HDR : Nat := 28

/-! ## The code -/

/-- The destination address that the filter finds in the frame: `iphdr->dest` or `arphdr->dipaddr`. -/
def filterDest (p : RxPbuf) (type : UInt16) : Option ip_addr_t :=
  if type = ETHTYPE_IP then
    if p.len.toNat ≥ SIZEOF_ETH_HDR + IP_HLEN then some (p.longAt (SIZEOF_ETH_HDR + 16)) else none
  else if type = ETHTYPE_ARP then
    if p.len.toNat ≥ SIZEOF_ETH_HDR + SIZEOF_ETHARP_HDR then some (p.longAt (SIZEOF_ETH_HDR + 24)) else none
  else none

/-- A NULL pointer is `none`. -/
def netif_alias_route_filter_pbuf (net : Net) (p : Option RxPbuf) (def_netif : Option NetifPtr) (type : UInt16) :
    Option NetifPtr :=
  match p, def_netif with
  | some p, some n =>
    match filterDest p type with
    | some dest_ip => some (netif_alias_route net n dest_ip)
    | none => some n
  | _, def_netif => def_netif

theorem filter_ip_eq (net : Net) (p : RxPbuf) (n : NetifPtr) :
    netif_alias_route_filter_pbuf net (some p) (some n) ETHTYPE_IP = some (netif_alias_route_filter_ip net p n) := by
  unfold netif_alias_route_filter_pbuf filterDest netif_alias_route_filter_ip
  by_cases hlen : p.len.toNat ≥ SIZEOF_ETH_HDR + IP_HLEN <;> simp [hlen]

theorem filter_arp_eq (net : Net) {p : RxPbuf} {f : ArpFrame} (n : NetifPtr) (hlen : f.len = p.len.toNat)
    (hdest : f.hdr.dipaddr = p.longAt (SIZEOF_ETH_HDR + 24)) :
    netif_alias_route_filter_pbuf net (some p) (some n) ETHTYPE_ARP = some (netif_alias_route_filter net f n) := by
  have hsize : SIZEOF_ETH_HDR + SIZEOF_ETHARP_HDR = SIZEOF_ETHARP_PACKET := rfl
  have htype : ETHTYPE_ARP ≠ ETHTYPE_IP := by decide
  unfold netif_alias_route_filter_pbuf filterDest netif_alias_route_filter
  rw [hlen, hdest, hsize]
  by_cases hlong : p.len.toNat ≥ SIZEOF_ETHARP_PACKET <;> simp [htype, hlong]

/-! ## The owner -/

/-- The interface is on the list and active, and the address is its own. -/
def Owns (net : Net) (dest_ip : ip_addr_t) (n : NetifPtr) : Prop :=
  n ∈ net.list ∧ netif_is_up (net.netifs n) = true ∧ (net.netifs n).has NETIF_FLAG_LINK_UP = true ∧
    (net.netifs n).ip_addr = dest_ip

instance (net : Net) (dest_ip : ip_addr_t) (n : NetifPtr) : Decidable (Owns net dest_ip n) :=
  inferInstanceAs (Decidable (_ ∧ _))

def AddressesDiffer (net : Net) : Prop :=
  ∀ n ∈ net.list, ∀ m ∈ net.list, (net.netifs n).ip_addr = (net.netifs m).ip_addr → n = m

instance (net : Net) : Decidable (AddressesDiffer net) :=
  inferInstanceAs (Decidable (∀ n ∈ net.list, ∀ m ∈ net.list, _ → _))

/-- `r` is the owner of the address, and the default interface if it has none. -/
structure RoutedToOwner (net : Net) (def_netif : NetifPtr) (dest_ip : ip_addr_t) (r : Option NetifPtr) : Prop where
  owner : ∀ n, Owns net dest_ip n → r = some n
  none : (∀ n, ¬ Owns net dest_ip n) → r = some def_netif

/-- Another interface owns an address that is a broadcast on the default interface. -/
def OwnedBroadcast (net : Net) (def_netif : NetifPtr) (dest_ip : ip_addr_t) : Prop :=
  ip4_addr_isbroadcast dest_ip (net.netifs def_netif) = true ∧ ∃ n, n ≠ def_netif ∧ Owns net dest_ip n

section Route

variable {net : Net} {def_netif : NetifPtr} {dest_ip : ip_addr_t}

theorem find_owner (net : Net) (dest_ip : ip_addr_t) :
    (∃ n, Owns net dest_ip n ∧ net.list.find? (fun n => netif_is_up (net.netifs n) &&
        (net.netifs n).has NETIF_FLAG_LINK_UP && dest_ip == (net.netifs n).ip_addr) = some n) ∨
      ((∀ n, ¬ Owns net dest_ip n) ∧ net.list.find? (fun n => netif_is_up (net.netifs n) &&
        (net.netifs n).has NETIF_FLAG_LINK_UP && dest_ip == (net.netifs n).ip_addr) = none) := by
  generalize hfind : net.list.find? (fun n => netif_is_up (net.netifs n) &&
    (net.netifs n).has NETIF_FLAG_LINK_UP && dest_ip == (net.netifs n).ip_addr) = r
  cases r with
  | some n =>
    have hn := List.find?_some hfind
    simp only [Bool.and_eq_true, beq_iff_eq] at hn
    exact Or.inl ⟨n, ⟨List.mem_of_find?_eq_some hfind, hn.1.1, hn.1.2, hn.2.symm⟩, rfl⟩
  | none =>
    refine Or.inr ⟨?_, rfl⟩
    rintro n ⟨hmem, hup, hlink, hip⟩
    have hn := List.find?_eq_none.mp hfind n hmem
    simp [hup, hlink, hip] at hn

theorem Owns.unique (hdiff : AddressesDiffer net) {n m : NetifPtr} (hn : Owns net dest_ip n) (hm : Owns net dest_ip m) :
    n = m := by
  apply hdiff n hn.1 m hm.1
  rw [hn.2.2.2, hm.2.2.2]

/-- The first check only finds the default interface itself; the second one is wrong about an owner. -/
theorem alias_route_owner_iff (hdef : def_netif ∈ net.list) (hdiff : AddressesDiffer net)
    (hmulticast : ip_addr_ismulticast dest_ip = false) :
    RoutedToOwner net def_netif dest_ip (some (netif_alias_route net def_netif dest_ip)) ↔
      ¬ (dest_ip ≠ (net.netifs def_netif).ip_addr ∧ OwnedBroadcast net def_netif dest_ip) := by
  unfold netif_alias_route
  by_cases hown : dest_ip = (net.netifs def_netif).ip_addr
  · rw [if_pos hown]
    refine ⟨fun _ h => h.1 hown, fun _ => ⟨?_, fun _ => rfl⟩⟩
    rintro n ⟨hmem, -, -, hip⟩
    rw [hdiff n hmem def_netif hdef (hip.trans hown)]
  · rw [if_neg hown, hmulticast, Bool.or_false]
    have hother : ∀ n, Owns net dest_ip n → n ≠ def_netif := by
      rintro n ⟨-, -, -, hip⟩ rfl
      exact hown hip.symm
    cases hb : ip4_addr_isbroadcast dest_ip (net.netifs def_netif) with
    | true =>
      -- The frame stays with the default interface, which does not own the address.
      rw [if_pos rfl]
      constructor
      · rintro h ⟨-, -, n, hne, hn⟩
        exact hne (Option.some.inj (h.owner n hn)).symm
      · intro h
        refine ⟨fun n hn => ?_, fun _ => rfl⟩
        exact absurd ⟨hown, hb, n, hother n hn, hn⟩ h
    | false =>
      rw [if_neg Bool.false_ne_true]
      refine ⟨fun _ h => ?_, fun _ => ?_⟩
      · rw [h.2.1] at hb
        cases hb
      · rcases find_owner net dest_ip with ⟨n, hn, hfind⟩ | ⟨hnone, hfind⟩
        · simp only [hfind]
          refine ⟨fun m hm => ?_, fun h => absurd hn (h n)⟩
          rw [hn.unique hdiff hm]
        · simp only [hfind]
          exact ⟨fun m hm => absurd hm (hnone m), fun _ => rfl⟩

/-- An address of the default interface is no broadcast on it, so the second check alone decides. -/
theorem owned_broadcast_ne (hany : dest_ip ≠ IPADDR_ANY) (hall : dest_ip ≠ IPADDR_BROADCAST)
    (h : OwnedBroadcast net def_netif dest_ip) : dest_ip ≠ (net.netifs def_netif).ip_addr := by
  intro hown
  have hones : ~~~dest_ip ≠ IPADDR_ANY := by
    intro hzero
    apply hall
    have hback := congrArg (fun x => ~~~x) hzero
    rwa [UInt32.not_not] at hback
  have hb := h.1
  unfold ip4_addr_isbroadcast at hb
  simp only [← hown, beq_eq_false_iff_ne.mpr hones, beq_eq_false_iff_ne.mpr hany] at hb
  simp at hb

end Route

/-! ## ARP requests -/

/-- An ARP frame for the address of an active interface is handled on that interface. -/
theorem arp_reaches_owner {b : Board} {l : List NetifPtr} (h : NetInv b l) (hdiff : AddressesDiffer b.net) (f : ArpFrame)
    (hlen : f.len ≥ SIZEOF_ETHARP_PACKET) (hmulticast : ip_addr_ismulticast f.hdr.dipaddr = false) {n : NetifPtr}
    (hn : Owns b.net f.hdr.dipaddr n) (hb : ¬ OwnedBroadcast b.net .phys f.hdr.dipaddr) :
    ethernet_input_arp b.net f =
      { b.net with arp := etharp_arp_input b.net.arp n (b.net.netifs n) f } := by
  have hroute := (alias_route_owner_iff h.phys_listed hdiff hmulticast).mpr fun howned => hb howned.2
  have hfilter : netif_alias_route_filter b.net f .phys = n := by
    unfold netif_alias_route_filter
    rw [if_pos hlen]
    exact Option.some.inj (hroute.owner n hn)
  have harp : (b.net.netifs n).has NETIF_FLAG_ETHARP = true := by
    have hmem := hn.1
    rw [h.list_eq] at hmem
    simp only [netif.has, h.flags_eq hmem]
    decide
  unfold ethernet_input_arp
  simp only [hfilter, harp, if_true]

/-- A request of 10.0.0.5 for the address. -/
def arpRequest (target : List UInt8) : List UInt8 :=
  List.replicate 6 0xff ++ [2, 0, 0, 0, 0, 5, 0x08, 0x06] ++ [0, 1, 0x08, 0, 6, 4, 0, 1, 2, 0, 0, 0, 0, 5, 10, 0, 0, 5] ++
    List.replicate 6 0 ++ target

def arpPbuf (target : List UInt8) : RxPbuf where
  mem := fun k => (arpRequest target).getD k 0
  payload := 0
  len := 42
  tot_len := 42
  next := []

/-- The board with an alias 10.0.0.255, a host address of its own network 10.0.0.0/16. -/
def broadcastAlias : Board :=
  (Firmware.cmd_dispatch (Firmware.boot (.main ethzero true)) Firmware.sampleEnv
    "NETIF ADD 10.0.0.255 255.255.0.0 10.0.0.1".toList).1.board

end MultiIp.Board

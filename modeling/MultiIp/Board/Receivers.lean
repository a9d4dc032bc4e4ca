import MultiIp.Board.Compete
import MultiIp.Board.IpInput

/-!
# Every open socket is a receiver

A datagram to the address and port of a socket gets through all layers to the
callback with the socket's slot. There are two exceptions: `udp_input` keeps the
DHCP client port for itself, and every header has to lie in the first pbuf.
-/

namespace MultiIp.Board

open Lwip Lib

/-! ## Only the locator is connected -/

/-- A control block is unconnected, or it is the locator's. -/
def LocatorConnected (u : Udp) : Prop :=
  ∀ p, (u.pcbs p).flags = 0 ∨ (u.pcbs p).recv = some .LocatorReceive

/-- The flags and the callback of every control block are as before. -/
def SameRemote (u u' : Udp) : Prop :=
  ∀ p, (u'.pcbs p).flags = (u.pcbs p).flags ∧ (u'.pcbs p).recv = (u.pcbs p).recv

theorem SameRemote.of_pcbs {u u' : Udp} (h : u'.pcbs = u.pcbs) : SameRemote u u' := by
  intro p
  rw [h]
  exact ⟨rfl, rfl⟩

theorem SameRemote.trans {u v w : Udp} (h : SameRemote u v) (h' : SameRemote v w) : SameRemote u w :=
  fun p => ⟨(h' p).1.trans (h p).1, (h' p).2.trans (h p).2⟩

theorem SameRemote.modify (u : Udp) (p : PcbPtr) {f : udp_pcb → udp_pcb} (hflags : ∀ c, (f c).flags = c.flags)
    (hrecv : ∀ c, (f c).recv = c.recv) : SameRemote u (u.modify p f) := by
  intro q
  by_cases hq : q = p
  · subst hq
    simp [Udp.modify, hflags, hrecv]
  · simp [Udp.modify, hq]

theorem LocatorConnected.of_same {u u' : Udp} (h : LocatorConnected u) (hs : SameRemote u u') : LocatorConnected u' := by
  intro p
  rw [(hs p).1, (hs p).2]
  exact h p

theorem udp_bind_sameRemote (u : Udp) (p : PcbPtr) (ip : ip_addr_t) (port : UInt16) :
    SameRemote u (udp_bind u p ip port).1 := by
  have hip : SameRemote u (u.modify p fun c => { c with local_ip := ip }) := .modify u p (fun _ => rfl) (fun _ => rfl)
  -- Choosing a port does not touch the control blocks.
  have hport : SameRemote u (if port = 0 then udp_new_port (u.modify p fun c => { c with local_ip := ip })
      else (u.modify p fun c => { c with local_ip := ip }, port)).1 := by
    split
    · obtain ⟨x, hx⟩ := udp_new_port_fst (u.modify p fun c => { c with local_ip := ip })
      rw [hx]
      exact hip.trans (.of_pcbs rfl)
    · exact hip
  unfold udp_bind
  dsimp only
  generalize (if port = 0 then udp_new_port (u.modify p fun c => { c with local_ip := ip })
    else (u.modify p fun c => { c with local_ip := ip }, port)) = r at hport
  split
  · exact .of_pcbs rfl
  · split
    · exact hport
    · refine hport.trans (.trans (.modify r.1 p (f := fun c => { c with local_port := r.2 }) (fun _ => rfl) (fun _ => rfl)) ?_)
      dsimp only
      split <;> exact .of_pcbs rfl

theorem udp_new_flags {u v : Udp} {p : PcbPtr} (h : udp_new u = (v, some p)) :
    (v.pcbs p).flags = 0 ∧ ∀ q, q ≠ p → v.pcbs q = u.pcbs q := by
  unfold udp_new at h
  split at h
  · cases h
  · cases h
    refine ⟨?_, fun q hq => Function.update_of_ne hq _ _⟩
    simp [udp_pcb.zero]

theorem LocatorConnected.open_slot {b : Board} (h : LocatorConnected b.udp) (idx : SlotIdx) (n : NetifPtr) (port : UInt16)
    (cell : udp_sock_id_t) : LocatorConnected (open_slot b idx n port cell).1.udp := by
  unfold Board.open_slot
  split
  · rename_i u hnew
    have hu : u.pcbs = b.udp.pcbs := by
      unfold udp_new at hnew
      split at hnew <;> cases hnew
      rfl
    exact h.of_same (.of_pcbs hu)
  · rename_i u p hnew
    obtain ⟨hzero, hother⟩ := udp_new_flags hnew
    have hu : LocatorConnected u := by
      intro q
      by_cases hq : q = p
      · exact Or.inl (hq ▸ hzero)
      · rw [hother q hq]
        exact h q
    have hbind := udp_bind_sameRemote u p (b.net.netifs n).ip_addr port
    split
    · rename_i v heq
      rw [heq] at hbind
      intro q
      by_cases hq : q = p
      · refine Or.inl ?_
        subst hq
        simp only [udp_recv, Udp.modify, modifySlot, Function.update_self]
        rw [(hbind q).1, hzero]
      · have hv := hu.of_same hbind q
        simpa [udp_recv, Udp.modify, modifySlot, hq] using hv
    · rename_i v err _ heq
      rw [heq] at hbind
      exact (hu.of_same hbind).of_same (.of_pcbs rfl)

theorem LocatorConnected.add_listener {b : Board} (h : LocatorConnected b.udp) (n : Option NetifPtr) (port : UInt16)
    (cell : Option udp_sock_id_t) : LocatorConnected (udp_source_add_listener b n port cell).1.udp := by
  unfold udp_source_add_listener
  split
  · split
    · exact h.open_slot _ _ _ _
    · exact h
  · exact h

theorem LocatorConnected.ip_changed {b : Board} (h : LocatorConnected b.udp) (n : Option NetifPtr) :
    LocatorConnected (udp_source_netif_ip_changed b n).udp := by
  unfold udp_source_netif_ip_changed
  cases n with
  | none => exact h
  | some n =>
    refine List.foldlRecOn (motive := fun b : Board => LocatorConnected b.udp) _ _ h ?_
    intro b hb i _
    unfold rebind_slot
    split
    · split
      · exact hb.of_same (udp_bind_sameRemote _ _ _ _)
      · exact hb
    · exact hb

theorem step_connected (b : Board) (a : Action) (h : (Inv b ∧ NoCompete b.udp) ∧ LocatorConnected b.udp)
    (ha : allowed b a) :
    (Inv (step b a) ∧ NoCompete (step b a).udp) ∧ LocatorConnected (step b a).udp := by
  obtain ⟨hinv, hc⟩ := h
  refine ⟨step_noCompete b a hinv ha, ?_⟩
  rcases step_bindings hinv.1 ha with hs | hcl | heq | ⟨n, port, cell, heq⟩ | ⟨n, heq⟩
  · exact hc.of_same (.of_pcbs hs.pcbs)
  · exact hc.of_same (.of_pcbs hcl.pcbs)
  · rw [heq]
    exact hc
  · rw [heq]
    exact hc.add_listener n port cell
  · rw [heq]
    exact hc.ip_changed n

/-- At start-up only the locator connects its control block. -/
theorem boot_connected (c : Boot) : LocatorConnected (boot c).udp := by
  have hany : ∀ mac title, (LocatorConfig { reset with udp := .init } mac title).udp =
      (LocatorConfig { reset with udp := .init } ethzero []).udp := fun _ _ => rfl
  rw [boot_udp, hany]
  unfold LocatorConnected
  decide +kernel

/-! ## The search -/

/-- When one control block matches and it is unconnected, the search finds it, as a full match or as the first
unconnected one. -/
theorem udp_input_search_unique {u : Udp} {inp : netif} {d : Datagram} {p : PcbPtr} {l : List PcbPtr}
    {prev uncon : Option PcbPtr} (hmatch : localMatch inp d (u.pcbs p) = true) (hflags : (u.pcbs p).flags = 0)
    (huniq : ∀ q ∈ l, localMatch inp d (u.pcbs q) = true → q = p) (hp : p ∈ l ∨ uncon = some p)
    (huncon : uncon = none ∨ uncon = some p) : (udp_input_search u inp d l prev uncon).2 = some p := by
  induction l generalizing prev uncon with
  | nil => exact hp.resolve_left List.not_mem_nil
  | cons q l ih =>
    have hrest : ∀ r ∈ l, localMatch inp d (u.pcbs r) = true → r = p := fun r hr => huniq r (List.mem_cons_of_mem q hr)
    unfold udp_input_search
    dsimp only
    by_cases hq : localMatch inp d (u.pcbs q) = true
    · obtain rfl := huniq q List.mem_cons_self hq
      have hnext : (if (localMatch inp d (u.pcbs q) && uncon.isNone &&
          ((u.pcbs q).flags &&& UDP_FLAGS_CONNECTED) == 0) = true then some q else uncon) = some q := by
        rcases huncon with rfl | rfl
        · simp [hq, hflags]
        · simp
      rw [hnext]
      split
      · cases prev <;> rfl
      · exact ih hrest (Or.inr rfl) (Or.inr rfl)
    · have hne : p ≠ q := by
        rintro rfl
        exact hq hmatch
      rw [Bool.not_eq_true] at hq
      simp only [hq, Bool.false_and, Bool.false_eq_true, if_false]
      exact ih hrest (hp.imp_left (fun h => (List.mem_cons.mp h).resolve_left hne)) huncon

section Receive

variable {b : Board} {l : List PcbPtr} {i : SlotIdx} {p : PcbPtr}

/-- Whatever interface it arrived on, the socket's datagram is handed to the callback with the socket's slot. -/
theorem handedTo_socket (hreg : b.Registry l) (hc : NoCompete b.udp) (hlc : LocatorConnected b.udp)
    (hslot : (b.s_listeners i).pcb = some p) {inp : NetifPtr} {d : Datagram}
    (hip : (b.udp.pcbs p).local_ip = d.dest_ip) (hport : (b.udp.pcbs p).local_port = d.dest)
    (hbroadcast : ip4_addr_isbroadcast d.dest_ip (b.net.netifs inp) = false) (hintact : d.intact = true)
    (hdhcp : d.dest ≠ DHCP_CLIENT_PORT) : handedTo b inp d = some (i : Nat) := by
  obtain ⟨hp, hrecv, harg⟩ := hreg.owned i p hslot
  have hlist := hreg.wf.list_eq
  have hflags : (b.udp.pcbs p).flags = 0 := by
    refine (hlc p).resolve_right ?_
    rw [hrecv]
    simp
  have hmatch : localMatch (b.net.netifs inp) d (b.udp.pcbs p) = true := by
    simp [localMatch, hport, hip]
  have huniq : ∀ q ∈ b.udp.list, localMatch (b.net.netifs inp) d (b.udp.pcbs q) = true → q = p := by
    intro q hq hqm
    obtain ⟨hqport, hqip⟩ := localMatch_unicast hbroadcast hqm
    by_contra hne
    obtain ⟨hdiff, hqany, -⟩ := hc.bindingsApart q hq p (by rwa [hlist]) hne (hqport.trans hport.symm)
    rcases hqip with hqip | hqip
    · exact hdiff (hqip.trans hip.symm)
    · exact hqany hqip
  have hfound : (udp_input_find b.udp (b.net.netifs inp) d).2 = some p := by
    rw [udp_input_find, if_neg hdhcp]
    exact udp_input_search_unique hmatch hflags huniq (Or.inl (by rwa [hlist])) (Or.inl rfl)
  obtain ⟨u, r, l', hfind, -, -, hpcbs, -⟩ := udp_input_find_spec hreg.wf (b.net.netifs inp) d
  rw [hfind] at hfound
  obtain rfl : r = some p := hfound
  simp [handedTo, hfind, hintact, hpcbs, hrecv, harg]

/-- `udp_input` keeps the DHCP client port for itself. -/
theorem handedTo_dhcp {inp : NetifPtr} {d : Datagram} (h : d.dest = DHCP_CLIENT_PORT) : handedTo b inp d = none := by
  simp [handedTo, udp_input_find, h]

theorem handedTo_intact {inp : NetifPtr} {d : Datagram} {arg : Nat} (h : handedTo b inp d = some arg) :
    d.intact = true := by
  unfold handedTo at h
  split at h
  · split at h
    · rename_i hcond
      exact (Bool.and_eq_true _ _ |>.mp hcond).1
    · cases h
  · cases h

end Receive

/-- `handedTo` says which call `udp_input` makes, and without a call no slot changes. -/
theorem udp_input_calls (b : Board) (inp : NetifPtr) (d : Datagram) (alloc : Bool) (out : Alloc) :
    (∃ arg u, handedTo b inp d = some arg ∧
      udp_input b inp d alloc out = udp_rx_callback { b with udp := u } arg (some d.payload) d.src_ip d.src) ∨
    (handedTo b inp d = none ∧ (udp_input b inp d alloc out).s_listeners = b.s_listeners) := by
  unfold handedTo udp_input
  cases hfind : udp_input_find b.udp (b.net.netifs inp) d with
  | mk u r =>
    cases r with
    | none => exact Or.inr ⟨rfl, rfl⟩
    | some q =>
      cases hd : d.intact with
      | false => exact Or.inr ⟨by simp, by simp⟩
      | true =>
        cases hrecv : (u.pcbs q).recv with
        | none => exact Or.inr ⟨by simp [hrecv], by simp [hrecv]⟩
        | some fn =>
          cases fn with
          | udp_rx_callback => exact Or.inl ⟨(u.pcbs q).recv_arg, u, by simp [hrecv], by simp [hrecv]⟩
          | LocatorReceive =>
            refine Or.inr ⟨by simp [hrecv], ?_⟩
            simp only [Bool.not_true, Bool.false_eq_true, if_false, hrecv]
            exact LocatorReceive_slots _ _ _ _ _ _ _

/-- The callback is called with what `ethernet_input` returns, and without a call no slot changes. -/
theorem ethernet_input_calls (b : Board) (p : RxPbuf) (alloc : Bool) (out : Alloc) :
    (∃ arg u, ∃ d : Datagram, (ethernet_input b p alloc out).2 = some arg ∧
      (ethernet_input b p alloc out).1 = udp_rx_callback { b with udp := u } arg (some d.payload) d.src_ip d.src) ∨
    ((ethernet_input b p alloc out).2 = none ∧ (ethernet_input b p alloc out).1.s_listeners = b.s_listeners) := by
  unfold ethernet_input
  cases ethernet_input_udp b.net p with
  | none => exact Or.inr ⟨rfl, rfl⟩
  | some r =>
    rcases udp_input_calls b r.1 r.2 alloc out with ⟨arg, u, hsome, heq⟩ | hnone
    · exact Or.inl ⟨arg, u, r.2, hsome, heq⟩
    · exact Or.inr hnone

/-! ## The interface -/

/-- The address of one host: not a multicast address, and not a broadcast address on any interface. -/
def Unicast (net : Net) (addr : ip_addr_t) : Prop :=
  ip_addr_ismulticast addr = false ∧ ∀ n ∈ net.list, ip4_addr_isbroadcast addr (net.netifs n) = false

theorem Unicast.not_any {net : Net} {addr : ip_addr_t} (h : Unicast net addr) {n : NetifPtr} (hn : n ∈ net.list) :
    ip_addr_isany addr = false := by
  by_contra hzero
  have hb := h.2 n hn
  simp only [ip_addr_isany, Bool.not_eq_false, beq_iff_eq] at hzero
  rw [hzero] at hb
  simp [ip4_addr_isbroadcast] at hb

/-- The filter gives a datagram to an interface's address to an interface with this address. -/
theorem netif_alias_route_spec {b : Board} {l : List NetifPtr} (h : NetInv b l) {n : NetifPtr} (hn : n ∈ l)
    (haddr : Unicast b.net (b.net.netifs n).ip_addr) :
    ∃ inp ∈ l, netif_alias_route b.net .phys (b.net.netifs n).ip_addr = inp ∧
      (b.net.netifs inp).ip_addr = (b.net.netifs n).ip_addr := by
  obtain ⟨hmulticast, hbroadcast⟩ := haddr
  have hphys := hbroadcast .phys h.phys_listed
  unfold netif_alias_route
  rw [hphys, hmulticast]
  split
  · rename_i heq
    exact ⟨.phys, h.phys_mem, rfl, heq.symm⟩
  · have hup : ∀ m ∈ l, (netif_is_up (b.net.netifs m) && (b.net.netifs m).has NETIF_FLAG_LINK_UP) = true := by
      intro m hm
      simp only [netif_is_up, netif.has, h.flags_eq hm]
      decide
    rw [h.list_eq, if_neg (by decide)]
    split
    · rename_i inp hfind
      have hinp := List.find?_some hfind
      simp only [Bool.and_eq_true, beq_iff_eq] at hinp
      exact ⟨inp, List.mem_of_find?_eq_some hfind, rfl, hinp.2.symm⟩
    · rename_i hnone
      have hnot := List.find?_eq_none.mp hnone n hn
      simp [hup n hn] at hnot

/-- `ip_input` takes what is for the address of an interface on the list. -/
theorem ipAccepts_address {b : Board} {l : List NetifPtr} (h : NetInv b l) {inp : NetifPtr} (hinp : inp ∈ l)
    (haddr : Unicast b.net (b.net.netifs inp).ip_addr) : ipAccepts b.net (b.net.netifs inp).ip_addr inp = true := by
  have hup : netif_is_up (b.net.netifs inp) = true := by
    simp only [netif_is_up, netif.has, h.flags_eq hinp]
    decide
  have hany := haddr.not_any (n := inp) (by rwa [h.list_eq])
  simp [ipAccepts, hup, hany]

/-! ## Delivery -/

/-- The slot is open, on an interface with this address, and bound to it and to the port. -/
def OpenAt (b : Board) (i : SlotIdx) (addr : ip_addr_t) (port : UInt16) : Prop :=
  (b.s_listeners i).in_use = true ∧ ∃ n pcb, (b.s_listeners i).netif = some n ∧ (b.s_listeners i).pcb = some pcb ∧
    (b.net.netifs n).ip_addr = addr ∧ (b.udp.pcbs pcb).local_ip = addr ∧ (b.udp.pcbs pcb).local_port = port

/-- In every reachable state an intact datagram to the address and port of an open socket is handed to the callback
with this socket's slot, except at the DHCP client port and with a header behind the first pbuf. -/
theorem socket_receives_iff (c : Boot) (as : List Action) (hlegal : machine.Legal (boot c) as) (i : SlotIdx)
    (addr : ip_addr_t) (port : UInt16) (hopen : OpenAt (machine.run (boot c) as) i addr port)
    (haddr : Unicast (machine.run (boot c) as).net addr) (p : RxPbuf) (hp : p.Whole) (h : UdpHeaders)
    (hf : IntactUdp p.bytes h) (hdest_ip : h.dest_ip = addr) (hdest : h.dest = port)
    (hsrc : Unicast (machine.run (boot c) as).net h.src_ip) (alloc : Bool) (out : Alloc) :
    (ethernet_input (machine.run (boot c) as) p alloc out).2 = some (i : Nat) ↔
      port ≠ DHCP_CLIENT_PORT ∧ HeadersInFirst p h := by
  obtain ⟨⟨hinv, hc⟩, hlc⟩ :=
    Machine.run_invariant step_connected ⟨⟨boot_inv c, boot_noCompete c⟩, boot_connected c⟩ hlegal
  generalize machine.run (boot c) as = b at *
  obtain ⟨l, hl⟩ := hinv.registry
  obtain ⟨m, hm⟩ := hinv.net
  obtain ⟨huse, n, pcb, hnetif, hpcb, rfl, hip, rfl⟩ := hopen
  have hn : n ∈ m := by
    obtain ⟨n', hn', heq⟩ := hm.sockets i huse
    obtain rfl : n = n' := Option.some.inj (hnetif.symm.trans heq)
    exact hn'
  obtain ⟨inp, hinp, hroute, hinp_ip⟩ := netif_alias_route_spec hm hn haddr
  have hlist : inp ∈ b.net.list := by rwa [hm.list_eq]
  have hetharp : (b.net.netifs inp).has NETIF_FLAG_ETHARP = true := by
    simp only [netif.has, hm.flags_eq hinp]
    decide
  have haccept : ipAccepts b.net h.dest_ip inp = true := by
    rw [hdest_ip, ← hinp_ip]
    exact ipAccepts_address hm hinp (hinp_ip ▸ haddr)
  -- With its headers in the first pbuf the datagram gets to the search.
  have hthrough : HeadersInFirst p h → ∃ d, ethernet_input_udp b.net p = some (inp, d) ∧ Carries d h := fun hfirst =>
    ethernet_input_udp_carries hp hf hfirst (hdest_ip ▸ hroute) hetharp haccept (hsrc.2 inp hlist) hsrc.1
  constructor
  · intro hcall
    have hfirst : HeadersInFirst p h := by
      unfold ethernet_input at hcall
      split at hcall
      · cases hcall
      · rename_i inp' d heq
        have hle := ethernet_input_udp_intact heq (handedTo_intact hcall)
        have h8 : UDP_HLEN = 8 := rfl
        have hvhl : p.byteAt SIZEOF_ETH_HDR = h.vhl := byteAt_of_bytes (by omega) hf.vhl
        rwa [hvhl] at hle
    obtain ⟨d, heq, hd⟩ := hthrough hfirst
    refine ⟨fun hdhcp => ?_, hfirst⟩
    unfold ethernet_input at hcall
    rw [heq] at hcall
    dsimp only at hcall
    rw [handedTo_dhcp (hd.dest.trans (hdest.trans hdhcp))] at hcall
    cases hcall
  · rintro ⟨hdhcp, hfirst⟩
    obtain ⟨d, heq, hd⟩ := hthrough hfirst
    unfold ethernet_input
    rw [heq]
    have hd_ip : d.dest_ip = (b.net.netifs n).ip_addr := hd.dest_ip.trans hdest_ip
    have hd_port : d.dest = (b.udp.pcbs pcb).local_port := hd.dest.trans hdest
    refine handedTo_socket hl hc hlc hpcb (hip.trans hd_ip.symm) hd_port.symm ?_ hd.intact (hd_port ▸ hdhcp)
    rw [hd_ip]
    exact haddr.2 inp hlist

/-- One byte from 10.0.0.5:7000 to 10.0.0.10. -/
def sampleFrame (port chksum : UInt16) : List UInt8 :=
  [0, 0, 0, 0, 0, 0, 2, 0, 0, 0, 0, 5, 0x08, 0x00] ++
  [0x45, 0, 0, 29, 0, 0, 0, 0, 64, 17, 0x66, 0xc2, 10, 0, 0, 5, 10, 0, 0, 10] ++
  shortBytes 7000 ++ shortBytes port ++ [0, 9] ++ shortBytes chksum ++ [0x58]

def sampleHeaders (port chksum : UInt16) : UdpHeaders where
  vhl := 0x45
  ip_len := 29
  src_ip := 0x0a000005
  dest_ip := 0x0a00000a
  src := 7000
  dest := port
  chksum := chksum

/-- The frame in one pbuf. -/
def samplePbuf (port chksum : UInt16) : RxPbuf where
  mem := fun k => (sampleFrame port chksum).getD k 0
  payload := 0
  len := 43
  tot_len := 43
  next := []

/-- The physical interface has a socket at the port. -/
def listenAt (port : UInt16) : List Action := [.add_listener .phys port (some 0)]

theorem socket_receives_sample :
    OpenAt (machine.run (boot (.main ethzero true)) (listenAt 5000)) 0 0x0a00000a 5000 ∧
    IntactUdp (samplePbuf 5000 0x64ed).bytes (sampleHeaders 5000 0x64ed) ∧
    (ethernet_input (machine.run (boot (.main ethzero true)) (listenAt 5000)) (samplePbuf 5000 0x64ed) true
      ⟨true, true⟩).2 = some 0 := by
  have hopen : OpenAt (machine.run (boot (.main ethzero true)) (listenAt 5000)) 0 0x0a00000a 5000 :=
    ⟨by decide +kernel, .phys, 18, by decide +kernel, by decide +kernel, by decide +kernel, by decide +kernel,
      by decide +kernel⟩
  have hf : IntactUdp (samplePbuf 5000 0x64ed).bytes (sampleHeaders 5000 0x64ed) :=
    ⟨by decide +kernel, by decide +kernel, by decide +kernel, by decide +kernel, by decide +kernel, by decide +kernel,
      by decide +kernel, ⟨0, by decide +kernel, by decide +kernel⟩, by decide +kernel, by decide +kernel,
      by decide +kernel, by decide +kernel, by decide +kernel, by decide +kernel, by decide +kernel, by decide +kernel,
      Or.inr (by decide +kernel)⟩
  refine ⟨hopen, hf, ?_⟩
  refine (socket_receives_iff (.main ethzero true) (listenAt 5000) (by decide +kernel) 0 0x0a00000a 5000 hopen ?_
    (samplePbuf 5000 0x64ed) rfl (sampleHeaders 5000 0x64ed) hf rfl rfl ?_ true ⟨true, true⟩).mpr
    ⟨by decide, by decide +kernel⟩
  · exact ⟨by decide, by decide +kernel⟩
  · exact ⟨by decide, by decide +kernel⟩

/-- `SOCK OPEN 1 68` is accepted, and no datagram to the port is handed to the socket. -/
theorem dhcp_port_socket_deaf :
    (Firmware.sockOpen (Firmware.boot (.main ethzero true)) 1 68).2 = "#END SOCKOPEN OK\r\n".toList ∧
    machine.Legal (boot (.main ethzero true)) (listenAt 68) ∧
    OpenAt (machine.run (boot (.main ethzero true)) (listenAt 68)) 0 0x0a00000a 68 ∧
    Unicast (machine.run (boot (.main ethzero true)) (listenAt 68)).net 0x0a00000a ∧
    Unicast (machine.run (boot (.main ethzero true)) (listenAt 68)).net (sampleHeaders 68 0).src_ip ∧
    IntactUdp (samplePbuf 68 0).bytes (sampleHeaders 68 0) ∧
    (ethernet_input (machine.run (boot (.main ethzero true)) (listenAt 68)) (samplePbuf 68 0) true
      ⟨true, true⟩).2 = none := by
  refine ⟨by decide +kernel, by decide +kernel, ?_, ?_, ?_, ?_, by decide +kernel⟩
  · exact ⟨by decide +kernel, .phys, 18, by decide +kernel, by decide +kernel, by decide +kernel, by decide +kernel,
      by decide +kernel⟩
  · exact ⟨by decide, by decide +kernel⟩
  · exact ⟨by decide, by decide +kernel⟩
  · exact ⟨by decide +kernel, by decide +kernel, by decide +kernel, by decide +kernel, by decide +kernel,
      by decide +kernel, by decide +kernel, ⟨0, by decide +kernel, by decide +kernel⟩, by decide +kernel,
      by decide +kernel, by decide +kernel, by decide +kernel, by decide +kernel, by decide +kernel, by decide +kernel,
      by decide +kernel, Or.inl rfl⟩

end MultiIp.Board

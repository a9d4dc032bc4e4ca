import MultiIp.Board.ArpTruth
import MultiIp.Board.PingAnswered
import MultiIp.Lwip.EtharpUnique

/-!
# Asking and answering

A packet for a host of the local network whose hardware is unknown waits while
the board asks. Where the request arrives, the host answers and knows who asked;
where the answer arrives, the packet goes out.
-/

namespace MultiIp.Board

open Lwip Lib

/-- The ARP table has this hardware for the address. -/
def Knows (b : Board) (ip : ip_addr_t) (mac : eth_addr) : Prop := (etharp_find_addr b.net.arp ip).2 = some mac

theorem Unicast.usable {net : Net} {addr : ip_addr_t} (h : Unicast net addr) {n : NetifPtr} (hn : n ∈ net.list) :
    Usable (net.netifs n) addr := ⟨h.not_any hn, h.2 n hn, h.1⟩

section Frame

variable {b : Board} {h : etharp_hdr} {dest src : eth_addr} {p : RxPbuf}

/-- A frame to an address of the board gets to an interface with this address. -/
theorem rx_frame_arp (hb : Inv b) (hhost : HostOf b.net h.dipaddr h.sipaddr) (ha : Arrives (.arp dest src h) p)
    (hlen : SIZEOF_ETHARP_PACKET ≤ p.len.toNat) (alloc : Bool) (out : Alloc) :
    ∃ m ∈ b.net.list, (b.net.netifs m).ip_addr = h.dipaddr ∧
      (rx_frame b p alloc out).net.arp = etharp_arp_input b.net.arp m (b.net.netifs m) (arpFrameOf p) := by
  obtain ⟨m, hm, hroute, hm_ip, hetharp⟩ := hhost.route hb
  obtain ⟨htype, hread⟩ := arp_frame_read ha hlen
  have hfilter : netif_alias_route_filter b.net (arpFrameOf p) .phys = m := by
    unfold netif_alias_route_filter
    rw [if_pos (show (arpFrameOf p).len ≥ SIZEOF_ETHARP_PACKET from hlen), hread, hroute]
  refine ⟨m, hm, hm_ip, ?_⟩
  have h14 : SIZEOF_ETH_HDR = 14 := rfl
  have h42 : SIZEOF_ETHARP_PACKET = 42 := rfl
  unfold rx_frame
  rw [if_pos ⟨by omega, htype⟩]
  unfold ethernet_input_arp
  rw [hfilter]
  dsimp only
  rw [if_pos hetharp]

/-- The board knows who sent the frame, sends what waited for this address, and answers a request. -/
theorem rx_frame_learns (hb : Inv b) (hvalid : h.valid = true) (hhost : HostOf b.net h.dipaddr h.sipaddr)
    (ha : Arrives (.arp dest src h) p) (hlen : SIZEOF_ETHARP_PACKET ≤ p.len.toNat) (alloc : Bool) (out : Alloc) {mac : eth_addr}
    (hmac : ∀ m ∈ b.net.list, (b.net.netifs m).hwaddr = mac) :
    Knows (rx_frame b p alloc out) h.sipaddr h.shwaddr ∧
      (∀ k ∈ b.net.arp.waiting h.sipaddr, ∃ m, (m, .ip h.shwaddr mac k) ∈ (rx_frame b p alloc out).net.arp.tx) ∧
      (h.opcode = ARP_REQUEST →
        ∃ m, (m, .arp h.shwaddr mac (h.reply mac)) ∈ (rx_frame b p alloc out).net.arp.tx) := by
  obtain ⟨m, hm, hip, hrx⟩ := rx_frame_arp hb hhost ha hlen alloc out
  obtain ⟨-, hread⟩ := arp_frame_read ha hlen
  have hmine := ((hip ▸ hhost.addr).usable hm).1
  have hlearn := arp_input_learns (f := arpFrameOf p) hlen (hread ▸ hvalid) hmine (hread ▸ hip.symm)
    (hread ▸ hhost.peer.usable hm) b.net.arp m
  rw [hread, hmac m hm, ← hrx] at hlearn
  obtain ⟨hknown, hsent, hanswer⟩ := hlearn
  exact ⟨hknown, fun k hk => ⟨m, hsent k hk⟩, fun hreq => ⟨m, hanswer hreq⟩⟩

end Frame

/-! ## A move that sends -/

/-- The move sends on this interface, with memory for the request and for the packet. -/
def Move.sendsOn (b : Board) (n : NetifPtr) : Move → Bool
  | .call (.data_send id tx _ _ _ len alloc out) =>
    tx == some n && len != 0 && alloc && out.request && out.copy &&
      ((resolve b id).bind (fun idx => (b.s_listeners idx).pcb)).all
        (fun pcb => ip_addr_isany (b.udp.pcbs pcb).local_ip || (b.udp.pcbs pcb).local_ip == (b.net.netifs n).ip_addr)
  | .output _ _ _ _ _ tx alloc => tx == n && alloc.request && alloc.copy
  | _ => false

section Send

variable {b : Board} {n : NetifPtr}

theorem ip_output_if_arp (houtput : (b.net.netifs n).output = some .etharp_output) (src dest : ip_addr_t)
    (ttl tos : UInt8) (pay : IpPayload) (alloc : Alloc) :
    (ip_output_if b.net src dest ttl tos pay n alloc).1.arp =
      (etharp_output b.net.arp n (b.net.netifs n) (ipPacket b.net src dest ttl tos pay n) dest alloc).1 := by
  unfold ip_output_if
  dsimp only
  rw [houtput]
  rfl

theorem udp_sendto_if_arp (houtput : (b.net.netifs n).output = some .etharp_output) {pcb : PcbPtr}
    (hport : (b.udp.pcbs pcb).local_port ≠ 0)
    (hlocal : (ip_addr_isany (b.udp.pcbs pcb).local_ip || (b.udp.pcbs pcb).local_ip == (b.net.netifs n).ip_addr) = true)
    (data : List UInt8) (dst_ip : ip_addr_t) (dst_port : UInt16) (alloc : Alloc) :
    (udp_sendto_if b.net b.udp pcb data dst_ip dst_port n alloc).1.arp =
      (etharp_output b.net.arp n (b.net.netifs n) (udpPacket b.net (b.udp.pcbs pcb) data dst_ip dst_port n) dst_ip
        alloc).1 := by
  unfold udp_sendto_if
  rw [if_neg hport]
  dsimp only
  unfold udp_sendto_if_bound
  split
  · rw [ip_output_if_arp houtput]
    simp [ipPacket, udpPacket]
  · rename_i hany
    have hip : (b.udp.pcbs pcb).local_ip = (b.net.netifs n).ip_addr := by simpa [hany] using hlocal
    rw [if_neg (not_not_intro hip), ip_output_if_arp houtput, ipPacket, if_neg hany, hip]
    rfl

/-- What the move hands to IP gets to `etharp_output`. -/
theorem move_sends (hb : Inv b) (hn : n ∈ b.net.list) {m : Move} (hm : m.sendsOn b n = true) {k : ip_packet}
    (hk : handed b m = some k) :
    (move b m).net.arp = (etharp_output b.net.arp n (b.net.netifs n) k k.dest ⟨true, true⟩).1 := by
  obtain ⟨l, hl⟩ := hb.net
  obtain ⟨pcbs, hreg⟩ := hb.registry
  have houtput : (b.net.netifs n).output = some .etharp_output :=
    (congrArg (fun x => x.output) (hl.shares n (hl.list_eq ▸ hn))).trans hl.output
  unfold Move.sendsOn at hm
  split at hm
  · rename_i id tx ip port data len alloc out
    simp only [Bool.and_eq_true, beq_iff_eq, bne_iff_ne] at hm
    obtain ⟨⟨⟨⟨⟨rfl, hlen⟩, rfl⟩, hreq⟩, hcopy⟩, hlocal⟩ := hm
    obtain rfl : out = ⟨true, true⟩ := by
      cases out
      simp_all
    simp only [handed, sendPacket] at hk
    simp only [move, step, udp_source_data_send]
    cases hid : resolve b id with
    | none =>
      rw [hid] at hk
      cases hk
    | some idx =>
      cases data with
      | none =>
        rw [hid] at hk
        cases hk
      | some bytes =>
        rw [hid] at hk hlocal
        obtain ⟨pcb, hpcb, rfl⟩ := Option.map_eq_some_iff.mp hk
        rw [Option.bind_some, hpcb, Option.all_some] at hlocal
        dsimp only
        rw [if_neg hlen, if_neg (by simp), hpcb]
        exact udp_sendto_if_arp houtput (hreg.port pcb (hreg.owned _ pcb hpcb).1) hlocal _ ip port _
  · rename_i src dest ttl tos pay tx alloc
    simp only [Bool.and_eq_true, beq_iff_eq] at hm
    obtain ⟨⟨rfl, hreq⟩, hcopy⟩ := hm
    obtain rfl : alloc = ⟨true, true⟩ := by
      cases alloc
      simp_all
    cases hk
    exact ip_output_if_arp houtput src dest ttl tos pay _
  · cases hm

end Send

/-! ## The exchange -/

section Exchange

variable {ι : Type} [DecidableEq ι]

/-- The boards after a run. -/
def boards (cs : ι → Boot) (as : List (NetworkAction ι)) : ι → Board := (network ι).run (fun i => boot (cs i)) as

theorem boards_unique (cs : ι → Boot) {as : List (NetworkAction ι)} (hl : (network ι).Legal (fun i => boot (cs i)) as)
    (i : ι) : (boards cs as i).net.arp.Unique := by
  refine ((network_reaches hl i).invariant (P := fun b => Inv b ∧ b.net.arp.Unique) ?_ ⟨boot_inv (cs i), ?_⟩).2
  · rintro b m ⟨hb, hunique⟩ hm
    obtain ⟨l, hnet⟩ := hb.net
    have hcalls : Arp.Calls (fun _ => True) m.Tells b.net.arp (move b m).net.arp :=
      move_arpCalls hnet (fun _ _ => trivial) (fun _ _ => trivial) (fun _ _ h => h)
    exact ⟨move_inv b m hb hm, hcalls.invariant (fun _ _ hcall ha => ha.call hcall) hunique⟩
  · exact Arp.Unique.init.of_table (boot_net (cs i)).arp

/-- In every run of the network, an ARP table has at most one entry in use for an address. -/
theorem arp_entry_count (cs : ι → Boot) (as : List (NetworkAction ι))
    (hl : (network ι).Legal (fun i => boot (cs i)) as) (i : ι) (ip : ip_addr_t) :
    (List.finRange ARP_TABLE_SIZE).countP ((boards cs as i).net.arp.holds ip) ≤ 1 :=
  (boards_unique cs hl i).count ip

theorem arp_entry_count_greet :
    (List.finRange ARP_TABLE_SIZE).countP ((boards twoBoots greetRun here).net.arp.holds 0x0a00000b) = 1 ∧
      (List.finRange ARP_TABLE_SIZE).countP ((boards twoBoots greetRun here).net.arp.holds 0x0a00000b) ≤ 1 :=
  ⟨by decide +kernel, arp_entry_count twoBoots greetRun greetRun_legal here 0x0a00000b⟩

theorem run_move (s : ι → Board) (as : List (NetworkAction ι)) (i : ι) (m : Move) :
    (network ι).run s (as ++ [.run i m]) i = move ((network ι).run s as i) m := by
  rw [Machine.run_append]
  exact Function.update_self _ _ _

end Exchange

/-- Both boards have a socket. -/
def greetOpened : List (NetworkAction (Fin 2)) :=
  [.run here (.call (.add_listener .phys 4000 (some 0))), .run there (.call (.add_listener .phys 5000 (some 0)))]

def greetMove : Move := .call (.data_send 0 (some .phys) 0x0a00000b 5000 (some [104, 105]) 2 true ⟨true, true⟩)

def greetAsked : List (NetworkAction (Fin 2)) := [.deliver here there askFrame (onePbuf (padded askFrame)) true ⟨true, true⟩]

theorem greetAsked_legal : (network (Fin 2)).Legal (fun i => boot (twoBoots i))
    (greetOpened ++ [.run here greetMove] ++ [] ++ greetAsked) := by
  have hrun : greetRun = greetOpened ++ [.run here greetMove] ++ [] ++ greetAsked ++
      [.deliver there here toldFrame (onePbuf (padded toldFrame)) true ⟨true, true⟩] := rfl
  have hl := greetRun_legal
  rw [hrun, Machine.legal_append] at hl
  exact hl.1

end MultiIp.Board

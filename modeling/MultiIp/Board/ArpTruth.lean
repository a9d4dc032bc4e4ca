import MultiIp.Board.Delivery
import MultiIp.Lwip.EtharpNames

/-!
# ARP entries are true

As long as ARP frames arrive as they were sent, what a board finds in its ARP
table is the hardware of a board that has the address, or had it.
-/

namespace MultiIp.Board

open Lwip Lib

/-- An interface of the list has the address, on this hardware. -/
def Hosts (net : Net) (ip : ip_addr_t) (mac : eth_addr) : Prop :=
  ∃ n ∈ net.list, (net.netifs n).ip_addr = ip ∧ (net.netifs n).hwaddr = mac

/-! ## The hardware of a board -/

theorem NetInv.hwaddr {b : Board} {l : List NetifPtr} (h : NetInv b l) {n : NetifPtr} (hn : n ∈ l) :
    (b.net.netifs n).hwaddr = (b.net.netifs .phys).hwaddr :=
  congrArg (fun x => x.hwaddr) (h.shares n hn)

theorem netif_remove_hwaddr (net : Net) (n m : NetifPtr) :
    ((netif_remove net n).netifs m).hwaddr = (net.netifs m).hwaddr := by
  have hdown : ∀ net : Net, ((netif_set_down net n).netifs m).hwaddr = (net.netifs m).hwaddr := by
    intro net
    unfold netif_set_down
    by_cases hm : m = n
    · subst hm
      split
      · dsimp only
        split <;> simp [Net.modify, netif.down]
      · rfl
    · split
      · dsimp only
        split <;> simp [Net.modify, hm]
      · rfl
  have hunlink : ∀ net : Net, (netif_unlink net n).1.netifs = net.netifs := by
    intro net
    unfold netif_unlink
    split
    · rfl
    · split <;> rfl
  have hstart : ((if netif_is_up (net.netifs n) then netif_set_down net n else net).netifs m).hwaddr =
      (net.netifs m).hwaddr := by
    split
    · exact hdown net
    · rfl
  unfold netif_remove
  generalize (if netif_is_up (net.netifs n) then netif_set_down net n else net) = down at hstart
  have hsame := congrFun (hunlink down) m
  rw [← hstart, ← hsame]
  dsimp only
  split <;> rename_i heq <;> rw [heq]
  split <;> rfl

theorem step_hwaddr {b : Board} {l : List NetifPtr} (h : NetInv b l) (a : Action) :
    ((step b a).net.netifs .phys).hwaddr = (b.net.netifs .phys).hwaddr := by
  have hsame : ∀ {b' : Board}, SameInterfaces b b' → (b'.net.netifs .phys).hwaddr = (b.net.netifs .phys).hwaddr :=
    fun hs => congrArg (fun x => x.hwaddr) (hs.hw .phys)
  cases a with
  | add_listener n port cell => exact hsame (add_listener_same b (some n) port cell)
  | remove_listener id => exact hsame (remove_listener_same b id)
  | remove_all_on_netif n => exact hsame (remove_all_same b n)
  | netif_ip_changed n => exact hsame (netif_ip_changed_same b n)
  | data_send id n ip port data len alloc out => exact hsame (data_send_same b id n ip port data len alloc out)
  | poll_rx id msg => exact hsame (poll_rx_same b id msg)
  | rx_callback arg p addr port => exact hsame (rx_callback_same b arg p addr port)
  | udp_input inp d alloc out => exact hsame (udp_input_same b inp d alloc out)
  | net_if_add ip mask gw alloc =>
    simp only [step, net_if_add_fst]
    rcases lwIPAliasAdd_spec h ip mask gw alloc with ⟨-, hr⟩ | ⟨i, -, hr⟩ <;> rw [hr]
    simp
  | net_if_remove n =>
    have hclosed := hsame (remove_all_same b (some n))
    simp only [step]
    unfold net_if_remove
    dsimp only
    split
    · rfl
    · unfold lwIPAliasRemove
      split
      · exact hclosed
      · split
        · exact (netif_remove_hwaddr _ _ _).trans hclosed
        · exact hclosed
  | set_ipaddr n ip => exact hsame (set_addr_same b n _ (fun _ => rfl))
  | set_netmask n mask => exact hsame (set_addr_same b n _ (fun _ => rfl))
  | set_gw n gw => exact hsame (set_addr_same b n _ (fun _ => rfl))
  | arp_input f =>
    simp only [step]
    unfold ethernet_input_arp
    dsimp only
    split <;> rfl

theorem move_hwaddr {b : Board} {l : List NetifPtr} (h : NetInv b l) (m : Move) :
    ((move b m).net.netifs .phys).hwaddr = (b.net.netifs .phys).hwaddr := by
  rcases move_cases b m with ⟨a, rfl⟩ | ⟨net, ⟨arp, harp, -⟩, heq⟩
  · exact step_hwaddr h a
  · rw [heq, harp]

/-! ## ARP frames as bytes -/

theorem ethAt_of_bytes {p : RxPbuf} {s t : List UInt8} {x : eth_addr} {k : Nat} (hb : p.bytes = s ++ x.toList ++ t)
    (hk : s.length = k) (hlen : k + 6 ≤ p.len.toNat) : ethAt p k = x := by
  refine Vector.ext (fun i hi => ?_)
  have hget : p.bytes[k + i]? = some x[i] := by
    rw [hb, List.append_assoc, List.getElem?_append_right (by omega), hk, Nat.add_sub_cancel_left,
      List.getElem?_append_left (by simpa using hi), List.getElem?_eq_getElem (by simpa using hi), Vector.getElem_toList]
  rw [ethAt, Vector.getElem_ofFn]
  exact byteAt_of_bytes (by omega) hget

/-- A part of the frame, with what is in front of it and behind it. -/
theorem flatten_part (parts : List (List UInt8)) (i : Nat) :
    parts.flatten = (parts.take i).flatten ++ parts.getD i [] ++ (parts.drop (i + 1)).flatten := by
  induction parts generalizing i with
  | nil => simp
  | cons x parts ih =>
    cases i with
    | zero => simp
    | succ i =>
      have hrest := ih i
      simp only [List.flatten_cons, List.take_succ_cons, List.drop_succ_cons, List.getD_cons_succ, List.append_assoc]
        at hrest ⊢
      rw [← hrest]

/-- The receiver reads the header that the sender has written. -/
theorem arpFrameOf_bytes {p : RxPbuf} {h : etharp_hdr} {front pad : List UInt8} (hb : p.bytes = front ++ h.bytes ++ pad)
    (hfront : front.length = SIZEOF_ETH_HDR) (hlen : SIZEOF_ETHARP_PACKET ≤ p.len.toNat) : (arpFrameOf p).hdr = h := by
  have h14 : SIZEOF_ETH_HDR = 14 := rfl
  have h42 : SIZEOF_ETHARP_PACKET = 42 := rfl
  obtain ⟨hwtype, proto, hwlen, protolen, opcode, shwaddr, sipaddr, dhwaddr, dipaddr⟩ := h
  have hflat : p.bytes = [front, shortBytes hwtype, shortBytes proto, [hwlen], [protolen], shortBytes opcode,
      shwaddr.toList, octets sipaddr, dhwaddr.toList, octets dipaddr, pad].flatten := by
    simp [hb, etharp_hdr.bytes]
  have hpart := fun i => hflat.trans (flatten_part _ i)
  have hshort : ∀ {s t : List UInt8} {x : UInt16} {k : Nat}, p.bytes = s ++ shortBytes x ++ t → s.length = k → k + 1 < 42 →
      p.shortAt k = x := by
    intro s t x k hs hk hk'
    exact shortAt_of_bytes (by omega) (hs ▸ shortOf_append hk x)
  have hlong : ∀ {s t : List UInt8} {x : ip_addr_t} {k : Nat}, p.bytes = s ++ octets x ++ t → s.length = k → k + 3 < 42 →
      p.longAt k = x := by
    intro s t x k hs hk hk'
    exact longAt_of_bytes (by omega) (hs ▸ longOf_append hk x)
  have hbyte : ∀ {s t : List UInt8} {x : UInt8} {k : Nat}, p.bytes = s ++ [x] ++ t → s.length = k → k < 42 →
      p.byteAt k = x := by
    intro s t x k hs hk hk'
    refine byteAt_of_bytes (by omega) ?_
    rw [hs, List.append_assoc, List.getElem?_append_right (by omega), hk, Nat.sub_self]
    rfl
  unfold arpFrameOf
  dsimp only
  congr 1
  · exact hshort (hpart 1) (by simp; omega) (by omega)
  · exact hshort (hpart 2) (by simp; omega) (by omega)
  · exact hbyte (hpart 3) (by simp; omega) (by omega)
  · exact hbyte (hpart 4) (by simp; omega) (by omega)
  · exact hshort (hpart 5) (by simp; omega) (by omega)
  · exact ethAt_of_bytes (hpart 6) (by simp; omega) (by omega)
  · exact hlong (hpart 7) (by simp; omega) (by omega)
  · exact ethAt_of_bytes (hpart 8) (by simp; omega) (by omega)
  · exact hlong (hpart 9) (by simp; omega) (by omega)

theorem arp_frame_read {dest src : eth_addr} {h : etharp_hdr} {p : RxPbuf} (ha : Arrives (.arp dest src h) p)
    (hlen : SIZEOF_ETHARP_PACKET ≤ p.len.toNat) : p.shortAt 12 = ETHTYPE_ARP ∧ (arpFrameOf p).hdr = h := by
  obtain ⟨-, ip_id, pad, hb⟩ := ha
  have h42 : SIZEOF_ETHARP_PACKET = 42 := rfl
  constructor
  · refine shortAt_of_bytes (by omega) ?_
    rw [hb, Frame.bytes, List.append_assoc]
    exact eth_hdr_type _ _ _ _
  · exact arpFrameOf_bytes hb (eth_hdr_length _ _ _) hlen

/-! ## On the network -/

section Network

variable {ι : Type} [DecidableEq ι]

/-- The interfaces of a board share its hardware. -/
theorem network_hwaddr (cs : ι → Boot) {as : List (NetworkAction ι)} (hl : (network ι).Legal (fun i => boot (cs i)) as)
    (i : ι) {n : NetifPtr} (hn : n ∈ ((network ι).run (fun i => boot (cs i)) as i).net.list) :
    (((network ι).run (fun i => boot (cs i)) as i).net.netifs n).hwaddr = (cs i).macAddress := by
  have hrun := (network_reaches hl i).invariant
    (P := fun b => Inv b ∧ (b.net.netifs .phys).hwaddr = (cs i).macAddress) ?_ ⟨boot_inv (cs i), ?_⟩
  · obtain ⟨l, hl⟩ := hrun.1.net
    exact (hl.hwaddr (hl.list_eq ▸ hn)).trans hrun.2
  · rintro b m ⟨hb, hmac⟩ hm
    obtain ⟨l, hl⟩ := hb.net
    exact ⟨move_inv b m hb hm, (move_hwaddr hl m).trans hmac⟩
  · rw [(boot_net (cs i)).phys]
    rfl

/-- The board sends on an interface of its list, and an ARP frame arrives as it was sent. -/
def NetworkAction.Faithful (s : ι → Board) : NetworkAction ι → Prop
  | .run i m => ∀ n ∈ m.sender, n ∈ (s i).net.list
  | .deliver _ _ f p _ _ => ∀ dest src h, f = .arp dest src h → Arrives f p

def faithfulNetwork (ι : Type) [DecidableEq ι] : Machine (ι → Board) (NetworkAction ι) where
  step := networkStep
  allowed s a := networkAllowed s a ∧ a.Faithful s

theorem faithful_legal {s : ι → Board} {as : List (NetworkAction ι)} (hl : (faithfulNetwork ι).Legal s as) :
    (network ι).Legal s as := by
  induction as generalizing s with
  | nil => trivial
  | cons a as ih => exact ⟨hl.1.1, ih hl.2⟩

/-- A board with this hardware had the address at some time of the run. -/
def Had (cs : ι → Boot) (as : List (NetworkAction ι)) (ip : ip_addr_t) (mac : eth_addr) : Prop :=
  ∃ bs, bs <+: as ∧ ∃ i, (cs i).macAddress = mac ∧
    ∃ n ∈ ((faithfulNetwork ι).run (fun i => boot (cs i)) bs i).net.list,
      (((faithfulNetwork ι).run (fun i => boot (cs i)) bs i).net.netifs n).ip_addr = ip

theorem Had.mono {cs : ι → Boot} {as : List (NetworkAction ι)} {ip : ip_addr_t} {mac : eth_addr} (h : Had cs as ip mac)
    (a : NetworkAction ι) : Had cs (as ++ [a]) ip mac := by
  obtain ⟨bs, hbs, hrest⟩ := h
  exact ⟨bs, hbs.trans (List.prefix_append as [a]), hrest⟩

theorem local_tells {m : Move} (hm : m.isLocal = true) (ip : ip_addr_t) (mac : eth_addr) : ¬ m.Tells ip mac := by
  intro h
  cases m with
  | call a =>
    cases a with
    | arp_input f => cases hm
    | _ => exact h
  | _ => exact h

/-- What an ARP frame of the wire tells was sent. -/
theorem arp_frame_tells {f : Frame} {p : RxPbuf} (ha : ArrivesDamaged f p)
    (hfaithful : ∀ dest src h, f = .arp dest src h → Arrives f p) (htype : p.shortAt 12 = ETHTYPE_ARP) {ip : ip_addr_t}
    {mac : eth_addr} (htells : (arpFrameOf p).Tells ip mac) :
    ∃ dest src h, f = .arp dest src h ∧ h.sipaddr = ip ∧ h.shwaddr = mac := by
  obtain ⟨-, hlen, hsip, hmac⟩ := htells
  have hlen' : SIZEOF_ETHARP_PACKET ≤ p.len.toNat := hlen
  have h42 : SIZEOF_ETHARP_PACKET = 42 := rfl
  cases f with
  | arp dest src h =>
    obtain ⟨-, hread⟩ := arp_frame_read (hfaithful dest src h rfl) hlen'
    rw [hread] at hsip hmac
    exact ⟨dest, src, h, rfl, hsip, hmac⟩
  | ip dest src k =>
    -- The type of the frame is as it was sent.
    obtain ⟨-, ip_id, pad, m, x, hm, hb⟩ := ha
    have h14 : SIZEOF_ETH_HDR = 14 := rfl
    have hshort : shortOf p.bytes 12 = some ETHTYPE_IP := by
      rw [hb, shortOf_set (by omega), Frame.bytes, List.append_assoc, eth_hdr_type]
    rw [shortOf_bytes (by omega), htype] at hshort
    cases hshort

theorem rx_frame_truthful {T : ip_addr_t → eth_addr → Prop} {b : Board} (hb : Inv b) (h : b.net.arp.Truthful T)
    (hown : ∀ ip mac, Hosts b.net ip mac → T ip mac) {f : Frame} {p : RxPbuf}
    (hsent : ∀ dest src x, f = .arp dest src x → x.Says T) (ha : ArrivesDamaged f p)
    (hfaithful : ∀ dest src x, f = .arp dest src x → Arrives f p) (alloc : Bool) (out : Alloc) :
    (rx_frame b p alloc out).net.arp.Truthful T := by
  obtain ⟨l, hl⟩ := hb.net
  unfold rx_frame
  split
  · rename_i harp
    refine h.calls (ethernet_input_arpCalls ?_ ?_)
    · exact hown _ _ ⟨_, hl.list_eq ▸ netif_alias_route_filter_mem hl _, rfl, rfl⟩
    · intro ip mac htells
      obtain ⟨dest, src, x, rfl, rfl, rfl⟩ := arp_frame_tells ha hfaithful harp.2 htells
      exact (hsent dest src x rfl).2
  · unfold ethernet_input
    split
    · exact h
    · refine h.calls (udp_input_arpCalls ?_ _ _ _ _)
      exact fun _ n hn => hown _ _ ⟨n, ip_route_listed hl hn, rfl, rfl⟩

theorem networkStep_truthful {T : ip_addr_t → eth_addr → Prop} {s : ι → Board} (hs : ∀ i, Inv (s i))
    (h : ∀ i, (s i).net.arp.Truthful T) (hown : ∀ i ip mac, Hosts (s i).net ip mac → T ip mac) {a : NetworkAction ι}
    (ha : networkAllowed s a) (hf : a.Faithful s) (i : ι) : (networkStep s a i).net.arp.Truthful T := by
  have hupdate : ∀ (j : ι) (b : Board), b.net.arp.Truthful T → (Function.update s j b i).net.arp.Truthful T := by
    intro j b hb
    exact (Function.forall_update_iff s (fun _ c => c.net.arp.Truthful T)).mpr ⟨hb, fun k _ => h k⟩ i
  cases a with
  | run j m =>
    obtain ⟨l, hl⟩ := (hs j).net
    refine hupdate j _ ((h j).calls (move_arpCalls hl ?_ ?_ ?_))
    · exact fun n hn => hown j _ _ ⟨n, hn, rfl, rfl⟩
    · exact fun n hn => hown j _ _ ⟨n, hf n hn, rfl, rfl⟩
    · exact fun ip mac htells => absurd htells (local_tells ha.1 ip mac)
  | deliver k j f p alloc out =>
    obtain ⟨⟨n, hn⟩, harrives⟩ := ha
    refine hupdate j _ (rx_frame_truthful (hs j) (h j) (hown j) ?_ harrives hf alloc out)
    rintro dest src x rfl
    exact (h k).sent n dest src x hn

theorem boot_arp (c : Boot) : (boot c).net.arp = (etharp_gratuitous Arp.init .phys (bootNetif c) c.alloc).1 := by
  unfold boot
  rw [(LocatorConfig_frame _ _ _).2.1]
  unfold lwIPNetifAdd
  rw [if_neg (by simp [lwIPCoreInit, reset]), netif_add_ok _ _ _ _ _ _ _
    (fun x => by cases c.connected <;> simp [hdkif_init])]
  dsimp only [if_true]
  rw [netif_set_up_down (x := bootNetif c) ?_ ?_ ?_ ?_]
  · rfl
  · simp only [netif_set_default, if_true, Function.update_self, hdkif_init, netif.has]
    decide
  · simp [netif_set_default, hdkif_init, lwIPCoreInit, reset, bootNetif, upFlags]
  · simp only [netif.has, bootNetif]
    decide
  · simp only [netif.has, bootNetif]
    decide

theorem boot_truthful (c : Boot) : (boot c).net.arp.Truthful (Hosts (boot c).net) := by
  have hnet := boot_net c
  obtain ⟨l, hl⟩ := (boot_inv c).net
  have hown : Hosts (boot c).net (bootNetif c).ip_addr (bootNetif c).hwaddr :=
    ⟨.phys, hl.phys_listed, by rw [hnet.phys], by rw [hnet.phys]⟩
  refine ⟨fun n dest src h hx => ?_, fun i hi => ?_⟩
  · rw [boot_arp] at hx
    exact (Arp.Names.request hown Arp.init .phys (bootNetif c).ip_addr c.alloc n dest src h hx).resolve_left
      List.not_mem_nil
  · rw [hnet.arp] at hi
    cases hi

/-- What an interface is at the end of the run, it is at a time of the run. -/
theorem hosts_had (cs : ι → Boot) (as : List (NetworkAction ι))
    (hl : (faithfulNetwork ι).Legal (fun i => boot (cs i)) as) (i : ι) {ip : ip_addr_t} {mac : eth_addr}
    (h : Hosts ((faithfulNetwork ι).run (fun i => boot (cs i)) as i).net ip mac) : Had cs as ip mac := by
  obtain ⟨n, hn, hip, hmac⟩ := h
  exact ⟨as, List.prefix_rfl, i, (network_hwaddr cs (faithful_legal hl) i hn).symm.trans hmac, n, hn, hip⟩

/-- In every run of any number of boards whose ARP frames are delayed, reordered, duplicated and lost, but not changed:
what a board finds in its ARP table is the hardware of a board that has the address or had it before. -/
theorem arp_found_is_true (cs : ι → Boot) (as : List (NetworkAction ι))
    (hl : (faithfulNetwork ι).Legal (fun i => boot (cs i)) as) (i : ι) (ip : ip_addr_t) (mac : eth_addr)
    (hfind : (etharp_find_addr ((faithfulNetwork ι).run (fun i => boot (cs i)) as i).net.arp ip).2 = some mac) :
    Had cs as ip mac := by
  have htrue : ∀ i, ((faithfulNetwork ι).run (fun i => boot (cs i)) as i).net.arp.Truthful (Had cs as) := by
    refine Machine.past_invariant (M := faithfulNetwork ι)
      (P := fun as s => ∀ i, (s i).net.arp.Truthful (Had cs as)) ?_ ?_ hl
    · exact fun i => (boot_truthful (cs i)).mono (fun _ _ h => hosts_had cs [] trivial i h)
    · rintro as a has htrue ⟨ha, hf⟩ i
      refine networkStep_truthful (fun i => (network_sound cs (faithful_legal has) i).inv)
        (fun i => (htrue i).mono (fun _ _ h => h.mono a)) ?_ ha hf i
      exact fun i ip mac h => (hosts_had cs as has i h).mono a
  exact (htrue i).find_addr hfind

end Network

theorem greetRun_faithful : (faithfulNetwork (Fin 2)).Legal (fun i => boot (twoBoots i)) greetRun :=
  ⟨⟨⟨rfl, by decide +kernel⟩, fun _ hn => by cases hn⟩, ⟨⟨rfl, by decide +kernel⟩, fun _ hn => by cases hn⟩,
    ⟨⟨rfl, by decide +kernel⟩, fun _ hn => by cases hn; decide +kernel⟩,
    ⟨⟨⟨.phys, by decide +kernel⟩, askFrame_arrives.damaged⟩, fun _ _ _ _ => askFrame_arrives⟩,
    ⟨⟨⟨.phys, by decide +kernel⟩, toldFrame_arrives.damaged⟩, fun _ _ _ _ => toldFrame_arrives⟩, trivial⟩

theorem arp_found_is_true_greet :
    (etharp_find_addr ((faithfulNetwork (Fin 2)).run (fun i => boot (twoBoots i)) greetRun here).net.arp 0x0a00000b).2 =
        some (twoMacs there) ∧
      Had twoBoots greetRun 0x0a00000b (twoMacs there) := by
  have hfind : (etharp_find_addr ((faithfulNetwork (Fin 2)).run (fun i => boot (twoBoots i)) greetRun here).net.arp
      0x0a00000b).2 = some (twoMacs there) := by decide +kernel
  exact ⟨hfind, arp_found_is_true twoBoots greetRun greetRun_faithful here 0x0a00000b (twoMacs there) hfind⟩

end MultiIp.Board

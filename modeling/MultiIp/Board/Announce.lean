import MultiIp.Board.Firmware

/-!
# The announcement of an alias

`lwIPAliasAdd` brings the new interface up through `netif_set_up`, which announces
an interface that was down. `hdkif_alias_init` has by then copied the flags of
the physical interface, and with them NETIF_FLAG_UP.
-/

namespace MultiIp.Board

open Lwip Lib

/-- A gratuitous ARP request for the address. -/
def announcement (n : NetifPtr) (hwaddr : eth_addr) (ip : ip_addr_t) : NetifPtr × Frame :=
  (n, .arp ethbroadcast hwaddr
    { hwtype := HWTYPE_ETHERNET, proto := ETHTYPE_IP, hwlen := 6, protolen := 4, opcode := ARP_REQUEST,
      shwaddr := hwaddr, sipaddr := ip, dhwaddr := ethzero, dipaddr := ip })

/-- From `b` to `b'` one entry of the pool was taken into use, and its announcement is all that was sent. -/
def Announced (b b' : Board) (ip : ip_addr_t) : Prop :=
  ∃ i, b.used i = false ∧ b'.used i = true ∧
    b'.net.arp.tx = b.net.arp.tx ++ [announcement (.alias_list i) (b.net.netifs .phys).hwaddr ip]

/-- The new interface is the head of the list and has the addresses and the hardware of the physical one. The others
are as they were. -/
structure AliasAdded (b b' : Board) (i : Fin maxAliasNetif) (ip mask gw : ip_addr_t) : Prop where
  was_free : b.used i = false
  used : b'.used = Function.update b.used i true
  netif : b'.net.netifs (.alias_list i) = { b.net.netifs .phys with ip_addr := ip, netmask := mask, gw := gw }
  others : ∀ n, n ≠ .alias_list i → b'.net.netifs n = b.net.netifs n
  list : b'.net.list = .alias_list i :: b.net.list

theorem gratuitous_tx (a : Arp) (n : NetifPtr) (nif : netif) :
    (etharp_gratuitous a n nif true).1.tx = a.tx ++ [announcement n nif.hwaddr nif.ip_addr] := rfl

theorem and_or_up (flags : UInt8) {flag : UInt8} (h : NETIF_FLAG_UP &&& flag = 0) :
    (flags ||| NETIF_FLAG_UP) &&& flag = flags &&& flag := by
  have hbits : NETIF_FLAG_UP.toBitVec &&& flag.toBitVec = 0 := congrArg UInt8.toBitVec h
  apply UInt8.toBitVec_inj.mp
  rw [UInt8.toBitVec_and, UInt8.toBitVec_or, BitVec.and_or_distrib_right, hbits, UInt8.toBitVec_and]
  exact BitVec.or_zero

/-- With room in the pool, whatever the physical interface is: its copy with the new addresses is brought up. -/
theorem lwIPAliasAdd_room {b : Board} (hready : b.lwIPCoreReady = true) (hroom : ∃ i, b.used i = false)
    (ip mask gw : ip_addr_t) (alloc : Bool) :
    ∃ i, ∃ net : Net, b.used i = false ∧ net.arp = b.net.arp ∧
      net.netifs (.alias_list i) = { b.net.netifs .phys with ip_addr := ip, netmask := mask, gw := gw } ∧
      (lwIPAliasAdd b ip mask gw alloc).1 =
        { b with net := netif_set_up net (.alias_list i) alloc, used := Function.update b.used i true } := by
  unfold lwIPAliasAdd
  simp only [hready, Bool.not_true, Bool.false_eq_true, if_false]
  split
  · rename_i hfull
    obtain ⟨i, hi⟩ := hroom
    have huse := List.find?_eq_none.mp hfull i (List.mem_finRange i)
    simp [hi] at huse
  · rename_i i hfind
    rw [netif_add_ok _ _ _ _ _ _ _ (fun _ => Or.inl rfl)]
    refine ⟨i, _, by simpa using List.find?_some hfind, ?_, ?_, rfl⟩
    · rfl
    · simp [hdkif_alias_init]

/-- An alias is announced if the physical interface is not up, and there is memory for the request. -/
theorem alias_announced_iff {b : Board} (hready : b.lwIPCoreReady = true) (hroom : ∃ i, b.used i = false)
    (hlink : (b.net.netifs .phys).has NETIF_FLAG_LINK_UP = true)
    (harp : (b.net.netifs .phys).has NETIF_FLAG_ETHARP = true) (ip mask gw : ip_addr_t) (alloc : Bool) :
    Announced b (lwIPAliasAdd b ip mask gw alloc).1 ip ↔ netif_is_up (b.net.netifs .phys) = false ∧ alloc = true := by
  obtain ⟨i, net, hi, htable, hnif, hadd⟩ := lwIPAliasAdd_room hready hroom ip mask gw alloc
  have hcopy : (net.netifs (.alias_list i)).has NETIF_FLAG_UP = netif_is_up (b.net.netifs .phys) := by
    rw [hnif]
    rfl
  have hsilent : (netif_set_up net (.alias_list i) alloc).arp.tx = b.net.arp.tx →
      ¬ Announced b (lwIPAliasAdd b ip mask gw alloc).1 ip := by
    rintro hsame ⟨j, -, -, htx⟩
    rw [hadd, hsame] at htx
    exact absurd (congrArg List.length htx) (by simp)
  cases hup : netif_is_up (b.net.netifs .phys) with
  | true =>
    have hset : netif_set_up net (.alias_list i) alloc = net := if_pos (hcopy.trans hup)
    exact iff_of_false (hsilent (by rw [hset, htable])) (by simp)
  | false =>
    have hflags : ∀ flag, NETIF_FLAG_UP &&& flag = 0 → (b.net.netifs .phys).has flag = true →
        ({ net.netifs (.alias_list i) with
            flags := (net.netifs (.alias_list i)).flags ||| NETIF_FLAG_UP } : netif).has flag = true := by
      intro flag hother hflag
      rw [hnif]
      simp only [netif.has, and_or_up _ hother] at hflag ⊢
      exact hflag
    have hset := netif_set_up_down (hcopy.trans hup) rfl (hflags _ (by decide) hlink) (hflags _ (by decide) harp) alloc
    cases alloc with
    | false => exact iff_of_false (hsilent (by rw [hset, ← htable]; rfl)) (by simp)
    | true =>
      refine iff_of_true ⟨i, hi, ?_⟩ ⟨rfl, rfl⟩
      rw [hadd, hset]
      dsimp only
      rw [gratuitous_tx, htable, hnif]
      exact ⟨Function.update_self .., rfl⟩

end MultiIp.Board

namespace MultiIp.Firmware

open Board Lwip

/-- In every reachable state the physical interface is up, so an alias is added without an announcement. -/
theorem alias_unannounced (c : Boot) (es : List Event) (h : machine.Legal (boot c) es)
    (hroom : ∃ i, (machine.run (boot c) es).board.used i = false) (ip mask gw : ip_addr_t) (alloc : Bool) :
    let b := (machine.run (boot c) es).board
    let r := lwIPAliasAdd b ip mask gw alloc
    netif_is_up (b.net.netifs .phys) = true ∧ (b.net.netifs .phys).has NETIF_FLAG_LINK_UP = true ∧
      r.2 = ip ∧ (∃ i, AliasAdded b r.1 i ip mask gw) ∧ r.1.net.arp = b.net.arp ∧ ¬ Announced b r.1 ip := by
  obtain ⟨l, hl⟩ := (inv_reachable c h).board.net
  dsimp only
  generalize (machine.run (boot c) es).board = b at hroom hl
  have hflag : ∀ flag, upFlags &&& flag ≠ 0 → (b.net.netifs .phys).has flag = true := by
    intro flag hne
    simpa [netif.has, hl.flags] using hne
  have hup : netif_is_up (b.net.netifs .phys) = true := hflag _ (by decide)
  have hlink : (b.net.netifs .phys).has NETIF_FLAG_LINK_UP = true := hflag _ (by decide)
  have hsilent : ¬ Announced b (lwIPAliasAdd b ip mask gw alloc).1 ip := by
    rw [alias_announced_iff hl.ready hroom hlink (hflag _ (by decide)), hup]
    simp
  refine ⟨hup, hlink, ?_⟩
  rcases lwIPAliasAdd_spec hl ip mask gw alloc with ⟨hfull, -⟩ | ⟨i, hi, hadd⟩
  · obtain ⟨i, hi⟩ := hroom
    rw [hfull i] at hi
    cases hi
  · rw [hadd] at hsilent ⊢
    have hlist := (hl.aliasAdd hi ip mask gw).list_eq
    refine ⟨rfl, ⟨i, hi, rfl, Function.update_self .., fun n hn => Function.update_of_ne hn _ _, ?_⟩, rfl, hsilent⟩
    rw [hlist, hl.list_eq]

theorem alias_unannounced_sample :
    let b := (machine.run (boot (.main ethzero true)) [.call (.net_if_add 0x0a000014 0xffffff00 0x0a000001 true)]).board
    (lwIPAliasAdd b 0x0a00001e 0xffffff00 0x0a000001 true).2 = 0x0a00001e ∧
      ¬ Announced b (lwIPAliasAdd b 0x0a00001e 0xffffff00 0x0a000001 true).1 0x0a00001e := by
  obtain ⟨-, -, hok, -, -, hnot⟩ :=
    alias_unannounced (.main ethzero true) [.call (.net_if_add 0x0a000014 0xffffff00 0x0a000001 true)] (by decide)
      ⟨1, by decide⟩ 0x0a00001e 0xffffff00 0x0a000001 true
  exact ⟨hok, hnot⟩

/-- The first alias after start-up: nothing is sent after the announcement of the physical interface. -/
theorem first_alias_silent :
    let b := (boot (.main ethzero true)).board
    let r := lwIPAliasAdd b 0x0a000014 0xffffff00 0x0a000001 true
    r.2 = 0x0a000014 ∧ r.1.net.arp.tx = [announcement .phys ethzero 0x0a00000a] ∧ ¬ Announced b r.1 0x0a000014 := by
  refine ⟨by decide, by decide, ?_⟩
  rw [alias_announced_iff (by decide) ⟨0, by decide⟩ (by decide) (by decide)]
  decide

end MultiIp.Firmware

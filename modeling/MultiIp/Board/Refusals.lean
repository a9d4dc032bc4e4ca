import MultiIp.Board.Firmware

/-!
# Commands that answer with an error

They leave the interfaces and the sockets as they were, with one exception:
`lwIPAliasAdd` returns the address as its sign of success, so adding the
address 0.0.0.0 succeeds and is reported as a failure.
-/

namespace MultiIp.Firmware

open Board Lwip Lib

/-- The configuration of `b'` is that of `b`. -/
structure Unchanged (b b' : Board) : Prop where
  netif_list : b'.net.list = b.net.list
  netif_default : b'.net.netif_default = b.net.netif_default
  used : b'.used = b.used
  addresses : ∀ n, (b'.net.netifs n).ip_addr = (b.net.netifs n).ip_addr ∧
    (b'.net.netifs n).netmask = (b.net.netifs n).netmask ∧ (b'.net.netifs n).gw = (b.net.netifs n).gw
  udp_pcbs : b'.udp.list = b.udp.list
  bindings : ∀ p ∈ b.udp.list, b'.udp.pcbs p = b.udp.pcbs p
  /-- Slots with their generations and mailboxes. -/
  slots : b'.s_listeners = b.s_listeners

/-- The answer ends in `#END <NAME> ERR:<reason>` or is `#ERR unknown_command`. -/
def endsInError (out : Text) : Prop :=
  out = "#ERR unknown_command\r\n".toList ∨
  ∃ front name reason, out = front ++ "#END ".toList ++ name ++ " ERR:".toList ++ reason ++ "\r\n".toList ∧
    ' ' ∉ name ∧ ' ' ∉ reason

/-- The line adds an interface with the address 0.0.0.0 while the pool of aliases is not full. -/
def addsZeroAddress (b : Board) (line : Text) : Prop :=
  (∃ args mask gw, argsOf "NETIF ADD " line = some args ∧ netif_add_args args = some (0, mask, gw)) ∧
    ∃ i, b.used i = false

theorem Unchanged.refl (b : Board) : Unchanged b b :=
  ⟨rfl, rfl, rfl, fun _ => ⟨rfl, rfl, rfl⟩, rfl, fun _ _ => rfl, rfl⟩

theorem Unchanged.of_arpOnly (b : Board) {net : Net} (h : ArpOnly b.net net) : Unchanged b { b with net := net } := by
  obtain ⟨a, rfl, -⟩ := h
  exact ⟨rfl, rfl, rfl, fun _ => ⟨rfl, rfl, rfl⟩, rfl, fun _ _ => rfl, rfl⟩

/-! ## The last word of an answer -/

theorem last_word {s w : Text} (hne : w ≠ []) (h : ' ' ∉ w) : (words (s ++ ' ' :: w)).getLast? = some w := by
  rw [words_blank, words_word hne h]
  simp

theorem not_endsInError_ok (front : Text) : ¬ endsInError (front ++ " OK\r\n".toList) := by
  have hok : (words (front ++ ' ' :: "OK".toList)).getLast? = some "OK".toList :=
    last_word (by decide) (by decide)
  rintro (h | ⟨front', name, reason, h, -, hr⟩)
  · have hcut : front ++ ' ' :: "OK".toList = "#ERR unknown_command".toList := by
      apply (List.append_left_inj "\r\n".toList).mp
      simpa using h
    rw [hcut] at hok
    exact absurd hok (by decide)
  · have hcut : front ++ ' ' :: "OK".toList = (front' ++ "#END ".toList ++ name) ++ ' ' :: ("ERR:".toList ++ reason) := by
      apply (List.append_left_inj "\r\n".toList).mp
      simpa using h
    rw [hcut, last_word (by simp) (by simpa using hr)] at hok
    simp at hok

theorem ok_of_endsInError {out : Text} {last : String} (he : endsInError (out ++ cmd_out last))
    (h : " OK\r\n".toList <:+ last.toList) : False := by
  obtain ⟨front, hf⟩ := h
  rw [cmd_out, ← hf, ← List.append_assoc] at he
  exact not_endsInError_ok _ he

/-! ## The operations that can fail -/

theorem add_listener_failed {b : Board} {l : List PcbPtr} (h : b.Registry l) (n : NetifPtr) (port : UInt16)
    (cell : udp_sock_id_t) (hne : (udp_source_add_listener b (some n) port (some cell)).2.1 ≠ .ERR_OK) :
    Unchanged b (udp_source_add_listener b (some n) port (some cell)).1 := by
  unfold udp_source_add_listener at hne ⊢
  dsimp only at hne ⊢
  split at hne
  · rename_i idx hfind
    have hfree : (b.s_listeners idx).in_use = false := by simpa using List.find?_some hfind
    rcases open_slot_spec h hfree n port cell with ⟨u, p, port', heq, -⟩ | ⟨u, heq, hreg, hpcbs, -⟩
    · rw [heq] at hne
      exact absurd rfl hne
    · rw [heq]
      have hlist : b.udp.list = l := h.wf.list_eq
      refine ⟨rfl, rfl, rfl, fun _ => ⟨rfl, rfl, rfl⟩, ?_, fun p hp => ?_, rfl⟩
      · rw [hlist]
        exact hreg.wf.list_eq
      · rw [hlist] at hp
        exact hpcbs p hp
  · exact .refl b

theorem net_if_add_failed {b : Board} {l : List NetifPtr} (h : NetInv b l) (ip mask gw : ip_addr_t) (alloc : Bool)
    (hne : (net_if_add b ip mask gw alloc).2 ≠ .ERR_OK) (hz : ¬ (ip = 0 ∧ ∃ i, b.used i = false)) :
    Unchanged b (net_if_add b ip mask gw alloc).1 := by
  rw [net_if_add_fst]
  rcases lwIPAliasAdd_spec h ip mask gw alloc with ⟨-, hr⟩ | ⟨i, hi, hr⟩
  · rw [hr]
    exact .refl b
  · unfold net_if_add at hne
    rw [hr] at hne
    dsimp only at hne
    split at hne
    · rename_i h0
      exact absurd ⟨h0, i, hi⟩ hz
    · exact absurd rfl hne

theorem net_if_remove_failed (b : Board) (n : NetifPtr) (hne : (net_if_remove b (some n)).2 ≠ .ERR_OK) :
    Unchanged b (net_if_remove b (some n)).1 := by
  unfold net_if_remove at hne ⊢
  dsimp only at hne ⊢
  split at hne
  · rename_i hn
    rw [if_pos hn]
    exact .refl b
  · exact absurd rfl hne

theorem data_send_unchanged {b : Board} {l : List PcbPtr} (h : b.Registry l) (id : udp_sock_id_t)
    (n : Option NetifPtr) (ip : ip_addr_t) (port : UInt16) (data : Option (List UInt8)) (len : UInt16)
    (alloc : Bool) (out : Alloc) : Unchanged b (udp_source_data_send b id n ip port data len alloc out).1 := by
  unfold udp_source_data_send
  split
  · split
    · exact .refl b
    · split
      · exact .refl b
      · split
        · rename_i p hp
          have hport := h.port p (h.owned _ p hp).1
          dsimp only
          rw [udp_sendto_if_udp hport]
          exact .of_arpOnly b (udp_sendto_if_arpOnly _ _ _ _ _ _ _ _)
        · exact .refl b
  · exact .refl b

theorem ping_send_unchanged (f : Firmware) (n : NetifPtr) (target : ip_addr_t) (env : PingEnv) :
    Unchanged f.board (f.ping_send (some n) target env).1.board := by
  unfold Firmware.ping_send
  dsimp only
  split
  · exact .refl _
  · split
    · exact .refl _
    · exact .of_arpOnly _ (ip_output_if_arpOnly _ _ _ _ _ _ _ _)

/-! ## Commands -/

section Commands

variable {f : Firmware} {out : Text}

theorem netifAdd_unchanged (h : Inv f) (env : Env) (ip mask gw : ip_addr_t)
    (hz : ¬ (ip = 0 ∧ ∃ i, f.board.used i = false)) (he : endsInError (out ++ (netifAdd f env ip mask gw).2)) :
    Unchanged f.board (netifAdd f env ip mask gw).1.board := by
  obtain ⟨l, hl⟩ := h.board.net
  unfold netifAdd at he ⊢
  dsimp only at he ⊢
  split
  · rename_i hne
    exact net_if_add_failed hl ip mask gw env.alloc hne hz
  · rename_i hok
    rw [if_neg hok] at he
    exact (ok_of_endsInError he (by decide)).elim

theorem netifDel_unchanged (idx : Int) (he : endsInError (out ++ (netifDel f idx).2)) :
    Unchanged f.board (netifDel f idx).1.board := by
  unfold netifDel at he ⊢
  split
  · exact .refl _
  · rename_i n hn
    rw [hn] at he
    dsimp only at he ⊢
    split
    · rename_i hne
      exact net_if_remove_failed f.board n hne
    · rename_i hok
      rw [if_neg hok] at he
      exact (ok_of_endsInError he (by decide)).elim

/-- After its checks NETIF SET always answers OK. -/
theorem netifSet_unchanged (idx : Int) (field : Text) (val : ip_addr_t)
    (he : endsInError (out ++ (netifSet f idx field val).2)) :
    Unchanged f.board (netifSet f idx field val).1.board := by
  unfold netifSet at he ⊢
  split
  · exact .refl _
  · rename_i n hn
    rw [hn] at he
    dsimp only at he
    split
    · rename_i h1
      rw [if_pos h1] at he
      exact (ok_of_endsInError he (by decide)).elim
    · rename_i h1
      rw [if_neg h1] at he
      split
      · rename_i h2
        rw [if_pos h2] at he
        exact (ok_of_endsInError he (by decide)).elim
      · rename_i h2
        rw [if_neg h2] at he
        split
        · rename_i h3
          rw [if_pos h3] at he
          exact (ok_of_endsInError he (by decide)).elim
        · exact .refl _

theorem sockOpen_unchanged (h : Inv f) (idx port : Int) (he : endsInError (out ++ (sockOpen f idx port).2)) :
    Unchanged f.board (sockOpen f idx port).1.board := by
  obtain ⟨l, hl⟩ := h.board.registry
  unfold sockOpen at he ⊢
  split
  · exact .refl _
  · rename_i hp
    rw [if_neg hp] at he
    split
    · exact .refl _
    · rename_i n hn
      rw [hn] at he
      dsimp only at he ⊢
      split
      · rename_i hne
        exact add_listener_failed hl n _ _ hne
      · rename_i hok
        rw [if_neg hok] at he
        exact (ok_of_endsInError he (by decide)).elim

theorem sockClose_unchanged (idx nth : Int) (he : endsInError (out ++ (sockClose f idx nth).2)) :
    Unchanged f.board (sockClose f idx nth).1.board := by
  unfold sockClose at he ⊢
  split
  · exact .refl _
  · rename_i n hn
    rw [hn] at he
    dsimp only at he
    split
    · exact .refl _
    · rename_i sock hs
      rw [hs] at he
      exact (ok_of_endsInError he (by decide)).elim

theorem pingOnce_unchanged (env : Env) (idx : Int) (target : ip_addr_t)
    (he : endsInError (out ++ (pingOnce f env idx target).2)) :
    Unchanged f.board (pingOnce f env idx target).1.board := by
  unfold pingOnce at he ⊢
  split
  · exact .refl _
  · rename_i n hn
    rw [hn] at he
    dsimp only at he ⊢
    split
    · exact ping_send_unchanged f n target env.ping
    · rename_i hok
      rw [if_neg hok] at he
      -- Both answers of a ping that was sent end in OK.
      split at he
      · rw [← List.append_assoc] at he
        exact (ok_of_endsInError he (by decide)).elim
      · rw [← List.append_assoc] at he
        exact (ok_of_endsInError he (by decide)).elim

theorem scanOn_unchanged (env : Env) (idx : Int) (he : endsInError (out ++ (scanOn f env idx).2)) :
    Unchanged f.board (scanOn f env idx).1.board := by
  unfold scanOn at he ⊢
  split
  · exact .refl _
  · rename_i n hn
    rw [hn] at he
    dsimp only at he
    rw [← List.append_assoc] at he
    exact (ok_of_endsInError he (by decide)).elim

/-- Sending changes nothing of the configuration, whether it succeeds or not. -/
theorem udpSend_unchanged (h : Inv f) (env : Env) (idx nth : Int) (dst : ip_addr_t) (port : Int) (data : Text) :
    Unchanged f.board (udpSend f env idx nth dst port data).1.board := by
  obtain ⟨l, hl⟩ := h.board.registry
  unfold udpSend
  split
  · exact .refl _
  · split
    · exact .refl _
    · split
      · exact .refl _
      · split
        · exact .refl _
        · dsimp only
          split <;> exact data_send_unchanged hl _ _ _ _ _ _ _ _

/-- A command that ends in an error changes nothing, unless it adds the address 0.0.0.0. -/
theorem exec_unchanged (h : Inv f) (env : Env) (c : Command)
    (hz : ∀ mask gw, c = .netif_add 0 mask gw → ¬ ∃ i, f.board.used i = false)
    (he : endsInError (c.exec f env).2) : Unchanged f.board (c.exec f env).1.board := by
  cases c with
  | netif_list => exact .refl _
  | netif_add ip mask gw =>
    refine netifAdd_unchanged h env ip mask gw ?_ he
    rintro ⟨rfl, hfree⟩
    exact hz mask gw rfl hfree
  | netif_del idx => exact netifDel_unchanged idx he
  | netif_set idx field val => exact netifSet_unchanged idx field val he
  | sock_open idx port => exact sockOpen_unchanged h idx port he
  | sock_close idx nth => exact sockClose_unchanged idx nth he
  | ping idx target => exact pingOnce_unchanged env idx target he
  | scan idx => exact scanOn_unchanged env idx he
  | arp_reset =>
    have hlast : endsInError (beginLine "ARPRESET" ++ cmd_out "#END ARPRESET OK\r\n") := he
    exact (ok_of_endsInError hlast (by decide)).elim
  | udp_send idx nth dst port data => exact udpSend_unchanged h env idx nth dst port data
  | bad_args name => exact .refl _
  | unknown => exact .refl _

end Commands

/-! ## Lines -/

theorem argsOf_ne {word : String} {line args : Text} (h : argsOf word line = some args) {other : String}
    (hne : ¬ word.toList <+: other.toList) : line ≠ other.toList := by
  rintro rfl
  unfold argsOf at h
  split at h
  · rename_i hp
    exact hne (List.isPrefixOf_iff_prefix.mp hp)
  · cases h

theorem elim_ne {α : Type} {x : Option α} {name : String} {g : α → Command} {ip mask gw : ip_addr_t}
    (hg : ∀ a, g a ≠ .netif_add ip mask gw) : x.elim (.bad_args name) g ≠ .netif_add ip mask gw := by
  cases x with
  | none => exact fun h => by cases h
  | some a => exact hg a

/-- Only a NETIF ADD line with three addresses adds an interface. -/
theorem parse_netif_add_iff (env : Env) (line : Text) (ip mask gw : ip_addr_t) :
    parse env line = .netif_add ip mask gw ↔
      ∃ args, argsOf "NETIF ADD " line = some args ∧ netif_add_args args = some (ip, mask, gw) := by
  constructor
  · intro h
    unfold parse parseWith at h
    split at h
    · cases h
    cases hargs : argsOf "NETIF ADD " line with
    | some args =>
      refine ⟨args, rfl, ?_⟩
      rw [hargs] at h
      dsimp only at h
      rcases hadd : netif_add_args args with _ | ⟨ip', mask', gw'⟩
      · rw [hadd] at h
        cases h
      · rw [hadd] at h
        cases h
        rfl
    | none =>
      -- The other words give other commands.
      rw [hargs] at h
      dsimp only at h
      repeat' split at h
      all_goals first
        | cases h
        | exact absurd h (elim_ne (fun _ h => by cases h))
  · rintro ⟨args, hargs, hadd⟩
    unfold parse parseWith
    rw [if_neg (argsOf_ne hargs (by decide)), hargs]
    dsimp only
    rw [hadd]
    rfl

/-- Adding 0.0.0.0 takes an entry of the pool and is answered with an error. -/
theorem netifAdd_zero {f : Firmware} (h : Inv f) (env : Env) (mask gw : ip_addr_t) (hfree : ∃ i, f.board.used i = false) :
    (netifAdd f env 0 mask gw).2 = cmd_out "#END NETIFADD ERR:add_failed\r\n" ∧
      (netifAdd f env 0 mask gw).1.board.used ≠ f.board.used := by
  obtain ⟨l, hl⟩ := h.board.net
  obtain ⟨j, hj⟩ := hfree
  rcases lwIPAliasAdd_spec hl 0 mask gw env.alloc with ⟨hfull, -⟩ | ⟨i, hi, hr⟩
  · rw [hfull j] at hj
    cases hj
  · have hnet : (net_if_add f.board 0 mask gw env.alloc).2 ≠ .ERR_OK := by
      simp [net_if_add, hr]
    unfold netifAdd
    dsimp only
    rw [if_pos hnet]
    refine ⟨rfl, fun heq => ?_⟩
    have hused := congrFun heq i
    rw [hi, Firmware.setBoard, net_if_add_fst, hr] at hused
    simp at hused

/-- An error answer means that nothing was changed, except when 0.0.0.0 is added. -/
theorem error_unchanged_iff (c : Boot) (es : List Event) (h : machine.Legal (boot c) es) (env : Env) (line : Text) :
    (endsInError (cmd_dispatch (machine.run (boot c) es) env line).2 →
      Unchanged (machine.run (boot c) es).board (cmd_dispatch (machine.run (boot c) es) env line).1.board) ↔
      ¬ addsZeroAddress (machine.run (boot c) es).board line := by
  have hinv := inv_reachable c h
  generalize machine.run (boot c) es = f at hinv
  rw [dispatch_eq]
  constructor
  · rintro hun ⟨⟨args, mask, gw, hargs, hadd⟩, hfree⟩
    have hparse := (parse_netif_add_iff env line 0 mask gw).mpr ⟨args, hargs, hadd⟩
    rw [hparse] at hun
    obtain ⟨hout, hused⟩ := netifAdd_zero hinv env mask gw hfree
    refine hused (hun ?_).used
    show endsInError (beginLine "NETIFADD" ++ (netifAdd f env 0 mask gw).2)
    rw [hout]
    exact Or.inr ⟨beginLine "NETIFADD", "NETIFADD".toList, "add_failed".toList, rfl, by decide, by decide⟩
  · intro hz he
    refine exec_unchanged hinv env _ (fun mask gw hparse hfree => ?_) he
    obtain ⟨args, hargs, hadd⟩ := (parse_netif_add_iff env line 0 mask gw).mp hparse
    exact hz ⟨⟨args, mask, gw, hargs, hadd⟩, hfree⟩

theorem error_unchanged_sample :
    machine.Legal (boot (.main ethzero true)) [.line sampleEnv "SOCK OPEN 1 5000".toList] ∧
    ((endsInError (cmd_dispatch (machine.run (boot (.main ethzero true)) [.line sampleEnv "SOCK OPEN 1 5000".toList])
        sampleEnv "SOCK OPEN 1 5000".toList).2 →
      Unchanged (machine.run (boot (.main ethzero true)) [.line sampleEnv "SOCK OPEN 1 5000".toList]).board
        (cmd_dispatch (machine.run (boot (.main ethzero true)) [.line sampleEnv "SOCK OPEN 1 5000".toList])
          sampleEnv "SOCK OPEN 1 5000".toList).1.board) ↔
      ¬ addsZeroAddress (machine.run (boot (.main ethzero true)) [.line sampleEnv "SOCK OPEN 1 5000".toList]).board
        "SOCK OPEN 1 5000".toList) :=
  ⟨by decide, error_unchanged_iff _ _ (by decide) _ _⟩

/-- Right after start-up the address 0.0.0.0 is refused and added. -/
theorem zero_address_added :
    ¬ (endsInError (cmd_dispatch (boot (.main ethzero true)) sampleEnv
        "NETIF ADD 0.0.0.0 255.255.255.0 10.0.0.1".toList).2 →
      Unchanged (boot (.main ethzero true)).board
        (cmd_dispatch (boot (.main ethzero true)) sampleEnv
          "NETIF ADD 0.0.0.0 255.255.255.0 10.0.0.1".toList).1.board) := by
  intro h
  have hout : (cmd_dispatch (boot (.main ethzero true)) sampleEnv
      "NETIF ADD 0.0.0.0 255.255.255.0 10.0.0.1".toList).2 =
      "#BEGIN NETIFADD\r\n".toList ++ "#END ".toList ++ "NETIFADD".toList ++ " ERR:".toList ++
        "add_failed".toList ++ "\r\n".toList := by decide
  have hlist := (h (Or.inr ⟨_, _, _, hout, by decide, by decide⟩)).netif_list
  exact absurd hlist (by decide)

end MultiIp.Firmware

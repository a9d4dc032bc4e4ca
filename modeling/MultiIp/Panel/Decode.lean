import MultiIp.Board.Answers
import MultiIp.Panel.Protocol
import MultiIp.Panel.Stream

/-!
# The panel reads what the board prints

For each command with data lines, the panel's parser is the inverse of the
board's printer.
-/

namespace MultiIp.Panel

open Board Lwip Lib Wire Firmware

/-! ## Numbers and words -/

theorem dropWhile_eq_self {p : Char → Bool} {s : Text} (h : ∀ c ∈ s, p c = false) : s.dropWhile p = s := by
  cases s with
  | nil => rfl
  | cons c s => rw [List.dropWhile_cons_of_neg (by simp [h c List.mem_cons_self])]

theorem tryParseInt_decimal {n : Nat} (h : n < 2 ^ 31) : tryParseInt (decimal n) = some (n : Int) := by
  have hskip : skipSpace (decimal n) = decimal n := by simpa using skipSpace_decimal n []
  have hsign : scanSign (decimal n) = (false, decimal n) := by simpa using scanSign_decimal n []
  have hnul : (decimal n).reverse.dropWhile (· == '\x00') = (decimal n).reverse := by
    refine dropWhile_eq_self fun c hc => ?_
    have := isDigit_range (isDigit_of_mem_decimal (List.mem_reverse.mp hc))
    refine beq_eq_false_iff_ne.mpr ?_
    rintro rfl
    simp at this
  have hspace : (decimal n).reverse.dropWhile isSpace = (decimal n).reverse :=
    dropWhile_eq_self fun c hc => isSpace_of_isDigit (isDigit_of_mem_decimal (List.mem_reverse.mp hc))
  have hall : (decimal n).all Char.isDigit = true :=
    List.all_eq_true.mpr fun c hc => isDigit_of_mem_decimal hc
  unfold tryParseInt
  simp only [hskip, hnul, hspace, List.reverse_reverse, hsign, ofDigitChars_decimal, Bool.false_eq_true, if_false]
  rw [if_pos ⟨decimal_ne_nil n, hall⟩, if_pos (by omega)]

theorem parseIntOut_decimal {n : Nat} (h : n < 2 ^ 31) : parseIntOut (decimal n) = n := by
  rw [parseIntOut, tryParseInt_decimal h]
  rfl

/-! ## NETIF LIST -/

/-- The local port of the socket in the slot. -/
def localPort (b : Board) (i : SlotIdx) : UInt16 :=
  match (b.s_listeners i).pcb with
  | some pcb => (b.udp.pcbs pcb).local_port
  | none => 0

/-- The sockets of the interface in slot order, numbered from 1. -/
def shownSockets (b : Board) (n : NetifPtr) : List SocketInfo :=
  (socketsOn b n).mapIdx (fun j i => ⟨((j + 1 : Nat) : Int), ((localPort b i).toNat : Int)⟩)

def shownNetif (b : Board) (n : NetifPtr) (idx : Nat) : NetifInfo where
  Index := idx
  Ip := ipaddr_ntoa (b.net.netifs n).ip_addr
  Mask := ipaddr_ntoa (b.net.netifs n).netmask
  Gw := ipaddr_ntoa (b.net.netifs n).gw
  Sockets := shownSockets b n

/-- What the panel should show: the interfaces in the order of the list, numbered from 1. -/
def shownNetifs (b : Board) : List NetifInfo := b.net.list.mapIdx (fun k n => shownNetif b n (k + 1))

def printedSocket (b : Board) (n : NetifPtr) (j : Nat) : SocketInfo :=
  ⟨((j + 1 : Nat) : Int), ((udp_source_get_socket b n (UInt8.ofNat j)).local_port.toNat : Int)⟩

theorem parse_netifText (b : Board) (n : NetifPtr) {idx : Nat} (h : idx < 1000) (acc : List NetifInfo) :
    parseNetifLine acc (netifText b n idx) = acc ++ [{ shownNetif b n idx with Sockets := [] }] := by
  have hof : netifOf (words (netifText b n idx)) = some { shownNetif b n idx with Sockets := [] } := by
    rw [words_netifText]
    unfold netifOf
    dsimp only
    rw [if_pos rfl, tryParseInt_decimal (by omega)]
    rfl
  unfold parseNetifLine
  rw [hof]

theorem addSocket_append {acc : List NetifInfo} {owner : Int} (h : ∀ m ∈ acc, m.Index ≠ owner) (s : SocketInfo)
    {m : NetifInfo} (hm : m.Index = owner) :
    addSocket owner s (acc ++ [m]) = acc ++ [{ m with Sockets := m.Sockets ++ [s] }] := by
  induction acc with
  | nil => simp [addSocket, hm]
  | cons k acc ih =>
    rw [List.cons_append, addSocket, if_neg (h k List.mem_cons_self), ih (fun m hm => h m (List.mem_cons_of_mem _ hm))]
    rfl

theorem parse_sockText (b : Board) (n : NetifPtr) {idx j : Nat} (hidx : idx < 1000) (hj : j < 16)
    {acc : List NetifInfo} (h : ∀ m ∈ acc, m.Index ≠ idx) {m : NetifInfo} (hm : m.Index = idx) :
    parseNetifLine (acc ++ [m]) (sockText b n idx j) =
      acc ++ [{ m with Sockets := m.Sockets ++ [printedSocket b n j] }] := by
  have hport := (udp_source_get_socket b n (UInt8.ofNat j)).local_port.toNat_lt
  have hno : netifOf (words (sockText b n idx j)) = none := by
    rw [words_sockText]
    rfl
  have hof : sockOf (words (sockText b n idx j)) = some ((idx : Int), printedSocket b n j) := by
    rw [words_sockText]
    unfold sockOf
    dsimp only
    rw [if_pos rfl, tryParseInt_decimal (by omega), tryParseInt_decimal (by omega), tryParseInt_decimal (by omega)]
    rfl
  unfold parseNetifLine
  rw [hno, hof]
  exact addSocket_append h _ hm

/-- The socket lines of an interface, from the one before. -/
theorem parse_sockTexts (b : Board) (n : NetifPtr) {idx : Nat} (hidx : idx < 1000) {acc : List NetifInfo}
    (h : ∀ m ∈ acc, m.Index ≠ idx) {m : NetifInfo} (hm : m.Index = idx) {js : List Nat} (hjs : ∀ j ∈ js, j < 16) :
    (js.map (sockText b n idx)).foldl parseNetifLine (acc ++ [m]) =
      acc ++ [{ m with Sockets := m.Sockets ++ js.map (printedSocket b n) }] := by
  induction js generalizing m with
  | nil => simp
  | cons j js ih =>
    rw [List.map_cons, List.foldl_cons, parse_sockText b n hidx (hjs j List.mem_cons_self) h hm,
      ih (by exact hm) (fun k hk => hjs k (List.mem_cons_of_mem _ hk))]
    simp

theorem printedSockets_eq (b : Board) (n : NetifPtr) :
    (List.range (udp_source_count_sockets b n)).map (printedSocket b n) = shownSockets b n := by
  have hcount := count_le b n
  refine List.ext_getElem (by simp [shownSockets, udp_source_count_sockets]) fun j h1 h2 => ?_
  have hj : j < (socketsOn b n).length := by simpa [shownSockets] using h2
  have hmod : (UInt8.ofNat j).toNat = j := by
    have : j < 16 := by simpa using lt_of_lt_of_le hj hcount
    simp
    omega
  have hget : (udp_source_get_socket b n (UInt8.ofNat j)).local_port = localPort b (socketsOn b n)[j] := by
    unfold udp_source_get_socket
    rw [hmod, List.getElem?_eq_getElem hj]
    rfl
  simp [shownSockets, printedSocket, hget]

theorem parse_netifData (b : Board) (n : NetifPtr) {idx : Nat} (hidx : idx < 1000) {acc : List NetifInfo}
    (h : ∀ m ∈ acc, m.Index ≠ idx) :
    (netifData b n idx).foldl parseNetifLine acc = acc ++ [shownNetif b n idx] := by
  have hcount := count_le b n
  rw [netifData, List.foldl_cons, parse_netifText b n hidx,
    parse_sockTexts b n hidx h (by rfl) (fun j hj => by have := List.mem_range.mp hj; omega), printedSockets_eq]
  rfl

/-- Indices below `idx` are taken; the others get the lines that follow. -/
theorem parse_listData (b : Board) (l : List NetifPtr) {idx : Nat} (hidx : idx + l.length ≤ 1000)
    {acc : List NetifInfo} (h : ∀ m ∈ acc, m.Index < idx) :
    (listData b l idx).foldl parseNetifLine acc = acc ++ l.mapIdx (fun k n => shownNetif b n (idx + k)) := by
  induction l generalizing idx acc with
  | nil => simp [listData]
  | cons n l ih =>
    rw [List.length_cons] at hidx
    have hnext : ∀ m ∈ acc ++ [shownNetif b n idx], m.Index < ((idx + 1 : Nat) : Int) := by
      intro m hm
      rcases List.mem_append.mp hm with hm | hm
      · have := h m hm
        omega
      · rw [List.mem_singleton.mp hm]
        show (idx : Int) < ((idx + 1 : Nat) : Int)
        omega
    rw [listData, List.foldl_append, parse_netifData b n (by omega) (fun m hm => (h m hm).ne), ih (by omega) hnext,
      List.mapIdx_cons]
    simp only [List.append_assoc, List.singleton_append, Nat.add_zero]
    congr 3
    funext k m
    rw [Nat.add_right_comm, Nat.add_assoc]

theorem parse_list (b : Board) (h : 1 + b.net.list.length ≤ 1000) (status : Text) :
    parseNetifList ⟨"NETIFLIST".toList, status, listData b b.net.list 1⟩ = shownNetifs b := by
  have hparse : (listData b b.net.list 1).foldl parseNetifLine [] =
      [] ++ b.net.list.mapIdx (fun k n => shownNetif b n (1 + k)) :=
    parse_listData b b.net.list h (by simp)
  rw [List.nil_append] at hparse
  refine hparse.trans ?_
  simp only [shownNetifs, Nat.add_comm]

/-! ## PING -/

/-- `ping_recv` accepts a reply while `cmd_ping` waits for it, and this is the result it stores. -/
def Received (f : Firmware) (env : Env) (args : Text) (res : ping_result_t) : Prop :=
  ∃ idx target n before k now rest,
    ping_args env args = some (idx, target) ∧ cmd_netif_by_index f.board idx = some n ∧
    (f.ping_send (some n) target env.ping).2 = .ERR_OK ∧ env.during = before ++ .icmp k now :: rest ∧
    ( ping_recv ((f.ping_send (some n) target env.ping).1.interrupts before).ping k now).2 = true ∧
    ( ping_recv ((f.ping_send (some n) target env.ping).1.interrupts before).ping k now).1.s_result = res

def shownReply (res : ping_result_t) : PingReply where
  Success := true
  From := ipaddr_ntoa res.from_
  Seq := res.seqno.toNat
  Bytes := res.data_len.toNat
  RttMs := res.rtt_ms.toNat
  Ttl := res.ttl.toNat

theorem recv_valid {p : Ping} {k : IcmpPacket} {now : UInt32} (h : ( ping_recv p k now).2 = true) :
    ( ping_recv p k now).1.s_reply_valid = true := by
  unfold ping_recv at h ⊢
  split at h
  · cases h
  · rename_i h1
    rw [if_neg h1]
    split at h
    · cases h
    · rename_i h2
      rw [if_neg h2]
      split at h
      · rename_i h3
        rw [if_pos h3]
      · cases h

theorem interrupts_kept {f : Firmware} (h : f.ping.s_reply_valid = true) (is : List Interrupt) :
    (f.interrupts is).ping = f.ping := by
  induction is generalizing f with
  | nil => rfl
  | cons i is ih =>
    have hone : (f.interrupt i).ping = f.ping := by
      cases i with
      | udp inp d alloc out => rfl
      | arp fr => rfl
      | icmp k now =>
        show ( ping_recv f.ping k now).1 = f.ping
        unfold ping_recv
        rw [if_pos (by simp [h])]
    have hrest := ih (f := f.interrupt i) (by rw [hone]; exact h)
    exact hrest.trans hone

theorem wait_received {f : Firmware} {before rest : List Interrupt} {k : IcmpPacket} {now : UInt32}
    (h : ( ping_recv (f.interrupts before).ping k now).2 = true) (late : List Interrupt) :
    (f.ping_wait_reply (before ++ .icmp k now :: rest) late).2 =
      some ( ping_recv (f.interrupts before).ping k now).1.s_result := by
  have hping : (f.interrupts (before ++ .icmp k now :: rest)).ping = ( ping_recv (f.interrupts before).ping k now).1 := by
    have hcut : f.interrupts (before ++ .icmp k now :: rest) =
        ((f.interrupts before).interrupt (.icmp k now)).interrupts rest := by
      simp only [interrupts, List.foldl_append, List.foldl_cons]
    rw [hcut, interrupts_kept (recv_valid h)]
    rfl
  unfold ping_wait_reply
  dsimp only
  rw [hping, if_pos (recv_valid h)]

theorem words_pongText (res : ping_result_t) :
    words (pongText res) =
      ["#PONG".toList, ipaddr_ntoa res.from_, decimal res.seqno.toNat, decimal res.data_len.toNat,
        decimal res.rtt_ms.toNat, decimal res.ttl.toNat] := by
  refine words_of_words fun w hw => ?_
  simp only [List.mem_cons, List.not_mem_nil, or_false] at hw
  rcases hw with rfl | rfl | rfl | rfl | rfl | rfl
  · decide
  · exact isWord_ntoa _
  · exact isWord_decimal _
  · exact isWord_decimal _
  · exact isWord_decimal _
  · exact isWord_decimal _

theorem parse_pong {res : ping_result_t} (h : res.rtt_ms.toNat ≤ maxRtt) (name status : Text) :
    parsePing ⟨name, status, [pongText res]⟩ = shownReply res := by
  have hseq := res.seqno.toNat_lt
  have hlen := res.data_len.toNat_lt
  have httl := res.ttl.toNat_lt
  have hmax : maxRtt < 2 ^ 31 := by decide
  have hpong : pongReply (pongText res) = some (shownReply res) := by
    unfold pongReply
    rw [words_pongText]
    dsimp only
    rw [if_pos rfl, parseIntOut_decimal (by omega), parseIntOut_decimal (by omega), parseIntOut_decimal (by omega),
      parseIntOut_decimal (by omega)]
    rfl
  unfold parsePing
  simp only [List.findSome?_cons, hpong]
  rfl

/-! ## SCAN -/

def shownHost (h : ip_addr_t × eth_addr) : ScanHost := ⟨ipaddr_ntoa h.1, macText h.2⟩

theorem words_hostText (h : ip_addr_t × eth_addr) :
    words (hostText h) = ["Host".toList, "up:".toList, ipaddr_ntoa h.1, "MAC".toList, macText h.2] := by
  have hip := isWord_ntoa h.1
  have hmac := isWord_macText h.2
  have hblank : ∀ w ∈ ["Host".toList, "up:".toList, ipaddr_ntoa h.1, [], "MAC".toList, macText h.2], ' ' ∉ w := by
    intro w hw
    simp only [List.mem_cons, List.not_mem_nil, or_false] at hw
    rcases hw with rfl | rfl | rfl | rfl | rfl | rfl
    · decide
    · decide
    · exact blank_not_mem hip
    · simp
    · decide
    · exact blank_not_mem hmac
  unfold hostText
  rw [words_unwords hblank]
  simp [hip.1, hmac.1]

theorem parse_host (cu : Culture) (h : ip_addr_t × eth_addr) : scanHost cu (hostText h) = some (shownHost h) := by
  have hcut : ∃ s, hostText h = "Host up:".toList ++ s ∧ ∀ c ∈ s, isAscii c = true := by
    have hp := (isData_hostText h).printable
    have heq : hostText h = "Host up:".toList ++ (' ' :: unwords [ipaddr_ntoa h.1, [], "MAC".toList, macText h.2]) := by
      unfold hostText unwords
      rw [List.intercalate_cons_cons, List.intercalate_cons_cons]
      rfl
    refine ⟨_, heq, fun c hc => isAscii_of_isPrintable (hp c ?_)⟩
    rw [heq]
    exact List.mem_append_right _ hc
  have hstart : cu.startsWith (hostText h) "Host up:".toList = true := by
    obtain ⟨s, hs, hascii⟩ := hcut
    rw [hs]
    exact startsWith_append cu (p := "Host up:") (by decide) (by decide) hascii
  unfold scanHost
  rw [hstart, words_hostText]
  rfl

theorem parse_scan (cu : Culture) (hosts : List (ip_addr_t × eth_addr)) (name status : Text) :
    parseScan cu ⟨name, status, hosts.map hostText⟩ = hosts.map shownHost := by
  unfold parseScan
  rw [List.filterMap_map, ← List.filterMap_eq_map]
  refine List.filterMap_congr fun h _ => ?_
  exact parse_host cu h

/-! ## The commands -/

theorem ping_print {f : Firmware} {env : Env} {args : Text} {res : ping_result_t} (h : Received f env args res) :
    (cmd_ping f env args).2 = (Answer.block "PING".toList [pongText res] "OK".toList).print := by
  obtain ⟨idx, target, n, before, k, now, rest, hargs, hn, hsend, hduring, hrecv, hres⟩ := h
  have hbegin : cmd_out "#BEGIN PING\r\n" = beginLine "PING" := by decide
  have hend : cmd_out "#END PING OK\r\n" = endLine "PING" "OK" := by decide
  have hwait : ((f.ping_send (some n) target env.ping).1.ping_wait_reply env.during env.late).2 = some res := by
    rw [hduring, wait_received hrecv, hres]
  have hpair : (f.ping_send (some n) target env.ping).1.ping_wait_reply env.during env.late =
      (((f.ping_send (some n) target env.ping).1.ping_wait_reply env.during env.late).1, some res) :=
    Prod.ext rfl hwait
  have honce : (pingOnce f env idx target).2 = [pongText res].flatMap (· ++ eol) ++ endLine "PING" "OK" := by
    unfold pingOnce
    rw [hn]
    dsimp only
    rw [if_neg (by simp [hsend]), hpair]
    dsimp only
    rw [send_pongLine, hend, List.flatMap_singleton]
  unfold cmd_ping
  rw [hargs, after]
  dsimp only
  rw [hbegin, honce, block_print]

theorem scan_print {f : Firmware} {env : Env} {args : Text} {n : NetifPtr}
    (h : cmd_netif_by_index f.board (env.atoi args) = some n) :
    (cmd_scan f env args).2 =
      (Answer.block "SCAN".toList ((f.scan_network n env.scan).2.map hostText) "OK".toList).print := by
  have hbegin : cmd_out "#BEGIN SCAN\r\n" = beginLine "SCAN" := by decide
  have hend : cmd_out "#END SCAN OK\r\n" = endLine "SCAN" "OK" := by decide
  unfold cmd_scan scanOn
  rw [h, after]
  dsimp only
  rw [hbegin, hend, flatMap_hostUp, block_print]

theorem received_rtt {f : Firmware} (h : Inv f) {env : Env} {args : Text} {res : ping_result_t}
    (hr : Received f env args res) : res.rtt_ms.toNat ≤ maxRtt := by
  obtain ⟨idx, target, n, before, k, now, rest, -, -, -, -, -, rfl⟩ := hr
  have hbefore := (h.ping_send (some n) target env.ping).interrupts before
  exact (hbefore.interrupt (.icmp k now)).rtt

theorem isWord_name {name : String} (h : IsWord name.toList) {data : List Text} (hd : ∀ l ∈ data, IsData l) :
    (Answer.block name.toList data "OK".toList).Wf :=
  ⟨h, hd, by decide⟩

/-- The panel decodes what the board encodes. -/
theorem panel_decodes (cu : Culture) (c : Boot) (es : List Event) (h : machine.Legal (boot c) es) :
    Delivers cu (cmd_netif_list (machine.run (boot c) es)).2
      (fun resp => resp.Ok = true ∧ parseNetifList resp = shownNetifs (machine.run (boot c) es).board) ∧
    (∀ env args res, Received (machine.run (boot c) es) env args res →
      Delivers cu (cmd_ping (machine.run (boot c) es) env args).2
        (fun resp => resp.Ok = true ∧ parsePing resp = shownReply res)) ∧
    (∀ env args n, cmd_netif_by_index (machine.run (boot c) es).board (env.atoi args) = some n →
      Delivers cu (cmd_scan (machine.run (boot c) es) env args).2
        (fun resp => resp.Ok = true ∧
          parseScan cu resp = ((machine.run (boot c) es).scan_network n env.scan).2.map shownHost)) := by
  have hinv := inv_reachable c h
  generalize machine.run (boot c) es = f at hinv
  refine ⟨?_, fun env args res hr => ?_, fun env args n hn => ?_⟩
  · rw [netif_list_print hinv]
    exact delivers_answer cu (isWord_name (by decide) (isData_listData _ _ _)) ⟨rfl, parse_list _ (list_length_lt hinv) _⟩
  · rw [ping_print hr]
    exact delivers_answer cu (isWord_name (by decide) (by simpa using isData_pongText res))
      ⟨rfl, parse_pong (received_rtt hinv hr) _ _⟩
  · rw [scan_print hn]
    refine delivers_answer cu (isWord_name (by decide) fun l hl => ?_) ⟨rfl, parse_scan cu _ _ _⟩
    obtain ⟨host, -, rfl⟩ := List.mem_map.mp hl
    exact isData_hostText host

/-- A second interface and a socket are added. -/
def sampleRun : List Event :=
  [.line sampleEnv "NETIF ADD 10.0.0.20 255.255.255.0 10.0.0.1".toList, .line sampleEnv "SOCK OPEN 1 5000".toList]

/-- The gateway answers the first ping after two milliseconds. -/
def replyEnv : Env :=
  { sampleEnv with
    during := [.icmp { addr := 0x0a000001, ip_hlen := 20, len := 60, tot_len := 60, type := ICMP_ER, id := PING_ID,
                       seqno := 1, ttl := 64 } 18750] }

theorem panel_decodes_sample :
    machine.Legal (boot (.main ethzero true)) sampleRun ∧
    Received (machine.run (boot (.main ethzero true)) sampleRun) replyEnv "1 10.0.0.1".toList
      ⟨0x0a000001, 1, 32, 2, 64⟩ ∧
    cmd_netif_by_index (machine.run (boot (.main ethzero true)) sampleRun).board (replyEnv.atoi "2".toList) =
      some .phys ∧
    Delivers .ordinal (cmd_netif_list (machine.run (boot (.main ethzero true)) sampleRun)).2
      (fun resp => resp.Ok = true ∧
        parseNetifList resp = shownNetifs (machine.run (boot (.main ethzero true)) sampleRun).board) ∧
    Delivers .ordinal (cmd_ping (machine.run (boot (.main ethzero true)) sampleRun) replyEnv "1 10.0.0.1".toList).2
      (fun resp => resp.Ok = true ∧ parsePing resp = ⟨true, "10.0.0.1".toList, 1, 32, 2, 64⟩) ∧
    Delivers .ordinal (cmd_scan (machine.run (boot (.main ethzero true)) sampleRun) replyEnv "2".toList).2
      (fun resp => resp.Ok = true ∧
        parseScan .ordinal resp = ((machine.run (boot (.main ethzero true)) sampleRun).scan_network .phys
          replyEnv.scan).2.map shownHost) := by
  have hlegal : machine.Legal (boot (.main ethzero true)) sampleRun := by decide
  have hrecv : Received (machine.run (boot (.main ethzero true)) sampleRun) replyEnv "1 10.0.0.1".toList
      ⟨0x0a000001, 1, 32, 2, 64⟩ :=
    ⟨1, 0x0a000001, .alias_list 0, [], _, _, [], by decide, by decide, by decide, rfl, by decide, by decide⟩
  have hphys : cmd_netif_by_index (machine.run (boot (.main ethzero true)) sampleRun).board
      (replyEnv.atoi "2".toList) = some .phys := by decide
  obtain ⟨hlist, hping, hscan⟩ := panel_decodes .ordinal _ _ hlegal
  have hshown : shownReply ⟨0x0a000001, 1, 32, 2, 64⟩ = ⟨true, "10.0.0.1".toList, 1, 32, 2, 64⟩ := by decide
  exact ⟨hlegal, hrecv, hphys, hlist, hshown ▸ hping _ _ _ hrecv, hscan _ _ _ hphys⟩

end MultiIp.Panel

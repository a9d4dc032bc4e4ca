import MultiIp.Board.Firmware
import MultiIp.Wire.Answer

/-!
# Every command prints one answer

The text that a line makes the board print is an answer in the sense of
`Wire.Answer`, with the data lines of its command.
-/

namespace MultiIp.Firmware

open Board Lwip Lib Wire

/-! ## Printable text -/

theorem printable_decimal (n : Nat) : ∀ c ∈ decimal n, isPrintable c = true :=
  fun _ hc => isPrintable_of_isDigit (isDigit_of_mem_decimal hc)

theorem printable_ntoa (ip : ip_addr_t) : ∀ c ∈ ipaddr_ntoa ip, isPrintable c = true := by
  intro c hc
  rcases mem_ipaddr_ntoa hc with h | rfl
  · exact isPrintable_of_isDigit h
  · decide

theorem isWord_decimal (n : Nat) : IsWord (decimal n) := by
  refine ⟨decimal_ne_nil n, fun c hc => ⟨printable_decimal n c hc, ?_⟩⟩
  rintro rfl
  exact not_mem_decimal (by decide) hc

theorem isWord_ntoa (ip : ip_addr_t) : IsWord (ipaddr_ntoa ip) := by
  refine ⟨ipaddr_ntoa_ne_nil ip, fun c hc => ⟨printable_ntoa ip c hc, ?_⟩⟩
  rintro rfl
  rcases mem_ipaddr_ntoa hc with h | h
  · exact absurd h (by decide)
  · exact absurd h (by decide)

theorem digitChar_word : ∀ d : Fin 16, isPrintable (Nat.digitChar d) = true ∧ Nat.digitChar d ≠ ' ' := by decide

theorem mem_hex2 {b : UInt8} {c : Char} (h : c ∈ hex2 b) : isPrintable c = true ∧ c ≠ ' ' := by
  have hlt := b.toNat_lt
  have hhi : (b / 16).toNat < 16 := by
    simp only [UInt8.toNat_div]
    show b.toNat / 16 < 16
    omega
  have hlo : (b % 16).toNat < 16 := by
    simp only [UInt8.toNat_mod]
    exact Nat.mod_lt _ (by decide)
  simp only [hex2, List.mem_cons, List.not_mem_nil, or_false] at h
  rcases h with rfl | rfl
  · exact digitChar_word ⟨_, hhi⟩
  · exact digitChar_word ⟨_, hlo⟩

theorem isWord_macText (mac : eth_addr) : IsWord (macText mac) := by
  have hlen : (mac.toList.map hex2).length = 6 := by simp
  unfold macText
  cases hl : mac.toList.map hex2 with
  | nil => simp [hl] at hlen
  | cons l ls =>
    have hhex : ∀ m ∈ l :: ls, ∃ b, hex2 b = m := by
      intro m hm
      rw [← hl] at hm
      obtain ⟨b, -, hb⟩ := List.mem_map.mp hm
      exact ⟨b, hb⟩
    constructor
    · obtain ⟨b, rfl⟩ := hhex l List.mem_cons_self
      cases ls with
      | nil => simp [hex2]
      | cons m ls => simp [List.intercalate_cons_cons, hex2]
    · intro c hc
      rcases mem_intercalate hc with rfl | ⟨m, hm, hcm⟩
      · decide
      · obtain ⟨b, rfl⟩ := hhex m hm
        exact mem_hex2 hcm

/-! ## Data lines -/

/-- Whatever follows it, the line starts with no mark. -/
def clear (p : String) : Bool :=
  p.toList ≠ [] && p.toList.all isPrintable &&
    marks.all (fun q => !q.toList.isPrefixOf p.toList && !p.toList.isPrefixOf q.toList)

theorem isData_append {p : String} (hp : clear p = true) {s : Text} (hs : ∀ c ∈ s, isPrintable c = true) :
    IsData (p.toList ++ s) := by
  simp only [clear, Bool.and_eq_true, decide_eq_true_eq, List.all_eq_true] at hp
  obtain ⟨⟨hne, hpr⟩, hq⟩ := hp
  have hnot : ∀ q ∈ marks, ¬ q.toList <+: p.toList ++ s := by
    intro q hmem hpre
    have hclear := hq q hmem
    simp only [Bool.not_eq_true', ← Bool.not_eq_true, List.isPrefixOf_iff_prefix] at hclear
    rcases List.prefix_or_prefix_of_prefix hpre (List.prefix_append _ _) with h | h
    · exact hclear.1 h
    · exact hclear.2 h
  refine ⟨by simp [hne], ?_, hnot⟩
  intro c hc
  rcases List.mem_append.mp hc with hc | hc
  · exact hpr c hc
  · exact hs c hc

theorem isData_unwords {p : String} (hp : clear p = true) {ws : List Text}
    (h : ∀ w ∈ ws, ∀ c ∈ w, isPrintable c = true) : IsData (unwords (p.toList :: ws)) := by
  cases ws with
  | nil => simpa [unwords] using isData_append hp (s := []) (by simp)
  | cons w ws =>
    rw [unwords, List.intercalate_cons_cons, List.append_assoc]
    refine isData_append hp fun c hc => ?_
    rcases List.mem_append.mp hc with hc | hc
    · rw [List.mem_singleton.mp hc]
      decide
    · rcases mem_intercalate hc with rfl | ⟨m, hm, hc⟩
      · decide
      · exact h m hm c hc

def sockText (b : Board) (n : NetifPtr) (idx j : Nat) : Text :=
  unwords ["#SOCK".toList, decimal idx, decimal (j + 1),
    decimal (udp_source_get_socket b n (UInt8.ofNat j)).local_port.toNat]

def netifText (b : Board) (n : NetifPtr) (idx : Nat) : Text :=
  let nif := b.net.netifs n
  unwords ["#NETIF".toList, decimal idx, ipaddr_ntoa nif.ip_addr, ipaddr_ntoa nif.netmask, ipaddr_ntoa nif.gw,
    "socks=".toList ++ decimal (udp_source_count_sockets b n)]

def netifData (b : Board) (n : NetifPtr) (idx : Nat) : List Text :=
  netifText b n idx :: (List.range (udp_source_count_sockets b n)).map (sockText b n idx)

def listData (b : Board) : List NetifPtr → Nat → List Text
  | [], _ => []
  | n :: l, idx => netifData b n idx ++ listData b l (idx + 1)

def pongText (res : ping_result_t) : Text :=
  unwords ["#PONG".toList, ipaddr_ntoa res.from_, decimal res.seqno.toNat, decimal res.data_len.toNat,
    decimal res.rtt_ms.toNat, decimal res.ttl.toNat]

/-- There are two blanks before `MAC`. -/
def hostText (h : ip_addr_t × eth_addr) : Text :=
  unwords ["Host".toList, "up:".toList, ipaddr_ntoa h.1, [], "MAC".toList, macText h.2]

theorem isData_sockText (b : Board) (n : NetifPtr) (idx j : Nat) : IsData (sockText b n idx j) :=
  isData_unwords (by decide) (by simpa using ⟨printable_decimal _, printable_decimal _, printable_decimal _⟩)

theorem isData_netifText (b : Board) (n : NetifPtr) (idx : Nat) : IsData (netifText b n idx) := by
  refine isData_unwords (by decide) fun w hw => ?_
  simp only [List.mem_cons, List.not_mem_nil, or_false] at hw
  rcases hw with rfl | rfl | rfl | rfl | rfl
  · exact printable_decimal _
  · exact printable_ntoa _
  · exact printable_ntoa _
  · exact printable_ntoa _
  · exact (isData_append (p := "socks=") (by decide) (printable_decimal _)).printable

theorem isData_pongText (res : ping_result_t) : IsData (pongText res) :=
  isData_unwords (by decide) (by
    simpa using ⟨printable_ntoa _, printable_decimal _, printable_decimal _, printable_decimal _, printable_decimal _⟩)

theorem isData_hostText (h : ip_addr_t × eth_addr) : IsData (hostText h) := by
  refine isData_unwords (by decide) fun w hw => ?_
  simp only [List.mem_cons, List.not_mem_nil, or_false] at hw
  rcases hw with rfl | rfl | rfl | rfl | rfl
  · exact List.all_eq_true.mp (by decide)
  · exact printable_ntoa _
  · simp
  · exact List.all_eq_true.mp (by decide)
  · exact fun c hc => ((isWord_macText h.2).2 c hc).1

theorem sockLine_eq (b : Board) (n : NetifPtr) (idx j : Nat) : sockLine b n idx j = sockText b n idx j ++ eol := by
  have h : ∀ x y z : Text, "#SOCK ".toList ++ x ++ ' ' :: y ++ ' ' :: z ++ "\r\n".toList =
      unwords ["#SOCK".toList, x, y, z] ++ eol := by
    intro x y z
    simp [unwords, eol, List.intercalate]
  exact h _ _ _

theorem netifLine_eq (b : Board) (n : NetifPtr) (idx : Nat) : netifLine b n idx = netifText b n idx ++ eol := by
  have h : ∀ v w x y z : Text, "#NETIF ".toList ++ v ++ ' ' :: w ++ ' ' :: x ++ ' ' :: y ++ " socks=".toList ++ z ++
      "\r\n".toList = unwords ["#NETIF".toList, v, w, x, y, "socks=".toList ++ z] ++ eol := by
    intro v w x y z
    simp [unwords, eol, List.intercalate]
  exact h _ _ _ _ _

theorem pongLine_eq (res : ping_result_t) : pongLine res = pongText res ++ eol := by
  have h : ∀ v w x y z : Text, "#PONG ".toList ++ v ++ ' ' :: w ++ ' ' :: x ++ ' ' :: y ++ ' ' :: z ++
      "\r\n".toList = unwords ["#PONG".toList, v, w, x, y, z] ++ eol := by
    intro v w x y z
    simp [unwords, eol, List.intercalate]
  exact h _ _ _ _ _

theorem hostUp_eq (h : ip_addr_t × eth_addr) : hostUp h.1 h.2 = hostText h ++ eol := by
  have h : ∀ x y : Text, "Host up: ".toList ++ x ++ "  MAC ".toList ++ y ++ "\r\n".toList =
      unwords ["Host".toList, "up:".toList, x, [], "MAC".toList, y] ++ eol := by
    intro x y
    simp [unwords, eol, List.intercalate]
  exact h _ _

/-! ## The buffers are large enough -/

theorem sendLine_unwords {size : Nat} {ws : List Text} (h : ws.foldr (fun w n => w.length + 1 + n) 0 + 2 < size) :
    sendLine size (unwords ws ++ eol) = unwords ws ++ eol := by
  have hlen := length_unwords_le ws
  have heol : eol.length = 2 := rfl
  refine List.take_of_length_le ?_
  rw [List.length_append]
  omega

theorem count_le (b : Board) (n : NetifPtr) : udp_source_count_sockets b n ≤ 16 := by
  have h := List.length_filter_le (onNetif b n) (List.finRange UDP_MAX_LISTENERS)
  rwa [List.length_finRange] at h

theorem decimal16_length (n : UInt16) : (decimal n.toNat).length ≤ 5 := by
  have := n.toNat_lt
  exact decimal_length_le (by decide) (by omega)

theorem send_sockLine (b : Board) (n : NetifPtr) {idx j : Nat} (hidx : idx < 1000) (hj : j < 16) :
    sendLine 96 (sockLine b n idx j) = sockText b n idx j ++ eol := by
  have h1 : (decimal idx).length ≤ 3 := decimal_length_le (by decide) hidx
  have h2 : (decimal (j + 1)).length ≤ 3 := decimal_length_le (by decide) (by omega)
  have h3 := decimal16_length (udp_source_get_socket b n (UInt8.ofNat j)).local_port
  have h4 : "#SOCK".toList.length = 5 := rfl
  rw [sockLine_eq]
  refine sendLine_unwords ?_
  simp only [List.foldr_cons, List.foldr_nil]
  omega

theorem send_netifLine (b : Board) (n : NetifPtr) {idx : Nat} (hidx : idx < 1000) :
    sendLine 96 (netifLine b n idx) = netifText b n idx ++ eol := by
  have hcount := count_le b n
  have h1 : (decimal idx).length ≤ 3 := decimal_length_le (by decide) hidx
  have h2 : (decimal (udp_source_count_sockets b n)).length ≤ 3 := decimal_length_le (by decide) (by omega)
  have h3 := ipaddr_ntoa_length (b.net.netifs n).ip_addr
  have h4 := ipaddr_ntoa_length (b.net.netifs n).netmask
  have h5 := ipaddr_ntoa_length (b.net.netifs n).gw
  have h6 : "#NETIF".toList.length = 6 := rfl
  have h7 : "socks=".toList.length = 6 := rfl
  rw [netifLine_eq]
  refine sendLine_unwords ?_
  simp only [List.foldr_cons, List.foldr_nil, List.length_append]
  omega

theorem send_pongLine (res : ping_result_t) : sendLine 96 (pongLine res) = pongText res ++ eol := by
  have hrtt := res.rtt_ms.toNat_lt
  have httl := res.ttl.toNat_lt
  have h1 := ipaddr_ntoa_length res.from_
  have h2 := decimal16_length res.seqno
  have h3 := decimal16_length res.data_len
  have h4 : (decimal res.rtt_ms.toNat).length ≤ 10 := decimal_length_le (by decide) (by omega)
  have h5 : (decimal res.ttl.toNat).length ≤ 3 := decimal_length_le (by decide) (by omega)
  have h6 : "#PONG".toList.length = 5 := rfl
  rw [pongLine_eq]
  refine sendLine_unwords ?_
  simp only [List.foldr_cons, List.foldr_nil]
  omega

theorem netifBlock_eq (b : Board) (n : NetifPtr) {idx : Nat} (hidx : idx < 1000) :
    netifBlock b n idx = (netifData b n idx).flatMap (· ++ eol) := by
  have hcount := count_le b n
  rw [netifBlock, netifData, List.flatMap_cons, send_netifLine b n hidx, List.flatMap_map]
  congr 1
  refine List.flatMap_congr fun j hj => ?_
  exact send_sockLine b n hidx (by have := List.mem_range.mp hj; omega)

theorem netifBlocks_eq (b : Board) (l : List NetifPtr) {idx : Nat} (h : idx + l.length ≤ 1000) :
    netifBlocks b l idx = (listData b l idx).flatMap (· ++ eol) := by
  induction l generalizing idx with
  | nil => rfl
  | cons n l ih =>
    rw [List.length_cons] at h
    rw [netifBlocks, listData, List.flatMap_append, netifBlock_eq b n (by omega), ih (by omega)]

theorem list_length_lt {f : Firmware} (h : Inv f) : 1 + f.board.net.list.length ≤ 1000 := by
  obtain ⟨l, hl⟩ := h.board.net
  have hlen : l.length ≤ netifCount := netifPtr_length_le (chain_nodup hl.chain)
  have hcount : netifCount ≤ 100 := by decide
  rw [hl.list_eq]
  omega

/-! ## The answer to a line -/

instance (w : Text) : Decidable (IsWord w) :=
  -- Not the instance that runs through all characters.
  have := List.decidableBAll (fun c => isPrintable c = true ∧ c ≠ ' ') w
  inferInstanceAs (Decidable (w ≠ [] ∧ ∀ c ∈ w, isPrintable c = true ∧ c ≠ ' '))

/-- `OK` or `ERR:` with a reason. -/
def isStatus (status : String) : Bool := status == "OK" || ("ERR:".toList.isPrefixOf status.toList && status != "ERR:")

/-- What follows the `#BEGIN` line of an answer with this name. -/
def Ends (name : String) (out : Text) : Prop :=
  ∃ (data : List Text) (status : String), (∀ l ∈ data, IsData l) ∧ IsWord status.toList ∧ isStatus status = true ∧
    out = data.flatMap (· ++ eol) ++ endLine name status

/-- One of the `#END` lines of the source. -/
theorem Ends.line {name s : String} (status : String)
    (h : cmd_out s = endLine name status ∧ IsWord status.toList ∧ isStatus status = true) : Ends name (cmd_out s) :=
  ⟨[], status, by simp, h.2.1, h.2.2, h.1⟩

theorem Ends.status (name : String) {status : String} (h : IsWord status.toList ∧ isStatus status = true) :
    Ends name (endLine name status) :=
  ⟨[], status, by simp, h.1, h.2, rfl⟩

theorem Ends.data (name : String) {data : List Text} (h : ∀ l ∈ data, IsData l) :
    Ends name (data.flatMap (· ++ eol) ++ endLine name "OK") :=
  ⟨data, "OK", h, by decide, rfl, rfl⟩

theorem block_print (name : String) (data : List Text) (status : String) :
    beginLine name ++ (data.flatMap (· ++ eol) ++ endLine name status) =
      (Answer.block name.toList data status.toList).print := by
  have h : ∀ p q e x y : Text, p ++ x ++ e ++ (data.flatMap (· ++ e) ++ (q ++ x ++ ' ' :: y ++ e)) =
      ((p ++ x) :: data ++ [q ++ x ++ ' ' :: y]).flatMap (· ++ e) := by
    intro p q e x y
    simp
  exact h _ _ eol _ _

theorem netifAdd_ends (f : Firmware) (env : Env) (ip mask gw : ip_addr_t) :
    Ends "NETIFADD" (netifAdd f env ip mask gw).2 := by
  unfold netifAdd
  dsimp only
  split
  · exact Ends.line "ERR:add_failed" (by decide)
  · exact Ends.line "OK" (by decide)

theorem netifDel_ends (f : Firmware) (idx : Int) : Ends "NETIFDEL" (netifDel f idx).2 := by
  unfold netifDel
  split
  · exact Ends.line "ERR:bad_index" (by decide)
  · dsimp only
    split
    · exact Ends.line "ERR:remove_failed" (by decide)
    · exact Ends.line "OK" (by decide)

theorem netifSet_ends (f : Firmware) (idx : Int) (field : Text) (val : ip_addr_t) :
    Ends "NETIFSET" (netifSet f idx field val).2 := by
  have hok : Ends "NETIFSET" (cmd_out "#END NETIFSET OK\r\n") :=
    Ends.line "OK" (by decide)
  unfold netifSet
  split
  · exact Ends.line "ERR:bad_index" (by decide)
  · split
    · exact hok
    · split
      · exact hok
      · split
        · exact hok
        · exact Ends.line "ERR:bad_field" (by decide)

theorem sockOpen_ends (f : Firmware) (idx port : Int) : Ends "SOCKOPEN" (sockOpen f idx port).2 := by
  unfold sockOpen
  split
  · exact Ends.line "ERR:bad_args" (by decide)
  · split
    · exact Ends.line "ERR:bad_index" (by decide)
    · dsimp only
      split
      · exact Ends.line "ERR:open_failed" (by decide)
      · exact Ends.line "OK" (by decide)

theorem sockClose_ends (f : Firmware) (idx nth : Int) : Ends "SOCKCLOSE" (sockClose f idx nth).2 := by
  unfold sockClose
  split
  · exact Ends.line "ERR:bad_index" (by decide)
  · split
    · exact Ends.line "ERR:bad_socket" (by decide)
    · exact Ends.line "OK" (by decide)

theorem udpSend_ends (f : Firmware) (env : Env) (idx nth : Int) (dst : ip_addr_t) (port : Int) (data : Text) :
    Ends "UDPSEND" (udpSend f env idx nth dst port data).2 := by
  unfold udpSend
  split
  · exact Ends.line "ERR:bad_args" (by decide)
  · split
    · exact Ends.line "ERR:no_data" (by decide)
    · split
      · exact Ends.line "ERR:bad_index" (by decide)
      · split
        · exact Ends.line "ERR:bad_socket" (by decide)
        · dsimp only
          split
          · exact Ends.line "ERR:send_failed" (by decide)
          · exact Ends.line "OK" (by decide)

/-- The lines of one reply. -/
def pingData : Option ping_result_t → Text
  | some res => pongText res
  | none => "#TIMEOUT".toList

theorem isData_pingData (r : Option ping_result_t) : IsData (pingData r) := by
  cases r with
  | none => exact isData_append (p := "#TIMEOUT") (by decide) (s := []) (by simp)
  | some res => exact isData_pongText res

theorem pingOnce_ends (f : Firmware) (env : Env) (idx : Int) (target : ip_addr_t) :
    Ends "PING" (pingOnce f env idx target).2 := by
  have hdata : ∀ r, Ends "PING" ([pingData r].flatMap (· ++ eol) ++ endLine "PING" "OK") :=
    fun r => Ends.data "PING" (by simpa using isData_pingData r)
  unfold pingOnce
  split
  · exact Ends.line "ERR:bad_index" (by decide)
  · dsimp only
    split
    · exact Ends.line "ERR:send_failed" (by decide)
    · split
      · rename_i res _
        rw [send_pongLine]
        exact List.flatMap_singleton (· ++ eol) (pongText res) ▸ hdata (some res)
      · exact hdata none

theorem isData_listData (b : Board) (l : List NetifPtr) (idx : Nat) : ∀ t ∈ listData b l idx, IsData t := by
  induction l generalizing idx with
  | nil => simp [listData]
  | cons n l ih =>
    intro t ht
    rcases List.mem_append.mp ht with ht | ht
    · rcases List.mem_cons.mp ht with rfl | ht
      · exact isData_netifText b n idx
      · obtain ⟨j, -, rfl⟩ := List.mem_map.mp ht
        exact isData_sockText b n idx j
    · exact ih _ t ht

theorem flatMap_hostUp (hosts : List (ip_addr_t × eth_addr)) :
    hosts.flatMap (fun h => hostUp h.1 h.2) = (hosts.map hostText).flatMap (· ++ eol) := by
  rw [List.flatMap_map]
  exact List.flatMap_congr fun h _ => hostUp_eq h

theorem scanOn_ends (f : Firmware) (env : Env) (idx : Int) : Ends "SCAN" (scanOn f env idx).2 := by
  unfold scanOn
  split
  · exact Ends.line "ERR:bad_index" (by decide)
  · dsimp only
    rw [flatMap_hostUp]
    refine Ends.data "SCAN" fun l hl => ?_
    obtain ⟨h, -, rfl⟩ := List.mem_map.mp hl
    exact isData_hostText h

theorem body_ends {f : Firmware} (h : Inv f) (env : Env) {c : Command} (hc : c ≠ .unknown) :
    Ends c.name (c.body f env).2 := by
  cases c with
  | netif_list =>
    show Ends "NETIFLIST" (netifBlocks f.board f.board.net.list 1 ++ endLine "NETIFLIST" "OK")
    rw [netifBlocks_eq _ _ (list_length_lt h)]
    exact Ends.data "NETIFLIST" (isData_listData _ _ _)
  | netif_add ip mask gw => exact netifAdd_ends f env ip mask gw
  | netif_del idx => exact netifDel_ends f idx
  | netif_set idx field val => exact netifSet_ends f idx field val
  | sock_open idx port => exact sockOpen_ends f idx port
  | sock_close idx nth => exact sockClose_ends f idx nth
  | ping idx target => exact pingOnce_ends f env idx target
  | scan idx => exact scanOn_ends f env idx
  | arp_reset => exact Ends.status "ARPRESET" (by decide)
  | udp_send idx nth dst port data => exact udpSend_ends f env idx nth dst port data
  | bad_args name => exact Ends.status name (by decide)
  | unknown => exact absurd rfl hc

/-- The command words; an unknown command has no name. -/
def named (c : Command) : Prop := c = .unknown ∨ IsWord c.name.toList

theorem named_elim {α : Type} {name : String} (hn : IsWord name.toList) (o : Option α) {g : α → Command}
    (hg : ∀ a, (g a).name = name) : named (o.elim (.bad_args name) g) := by
  cases o with
  | none => exact Or.inr hn
  | some a =>
    refine Or.inr ?_
    rw [Option.elim_some, hg a]
    exact hn

theorem named_parse (env : Env) (line : Text) : named (parse env line) := by
  have hword : ∀ {c : Command} (name : String), c.name = name → IsWord name.toList → named c := by
    rintro c _ rfl h
    exact Or.inr h
  unfold parse parseWith
  split
  · exact hword "NETIFLIST" rfl (by decide)
  cases argsOf "NETIF ADD " line with
  | some args => exact named_elim (by decide) _ (fun _ => rfl)
  | none =>
  cases argsOf "NETIF DEL " line with
  | some args => exact hword "NETIFDEL" rfl (by decide)
  | none =>
  cases argsOf "NETIF SET " line with
  | some args => exact named_elim (by decide) _ (fun _ => rfl)
  | none =>
  cases argsOf "SOCK OPEN " line with
  | some args => exact named_elim (by decide) _ (fun _ => rfl)
  | none =>
  cases argsOf "SOCK CLOSE " line with
  | some args => exact named_elim (by decide) _ (fun _ => rfl)
  | none =>
  cases argsOf "PING " line with
  | some args => exact named_elim (by decide) _ (fun _ => rfl)
  | none =>
  cases argsOf "SCAN " line with
  | some args => exact hword "SCAN" rfl (by decide)
  | none =>
  dsimp only
  split
  · exact hword "ARPRESET" rfl (by decide)
  cases argsOf "UDP SEND " line with
  | some args => exact named_elim (by decide) _ (fun _ => rfl)
  | none => exact Or.inl rfl

theorem exec_eq {c : Command} (hc : c ≠ .unknown) (f : Firmware) (env : Env) :
    c.exec f env = after (beginLine c.name) (c.body f env) := by
  unfold Command.exec
  split
  · exact absurd rfl hc
  · rfl

/-- What a line makes the board print is one answer, with the name of the command that was read. -/
theorem dispatch_answer {f : Firmware} (h : Inv f) (env : Env) (line : Text) :
    ∃ a : Answer, a.Wf ∧ a.name = (parse env line).name.toList ∧ (cmd_dispatch f env line).2 = a.print := by
  rw [dispatch_eq]
  rcases named_parse env line with hc | hname
  · rw [hc]
    have hword : IsWord "unknown_command".toList := by decide
    exact ⟨.err "unknown_command".toList, hword, rfl, rfl⟩
  · have hc : parse env line ≠ .unknown := by
      intro hc
      rw [hc] at hname
      exact hname.1 rfl
    obtain ⟨data, status, hdata, hstatus, -, hout⟩ := body_ends h env hc
    refine ⟨.block (parse env line).name.toList data status.toList, ⟨hname, hdata, hstatus⟩, rfl, ?_⟩
    rw [exec_eq hc, after, hout, block_print]

/-! ## The words of the lists -/

theorem blank_not_mem {w : Text} (h : IsWord w) : ' ' ∉ w := fun hm => (h.2 _ hm).2 rfl

theorem words_of_words {ws : List Text} (h : ∀ w ∈ ws, IsWord w) : words (unwords ws) = ws := by
  rw [words_unwords (fun w hw => blank_not_mem (h w hw)), List.filter_eq_self]
  intro w hw
  simpa using (h w hw).1

theorem words_netifText (b : Board) (n : NetifPtr) (idx : Nat) :
    words (netifText b n idx) =
      ["#NETIF".toList, decimal idx, ipaddr_ntoa (b.net.netifs n).ip_addr, ipaddr_ntoa (b.net.netifs n).netmask,
        ipaddr_ntoa (b.net.netifs n).gw, "socks=".toList ++ decimal (udp_source_count_sockets b n)] := by
  refine words_of_words fun w hw => ?_
  simp only [List.mem_cons, List.not_mem_nil, or_false] at hw
  rcases hw with rfl | rfl | rfl | rfl | rfl | rfl
  · decide
  · exact isWord_decimal idx
  · exact isWord_ntoa _
  · exact isWord_ntoa _
  · exact isWord_ntoa _
  · have hs : IsWord "socks=".toList := by decide
    have hd := isWord_decimal (udp_source_count_sockets b n)
    refine ⟨by simp, fun c hc => ?_⟩
    rcases List.mem_append.mp hc with hc | hc
    · exact hs.2 c hc
    · exact hd.2 c hc

theorem words_sockText (b : Board) (n : NetifPtr) (idx j : Nat) :
    words (sockText b n idx j) =
      ["#SOCK".toList, decimal idx, decimal (j + 1),
        decimal (udp_source_get_socket b n (UInt8.ofNat j)).local_port.toNat] := by
  refine words_of_words fun w hw => ?_
  simp only [List.mem_cons, List.not_mem_nil, or_false] at hw
  rcases hw with rfl | rfl | rfl | rfl
  · decide
  · exact isWord_decimal _
  · exact isWord_decimal _
  · exact isWord_decimal _

theorem netif_list_print {f : Firmware} (h : Inv f) :
    (cmd_netif_list f).2 =
      (Answer.block "NETIFLIST".toList (listData f.board f.board.net.list 1) "OK".toList).print := by
  have hbegin : cmd_out "#BEGIN NETIFLIST\r\n" = beginLine "NETIFLIST" := by decide
  have hend : cmd_out "#END NETIFLIST OK\r\n" = endLine "NETIFLIST" "OK" := by decide
  unfold cmd_netif_list after
  dsimp only
  rw [hbegin, hend, netifBlocks_eq _ _ (list_length_lt h), block_print]

end MultiIp.Firmware

import MultiIp.Board.Answers
import MultiIp.Board.StaleIds

/-!
# What is listed is what is addressed

`NETIF LIST` numbers the interfaces and their sockets, and the other commands
and the menu find them again by these numbers, each with a loop of its own.
-/

namespace MultiIp.Board

open Lwip Lib

/-! ## The loops of the source -/

/-- `udp_source_count_sockets` counts in a `u8_t`. -/
def countLoop (b : Board) (n : NetifPtr) : List SlotIdx → (socket_count : UInt8) → UInt8
  | [], socket_count => socket_count
  | idx :: rest, socket_count => countLoop b n rest (if onNetif b n idx then socket_count + 1 else socket_count)

/-- `udp_source_get_socket` stops at the slot where the count is `nth`. -/
def getLoop (b : Board) (n : NetifPtr) (nth : UInt8) : List SlotIdx → (socket_count : UInt8) → Option SlotIdx
  | [], _ => none
  | idx :: rest, socket_count =>
    if onNetif b n idx then
      if nth = socket_count then some idx else getLoop b n nth rest (socket_count + 1)
    else getLoop b n nth rest socket_count

theorem countLoop_eq (b : Board) (n : NetifPtr) (l : List SlotIdx) (c : UInt8) :
    countLoop b n l c = c + UInt8.ofNat (l.filter (onNetif b n)).length := by
  induction l generalizing c with
  | nil => simp [countLoop]
  | cons i l ih =>
    rw [countLoop, ih]
    cases hi : onNetif b n i with
    | false => simp [hi]
    | true =>
      simp only [hi, if_true, List.filter_cons_of_pos, List.length_cons]
      rw [UInt8.ofNat_add, UInt8.add_assoc, UInt8.add_comm 1]
      rfl

theorem getLoop_eq (b : Board) (n : NetifPtr) (nth : UInt8) (l : List SlotIdx) {c : UInt8} (hc : c ≤ nth) :
    getLoop b n nth l c = (l.filter (onNetif b n))[nth.toNat - c.toNat]? := by
  induction l generalizing c with
  | nil => simp [getLoop]
  | cons i l ih =>
    rw [getLoop]
    cases hi : onNetif b n i with
    | false =>
      rw [if_neg Bool.false_ne_true, ih hc, List.filter_cons_of_neg (by simp [hi])]
    | true =>
      rw [if_pos rfl, List.filter_cons_of_pos hi]
      split
      · rename_i heq
        rw [heq, Nat.sub_self, List.getElem?_cons_zero]
      · rename_i hne
        have hlt : c.toNat < nth.toNat := by
          have hle := UInt8.le_iff_toNat_le.mp hc
          have : c.toNat ≠ nth.toNat := fun h => hne (UInt8.toNat_inj.mp h).symm
          omega
        have hnth := nth.toNat_lt
        have hsucc : (c + 1).toNat = c.toNat + 1 := by
          rw [UInt8.toNat_add, UInt8.toNat_one]
          omega
        have hidx : nth.toNat - c.toNat = nth.toNat - (c + 1).toNat + 1 := by omega
        rw [ih (UInt8.le_iff_toNat_le.mpr (by omega)), hidx, List.getElem?_cons_succ]

/-- Both loops agree with the list of the interface's sockets. -/
theorem socketsOn_loops (b : Board) (n : NetifPtr) (nth : UInt8) :
    (countLoop b n (List.finRange UDP_MAX_LISTENERS) 0).toNat = udp_source_count_sockets b n ∧
    getLoop b n nth (List.finRange UDP_MAX_LISTENERS) 0 = (socketsOn b n)[nth.toNat]? := by
  constructor
  · have hle := List.length_filter_le (onNetif b n) (List.finRange UDP_MAX_LISTENERS)
    have h16 : UDP_MAX_LISTENERS = 16 := rfl
    rw [List.length_finRange] at hle
    rw [countLoop_eq, UInt8.zero_add, UInt8.toNat_ofNat', Nat.mod_eq_of_lt (by omega)]
    rfl
  · rw [getLoop_eq b n nth _ (UInt8.zero_le)]
    rfl

end MultiIp.Board

namespace MultiIp.Firmware

open Board Lwip Lib Wire

/-- `for (n = netif_list; n != NULL && idx > 1; n = n->next) idx--`. -/
def byIndexLoop : List NetifPtr → Int → Option NetifPtr
  | [], _ => none
  | n :: l, idx => if idx > 1 then byIndexLoop l (idx - 1) else some n

theorem by_index_loop (b : Board) (idx : Int) :
    cmd_netif_by_index b idx = if idx < 1 then none else byIndexLoop b.net.list idx := by
  have hloop : ∀ (l : List NetifPtr) (idx : Int), 1 ≤ idx → byIndexLoop l idx = l[(idx - 1).toNat]? := by
    intro l
    induction l with
    | nil => simp [byIndexLoop]
    | cons n l ih =>
      intro idx h
      rw [byIndexLoop]
      split
      · have hidx : (idx - 1).toNat = (idx - 1 - 1).toNat + 1 := by omega
        rw [ih _ (by omega), hidx, List.getElem?_cons_succ]
      · have hidx : (idx - 1).toNat = 0 := by omega
        rw [hidx, List.getElem?_cons_zero]
  unfold cmd_netif_by_index
  split
  · rfl
  · rw [hloop _ _ (by omega)]

/-- `while (n != NULL && idx-- > 0) n = n->next`. -/
def selectLoop : List NetifPtr → UInt32 → Option NetifPtr
  | [], _ => none
  | n :: l, idx => if idx > 0 then selectLoop l (idx - 1) else some n

/-- What `terminal_select_netif` makes of the character: `idx = (uint32_t) (ch - '0'); idx--`. -/
def terminal_select_netif (b : Board) (ch : UInt8) : Option NetifPtr := selectLoop b.net.list (ch.toUInt32 - 48 - 1)

theorem selectLoop_eq (l : List NetifPtr) (idx : UInt32) : selectLoop l idx = l[idx.toNat]? := by
  induction l generalizing idx with
  | nil => simp [selectLoop]
  | cons n l ih =>
    rw [selectLoop]
    split
    · rename_i hpos
      have hpos' : 0 < idx.toNat := UInt32.lt_iff_toNat_lt.mp hpos
      have hsub : (idx - 1).toNat = idx.toNat - 1 := UInt32.toNat_sub_of_le _ _ (UInt32.le_iff_toNat_le.mpr hpos')
      have hidx : idx.toNat = (idx - 1).toNat + 1 := by omega
      rw [ih, hidx, List.getElem?_cons_succ]
    · rename_i hzero
      have hidx : idx.toNat = 0 := by
        have : ¬ 0 < idx.toNat := fun h => hzero (UInt32.lt_iff_toNat_lt.mpr h)
        omega
      rw [hidx, List.getElem?_cons_zero]

/-- The menu selects the interface that the number addresses. Below `'1'` the index wraps, beyond every list. -/
theorem select_eq_by_index (b : Board) (ch : UInt8) :
    terminal_select_netif b ch = cmd_netif_by_index b ((ch.toNat : Int) - 48) := by
  have hch := ch.toNat_lt
  have hlen : b.net.list.length ≤ netifCount := walk_length_le _ _ _
  have hnc : netifCount = 8 := rfl
  have hnat : (ch.toUInt32 - 48 - 1).toNat = (ch.toNat + (2 ^ 32 - 49)) % 2 ^ 32 := by
    have h48 : (48 : UInt32).toNat = 48 := rfl
    have h1 : (1 : UInt32).toNat = 1 := rfl
    rw [UInt32.toNat_sub, UInt32.toNat_sub, UInt8.toNat_toUInt32, h48, h1]
    omega
  rw [terminal_select_netif, selectLoop_eq, hnat]
  unfold cmd_netif_by_index
  by_cases hlow : ch.toNat < 49
  · have hbeyond : b.net.list.length ≤ (ch.toNat + (2 ^ 32 - 49)) % 2 ^ 32 := by omega
    rw [if_pos (by omega), List.getElem?_eq_none hbeyond]
  · have hidx : (ch.toNat + (2 ^ 32 - 49)) % 2 ^ 32 = ((ch.toNat : Int) - 48 - 1).toNat := by omega
    rw [if_neg (by omega), hidx]

/-! ## The printed list -/

/-- The lines of what is printed, without their CRLF. -/
def printedLines (out : Text) : List Text := (linesOf out).map (fun l => l.take (l.length - 2))

def netifMark (k : Nat) : List Text := ["#NETIF".toList, decimal k]

def sockMark (k : Nat) : List Text := ["#SOCK".toList, decimal k]

theorem printedLines_answer {a : Answer} (h : a.Wf) : printedLines a.print = a.lines := by
  rw [printedLines, a.print_eq, linesOf_flatMap h.lines_lf, List.map_map, List.map_map]
  refine (List.map_congr_left fun l _ => ?_).trans (List.map_id _)
  simp

theorem printed_list {f : Firmware} (h : Inv f) :
    printedLines (cmd_netif_list f).2 =
      "#BEGIN NETIFLIST".toList :: listData f.board f.board.net.list 1 ++ ["#END NETIFLIST OK".toList] := by
  have hwf : (Answer.block "NETIFLIST".toList (listData f.board f.board.net.list 1) "OK".toList).Wf :=
    ⟨by decide, isData_listData _ _ _, by decide⟩
  rw [netif_list_print h, printedLines_answer hwf]
  rfl

theorem mem_listData {b : Board} {l : Text} (ns : List NetifPtr) (idx : Nat) :
    l ∈ listData b ns idx ↔ ∃ k n, ns[k]? = some n ∧ l ∈ netifData b n (idx + k) := by
  induction ns generalizing idx with
  | nil => simp [listData]
  | cons n ns ih =>
    rw [listData, List.mem_append, ih]
    constructor
    · rintro (h | ⟨k, m, hk, hl⟩)
      · exact ⟨0, n, rfl, h⟩
      · exact ⟨k + 1, m, hk, by rwa [Nat.add_right_comm, Nat.add_assoc] at hl⟩
    · rintro ⟨k, m, hk, hl⟩
      cases k with
      | zero =>
        obtain rfl := Option.some.inj hk
        exact Or.inl hl
      | succ k => exact Or.inr ⟨k, m, hk, by rwa [Nat.add_right_comm, Nat.add_assoc]⟩

theorem by_index_succ (b : Board) (k : Nat) : cmd_netif_by_index b ((1 + k : Nat) : Int) = b.net.list[k]? := by
  rw [cmd_netif_by_index, if_neg (by omega)]
  congr 1
  omega

section

variable {f : Firmware} {l : Text}

/-- A line whose first word is one of the list's is the line of an interface or of a socket. -/
theorem mem_printed (h : Inv f) {w : Text} {ws : List Text} (hw : words l = w :: ws)
    (hne : w ≠ "#BEGIN".toList ∧ w ≠ "#END".toList) :
    l ∈ printedLines (cmd_netif_list f).2 ↔ ∃ k n, f.board.net.list[k]? = some n ∧
      (l = netifText f.board n (1 + k) ∨ ∃ j < udp_source_count_sockets f.board n, l = sockText f.board n (1 + k) j) := by
  have hbegin : l ≠ "#BEGIN NETIFLIST".toList := by
    rintro rfl
    exact hne.1 (List.cons.inj (hw.symm.trans (by decide : _ = ["#BEGIN".toList, "NETIFLIST".toList]))).1
  have hend : l ≠ "#END NETIFLIST OK".toList := by
    rintro rfl
    exact hne.2 (List.cons.inj (hw.symm.trans (by decide : _ = ["#END".toList, "NETIFLIST".toList, "OK".toList]))).1
  rw [printed_list h, List.mem_append, List.mem_cons, List.mem_singleton, or_iff_left hend, or_iff_right hbegin,
    mem_listData]
  simp only [netifData, List.mem_cons, List.mem_map, List.mem_range, eq_comm (b := l)]

theorem printed_netif (h : Inv f) {k : Nat} :
    (l ∈ printedLines (cmd_netif_list f).2 ∧ netifMark k <+: words l) ↔
      ∃ n, cmd_netif_by_index f.board k = some n ∧ l = netifText f.board n k := by
  constructor
  · rintro ⟨hl, ws, hws⟩
    obtain ⟨i, n, hi, rfl | ⟨j, -, rfl⟩⟩ := (mem_printed h hws.symm ⟨by decide, by decide⟩).mp hl
    · rw [words_netifText] at hws
      obtain rfl : k = 1 + i := decimal_inj (List.cons.inj (List.cons.inj hws).2).1
      exact ⟨n, by rw [by_index_succ, hi], rfl⟩
    · rw [words_sockText] at hws
      exact absurd (List.cons.inj hws).1 (by decide)
  · rintro ⟨n, hn, rfl⟩
    obtain ⟨i, rfl⟩ : ∃ i, k = 1 + i := ⟨k - 1, by have := (by_index_le hn).1; omega⟩
    rw [by_index_succ] at hn
    exact ⟨(mem_printed h (words_netifText _ _ _) ⟨by decide, by decide⟩).mpr ⟨i, n, hn, Or.inl rfl⟩,
      by rw [words_netifText]; exact ⟨_, rfl⟩⟩

theorem printed_sock (h : Inv f) {k j p : Nat} :
    (l ∈ printedLines (cmd_netif_list f).2 ∧ words l = sockMark k ++ [decimal j, decimal p]) ↔
      ∃ n i, cmd_netif_by_index f.board k = some n ∧ j = i + 1 ∧ i < udp_source_count_sockets f.board n ∧
        l = sockText f.board n k i ∧ (udp_source_get_socket f.board n (UInt8.ofNat i)).local_port.toNat = p := by
  constructor
  · rintro ⟨hl, hws⟩
    obtain ⟨m, n, hm, rfl | ⟨i, hi, rfl⟩⟩ := (mem_printed h hws ⟨by decide, by decide⟩).mp hl
    · rw [words_netifText] at hws
      exact absurd (List.cons.inj hws).1 (by decide)
    · rw [words_sockText] at hws
      obtain ⟨hk, hrest⟩ := List.cons.inj (List.cons.inj hws).2
      obtain ⟨hj, hlast⟩ := List.cons.inj hrest
      have hp := decimal_inj (List.cons.inj hlast).1
      obtain rfl : k = 1 + m := (decimal_inj hk).symm
      exact ⟨n, i, by rw [by_index_succ, hm], (decimal_inj hj).symm, hi, rfl, hp⟩
  · rintro ⟨n, i, hn, rfl, hi, rfl, rfl⟩
    obtain ⟨m, rfl⟩ : ∃ m, k = 1 + m := ⟨k - 1, by have := (by_index_le hn).1; omega⟩
    rw [by_index_succ] at hn
    exact ⟨(mem_printed h (words_sockText _ _ _ _) ⟨by decide, by decide⟩).mpr ⟨m, n, hn, Or.inr ⟨i, hi, rfl⟩⟩,
      words_sockText _ _ _ _⟩

end

/-! ## Counting the socket lines -/

def isSockLine (k : Nat) (l : Text) : Bool := (sockMark k).isPrefixOf (words l)

theorem isSockLine_sockText (b : Board) (n : NetifPtr) (idx j k : Nat) :
    isSockLine k (sockText b n idx j) = decide (idx = k) := by
  rw [isSockLine, words_sockText, Bool.eq_iff_iff, List.isPrefixOf_iff_prefix, decide_eq_true_eq]
  constructor
  · rintro ⟨ws, hws⟩
    exact (decimal_inj (List.cons.inj (List.cons.inj hws).2).1).symm
  · rintro rfl
    exact ⟨_, rfl⟩

theorem isSockLine_netifText (b : Board) (n : NetifPtr) (idx k : Nat) : isSockLine k (netifText b n idx) = false := by
  rw [isSockLine, words_netifText, ← Bool.not_eq_true, List.isPrefixOf_iff_prefix]
  rintro ⟨ws, hws⟩
  exact absurd (List.cons.inj hws).1 (by decide)

theorem count_netifData (b : Board) (n : NetifPtr) (idx k : Nat) :
    (netifData b n idx).countP (isSockLine k) = if idx = k then udp_source_count_sockets b n else 0 := by
  rw [netifData, List.countP_cons, isSockLine_netifText, List.countP_map]
  have hline : isSockLine k ∘ sockText b n idx = fun _ => decide (idx = k) :=
    funext fun j => isSockLine_sockText b n idx j k
  rw [hline]
  by_cases heq : idx = k
  · simp [heq]
  · simp [heq]

theorem count_listData (b : Board) (ns : List NetifPtr) (idx k : Nat) :
    (listData b ns idx).countP (isSockLine (idx + k)) = (ns[k]?).elim 0 (udp_source_count_sockets b) := by
  -- Lines of later interfaces have later numbers.
  have hlater : ∀ (ns : List NetifPtr) (idx k : Nat), k < idx → (listData b ns idx).countP (isSockLine k) = 0 := by
    intro ns
    induction ns with
    | nil => exact fun _ _ _ => rfl
    | cons n ns ih =>
      intro idx k hk
      rw [listData, List.countP_append, count_netifData, if_neg (by omega), ih _ _ (by omega)]
  induction ns generalizing idx k with
  | nil => rfl
  | cons n ns ih =>
    rw [listData, List.countP_append, count_netifData]
    cases k with
    | zero =>
      rw [Nat.add_zero, if_pos rfl, hlater _ _ _ (Nat.lt_succ_self idx)]
      rfl
    | succ k =>
      have hidx : idx + (k + 1) = idx + 1 + k := by omega
      rw [if_neg (by omega), hidx, ih, Nat.zero_add]
      rfl

/-- As many socket lines as the line of the interface says. -/
theorem count_printed {f : Firmware} (h : Inv f) {k : Nat} {n : NetifPtr} (hn : cmd_netif_by_index f.board k = some n) :
    (printedLines (cmd_netif_list f).2).countP (isSockLine k) = udp_source_count_sockets f.board n := by
  obtain ⟨m, rfl⟩ : ∃ m, k = 1 + m := ⟨k - 1, by have := (by_index_le hn).1; omega⟩
  have hbegin : ∀ k, isSockLine k "#BEGIN NETIFLIST".toList = false := by
    intro k
    rw [isSockLine, ← Bool.not_eq_true, List.isPrefixOf_iff_prefix]
    rintro ⟨ws, hws⟩
    have hw : words "#BEGIN NETIFLIST".toList = ["#BEGIN".toList, "NETIFLIST".toList] := by decide
    exact absurd (List.cons.inj (hws.trans hw)).1 (by decide)
  have hend : ∀ k, isSockLine k "#END NETIFLIST OK".toList = false := by
    intro k
    rw [isSockLine, ← Bool.not_eq_true, List.isPrefixOf_iff_prefix]
    rintro ⟨ws, hws⟩
    have hw : words "#END NETIFLIST OK".toList = ["#END".toList, "NETIFLIST".toList, "OK".toList] := by decide
    exact absurd (List.cons.inj (hws.trans hw)).1 (by decide)
  rw [by_index_succ] at hn
  rw [printed_list h, List.countP_append, List.countP_cons, hbegin, List.countP_singleton, hend, count_listData, hn]
  rfl

/-! ## The commands -/

/-- The answer without data lines. -/
def answer (name status : String) : Text := beginLine name ++ endLine name status

/-- The command looks up the interface at position `k`: its other arguments are in range. -/
def asksFor (k : Int) : Command → Prop
  | .netif_del idx | .netif_set idx _ _ | .sock_close idx _ | .ping idx _ | .scan idx => idx = k
  | .sock_open idx port => idx = k ∧ 1 ≤ port ∧ port ≤ 65535
  | .udp_send idx _ _ port data => idx = k ∧ (1 ≤ port ∧ port ≤ 65535) ∧ data ≠ []
  | _ => False

theorem body_bad_index {f : Firmware} {k : Int} (hk : cmd_netif_by_index f.board k = none) (env : Env) {c : Command}
    (hc : asksFor k c) : c.body f env = (f, endLine c.name "ERR:bad_index") := by
  cases c with
  | netif_del idx =>
    obtain rfl : idx = k := hc
    simp only [Command.body, netifDel, hk]
    show (f, _) = (f, endLine "NETIFDEL" "ERR:bad_index")
    exact congrArg (Prod.mk f) (by decide)
  | netif_set idx field val =>
    obtain rfl : idx = k := hc
    simp only [Command.body, netifSet, hk]
    show (f, _) = (f, endLine "NETIFSET" "ERR:bad_index")
    exact congrArg (Prod.mk f) (by decide)
  | sock_close idx nth =>
    obtain rfl : idx = k := hc
    simp only [Command.body, sockClose, hk]
    show (f, _) = (f, endLine "SOCKCLOSE" "ERR:bad_index")
    exact congrArg (Prod.mk f) (by decide)
  | ping idx target =>
    obtain rfl : idx = k := hc
    simp only [Command.body, pingOnce, hk]
    show (f, _) = (f, endLine "PING" "ERR:bad_index")
    exact congrArg (Prod.mk f) (by decide)
  | scan idx =>
    obtain rfl : idx = k := hc
    simp only [Command.body, scanOn, hk]
    show (f, _) = (f, endLine "SCAN" "ERR:bad_index")
    exact congrArg (Prod.mk f) (by decide)
  | sock_open idx port =>
    obtain ⟨rfl, hlow, hhigh⟩ := hc
    simp only [Command.body, sockOpen, if_neg (show ¬ (port < 1 ∨ port > 65535) by omega), hk]
    show (f, _) = (f, endLine "SOCKOPEN" "ERR:bad_index")
    exact congrArg (Prod.mk f) (by decide)
  | udp_send idx nth dst port data =>
    obtain ⟨rfl, ⟨hlow, hhigh⟩, hdata⟩ := hc
    simp only [Command.body, udpSend, if_neg (show ¬ (port < 1 ∨ port > 65535) by omega), if_neg hdata, hk]
    show (f, _) = (f, endLine "UDPSEND" "ERR:bad_index")
    exact congrArg (Prod.mk f) (by decide)
  | netif_list | netif_add _ _ _ | arp_reset | bad_args _ | unknown => exact hc.elim

theorem dispatch_body (f : Firmware) (env : Env) {line : Text} {c : Command} (hc : parse env line = c) (hne : c ≠ .unknown) :
    cmd_dispatch f env line = after (beginLine c.name) (c.body f env) := by
  rw [dispatch_eq, hc, exec_eq hne]

/-- The socket at position `i` of the interface, and the id that stands for it. -/
theorem get_socket_slot (b : Board) {n : NetifPtr} {i : Nat} (hi : i < udp_source_count_sockets b n) :
    ∃ s, onNetif b n s = true ∧ resolve b (make_id b s) = some s ∧
      udp_source_get_socket b n (UInt8.ofNat i) =
        { netif := some n
          local_port := match (b.s_listeners s).pcb with
            | some pcb => (b.udp.pcbs pcb).local_port
            | none => 0
          socket_id := make_id b s } := by
  have hcount := count_le b n
  have hbyte : (UInt8.ofNat i).toNat = i := by
    rw [UInt8.toNat_ofNat']
    omega
  have hmem : (socketsOn b n)[i] ∈ socketsOn b n := List.getElem_mem hi
  have hon : onNetif b n (socketsOn b n)[i] = true := (List.mem_filter.mp hmem).2
  refine ⟨(socketsOn b n)[i], hon, ?_, ?_⟩
  · rw [resolve_make_id, if_pos ⟨onNetif_in_use hon, rfl⟩]
  · have hsome := List.getElem?_eq_getElem hi
    rw [udp_source_get_socket, hbyte]
    revert hsome
    generalize (socketsOn b n)[i]? = o
    rintro rfl
    rfl

theorem nthSocket_of_lt (b : Board) {n : NetifPtr} {i : Nat} (hi : i < udp_source_count_sockets b n) :
    nthSocket b n ((i + 1 : Nat) : Int) = some (udp_source_get_socket b n (UInt8.ofNat i)) := by
  rw [nthSocket, if_neg (by omega)]
  congr 3
  omega

/-- What is printed in a list of the state `f` is what the commands and the menu address in `f`. -/
structure Addressed (f : Firmware) : Prop where
  netif : ∀ (k : Nat) (l : Text), l ∈ printedLines (cmd_netif_list f).2 → netifMark k <+: words l →
    ∃ n, cmd_netif_by_index f.board k = some n ∧ l = netifText f.board n k
  no_netif : ∀ k : Int,
    (∀ (m : Nat) (l : Text), (m : Int) = k → l ∈ printedLines (cmd_netif_list f).2 → ¬ netifMark m <+: words l) →
    (k < 1 ∨ k > f.board.net.list.length) ∧ cmd_netif_by_index f.board k = none ∧
      ∀ env line, asksFor k (parse env line) →
        cmd_dispatch f env line = (f, answer (parse env line).name "ERR:bad_index")
  /-- Slot `i` is the one whose port was printed. -/
  sock : ∀ (k j p : Nat) (l : Text), l ∈ printedLines (cmd_netif_list f).2 →
    words l = sockMark k ++ [decimal j, decimal p] →
    ∃ n i q, cmd_netif_by_index f.board k = some n ∧ onNetif f.board n i = true ∧
      (f.board.s_listeners i).pcb = some q ∧ (f.board.udp.pcbs q).local_port.toNat = p ∧
      (∀ env line, parse env line = .sock_close k j →
        cmd_dispatch f env line = (f.setBoard (remove_slot f.board i), answer "SOCKCLOSE" "OK")) ∧
      ∃ id, resolve f.board id = some i ∧
        ∀ env line dst port data, parse env line = .udp_send k j dst port data → 1 ≤ port ∧ port ≤ 65535 → data ≠ [] →
          (cmd_dispatch f env line).1 = f.setBoard (udp_source_data_send f.board id (some n) dst
            (UInt16.ofNat port.toNat) (some (data.map (fun c => UInt8.ofNat c.toNat))) (UInt16.ofNat data.length)
            env.alloc env.out).1
  no_sock : ∀ (k j : Int) (n : NetifPtr), cmd_netif_by_index f.board k = some n →
    (∀ (m p : Nat) (l : Text), (m : Int) = j → l ∈ printedLines (cmd_netif_list f).2 →
      words l ≠ sockMark k.toNat ++ [decimal m, decimal p]) →
    (∀ env line, parse env line = .sock_close k j →
      cmd_dispatch f env line = (f, answer "SOCKCLOSE" "ERR:bad_socket")) ∧
    ∀ env line dst port data, parse env line = .udp_send k j dst port data → 1 ≤ port ∧ port ≤ 65535 → data ≠ [] →
      cmd_dispatch f env line = (f, answer "UDPSEND" "ERR:bad_socket")
  count : ∀ (k c : Nat) (l ip mask gw : Text), l ∈ printedLines (cmd_netif_list f).2 →
    words l = netifMark k ++ [ip, mask, gw, "socks=".toList ++ decimal c] →
    (printedLines (cmd_netif_list f).2).countP (isSockLine k) = c
  menu : ∀ ch : UInt8, terminal_select_netif f.board ch = cmd_netif_by_index f.board ((ch.toNat : Int) - 48)

section

variable {f : Firmware}

theorem not_listed (h : Inv f) {k : Int}
    (hk : ∀ (m : Nat) (l : Text), (m : Int) = k → l ∈ printedLines (cmd_netif_list f).2 → ¬ netifMark m <+: words l) :
    (k < 1 ∨ k > f.board.net.list.length) ∧ cmd_netif_by_index f.board k = none := by
  have hnone : cmd_netif_by_index f.board k = none := by
    cases hn : cmd_netif_by_index f.board k with
    | none => rfl
    | some n =>
      have hm : ((k.toNat : Nat) : Int) = k := by
        have := (by_index_le hn).1
        omega
      obtain ⟨hl, hw⟩ := (printed_netif h (k := k.toNat)).mpr ⟨n, by rw [hm, hn], rfl⟩
      exact absurd hw (hk _ _ hm hl)
  refine ⟨?_, hnone⟩
  unfold cmd_netif_by_index at hnone
  split at hnone
  · exact Or.inl ‹_›
  · have := List.getElem?_eq_none_iff.mp hnone
    omega

theorem sock_close_slot {n : NetifPtr} {k j : Nat} {i : SlotIdx} {info : udp_netif_socket_info_t}
    (hn : cmd_netif_by_index f.board k = some n) (hj : nthSocket f.board n j = some info)
    (hi : resolve f.board info.socket_id = some i) (env : Env) {line : Text} (hc : parse env line = .sock_close k j) :
    cmd_dispatch f env line = (f.setBoard (remove_slot f.board i), answer "SOCKCLOSE" "OK") := by
  have hout : cmd_out "#END SOCKCLOSE OK\r\n" = endLine "SOCKCLOSE" "OK" := by decide
  rw [dispatch_body f env hc (by simp)]
  show after (beginLine "SOCKCLOSE") (sockClose f k j) = _
  simp only [sockClose, hn, hj, udp_source_remove_listener, hi, hout]
  rfl

theorem udp_send_slot {n : NetifPtr} {k j : Nat} {info : udp_netif_socket_info_t}
    (hn : cmd_netif_by_index f.board k = some n) (hj : nthSocket f.board n j = some info) (hnet : info.netif = some n)
    (env : Env) {line : Text} {dst : ip_addr_t} {port : Int} {data : Text}
    (hc : parse env line = .udp_send k j dst port data) (hport : 1 ≤ port ∧ port ≤ 65535) (hdata : data ≠ []) :
    (cmd_dispatch f env line).1 = f.setBoard (udp_source_data_send f.board info.socket_id (some n) dst
      (UInt16.ofNat port.toNat) (some (data.map (fun c => UInt8.ofNat c.toNat))) (UInt16.ofNat data.length)
      env.alloc env.out).1 := by
  rw [dispatch_body f env hc (by simp)]
  show (udpSend f env k j dst port data).1 = _
  simp only [udpSend, if_neg (show ¬ (port < 1 ∨ port > 65535) by omega), if_neg hdata, hn, hj, hnet]
  split <;> rfl

theorem no_socket {n : NetifPtr} {k j : Int} (hn : cmd_netif_by_index f.board k = some n)
    (hj : nthSocket f.board n j = none) :
    (∀ env line, parse env line = .sock_close k j →
      cmd_dispatch f env line = (f, answer "SOCKCLOSE" "ERR:bad_socket")) ∧
    ∀ env line dst port data, parse env line = .udp_send k j dst port data → 1 ≤ port ∧ port ≤ 65535 → data ≠ [] →
      cmd_dispatch f env line = (f, answer "UDPSEND" "ERR:bad_socket") := by
  have hclose : cmd_out "#END SOCKCLOSE ERR:bad_socket\r\n" = endLine "SOCKCLOSE" "ERR:bad_socket" := by decide
  have hsend : cmd_out "#END UDPSEND ERR:bad_socket\r\n" = endLine "UDPSEND" "ERR:bad_socket" := by decide
  constructor
  · intro env line hc
    rw [dispatch_body f env hc (by simp)]
    show after (beginLine "SOCKCLOSE") (sockClose f k j) = _
    simp only [sockClose, hn, hj, hclose]
    rfl
  · intro env line dst port data hc hport hdata
    rw [dispatch_body f env hc (by simp)]
    show after (beginLine "UDPSEND") (udpSend f env k j dst port data) = _
    simp only [udpSend, if_neg (show ¬ (port < 1 ∨ port > 65535) by omega), if_neg hdata, hn, hj, hsend]
    rfl

theorem Inv.addressed (h : Inv f) : Addressed f where
  netif k l hl hw := (printed_netif h).mp ⟨hl, hw⟩
  no_netif k hk := by
    obtain ⟨hrange, hnone⟩ := not_listed h hk
    refine ⟨hrange, hnone, fun env line hask => ?_⟩
    have hne : parse env line ≠ .unknown := by
      intro hu
      rw [hu] at hask
      exact hask
    rw [dispatch_body f env rfl hne, body_bad_index hnone env hask]
    rfl
  sock k j p l hl hw := by
    obtain ⟨n, i, hn, rfl, hi, -, hp⟩ := (printed_sock h).mp ⟨hl, hw⟩
    obtain ⟨s, hon, hres, hget⟩ := get_socket_slot f.board hi
    obtain ⟨r, hr⟩ := h.board.registry
    obtain ⟨q, hq⟩ := (hr.in_use_iff s).mp (onNetif_in_use hon)
    have hnth := nthSocket_of_lt f.board hi
    rw [hget] at hnth hp
    refine ⟨n, s, q, hn, hon, hq, ?_, fun env line hc => sock_close_slot hn hnth hres env hc,
      make_id f.board s, hres, fun env line dst port data hc hport hdata => udp_send_slot hn hnth rfl env hc hport hdata⟩
    rw [← hp]
    simp only [hq]
  no_sock k j n hn hno := by
    refine no_socket hn ?_
    unfold nthSocket
    split
    · rfl
    · rename_i hrange
      have hk := (by_index_le hn).1
      have hj : (((j - 1).toNat + 1 : Nat) : Int) = j := by omega
      have hprinted := (printed_sock h (k := k.toNat)).mpr ⟨n, (j - 1).toNat, by
        rw [Int.toNat_of_nonneg (by omega)]
        exact hn, rfl, by omega, rfl, rfl⟩
      exact absurd hprinted.2 (hno _ _ _ hj hprinted.1)
  count k c l ip mask gw hl hw := by
    obtain ⟨n, hn, rfl⟩ := (printed_netif h (k := k)).mp ⟨hl, by rw [hw]; exact List.prefix_append _ _⟩
    rw [words_netifText] at hw
    have hlast : "socks=".toList ++ decimal (udp_source_count_sockets f.board n) = "socks=".toList ++ decimal c := by
      have htail := congrArg List.getLast? hw
      simpa [netifMark] using htail
    rw [count_printed h hn]
    exact decimal_inj (List.append_cancel_left hlast)
  menu := select_eq_by_index f.board

end

/-- In every reachable state the printed numbers address what was printed beside them. -/
theorem listed_is_addressed (c : Boot) (es : List Event) (h : machine.Legal (boot c) es) :
    Addressed (machine.run (boot c) es) := (inv_reachable c h).addressed

/-- A second interface with two sockets. -/
def listedRun : List Event :=
  [.line sampleEnv "NETIF ADD 10.0.0.20 255.255.255.0 10.0.0.1".toList, .line sampleEnv "SOCK OPEN 1 5000".toList,
    .line sampleEnv "SOCK OPEN 1 6000".toList]

theorem listed_is_addressed_sample :
    machine.Legal (boot (.main ethzero true)) listedRun ∧ Addressed (machine.run (boot (.main ethzero true)) listedRun) := by
  have hlegal : machine.Legal (boot (.main ethzero true)) listedRun := by decide
  exact ⟨hlegal, listed_is_addressed _ _ hlegal⟩

end MultiIp.Firmware

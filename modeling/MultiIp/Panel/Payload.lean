import MultiIp.Board.Arguments
import MultiIp.Board.Fragments

/-!
# The payload of UDP SEND

The panel writes the payload at the end of a command line. It crosses the main
loop, the line buffer and `sscanf`; it arrives whole exactly if it holds no
`q`, starts with no blank, and the line fits the buffer.
-/

namespace MultiIp.Panel

open Lib Wire Lwip Board Firmware Console

/-! ## The command -/

/-- `$"UDP SEND {n.Index} {sock.Nth} {ip} {dstPort} {data}"` up to the data. -/
def sendHeader (k j : Nat) (dst : ip_addr_t) (port : Nat) : Text :=
  "UDP SEND ".toList ++ (decimal k ++ ' ' :: (decimal j ++ ' ' :: (ipaddr_ntoa dst ++ ' ' :: (decimal port ++ [' ']))))

def sendCommand (k j : Nat) (dst : ip_addr_t) (port : Nat) (data : Text) : Text := sendHeader k j dst port ++ data

def toBytes (data : Text) : List UInt8 := data.map (fun c => UInt8.ofNat c.toNat)

/-- The arguments of a call of `udp_source_data_send`. -/
structure SendCall where
  socket_id : udp_sock_id_t
  tx_netif : Option NetifPtr
  ip_addr_rx : ip_addr_t
  port_number : UInt16
  data : List UInt8
  data_len : UInt16
  deriving DecidableEq

def SendCall.run (call : SendCall) (b : Board) (env : Env) : Board × err_t :=
  udp_source_data_send b call.socket_id call.tx_netif call.ip_addr_rx call.port_number (some call.data) call.data_len
    env.alloc env.out

/-- The call that a command makes, if it makes one. -/
def sendCall (b : Board) : Command → Option SendCall
  | .udp_send idx nth dst port data =>
    if port < 1 ∨ port > 65535 ∨ data = [] then none
    else do
      let n ← cmd_netif_by_index b idx
      let sock ← nthSocket b n nth
      return ⟨sock.socket_id, sock.netif, dst, UInt16.ofNat port.toNat, toBytes data, UInt16.ofNat data.length⟩
  | _ => none

/-- `UDP SEND` changes the board by this call only, and answers OK if the call does. -/
theorem udpSend_eq_call (f : Firmware) (env : Env) (idx nth : Int) (dst : ip_addr_t) (port : Int) (data : Text) :
    (sendCall f.board (.udp_send idx nth dst port data) = none ∧ (udpSend f env idx nth dst port data).1 = f) ∨
    ∃ call, sendCall f.board (.udp_send idx nth dst port data) = some call ∧
      udpSend f env idx nth dst port data = (f.setBoard (call.run f.board env).1,
        if (call.run f.board env).2 ≠ .ERR_OK then cmd_out "#END UDPSEND ERR:send_failed\r\n"
        else cmd_out "#END UDPSEND OK\r\n") := by
  unfold udpSend sendCall
  dsimp only
  by_cases hport : port < 1 ∨ port > 65535
  · refine Or.inl ⟨by rw [if_pos (by tauto)], by rw [if_pos hport]⟩
  · by_cases hdata : data = []
    · refine Or.inl ⟨by rw [if_pos (by tauto)], by rw [if_neg hport, if_pos hdata]⟩
    · simp only [if_neg hport, if_neg hdata, if_neg (show ¬ (port < 1 ∨ port > 65535 ∨ data = []) by tauto)]
      cases hn : cmd_netif_by_index f.board idx with
      | none => exact Or.inl ⟨rfl, rfl⟩
      | some n =>
        cases hsock : nthSocket f.board n nth with
        | none => exact Or.inl ⟨by simp [hsock], by simp [hsock]⟩
        | some sock =>
          refine Or.inr ⟨_, by simp only [Option.bind_eq_bind, Option.bind_some, hsock]; rfl, ?_⟩
          dsimp only [SendCall.run, toBytes]
          rw [hsock]
          dsimp only
          split
          · rename_i herr
            exact Prod.ext rfl (if_pos herr).symm
          · rename_i hok
            exact Prod.ext rfl (if_neg hok).symm

/-! ## Reading the command -/

/-- The board reads the numbers and the address back, and skips the blanks before the data. -/
theorem parse_send (env : Env) {k j port : Nat} (hk : k ≤ 65535) (hj : j ≤ 65535) (hport : port ≤ 65535)
    (dst : ip_addr_t) (data : Text) :
    parse env (sendCommand k j dst port data) = .udp_send k j dst port (skipSpace data) := by
  have hspace : ∀ c ∈ decimal port, isSpace c = false := fun c hc => isSpace_of_isDigit (isDigit_of_mem_decimal hc)
  have hargs := udp_send_args_token env hk hj dst hspace (intToken_decimal port) hport data
  have hcut : sendCommand k j dst port data = "UDP SEND ".toList ++ (decimal k ++ ' ' :: (decimal j ++ ' ' ::
      (ipaddr_ntoa dst ++ ' ' :: (decimal port ++ ' ' :: data)))) := by
    have h : ∀ p a b c d : Text, p ++ (a ++ ' ' :: (b ++ ' ' :: (c ++ ' ' :: (d ++ [' '])))) ++ data =
        p ++ (a ++ ' ' :: (b ++ ' ' :: (c ++ ' ' :: (d ++ ' ' :: data)))) := by
      intro p a b c d
      simp
    exact h _ _ _ _ _
  rw [hcut]
  rw [parse_udp_send, hargs]
  rfl

/-! ## Through the main loop -/

def isInput : Console.Step → Prop
  | .key _ | .menu _ => True
  | _ => False

/-- The call that sends the data from the `j`-th socket of the interface. -/
def callOf (b : Board) (n : NetifPtr) (j : Nat) (dst : ip_addr_t) (port : Nat) (data : Text) : SendCall where
  socket_id := (udp_source_get_socket b n (UInt8.ofNat (j - 1))).socket_id
  tx_netif := some n
  ip_addr_rx := dst
  port_number := UInt16.ofNat port
  data := toBytes data
  data_len := UInt16.ofNat data.length

/-- However the main loop receives the command from an empty line buffer, it dispatches one line, and that
line sends the data from the `j`-th socket of the interface. -/
def Transparent (f : Firmware) (n : NetifPtr) (k j : Nat) (dst : ip_addr_t) (port : Nat) (data : Text) : Prop :=
  ∀ es : List Console.Step, (∀ e ∈ es, isInput e) →
    Console.machine.Legal (Console.init { f with cmd_line := [] } (sendCommand k j dst port data ++ ['\r'])) es →
    (Console.machine.run (Console.init { f with cmd_line := [] } (sendCommand k j dst port data ++ ['\r'])) es).rx = [] →
    ∃ d, (Console.machine.run (Console.init { f with cmd_line := [] } (sendCommand k j dst port data ++ ['\r']))
        es).dispatched = [d] ∧
      sendCall d.firmware.board (parse d.env d.line) = some (callOf f.board n j dst port data)

/-- A command without the key `q` is on its way, or was dispatched. -/
def Sending (f : Firmware) (w : Text) (s : Console) : Prop :=
  s.terminal_input_flag = false ∧
    ((∃ t, w = s.fed ++ t ∧ s.rx = t ++ ['\r'] ∧ s.dispatched = [] ∧
        s.firmware = { f with cmd_line := s.fed.take (CMD_LINE_MAX - 1) }) ∨
      (s.rx = [] ∧ ∃ env, s.dispatched = [⟨{ f with cmd_line := w.take (CMD_LINE_MAX - 1) }, env, cutLine w⟩]))

theorem Sending.key {f : Firmware} {w : Text} (hw : IsHostLine w) (hne : w ≠ []) {s : Console} (h : Sending f w s)
    (env : Env) : Sending f w (s.step (.key env)) := by
  obtain ⟨hflag, ⟨t, hcut, hrx, hd, hf⟩ | ⟨hrx, henv⟩⟩ := h
  · cases t with
    | nil =>
      rw [List.append_nil] at hcut
      rw [List.nil_append] at hrx
      have hstep : s.step (.key env) = { s with rx := [] }.feed env '\r' := by
        simp only [Console.step, hrx]
        rfl
      rw [hstep]
      refine ⟨hflag, Or.inr ⟨rfl, env, ?_⟩⟩
      show s.dispatched ++ dispatchOf s.firmware env '\r' = _
      have hlen : (w.take (CMD_LINE_MAX - 1)).length > 0 := by
        have hpos := List.length_pos_of_ne_nil hne
        have hmax : CMD_LINE_MAX = 128 := rfl
        rw [List.length_take]
        omega
      rw [hd, List.nil_append, hf, ← hcut, dispatchOf, if_pos ⟨rfl, hlen⟩]
      rfl
    | cons c t =>
      obtain ⟨hend, hq⟩ := hw c (by rw [hcut]; simp)
      have hstep : s.step (.key env) = { s with rx := t ++ ['\r'] }.feed env c := by
        simp only [Console.step, hrx, List.cons_append]
        rw [if_neg hq]
      rw [hstep]
      refine ⟨hflag, Or.inl ⟨t, ?_, rfl, ?_, ?_⟩⟩
      · show w = s.fed ++ [c] ++ t
        rw [hcut, List.append_assoc, List.singleton_append]
      · show s.dispatched ++ dispatchOf s.firmware env c = []
        rw [hd, dispatchOf, if_neg (by simp [hend])]
        rfl
      · show (cmd_channel_feed s.firmware env c).1 = _
        have hline : s.firmware.cmd_line = s.fed.take (CMD_LINE_MAX - 1) := by rw [hf]
        rw [feed_byte env hend hline, hf]
        rfl
  · have hstep : s.step (.key env) = s := by simp only [Console.step, hrx]
    rw [hstep]
    exact ⟨hflag, Or.inr ⟨hrx, henv⟩⟩

theorem sending_run {f : Firmware} {w : Text} (hw : IsHostLine w) (hne : w ≠ []) {es : List Console.Step}
    (hes : ∀ e ∈ es, isInput e) {s : Console} (hs : Sending f w s) (hl : Console.machine.Legal s es) :
    Sending f w (Console.machine.run s es) := by
  induction es generalizing s with
  | nil => exact hs
  | cons e es ih =>
    refine ih (fun e he => hes e (List.mem_cons_of_mem _ he)) ?_ hl.2
    cases e with
    | key env => exact hs.key hw hne env
    | menu eaten =>
      have hflag : s.terminal_input_flag = true := hl.1
      rw [hs.1] at hflag
      cases hflag
    | button | call _ | interrupt _ => exact (hes _ List.mem_cons_self).elim

/-- The main loop can read any part of a line that holds no `q`. -/
theorem keys_run {t : Text} (ht : IsHostLine t) (env : Env) {s : Console} (hflag : s.terminal_input_flag = false)
    {r : Text} (hrx : s.rx = t ++ r) :
    Console.machine.Legal s (List.replicate t.length (.key env)) ∧
    (Console.machine.run s (List.replicate t.length (.key env))).rx = r ∧
    (Console.machine.run s (List.replicate t.length (.key env))).terminal_input_flag = false ∧
    (Console.machine.run s (List.replicate t.length (.key env))).dispatched = s.dispatched := by
  induction t generalizing s with
  | nil => exact ⟨trivial, hrx, hflag, rfl⟩
  | cons c t ih =>
    obtain ⟨hend, hq⟩ := ht c List.mem_cons_self
    have hstep : s.step (.key env) = { s with rx := t ++ r }.feed env c := by
      simp only [Console.step, hrx, List.cons_append]
      rw [if_neg hq]
    have hd : (s.step (.key env)).dispatched = s.dispatched := by
      rw [hstep]
      show s.dispatched ++ dispatchOf s.firmware env c = _
      rw [dispatchOf, if_neg (by simp [hend]), List.append_nil]
    obtain ⟨hl, hrx', hflag', hd'⟩ := ih (fun c hc => ht c (List.mem_cons_of_mem _ hc)) (s := s.step (.key env))
      (by rw [hstep]; exact hflag) (by rw [hstep]; rfl)
    exact ⟨⟨hflag, hl⟩, hrx', hflag', hd'.trans hd⟩

/-! ## What is sent -/

theorem header_length {k j port : Nat} (hk : k < 1000) (hj : j < 1000) (hport : port ≤ 65535) (dst : ip_addr_t) :
    (sendHeader k j dst port).length ≤ 40 := by
  have h1 : (decimal k).length ≤ 3 := decimal_length_le (by decide) hk
  have h2 : (decimal j).length ≤ 3 := decimal_length_le (by decide) hj
  have h3 : (decimal port).length ≤ 5 := decimal_length_le (by decide) (by omega)
  have h4 := ipaddr_ntoa_length dst
  have h : ∀ p a b c d : Text, p.length = 9 → a.length ≤ 3 → b.length ≤ 3 → c.length ≤ 15 → d.length ≤ 5 →
      (p ++ (a ++ ' ' :: (b ++ ' ' :: (c ++ ' ' :: (d ++ [' ']))))).length ≤ 40 := by
    intro p a b c d hp ha hb hc hd
    simp only [List.length_append, List.length_cons, List.length_nil]
    omega
  exact h _ _ _ _ _ rfl h1 h2 h4 h3

theorem header_printable (k j : Nat) (dst : ip_addr_t) (port : Nat) :
    ∀ c ∈ sendHeader k j dst port, isPrintable c = true ∧ c ≠ 'q' := by
  have hlit : ∀ c ∈ "UDP SEND ".toList, isPrintable c = true ∧ c ≠ 'q' := by
    have hall : "UDP SEND ".toList.all (fun c => isPrintable c && c != 'q') = true := by decide
    intro c hc
    simpa using List.all_eq_true.mp hall c hc
  have hdec : ∀ (m : Nat), ∀ c ∈ decimal m, isPrintable c = true ∧ c ≠ 'q' := by
    intro m c hc
    refine ⟨printable_decimal m c hc, ?_⟩
    rintro rfl
    exact not_mem_decimal (by decide) hc
  have hip : ∀ c ∈ ipaddr_ntoa dst, isPrintable c = true ∧ c ≠ 'q' := by
    intro c hc
    refine ⟨printable_ntoa dst c hc, ?_⟩
    rintro rfl
    rcases mem_ipaddr_ntoa hc with h | h
    · exact absurd h (by decide)
    · exact absurd h (by decide)
  have hblank : isPrintable ' ' = true ∧ ' ' ≠ 'q' := by decide
  have h : ∀ p a b c d : Text, (∀ x ∈ p, isPrintable x = true ∧ x ≠ 'q') → (∀ x ∈ a, isPrintable x = true ∧ x ≠ 'q') →
      (∀ x ∈ b, isPrintable x = true ∧ x ≠ 'q') → (∀ x ∈ c, isPrintable x = true ∧ x ≠ 'q') →
      (∀ x ∈ d, isPrintable x = true ∧ x ≠ 'q') →
      ∀ x ∈ p ++ (a ++ ' ' :: (b ++ ' ' :: (c ++ ' ' :: (d ++ [' '])))), isPrintable x = true ∧ x ≠ 'q' := by
    intro p a b c d hp ha hb hc hd x hx
    simp only [List.mem_append, List.mem_cons, List.not_mem_nil, or_false] at hx
    rcases hx with hx | hx | rfl | hx | rfl | hx | rfl | hx | rfl
    · exact hp x hx
    · exact ha x hx
    · exact hblank
    · exact hb x hx
    · exact hblank
    · exact hc x hx
    · exact hblank
    · exact hd x hx
    · exact hblank
  exact h _ _ _ _ _ hlit (hdec k) (hdec j) hip (hdec port)

theorem isEnd_of_printable {c : Char} (h : isPrintable c = true) : isEnd c = false := by
  rw [isPrintable_iff] at h
  simp only [isEnd, Bool.or_eq_false_iff, beq_eq_false_iff_ne]
  constructor
  · rintro rfl
    exact absurd h (by decide)
  · rintro rfl
    exact absurd h (by decide)

/-- What is left of the command in the line buffer: its header and the first part of the data. -/
theorem cutLine_send {k j port : Nat} (hk : k < 1000) (hj : j < 1000) (hport : port ≤ 65535) (dst : ip_addr_t)
    {data : Text} (hdata : ∀ c ∈ data, isPrintable c = true) :
    cutLine (sendCommand k j dst port data) =
      sendCommand k j dst port (data.take (CMD_LINE_MAX - 1 - (sendHeader k j dst port).length)) := by
  have hlen := header_length hk hj hport dst
  have hmax : CMD_LINE_MAX = 128 := rfl
  have htake : (sendCommand k j dst port data).take (CMD_LINE_MAX - 1) =
      sendCommand k j dst port (data.take (CMD_LINE_MAX - 1 - (sendHeader k j dst port).length)) := by
    rw [sendCommand, List.take_append, List.take_of_length_le (by omega)]
    rfl
  have hfits : Fits ((sendCommand k j dst port data).take (CMD_LINE_MAX - 1)) := by
    refine ⟨by rw [List.length_take]; omega, fun hnul => ?_⟩
    have hpr : isPrintable '\x00' = true := by
      rcases List.mem_append.mp (List.mem_of_mem_take hnul) with hc | hc
      · exact (header_printable k j dst port _ hc).1
      · exact hdata _ hc
    exact absurd hpr (by decide)
  have hself := cutLine_of_fits hfits
  rw [cutLine, List.take_take, Nat.min_self] at hself
  rw [cutLine, hself, htake]

section

variable {f : Firmware} {n : NetifPtr} {k j port : Nat}

theorem sendCall_send (hk : cmd_netif_by_index f.board k = some n) (hj : 1 ≤ j ∧ j ≤ udp_source_count_sockets f.board n)
    (hport : 1 ≤ port ∧ port ≤ 65535) (env : Env) (dst : ip_addr_t) (data : Text) :
    sendCall f.board (parse env (sendCommand k j dst port data)) =
      if skipSpace data = [] then none else some (callOf f.board n j dst port (skipSpace data)) := by
  have hcount := count_le f.board n
  obtain ⟨-, hk'⟩ := by_index_le hk
  have hnc : netifCount = 8 := rfl
  rw [parse_send env (by omega) (by omega) hport.2]
  by_cases hnil : skipSpace data = []
  · rw [if_pos hnil, sendCall, if_pos (Or.inr (Or.inr hnil))]
  · have hnth : nthSocket f.board n (j : Int) = some (udp_source_get_socket f.board n (UInt8.ofNat (j - 1))) := by
      rw [nthSocket, if_neg (by omega)]
      congr 3
      omega
    have hnetif : (udp_source_get_socket f.board n (UInt8.ofNat (j - 1))).netif = some n := by
      have hbyte : (UInt8.ofNat (j - 1)).toNat = j - 1 := by
        rw [UInt8.toNat_ofNat']
        omega
      have hlt : j - 1 < (socketsOn f.board n).length := by
        show j - 1 < udp_source_count_sockets f.board n
        omega
      rw [udp_source_get_socket, hbyte, List.getElem?_eq_getElem hlt]
    have hargs : ¬ ((port : Int) < 1 ∨ (port : Int) > 65535 ∨ skipSpace data = []) := by
      rintro (h | h | h)
      · omega
      · omega
      · exact hnil h
    rw [if_neg hnil, sendCall, if_neg hargs]
    simp only [hk, hnth, Option.bind_eq_bind, Option.bind_some, hnetif, Int.toNat_natCast]
    rfl

theorem isHostLine_send (dst : ip_addr_t) {data : Text} (hdata : ∀ c ∈ data, isPrintable c = true) (hq : 'q' ∉ data) :
    IsHostLine (sendCommand k j dst port data) := by
  intro c hc
  rcases List.mem_append.mp hc with hc | hc
  · obtain ⟨hpr, hne⟩ := header_printable k j dst port c hc
    exact ⟨isEnd_of_printable hpr, hne⟩
  · refine ⟨isEnd_of_printable (hdata c hc), ?_⟩
    rintro rfl
    exact hq hc

theorem sendCommand_ne_nil (dst : ip_addr_t) (data : Text) : sendCommand k j dst port data ≠ [] := by
  intro h
  have hcut : sendCommand k j dst port data = 'U' :: (sendCommand k j dst port data).tail := rfl
  rw [h] at hcut
  cases hcut

/-- Without a `q`, what the board sends is what is left of the data in the line buffer. -/
theorem send_without_key (hk : cmd_netif_by_index f.board k = some n)
    (hj : 1 ≤ j ∧ j ≤ udp_source_count_sockets f.board n) (hport : 1 ≤ port ∧ port ≤ 65535) (dst : ip_addr_t)
    {data : Text} (hdata : ∀ c ∈ data, isPrintable c = true) (hq : 'q' ∉ data) {es : List Console.Step}
    (hes : ∀ e ∈ es, isInput e)
    (hl : Console.machine.Legal (Console.init { f with cmd_line := [] } (sendCommand k j dst port data ++ ['\r'])) es)
    (hrx : (Console.machine.run (Console.init { f with cmd_line := [] } (sendCommand k j dst port data ++ ['\r']))
      es).rx = []) :
    ∃ d, (Console.machine.run (Console.init { f with cmd_line := [] } (sendCommand k j dst port data ++ ['\r']))
        es).dispatched = [d] ∧
      sendCall d.firmware.board (parse d.env d.line) =
        if skipSpace (data.take (CMD_LINE_MAX - 1 - (sendHeader k j dst port).length)) = [] then none
        else some (callOf f.board n j dst port
          (skipSpace (data.take (CMD_LINE_MAX - 1 - (sendHeader k j dst port).length)))) := by
  have hcount := count_le f.board n
  obtain ⟨-, hk'⟩ := by_index_le hk
  have hnc : netifCount = 8 := rfl
  have hstart : Sending f (sendCommand k j dst port data)
      (Console.init { f with cmd_line := [] } (sendCommand k j dst port data ++ ['\r'])) :=
    ⟨rfl, Or.inl ⟨_, rfl, rfl, rfl, rfl⟩⟩
  obtain ⟨-, ⟨t, -, hrx', -⟩ | ⟨-, env, hd⟩⟩ :=
    sending_run (isHostLine_send dst hdata hq) (sendCommand_ne_nil dst data) hes hstart hl
  · rw [hrx] at hrx'
    simp at hrx'
  · refine ⟨_, hd, ?_⟩
    dsimp only
    rw [cutLine_send (by omega) (by omega) hport.2 dst hdata]
    exact sendCall_send hk hj hport env dst _

theorem skipSpace_eq_self {data : Text} (hdata : ∀ c ∈ data, isPrintable c = true) :
    skipSpace data = data ↔ data.head? ≠ some ' ' := by
  cases data with
  | nil => simp [skipSpace]
  | cons c t =>
    have hspace : isSpace c = true ↔ c = ' ' := by
      have hpr := isPrintable_iff.mp (hdata c List.mem_cons_self)
      constructor
      · intro h
        simp only [isSpace, Bool.or_eq_true, beq_iff_eq, Bool.and_eq_true, decide_eq_true_eq] at h
        rcases h with h | h
        · exact h
        · omega
      · rintro rfl
        rfl
    rw [List.head?_cons, ne_eq, Option.some_inj, ← hspace]
    constructor
    · intro h hc
      have hlen := congrArg List.length h
      rw [skipSpace, List.dropWhile_cons_of_pos hc] at hlen
      have hle := (List.dropWhile_suffix isSpace (l := t)).length_le
      rw [List.length_cons] at hlen
      omega
    · intro hc
      exact List.dropWhile_cons_of_neg hc

theorem transparent_of (hk : cmd_netif_by_index f.board k = some n)
    (hj : 1 ≤ j ∧ j ≤ udp_source_count_sockets f.board n) (hport : 1 ≤ port ∧ port ≤ 65535) (dst : ip_addr_t)
    {data : Text} (hne : data ≠ []) (hdata : ∀ c ∈ data, isPrintable c = true) (hq : 'q' ∉ data)
    (hblank : data.head? ≠ some ' ') (hlen : (sendCommand k j dst port data).length ≤ CMD_LINE_MAX - 1) :
    Transparent f n k j dst port data := by
  intro es hes hl hrx
  obtain ⟨d, hd, hcall⟩ := send_without_key hk hj hport dst hdata hq hes hl hrx
  rw [sendCommand, List.length_append] at hlen
  rw [List.take_of_length_le (by omega), (skipSpace_eq_self hdata).mpr hblank, if_neg hne] at hcall
  exact ⟨d, hd, hcall⟩

/-- The key `q` opens the menu, which may eat the rest of the command. -/
theorem not_transparent_of_key (dst : ip_addr_t) {data : Text} (hdata : ∀ c ∈ data, isPrintable c = true)
    (hq : 'q' ∈ data) : ¬ Transparent f n k j dst port data := by
  intro h
  obtain ⟨a, b, rfl, ha⟩ := List.eq_append_cons_of_mem hq
  have hrx : (Console.init { f with cmd_line := [] } (sendCommand k j dst port (a ++ 'q' :: b) ++ ['\r'])).rx =
      sendCommand k j dst port a ++ 'q' :: (b ++ ['\r']) := by
    show sendHeader k j dst port ++ (a ++ 'q' :: b) ++ ['\r'] = sendHeader k j dst port ++ a ++ _
    simp only [List.append_assoc, List.cons_append]
  have hhost : IsHostLine (sendCommand k j dst port a) :=
    isHostLine_send dst (fun c hc => hdata c (List.mem_append_left _ hc)) ha
  obtain ⟨hl, hrx', hflag, hd⟩ := keys_run hhost sampleEnv rfl hrx
  -- The keys up to `q`, and the menu that eats all that follows.
  have hkey : (Console.machine.run (Console.init { f with cmd_line := [] }
      (sendCommand k j dst port (a ++ 'q' :: b) ++ ['\r'])) (List.replicate (sendCommand k j dst port a).length
        (.key sampleEnv) ++ [.key sampleEnv, .menu (b ++ ['\r']).length])).rx = [] ∧
      (Console.machine.run (Console.init { f with cmd_line := [] } (sendCommand k j dst port (a ++ 'q' :: b) ++ ['\r']))
        (List.replicate (sendCommand k j dst port a).length (.key sampleEnv) ++
          [.key sampleEnv, .menu (b ++ ['\r']).length])).dispatched = [] ∧
      Console.machine.Legal (Console.init { f with cmd_line := [] } (sendCommand k j dst port (a ++ 'q' :: b) ++ ['\r']))
        (List.replicate (sendCommand k j dst port a).length (.key sampleEnv) ++
          [.key sampleEnv, .menu (b ++ ['\r']).length]) := by
    rw [Machine.run_append, Machine.legal_append]
    generalize Console.machine.run _ (List.replicate (sendCommand k j dst port a).length (.key sampleEnv)) = s
      at hrx' hflag hd ⊢
    have hstep : s.step (.key sampleEnv) = { s with rx := b ++ ['\r'], terminal_input_flag := true } := by
      simp only [Console.step, hrx', if_true]
    rw [Machine.run_cons, Machine.run_cons, Machine.run_nil]
    show ((s.step (.key sampleEnv)).step (.menu (b ++ ['\r']).length)).rx = [] ∧ _
    rw [show Console.machine.step s (.key sampleEnv) = s.step (.key sampleEnv) from rfl, hstep]
    refine ⟨List.drop_length, hd, hl, hflag, ?_⟩
    rw [show Console.machine.step s (.key sampleEnv) = s.step (.key sampleEnv) from rfl, hstep]
    exact ⟨rfl, trivial⟩
  obtain ⟨hrx, hd, hl⟩ := hkey
  obtain ⟨d, hone, -⟩ := h _ (by
    intro e he
    simp only [List.mem_append, List.mem_replicate, List.mem_cons, List.not_mem_nil, or_false] at he
    rcases he with ⟨-, rfl⟩ | rfl | rfl <;> trivial) hl hrx
  rw [hd] at hone
  cases hone

theorem keys_whole {w : Text} (hw : IsHostLine w) (f : Firmware) :
    Console.machine.Legal (Console.init { f with cmd_line := [] } (w ++ ['\r']))
      (List.replicate w.length (.key sampleEnv) ++ [.key sampleEnv]) ∧
    (Console.machine.run (Console.init { f with cmd_line := [] } (w ++ ['\r']))
      (List.replicate w.length (.key sampleEnv) ++ [.key sampleEnv])).rx = [] := by
  obtain ⟨hl, hrx, hflag, -⟩ := keys_run hw sampleEnv
    (s := Console.init { f with cmd_line := [] } (w ++ ['\r'])) rfl rfl
  rw [Machine.run_append, Machine.legal_append]
  generalize Console.machine.run _ (List.replicate w.length (.key sampleEnv)) = s at hrx hflag ⊢
  refine ⟨⟨hl, hflag, trivial⟩, ?_⟩
  show (s.step (.key sampleEnv)).rx = []
  simp only [Console.step, hrx]
  rfl

/-- What a transparent command looks like. -/
theorem Transparent.condition (hk : cmd_netif_by_index f.board k = some n)
    (hj : 1 ≤ j ∧ j ≤ udp_source_count_sockets f.board n) (hport : 1 ≤ port ∧ port ≤ 65535) {dst : ip_addr_t}
    {data : Text} (hdata : ∀ c ∈ data, isPrintable c = true) (h : Transparent f n k j dst port data) :
    'q' ∉ data ∧ data.head? ≠ some ' ' ∧ (sendCommand k j dst port data).length ≤ CMD_LINE_MAX - 1 := by
  have hq : 'q' ∉ data := fun hq => not_transparent_of_key dst hdata hq h
  have hes : ∀ e ∈ List.replicate (sendCommand k j dst port data).length (Console.Step.key sampleEnv) ++
      [.key sampleEnv], isInput e := by
    intro e he
    simp only [List.mem_append, List.mem_replicate, List.mem_singleton] at he
    rcases he with ⟨-, rfl⟩ | rfl <;> trivial
  obtain ⟨hl, hrx⟩ := keys_whole (isHostLine_send dst hdata hq) f
  obtain ⟨d, hd, hcall⟩ := h _ hes hl hrx
  obtain ⟨d', hd', hcall'⟩ := send_without_key hk hj hport dst hdata hq hes hl hrx
  obtain rfl : d = d' := List.singleton_inj.mp (hd.symm.trans hd')
  generalize hm : CMD_LINE_MAX - 1 - (sendHeader k j dst port).length = m at hcall'
  -- As many bytes are sent as there were, so nothing was cut off at either end.
  have hlength : (skipSpace (data.take m)).length = data.length := by
    rw [hcall] at hcall'
    split at hcall'
    · cases hcall'
    · have hbytes := congrArg (fun c => c.data.length) (Option.some.inj hcall')
      simpa [callOf, toBytes] using hbytes.symm
  have hskip : (skipSpace (data.take m)).length ≤ (data.take m).length :=
    (List.dropWhile_suffix isSpace).length_le
  have htake : data.length ≤ m := by
    rw [List.length_take] at hskip
    omega
  rw [List.take_of_length_le htake] at hlength
  have hself : skipSpace data = data := (List.dropWhile_suffix isSpace).eq_of_length hlength
  refine ⟨hq, (skipSpace_eq_self hdata).mp hself, ?_⟩
  have hklt : k < 1000 := by
    obtain ⟨-, hk'⟩ := by_index_le hk
    have hnc : netifCount = 8 := rfl
    omega
  have hjlt : j < 1000 := by
    have hcount := count_le f.board n
    omega
  have hhead := header_length hklt hjlt hport.2 dst
  have hmax : CMD_LINE_MAX = 128 := rfl
  rw [sendCommand, List.length_append]
  omega

end

/-- One socket on the first interface, at port 5000. -/
def oneSocket : Firmware := (Firmware.boot (.main ethzero true)).setBoard firstSocket

end MultiIp.Panel

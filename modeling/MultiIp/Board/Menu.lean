import MultiIp.Board.Arguments
import MultiIp.Board.Bindings
import MultiIp.Board.OpenOutcome
import MultiIp.Lwip.RxPbuf

/-!
# Ports at the menu

Two options of the menu ask for a port: a line is typed, and `atoi` of it is
cast to a `u16_t`. The commands for the same calls check the range of the `int`.
-/

namespace MultiIp.Firmware

open Board Lwip Lib Wire

/-! ## The line editor -/

abbrev CMD_BUFFER_SIZE : Nat := 32

/-- The `len` bytes of the buffer, and the position of the cursor. -/
structure EditLine where
  buf : Text
  pos : Nat

namespace EditLine

/-- A character goes in at the cursor; a full buffer ignores it. -/
def insert (max_len : Nat) (l : EditLine) (ch : Char) : EditLine :=
  if l.buf.length < max_len - 1 then ⟨l.buf.take l.pos ++ ch :: l.buf.drop l.pos, l.pos + 1⟩ else l

def backspace (l : EditLine) : EditLine := if l.pos > 0 then ⟨l.buf.eraseIdx (l.pos - 1), l.pos - 1⟩ else l

def delete (l : EditLine) : EditLine := if l.pos < l.buf.length then ⟨l.buf.eraseIdx l.pos, l.pos⟩ else l

def left (l : EditLine) : EditLine := if l.pos > 0 then { l with pos := l.pos - 1 } else l

def right (l : EditLine) : EditLine := if l.pos < l.buf.length then { l with pos := l.pos + 1 } else l

end EditLine

/-- Where `fetch_input` waits for the next byte: for a key, after ESC, after `[`, or for the `~` of Delete or Home. -/
inductive Awaited
  | key
  | escape
  | sequence
  | tilde (delete : Bool)

/-- The loop of `fetch_input`: the buffer at the end of the line and what is received after that, or `none` while
it waits for more. -/
def fetch_input_loop (max_len : Nat) : Awaited → EditLine → Text → Option (Text × Text)
  | _, _, [] => none
  | .key, l, ch :: rx =>
    if ch = '\r' ∨ ch = '\n' then some (l.buf, rx)
    else if ch = '\x7f' ∨ ch = '\x08' then fetch_input_loop max_len .key l.backspace rx
    else if ch = '\x1b' then fetch_input_loop max_len .escape l rx
    else fetch_input_loop max_len .key (l.insert max_len ch) rx
  | .escape, l, seq :: rx => fetch_input_loop max_len (if seq = '[' then .sequence else .key) l rx
  | .sequence, l, seq :: rx =>
    if seq = 'D' then fetch_input_loop max_len .key l.left rx
    else if seq = 'C' then fetch_input_loop max_len .key l.right rx
    else if seq = '3' then fetch_input_loop max_len (.tilde true) l rx
    else fetch_input_loop max_len (if '0' ≤ seq ∧ seq ≤ '9' then .tilde false else .key) l rx
  | .tilde delete, l, _ :: rx => fetch_input_loop max_len .key (if delete then l.delete else l) rx

/-- What is received at a prompt, and the interrupts until the line is complete. -/
structure Prompt where
  rx : Text
  is : List Interrupt

/-- What was received before the prompt is dropped. The buffer is read as a C string. -/
def fetch_input (max_len : Nat) (f : Firmware) (p : Prompt) : Option (Firmware × Text) :=
  (fetch_input_loop max_len .key ⟨[], 0⟩ p.rx).map (fun r => (f.interrupts p.is, r.1.takeWhile (· ≠ '\x00')))

/-- The keys that `fetch_input` does not store, and the end of a C string. -/
def isEditKey (c : Char) : Bool := ['\r', '\n', '\x7f', '\x08', '\x1b', '\x00'].contains c

theorem isEditKey_key {c : Char} (h : isEditKey c = false) (max_len : Nat) (l : EditLine) (rx : Text) :
    fetch_input_loop max_len .key l (c :: rx) = fetch_input_loop max_len .key (l.insert max_len c) rx := by
  simp only [isEditKey, List.contains_eq_mem, List.mem_cons, List.not_mem_nil, or_false, decide_eq_false_iff_not,
    not_or] at h
  obtain ⟨hcr, hlf, hdel, hbs, hesc, -⟩ := h
  rw [fetch_input_loop, if_neg (by simp [hcr, hlf]), if_neg (by simp [hdel, hbs]), if_neg hesc]

theorem insert_end (max_len : Nat) (buf : Text) (c : Char) :
    EditLine.insert max_len ⟨buf, buf.length⟩ c =
      if buf.length < max_len - 1 then ⟨buf ++ [c], (buf ++ [c]).length⟩ else ⟨buf, buf.length⟩ := by
  simp [EditLine.insert]

theorem fetch_input_loop_text (max_len : Nat) {t : Text} (ht : ∀ c ∈ t, isEditKey c = false) (buf rx : Text) :
    fetch_input_loop max_len .key ⟨buf, buf.length⟩ (t ++ '\r' :: rx) =
      some (buf ++ t.take (max_len - 1 - buf.length), rx) := by
  induction t generalizing buf with
  | nil => simp [fetch_input_loop]
  | cons c t ih =>
    have htail : ∀ c ∈ t, isEditKey c = false := fun c hc => ht c (List.mem_cons_of_mem _ hc)
    rw [List.cons_append, isEditKey_key (ht c List.mem_cons_self), insert_end]
    split
    · rename_i hroom
      have hcut : max_len - 1 - buf.length = max_len - 1 - (buf ++ [c]).length + 1 := by
        rw [List.length_append, List.length_singleton]
        omega
      rw [ih htail, hcut, List.take_succ_cons, List.append_assoc]
      rfl
    · have hfull : max_len - 1 - buf.length = 0 := by omega
      rw [ih htail, hfull, List.take_zero, List.take_zero]

/-- The text is typed, and then Enter. -/
def typed (t : Text) (is : List Interrupt) : Prompt := ⟨t ++ ['\r'], is⟩

theorem fetch_input_text {t : Text} (ht : ∀ c ∈ t, isEditKey c = false) (f : Firmware) (is : List Interrupt) :
    fetch_input CMD_BUFFER_SIZE f (typed t is) = some (f.interrupts is, t.take 31) := by
  have hloop := fetch_input_loop_text CMD_BUFFER_SIZE ht [] []
  have hnul : ∀ c ∈ t.take 31, c ≠ '\x00' := by
    rintro c hc rfl
    exact absurd (ht _ (List.mem_of_mem_take hc)) (by decide)
  have hstring : (t.take 31).takeWhile (· ≠ '\x00') = t.take 31 :=
    List.takeWhile_eq_self_iff.mpr (by simpa using hnul)
  simp only [fetch_input, typed]
  rw [show (⟨[], 0⟩ : EditLine) = ⟨[], List.length ([] : Text)⟩ from rfl, hloop, Option.map_some, List.nil_append]
  exact congrArg some (congrArg (Prod.mk (f.interrupts is)) hstring)

/-! ## The two options -/

/-- `Open New Socket`: the key for the interface, and the prompt for the port. -/
def menu_open_new_socket (f : Firmware) (env : Env) (ch : UInt8) (port : Prompt) : Option (Firmware × Text) :=
  match terminal_select_netif f.board ch with
  | none => some (f, cmd_out "Invalid selection... Exiting\r\n")
  | some n =>
    (fetch_input CMD_BUFFER_SIZE f port).map fun (f, cmd_buf) =>
      let socket_port := UInt16.ofInt (env.atoi cmd_buf)
      let r := udp_source_add_listener f.board (some n) socket_port (some 0)
      if r.2.1 = .ERR_OK then (f.setBoard r.1, cmd_out "\r\nSocket has been succesfully added\r\n")
      else (f.setBoard r.1, cmd_out "There has been an error while adding the socket\r\n")

/-- `UDP Data Send` from the chosen socket on: the prompts for the address and for the data. -/
def menuSend (f : Firmware) (env : Env) (socket : udp_netif_socket_info_t) (addr data : Prompt) :
    Option (Firmware × Text) := do
  let (f, cmd_buf) ← fetch_input CMD_BUFFER_SIZE f addr
  if '/' ∉ cmd_buf then return (f, cmd_out "Invalid format, expected IP/port\r\n")
  else
    let ip_str := cmd_buf.takeWhile (· ≠ '/')
    let port_str := cmd_buf.drop (ip_str.length + 1)
    match ipaddr_aton ip_str with
    | none => return (f, cmd_out "Invalid IP\r\n")
    | some ip_rx =>
      let port := UInt16.ofInt (env.atoi port_str)
      if port = 0 then return (f, cmd_out "Invalid Port\r\n")
      else
        let (f, cmd_buf) ← fetch_input CMD_BUFFER_SIZE f data
        let r := udp_source_data_send f.board socket.socket_id socket.netif ip_rx port
          (some (cmd_buf.map (fun c => UInt8.ofNat c.toNat))) (UInt16.ofNat cmd_buf.length) env.alloc env.out
        if r.2 ≠ .ERR_OK then return (f.setBoard r.1, cmd_out "Failed to send message\r\n")
        else return (f.setBoard r.1, cmd_out "Message successfully sent\r\n")

/-- `UDP Data Send`: the key for the interface, and the prompts for the socket, the address and the data. -/
def menu_udp_data_send (f : Firmware) (env : Env) (ch : UInt8) (socket addr data : Prompt) :
    Option (Firmware × Text) :=
  match terminal_select_netif f.board ch with
  | none => some (f, cmd_out "Invalid selection... Exiting\r\n")
  | some n =>
    if udp_source_count_sockets f.board n = 0 then
      some (f, cmd_out "No active ports. Create a UDP socket first. Exiting...\r\n")
    else
      (fetch_input CMD_BUFFER_SIZE f socket).bind fun (f, cmd_buf) =>
        let sel := UInt32.ofInt (env.atoi cmd_buf)
        if sel < 1 ∨ udp_source_count_sockets f.board n < sel.toNat then
          some (f, cmd_out "Invalid Socket. Procedure not completed\r\n")
        else menuSend f env (udp_source_get_socket f.board n (sel - 1).toUInt8) addr data

/-! ## What a port is -/

/-- The port that a text asks for: it is a number, and nothing else, between 1 and 65535. -/
def portOf (t : Text) : Option UInt16 :=
  match intToken t with
  | some n => if t.all (!isSpace ·) ∧ 1 ≤ n ∧ n ≤ 65535 then some (UInt16.ofNat n.toNat) else none
  | none => none

/-- The socket is opened at the port. -/
def openAt (f : Firmware) (n : NetifPtr) (port : UInt16) : Firmware :=
  f.setBoard (udp_source_add_listener f.board (some n) port (some 0)).1

/-- The data is sent to the port. -/
def sendTo (f : Firmware) (env : Env) (sock : udp_netif_socket_info_t) (dst : ip_addr_t) (data : Text) (port : UInt16) :
    Firmware :=
  f.setBoard (udp_source_data_send f.board sock.socket_id sock.netif dst port
    (some (data.map (fun c => UInt8.ofNat c.toNat))) (UInt16.ofNat data.length) env.alloc env.out).1

/-- `SOCK OPEN <k> <t>`. -/
def sockOpenLine (k : Nat) (t : Text) : Text := "SOCK OPEN ".toList ++ (decimal k ++ ' ' :: t)

/-- `UDP SEND <k> <j> <dst> <t> <data>`. -/
def udpSendLine (k j : Nat) (dst : ip_addr_t) (t data : Text) : Text :=
  "UDP SEND ".toList ++ (decimal k ++ ' ' :: (decimal j ++ ' ' :: (ipaddr_ntoa dst ++ ' ' :: (t ++ ' ' :: data))))

/-- The key that selects the interface at position `k`. -/
def digitKey (k : Nat) : UInt8 := UInt8.ofNat (48 + k)

def Reachable (f : Firmware) : Prop := ∃ c es, machine.Legal (boot c) es ∧ f = machine.run (boot c) es

/-- In every state, both front ends open a socket, and send a datagram, at the port that the text asks for; if it asks
for none, nothing changes but what the interrupts change. -/
structure PortsAlike (t : Text) : Prop where
  menu_open : ∀ (f : Firmware) (env : Env) (k : Nat) (n : NetifPtr) (is : List Interrupt), Reachable f →
    cmd_netif_by_index f.board k = some n →
    (menu_open_new_socket f env (digitKey k) (typed t is)).map Prod.fst =
      some ((portOf t).elim (f.interrupts is) (openAt (f.interrupts is) n))
  sock_open : ∀ (f : Firmware) (env : Env) (k : Nat) (n : NetifPtr), Reachable f →
    cmd_netif_by_index f.board k = some n →
    (cmd_dispatch f env (sockOpenLine k t)).1 = (portOf t).elim f (openAt f n)
  menu_send : ∀ (f : Firmware) (env : Env) (k j : Nat) (n : NetifPtr) (sock : udp_netif_socket_info_t)
    (dst : ip_addr_t) (data : Text) (is is' is'' : List Interrupt), Reachable f → (∀ c ∈ data, isEditKey c = false) →
    cmd_netif_by_index f.board k = some n → nthSocket (f.interrupts is).board n j = some sock →
    let f' := (f.interrupts is).interrupts is'
    (menu_udp_data_send f env (digitKey k) (typed (decimal j) is) (typed (ipaddr_ntoa dst ++ '/' :: t) is')
      (typed data is'')).map Prod.fst =
      some ((portOf t).elim f' (sendTo (f'.interrupts is'') env sock dst (data.take 31)))
  udp_send : ∀ (f : Firmware) (env : Env) (k j : Nat) (n : NetifPtr) (sock : udp_netif_socket_info_t)
    (dst : ip_addr_t) (data : Text), Reachable f →
    cmd_netif_by_index f.board k = some n → nthSocket f.board n j = some sock →
    (cmd_dispatch f env (udpSendLine k j dst t data)).1 = (portOf t).elim f (sendTo f env sock dst (skipSpace data))

/-! ## Reading a port -/

/-- A text that asks for a port is read as this port by every `%d` and `atoi`. -/
theorem portOf_some {t : Text} {port : UInt16} (h : portOf t = some port) :
    (∀ c ∈ t, isSpace c = false) ∧ 1 ≤ port.toNat ∧ intToken t = some (port.toNat : Int) := by
  unfold portOf at h
  split at h
  · rename_i n hn
    rw [Option.ite_none_right_eq_some] at h
    obtain ⟨⟨hspace, hlow, hhigh⟩, hport⟩ := h
    obtain rfl := Option.some.inj hport
    have hnat : (UInt16.ofNat n.toNat).toNat = n.toNat := UInt16.toNat_ofNat_of_lt' (by show _ < 2 ^ 16; omega)
    refine ⟨by simpa using hspace, by omega, ?_⟩
    rw [hn, hnat, Int.toNat_of_nonneg (by omega)]
  · cases h

theorem isEditKey_of_isDigit {c : Char} (h : c.isDigit = true) : isEditKey c = false := by
  have hrange := isDigit_range h
  simp only [isEditKey, List.contains_eq_mem, List.mem_cons, List.not_mem_nil, or_false, decide_eq_false_iff_not]
  rintro (rfl | rfl | rfl | rfl | rfl | rfl) <;> simp at hrange

theorem isEditKey_port {t : Text} {port : UInt16} (h : portOf t = some port) : ∀ c ∈ t, isEditKey c = false := by
  obtain ⟨hspace, hlow, htoken⟩ := portOf_some h
  obtain ⟨ds, ht, hdigits, -⟩ := intToken_digits hspace htoken (by omega)
  rcases ht with rfl | rfl
  · exact fun c hc => isEditKey_of_isDigit (hdigits c hc)
  · intro c hc
    rcases List.mem_cons.mp hc with rfl | hc
    · rfl
    · exact isEditKey_of_isDigit (hdigits c hc)

theorem atoi_small {env : Env} {s r : Text} {m : Nat} (h : scanInt s = some ((m : Int), r)) (hm : m ≤ 65535) :
    env.atoi s = m := by
  unfold Env.atoi
  rw [h]
  exact env_int_small env hm

theorem ofInt_port (port : UInt16) : UInt16.ofInt (port.toNat : Int) = port := by
  rw [RxPbuf.ofInt_natCast, UInt16.ofNat_toNat]

theorem atoi_port {t : Text} {port : UInt16} (h : portOf t = some port) (env : Env) :
    UInt16.ofInt (env.atoi t) = port := by
  have hlt := port.toNat_lt
  rw [atoi_small (scanInt_of_token (portOf_some h).2.2) (by omega), ofInt_port]

/-- Cut short, the text is read as a smaller number. -/
theorem atoi_cut {t : Text} {port : UInt16} (h : portOf t = some port) (env : Env) {k : Nat} (hk : k < t.length) :
    ∃ m : Nat, env.atoi (t.take k) = m ∧ m < port.toNat := by
  obtain ⟨hspace, hlow, htoken⟩ := portOf_some h
  obtain ⟨ds, ht, hdigits, hvalue⟩ := intToken_digits hspace htoken (by omega)
  have hport : port.toNat = Nat.ofDigitChars 10 ds 0 := by omega
  have hlt := port.toNat_lt
  have hnone : scanInt [] = none ∧ scanInt ['+'] = none := ⟨rfl, rfl⟩
  -- Without any digit the number is 0.
  have hread : ∀ i < ds.length, ∃ m : Nat, env.atoi (ds.take i) = m ∧ env.atoi ('+' :: ds.take i) = m ∧
      m < port.toNat := by
    intro i hi
    have hsmall := ofDigitChars_take_lt (show 0 < Nat.ofDigitChars 10 ds 0 by omega) hi
    by_cases hnil : ds.take i = []
    · rw [hnil]
      refine ⟨0, ?_, ?_, hlow⟩
      · rw [Env.atoi, hnone.1]
        rfl
      · rw [Env.atoi, hnone.2]
        rfl
    · obtain ⟨hscan, hplus⟩ := scanInt_digits hnil (fun c hc => hdigits c (List.mem_of_mem_take hc))
      exact ⟨_, atoi_small hscan (by omega), atoi_small hplus (by omega), by omega⟩
  rcases ht with rfl | rfl
  · obtain ⟨m, hm, -, hless⟩ := hread k hk
    exact ⟨m, hm, hless⟩
  · cases k with
    | zero => exact ⟨0, by rw [List.take_zero, Env.atoi, hnone.1]; rfl, hlow⟩
    | succ k =>
      obtain ⟨m, -, hm, hless⟩ := hread k (by simpa using hk)
      exact ⟨m, hm, hless⟩

/-! ## The four front ends -/

theorem isEditKey_ntoa {dst : ip_addr_t} : ∀ c ∈ ipaddr_ntoa dst, isEditKey c = false := by
  intro c hc
  rcases mem_ipaddr_ntoa hc with h | rfl
  · exact isEditKey_of_isDigit h
  · rfl

theorem slash_not_mem_ntoa (dst : ip_addr_t) : '/' ∉ ipaddr_ntoa dst := by
  intro h
  rcases mem_ipaddr_ntoa h with hd | hd <;> exact absurd hd (by decide)

theorem by_index_small {b : Board} {k : Nat} {n : NetifPtr} (hn : cmd_netif_by_index b k = some n) : k ≤ 8 := by
  have hle := (by_index_le hn).2
  have hcount : netifCount = 8 := rfl
  omega

theorem select_digit {b : Board} {k : Nat} {n : NetifPtr} (hn : cmd_netif_by_index b k = some n) :
    terminal_select_netif b (digitKey k) = some n := by
  have hle := by_index_small hn
  have hkey : ((digitKey k).toNat : Int) - 48 = k := by
    rw [digitKey, UInt8.toNat_ofNat']
    omega
  rw [select_eq_by_index, hkey, hn]

/-- `Open New Socket` opens a socket at what `atoi` makes of the line, whatever it is. -/
theorem open_prompt {f : Firmware} (env : Env) {k : Nat} {n : NetifPtr} (hn : cmd_netif_by_index f.board k = some n)
    (p : Prompt) : (menu_open_new_socket f env (digitKey k) p).map Prod.fst =
      (fetch_input CMD_BUFFER_SIZE f p).map (fun r => openAt r.1 n (UInt16.ofInt (env.atoi r.2))) := by
  unfold menu_open_new_socket
  rw [select_digit hn]
  dsimp only
  rw [Option.map_map]
  refine congrArg (fun g => (fetch_input CMD_BUFFER_SIZE f p).map g) (funext fun r => ?_)
  simp only [Function.comp_apply, openAt]
  split <;> rfl

theorem steady_count {b b' : Board} (h : Steady b b') (n : NetifPtr) :
    udp_source_count_sockets b' n = udp_source_count_sockets b n := by
  have hon : onNetif b' n = onNetif b n := by
    funext i
    obtain ⟨huse, -, hnet⟩ := h.slots i
    rw [onNetif, onNetif, huse, hnet]
  rw [udp_source_count_sockets, udp_source_count_sockets, socketsOn, socketsOn, hon]

/-- The address and the port are what is typed before and after the slash, up to the size of the buffer. -/
theorem menuSend_typed (f : Firmware) (env : Env) (sock : udp_netif_socket_info_t) (dst : ip_addr_t) {t data : Text}
    (ht : ∀ c ∈ t, isEditKey c = false) (hdata : ∀ c ∈ data, isEditKey c = false) (is is' : List Interrupt) :
    let port := UInt16.ofInt (env.atoi (t.take (30 - (ipaddr_ntoa dst).length)))
    (menuSend f env sock (typed (ipaddr_ntoa dst ++ '/' :: t) is) (typed data is')).map Prod.fst =
      some (if port = 0 then f.interrupts is
        else sendTo ((f.interrupts is).interrupts is') env sock dst (data.take 31) port) := by
  intro port
  have hlen := ipaddr_ntoa_length dst
  have htext : ∀ c ∈ ipaddr_ntoa dst ++ '/' :: t, isEditKey c = false := by
    intro c hc
    rcases List.mem_append.mp hc with hc | hc
    · exact isEditKey_ntoa c hc
    · rcases List.mem_cons.mp hc with rfl | hc
      · rfl
      · exact ht c hc
  have hcut : (ipaddr_ntoa dst ++ '/' :: t).take 31 =
      ipaddr_ntoa dst ++ '/' :: t.take (30 - (ipaddr_ntoa dst).length) := by
    have hroom : 31 - (ipaddr_ntoa dst).length = 30 - (ipaddr_ntoa dst).length + 1 := by omega
    rw [List.take_append, List.take_of_length_le (by omega), hroom, List.take_succ_cons]
  have hip : ∀ s, (ipaddr_ntoa dst ++ '/' :: s).takeWhile (· ≠ '/') = ipaddr_ntoa dst := by
    intro s
    rw [List.takeWhile_append_of_pos, List.takeWhile_cons_of_neg (by simp), List.append_nil]
    intro c hc
    have hne : c ≠ '/' := fun heq => slash_not_mem_ntoa dst (heq ▸ hc)
    simpa using hne
  have hport : ∀ s, (ipaddr_ntoa dst ++ '/' :: s).drop ((ipaddr_ntoa dst).length + 1) = s := by
    intro s
    rw [List.drop_append]
    simp
  unfold menuSend
  rw [fetch_input_text htext, hcut]
  simp only [Option.bind_eq_bind, Option.bind_some]
  rw [if_neg (by simp), hip, aton_ntoa]
  dsimp only
  rw [hport]
  split
  · rfl
  · rw [fetch_input_text hdata]
    simp only [Option.bind_some, sendTo]
    split <;> rfl

theorem send_typed {f : Firmware} (h : Inv f) (env : Env) {k j : Nat} {n : NetifPtr} {sock : udp_netif_socket_info_t}
    (hn : cmd_netif_by_index f.board k = some n) {is : List Interrupt}
    (hj : nthSocket (f.interrupts is).board n j = some sock) (addr data : Prompt) :
    menu_udp_data_send f env (digitKey k) (typed (decimal j) is) addr data =
      menuSend (f.interrupts is) env sock addr data := by
  have hcount := count_le (f.interrupts is).board n
  have hsteady := steady_count (interrupts_steady h is) n
  unfold nthSocket at hj
  split at hj
  · cases hj
  rename_i hrange
  have hkeys : ∀ c ∈ decimal j, isEditKey c = false := fun c hc => isEditKey_of_isDigit (isDigit_of_mem_decimal hc)
  have hlen : (decimal j).length ≤ 31 := (decimal_length_le (by decide) (by omega : j < 10 ^ 2)).trans (by decide)
  have hsel : (UInt32.ofInt (j : Int)).toNat = j := by
    rw [UInt32.ofInt, UInt32.toNat_ofNat_of_lt' (by show _ < 2 ^ 32; omega)]
    omega
  have hone : 1 ≤ UInt32.ofInt (j : Int) := by
    rw [UInt32.le_iff_toNat_le, hsel]
    show 1 ≤ j
    omega
  have hnth : (UInt32.ofInt (j : Int) - 1).toUInt8 = UInt8.ofNat ((j : Int) - 1).toNat := by
    apply UInt8.toNat_inj.mp
    have h1 : (1 : UInt32).toNat = 1 := rfl
    rw [UInt32.toNat_toUInt8, UInt32.toNat_sub_of_le _ _ hone, hsel, UInt8.toNat_ofNat', h1]
    omega
  have hvalid : ¬ (UInt32.ofInt (j : Int) < 1 ∨ udp_source_count_sockets (f.interrupts is).board n <
      (UInt32.ofInt (j : Int)).toNat) := by
    rw [hsel, not_or]
    exact ⟨UInt32.not_lt.mpr hone, by omega⟩
  unfold menu_udp_data_send
  rw [select_digit hn]
  dsimp only
  rw [if_neg (by omega), fetch_input_text hkeys, List.take_of_length_le hlen, Option.bind_some]
  dsimp only
  rw [atoi_small (scanInt_of_token (intToken_decimal j)) (by omega), if_neg hvalid, hnth, Option.some.inj hj]

theorem dispatch_sock_open (f : Firmware) (env : Env) {k : Nat} {n : NetifPtr}
    (hn : cmd_netif_by_index f.board k = some n) {t : Text} {port : UInt16} (hport : portOf t = some port) :
    (cmd_dispatch f env (sockOpenLine k t)).1 = openAt f n port := by
  obtain ⟨-, hlow, htoken⟩ := portOf_some hport
  have hhigh := port.toNat_lt
  have hk := by_index_small hn
  have hparse : parse env (sockOpenLine k t) = .sock_open k port.toNat := by
    unfold sockOpenLine
    rw [parse_sock_open, two_ints_token env (by omega) htoken (by omega)]
    rfl
  rw [dispatch_body f env hparse (by simp)]
  show (sockOpen f k port.toNat).1 = openAt f n port
  simp only [sockOpen, if_neg (show ¬ ((port.toNat : Int) < 1 ∨ (port.toNat : Int) > 65535) by omega), hn,
    Int.toNat_natCast, UInt16.ofNat_toNat, openAt]
  split <;> rfl

theorem nth_le {b : Board} {n : NetifPtr} {j : Nat} {sock : udp_netif_socket_info_t}
    (hj : nthSocket b n j = some sock) : j ≤ 65535 := by
  have hcount := count_le b n
  unfold nthSocket at hj
  split at hj
  · cases hj
  · omega

theorem data_send_empty (b : Board) (id : udp_sock_id_t) (n : Option NetifPtr) (dst : ip_addr_t) (port : UInt16)
    (data : List UInt8) (alloc : Bool) (out : Alloc) :
    (udp_source_data_send b id n dst port (some data) 0 alloc out).1 = b := by
  unfold udp_source_data_send
  split <;> rfl

theorem dispatch_udp_send (f : Firmware) (env : Env) {k j : Nat} {n : NetifPtr} {sock : udp_netif_socket_info_t}
    (hn : cmd_netif_by_index f.board k = some n) (hj : nthSocket f.board n j = some sock) (dst : ip_addr_t)
    {t : Text} {port : UInt16} (hport : portOf t = some port) (data : Text) :
    (cmd_dispatch f env (udpSendLine k j dst t data)).1 = sendTo f env sock dst (skipSpace data) port := by
  obtain ⟨hspace, hlow, htoken⟩ := portOf_some hport
  have hhigh := port.toNat_lt
  have hk := by_index_small hn
  have hparse : parse env (udpSendLine k j dst t data) = .udp_send k j dst port.toNat (skipSpace data) := by
    unfold udpSendLine
    rw [parse_udp_send, udp_send_args_token env (by omega) (nth_le hj) dst hspace htoken (by omega)]
    rfl
  rw [dispatch_body f env hparse (by simp)]
  show (udpSend f env k j dst port.toNat (skipSpace data)).1 = _
  simp only [udpSend, if_neg (show ¬ ((port.toNat : Int) < 1 ∨ (port.toNat : Int) > 65535) by omega), hn, hj,
    Int.toNat_natCast, UInt16.ofNat_toNat, sendTo]
  split
  · rename_i hdata
    rw [hdata]
    exact congrArg f.setBoard (data_send_empty f.board sock.socket_id sock.netif dst port [] env.alloc env.out).symm
  · split <;> rfl

/-! ## When the front ends agree -/

theorem Reachable.inv {f : Firmware} (h : Reachable f) : Inv f := by
  obtain ⟨c, es, hes, rfl⟩ := h
  exact inv_reachable c hes

/-- A port that fits the prompts is the same at the menu and in the commands. -/
theorem ports_alike {t : Text} {port : UInt16} (hport : portOf t = some port) (hlen : t.length ≤ 15) :
    PortsAlike t where
  menu_open f env k n is _ hn := by
    rw [open_prompt env hn, fetch_input_text (isEditKey_port hport), List.take_of_length_le (by omega), Option.map_some,
      atoi_port hport, hport]
    rfl
  sock_open f env k n _ hn := by
    rw [dispatch_sock_open f env hn hport, hport]
    rfl
  menu_send f env k j n sock dst data is is' is'' hf hdata hn hj := by
    have hip := ipaddr_ntoa_length dst
    have hne : port ≠ 0 := by
      rintro rfl
      exact absurd (portOf_some hport).2.1 (by decide)
    intro f'
    rw [send_typed hf.inv env hn hj, menuSend_typed _ env sock dst (isEditKey_port hport) hdata,
      List.take_of_length_le (by omega), atoi_port hport, if_neg hne, hport]
    rfl
  udp_send f env k j n sock dst data _ hn hj := by
    rw [dispatch_udp_send f env hn hj dst hport, hport]
    rfl

def started : Firmware := boot (.main ethzero true)

/-- Only the locator's port is in the way, and even the open that it refuses has written to a control block. -/
theorem openAt_started (port : UInt16) : openAt started .phys port ≠ started := by
  intro h
  obtain ⟨l, hl⟩ := boot_registry (.main ethzero true)
  have hopen := add_listener_outcome hl (boot_range _) .phys port 0
  have hboard : (udp_source_add_listener started.board (some .phys) port (some 0)).1 = started.board :=
    congrArg Firmware.board h
  by_cases hok : (udp_source_add_listener started.board (some .phys) port (some 0)).2.1 = .ERR_OK
  · obtain ⟨i, p, hopened⟩ := hopen.opened hok
    have hlist := hopened.list
    rw [show (udp_source_add_listener (Board.boot (.main ethzero true)) (some .phys) port (some 0)).1 = _ from hboard]
      at hlist
    exact absurd (congrArg List.length hlist) (by simp [started, boot])
  · have hlocator : port = 23 := by
      refine by_contra fun hne => hok (hopen.result.trans (openResult_ok (i := 0) rfl fun _ q hq hway => hne ?_))
      have hpcbs : (Board.boot (.main ethzero true)).udp.list = [19] := by decide
      rw [hpcbs, List.mem_singleton] at hq
      subst hq
      exact hway.1.symm
    subst hlocator
    exact absurd (congrArg (fun b : Board => (b.udp.pcbs 18).ttl) hboard) (by decide)

theorem reachable_started : Reachable started := ⟨.main ethzero true, [], trivial, rfl⟩

/-- A socket is open at port 5000 of the only interface. -/
def opened : Firmware := machine.run (boot (.main ethzero true)) [.line sampleEnv (sockOpenLine 1 "5000".toList)]

theorem reachable_opened : Reachable opened :=
  ⟨.main ethzero true, [.line sampleEnv (sockOpenLine 1 "5000".toList)], ⟨trivial, trivial⟩, rfl⟩

/-- One byte is broadcast from the open socket to the port. -/
def broadcast (port : UInt16) : Firmware :=
  sendTo opened sampleEnv (udp_source_get_socket opened.board .phys 0) IPADDR_BROADCAST "x".toList port

theorem broadcast_tx (port : UInt16) : (broadcast port).board.net.arp.tx =
    opened.board.net.arp.tx ++ [(.phys, .ip ethbroadcast ethzero
      { src := 0x0a00000a, dest := IPADDR_BROADCAST, ttl := 255, tos := 0, payload := .udp 5000 port [120] })] := by
  rfl

theorem broadcast_inj {p q : UInt16} (h : broadcast p = broadcast q) : p = q := by
  have htx : (broadcast p).board.net.arp.tx = (broadcast q).board.net.arp.tx := by rw [h]
  rw [broadcast_tx, broadcast_tx, List.append_cancel_left_eq] at htx
  simpa using htx

theorem broadcast_ne (port : UInt16) : opened ≠ broadcast port := by
  intro h
  have htx := broadcast_tx port
  rw [← h] at htx
  exact absurd (congrArg List.length htx) (by simp)

/-- Cut after 15 characters by the prompt for the address, the port is a smaller one, or none. -/
theorem fits_of_alike {t : Text} {port : UInt16} (hport : portOf t = some port) (h : PortsAlike t) :
    t.length ≤ 15 := by
  by_contra hlong
  obtain ⟨m, hm, hless⟩ := atoi_cut hport sampleEnv (show 15 < t.length by omega)
  have hlen : (ipaddr_ntoa IPADDR_BROADCAST).length = 15 := by decide
  have hn : cmd_netif_by_index opened.board (1 : Nat) = some .phys := by decide
  have hj : nthSocket (opened.interrupts []).board .phys (1 : Nat) =
      some (udp_source_get_socket opened.board .phys 0) := by decide
  have hdata : ∀ c ∈ "x".toList, isEditKey c = false := by
    intro c hc
    obtain rfl : c = 'x' := by simpa using hc
    rfl
  have hvalue : (UInt16.ofInt (m : Int)).toNat = m := by
    have hlt := port.toNat_lt
    rw [RxPbuf.ofInt_natCast, UInt16.toNat_ofNat_of_lt' (by show _ < 2 ^ 16; omega)]
  have hsend := h.menu_send opened sampleEnv 1 1 .phys _ IPADDR_BROADCAST "x".toList [] [] [] reachable_opened hdata hn hj
  rw [send_typed reachable_opened.inv sampleEnv hn hj, menuSend_typed _ sampleEnv _ _ (isEditKey_port hport) hdata,
    hlen, hm, hport] at hsend
  have hsent : (if UInt16.ofInt (m : Int) = 0 then opened else broadcast (UInt16.ofInt (m : Int))) = broadcast port :=
    Option.some.inj hsend
  split at hsent
  · exact broadcast_ne port hsent
  · rw [broadcast_inj hsent] at hvalue
    omega

/-- For every text: the front ends treat it alike if and only if it is a port, in at most 15 characters. -/
theorem ports_alike_iff (t : Text) : PortsAlike t ↔ (portOf t).isSome ∧ t.length ≤ 15 := by
  constructor
  · intro h
    cases hport : portOf t with
    | none =>
      have hopen := h.menu_open started sampleEnv 1 .phys [] reachable_started rfl
      rw [open_prompt sampleEnv rfl, hport, fetch_input, Option.map_map] at hopen
      obtain ⟨r, -, hr⟩ := Option.map_eq_some_iff.mp hopen
      exact absurd hr (openAt_started _)
    | some port => exact ⟨rfl, fits_of_alike hport h⟩
  · rintro ⟨hsome, hlen⟩
    obtain ⟨port, hport⟩ := Option.isSome_iff_exists.mp hsome
    exact ports_alike hport hlen

/-- 65537 is refused by the command, and the menu opens a socket at port 1. -/
theorem menu_port_wraps :
    let t := "65537".toList
    let r := menu_open_new_socket started sampleEnv (digitKey 1) (typed t [])
    (cmd_dispatch started sampleEnv (sockOpenLine 1 t)) = (started, answer "SOCKOPEN" "ERR:bad_args") ∧
      r.map Prod.snd = some "\r\nSocket has been succesfully added\r\n".toList ∧
      r.map (fun r => (udp_source_get_socket r.1.board .phys 0).local_port) = some 1 ∧ ¬ PortsAlike t := by
  refine ⟨rfl, by decide, by decide, fun h => ?_⟩
  have hopen := h.menu_open started sampleEnv 1 .phys [] reachable_started rfl
  exact absurd (Option.some.inj ((open_prompt sampleEnv rfl _).symm.trans hopen)) (openAt_started _)

end MultiIp.Firmware

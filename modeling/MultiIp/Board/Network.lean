import MultiIp.Board.Damage
import MultiIp.Board.Handed
import MultiIp.Board.LiveIds
import MultiIp.Board.Mailbox
import MultiIp.Board.Receivers

/-!
# Boards on one wire

Any number of boards run their main programs, and any frame that one of them has
sent can arrive at any of them: at once, late, more than once or never, and
in any order, and with a changed byte. What a socket receives was sent, byte by
byte, to its port.
-/

namespace MultiIp.Board

open Lwip Lib

def MAX_TRANSFER_UNIT : Nat := 1514

/-! ## The machine -/

/-- The move is not a reception, and its packet fits into one frame. ICMP messages of all kinds stand as echo requests:
the ARP module does not look into them. -/
def Move.isLocal : Move → Bool
  | .call (.rx_callback _ _ _ _) | .call (.udp_input _ _ _ _) | .call (.arp_input _) => false
  | .call (.data_send _ _ _ _ _ len _ _) => SIZEOF_ETH_HDR + IP_HLEN + UDP_HLEN + len.toNat ≤ MAX_TRANSFER_UNIT
  | .output _ _ _ _ (.udp _ _ _) _ _ => false
  | _ => true

inductive NetworkAction (ι : Type)
  | run (i : ι) (m : Move)
  /-- The frame, sent by board `i`, arrives at board `j` in the chain `p`. -/
  | deliver (i j : ι) (f : Frame) (p : RxPbuf) (alloc : Bool) (out : Alloc)

variable {ι : Type} [DecidableEq ι]

def networkStep (s : ι → Board) : NetworkAction ι → ι → Board
  | .run i m => Function.update s i (move (s i) m)
  | .deliver _ j _ p alloc out => Function.update s j (rx_frame (s j) p alloc out)

def networkAllowed (s : ι → Board) : NetworkAction ι → Prop
  | .run i m => m.isLocal = true ∧ m.allowed (s i)
  | .deliver i _ f p _ _ => (∃ n, (n, f) ∈ (s i).net.arp.tx) ∧ ArrivesDamaged f p

def network (ι : Type) [DecidableEq ι] : Machine (ι → Board) (NetworkAction ι) where
  step := networkStep
  allowed := networkAllowed

/-! ## A reception as a move -/

/-- The move that a frame makes, if it makes one. -/
def rxMove (b : Board) (p : RxPbuf) (alloc : Bool) (out : Alloc) : Option Move :=
  if p.len.toNat > SIZEOF_ETH_HDR ∧ p.shortAt 12 = ETHTYPE_ARP then some (.call (.arp_input (arpFrameOf p)))
  else (ethernet_input_udp b.net p).map (fun r => .call (.udp_input r.1 r.2 alloc out))

theorem rx_frame_eq (b : Board) (p : RxPbuf) (alloc : Bool) (out : Alloc) :
    rx_frame b p alloc out = ((rxMove b p alloc out).map (move b)).getD b := by
  unfold rx_frame rxMove
  split
  · rfl
  · unfold ethernet_input
    cases ethernet_input_udp b.net p <;> rfl

theorem rxMove_cases {b : Board} {p : RxPbuf} {alloc : Bool} {out : Alloc} {m : Move} (h : rxMove b p alloc out = some m) :
    (∃ f, m = .call (.arp_input f)) ∨
      ∃ inp d, ethernet_input_udp b.net p = some (inp, d) ∧ m = .call (.udp_input inp d alloc out) := by
  unfold rxMove at h
  split at h
  · cases h
    exact Or.inl ⟨_, rfl⟩
  · obtain ⟨r, hr, rfl⟩ := Option.map_eq_some_iff.mp h
    exact Or.inr ⟨r.1, r.2, hr, rfl⟩

theorem rxMove_allowed {b : Board} {p : RxPbuf} {alloc : Bool} {out : Alloc} {m : Move} (h : rxMove b p alloc out = some m) :
    m.allowed b := by
  rcases rxMove_cases h with ⟨f, rfl⟩ | ⟨inp, d, -, rfl⟩ <;> exact fun n hn => by cases hn

/-- The board that an action moves, and how. -/
def NetworkAction.moves (s : ι → Board) : NetworkAction ι → Option (ι × Move)
  | .run i m => some (i, m)
  | .deliver _ j _ p alloc out => (rxMove (s j) p alloc out).map (fun m => (j, m))

/-- What the boards hand to IP in a run, in order. -/
def sentOn (s : ι → Board) (as : List (NetworkAction ι)) : List ip_packet :=
  (network ι).record (fun out s a => out ++ ((a.moves s).bind (fun r => handed (s r.1) r.2)).toList) [] s as

/-! ## What every action keeps -/

/-- The message is the datagram that the packet carries to the port. -/
def MessageOf (p : ip_packet) (m : Message) (port : UInt16) : Prop :=
  ∃ data, p.payload = .udp m.src_port port data ∧ m.src_ip = p.src ∧ m.data = data.take UDP_RX_BUF_SIZE ∧
    m.len = min data.length UDP_RX_BUF_SIZE

/-- The message in the mailbox was sent to the port of the socket. -/
def MailFrom (out : List ip_packet) (b : Board) (k : SlotIdx) : Prop :=
  ∃ p ∈ out, ∃ pcb, (b.s_listeners k).pcb = some pcb ∧
    MessageOf p (b.s_listeners k).rx_msg.message (b.udp.pcbs pcb).local_port

def Fits (p : ip_packet) : Prop :=
  ∀ sport dport data, p.payload = .udp sport dport data → IP_HLEN + UDP_HLEN + data.length ≤ 65535

structure BoardOk (out : List ip_packet) (b : Board) : Prop where
  inv : Inv b
  sent : ∀ p, 0 < b.net.arp.load p → p ∈ out
  mail : ∀ k, (b.s_listeners k).rx_msg.valid = true → MailFrom out b k

theorem BoardOk.mono {out out' : List ip_packet} {b : Board} (h : BoardOk out b) (hsub : out ⊆ out') : BoardOk out' b := by
  refine ⟨h.inv, fun p hp => hsub (h.sent p hp), fun k hk => ?_⟩
  obtain ⟨p, hp, hrest⟩ := h.mail k hk
  exact ⟨p, hsub hp, hrest⟩

theorem locatorReply_length (b : Board) : (locatorReply b).length ≤ 84 := by
  simp [locatorReply]

/-- What is handed to IP fits into a packet. -/
theorem handed_fits {b : Board} {m : Move} (hm : m.isLocal = true ∨ ∃ inp d alloc out, m = .call (.udp_input inp d alloc out))
    {p : ip_packet} (hp : handed b m = some p) : Fits p := by
  have h14 : SIZEOF_ETH_HDR = 14 := rfl
  have h20 : IP_HLEN = 20 := rfl
  have h8 : UDP_HLEN = 8 := rfl
  have hmax : MAX_TRANSFER_UNIT = 1514 := rfl
  intro sport dport data hudp
  unfold handed at hp
  split at hp
  · rename_i id n ip port bytes len _ _
    have hlen : SIZEOF_ETH_HDR + IP_HLEN + UDP_HLEN + len.toNat ≤ MAX_TRANSFER_UNIT := by
      rcases hm with hm | ⟨_, _, _, _, hm⟩
      · simpa [Move.isLocal] using hm
      · cases hm
    unfold sendPacket at hp
    split at hp
    · obtain ⟨pcb, -, rfl⟩ := Option.map_eq_some_iff.mp hp
      cases hudp
      rw [List.length_take]
      omega
    · cases hp
  · unfold replyPacket at hp
    split at hp
    · split at hp
      · obtain ⟨n, -, rfl⟩ := Option.map_eq_some_iff.mp hp
        cases hudp
        have := locatorReply_length b
        omega
      · cases hp
    · cases hp
  · rename_i src dest ttl tos pay n alloc
    cases hp
    obtain rfl : pay = .udp sport dport data := hudp
    rcases hm with hm | ⟨_, _, _, _, hm⟩
    · cases hm
    · cases hm
  · cases hp

/-- A message that the move does not bring was there before, in the mailbox of the same socket. -/
theorem mail_kept {out : List ip_packet} {b : Board} (h : BoardOk out b) {a : Action} {k : SlotIdx}
    (hd : deliveredTo b k a = none) (hv : ((step b a).s_listeners k).rx_msg.valid = true) : MailFrom out (step b a) k := by
  obtain ⟨l, hreg⟩ := h.inv.registry
  have hslot := step_slot b a k
  rw [hd] at hslot
  generalize hs : (step b a).s_listeners k = s' at hslot hv
  generalize hpoll : polledFrom b k a = m at hslot
  cases hslot with
  | keep =>
    obtain ⟨p, hp, pcb, hpcb, hmsg⟩ := h.mail k hv
    refine ⟨p, hp, pcb, hs ▸ hpcb, ?_⟩
    rw [step_port hreg a hpcb, hs]
    exact hmsg
  | opened p n hn hfree => cases hv
  | closed hopen => cases hv
  | read hopen hv' => cases hv

theorem deliveredTo_udp_input {b : Board} {k : SlotIdx} {inp : NetifPtr} {d : Datagram} {alloc : Bool} {out : Alloc}
    {e : Delivery} (h : deliveredTo b k (.udp_input inp d alloc out) = some e) :
    d.intact = true ∧ e = ⟨d.payload, d.src_ip, d.src⟩ := by
  unfold deliveredTo at h
  dsimp only at h
  split at h
  · split at h
    · rename_i hcond
      simp only [Bool.and_eq_true] at hcond
      exact ⟨hcond.1.1, (Option.some.inj h).symm⟩
    · cases h
  · cases h

/-- What the callback writes is the datagram. -/
theorem messageOf_delivered {p : ip_packet} {d : Datagram} (hp : p.payload = .udp d.src d.dest d.payload.segs.flatten)
    (hsrc : d.src_ip = p.src) (old : udp_rx_msg_t) :
    MessageOf p (rxMessage old d.payload d.src_ip d.src).message d.dest := by
  have hmsg := rxMessage_message old ⟨d.payload, d.src_ip, d.src⟩
  dsimp only at hmsg
  rw [hmsg]
  refine ⟨d.payload.segs.flatten, hp, hsrc, ?_, ?_⟩
  · show d.payload.segs.flatten.take (min d.payload.tot_len.toNat UDP_RX_BUF_SIZE) = _
    rw [d.payload.tot_len_eq]
    exact take_min_length _ _
  · show min d.payload.tot_len.toNat UDP_RX_BUF_SIZE = _
    rw [d.payload.tot_len_eq]

theorem mail_delivered {out : List ip_packet} {b : Board} (h : BoardOk out b) {inp : NetifPtr} {d : Datagram}
    {alloc : Bool} {o : Alloc}
    (hd : d.intact = true → ∃ p ∈ out, p.payload = .udp d.src d.dest d.payload.segs.flatten ∧ d.src_ip = p.src)
    {k : SlotIdx} (hv : ((step b (.udp_input inp d alloc o)).s_listeners k).rx_msg.valid = true) :
    MailFrom out (step b (.udp_input inp d alloc o)) k := by
  obtain ⟨l, hreg⟩ := h.inv.registry
  cases hdel : deliveredTo b k (.udp_input inp d alloc o) with
  | none => exact mail_kept h hdel hv
  | some e =>
    obtain ⟨hintact, rfl⟩ := deliveredTo_udp_input hdel
    have hslot := udp_input_slotStep b inp d alloc o k
    rw [hdel] at hslot
    have hchanged := @changed_slot b l hreg inp d alloc o k
    have hkept := @step_port b l hreg (.udp_input inp d alloc o) k
    simp only [step] at hkept hv ⊢
    generalize hs : (udp_input b inp d alloc o).s_listeners k = s' at hslot hv hchanged
    cases hslot with
    | received _ hopen =>
      cases hold : (b.s_listeners k).rx_msg.valid with
      | true =>
        -- The mailbox is full, and the datagram is dropped.
        obtain ⟨p, hp, pcb, hpcb, hmsg⟩ := h.mail k hold
        refine ⟨p, hp, pcb, ?_, ?_⟩
        · rw [hs, receiveSlot, if_pos hold]
          exact hpcb
        · rw [hkept hpcb, hs, receiveSlot, if_pos hold]
          exact hmsg
      | false =>
        obtain ⟨p, hp, hpay, hsrc⟩ := hd hintact
        rw [receiveSlot, if_neg (by simp [hold])] at hs hchanged
        obtain ⟨pcb, -, hpcb, -, hmatch⟩ := hchanged (fun heq => by rw [← heq] at hold; cases hold)
        have hport : (b.udp.pcbs pcb).local_port = d.dest := by
          simp only [localMatch, Bool.and_eq_true, beq_iff_eq] at hmatch
          exact hmatch.1
        refine ⟨p, hp, pcb, ?_, ?_⟩
        · rw [hs]
          exact hpcb
        · rw [hkept hpcb, hs, hport]
          exact messageOf_delivered hpay hsrc _

/-- What a move keeps, if a datagram that it brings was sent. -/
theorem boardOk_move {out : List ip_packet} {b : Board} (h : BoardOk out b) {m : Move} (ha : m.allowed b)
    (hm : m.isLocal = true ∨ (∃ f, m = .call (.arp_input f)) ∨
      ∃ inp d alloc o, m = .call (.udp_input inp d alloc o) ∧ (d.intact = true →
        ∃ p ∈ out, p.payload = .udp d.src d.dest d.payload.segs.flatten ∧ d.src_ip = p.src)) :
    BoardOk (out ++ (handed b m).toList) (move b m) := by
  obtain ⟨l, hreg⟩ := h.inv.registry
  refine ⟨move_inv b m h.inv ha, fun p hp => ?_, fun k hk => ?_⟩
  · have hload := (move_passes hreg m).load p
    rw [List.mem_append]
    rcases Nat.eq_zero_or_pos (b.net.arp.load p) with hzero | hpos
    · exact Or.inr (List.count_pos_iff.mp (by omega))
    · exact Or.inl (h.sent p hpos)
  · have hsub : out ⊆ out ++ (handed b m).toList := List.subset_append_left _ _
    have hmail : MailFrom out (move b m) k := by
      rcases move_cases b m with ⟨a, rfl⟩ | ⟨net, -, heq⟩
      · rcases hm with hm | ⟨f, hm⟩ | ⟨inp, d, alloc, o, hm, hd⟩
        · refine mail_kept h ?_ hk
          cases a <;> first | rfl | cases hm
        · cases hm
          exact mail_kept (a := .arp_input f) h rfl hk
        · cases hm
          exact mail_delivered h hd hk
      · rw [heq] at hk ⊢
        exact h.mail k hk
    obtain ⟨p, hp, hrest⟩ := hmail
    exact ⟨p, hsub hp, hrest⟩

structure NetworkOk (out : List ip_packet) (s : ι → Board) : Prop where
  board : ∀ i, BoardOk out (s i)
  fits : ∀ p ∈ out, Fits p

theorem sent_of_tx {a : Arp} {n : NetifPtr} {dest src : eth_addr} {p : ip_packet} (h : (n, Frame.ip dest src p) ∈ a.tx) :
    0 < a.load p := by
  have hsent : p ∈ a.sent := List.mem_filterMap.mpr ⟨_, h, rfl⟩
  have := List.count_pos_iff.mpr hsent
  unfold Arp.load
  omega

omit [DecidableEq ι] in
/-- A frame on the wire brings a datagram that was sent. -/
theorem delivered_sent {out : List ip_packet} {s : ι → Board} (h : NetworkOk out s) {i : ι} {n : NetifPtr} {f : Frame}
    (hf : (n, f) ∈ (s i).net.arp.tx) {p : RxPbuf} (ha : ArrivesDamaged f p) {net : Net} {inp : NetifPtr} {d : Datagram}
    (hin : ethernet_input_udp net p = some (inp, d)) (hd : d.intact = true) :
    ∃ k ∈ out, k.payload = .udp d.src d.dest d.payload.segs.flatten ∧ d.src_ip = k.src := by
  obtain ⟨dest, src, k, sport, dport, data, rfl, hk⟩ := udp_frame_of_input ha hin
  have hout := (h.board i).sent k (sent_of_tx hf)
  obtain ⟨hsrc, -, rfl, rfl, rfl⟩ := udp_frame_unchanged hk (h.fits k hout sport dport data hk) ha hin hd
  exact ⟨k, hout, hk, hsrc⟩

theorem networkOk_move {out : List ip_packet} {s : ι → Board} (h : NetworkOk out s) {i : ι} {m : Move}
    (hfits : ∀ p ∈ handed (s i) m, Fits p) (hb : BoardOk (out ++ (handed (s i) m).toList) (move (s i) m)) :
    NetworkOk (out ++ (handed (s i) m).toList) (Function.update s i (move (s i) m)) := by
  refine ⟨fun j => ?_, fun p hp => ?_⟩
  · exact (Function.forall_update_iff s (fun _ => BoardOk _)).mpr
      ⟨hb, fun k _ => (h.board k).mono (List.subset_append_left _ _)⟩ j
  · rcases List.mem_append.mp hp with hp | hp
    · exact h.fits p hp
    · exact hfits p (Option.mem_toList.mp hp)

theorem networkOk_step {out : List ip_packet} {s : ι → Board} (h : NetworkOk out s) {a : NetworkAction ι}
    (ha : networkAllowed s a) :
    NetworkOk (out ++ ((a.moves s).bind (fun r => handed (s r.1) r.2)).toList) (networkStep s a) := by
  cases a with
  | run i m =>
    obtain ⟨hm, hallowed⟩ := ha
    exact networkOk_move h (fun p hp => handed_fits (Or.inl hm) hp) (boardOk_move (h.board i) hallowed (Or.inl hm))
  | deliver i j f p alloc o =>
    obtain ⟨⟨n, hf⟩, harrives⟩ := ha
    simp only [networkStep, NetworkAction.moves, rx_frame_eq]
    cases hmove : rxMove (s j) p alloc o with
    | none =>
      simpa using h
    | some m =>
      have hallowed := rxMove_allowed hmove
      simp only [Option.map_some, Option.getD_some, Option.bind_some]
      rcases rxMove_cases hmove with ⟨fr, rfl⟩ | ⟨inp, d, hin, rfl⟩
      · exact networkOk_move h (fun p hp => by cases hp)
          (boardOk_move (h.board j) hallowed (Or.inr (Or.inl ⟨fr, rfl⟩)))
      · refine networkOk_move h (fun p hp => handed_fits (Or.inr ⟨inp, d, alloc, o, rfl⟩) hp) ?_
        refine boardOk_move (h.board j) hallowed (Or.inr (Or.inr ⟨inp, d, alloc, o, rfl, fun hd => ?_⟩))
        exact delivered_sent h hf harrives hin hd

/-! ## Runs of the network -/

theorem boot_ok (c : Boot) : BoardOk [] (boot c) := by
  refine ⟨boot_inv c, fun p hp => ?_, fun k hk => ?_⟩
  · rw [boot_load] at hp
    exact absurd hp (Nat.lt_irrefl 0)
  · rw [boot_slots] at hk
    cases hk

theorem network_ok (cs : ι → Boot) {as : List (NetworkAction ι)}
    (hl : (network ι).Legal (fun i => boot (cs i)) as) :
    NetworkOk (sentOn (fun i => boot (cs i)) as) ((network ι).run (fun i => boot (cs i)) as) :=
  Machine.record_invariant (M := network ι) (P := NetworkOk) (fun _ _ _ h ha => networkOk_step h ha)
    ⟨fun i => boot_ok (cs i), fun _ hp => absurd hp List.not_mem_nil⟩ hl

/-- The address of the one board's Ethernet port and the other's. -/
def twoMacs (i : Fin 2) : eth_addr := #v[2, 0, 0, 0, 0, 10 + UInt8.ofNat i]

/-- 10.0.0.10 and 10.0.0.11. -/
def twoBoots (i : Fin 2) : Boot := { Boot.main (twoMacs i) true with ip_ana := 0x0a00000a + UInt32.ofNat i }

/-- The board at 10.0.0.10, and the one at 10.0.0.11. -/
def here : Fin 2 := 0

def there : Fin 2 := 1

/-- Two bytes from port 4000 to port 5000 of all hosts. -/
def helloFrame : Frame :=
  .ip ethbroadcast (twoMacs 0) { src := 0x0a00000a, dest := 0x0a0000ff, ttl := 255, tos := 0, payload := .udp 4000 5000 [104, 105] }

/-- The frame with its padding. -/
def padded (f : Frame) : List UInt8 := hdkif_output (fun _ => 0) (f.bytes 0)

theorem padded_arrives {f : Frame} (hw : (onePbuf (padded f)).Whole) (n : Nat)
    (h : (onePbuf (padded f)).bytes = f.bytes 0 ++ List.replicate n 0) : Arrives f (onePbuf (padded f)) :=
  ⟨hw, 0, List.replicate n 0, h⟩

/-- The frame arrives twice, the first time with the first byte of the data changed. -/
def helloRun : List (NetworkAction (Fin 2)) :=
  [.run 0 (.call (.add_listener .phys 4000 (some 0))), .run 1 (.call (.add_listener .phys 5000 (some 0))),
    .run 0 (.call (.data_send 0 (some .phys) 0x0a0000ff 5000 (some [104, 105]) 2 true ⟨true, true⟩)),
    .deliver 0 1 helloFrame (onePbuf ((padded helloFrame).set 42 106)) true ⟨true, true⟩,
    .deliver 0 1 helloFrame (onePbuf (padded helloFrame)) true ⟨true, true⟩]

theorem helloRun_legal : (network (Fin 2)).Legal (fun i => boot (twoBoots i)) helloRun :=
  ⟨⟨rfl, by decide +kernel⟩, ⟨rfl, by decide +kernel⟩, ⟨rfl, by decide +kernel⟩,
    ⟨⟨.phys, by decide +kernel⟩, by unfold RxPbuf.Whole; decide +kernel, 0, List.replicate 16 0, 42, 106, by decide,
      by decide +kernel⟩,
    ⟨⟨.phys, by decide +kernel⟩,
      (padded_arrives (by unfold RxPbuf.Whole; decide +kernel) 16 (by decide +kernel)).damaged⟩, trivial⟩

end MultiIp.Board

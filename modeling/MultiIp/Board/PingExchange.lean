import MultiIp.Board.PingRecv
import MultiIp.Lib.Run

/-!
# The exchange of an echo request and its reply

`ping_send` and `ping_wait_reply` as the main program runs them, statement by
statement, with packets arriving at any moment outside the protected sections.
The two share two flags, a number and a result with `ping_recv`.
-/

namespace MultiIp.Board

open Lwip

/-! ## The machine -/

/-- Where the main program is. -/
inductive PingPc
  | idle
  /-- `ping_send` has its raw control block and a pbuf. -/
  | entered
  /-- The request is built and `s_seq` counted up. -/
  | built
  /-- Behind the protected section. -/
  | sent (err : err_t)
  /-- `ping_send` has returned ERR_OK. -/
  | ready
  | loop (start timeout_ticks : UInt32)
  /-- The time is not over, `s_reply_valid` is read next. -/
  | body (start timeout_ticks : UInt32)
  | found
  | expired

/-- A request: its number, and when it was sent. -/
structure PingRequest where
  seqno : UInt16
  sent : Nat

/-- A packet, with its sender and the time at which it was handled. -/
structure Arrival where
  p : RxPbuf
  addr : ip_addr_t
  time : Nat

/-- A call of `ping_wait_reply` that returned 1: the request, the packets consumed since it was sent, and `*out`. -/
structure PingReturn where
  request : PingRequest
  consumed : List Arrival
  out : ping_result_t

structure Exchange where
  ping : Ping
  pc : PingPc
  /-- Ticks since start-up. The counter shows them modulo 2^32. -/
  now : Nat
  request : PingRequest
  /-- The packets consumed since the last request. -/
  consumed : List Arrival
  returns : List PingReturn
  /-- The packets that were not consumed, before and after `ping_recv`. -/
  passed : List (RxPbuf × RxPbuf)

namespace Exchange

def init (ping : Ping) : Exchange where
  ping := ping
  pc := .idle
  now := 0
  request := ⟨0, 0⟩
  consumed := []
  returns := []
  passed := []

/-- `rtiREG1->CNT[0U].FRCx`. -/
def frc (e : Exchange) : UInt32 := UInt32.ofNat e.now

inductive Step
  | tick (ticks : Nat)
  /-- `ping_send` up to its `pbuf_alloc`. `raw` and `alloc` say whether the allocations succeed. -/
  | ping_send (netif : Option NetifPtr) (target : Option ip_addr_t) (raw alloc : Bool)
  | build
  /-- The protected section. `err` is what `ip_output_if` returns. -/
  | protect (err : err_t)
  | check
  | ping_wait_reply (timeout_ms : UInt32)
  | test
  | read
  | take
  | clear
  | icmp (p : RxPbuf) (addr : ip_addr_t)

/-- `ping_recv` in the interrupt. -/
def receive (e : Exchange) (p : RxPbuf) (addr : ip_addr_t) : Exchange :=
  match ping_recv_pbuf e.ping p addr e.frc with
  | (ping, _, true) => { e with ping := ping, consumed := e.consumed ++ [⟨p, addr, e.now⟩] }
  | (ping, q, false) => { e with ping := ping, passed := e.passed ++ [(p, q)] }

def step (e : Exchange) : Step → Exchange
  | .tick ticks => { e with now := e.now + ticks }
  | .ping_send netif target raw alloc =>
    match netif, target with
    | some _, some _ =>
      if !e.ping.s_ping_pcb && !raw then e
      else
        let e := { e with ping := { e.ping with s_ping_pcb := true } }
        if !alloc then e else { e with pc := .entered }
    | _, _ => e
  | .build => { e with ping := { e.ping with s_seq := e.ping.s_seq + 1 }, pc := .built }
  | .protect err =>
    { e with
        ping := { e.ping with s_reply_valid := false, s_send_tick := e.frc, s_waiting := true }
        pc := .sent err
        request := ⟨e.ping.s_seq, e.now⟩
        consumed := [] }
  | .check =>
    match e.pc with
    | .sent .ERR_OK => { e with pc := .ready }
    | _ => { e with ping := { e.ping with s_waiting := false }, pc := .idle }
  | .ping_wait_reply timeout_ms => { e with pc := .loop e.frc (timeout_ms * PING_RTI_TICKS_PER_MS) }
  | .test =>
    match e.pc with
    | .loop start timeout_ticks =>
      if e.frc - start < timeout_ticks then { e with pc := .body start timeout_ticks } else { e with pc := .expired }
    | _ => e
  | .read =>
    match e.pc with
    | .body start timeout_ticks =>
      if e.ping.s_reply_valid then { e with pc := .found } else { e with pc := .loop start timeout_ticks }
    | _ => e
  | .take =>
    { e with
        ping := { e.ping with s_reply_valid := false }
        pc := .idle
        returns := e.returns ++ [⟨e.request, e.consumed, e.ping.s_result⟩] }
  | .clear => { e with ping := { e.ping with s_waiting := false }, pc := .idle }
  | .icmp p addr => e.receive p addr

/-- Each statement is run where the program is; time passes and packets arrive anywhere. -/
def allowed (e : Exchange) : Step → Prop
  | .tick _ => True
  | .ping_send _ _ _ _ => e.pc = .idle
  | .build => e.pc = .entered
  | .protect _ => e.pc = .built
  | .check => ∃ err, e.pc = .sent err
  | .ping_wait_reply _ => e.pc = .ready
  | .test => ∃ start timeout_ticks, e.pc = .loop start timeout_ticks
  | .read => ∃ start timeout_ticks, e.pc = .body start timeout_ticks
  | .take => e.pc = .found
  | .clear => e.pc = .expired
  | .icmp p _ => Accepted p

def machine : Lib.Machine Exchange Step where
  step := step
  allowed := allowed

end Exchange

/-! ## Safety -/

/-- The result is filled from the packet, and the packet answers the request. -/
structure Answers (r : PingRequest) (a : Arrival) (res : ping_result_t) : Prop where
  after : r.sent ≤ a.time
  carries : IsEchoReply a.p.bytes r.seqno
  from_ : res.from_ = a.addr
  seqno : res.seqno = r.seqno
  ttl : a.p.bytes[8]? = some res.ttl
  data_len : res.data_len.toNat = echoPayload a.p.bytes
  rtt : a.time - r.sent < 2 ^ 32 → res.rtt_ms.toNat = (a.time - r.sent) / 9375

structure ExchangeSafe (e : Exchange) : Prop where
  /-- What `ping_wait_reply` returned came from one packet. -/
  returned : ∀ t ∈ e.returns, ∃ a, t.consumed = [a] ∧ Answers t.request a t.out
  once : e.consumed.length ≤ 1
  untouched : ∀ t ∈ e.passed, t.2 = t.1

/-! ## The invariant -/

/-- No request is out. -/
def PingPc.before : PingPc → Bool
  | .idle | .entered | .built => true
  | _ => false

/-- A request is out: nothing has been consumed, or one packet has, and the result is filled from it. -/
inductive Outstanding (e : Exchange) : Prop
  | waiting (hwait : e.ping.s_waiting = true) (hvalid : e.ping.s_reply_valid = false) (hnone : e.consumed = [])
  | replied (hwait : e.ping.s_waiting = false) (hvalid : e.ping.s_reply_valid = true) (a : Arrival)
      (hone : e.consumed = [a]) (hanswers : Answers e.request a e.ping.s_result)

structure Current (e : Exchange) : Prop where
  seqno : e.request.seqno = e.ping.s_seq
  sent : e.request.sent ≤ e.now
  tick : e.ping.s_send_tick = UInt32.ofNat e.request.sent
  outstanding : Outstanding e

structure ExchangeInv (e : Exchange) : Prop where
  safe : ExchangeSafe e
  quiet : e.pc.before = true → e.ping.s_waiting = false
  current : e.pc.before = false → Current e
  found : e.pc = .found → e.ping.s_reply_valid = true

/-- The elapsed time, read off a counter that may have wrapped. -/
theorem rtt_eq {sent now : Nat} (h : sent ≤ now) (hlt : now - sent < 2 ^ 32) :
    ((UInt32.ofNat now - UInt32.ofNat sent) / PING_RTI_TICKS_PER_MS).toNat = (now - sent) / 9375 := by
  have hms : PING_RTI_TICKS_PER_MS.toNat = 9375 := rfl
  have hsub : (UInt32.ofNat now - UInt32.ofNat sent).toNat = now - sent := by
    rw [UInt32.toNat_sub, UInt32.toNat_ofNat', UInt32.toNat_ofNat']
    omega
  rw [UInt32.toNat_div, hsub, hms]

/-- A packet that `ping_recv` consumes answers the request, if its echo header lies in the first pbuf. -/
theorem consumed_answers {e : Exchange} (h : Current e) {p : RxPbuf} {addr : ip_addr_t} (hp : Accepted p)
    (hfirst : EchoInFirst p)
    (hlong : (icmpPacket p addr).ip_hlen + SIZEOF_ICMP_ECHO_HDR ≤ (icmpPacket p addr).tot_len)
    (htype : (icmpPacket p addr).type = ICMP_ER) (hid : (icmpPacket p addr).id = PING_ID)
    (hseq : (icmpPacket p addr).seqno = e.ping.s_seq) :
    Answers e.request ⟨p, addr, e.now⟩
      { from_ := addr, seqno := e.ping.s_seq
        data_len := p.tot_len - UInt16.ofNat (ipHlen (p.byteAt 0)) - SIZEOF_ICMP_ECHO_HDR
        rtt_ms := (e.frc - e.ping.s_send_tick) / PING_RTI_TICKS_PER_MS, ttl := p.byteAt 8 } := by
  have hhdr : SIZEOF_ICMP_ECHO_HDR.toNat = 8 := rfl
  have hmax := ipHlen_le (p.byteAt 0)
  have hlen16 := hlen_toNat p
  have hpos : 4 ≤ ipHlen (p.byteAt 0) := hlen_pos hp htype
  -- The size check of the source, in natural numbers.
  have hlong' : ipHlen (p.byteAt 0) + 8 ≤ p.tot_len.toNat := by
    have hle := UInt16.le_iff_toNat_le.mp hlong
    simp only [icmpPacket, UInt16.toNat_add, hlen16, hhdr] at hle
    omega
  have hin : ipHlen (p.byteAt 0) + 8 ≤ p.len.toNat := hfirst hlong'
  have hheader : headerLength p.bytes = ipHlen (p.byteAt 0) := headerLength_bytes (by omega)
  have hcarries : IsEchoReply p.bytes e.request.seqno := by
    refine ⟨?_, ?_, ?_⟩
    · rw [hheader, RxPbuf.bytes_getElem (by omega)]
      exact congrArg some htype
    · rw [hheader, shortOf_bytes (by omega)]
      exact congrArg some hid
    · rw [hheader, shortOf_bytes (by omega), h.seqno]
      exact congrArg some hseq
  have httl : p.bytes[8]? = some (p.byteAt 8) := RxPbuf.bytes_getElem (by omega)
  refine ⟨h.sent, hcarries, rfl, h.seqno.symm, httl, ?_, fun hlt => ?_⟩
  · have hbytes : p.bytes.length = p.tot_len.toNat := RxPbuf.bytes_length.trans hp.tot_len.symm
    have hlt := p.tot_len.toNat_lt
    rw [echoPayload, hheader, hbytes, UInt16.toNat_sub, UInt16.toNat_sub, hlen16, hhdr]
    omega
  · rw [h.tick]
    exact rtt_eq h.sent hlt

theorem receive_inv {e : Exchange} (h : ExchangeInv e) {p : RxPbuf} (hp : Accepted p) (hfirst : EchoInFirst p)
    (addr : ip_addr_t) : ExchangeInv (e.receive p addr) := by
  obtain ⟨hping, heaten, hback⟩ := ping_recv_pbuf_eq e.ping p addr e.frc
  rcases hrecv : ping_recv_pbuf e.ping p addr e.frc with ⟨ping, q, eaten⟩
  rw [hrecv] at hping heaten hback
  dsimp only at hping heaten hback
  rcases ping_recv_cases e.ping (icmpPacket p addr) e.frc with hcase | ⟨hwait, hvalid, hlong, -, htype, hid, hseq, hcase⟩
  · -- The packet goes back to the stack.
    rw [hcase] at hping heaten
    dsimp only at hping heaten
    subst hping heaten
    obtain rfl := hback rfl
    simp only [Exchange.receive, hrecv]
    refine ⟨⟨h.safe.returned, h.safe.once, ?_⟩, h.quiet, fun hpc => ?_, h.found⟩
    · intro t ht
      rcases List.mem_append.mp ht with ht | ht
      · exact h.safe.untouched t ht
      · rw [List.mem_singleton.mp ht]
    · obtain ⟨hs, hn, ht, ho⟩ := h.current hpc
      refine ⟨hs, hn, ht, ?_⟩
      cases ho with
      | waiting hw hv hc => exact .waiting hw hv hc
      | replied hw hv a hc ha => exact .replied hw hv a hc ha
  · -- The packet is consumed, so a request is out and nothing has been consumed for it.
    rw [hcase] at hping heaten
    dsimp only at hping heaten
    subst hping heaten
    have hpc : e.pc.before = false := by
      rw [Bool.eq_false_iff]
      intro hpc
      rw [h.quiet hpc] at hwait
      cases hwait
    have hcur := h.current hpc
    have hanswers := consumed_answers hcur hp hfirst hlong htype hid hseq
    have hnone : e.consumed = [] := by
      cases hcur.outstanding with
      | waiting _ _ hnone => exact hnone
      | replied hw _ _ _ _ =>
        rw [hw] at hwait
        cases hwait
    simp only [Exchange.receive, hrecv, hnone, List.nil_append]
    refine ⟨⟨h.safe.returned, Nat.le_refl 1, h.safe.untouched⟩, fun _ => rfl, fun _ => ?_, fun _ => rfl⟩
    exact ⟨hcur.seqno, hcur.sent, hcur.tick, .replied rfl rfl _ rfl hanswers⟩

/-- Packets whose echo header is not in the first pbuf do not arrive. -/
def Exchange.Step.echoInFirst : Exchange.Step → Prop
  | .icmp p _ => EchoInFirst p
  | _ => True

theorem Outstanding.congr {e e' : Exchange} (h : Outstanding e) (hp : e'.ping = e.ping) (hr : e'.request = e.request)
    (hc : e'.consumed = e.consumed) : Outstanding e' := by
  cases h with
  | waiting hw hv hnone => exact .waiting (hp ▸ hw) (hp ▸ hv) (hc ▸ hnone)
  | replied hw hv a hone ha => exact .replied (hp ▸ hw) (hp ▸ hv) a (hc ▸ hone) (hr ▸ hp ▸ ha)

theorem ExchangeInv.move {e : Exchange} (h : ExchangeInv e) {pc : PingPc} (hpc : e.pc.before = false)
    (hbefore : pc.before = false) (hfound : pc = .found → e.ping.s_reply_valid = true) :
    ExchangeInv { e with pc := pc } := by
  have hcur := h.current hpc
  refine ⟨⟨h.safe.returned, h.safe.once, h.safe.untouched⟩, fun hb => ?_, fun _ => ?_, hfound⟩
  · rw [hbefore] at hb
    cases hb
  · exact ⟨hcur.seqno, hcur.sent, hcur.tick, hcur.outstanding.congr rfl rfl rfl⟩

theorem ExchangeInv.done {e : Exchange} (h : ExchangeInv e) {ping : Ping} {returns : List PingReturn}
    (hwait : ping.s_waiting = false)
    (hreturns : ∀ t ∈ returns, ∃ a, t.consumed = [a] ∧ Answers t.request a t.out) :
    ExchangeInv { e with ping := ping, pc := .idle, returns := returns } :=
  ⟨⟨hreturns, h.safe.once, h.safe.untouched⟩, fun _ => hwait, fun hb => (by cases hb), fun hf => (by cases hf)⟩

theorem exchange_step (e : Exchange) (a : Exchange.Step) (h : ExchangeInv e) (ha : Exchange.allowed e a)
    (hfirst : a.echoInFirst) : ExchangeInv (e.step a) := by
  cases a with
  | tick ticks =>
    refine ⟨⟨h.safe.returned, h.safe.once, h.safe.untouched⟩, h.quiet, fun hpc => ?_, h.found⟩
    obtain ⟨hs, hn, ht, ho⟩ := h.current hpc
    exact ⟨hs, Nat.le_trans hn (Nat.le_add_right _ _), ht, ho.congr rfl rfl rfl⟩
  | ping_send netif target raw alloc =>
    have hidle : e.pc = .idle := ha
    have hwait : e.ping.s_waiting = false := h.quiet (by rw [hidle]; rfl)
    have hentered : ∀ pc : PingPc, pc.before = true → ∀ pcb, pc ≠ .found →
        ExchangeInv { e with ping := { e.ping with s_ping_pcb := pcb }, pc := pc } := by
      intro pc hpc pcb hne
      refine ⟨⟨h.safe.returned, h.safe.once, h.safe.untouched⟩, fun _ => hwait, fun hb => ?_, fun hf => absurd hf hne⟩
      rw [hpc] at hb
      cases hb
    simp only [Exchange.step]
    split
    · split
      · exact h
      · split
        · have hstay := hentered e.pc (by rw [hidle]; rfl) true (by rw [hidle]; exact PingPc.noConfusion)
          exact hstay
        · exact hentered .entered rfl true PingPc.noConfusion
    · exact h
  | build =>
    have hentered : e.pc = .entered := ha
    have hwait : e.ping.s_waiting = false := h.quiet (by rw [hentered]; rfl)
    exact ⟨⟨h.safe.returned, h.safe.once, h.safe.untouched⟩, fun _ => hwait, fun hb => (by cases hb), fun hf => (by cases hf)⟩
  | protect err =>
    refine ⟨⟨h.safe.returned, Nat.zero_le 1, h.safe.untouched⟩, fun hb => (by cases hb), fun _ => ?_, fun hf => (by cases hf)⟩
    exact ⟨rfl, Nat.le_refl _, rfl, .waiting rfl rfl rfl⟩
  | check =>
    obtain ⟨err, hsent⟩ := ha
    have hpc : e.pc.before = false := by rw [hsent]; rfl
    simp only [Exchange.step]
    split
    · exact h.move hpc rfl (fun hf => by cases hf)
    · exact h.done rfl h.safe.returned
  | ping_wait_reply timeout_ms =>
    have hready : e.pc = .ready := ha
    exact h.move (by rw [hready]; rfl) rfl (fun hf => by cases hf)
  | test =>
    obtain ⟨start, timeout_ticks, hloop⟩ := ha
    have hpc : e.pc.before = false := by rw [hloop]; rfl
    simp only [Exchange.step, hloop]
    split
    · exact h.move hpc rfl (fun hf => by cases hf)
    · exact h.move hpc rfl (fun hf => by cases hf)
  | read =>
    obtain ⟨start, timeout_ticks, hbody⟩ := ha
    have hpc : e.pc.before = false := by rw [hbody]; rfl
    simp only [Exchange.step, hbody]
    split
    · rename_i hvalid
      exact h.move hpc rfl (fun _ => hvalid)
    · exact h.move hpc rfl (fun hf => by cases hf)
  | take =>
    have hfound : e.pc = .found := ha
    have hvalid := h.found hfound
    have hcur := h.current (by rw [hfound]; rfl)
    cases hcur.outstanding with
    | waiting hw hv hnone =>
      rw [hv] at hvalid
      cases hvalid
    | replied hw hv a hone hanswers =>
      refine h.done hw (fun t ht => ?_)
      rcases List.mem_append.mp ht with ht | ht
      · exact h.safe.returned t ht
      · rw [List.mem_singleton.mp ht]
        exact ⟨a, hone, hanswers⟩
  | clear => exact h.done rfl h.safe.returned
  | icmp p addr => exact receive_inv h ha hfirst addr

theorem exchange_init {ping : Ping} (h : ping.s_waiting = false) : ExchangeInv (.init ping) :=
  ⟨⟨fun t ht => (by cases ht), Nat.zero_le 1, fun t ht => (by cases ht)⟩, fun _ => h, fun hb => (by cases hb),
    fun hf => (by cases hf)⟩

theorem exchange_run {e : Exchange} (h : ExchangeInv e) {as : List Exchange.Step} (hl : Exchange.machine.Legal e as)
    (hfirst : ∀ a ∈ as, a.echoInFirst) : ExchangeInv (Exchange.machine.run e as) := by
  induction as generalizing e with
  | nil => exact h
  | cons a as ih =>
    obtain ⟨ha, hrest⟩ := hl
    rw [List.forall_mem_cons] at hfirst
    exact ih (exchange_step e a h ha hfirst.1) hrest hfirst.2

/-- In every run whose packets have their echo header in the first pbuf, a result is filled from one reply to its
request, no request consumes two packets, and every other packet is left as it was. -/
theorem ping_exchange_safe (as : List Exchange.Step) (hl : Exchange.machine.Legal (.init .init) as)
    (hfirst : ∀ a ∈ as, a.echoInFirst) : ExchangeSafe (Exchange.machine.run (.init .init) as) :=
  (exchange_run (exchange_init rfl) hl hfirst).safe

/-! ## Two runs -/

/-- A packet behind an Ethernet header, `stale` being what an earlier frame left in the rest of the buffer. -/
def rxPacket (first stale next : List UInt8) : RxPbuf where
  mem k := (List.replicate 14 0 ++ first ++ stale).getD k 0
  payload := 14
  len := UInt16.ofNat first.length
  tot_len := UInt16.ofNat (first.length + next.length)
  next := next

/-- The header of an IP packet of 30 bytes with an ICMP message, from 10.0.0.5 to 10.0.0.10. -/
def ipHeader : List UInt8 := [0x45, 0, 0, 30, 0, 1, 0, 0, 64, 1, 0x66, 0xd0, 10, 0, 0, 5, 10, 0, 0, 10]

/-- A ping of 10.0.0.5 that is answered by `p` after one millisecond. -/
def pingRun (p : RxPbuf) : List Exchange.Step :=
  [.ping_send (some .phys) (some 0x0a000005) true true, .build, .protect .ERR_OK, .check, .ping_wait_reply 1000,
    .tick 9375, .icmp p 0x0a000005, .test, .read, .take]

/-- The reply to the first request, in one pbuf. -/
def wholeReply : RxPbuf := rxPacket (ipHeader ++ [0, 0, 0x4f, 0x84, 0xaf, 0xaf, 0, 1, 0, 0]) [] []

/-- A reply with another id and number. Its first pbuf ends behind the type and code, and the memory behind holds the
id and number of the first request. -/
def splitReply : RxPbuf :=
  rxPacket (ipHeader ++ [0, 0]) [0, 0, 0xaf, 0xaf, 0, 1] [0x84, 0xff, 0x12, 0x34, 0, 0x63, 0x68, 0x69]

theorem wholeReply_accepted : Accepted wholeReply :=
  ⟨by decide +kernel, by decide +kernel, by decide +kernel⟩

theorem splitReply_accepted : Accepted splitReply :=
  ⟨by decide +kernel, by decide +kernel, by decide +kernel⟩

theorem ping_exchange_safe_sample :
    Exchange.machine.Legal (.init .init) (pingRun wholeReply) ∧
      (Exchange.machine.run (.init .init) (pingRun wholeReply)).returns.length = 1 ∧
      ExchangeSafe (Exchange.machine.run (.init .init) (pingRun wholeReply)) := by
  have hlegal : Exchange.machine.Legal (.init .init) (pingRun wholeReply) :=
    ⟨rfl, rfl, rfl, ⟨_, rfl⟩, rfl, trivial, wholeReply_accepted, ⟨_, _, rfl⟩, ⟨_, _, rfl⟩, rfl, trivial⟩
  have hfirst : ∀ a ∈ pingRun wholeReply, a.echoInFirst := by
    have hwhole : EchoInFirst wholeReply := fun _ => by decide +kernel
    simp [pingRun, Exchange.Step.echoInFirst, hwhole]
  exact ⟨hlegal, rfl, ping_exchange_safe _ hlegal hfirst⟩

/-- The packet is consumed and returned although it carries neither the id nor the number of the request. -/
theorem split_reply_consumed :
    Exchange.machine.Legal (.init .init) (pingRun splitReply) ∧
      ¬ ExchangeSafe (Exchange.machine.run (.init .init) (pingRun splitReply)) := by
  refine ⟨⟨rfl, rfl, rfl, ⟨_, rfl⟩, rfl, trivial, splitReply_accepted, ⟨_, _, rfl⟩, ⟨_, _, rfl⟩, rfl, trivial⟩, ?_⟩
  intro hsafe
  have hreturns : ∃ out, (Exchange.machine.run (.init .init) (pingRun splitReply)).returns =
      [⟨⟨1, 0⟩, [⟨splitReply, 0x0a000005, 9375⟩], out⟩] := ⟨_, rfl⟩
  obtain ⟨out, hreturns⟩ := hreturns
  obtain ⟨a, hone, hanswers⟩ := hsafe.returned _ (by rw [hreturns]; exact List.mem_singleton_self _)
  obtain rfl := (List.cons.inj hone).1
  have hcarries : IsEchoReply splitReply.bytes 1 := hanswers.carries
  exact absurd hcarries (by decide +kernel)

end MultiIp.Board

namespace MultiIp.Firmware

open Board Lwip

/-! ## The commands' view

`ping_send` and `ping_wait_reply` as the commands use them are runs of this machine. -/

theorem ping_send_run {f : Firmware} {e : Exchange} (hping : e.ping = f.ping) {env : PingEnv} (htick : e.frc = env.tick)
    (hraw : (f.ping.s_ping_pcb || env.raw) = true) (halloc : env.alloc = true) (n : NetifPtr) (target : ip_addr_t) :
    (f.ping_send (some n) target env).1.ping =
      (Exchange.machine.run e [.ping_send (some n) (some target) env.raw env.alloc, .build,
        .protect (f.ping_send (some n) target env).2, .check]).ping := by
  have hpcb : (!f.ping.s_ping_pcb && !env.raw) = false := by
    rw [← Bool.not_or, hraw]
    rfl
  simp only [Firmware.ping_send, Exchange.machine, Lib.Machine.run, List.foldl_cons, List.foldl_nil, Exchange.step,
    hping, hpcb, halloc, Bool.not_true, Bool.false_eq_true, if_false]
  generalize (ip_output_if f.board.net (f.board.net.netifs n).ip_addr target ICMP_TTL 0
    (.icmp_echo (f.ping.s_seq + 1)) n env.out).2 = err
  rw [← htick]
  cases err <;> rfl

/-- A packet that is handled after so many ticks. -/
structure Incoming where
  ticks : Nat
  p : RxPbuf
  addr : ip_addr_t

def deliver (e : Exchange) (k : Incoming) : Exchange := (e.step (.tick k.ticks)).step (.icmp k.p k.addr)

/-- The interrupts of the packets, with what the counter shows when they are handled. -/
def interruptsOf : Exchange → List Incoming → List Interrupt
  | _, [] => []
  | e, k :: ks => .icmp (icmpPacket k.p k.addr) (e.step (.tick k.ticks)).frc :: interruptsOf (deliver e k) ks

theorem deliver_ping (e : Exchange) (k : Incoming) :
    (deliver e k).ping = ( ping_recv e.ping (icmpPacket k.p k.addr) (e.step (.tick k.ticks)).frc).1 := by
  have hrecv := (ping_recv_pbuf_eq e.ping k.p k.addr (e.step (.tick k.ticks)).frc).1
  rw [← hrecv]
  simp only [deliver, Exchange.step, Exchange.receive]
  split <;> rename_i heq <;> rw [heq]

theorem interrupts_deliver (ks : List Incoming) {f : Firmware} {e : Exchange} (hping : e.ping = f.ping) :
    (f.interrupts (interruptsOf e ks)).ping = (ks.foldl deliver e).ping := by
  induction ks generalizing f e with
  | nil => exact hping.symm
  | cons k ks ih =>
    refine ih ?_
    rw [deliver_ping, hping]
    rfl

/-- `ping_wait_reply` ends with the statements for a reply, or with those for a timeout. -/
theorem ping_wait_reply_run (during late : List Incoming) {f : Firmware} {e : Exchange} (hping : e.ping = f.ping) :
    let e' := during.foldl deliver e
    let r := f.ping_wait_reply (interruptsOf e during) (interruptsOf e' late)
    r.1.ping = (if e'.ping.s_reply_valid then e'.step .take else (late.foldl deliver e').step .clear).ping ∧
      r.2 = if e'.ping.s_reply_valid then some e'.ping.s_result else none := by
  intro e' r
  have hduring : (f.interrupts (interruptsOf e during)).ping = e'.ping := interrupts_deliver during hping
  have hlate := interrupts_deliver late hduring.symm
  unfold r Firmware.ping_wait_reply
  dsimp only
  rw [hduring]
  split
  · exact ⟨rfl, rfl⟩
  · refine ⟨?_, rfl⟩
    dsimp only
    rw [hlate]
    rfl

end MultiIp.Firmware

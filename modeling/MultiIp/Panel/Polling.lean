import MultiIp.Board.Addressed
import MultiIp.Board.Bindings
import MultiIp.Panel.Events

/-!
# One pass of the main loop

`EMAC_LwIP_Main` walks over the interfaces and their sockets, polls each and
prints what it finds. Which sockets an interface has is counted again in every
round, and interrupts arrive between any two statements.
-/

namespace MultiIp.Firmware

open Board Lwip Lib Panel

/-! ## The loops -/

/-- The interrupts of one round: before the loop's test, before the socket is looked up, before it is polled, and
before the event is printed. -/
structure RoundIrq where
  test : List Interrupt
  get : List Interrupt
  poll : List Interrupt
  print : List Interrupt

/-- A call of `udp_source_poll_rx`: the state it was made in, its id, and the event printed after it. -/
structure Polled where
  before : Board
  socket_id : udp_sock_id_t
  event : Option RxEvent

/-- The state of the loops, with the calls made so far. `rx_msg` is the loop's local variable. -/
structure Pass where
  firmware : Firmware
  rx_msg : udp_rx_msg_t
  polls : List Polled

namespace Pass

def interrupts (s : Pass) (is : List Interrupt) : Pass := { s with firmware := s.firmware.interrupts is }

/-- What the pass has printed. -/
def printed (s : Pass) : Text := ((s.polls.filterMap (·.event)).map rxText).flatten

end Pass

/-- The body of the inner loop. -/
def pollRound (n : NetifPtr) (j : UInt8) (irq : RoundIrq) (s : Pass) : Pass :=
  let f := s.firmware.interrupts irq.get
  let socket := udp_source_get_socket f.board n j
  let f := f.interrupts irq.poll
  match udp_source_poll_rx f.board socket.socket_id (some s.rx_msg) with
  | (b, true, some rx_msg) =>
    let g := (f.setBoard b).interrupts irq.print
    let event := socket.netif.map (fun m =>
      { my_ip := (g.board.net.netifs m).ip_addr, local_port := socket.local_port, rx_msg := rx_msg })
    ⟨g, rx_msg, s.polls ++ [⟨f.board, socket.socket_id, event⟩]⟩
  | (b, _, _) => ⟨f.setBoard b, s.rx_msg, s.polls ++ [⟨f.board, socket.socket_id, none⟩]⟩

theorem next_round {j : UInt8} {b : Board} {n : NetifPtr} (h : j.toNat < udp_source_count_sockets b n) :
    (j + 1).toNat = j.toNat + 1 := by
  have hcount := count_le b n
  rw [UInt8.toNat_add, UInt8.toNat_one]
  omega

/-- `for (j = 0; j < udp_source_count_sockets(n); j++)`. There are never more than 16 sockets to count. -/
def pollSockets (n : NetifPtr) (irq : UInt8 → RoundIrq) (s : Pass) (j : UInt8) : Pass :=
  if _h : j.toNat < udp_source_count_sockets (s.interrupts (irq j).test).firmware.board n then
    pollSockets n irq (pollRound n j (irq j) (s.interrupts (irq j).test)) (j + 1)
  else s.interrupts (irq j).test
termination_by 16 - j.toNat
decreasing_by
  have hcount := count_le (s.interrupts (irq j).test).firmware.board n
  have hnext := next_round _h
  omega

/-- `for (n = netif_list; n != NULL; n = n->next)`. -/
def pollNetifs (irq : NetifPtr → UInt8 → RoundIrq) : Nat → Option NetifPtr → Pass → Pass
  | 0, _, s => s
  | _ + 1, none, s => s
  | fuel + 1, some n, s =>
    let s := pollSockets n (irq n) s 0
    pollNetifs irq fuel (s.firmware.board.net.next n) s

def pollPass (f : Firmware) (rx_msg : udp_rx_msg_t) (irq : NetifPtr → UInt8 → RoundIrq) : Pass :=
  pollNetifs irq netifCount f.board.net.netif_list ⟨f, rx_msg, []⟩

/-! ## What a pass leaves alone -/

/-- The sockets stay as they are, and the messages that wait in them stay there until they are polled. -/
structure Waits (b b' : Board) (polled : List SlotIdx) : Prop where
  steady : Steady b b'
  next : b'.net.next = b.net.next
  generation : ∀ i, (b'.s_listeners i).generation_count = (b.s_listeners i).generation_count
  waiting : ∀ i, i ∉ polled → (b.s_listeners i).rx_msg.valid = true →
    (b'.s_listeners i).rx_msg = (b.s_listeners i).rx_msg

namespace Waits

variable {a b c : Board}

theorem refl (b : Board) : Waits b b [] := ⟨.refl b, rfl, fun _ => rfl, fun _ _ _ => rfl⟩

theorem trans {is js : List SlotIdx} (h : Waits a b is) (h' : Waits b c js) : Waits a c (is ++ js) where
  steady := h.steady.trans h'.steady
  next := h'.next.trans h.next
  generation i := (h'.generation i).trans (h.generation i)
  waiting i hi hv := by
    rw [List.mem_append, not_or] at hi
    have hb := h.waiting i hi.1 hv
    rw [h'.waiting i hi.2 (by rw [hb]; exact hv), hb]

theorem onNetif_eq {is : List SlotIdx} (h : Waits a b is) (n : NetifPtr) (i : SlotIdx) :
    onNetif b n i = onNetif a n i := by
  obtain ⟨hu, -, hn⟩ := h.steady.slots i
  rw [onNetif, onNetif, hu, hn]

theorem socketsOn_eq {is : List SlotIdx} (h : Waits a b is) (n : NetifPtr) : socketsOn b n = socketsOn a n := by
  have hon : onNetif b n = onNetif a n := funext (h.onNetif_eq n)
  rw [socketsOn, hon, socketsOn]

end Waits

/-- A slot that is given a datagram stays open, and keeps the message that waits in it. -/
theorem received_waits {s s' : udp_listener_t} {d : Option Delivery} (h : SlotStep s none d none s')
    (huse : s'.in_use = s.in_use) :
    s'.generation_count = s.generation_count ∧ (s.rx_msg.valid = true → s'.rx_msg = s.rx_msg) := by
  cases h with
  | keep => exact ⟨rfl, fun _ => rfl⟩
  | opened p n hn hfree => cases hn
  | closed hopen =>
    rw [hopen] at huse
    cases huse
  | received d hopen =>
    unfold receiveSlot
    split
    · exact ⟨rfl, fun _ => rfl⟩
    · rename_i hv
      exact ⟨rfl, fun h => absurd h hv⟩

theorem interrupt_waits {f : Firmware} (h : Inv f) (i : Interrupt) : Waits f.board (f.interrupt i).board [] := by
  have hsteady := interrupt_steady h i
  cases i with
  | udp inp d alloc out =>
    have hslot := fun j => received_waits (udp_input_slotStep f.board inp d alloc out j) (hsteady.slots j).1
    exact ⟨hsteady, (udp_input_same f.board inp d alloc out).next, fun j => (hslot j).1, fun j _ => (hslot j).2⟩
  | arp fr =>
    refine ⟨hsteady, ?_, fun _ => rfl, fun _ _ _ => rfl⟩
    simp only [interrupt, ethernet_input_arp]
    split <;> rfl
  | icmp k now => exact .refl f.board

theorem interrupts_waits {f : Firmware} (h : Inv f) (is : List Interrupt) :
    Waits f.board (f.interrupts is).board [] := by
  induction is generalizing f with
  | nil => exact .refl f.board
  | cons i is ih => exact (interrupt_waits h i).trans (ih (h.interrupt i))

/-! ## What a call of `udp_source_poll_rx` serves -/

/-- The call polls the open slot `i`. What waited there in the state `b` is printed with the address of the slot's
interface and the port of its socket, and so is anything else that the call finds. -/
structure Serves (b : Board) (p : Polled) (i : SlotIdx) : Prop where
  in_use : (b.s_listeners i).in_use = true
  resolves : resolve p.before p.socket_id = some i
  event : ∃ n q, (b.s_listeners i).netif = some n ∧ (b.s_listeners i).pcb = some q ∧
    (∀ e ∈ p.event, e.my_ip = (b.net.netifs n).ip_addr ∧ e.local_port = (b.udp.pcbs q).local_port) ∧
    ((b.s_listeners i).rx_msg.valid = true →
      p.event = some ⟨(b.net.netifs n).ip_addr, (b.udp.pcbs q).local_port, (b.s_listeners i).rx_msg⟩)

/-- A call that serves a slot after others have been polled serves it as it was before. -/
theorem Serves.of_waits {b b' : Board} {is : List SlotIdx} {p : Polled} {i : SlotIdx} (h : Serves b' p i)
    (hw : Waits b b' is) (hi : i ∉ is) : Serves b p i := by
  obtain ⟨hu, hp, hn⟩ := hw.steady.slots i
  obtain ⟨n, q, hnetif, hpcb, hall, hwait⟩ := h.event
  rw [hw.steady.netifs, hw.steady.pcbs] at hall hwait
  refine ⟨hu ▸ h.in_use, h.resolves, n, q, hn ▸ hnetif, hp ▸ hpcb, hall, fun hv => ?_⟩
  have hsame := hw.waiting i hi hv
  rw [hsame] at hwait
  exact hwait hv

theorem poll_rx_waits {b : Board} {id : udp_sock_id_t} {i : SlotIdx} (hres : resolve b id = some i)
    (msg : Option udp_rx_msg_t) : Waits b (udp_source_poll_rx b id msg).1 [i] := by
  rcases poll_rx_spec b id msg with h | ⟨j, hj, -, h⟩
  · rw [h]
    exact ⟨.refl b, rfl, fun _ => rfl, fun _ _ _ => rfl⟩
  · obtain rfl : i = j := Option.some.inj (hres.symm.trans hj)
    rw [h]
    have hslot : ∀ k, ((b.modifySlot i readSlot).s_listeners k) =
        if k = i then readSlot (b.s_listeners i) else b.s_listeners k := by
      intro k
      simp only [modifySlot, Function.update_apply]
    refine ⟨⟨rfl, rfl, rfl, .refl _, fun k => ?_⟩, rfl, fun k => ?_, fun k hk _ => ?_⟩
    · rw [hslot]
      split
      · rename_i hki
        rw [hki]
        exact ⟨rfl, rfl, rfl⟩
      · exact ⟨rfl, rfl, rfl⟩
    · rw [hslot]
      split
      · rename_i hki
        rw [hki]
        rfl
      · rfl
    · rw [hslot, if_neg (by simpa using hk)]

theorem Inv.poll_rx {f : Firmware} (h : Inv f) (id : udp_sock_id_t) (msg : Option udp_rx_msg_t) :
    Inv (f.setBoard (udp_source_poll_rx f.board id msg).1) :=
  h.call (.poll_rx id msg) (fun n hn => by cases hn)

theorem poll_rx_of_resolve {b : Board} {id : udp_sock_id_t} {i : SlotIdx} (hres : resolve b id = some i)
    (msg : udp_rx_msg_t) :
    udp_source_poll_rx b id (some msg) =
      if (b.s_listeners i).rx_msg.valid then
        (b.modifySlot i readSlot, true, some (b.s_listeners i).rx_msg)
      else (b, false, some msg) := by
  unfold udp_source_poll_rx
  rw [hres]
  rfl

/-- The socket that a round looks up, and the slot that its id still names when it is polled. -/
theorem looked_up {f g : Firmware} (hw : Waits f.board g.board []) {n : NetifPtr} {j : UInt8} {i : SlotIdx}
    {q : PcbPtr} (hi : (socketsOn f.board n)[j.toNat]? = some i) (hq : (f.board.s_listeners i).pcb = some q) :
    udp_source_get_socket f.board n j =
        { netif := some n, local_port := (f.board.udp.pcbs q).local_port, socket_id := make_id f.board i } ∧
      resolve g.board (make_id f.board i) = some i := by
  have hon : onNetif f.board n i = true := (List.mem_filter.mp (List.mem_of_getElem? hi)).2
  constructor
  · rw [udp_source_get_socket, hi]
    simp only [hq]
  · have huse := (hw.steady.slots i).1.trans (onNetif_in_use hon)
    rw [resolve_make_id, if_pos ⟨huse, (hw.generation i).symm⟩]

/-- One round serves the socket at position `j`. -/
theorem pollRound_spec {s : Pass} (h : Inv s.firmware) {n : NetifPtr} {j : UInt8} {i : SlotIdx}
    (hi : (socketsOn s.firmware.board n)[j.toNat]? = some i) (irq : RoundIrq) :
    ∃ p, (pollRound n j irq s).polls = s.polls ++ [p] ∧ Serves s.firmware.board p i ∧
      Inv (pollRound n j irq s).firmware ∧
      Waits s.firmware.board (pollRound n j irq s).firmware.board [i] := by
  have hget := h.interrupts irq.get
  have hpoll := hget.interrupts irq.poll
  have hw1 := interrupts_waits h irq.get
  have hw2 := interrupts_waits hget irq.poll
  have hw12 := hw1.trans hw2
  -- The slot has its interface and its control block.
  have hon : onNetif s.firmware.board n i = true := (List.mem_filter.mp (List.mem_of_getElem? hi)).2
  have huse := onNetif_in_use hon
  obtain ⟨l, hreg⟩ := h.board.registry
  obtain ⟨q, hq⟩ := (hreg.in_use_iff i).mp huse
  have hq1 : ((s.firmware.interrupts irq.get).board.s_listeners i).pcb = some q :=
    (hw1.steady.slots i).2.1.trans hq
  rw [← hw1.socketsOn_eq n] at hi
  obtain ⟨hsock, hres⟩ := looked_up hw2 hi hq1
  have hwaits := hw12.trans (poll_rx_waits hres (some s.rx_msg))
  have hinv := hpoll.poll_rx (make_id (s.firmware.interrupts irq.get).board i) (some s.rx_msg)
  have hread := poll_rx_of_resolve hres s.rx_msg
  unfold pollRound
  dsimp only
  rw [hsock]
  dsimp only
  rw [hread]
  rw [hread] at hwaits hinv
  by_cases hv : (((s.firmware.interrupts irq.get).interrupts irq.poll).board.s_listeners i).rx_msg.valid = true
  · rw [if_pos hv] at hwaits hinv ⊢
    dsimp only at hwaits hinv ⊢
    have hprint := interrupts_waits hinv irq.print
    have hall := hwaits.trans hprint
    refine ⟨_, rfl, ⟨huse, hres, n, q, onNetif_netif_eq hon, hq, ?_, fun hv0 => ?_⟩, hinv.interrupts irq.print, hall⟩
    · intro e he
      obtain rfl := Option.some.inj he
      dsimp only
      rw [hall.steady.netifs, hw1.steady.pcbs]
      exact ⟨rfl, rfl⟩
    · dsimp only [Option.map_some]
      rw [hall.steady.netifs, hw1.steady.pcbs, hw12.waiting i (by simp) hv0]
  · rw [if_neg hv] at hwaits hinv ⊢
    dsimp only at hwaits hinv ⊢
    refine ⟨_, rfl, ⟨huse, hres, n, q, onNetif_netif_eq hon, hq, ?_, fun hv0 => ?_⟩, hinv, hwaits⟩
    · intro e he
      cases he
    rw [hw12.waiting i (by simp) hv0] at hv
    exact absurd hv0 hv

/-- A pass polls the slots of `is`, in this order. -/
structure Polls (s s' : Pass) (is : List SlotIdx) : Prop where
  inv : Inv s'.firmware
  waits : Waits s.firmware.board s'.firmware.board is
  served : ∃ ps, s'.polls = s.polls ++ ps ∧ List.Forall₂ (Serves s.firmware.board) ps is

namespace Polls

theorem quiet {s : Pass} (h : Inv s.firmware) (is : List Interrupt) : Polls s (s.interrupts is) [] :=
  ⟨h.interrupts is, interrupts_waits h is, [], (List.append_nil _).symm, .nil⟩

theorem trans {s t u : Pass} {is js : List SlotIdx} (h : Polls s t is) (h' : Polls t u js)
    (hnd : (is ++ js).Nodup) : Polls s u (is ++ js) := by
  obtain ⟨ps, hps, hserved⟩ := h.served
  obtain ⟨qs, hqs, hserved'⟩ := h'.served
  refine ⟨h'.inv, h.waits.trans h'.waits, ps ++ qs, by rw [hqs, hps, List.append_assoc], ?_⟩
  refine List.rel_append hserved ?_
  have hdisj := List.disjoint_of_nodup_append hnd
  clear hnd hqs h' hps
  induction hserved' with
  | nil => exact .nil
  | cons hp _ ih =>
    rw [List.disjoint_cons_right] at hdisj
    exact .cons (hp.of_waits h.waits hdisj.1) (ih hdisj.2)

end Polls

theorem pollRound_polls {s : Pass} (h : Inv s.firmware) {n : NetifPtr} {j : UInt8} {i : SlotIdx}
    (hi : (socketsOn s.firmware.board n)[j.toNat]? = some i) (irq : RoundIrq) :
    Polls s (pollRound n j irq s) [i] := by
  obtain ⟨p, hp, hserves, hinv, hwaits⟩ := pollRound_spec h hi irq
  exact ⟨hinv, hwaits, [p], hp, .cons hserves .nil⟩

/-- The inner loop serves the sockets from position `j` on. -/
theorem pollSockets_polls {s : Pass} (h : Inv s.firmware) (n : NetifPtr) (irq : UInt8 → RoundIrq) (j : UInt8) :
    Polls s (pollSockets n irq s j) ((socketsOn s.firmware.board n).drop j.toNat) := by
  induction s, j using pollSockets.induct n irq with
  | case1 s j hlt ih =>
    have hquiet := Polls.quiet h (irq j).test
    have hget := List.getElem?_eq_getElem hlt
    have hround := pollRound_polls hquiet.inv hget (irq j)
    have hrest := ih hround.inv
    rw [next_round hlt, hround.waits.socketsOn_eq] at hrest
    have hdrop : (socketsOn s.firmware.board n).drop j.toNat =
        [(socketsOn (s.interrupts (irq j).test).firmware.board n)[j.toNat]] ++
          (socketsOn (s.interrupts (irq j).test).firmware.board n).drop (j.toNat + 1) := by
      rw [← hquiet.waits.socketsOn_eq n]
      exact List.drop_eq_getElem_cons hlt
    have hnd := (socketsOn_nodup s.firmware.board n).sublist (List.drop_sublist j.toNat _)
    rw [hdrop] at hnd ⊢
    rw [pollSockets, dif_pos hlt]
    exact hquiet.trans (hround.trans hrest hnd) hnd
  | case2 s j hlt =>
    have hquiet := Polls.quiet h (irq j).test
    rw [pollSockets, dif_neg hlt]
    have hdrop : (socketsOn s.firmware.board n).drop j.toNat = [] := by
      rw [← hquiet.waits.socketsOn_eq n]
      exact List.drop_eq_nil_of_le (Nat.le_of_not_lt hlt)
    rw [hdrop]
    exact hquiet

/-- The slots in the order in which the pass polls them. -/
def pollOrder (b : Board) : List SlotIdx := b.net.list.flatMap (socketsOn b)

/-- The outer loop serves the sockets of the interfaces that are left. -/
theorem pollNetifs_polls {s : Pass} (h : Inv s.firmware) (irq : NetifPtr → UInt8 → RoundIrq) {fuel : Nat}
    {head : Option NetifPtr} {l : List NetifPtr} (hl : Chain s.firmware.board.net.next head l) (hfuel : l.length ≤ fuel)
    (hnd : (l.flatMap (socketsOn s.firmware.board)).Nodup) :
    Polls s (pollNetifs irq fuel head s) (l.flatMap (socketsOn s.firmware.board)) := by
  induction l generalizing s head fuel with
  | nil =>
    obtain rfl : head = none := hl
    cases fuel <;> exact Polls.quiet h []
  | cons n l ih =>
    obtain ⟨rfl, hrest⟩ := hl
    cases fuel with
    | zero => cases hfuel
    | succ fuel =>
      have hinner := pollSockets_polls h n (irq n) 0
      have hsame : ∀ m, socketsOn (pollSockets n (irq n) s 0).firmware.board m = socketsOn s.firmware.board m :=
        hinner.waits.socketsOn_eq
      rw [← hinner.waits.next] at hrest
      rw [List.flatMap_cons] at hnd ⊢
      have hnd' := hnd.of_append_right
      rw [← funext hsame] at hnd'
      have houter := ih hinner.inv hrest (Nat.le_of_succ_le_succ hfuel) hnd'
      rw [funext hsame] at houter
      rw [pollNetifs]
      exact hinner.trans houter hnd

/-! ## Every open socket is served -/

theorem mem_pollOrder {b : Board} (h : Board.Inv b) (i : SlotIdx) :
    i ∈ pollOrder b ↔ (b.s_listeners i).in_use = true := by
  simp only [pollOrder, socketsOn, List.mem_flatMap, List.mem_filter, List.mem_finRange, true_and]
  constructor
  · rintro ⟨n, -, hon⟩
    exact onNetif_in_use hon
  · intro huse
    obtain ⟨l, hl⟩ := h.net
    obtain ⟨n, hn, hnetif⟩ := hl.sockets i huse
    refine ⟨n, by rw [hl.list_eq]; exact hn, ?_⟩
    rw [onNetif, hnetif, huse]
    simp

/-- A slot is on one interface, and the interface is on the list once. -/
theorem pollOrder_nodup {b : Board} (h : Board.Inv b) : (pollOrder b).Nodup := by
  obtain ⟨l, hl⟩ := h.net
  rw [pollOrder, hl.list_eq, List.nodup_flatMap]
  refine ⟨fun n _ => socketsOn_nodup b n, ?_⟩
  refine (chain_nodup hl.chain).imp (fun {n m} hne => ?_)
  intro i hi hj
  have hn := onNetif_netif_eq (List.mem_filter.mp hi).2
  have hm := onNetif_netif_eq (List.mem_filter.mp hj).2
  exact hne (Option.some.inj (hn.symm.trans hm))

theorem pollPass_polls {f : Firmware} (h : Inv f) (rx_msg : udp_rx_msg_t) (irq : NetifPtr → UInt8 → RoundIrq) :
    Polls ⟨f, rx_msg, []⟩ (pollPass f rx_msg irq) (pollOrder f.board) := by
  obtain ⟨l, hl⟩ := h.board.net
  have hnd := pollOrder_nodup h.board
  unfold pollOrder at hnd ⊢
  rw [hl.list_eq] at hnd ⊢
  exact pollNetifs_polls h irq hl.chain (netifPtr_length_le (chain_nodup hl.chain)) hnd

theorem Polls.call {s s' : Pass} {is : List SlotIdx} (h : Polls s s' is) {i : SlotIdx} (hi : i ∈ is) :
    ∃ p ∈ s'.polls, Serves s.firmware.board p i := by
  obtain ⟨ps, hps, hserved⟩ := h.served
  obtain ⟨k, hk, hget⟩ := List.getElem_of_mem hi
  have hk' : k < ps.length := by rwa [hserved.length_eq]
  have hserves := List.Forall₂.get hserved hk' hk
  rw [List.get_eq_getElem, List.get_eq_getElem, hget] at hserves
  refine ⟨ps[k], ?_, hserves⟩
  rw [hps]
  exact List.mem_append_right _ (List.getElem_mem hk')

/-- In every state, and whatever interrupts arrive meanwhile, a pass calls `udp_source_poll_rx` once for each open
socket and for nothing else, and what waits in a socket is printed with its interface's address and its port. -/
theorem main_loop_serves (c : Boot) (es : List Event) (h : machine.Legal (boot c) es) (rx_msg : udp_rx_msg_t)
    (irq : NetifPtr → UInt8 → RoundIrq) :
    let f := machine.run (boot c) es
    let s := pollPass f rx_msg irq
    (∃ slots : List SlotIdx, slots.Nodup ∧ (∀ i, i ∈ slots ↔ (f.board.s_listeners i).in_use = true) ∧
      List.Forall₂ (Serves f.board) s.polls slots) ∧
    ∀ i, (f.board.s_listeners i).in_use = true → (f.board.s_listeners i).rx_msg.valid = true →
      ∃ n q, (f.board.s_listeners i).netif = some n ∧ n ∈ f.board.net.list ∧ (f.board.s_listeners i).pcb = some q ∧
        rxText ⟨(f.board.net.netifs n).ip_addr, (f.board.udp.pcbs q).local_port, (f.board.s_listeners i).rx_msg⟩
          <:+: s.printed := by
  intro f s
  have hinv := inv_reachable c h
  have hpass := pollPass_polls hinv rx_msg irq
  obtain ⟨ps, hps, hserved⟩ := hpass.served
  rw [List.nil_append] at hps
  rw [← hps] at hserved
  refine ⟨⟨_, pollOrder_nodup hinv.board, mem_pollOrder hinv.board, hserved⟩, fun i huse hv => ?_⟩
  obtain ⟨p, hp, hserves⟩ := hpass.call ((mem_pollOrder hinv.board i).mpr huse)
  obtain ⟨n, q, hnetif, hpcb, -, hwait⟩ := hserves.event
  obtain ⟨l, hl⟩ := hinv.board.net
  obtain ⟨m, hm, hnetif'⟩ := hl.sockets i huse
  obtain rfl : n = m := Option.some.inj (hnetif.symm.trans hnetif')
  refine ⟨n, q, hnetif, by rw [hl.list_eq]; exact hm, hpcb, ?_⟩
  refine List.infix_of_mem_flatten (List.mem_map_of_mem ?_)
  exact List.mem_filterMap.mpr ⟨p, hp, hwait hv⟩

theorem waiting_length : (2 : UInt16).toNat = [[(104 : UInt8)], [105]].flatten.length := rfl

/-- A socket on port 5000 with a message of two bytes in it. -/
def waitingRun : List Event :=
  [.call (.add_listener .phys 5000 (some 0)), .call (.rx_callback 0 (some ⟨[[104], [105]], 2, waiting_length⟩) 1 7000)]

theorem main_loop_serves_sample :
    let f := machine.run (boot (.main ethzero true)) waitingRun
    machine.Legal (boot (.main ethzero true)) waitingRun ∧
      ∃ n q, (f.board.s_listeners 0).netif = some n ∧ n ∈ f.board.net.list ∧ (f.board.s_listeners 0).pcb = some q ∧
        rxText ⟨(f.board.net.netifs n).ip_addr, (f.board.udp.pcbs q).local_port, (f.board.s_listeners 0).rx_msg⟩
          <:+: (pollPass f .zero (fun _ _ => ⟨[], [], [], []⟩)).printed :=
  ⟨by decide, (main_loop_serves _ _ (by decide) _ _).2 0 (by decide) (by decide)⟩

end MultiIp.Firmware

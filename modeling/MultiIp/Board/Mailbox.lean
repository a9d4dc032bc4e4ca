import MultiIp.Board.Reachable

/-!
# The receive mailbox

Between an open and the next close: what the polls of a socket return is, in
order, a part of what was delivered to it, and every delivery is counted.
-/

namespace MultiIp.Board

open Lwip Lib

/-- What a reader sees of a message. -/
structure Message where
  src_ip : ip_addr_t
  src_port : UInt16
  len : Nat
  data : List UInt8
  deriving DecidableEq

def udp_rx_msg_t.message (m : udp_rx_msg_t) : Message :=
  ⟨m.src_ip, m.src_port, m.data_len.toNat, m.data.bytes.take m.data_len.toNat⟩

/-- The message that a datagram should give: its sender and the first 256 bytes of its payload. -/
def Delivery.message (d : Delivery) : Message :=
  ⟨d.addr, d.port, min d.p.tot_len.toNat UDP_RX_BUF_SIZE,
    d.p.segs.flatten.take (min d.p.tot_len.toNat UDP_RX_BUF_SIZE)⟩

/-- What happened to the socket in a slot since it was opened. -/
structure History where
  delivered : List Delivery
  polled : List udp_rx_msg_t

def History.empty : History := ⟨[], []⟩

/-- The step opens the slot. -/
def opens (i : SlotIdx) (b : Board) (a : Action) : Bool :=
  !(b.s_listeners i).in_use && ((step b a).s_listeners i).in_use

def History.add (i : SlotIdx) (h : History) (b : Board) (a : Action) : History :=
  if opens i b a then .empty
  else ⟨h.delivered ++ (deliveredTo b i a).toList, h.polled ++ (polledFrom b i a).toList⟩

/-- The history of a slot after a run. -/
def history (i : SlotIdx) (b : Board) (as : List Action) : History := machine.record (History.add i) .empty b as

/-- A message still in the mailbox. -/
def pending (s : udp_listener_t) : List Message := if s.rx_msg.valid then [s.rx_msg.message] else []

structure MailboxOk (h : History) (s : udp_listener_t) : Prop where
  /-- Read messages and then the waiting one, among the delivered ones, in order. -/
  order : (h.polled.map udp_rx_msg_t.message ++ pending s).Sublist (h.delivered.map Delivery.message)
  count : UInt32.ofNat h.delivered.length = s.rx_count + s.rx_drop_count + (if s.rx_msg.valid then 1 else 0)

/-- The callback copies the sender and the first bytes of the whole chain. -/
theorem rxMessage_message (old : udp_rx_msg_t) (d : Delivery) :
    (rxMessage old d.p d.addr d.port).message = d.message := by
  have hlen := d.p.tot_len_eq
  have hsize : UDP_RX_BUF_SIZE = 256 := rfl
  have hcopy : (if d.p.tot_len.toNat > UDP_RX_BUF_SIZE then (256 : UInt16) else d.p.tot_len).toNat =
      min d.p.tot_len.toNat UDP_RX_BUF_SIZE := by
    split
    · rename_i hgt
      have : (256 : UInt16).toNat = 256 := by decide
      omega
    · omega
  simp only [rxMessage, udp_rx_msg_t.message, Delivery.message, hcopy]
  rw [pbuf_copy_partial_spec _ _ _ (by omega), List.take_append_of_le_length, List.take_take, Nat.min_self]
  rw [List.length_take]
  omega

theorem mailbox_step {h : History} {s s' : udp_listener_t} {on : Option NetifPtr} {d : Option Delivery}
    {m : Option udp_rx_msg_t} (hs : SlotStep s on d m s') (hok : s.in_use = true → MailboxOk h s)
    (hu : s'.in_use = true) :
    MailboxOk (if !s.in_use && s'.in_use then .empty else ⟨h.delivered ++ d.toList, h.polled ++ m.toList⟩) s' := by
  cases hs with
  | keep =>
    have := hok hu
    simpa [hu] using this
  | opened p n hn hfree =>
    rw [hu, hfree]
    refine ⟨?_, ?_⟩
    · simp [History.empty, pending, openSlot]
    · simp [History.empty, openSlot]
  | closed hopen => cases hu
  | received d hopen =>
    obtain ⟨horder, hcount⟩ := hok hopen
    rw [hopen]
    simp only [Bool.not_true, Bool.false_and, Bool.false_eq_true, if_false, Option.toList_some, Option.toList_none,
      List.append_nil]
    cases hv : s.rx_msg.valid with
    | true =>
      -- The mailbox is full: the datagram is dropped and counted.
      rw [receiveSlot, if_pos hv]
      refine ⟨?_, ?_⟩
      · rw [List.map_append]
        exact horder.trans (List.sublist_append_left _ _)
      · simp only [List.length_append, List.length_singleton, UInt32.ofNat_add, hcount, hv]
        simp only [if_true, UInt32.add_assoc, UInt32.ofNat_one]
    | false =>
      rw [receiveSlot, if_neg (by simp [hv])]
      refine ⟨?_, ?_⟩
      · simp only [pending, hv, Bool.false_eq_true, if_false, List.append_nil] at horder
        have hnew : pending { s with rx_msg := rxMessage s.rx_msg d.p d.addr d.port } = [d.message] := by
          have hvalid : (rxMessage s.rx_msg d.p d.addr d.port).valid = true := rfl
          simp only [pending, hvalid, if_true, rxMessage_message]
        rw [hnew, List.map_append]
        exact horder.append (List.Sublist.refl _)
      · simp only [List.length_append, List.length_singleton, UInt32.ofNat_add, hcount, hv]
        simp [rxMessage]
  | read hopen hv =>
    obtain ⟨horder, hcount⟩ := hok hopen
    rw [hopen]
    simp only [Bool.not_true, Bool.false_and, Bool.false_eq_true, if_false, Option.toList_some, Option.toList_none,
      List.append_nil]
    refine ⟨?_, ?_⟩
    · simpa [pending, hv, readSlot] using horder
    · rw [hcount]
      simp only [hv, if_true, readSlot]
      simp only [Bool.false_eq_true, if_false, UInt32.add_zero]
      rw [UInt32.add_assoc, UInt32.add_comm s.rx_drop_count, ← UInt32.add_assoc]

/-- In every reachable state, for every open socket: its polls returned, in order and each at most once,
messages delivered since it was opened, and the deliveries are its counters and its waiting message. -/
theorem mailbox_always (c : Boot) (as : List Action) (hl : machine.Legal (boot c) as) (i : SlotIdx)
    (hu : ((machine.run (boot c) as).s_listeners i).in_use = true) :
    MailboxOk (history i (boot c) as) ((machine.run (boot c) as).s_listeners i) := by
  have hinv : ∀ g b a, ((b.s_listeners i).in_use = true → MailboxOk g (b.s_listeners i)) → machine.allowed b a →
      (((machine.step b a).s_listeners i).in_use = true →
        MailboxOk (History.add i g b a) ((machine.step b a).s_listeners i)) := by
    intro g b a hg _ hopen
    exact mailbox_step (step_slot b a i) hg hopen
  have hboot : ((boot c).s_listeners i).in_use = true → MailboxOk .empty ((boot c).s_listeners i) := by
    rw [boot_slots]
    intro hfalse
    cases hfalse
  exact Lib.Machine.record_invariant (M := machine)
    (P := fun g b => (b.s_listeners i).in_use = true → MailboxOk g (b.s_listeners i)) hinv hboot hl hu

theorem mailbox_always_sample :
    let c := Boot.main ethzero true
    let as : List Action := [.add_listener .phys 5000 (some 0), .rx_callback 0 (some ⟨[[104], [105]], 2, rfl⟩) 1 7000,
      .rx_callback 0 (some ⟨[[106]], 1, rfl⟩) 1 7000, .poll_rx 0 (some .zero)]
    machine.Legal (boot c) as ∧ ((machine.run (boot c) as).s_listeners 0).in_use = true ∧
      MailboxOk (history 0 (boot c) as) ((machine.run (boot c) as).s_listeners 0) :=
  ⟨by decide, by decide, mailbox_always _ _ (by decide) 0 (by decide)⟩

end MultiIp.Board

import MultiIp.Board.Reachable

/-!
# Ids of closed sockets

An id carries the generation its slot had when the socket was opened. Each close
adds one to the slot's generation, which is an 8-bit counter.
-/

namespace MultiIp.Board

open Lwip Lib

/-! ## Ids -/

theorem slot_lt (i : SlotIdx) : (i : Nat) < 16 := i.isLt

theorem id_toNat (g : UInt8) (i : SlotIdx) :
    (g.toUInt16 <<< 8 ||| UInt16.ofNat i).toNat = g.toNat * 256 + i := by
  have hg := g.toNat_lt
  have hi := slot_lt i
  have hi' : (i : Nat) < 2 ^ 8 := by omega
  have hshift : g.toUInt16.toNat <<< ((8 : UInt16).toNat % 16) % 2 ^ 16 = 2 ^ 8 * g.toNat := by
    have : (8 : UInt16).toNat % 16 = 8 := by decide
    rw [this, Nat.shiftLeft_eq, UInt8.toNat_toUInt16]
    omega
  have hidx : (UInt16.ofNat i).toNat = i := by
    rw [UInt16.toNat_ofNat']
    omega
  rw [UInt16.toNat_or, UInt16.toNat_shiftLeft, hshift, hidx, ← Nat.two_pow_add_eq_or_of_lt hi']
  omega

theorem id_low (g : UInt8) (i : SlotIdx) :
    ((g.toUInt16 <<< 8 ||| UInt16.ofNat i) &&& 0xff).toUInt8.toNat = i := by
  have hi := slot_lt i
  have hmask : (0xff : UInt16).toNat = 2 ^ 8 - 1 := by decide
  rw [UInt16.toNat_toUInt8, UInt16.toNat_and, id_toNat, hmask, Nat.and_two_pow_sub_one_eq_mod]
  omega

theorem id_high (g : UInt8) (i : SlotIdx) : ((g.toUInt16 <<< 8 ||| UInt16.ofNat i) >>> 8).toUInt8 = g := by
  have hi := slot_lt i
  have hg := g.toNat_lt
  have height : (8 : UInt16).toNat % 16 = 8 := by decide
  apply UInt8.toNat_inj.mp
  rw [UInt16.toNat_toUInt8, UInt16.toNat_shiftRight, id_toNat, height, Nat.shiftRight_eq_div_pow]
  omega

/-- An id made for slot `i` resolves to `i` while the slot is open with the same generation. -/
theorem resolve_make_id (b b' : Board) (i : SlotIdx) :
    resolve b' (make_id b i) =
      if (b'.s_listeners i).in_use = true ∧
          (b.s_listeners i).generation_count = (b'.s_listeners i).generation_count then some i else none := by
  unfold resolve make_id
  simp only [id_low, id_high]
  rw [dif_pos i.isLt]
  cases (b'.s_listeners i).in_use with
  | false => simp
  | true =>
    by_cases hg : (b.s_listeners i).generation_count = (b'.s_listeners i).generation_count
    · simp [hg]
    · simp [hg]

/-! ## Counting closes -/

/-- The step closes the socket in the slot. -/
def closes (i : SlotIdx) (b : Board) (a : Action) : Bool :=
  (b.s_listeners i).in_use && !((step b a).s_listeners i).in_use

/-- How often the run closes the slot. -/
def closings (i : SlotIdx) : Board → List Action → Nat
  | _, [] => 0
  | b, a :: as => (if closes i b a then 1 else 0) + closings i (step b a) as

theorem closings_append (i : SlotIdx) (b : Board) (as bs : List Action) :
    closings i b (as ++ bs) = closings i b as + closings i (machine.run b as) bs := by
  induction as generalizing b with
  | nil => simp [closings]
  | cons a as ih =>
    simp only [List.cons_append, closings, ih, Nat.add_assoc]
    rfl

theorem SlotStep.generation {s s' : udp_listener_t} {on : Option NetifPtr} {d : Option Delivery}
    {m : Option udp_rx_msg_t} (h : SlotStep s on d m s') :
    s'.generation_count = s.generation_count + (if s.in_use && !s'.in_use then 1 else 0) := by
  cases h with
  | keep => simp
  | opened p n hn hfree => simp [hfree, openSlot]
  | closed hopen => simp [hopen, closeSlot]
  | received d hopen =>
    have hr : (receiveSlot s d).in_use = s.in_use ∧
        (receiveSlot s d).generation_count = s.generation_count := by
      unfold receiveSlot
      split <;> exact ⟨rfl, rfl⟩
    simp [hr.1, hr.2]
  | read hopen hv => simp [readSlot]

/-- The generation moves by the number of closes, modulo 256. -/
theorem generation_run (i : SlotIdx) (b : Board) (as : List Action) :
    ((machine.run b as).s_listeners i).generation_count =
      (b.s_listeners i).generation_count + UInt8.ofNat (closings i b as) := by
  induction as generalizing b with
  | nil => simp [closings]
  | cons a as ih =>
    have hstep := (step_slot b a i).generation
    rw [Lib.Machine.run_cons, closings, UInt8.ofNat_add, ← UInt8.add_assoc]
    show ((machine.run (step b a) as).s_listeners i).generation_count = _
    rw [ih, hstep, closes]
    split <;> rfl

/-! ## Stale ids -/

/-- The id gives no access to any socket. -/
structure Rejected (b : Board) (id : udp_sock_id_t) : Prop where
  resolve : resolve b id = none
  remove : udp_source_remove_listener b id = b
  poll : ∀ msg, udp_source_poll_rx b id msg = (b, false, msg)
  send : ∀ n ip port data len alloc out,
    udp_source_data_send b id n ip port data len alloc out = (b, .ERR_VAL)
  local_port : udp_source_get_local_port b id = 0

theorem rejected_iff (b : Board) (id : udp_sock_id_t) : Rejected b id ↔ resolve b id = none := by
  refine ⟨fun h => h.resolve, fun h => ⟨h, ?_, fun msg => ?_, fun n ip port data len alloc out => ?_, ?_⟩⟩
  · simp [udp_source_remove_listener, h]
  · simp [udp_source_poll_rx, h]
  · simp [udp_source_data_send, h]
  · simp [udp_source_get_local_port, h]

/-- What a successful open returns. -/
theorem add_listener_ok_id {b b' : Board} {n : NetifPtr} {port : UInt16} {cell id : udp_sock_id_t}
    (h : udp_source_add_listener b (some n) port (some cell) = (b', .ERR_OK, some id)) :
    ∃ i, (b.s_listeners i).in_use = false ∧ (b'.s_listeners i).in_use = true ∧ id = make_id b' i := by
  unfold udp_source_add_listener at h
  dsimp only at h
  split at h
  · rename_i i hfind
    have hfree : (b.s_listeners i).in_use = false := by simpa using List.find?_some hfind
    simp only [Prod.mk.injEq, Option.some.injEq] at h
    obtain ⟨rfl, herr, rfl⟩ := h
    rcases open_slot_slots b i n port cell with ⟨hne, -, -⟩ | ⟨p, -, hid, hs⟩
    · exact absurd herr hne
    · exact ⟨i, hfree, by rw [hs, Function.update_self]; rfl, hid⟩
  · simp at h

theorem UInt8_add_eq_self (g : UInt8) (k : Nat) : g = g + UInt8.ofNat k ↔ 256 ∣ k := by
  have hg := g.toNat_lt
  rw [← UInt8.toNat_inj, UInt8.toNat_add, UInt8.toNat_ofNat']
  constructor
  · intro h
    omega
  · rintro ⟨m, rfl⟩
    omega

/-- Where the id of a socket opened in slot `i` leads after a run. -/
theorem resolve_run {b₀ b : Board} {n : NetifPtr} {port : UInt16} {cell id : udp_sock_id_t} {i : SlotIdx}
    (hopen : udp_source_add_listener b₀ (some n) port (some cell) = (b, .ERR_OK, some id))
    (hslot : resolve b id = some i) (bs : List Action) :
    resolve (machine.run b bs) id =
      if ((machine.run b bs).s_listeners i).in_use = true ∧ 256 ∣ closings i b bs then some i else none := by
  obtain ⟨j, -, hj, rfl⟩ := add_listener_ok_id hopen
  obtain rfl : j = i := by
    rw [resolve_make_id] at hslot
    simpa [hj] using hslot
  rw [resolve_make_id, generation_run]
  simp only [UInt8_add_eq_self]

/-- After a run that closes the slot `k` times, the id that was returned when the socket was opened
is rejected exactly when the slot is free or `k` is not a multiple of 256. -/
theorem stale_id_rejected_iff (c : Boot) (as bs : List Action) (n : NetifPtr) (port : UInt16)
    (cell id : udp_sock_id_t) (b : Board) (i : SlotIdx)
    (hopen : udp_source_add_listener (machine.run (boot c) as) (some n) port (some cell) = (b, .ERR_OK, some id))
    (hslot : resolve b id = some i) (_hclosed : 0 < closings i b bs) :
    Rejected (machine.run b bs) id ↔
      ((machine.run b bs).s_listeners i).in_use = false ∨ ¬ 256 ∣ closings i b bs := by
  rw [rejected_iff, resolve_run hopen hslot]
  cases ((machine.run b bs).s_listeners i).in_use <;> simp

theorem stale_id_rejected_sample :
    let b := (udp_source_add_listener (boot (.main ethzero true)) (some .phys) 5000 (some 0)).1
    let bs : List Action := [.remove_listener 0, .add_listener .phys 5000 (some 0)]
    0 < closings 0 b bs ∧ (Rejected (machine.run b bs) 0 ↔
      ((machine.run b bs).s_listeners 0).in_use = false ∨ ¬ 256 ∣ closings 0 b bs) :=
  ⟨by decide, stale_id_rejected_iff (.main ethzero true) [] _ .phys 5000 0 0 _ 0 rfl (by decide) (by decide)⟩

/-! ## 256 closes -/

/-- The only socket is in slot 0, with generation `g`, and the locator has port 23. -/
structure OneSocket (g : UInt8) (b : Board) : Prop where
  inv : Inv b
  others : ∀ i, i ≠ 0 → (b.s_listeners i).in_use = false
  generation : (b.s_listeners 0).generation_count = g
  in_use : (b.s_listeners 0).in_use = true
  ports : ∀ q ∈ b.udp.list, (b.s_listeners 0).pcb ≠ some q → (b.udp.pcbs q).local_port = 23

/-- The id of a socket in slot 0. -/
def slot0Id (g : UInt8) : udp_sock_id_t := g.toUInt16 <<< 8 ||| UInt16.ofNat (0 : SlotIdx)

/-- Closes the socket by its id and opens another on port 5000. -/
def reopen (g : UInt8) : List Action := [.remove_listener (slot0Id g), .add_listener .phys 5000 (some 0)]

theorem reopen_spec {g : UInt8} {b : Board} (h : OneSocket g b) :
    OneSocket (g + 1) (machine.run b (reopen g)) ∧ machine.Legal b (reopen g) ∧ closings 0 b (reopen g) = 1 := by
  obtain ⟨l, hreg⟩ := h.inv.registry
  obtain ⟨p, hp⟩ := (hreg.in_use_iff 0).mp h.in_use
  obtain ⟨ln, hnet⟩ := h.inv.net
  -- The id is the socket's, so slot 0 is closed.
  have hid : slot0Id g = make_id b 0 := by
    rw [make_id, h.generation, slot0Id]
  have hres : resolve b (slot0Id g) = some 0 := by
    rw [hid, resolve_make_id]
    simp [h.in_use]
  have hclose : step b (.remove_listener (slot0Id g)) = remove_slot b 0 := by
    simp [step, udp_source_remove_listener, hres]
  have hreg1 := remove_slot_open hreg hp
  have hslots1 := remove_slot_slots b 0
  have hpcbs1 : (remove_slot b 0).udp.pcbs = b.udp.pcbs := by
    simp [remove_slot, hp, modifySlot, udp_remove]
  have hinv1 : Inv (remove_slot b 0) := by
    rw [← hclose]
    exact step_inv _ _ h.inv (by simp [allowed, Action.listed])
  have hphys : NetifPtr.phys ∈ (remove_slot b 0).net.list := by
    rw [remove_slot_net]
    exact hnet.phys_listed
  -- Then slot 0 is the first free one, and only the locator's control block is bound.
  have hfree : ((remove_slot b 0).s_listeners 0).in_use = false := by
    rw [hslots1]
    rfl
  have hfind : (List.finRange UDP_MAX_LISTENERS).find? (fun idx => !((remove_slot b 0).s_listeners idx).in_use) =
      some 0 := by
    rw [List.finRange_succ, List.find?_cons_of_pos]
    simp [hfree]
  have hother : ∀ q ∈ l.erase p, ((remove_slot b 0).udp.pcbs q).local_port = 23 := by
    intro q hq
    obtain ⟨hne, hql⟩ := hreg.wf.list_nodup.mem_erase_iff.mp hq
    rw [hpcbs1]
    refine h.ports q (by rw [hreg.wf.list_eq]; exact hql) ?_
    rw [hp]
    simpa using hne.symm
  have hopen : step (remove_slot b 0) (.add_listener .phys 5000 (some 0)) =
      (open_slot (remove_slot b 0) 0 .phys 5000 0).1 := by
    simp only [step, udp_source_add_listener, hfind]
  have hrun : machine.run b (reopen g) = (open_slot (remove_slot b 0) 0 .phys 5000 0).1 := by
    rw [← hopen, ← hclose]
    rfl
  have hlegal : machine.Legal b (reopen g) := by
    refine ⟨by simp [machine, allowed, Action.listed], ?_, trivial⟩
    show allowed (step b _) _
    rw [hclose]
    simpa [allowed, Action.listed] using hphys
  rcases open_slot_spec hreg1 hfree .phys 5000 0 with ⟨u, p', port', heq, hreg2, hupcbs, -, -, -⟩ | ⟨u, -, -, -, hclash⟩
  · have hslots2 : (machine.run b (reopen g)).s_listeners =
        Function.update (remove_slot b 0).s_listeners 0 (openSlot ((remove_slot b 0).s_listeners 0) p' .phys) := by
      rw [hrun, heq]
    refine ⟨⟨?_, fun i hi => ?_, ?_, ?_, fun q hq hqp => ?_⟩, hlegal, ?_⟩
    · rw [hrun, ← hopen]
      exact step_inv _ _ hinv1 (by simpa [allowed, Action.listed] using hphys)
    · rw [hslots2, Function.update_of_ne hi, hslots1, Function.update_of_ne hi]
      exact h.others i hi
    · rw [hslots2, Function.update_self, hslots1, Function.update_self]
      show (b.s_listeners 0).generation_count + 1 = g + 1
      rw [h.generation]
    · rw [hslots2, Function.update_self]
      rfl
    · rw [hslots2, Function.update_self] at hqp
      have hqne : q ≠ p' := fun hqp' => hqp (by rw [hqp']; rfl)
      rw [hrun, heq] at hq ⊢
      dsimp only at hq ⊢
      rw [hreg2.wf.list_eq] at hq
      rw [hupcbs q hqne]
      exact hother q ((List.mem_cons.mp hq).resolve_left hqne)
    · have h1 : closes 0 b (.remove_listener (slot0Id g)) = true := by
        simp [closes, hclose, h.in_use, hfree]
      have h2 : closes 0 (remove_slot b 0) (.add_listener .phys 5000 (some 0)) = false := by
        simp [closes, hfree]
      simp [reopen, closings, h1, hclose, h2]
  · obtain ⟨q, -, r, hr, hc⟩ := hclash (by decide)
    simp [bindClash, hother r hr] at hc

/-- `k` times in a row. -/
def reopenMany : Nat → List Action
  | 0 => []
  | k + 1 => reopenMany k ++ reopen (UInt8.ofNat k)

theorem reopenMany_spec {b : Board} (h : OneSocket 0 b) (k : Nat) :
    OneSocket (UInt8.ofNat k) (machine.run b (reopenMany k)) ∧ machine.Legal b (reopenMany k) ∧
      closings 0 b (reopenMany k) = k := by
  induction k with
  | zero => exact ⟨h, trivial, rfl⟩
  | succ k ih =>
    obtain ⟨hone, hlegal, hcount⟩ := ih
    obtain ⟨hone', hlegal', hcount'⟩ := reopen_spec hone
    refine ⟨?_, ?_, ?_⟩
    · rw [reopenMany, Lib.Machine.run_append, UInt8.ofNat_add]
      exact hone'
    · exact (Lib.Machine.legal_append _ _ _ _).mpr ⟨hlegal, hlegal'⟩
    · rw [reopenMany, closings_append, hcount, hcount']

/-- The board after the first socket was opened. Its id is 0. -/
def firstSocket : Board := (udp_source_add_listener (boot (.main ethzero true)) (some .phys) 5000 (some 0)).1

theorem firstSocket_open : udp_source_add_listener (boot (.main ethzero true)) (some .phys) 5000 (some 0) =
    (firstSocket, .ERR_OK, some 0) := rfl

theorem firstSocket_one : OneSocket 0 firstSocket := by
  refine ⟨?_, by decide, by decide, by decide, by decide⟩
  have hphys : NetifPtr.phys ∈ (boot (.main ethzero true)).net.list := by decide
  exact step_inv (boot (.main ethzero true)) (.add_listener .phys 5000 (some 0)) (boot_inv _)
    (by simpa [allowed, Action.listed] using hphys)

theorem reopened_id_accepted (k : Nat) (hk : 256 ∣ k) (hpos : 0 < k) :
    machine.Legal firstSocket (reopenMany k) ∧ 0 < closings 0 firstSocket (reopenMany k) ∧
      resolve (machine.run firstSocket (reopenMany k)) 0 = some 0 ∧
      ¬ Rejected (machine.run firstSocket (reopenMany k)) 0 := by
  obtain ⟨hone, hlegal, hcount⟩ := reopenMany_spec firstSocket_one k
  have hres : resolve (machine.run firstSocket (reopenMany k)) 0 = some 0 := by
    rw [resolve_run firstSocket_open (i := 0) (by decide), if_pos ⟨hone.in_use, by rw [hcount]; exact hk⟩]
  refine ⟨hlegal, by rw [hcount]; exact hpos, hres, fun hrej => ?_⟩
  rw [hrej.resolve] at hres
  cases hres

/-- After the socket was closed and another one opened 256 times, the first id names the last socket. -/
theorem stale_id_accepted :
    udp_source_add_listener (boot (.main ethzero true)) (some .phys) 5000 (some 0) =
        (firstSocket, .ERR_OK, some 0) ∧
      machine.Legal firstSocket (reopenMany 256) ∧ 0 < closings 0 firstSocket (reopenMany 256) ∧
      resolve (machine.run firstSocket (reopenMany 256)) 0 = some 0 ∧
      ¬ Rejected (machine.run firstSocket (reopenMany 256)) 0 :=
  ⟨firstSocket_open, reopened_id_accepted 256 (by decide) (by decide)⟩

end MultiIp.Board

import MultiIp.Lwip.UdpRules

/-!
# The port counter

`udp_port` stays in the dynamic range, and there are more ports in it than
control blocks in the pool: `udp_new_port` always finds one.
-/

namespace MultiIp.Lwip

open Lib

def Udp.PortRange (u : Udp) : Prop := 49152 ≤ u.udp_port.toNat

namespace Udp

/-! ## Counting -/

theorem nextPort_toNat {u : Udp} (h : u.PortRange) :
    u.nextPort.udp_port.toNat = 49152 + (u.udp_port.toNat - 49152 + 1) % 16384 := by
  have hlt := u.udp_port.toNat_lt
  unfold PortRange at h
  simp only [nextPort]
  split
  · rename_i hend
    rw [hend]
    rfl
  · rename_i hend
    have hne : u.udp_port.toNat ≠ 65535 := fun heq => hend (UInt16.toNat_inj.mp heq)
    rw [UInt16.toNat_add]
    simp
    omega

theorem nextPort_range {u : Udp} (h : u.PortRange) : u.nextPort.PortRange := by
  have hnext := nextPort_toNat h
  unfold PortRange
  omega

theorem iterate_range {u : Udp} (h : u.PortRange) (k : Nat) : (nextPort^[k] u).PortRange := by
  induction k generalizing u with
  | zero => exact h
  | succ k ih => exact ih (nextPort_range h)

theorem iterate_toNat {u : Udp} (h : u.PortRange) (k : Nat) :
    (nextPort^[k] u).udp_port.toNat = 49152 + (u.udp_port.toNat - 49152 + k) % 16384 := by
  have hlt := u.udp_port.toNat_lt
  have hrange : 49152 ≤ u.udp_port.toNat := h
  induction k with
  | zero =>
    simp only [Function.iterate_zero, id_eq]
    omega
  | succ k ih =>
    rw [Function.iterate_succ_apply', nextPort_toNat (iterate_range h k), ih]
    omega

theorem iterate_same (u : Udp) (k : Nat) : (nextPort^[k] u).list = u.list ∧ (nextPort^[k] u).pcbs = u.pcbs := by
  induction k generalizing u with
  | zero => exact ⟨rfl, rfl⟩
  | succ k ih => exact ih u.nextPort

/-! ## Finding a port -/

/-- 0 is returned only when every port that was tried is taken. -/
theorem new_port_again_zero {n : Nat} {u : Udp} (h : u.PortRange) (hzero : (udp_new_port_again n u).2 = 0) {k : Nat}
    (hk : k ≤ n) : (nextPort^[k + 1] u).portTaken = true := by
  have hnz : u.nextPort.udp_port ≠ 0 := by
    intro heq
    have hnext := nextPort_range h
    simp [PortRange, heq] at hnext
  induction n generalizing u k with
  | zero =>
    obtain rfl : k = 0 := Nat.le_zero.mp hk
    unfold udp_new_port_again at hzero
    split at hzero
    · assumption
    · exact absurd hzero hnz
  | succ n ih =>
    unfold udp_new_port_again at hzero
    split at hzero
    · rename_i htaken
      cases k with
      | zero => exact htaken
      | succ k =>
        refine ih (nextPort_range h) hzero (Nat.le_of_succ_le_succ hk) ?_
        intro heq
        have hnext := nextPort_range (nextPort_range h)
        simp [PortRange, heq] at hnext
    · exact absurd hzero hnz

/-- Twenty-one tries in a row are at different ports, and the list has at most twenty. -/
theorem new_port_ne_zero {u : Udp} (h : u.PortRange) : (udp_new_port u).2 ≠ 0 := by
  intro hzero
  have hlast : (UDP_LOCAL_PORT_RANGE_END - UDP_LOCAL_PORT_RANGE_START).toNat = 16383 := rfl
  have hmem : ∀ k < 21, (nextPort^[k + 1] u).udp_port ∈ u.list.map (fun q => (u.pcbs q).local_port) := by
    intro k hk
    have htaken := new_port_again_zero (k := k) h hzero (by omega)
    obtain ⟨hlist, hpcbs⟩ := iterate_same u (k + 1)
    rw [portTaken, List.any_eq_true, hlist, hpcbs] at htaken
    obtain ⟨q, hq, hport⟩ := htaken
    exact List.mem_map.mpr ⟨q, hq, beq_iff_eq.mp hport⟩
  have hinj : ((List.range 21).map (fun k => (nextPort^[k + 1] u).udp_port)).Nodup := by
    refine List.Nodup.map_on ?_ List.nodup_range
    intro i hi j hj heq
    have hi' := iterate_toNat h (i + 1)
    have hj' := iterate_toNat h (j + 1)
    rw [heq] at hi'
    rw [List.mem_range] at hi hj
    omega
  have hsub : (List.range 21).map (fun k => (nextPort^[k + 1] u).udp_port) ⊆
      u.list.map (fun q => (u.pcbs q).local_port) := by
    intro port hport
    obtain ⟨k, hk, rfl⟩ := List.mem_map.mp hport
    exact hmem k (List.mem_range.mp hk)
  have hle := (hinj.subperm hsub).length_le
  have hlen : u.list.length ≤ MEMP_NUM_UDP_PCB := walk_length_le _ _ _
  have hpool : MEMP_NUM_UDP_PCB = 20 := rfl
  simp only [List.length_map, List.length_range] at hle
  omega

theorem new_port_again_range {n : Nat} {u : Udp} (h : u.PortRange) : (udp_new_port_again n u).1.PortRange := by
  induction n generalizing u with
  | zero =>
    unfold udp_new_port_again
    split <;> exact nextPort_range h
  | succ n ih =>
    unfold udp_new_port_again
    split
    · exact ih (nextPort_range h)
    · exact nextPort_range h

theorem new_port_again_value {n : Nat} {u : Udp} :
    (udp_new_port_again n u).2 = 0 ∨ (udp_new_port_again n u).2 = (udp_new_port_again n u).1.udp_port := by
  induction n generalizing u with
  | zero =>
    unfold udp_new_port_again
    split
    · exact Or.inl rfl
    · exact Or.inr rfl
  | succ n ih =>
    unfold udp_new_port_again
    split
    · exact ih
    · exact Or.inr rfl

/-- `udp_new_port` returns a port of the range that no control block of the list has. -/
theorem new_port_spec {u : Udp} (h : u.PortRange) : (udp_new_port u).1.PortRange ∧
    49152 ≤ (udp_new_port u).2.toNat ∧ ∀ q ∈ u.list, (u.pcbs q).local_port ≠ (udp_new_port u).2 := by
  have hne := new_port_ne_zero h
  have hrange : (udp_new_port u).1.PortRange := new_port_again_range h
  have hvalue : (udp_new_port u).2 = (udp_new_port u).1.udp_port := new_port_again_value.resolve_left hne
  refine ⟨hrange, ?_, (udp_new_port_free u).resolve_left hne⟩
  rw [hvalue]
  exact hrange

/-! ## The other functions -/

theorem udp_new_range {u : Udp} (h : u.PortRange) : (udp_new u).1.PortRange := by
  unfold udp_new
  split <;> exact h

theorem udp_bind_range {u : Udp} (h : u.PortRange) (p : PcbPtr) (ip : ip_addr_t) (port : UInt16) :
    (udp_bind u p ip port).1.PortRange := by
  unfold udp_bind
  dsimp only
  split
  · exact h
  · have hmod : (u.modify p fun c => { c with local_ip := ip }).PortRange := h
    by_cases hzero : port = 0
    · have hnew := (new_port_spec hmod).1
      rw [if_pos hzero]
      split
      · exact hnew
      · split <;> exact hnew
    · rw [if_neg hzero]
      dsimp only
      rw [if_neg hzero]
      split <;> exact hmod

theorem udp_connect_range {u : Udp} (h : u.PortRange) (p : PcbPtr) (ip : ip_addr_t) (port : UInt16) :
    (udp_connect u p ip port).1.PortRange := by
  have hbind := udp_bind_range h p (u.pcbs p).local_ip (u.pcbs p).local_port
  unfold udp_connect
  split
  rename_i v err heq
  have hv : v.PortRange := by
    split at heq
    · rw [heq] at hbind
      exact hbind
    · cases heq
      exact h
  split
  · exact hv
  · dsimp only
    split <;> exact hv

theorem udp_input_search_port (u : Udp) (inp : netif) (d : Datagram) (l : List PcbPtr) (prev uncon : Option PcbPtr) :
    (udp_input_search u inp d l prev uncon).1.udp_port = u.udp_port := by
  induction l generalizing prev uncon with
  | nil => rfl
  | cons q l ih =>
    unfold udp_input_search
    dsimp only
    split
    · split <;> rfl
    · exact ih _ _

theorem udp_input_find_range {u : Udp} (h : u.PortRange) (inp : netif) (d : Datagram) :
    (udp_input_find u inp d).1.PortRange := by
  unfold udp_input_find
  split
  · exact h
  · unfold PortRange
    rw [udp_input_search_port]
    exact h

end Udp

/-! ## Binding a new control block -/

/-- Nothing on the list has port 0, so binding to any free port succeeds. -/
theorem udp_bind_any {u : Udp} {l : List PcbPtr} {p : PcbPtr} (h : u.Wf [p] l) (hr : u.PortRange)
    (hports : ∀ q ∈ l, (u.pcbs q).local_port ≠ 0) (ip : ip_addr_t) :
    ∃ u', udp_bind u p ip 0 = (u', .ERR_OK) ∧ 49152 ≤ (u'.pcbs p).local_port.toNat ∧
      ∀ q ∈ l, (u.pcbs q).local_port ≠ (u'.pcbs p).local_port := by
  have hclear : l.any (bindClash u p ip 0) = false := by
    rw [List.any_eq_false]
    intro q hq
    simp [bindClash, hports q hq]
  have hmod : (u.modify p fun c => { c with local_ip := ip }).PortRange := hr
  obtain ⟨-, hlow, hfree⟩ := Udp.new_port_spec hmod
  have hreb : l.any (fun ipcb => p == ipcb) = false := by
    simpa using fun q hq => fun heq : p = q => h.not_mem_of_held (heq ▸ hq)
  have hne : (udp_new_port (u.modify p fun c => { c with local_ip := ip })).2 ≠ 0 := Udp.new_port_ne_zero hmod
  refine ⟨((udp_new_port (u.modify p fun c => { c with local_ip := ip })).1.modify p fun c =>
    { c with local_port := (udp_new_port (u.modify p fun c => { c with local_ip := ip })).2 }).push p, ?_, ?_, ?_⟩
  · unfold udp_bind
    simp only [h.list_eq, hclear, hreb]
    simp [hne]
  · simpa [Udp.modify, Udp.push] using hlow
  · intro q hq
    have hqp : q ≠ p := fun heq => h.not_mem_of_held (heq ▸ hq)
    have hport := hfree q (by rw [(h.modify p _).list_eq]; exact hq)
    simpa [Udp.modify, Udp.push, hqp] using hport

end MultiIp.Lwip

import Mathlib.Tactic.IntervalCases
import MultiIp.Board.ArpMoves

/-!
# Which addresses a scan asks for

`scan_network` joins a counter of eight bits with the network address. That is
the subnet without its two special addresses exactly for netmasks of 24 bits.
-/

namespace MultiIp.Lwip

/-! ## Masks and the last octet -/

/-- The netmask with `p` ones. -/
def prefixMask (p : Nat) : ip_addr_t := UInt32.ofNat (2 ^ 32 - 2 ^ (32 - p))

theorem and_prefixMask (x : UInt32) {p : Nat} (hp : 1 ≤ p) (hp' : p ≤ 32) :
    (x &&& prefixMask p).toNat = x.toNat / 2 ^ (32 - p) * 2 ^ (32 - p) := by
  have hpow : 2 ^ (32 - p) < 2 ^ 32 := Nat.pow_lt_pow_right (by decide) (by omega)
  have hmask : (prefixMask p).toNat = (2 ^ p - 1) <<< (32 - p) := by
    have hle : 2 ^ 32 = 2 ^ p * 2 ^ (32 - p) := by
      rw [← Nat.pow_add]
      congr 1
      omega
    have hpos : 0 < 2 ^ (32 - p) := Nat.two_pow_pos _
    rw [prefixMask, UInt32.toNat_ofNat_of_lt' (by show 2 ^ 32 - 2 ^ (32 - p) < 2 ^ 32; omega), Nat.shiftLeft_eq,
      Nat.sub_mul, one_mul, ← hle]
  rw [UInt32.toNat_and, hmask, ← Nat.shiftRight_eq_div_pow, ← Nat.shiftLeft_eq]
  apply Nat.eq_of_testBit_eq
  intro i
  have hx : 32 ≤ i → x.toNat.testBit i = false := fun hi =>
    Nat.testBit_lt_two_pow (x.toNat_lt.trans_le (Nat.pow_le_pow_right (by decide) hi))
  simp only [Nat.testBit_and, Nat.testBit_shiftLeft, Nat.testBit_shiftRight, Nat.testBit_two_pow_sub_one]
  by_cases hlow : 32 - p ≤ i
  · rw [Nat.add_sub_cancel' hlow]
    by_cases hi : 32 ≤ i
    · simp [hx hi]
    · have hlt : i - (32 - p) < p := by omega
      simp [hlow, hlt]
  · simp [hlow]

/-- Joining the counter with the network address changes the last octet only. -/
theorem or_octet (k : Nat) {c i : Nat} (hc : c < 256) (hi : i < 256) : 256 * k + c ||| i = 256 * k + (c ||| i) := by
  have hor : c ||| i < 2 ^ 8 := Nat.or_lt_two_pow hc hi
  have hleft : 2 ^ 8 * k + c = 2 ^ 8 * k ||| c := Nat.two_pow_add_eq_or_of_lt hc k
  have hright : 2 ^ 8 * k + (c ||| i) = 2 ^ 8 * k ||| (c ||| i) := Nat.two_pow_add_eq_or_of_lt hor k
  show 2 ^ 8 * k + c ||| i = 2 ^ 8 * k + (c ||| i)
  rw [hleft, hright, Nat.or_assoc]

theorem or_low {c : Nat} (h4 : c % 4 = 0) : c ||| 1 = c + 1 ∧ c ||| (c + 1) = c + 1 := by
  obtain ⟨m, rfl⟩ : ∃ m, c = 2 ^ 2 * m := ⟨c / 4, by omega⟩
  have hone : 2 ^ 2 * m + 1 = 2 ^ 2 * m ||| 1 := Nat.two_pow_add_eq_or_of_lt (by decide) m
  rw [hone, ← Nat.or_assoc, Nat.or_self]
  exact ⟨rfl, rfl⟩

end MultiIp.Lwip

namespace MultiIp.Firmware

open Board Lwip Lib

/-! ## The targets of one scan -/

/-- The targets of the loop, with the interface as it is. -/
def scanTargets (nif : netif) : List ip_addr_t := (List.range 256).filterMap (scanTarget nif)

/-- An address of the interface's subnet that is neither the network nor the broadcast address. -/
def IsHost (nif : netif) (t : ip_addr_t) : Prop :=
  t &&& nif.netmask = nif.ip_addr &&& nif.netmask ∧ t ≠ nif.ip_addr &&& nif.netmask ∧
    t ≠ (nif.ip_addr &&& nif.netmask) ||| ~~~nif.netmask

section Targets

variable {nif : netif} {p : Nat}

theorem scanTarget_eq_some (hp : 24 ≤ p) (hp' : p ≤ 30) (hmask : nif.netmask = prefixMask p) {idx : Nat} (hidx : idx < 256)
    {t : ip_addr_t} : scanTarget nif idx = some t ↔
      idx ≠ nif.ip_addr.toNat % 256 ∧ idx ≠ 0 ∧ idx ≠ 255 ∧
        t.toNat = 256 * (nif.ip_addr.toNat / 256) +
          (nif.ip_addr.toNat % 256 / 2 ^ (32 - p) * 2 ^ (32 - p) ||| idx) := by
  have hown : (nif.ip_addr &&& 0xff).toNat = nif.ip_addr.toNat % 256 := by
    rw [UInt32.toNat_and]
    exact Nat.and_two_pow_sub_one_eq_mod _ 8
  have hnet : (nif.netmask &&& nif.ip_addr).toNat =
      256 * (nif.ip_addr.toNat / 256) + nif.ip_addr.toNat % 256 / 2 ^ (32 - p) * 2 ^ (32 - p) := by
    rw [UInt32.and_comm, hmask, and_prefixMask _ (by omega) (by omega)]
    interval_cases p <;> simp <;> omega
  have hval : ((nif.netmask &&& nif.ip_addr) ||| UInt32.ofNat idx).toNat = 256 * (nif.ip_addr.toNat / 256) +
      (nif.ip_addr.toNat % 256 / 2 ^ (32 - p) * 2 ^ (32 - p) ||| idx) := by
    rw [UInt32.toNat_or, hnet, UInt32.toNat_ofNat_of_lt' (by show idx < 2 ^ 32; omega), or_octet _ _ hidx]
    have hle := Nat.div_mul_le_self (nif.ip_addr.toNat % 256) (2 ^ (32 - p))
    omega
  unfold scanTarget
  rw [hown, ← hval, UInt32.toNat_inj]
  split
  · rename_i hskip
    simp only [reduceCtorEq, false_iff]
    rintro ⟨h1, h2, h3, -⟩
    exact hskip.elim h1 (fun h => h.elim h2 h3)
  · rename_i hskip
    simp only [not_or] at hskip
    rw [Option.some.injEq, eq_comm]
    exact ⟨fun h => ⟨hskip.1, hskip.2.1, hskip.2.2, h⟩, fun h => h.2.2.2⟩

/-- With a netmask of 24 bits each host but the own one is asked, once. -/
theorem scanTargets_exact (hmask : nif.netmask = prefixMask 24) :
    (scanTargets nif).Nodup ∧ ∀ t, t ∈ scanTargets nif ↔ IsHost nif t ∧ t ≠ nif.ip_addr := by
  have hspec {idx : Nat} (hidx : idx < 256) {t : ip_addr_t} : scanTarget nif idx = some t ↔
      idx ≠ nif.ip_addr.toNat % 256 ∧ idx ≠ 0 ∧ idx ≠ 255 ∧
        t.toNat = 256 * (nif.ip_addr.toNat / 256) + idx := by
    have hzero : nif.ip_addr.toNat % 256 / 2 ^ (32 - 24) * 2 ^ (32 - 24) = 0 := by omega
    rw [scanTarget_eq_some (by decide) (by decide) hmask hidx, hzero, Nat.zero_or]
  refine ⟨?_, fun t => ?_⟩
  · refine List.pairwise_filterMap.mpr (List.nodup_range.imp_of_mem ?_)
    intro i j hi hj hne t ht t' ht' heq
    rw [List.mem_range] at hi hj
    obtain ⟨-, -, -, h⟩ := (hspec hi).mp ht
    obtain ⟨-, -, -, h'⟩ := (hspec hj).mp ht'
    rw [heq] at h
    omega
  · have hnet (x : UInt32) : (x &&& nif.netmask).toNat = x.toNat / 256 * 256 := by
      rw [hmask]
      exact and_prefixMask x (by decide) (by decide)
    have hbroad : ((nif.ip_addr &&& nif.netmask) ||| ~~~nif.netmask).toNat = 256 * (nif.ip_addr.toNat / 256) + 255 := by
      have hnot : (~~~nif.netmask).toNat = 255 := by
        rw [hmask]
        decide
      rw [UInt32.toNat_or, hnet, hnot, Nat.mul_comm]
      have hor := or_octet (nif.ip_addr.toNat / 256) (c := 0) (i := 255) (by decide) (by decide)
      simpa using hor
    have hlt := t.toNat_lt
    unfold scanTargets IsHost
    rw [List.mem_filterMap, ← UInt32.toNat_inj (a := t &&& nif.netmask), hnet, hnet, ne_eq, ne_eq, ne_eq, ← UInt32.toNat_inj (a := t),
      ← UInt32.toNat_inj (a := t), ← UInt32.toNat_inj (a := t), hnet, hbroad]
    constructor
    · rintro ⟨idx, hidx, ht⟩
      obtain ⟨h1, h2, h3, h4⟩ := (hspec (List.mem_range.mp hidx)).mp ht
      have hidx' := List.mem_range.mp hidx
      omega
    · rintro ⟨⟨h1, h2, h3⟩, h4⟩
      have hmod : t.toNat % 256 < 256 := Nat.mod_lt _ (by decide)
      exact ⟨t.toNat % 256, List.mem_range.mpr hmod, (hspec hmod).mpr (by omega)⟩

/-- With a longer netmask some target is no host, or is asked twice. -/
theorem scanTargets_inexact (hp : 25 ≤ p) (hp' : p ≤ 30) (hmask : nif.netmask = prefixMask p)
    (hnd : (scanTargets nif).Nodup) (hhost : ∀ t ∈ scanTargets nif, IsHost nif t ∧ t ≠ nif.ip_addr) : False := by
  have hspec (idx : Nat) (hidx : idx < 256) {t : ip_addr_t} := scanTarget_eq_some (by omega) hp' hmask hidx (t := t)
  have hmem {idx : Nat} (hidx : idx < 256) {t : ip_addr_t} (ht : scanTarget nif idx = some t) : t ∈ scanTargets nif :=
    List.mem_filterMap.mpr ⟨idx, List.mem_range.mpr hidx, ht⟩
  have hlt := nif.ip_addr.toNat_lt
  have htarget (v : Nat) (hv : v < 2 ^ 32) : (UInt32.ofNat v).toNat = v := UInt32.toNat_ofNat_of_lt' hv
  by_cases hzero : nif.ip_addr.toNat % 256 / 2 ^ (32 - p) * 2 ^ (32 - p) = 0
  · -- The subnet is the first of its 256 addresses: the counter leaves it.
    have hpow : 4 ≤ 2 ^ (32 - p) ∧ 2 ^ (32 - p) ≤ 128 ∧ nif.ip_addr.toNat % 256 < 2 ^ (32 - p) := by
      interval_cases p <;> simp at hzero ⊢ <;> omega
    have hout := htarget (256 * (nif.ip_addr.toNat / 256) + 2 ^ (32 - p)) (by omega)
    have ht := (hspec (2 ^ (32 - p)) (by omega)).mpr
      ⟨by omega, by omega, by omega, by rw [hout, hzero, Nat.zero_or]⟩
    obtain ⟨⟨hsub, -⟩, -⟩ := hhost _ (hmem (by omega) ht)
    rw [hmask, ← UInt32.toNat_inj, and_prefixMask _ (by omega) (by omega), and_prefixMask _ (by omega) (by omega),
      hout] at hsub
    interval_cases p <;> simp at hsub hzero <;> omega
  · -- Two values of the counter give one target, unless it is the own address.
    generalize hc : nif.ip_addr.toNat % 256 / 2 ^ (32 - p) * 2 ^ (32 - p) = c at hspec hzero
    have hbounds : c % 4 = 0 ∧ c ≤ nif.ip_addr.toNat % 256 ∧ c ≤ 252 := by
      interval_cases p <;> simp at hc <;> omega
    obtain ⟨h4, hle, h252⟩ := hbounds
    obtain ⟨hone, htwo⟩ := or_low h4
    have hval := htarget (256 * (nif.ip_addr.toNat / 256) + (c + 1)) (by omega)
    have ht := (hspec 1 (by decide)).mpr ⟨by omega, by decide, by decide, by rw [hval, hone]⟩
    have hown : nif.ip_addr.toNat % 256 ≠ c + 1 := by
      intro heq
      refine (hhost _ (hmem (by decide) ht)).2 (UInt32.toNat_inj.mp ?_)
      rw [hval]
      omega
    have ht' := (hspec (c + 1) (by omega)).mpr ⟨by omega, by omega, by omega, by rw [hval, htwo]⟩
    have hpair := List.pairwise_iff_getElem.mp (List.pairwise_filterMap.mp hnd) 1 (c + 1) (by simp) (by simp; omega)
      (by omega)
    rw [List.getElem_range, List.getElem_range] at hpair
    exact hpair _ ht _ ht' rfl

end Targets

/-! ## The scan -/

/-- A round, with the targets that `etharp_query` was called for so far. -/
def askRound (n : NetifPtr) (env : Nat → Alloc × List Interrupt)
    (s : (Firmware × List (ip_addr_t × eth_addr)) × List ip_addr_t) (idx : Nat) :
    (Firmware × List (ip_addr_t × eth_addr)) × List ip_addr_t :=
  (scan_round n env s.1 idx, s.2 ++ (scanTarget (s.1.1.board.net.netifs n) idx).toList)

/-- The targets that `scan_network` passes to `etharp_query`, in order. -/
def scanAsked (f : Firmware) (n : NetifPtr) (env : Nat → Alloc × List Interrupt) : List ip_addr_t :=
  ((List.range 256).foldl (askRound n env) ((f, []), [])).2

theorem interrupt_netifs (f : Firmware) (i : Interrupt) : (f.interrupt i).board.net.netifs = f.board.net.netifs := by
  cases i with
  | icmp k now => rfl
  | arp fr =>
    show (ethernet_input_arp f.board.net fr).netifs = f.board.net.netifs
    unfold ethernet_input_arp
    dsimp only
    split <;> rfl
  | udp inp d alloc out =>
    show (udp_input f.board inp d alloc out).net.netifs = f.board.net.netifs
    unfold udp_input
    split
    · rfl
    · dsimp only
      split
      · rfl
      · split
        · rw [rx_callback_net]
        · unfold LocatorReceive
          split
          · split
            · rfl
            · dsimp only
              unfold udp_sendto
              split
              · rfl
              · obtain ⟨a, ha, -⟩ := udp_sendto_if_arpOnly f.board.net _ _ _ _ _ _ _
                rw [ha]
          · rfl
        · rfl

theorem interrupts_netifs (f : Firmware) (is : List Interrupt) :
    (f.interrupts is).board.net.netifs = f.board.net.netifs := by
  induction is generalizing f with
  | nil => rfl
  | cons i is ih => exact (ih (f.interrupt i)).trans (interrupt_netifs f i)

theorem scan_round_netifs (s : Firmware × List (ip_addr_t × eth_addr)) (n : NetifPtr)
    (env : Nat → Alloc × List Interrupt) (idx : Nat) :
    (scan_round n env s idx).1.board.net.netifs = s.1.board.net.netifs := by
  unfold scan_round
  dsimp only
  split
  · rfl
  · exact interrupts_netifs _ (env idx).2

theorem scan_round_lines (s : Firmware × List (ip_addr_t × eth_addr)) (n : NetifPtr)
    (env : Nat → Alloc × List Interrupt) (idx : Nat) : ∃ new, (scan_round n env s idx).2 = s.2 ++ new ∧
      (new.map Prod.fst).Sublist (scanTarget (s.1.board.net.netifs n) idx).toList := by
  unfold scan_round
  dsimp only
  split
  · exact ⟨[], by simp, List.nil_sublist _⟩
  · rename_i target heq
    refine ⟨_, rfl, ?_⟩
    rw [heq]
    generalize (etharp_find_addr _ target).2 = found
    cases found with
    | none => exact List.nil_sublist _
    | some mac => exact List.Sublist.refl _

/-- Induction on the rounds: the interface keeps its addresses, so the targets are those of its start. -/
theorem askRound_foldl (n : NetifPtr) (env : Nat → Alloc × List Interrupt) (idxs : List Nat)
    (s : (Firmware × List (ip_addr_t × eth_addr)) × List ip_addr_t) :
    (idxs.foldl (askRound n env) s).1 = idxs.foldl (scan_round n env) s.1 ∧
      (idxs.foldl (askRound n env) s).2 = s.2 ++ idxs.filterMap (scanTarget (s.1.1.board.net.netifs n)) ∧
      ∃ new, (idxs.foldl (askRound n env) s).1.2 = s.1.2 ++ new ∧
        (new.map Prod.fst).Sublist (idxs.filterMap (scanTarget (s.1.1.board.net.netifs n))) := by
  induction idxs generalizing s with
  | nil => exact ⟨rfl, by simp, [], by simp, List.Sublist.slnil⟩
  | cons idx idxs ih =>
    obtain ⟨hrun, hasked, new, hnew, hsub⟩ := ih (askRound n env s idx)
    have hnetifs : (askRound n env s idx).1.1.board.net.netifs = s.1.1.board.net.netifs :=
      scan_round_netifs s.1 n env idx
    obtain ⟨line, hline, hone⟩ := scan_round_lines s.1 n env idx
    have hcons : (idx :: idxs).filterMap (scanTarget (s.1.1.board.net.netifs n)) =
        (scanTarget (s.1.1.board.net.netifs n) idx).toList ++
          idxs.filterMap (scanTarget (s.1.1.board.net.netifs n)) := by
      rw [List.filterMap_cons]
      cases scanTarget (s.1.1.board.net.netifs n) idx <;> rfl
    rw [hnetifs] at hasked hsub
    refine ⟨hrun, ?_, line ++ new, ?_, ?_⟩
    · rw [List.foldl_cons, hasked, hcons, ← List.append_assoc]
      rfl
    · rw [List.foldl_cons, hnew, ← List.append_assoc, ← hline]
      rfl
    · rw [List.map_append, hcons]
      exact hone.append hsub

theorem scanAsked_eq (f : Firmware) (n : NetifPtr) (env : Nat → Alloc × List Interrupt) :
    scanAsked f n env = scanTargets (f.board.net.netifs n) := by
  have hfold := (askRound_foldl n env (List.range 256) ((f, []), [])).2.1
  simpa [scanAsked, scanTargets] using hfold

theorem scan_lines_sublist (f : Firmware) (n : NetifPtr) (env : Nat → Alloc × List Interrupt) :
    ((f.scan_network n env).2.map Prod.fst).Sublist (scanTargets (f.board.net.netifs n)) := by
  obtain ⟨hrun, -, new, hnew, hsub⟩ := askRound_foldl n env (List.range 256) ((f, []), [])
  rw [hrun] at hnew
  have hlines : (f.scan_network n env).2 = new := by simpa [scan_network] using hnew
  rw [hlines]
  exact hsub

/-- The scan asks each host of the interface's subnet but the interface itself, once, and nothing else, and
prints at most one line for each. -/
structure ScanExact (f : Firmware) (n : NetifPtr) (env : Nat → Alloc × List Interrupt) : Prop where
  once : (scanAsked f n env).Nodup
  hosts : ∀ t, t ∈ scanAsked f n env ↔ IsHost (f.board.net.netifs n) t ∧ t ≠ (f.board.net.netifs n).ip_addr
  lines : ((f.scan_network n env).2.map Prod.fst).Nodup

theorem not_scanExact {f : Firmware} {n : NetifPtr} {p : Nat} (hp : 25 ≤ p) (hp' : p ≤ 30)
    (hmask : (f.board.net.netifs n).netmask = prefixMask p) (env : Nat → Alloc × List Interrupt) :
    ¬ ScanExact f n env := by
  rintro ⟨honce, hhosts, -⟩
  rw [scanAsked_eq] at honce hhosts
  exact scanTargets_inexact hp hp' hmask honce (fun t ht => (hhosts t).mp ht)

/-- For every address and every netmask of 24 to 30 bits, the scan covers the subnet exactly if the netmask has
24 bits. -/
theorem scan_exact_iff (f : Firmware) (n : NetifPtr) (env : Nat → Alloc × List Interrupt) {p : Nat} (hp : 24 ≤ p)
    (hp' : p ≤ 30) (hmask : (f.board.net.netifs n).netmask = prefixMask p) : ScanExact f n env ↔ p = 24 := by
  constructor
  · intro hexact
    by_contra hne
    exact not_scanExact (by omega) hp' hmask env hexact
  · rintro rfl
    obtain ⟨hnd, hhost⟩ := scanTargets_exact hmask
    refine ⟨?_, ?_, hnd.sublist (scan_lines_sublist f n env)⟩ <;> rw [scanAsked_eq]
    · exact hnd
    · exact hhost

theorem scan_exact_sample :
    ((boot (.main ethzero true)).board.net.netifs .phys).netmask = prefixMask 24 ∧
      ScanExact (boot (.main ethzero true)) .phys sampleEnv.scan :=
  ⟨by decide, (scan_exact_iff _ .phys _ (p := 24) (by decide) (by decide) (by decide)).mpr rfl⟩

/-- 10.0.0.10 with 25 bits: the scan asks 127 addresses of another subnet. -/
theorem scan_leaves_subnet :
    let f := machine.run (boot (.main ethzero true)) [.call (.set_netmask .phys 0xffffff80)]
    machine.Legal (boot (.main ethzero true)) [.call (.set_netmask .phys 0xffffff80)] ∧
      (f.board.net.netifs .phys).netmask = prefixMask 25 ∧ ¬ ScanExact f .phys sampleEnv.scan :=
  ⟨by decide, by decide, not_scanExact (p := 25) (by decide) (by decide) (by decide) _⟩

end MultiIp.Firmware

import MultiIp.Board.ScanTargets

/-!
# A scan with packets at any point

`scan_network` statement by statement: what arrives can come between any two of
them. The line of a host is printed through a pointer into the ARP table, which
has kept what it learned before the scan.
-/

namespace MultiIp.Lwip

/-- The index that `etharp_find_addr` returns; its pointers point into that entry. -/
def etharp_find_addr_index (a : Arp) (ipaddr : ip_addr_t) : Option ArpIdx :=
  (etharp_find_entry a ipaddr .FIND_ONLY).2.filter (fun i => (a.arp_table i).state.stable)

theorem find_addr_eq (a : Arp) (ip : ip_addr_t) :
    etharp_find_addr a ip = (a, (etharp_find_addr_index a ip).map (fun i => (a.arp_table i).ethaddr)) := by
  have hsame := find_only_same a ip
  unfold etharp_find_addr etharp_find_addr_index
  split <;> rename_i heq <;> rw [heq] at hsame ⊢ <;> dsimp only at hsame ⊢ <;> subst hsame
  · split <;> rename_i hst <;> simp [hst]
  · rfl

end MultiIp.Lwip

namespace MultiIp.Firmware

open Board Lwip Lib

/-! ## The scan -/

/-- A line of the scan, with the ARP packets that came after the request and before the entry was read. -/
structure ScanLine where
  target : ip_addr_t
  mac : eth_addr
  heard : List ArpFrame
  deriving DecidableEq

/-- Where the loop stands. -/
inductive ScanPc
  | loop (idx : Nat)
  | wait (idx : Nat) (target : ip_addr_t)
  | found (idx : Nat) (target : ip_addr_t) (entry : Option ArpIdx)
  | clean (idx : Nat)

structure ScanRun where
  firmware : Firmware
  pc : ScanPc
  /-- The ARP packets since the last request, for the record. -/
  heard : List ArpFrame
  lines : List ScanLine

namespace ScanRun

def init (f : Firmware) : ScanRun where
  firmware := f
  pc := .loop 0
  heard := []
  lines := []

def arp (s : ScanRun) : Arp := s.firmware.board.net.arp

def setArp (s : ScanRun) (a : Arp) : ScanRun :=
  { s with firmware := s.firmware.setBoard { s.firmware.board with net := { s.firmware.board.net with arp := a } } }

/-- The next statement of the loop. -/
def advance (n : NetifPtr) (s : ScanRun) (alloc : Alloc) : ScanRun :=
  match s.pc with
  | .loop idx =>
    if idx > 255 then s
    else
      match scanTarget (s.firmware.board.net.netifs n) idx with
      | none => { s with pc := .loop (idx + 1) }
      | some target =>
        { s.setArp (etharp_query s.arp n (s.firmware.board.net.netifs n) target none alloc).1 with
          pc := .wait idx target, heard := [] }
  | .wait idx target => { s with pc := .found idx target (etharp_find_addr_index s.arp target) }
  | .found idx target (some i) =>
    { s with pc := .clean idx, lines := s.lines ++ [⟨target, (s.arp.arp_table i).ethaddr, s.heard⟩] }
  | .found idx _ none => { s with pc := .clean idx }
  | .clean idx =>
    { s.setArp (if idx % 10 = 0 then etharp_cleanup_netif s.arp n else s.arp) with pc := .loop (idx + 1) }

def arpFrame : Interrupt → List ArpFrame
  | .arp f => [f]
  | _ => []

inductive Step
  | advance (alloc : Alloc)
  | arrive (i : Interrupt)

def step (n : NetifPtr) (s : ScanRun) : Step → ScanRun
  | .advance alloc => s.advance n alloc
  | .arrive i => { s with firmware := s.firmware.interrupt i, heard := s.heard ++ arpFrame i }

/-- The address is resolved by the entry. -/
def Resolves (a : Arp) (target : ip_addr_t) (i : ArpIdx) : Prop :=
  (a.arp_table i).state.stable = true ∧ (a.arp_table i).ipaddr = target

instance (a : Arp) (target : ip_addr_t) (i : ArpIdx) : Decidable (Resolves a target i) :=
  inferInstanceAs (Decidable (_ ∧ _))

/-- When the scan asks for a host, the table does not resolve its address yet, and when it reads the entry that it
found, that still resolves it. -/
def fresh (n : NetifPtr) (s : ScanRun) : Step → Prop
  | .arrive _ => True
  | .advance _ =>
    match s.pc with
    | .loop idx => idx ≤ 255 → ∀ target ∈ scanTarget (s.firmware.board.net.netifs n) idx, ∀ i, ¬ Resolves s.arp target i
    | .found _ target (some i) => Resolves s.arp target i
    | _ => True

instance (n : NetifPtr) (s : ScanRun) (a : Step) : Decidable (fresh n s a) := by
  unfold fresh
  split
  · infer_instance
  · split
    · have (o : Option ip_addr_t) : Decidable (∀ target ∈ o, ∀ i, ¬ Resolves s.arp target i) :=
        Option.decidableForallMem o
      infer_instance
    · infer_instance
    · infer_instance

/-- The scan on the interface, under that condition. -/
def machine (n : NetifPtr) : Lib.Machine ScanRun Step where
  step := step n
  allowed := fresh n

instance (n : NetifPtr) (s : ScanRun) (a : Step) : Decidable ((machine n).allowed s a) :=
  inferInstanceAs (Decidable (fresh n s a))

/-! ## Who is heard -/

/-- Some packet told that the host `mac` has the address. -/
def Heard (heard : List ArpFrame) (target : ip_addr_t) (mac : eth_addr) : Prop := ∃ f ∈ heard, f.Tells target mac

/-- If the entry resolves the address, that is what a packet told. -/
def Known (heard : List ArpFrame) (target : ip_addr_t) (e : etharp_entry) : Prop :=
  e.state.stable = true → e.ipaddr = target → Heard heard target e.ethaddr

def ScanPc.target : ScanPc → Option ip_addr_t
  | .wait _ target => some target
  | .found _ target _ => some target
  | .loop _ | .clean _ => none

structure Inv (s : ScanRun) : Prop where
  lines : ∀ l ∈ s.lines, Heard l.heard l.target l.mac
  known : ∀ target ∈ ScanPc.target s.pc, ∀ i, Known s.heard target (s.arp.arp_table i)

theorem Heard.mono {heard heard' : List ArpFrame} (hsub : heard ⊆ heard') {target : ip_addr_t} {mac : eth_addr}
    (h : Heard heard target mac) : Heard heard' target mac := by
  obtain ⟨f, hf, htells⟩ := h
  exact ⟨f, hsub hf, htells⟩

theorem Known.step {R : ip_addr_t → eth_addr → Prop} {heard : List ArpFrame} {target : ip_addr_t}
    (hR : ∀ mac, R target mac → Heard heard target mac) {e e' : etharp_entry} (h : EntryStep R e e')
    (he : Known heard target e) : Known heard target e' := by
  unfold Known at he ⊢
  cases h with
  | free => simp [etharp_state.stable]
  | claim ip hst => simp [hst, etharp_state.stable]
  | pend hst => simp [etharp_state.stable]
  | queue p hst => simp [hst, etharp_state.stable]
  | rerequest hst =>
    intro _ hip
    exact he (by rw [hst]; rfl) hip
  | resolve n mac hmac =>
    rintro _ rfl
    exact hR mac hmac

theorem interrupt_steps (f : Firmware) (i : Interrupt) :
    Arp.Steps (fun ip mac => Heard (arpFrame i) ip mac) f.board.net.arp (f.interrupt i).board.net.arp := by
  cases i with
  | icmp k now => exact .refl _
  | arp fr =>
    refine (ethernet_input_arpCalls (S := fun _ => True) trivial ?_).steps
    intro ip mac htells
    exact ⟨fr, List.mem_singleton_self fr, htells⟩
  | udp inp d alloc out => exact (udp_input_arpCalls (S := fun _ => True) (fun _ _ _ => trivial) inp d alloc out).steps

theorem Inv.arrive {s : ScanRun} (h : Inv s) (n : NetifPtr) (i : Interrupt) : Inv (step n s (.arrive i)) := by
  refine ⟨h.lines, fun target ht => ?_⟩
  have hold : ∀ j, Known (s.heard ++ arpFrame i) target (s.arp.arp_table j) := by
    intro j hst hip
    exact (h.known target ht j hst hip).mono (List.subset_append_left _ _)
  refine (interrupt_steps s.firmware i).invariant (fun e e' hstep he => he.step ?_ hstep) hold
  intro mac hmac
  exact hmac.mono (List.subset_append_right _ _)

theorem Inv.ask {s : ScanRun} (h : Inv s) {n : NetifPtr} {target : ip_addr_t} (hfresh : ∀ i, ¬ Resolves s.arp target i)
    (idx : Nat) (alloc : Alloc) :
    Inv { s.setArp (etharp_query s.arp n (s.firmware.board.net.netifs n) target none alloc).1 with
      pc := .wait idx target, heard := [] } := by
  refine ⟨h.lines, ?_⟩
  rintro t ⟨⟩
  refine (Arp.Steps.query (R := fun _ _ => False) s.arp n _ target none alloc).invariant
    (fun e e' hstep he => he.step (fun _ => False.elim) hstep) ?_
  intro i hst hip
  exact absurd ⟨hst, hip⟩ (hfresh i)

theorem Inv.advance {s : ScanRun} (h : Inv s) {n : NetifPtr} {alloc : Alloc} (hfresh : fresh n s (.advance alloc)) :
    Inv (s.advance n alloc) := by
  unfold fresh at hfresh
  unfold ScanRun.advance
  split
  · rename_i idx hpc
    rw [hpc] at hfresh
    split
    · exact h
    · rename_i hidx
      split
      · exact ⟨h.lines, by simp [ScanPc.target]⟩
      · rename_i target heq
        exact h.ask (hfresh (by omega) target heq) idx alloc
  · rename_i idx target hpc
    refine ⟨h.lines, ?_⟩
    rintro t ⟨⟩
    exact h.known target (by rw [hpc]; rfl)
  · rename_i idx target i hpc
    rw [hpc] at hfresh
    refine ⟨?_, by simp [ScanPc.target]⟩
    intro l hl
    rcases List.mem_append.mp hl with hl | hl
    · exact h.lines l hl
    · obtain rfl := List.mem_singleton.mp hl
      exact h.known target (by rw [hpc]; rfl) i hfresh.1 hfresh.2
  · exact ⟨h.lines, by simp [ScanPc.target]⟩
  · exact ⟨h.lines, by simp [ScanPc.target]⟩

theorem inv_step {n : NetifPtr} (s : ScanRun) (a : Step) (h : Inv s) (hfresh : fresh n s a) : Inv (step n s a) := by
  cases a with
  | advance alloc => exact h.advance hfresh
  | arrive i => exact h.arrive n i

theorem inv_init (f : Firmware) : Inv (init f) := ⟨by simp [init], by simp [init, ScanPc.target]⟩

/-- In every run under that condition, whatever the table holds at the start and whatever arrives between two
statements, each line is about a packet that came after the request for its target. -/
theorem lines_answered (f : Firmware) (n : NetifPtr) (as : List Step) (h : (machine n).Legal (init f) as) :
    ∀ l ∈ ((machine n).run (init f) as).lines, Heard l.heard l.target l.mac :=
  (Machine.run_invariant (M := machine n) (fun s a => inv_step s a) (inv_init f) h).lines

/-- An ARP request of a neighbour for the address of the board. -/
def knockFrame : ArpFrame where
  len := 42
  hdr :=
    { hwtype := HWTYPE_ETHERNET, proto := ETHTYPE_IP, hwlen := 6, protolen := 4, opcode := ARP_REQUEST,
      shwaddr := #v[2, 0, 0, 0, 0, 2], sipaddr := 0x0a000001, dhwaddr := ethzero, dipaddr := 0x0a00000a }

def quiet : Step := .advance { request := true, copy := true }

/-- The neighbour answers during the scan. -/
def answeredRun : List Step := [quiet, quiet, .arrive (.arp knockFrame), quiet, quiet, quiet]

theorem lines_answered_sample :
    (machine .phys).Legal (init (boot (.main ethzero true))) answeredRun ∧
      ∀ l ∈ ((machine .phys).run (init (boot (.main ethzero true))) answeredRun).lines, Heard l.heard l.target l.mac :=
  ⟨by decide, lines_answered _ .phys answeredRun (by decide)⟩

/-- The neighbour spoke before the scan and is silent during it. -/
theorem silent_host_listed :
    let f := Firmware.machine.run (boot (.main ethzero true)) [.call (.arp_input knockFrame)]
    Firmware.machine.Legal (boot (.main ethzero true)) [.call (.arp_input knockFrame)] ∧
      ¬ ∀ l ∈ ((machine .phys).run (init f) [quiet, quiet, quiet, quiet]).lines, Heard l.heard l.target l.mac := by
  intro f
  refine ⟨by decide, fun hall => ?_⟩
  have hline : ((machine .phys).run (init f) [quiet, quiet, quiet, quiet]).lines =
      [⟨0x0a000001, #v[2, 0, 0, 0, 0, 2], []⟩] := by decide
  rw [hline] at hall
  obtain ⟨_, hmem, -⟩ := hall _ (List.mem_singleton_self _)
  cases hmem

/-! ## The scan of one round after the other -/

/-- The statements of a round, with what arrives during its wait. -/
def roundSteps (nif : netif) (env : Nat → Alloc × List Interrupt) (idx : Nat) : List Step :=
  match scanTarget nif idx with
  | none => [.advance (env idx).1]
  | some _ => .advance (env idx).1 :: (env idx).2.map .arrive ++ List.replicate 3 (.advance (env idx).1)

/-- The lines of the run are those of `scan_network`. -/
def hosts (s : ScanRun) : List (ip_addr_t × eth_addr) := s.lines.map (fun l => (l.target, l.mac))

theorem run_arrivals (n : NetifPtr) (is : List Interrupt) (s : ScanRun) :
    (machine n).run s (is.map .arrive) =
      { s with firmware := s.firmware.interrupts is, heard := s.heard ++ is.flatMap arpFrame } := by
  induction is generalizing s with
  | nil => simp [Firmware.interrupts]
  | cons i is ih =>
    rw [List.map_cons, Machine.run_cons, ih]
    simp [machine, step, Firmware.interrupts]

/-- What follows the wait: the entry is looked for, read, and every ten rounds the table is emptied. -/
theorem run_read (n : NetifPtr) (alloc : Alloc) {s : ScanRun} {idx : Nat} {target : ip_addr_t}
    (hpc : s.pc = .wait idx target) :
    let t := (machine n).run s (List.replicate 3 (.advance alloc))
    t.pc = .loop (idx + 1) ∧
      t.firmware = (s.setArp (if idx % 10 = 0 then etharp_cleanup_netif s.arp n else s.arp)).firmware ∧
      t.hosts = s.hosts ++
        ((etharp_find_addr_index s.arp target).map (fun i => (target, (s.arp.arp_table i).ethaddr))).toList := by
  have hwait : s.advance n alloc = { s with pc := .found idx target (etharp_find_addr_index s.arp target) } := by
    simp [ScanRun.advance, hpc]
  simp only [List.replicate, Machine.run_cons, Machine.run_nil, machine, step, hwait]
  cases etharp_find_addr_index s.arp target with
  | none => simp [ScanRun.advance, setArp, arp, hosts]
  | some i => simp [ScanRun.advance, setArp, arp, hosts]

theorem run_round (n : NetifPtr) (env : Nat → Alloc × List Interrupt) {idx : Nat} (hidx : idx ≤ 255) {s : ScanRun}
    (hpc : s.pc = .loop idx) :
    let t := (machine n).run s (roundSteps (s.firmware.board.net.netifs n) env idx)
    t.pc = .loop (idx + 1) ∧ (t.firmware, t.hosts) = scan_round n env (s.firmware, s.hosts) idx := by
  have hle : ¬ 255 < idx := by omega
  unfold roundSteps scan_round
  dsimp only
  cases htarget : scanTarget (s.firmware.board.net.netifs n) idx with
  | none => simp [machine, step, ScanRun.advance, hpc, hle, htarget, hosts]
  | some target =>
    have hask : (machine n).step s (.advance (env idx).1) =
        ⟨(s.setArp (etharp_query s.arp n (s.firmware.board.net.netifs n) target none (env idx).1).1).firmware,
          .wait idx target, [], s.lines⟩ := by
      simp [machine, step, ScanRun.advance, setArp, hpc, hle, htarget]
    dsimp only
    rw [List.cons_append, Machine.run_cons, Machine.run_append, hask, run_arrivals, find_addr_eq]
    have hwait : ∀ f heard, (ScanRun.mk f (.wait idx target) heard s.lines).pc = .wait idx target := fun _ _ => rfl
    obtain ⟨hloop, hfirm, hhosts⟩ := run_read n (env idx).1 (hwait _ ([] ++ (env idx).2.flatMap arpFrame))
    refine ⟨hloop, ?_⟩
    rw [hfirm, hhosts]
    simp [setArp, arp, hosts, Firmware.setBoard, Function.comp_def]

/-- The scan is a run of its statements, round after round. -/
theorem scan_network_run (f : Firmware) (n : NetifPtr) (env : Nat → Alloc × List Interrupt) :
    let t := (machine n).run (init f) ((List.range 256).flatMap (roundSteps (f.board.net.netifs n) env))
    (t.firmware, t.hosts) = f.scan_network n env := by
  have hrounds : ∀ k ≤ 256,
      let t := (machine n).run (init f) ((List.range k).flatMap (roundSteps (f.board.net.netifs n) env))
      t.pc = .loop k ∧ t.firmware.board.net.netifs = f.board.net.netifs ∧
        (t.firmware, t.hosts) = (List.range k).foldl (scan_round n env) (f, []) := by
    intro k
    induction k with
    | zero => exact fun _ => ⟨rfl, rfl, rfl⟩
    | succ k ih =>
      intro hk
      obtain ⟨hpc, hnetifs, hrun⟩ := ih (by omega)
      obtain ⟨hnext, hround⟩ := run_round n env (show k ≤ 255 by omega) hpc
      rw [hnetifs] at hnext hround
      simp only [List.range_succ, List.flatMap_append, List.flatMap_singleton, List.foldl_append, List.foldl_cons,
        List.foldl_nil, Machine.run_append, ← hrun]
      have hkeep := (congrArg (fun r => r.1.board.net.netifs) hround).trans (scan_round_netifs _ n env k)
      exact ⟨hnext, hkeep.trans hnetifs, hround⟩
  exact (hrounds 256 (Nat.le_refl _)).2.2

end ScanRun

end MultiIp.Firmware

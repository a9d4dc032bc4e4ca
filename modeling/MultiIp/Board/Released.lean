import MultiIp.Board.Opening

/-!
# Every handed pbuf is released

A pbuf that `udp_input` hands to `udp_rx_callback` is released there if the slot
of its socket is open. While a socket is being opened there is a moment where it
is not.
-/

namespace MultiIp.Board

open Lwip Lib

/-! ## Half-open sockets -/

/-- The statements between which the callback is installed and its slot is not open. Until `recv_arg` is written, the
callback is called for slot 0. -/
def Stage.halfOpen (idx : SlotIdx) : Stage → Bool
  | .callback => idx == 0
  | .armed | .pcb_set | .netif_set => true
  | _ => false

/-- The datagram is for a socket that is being opened, at a moment where its callback is installed and its slot is
not open. -/
def HalfOpen (m : Main) : Main.Stmt → Prop
  | .receive inp d _ _ => ∃ stage idx n port pcb, m.pc = .opening stage idx n port pcb ∧ stage.halfOpen idx = true ∧
      d.intact = true ∧ (udp_input_find m.board.udp (m.board.net.netifs inp) d).2 = some pcb
  | _ => False

/-- Every pbuf that was handed over has been released exactly once. -/
def Released (handed : List (pbuf × List pbuf)) : Prop := ∀ t ∈ handed, t.2 = [t.1]

theorem released_single {p : pbuf} {freed : List pbuf} : Released [(p, freed)] ↔ freed = [p] := by
  simp [Released]

theorem released_callback (b : Board) (i : SlotIdx) (p : pbuf) (addr : ip_addr_t) (port : UInt16) :
    Released [(p, (udp_rx_callback_frees b i (some p) addr port).2)] ↔ (b.s_listeners i).in_use = true := by
  rw [released_single, rx_callback_frees_snd]
  cases (b.s_listeners i).in_use <;> simp

/-- A datagram for the new control block is released if the slot that its callback names is open. -/
theorem released_flying {b : Board} {l : List PcbPtr} {stage : Stage} {idx : SlotIdx} {pcb : PcbPtr}
    (h : Flight b l stage idx pcb) (hcalls : (b.udp.pcbs pcb).recv = some .udp_rx_callback) (hrank : stage.rank ≤ 8)
    (p : pbuf) (addr : ip_addr_t) (port : UInt16) :
    Released [(p, (udp_rx_callback_frees b (b.udp.pcbs pcb).recv_arg (some p) addr port).2)] ↔
      stage.halfOpen idx = false := by
  have hafter : ¬ stage.rank ≤ 4 := by
    intro hr
    rw [h.written.silent hr] at hcalls
    cases hcalls
  have hlate : 6 ≤ stage.rank → (Released [(p, (udp_rx_callback_frees b (b.udp.pcbs pcb).recv_arg (some p) addr port).2)] ↔
      False) := by
    intro hr
    rw [h.written.arg hr, released_callback, h.free]
    simp
  cases stage with
  | callback =>
    have harg : (b.udp.pcbs pcb).recv_arg = ((0 : SlotIdx) : Nat) := h.written.arg_zero (by decide)
    rw [harg, released_callback]
    by_cases hidx : idx = 0
    · subst hidx
      rw [h.free]
      simp [Stage.halfOpen]
    · rw [h.first hidx]
      simp [Stage.halfOpen, hidx]
  | armed => simpa [Stage.halfOpen] using hlate (by decide)
  | pcb_set => simpa [Stage.halfOpen] using hlate (by decide)
  | netif_set => simpa [Stage.halfOpen] using hlate (by decide)
  | created => exact absurd (by decide) hafter
  | addressed => exact absurd (by decide) hafter
  | ported => exact absurd (by decide) hafter
  | linked => exact absurd (by decide) hafter
  | bound => exact absurd (by decide) hafter
  | used => exact absurd hrank (by decide)
  | counted => exact absurd hrank (by decide)
  | drop_counted => exact absurd hrank (by decide)

theorem halfOpen_rank {stage : Stage} {idx : SlotIdx} (h : stage.halfOpen idx = true) :
    5 ≤ stage.rank ∧ stage.rank ≤ 8 := by
  cases stage <;> first | exact ⟨by decide, by decide⟩ | cases h

theorem released_receive {b : Board} {pc : MainPc} {l : List PcbPtr} (h : Held b pc l) (handed : List (pbuf × List pbuf))
    (inp : NetifPtr) (d : Datagram) (alloc : Bool) (out : Alloc) :
    Released (Main.handedBy ⟨b, pc, handed⟩ (.receive inp d alloc out)) ↔
      ¬ HalfOpen ⟨b, pc, handed⟩ (.receive inp d alloc out) := by
  obtain ⟨u, r, l', hfind, hs, hr⟩ := udp_input_find_chain h.chain (b.net.netifs inp) d
  simp only [Main.handedBy, HalfOpen, handedTo, hfind]
  cases r with
  | none => simp [Released]
  | some p =>
    have hp := (hr p rfl).1
    by_cases hhanded : d.intact = true ∧ (b.udp.pcbs p).recv = some .udp_rx_callback
    · obtain ⟨hintact, hcalls⟩ := hhanded
      simp only [hs.pcbs, hintact, hcalls, beq_self_eq_true, Bool.and_self, if_true, true_and, Option.some.injEq]
      rcases h.serves p hp hcalls with hf | ⟨i, hi, hpcb, harg⟩
      · cases pc with
        | opening stage idx n port pcb =>
          simp only [MainPc.flying] at hf
          split at hf
          · rename_i hrank
            obtain rfl := Option.some.inj hf
            rw [released_flying (h.flight stage idx n port pcb rfl hrank) hcalls hrank]
            constructor
            · rintro hno ⟨stage₁, idx₁, n₁, port₁, pcb₁, hpc, hopen, -⟩
              cases hpc
              rw [hno] at hopen
              cases hopen
            · intro hno
              rw [Bool.eq_false_iff]
              exact fun hopen => hno ⟨stage, idx, n, port, pcb, rfl, hopen, rfl⟩
          · cases hf
        | failed pcb =>
          obtain rfl := Option.some.inj hf
          exact absurd hp (h.failed pcb rfl).2
        | idle => cases hf
        | closing idx => cases hf
        | polling idx => cases hf
      · rw [harg, released_callback]
        refine iff_of_true hi ?_
        rintro ⟨stage, idx, n, port, pcb, rfl, hopen, rfl⟩
        have hf := h.flight stage idx n port p rfl (halfOpen_rank hopen).2
        exact hf.loose.unowned i hi hpcb
    · have hnone : (d.intact && (u.pcbs p).recv == some .udp_rx_callback) = false := by
        rw [hs.pcbs, Bool.eq_false_iff]
        simpa using hhanded
      simp only [hnone, Bool.false_eq_true, if_false]
      refine iff_of_true (fun t ht => by cases ht) ?_
      rintro ⟨stage, idx, n, port, pcb, hpc, hopen, hintact, heq⟩
      obtain rfl := Option.some.inj heq
      obtain ⟨hlow, hhigh⟩ := halfOpen_rank hopen
      exact hhanded ⟨hintact, (h.flight stage idx n port p hpc hhigh).written.calls hlow⟩

theorem released_step {m : Main} (h : ∃ l, Held m.board m.pc l) (a : Main.Stmt) :
    Released (m.handedBy a) ↔ ¬ HalfOpen m a := by
  obtain ⟨l, h⟩ := h
  cases a with
  | receive inp d alloc out => exact released_receive h m.handed inp d alloc out
  | _ => exact iff_of_true (fun t ht => by cases ht) id

/-- The same machine without datagrams for half-open sockets. -/
def wholeMachine : Lib.Machine Main Main.Stmt where
  step := Main.step
  allowed m a := Main.allowed m a ∧ ¬ HalfOpen m a

theorem whole_legal {m : Main} {as : List Main.Stmt} (h : wholeMachine.Legal m as) : Main.machine.Legal m as := by
  induction as generalizing m with
  | nil => trivial
  | cons a as ih => exact ⟨h.1.1, ih h.2⟩

theorem released_append {l₁ l₂ : List (pbuf × List pbuf)} : Released (l₁ ++ l₂) ↔ Released l₁ ∧ Released l₂ := by
  simp only [Released, List.mem_append, or_imp, forall_and]

theorem released_run {m : Main} (h : ∃ l, Held m.board m.pc l) {as : List Main.Stmt} (hl : Main.machine.Legal m as) :
    Released (Main.machine.run m as).handed ↔ Released m.handed ∧ wholeMachine.Legal m as := by
  induction as generalizing m with
  | nil => simp [Lib.Machine.Legal]
  | cons a as ih =>
    obtain ⟨ha, hrest⟩ := hl
    have hstep := released_step h a
    have hrun := ih (held_step h a ha) hrest
    have hhanded : (m.step a).handed = m.handed ++ m.handedBy a := rfl
    rw [hhanded, released_append, hstep] at hrun
    rw [Lib.Machine.run_cons]
    refine hrun.trans ?_
    constructor
    · rintro ⟨⟨hold, hno⟩, hlegal⟩
      exact ⟨hold, ⟨ha, hno⟩, hlegal⟩
    · rintro ⟨hold, ⟨-, hno⟩, hlegal⟩
      exact ⟨⟨hold, hno⟩, hlegal⟩

/-- In a run from start-up, every pbuf that is handed to `udp_rx_callback` is released exactly once, if and only if no
datagram arrives for a socket that is half open. -/
theorem released_once_iff (c : Boot) (as : List Main.Stmt) (hl : Main.machine.Legal (.start (boot c)) as) :
    Released (Main.machine.run (.start (boot c)) as).handed ↔ wholeMachine.Legal (.start (boot c)) as := by
  obtain ⟨l, hreg⟩ := boot_registry c
  have hheld : ∃ l, Held (Main.start (boot c)).board (Main.start (boot c)).pc l := ⟨l, .of_registry hreg⟩
  rw [released_run hheld hl]
  exact and_iff_right (fun t ht => by cases ht)

theorem sample_length : (2 : UInt16).toNat = [[(104 : UInt8), 105]].flatten.length := rfl

/-- Two bytes for port 5000 of the physical interface. -/
def sampleDatagram : Datagram where
  src_ip := 0x0a000005
  dest_ip := 0x0a00000a
  src := 7000
  dest := 5000
  intact := true
  payload := ⟨[[104, 105]], 2, sample_length⟩

/-- A socket is opened on port 5000, and after `k` of its statements the datagram arrives. -/
def openingRun (k : Nat) : List Main.Stmt :=
  .add_listener .phys 5000 :: List.replicate k .next ++ [.receive .phys sampleDatagram true ⟨true, true⟩]

theorem next_allowed {m : Main} {stage : Stage} {idx : SlotIdx} {n : NetifPtr} {port : UInt16} {pcb : PcbPtr}
    (h : m.pc = .opening stage idx n port pcb) (hport : port ≠ 0) : Main.allowed m .next :=
  ⟨stage, idx, n, port, pcb, h, fun _ => hport⟩

theorem released_once_sample :
    Main.machine.Legal (.start (boot (.main ethzero true))) (openingRun 12) ∧
      (Main.machine.run (.start (boot (.main ethzero true))) (openingRun 12)).handed.length = 1 ∧
      Released (Main.machine.run (.start (boot (.main ethzero true))) (openingRun 12)).handed := by
  have h5000 : (5000 : UInt16) ≠ 0 := by decide
  have hidle : ¬ HalfOpen (Main.machine.run (.start (boot (.main ethzero true))) ((openingRun 12).take 13))
      (.receive .phys sampleDatagram true ⟨true, true⟩) := by
    rintro ⟨_, _, _, _, _, hpc, -⟩
    cases hpc
  have hnext := fun {m stage idx n pcb} (h : m.pc = .opening stage idx n 5000 pcb) =>
    (⟨next_allowed h h5000, id⟩ : Main.allowed m .next ∧ ¬ HalfOpen m .next)
  have hwhole : wholeMachine.Legal (.start (boot (.main ethzero true))) (openingRun 12) :=
    ⟨⟨rfl, id⟩, hnext rfl, hnext rfl, hnext rfl, hnext rfl, hnext rfl, hnext rfl, hnext rfl, hnext rfl, hnext rfl,
      hnext rfl, hnext rfl, hnext rfl, ⟨trivial, hidle⟩, trivial⟩
  have hlegal := whole_legal hwhole
  exact ⟨hlegal, by decide +kernel, (released_once_iff _ _ hlegal).mpr hwhole⟩

/-- The datagram arrives before the slot is open, and its pbuf is never released. -/
theorem half_open_leaks :
    Main.machine.Legal (.start (boot (.main ethzero true))) (openingRun 6) ∧
      (Main.machine.run (.start (boot (.main ethzero true))) (openingRun 6)).handed = [(sampleDatagram.payload, [])] ∧
      ¬ Released (Main.machine.run (.start (boot (.main ethzero true))) (openingRun 6)).handed := by
  have h5000 : (5000 : UInt16) ≠ 0 := by decide
  have hhanded : (Main.machine.run (.start (boot (.main ethzero true))) (openingRun 6)).handed =
      [(sampleDatagram.payload, [])] := by decide +kernel
  refine ⟨⟨rfl, next_allowed rfl h5000, next_allowed rfl h5000, next_allowed rfl h5000, next_allowed rfl h5000,
    next_allowed rfl h5000, next_allowed rfl h5000, trivial, trivial⟩, hhanded, ?_⟩
  rw [hhanded, released_single]
  simp

end MultiIp.Board

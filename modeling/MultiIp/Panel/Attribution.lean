import MultiIp.Panel.Link

/-!
# Whose answer is it

A command is completed by its own answer as long as no answer to an earlier
command is still on its way when it is sent. An answer that comes after its
timeout is given to the next command.
-/

namespace MultiIp.Panel.Link

open Lib Wire Firmware

/-! ## Invariant -/

/-- What the task knows of the responses handed over since its command was sent. -/
def TaskOk (resps : List ProtocolResponse) : TaskState → Prop
  | .waiting => resps = []
  | .completed resp => resps = [resp]
  | .timedOut => True

/-- The board has not yet received the whole command. -/
def Sending (s : Link) (n : Nat) (command : Text) : Prop :=
  s.toPanel = [] ∧ ∃ front rest, command.map asciiChar = front ++ rest ∧
    s.toBoard = (rest ++ ['\r']).map (n, ·) ∧ s.firmware.cmd_line = front.take (CMD_LINE_MAX - 1)

/-- The board has executed the command, and the panel has received `recv` of its answer. -/
def Answered (s : Link) (n : Nat) (command recv : Text) : Prop :=
  s.toBoard = [] ∧ s.firmware.cmd_line = [] ∧ ∃ (a : Answer) (x : Execution), a.Wf ∧ a.print = recv ++ s.toPanel ∧
    x ∈ s.executed ∧ x.id = n ∧ x.line = boardLine command ∧ x.out = a.print ∧ x.name = a.name

/-- `command` was sent last, as number `n`. Since then the panel received `recv` and was handed `resps`. -/
structure Busy (cu : Culture) (s : Link) (n : Nat) (command recv : Text) (resps : List ProtocolResponse) : Prop where
  length : s.sent.length = n + 1
  last : s.sent[n]? = some command
  isCommand : IsCommand command
  panel : ∃ col, portDataReceived cu ([], (col, [])) recv = (s.lineBuf, (s.collector, resps))
  pending : ∀ p ∈ s.pending, p.id = n ∧ TaskOk resps p.task
  returned : ∀ resp, (n, resp) ∈ s.returned → resps ≠ []
  phase : (s.Sending n command ∧ recv = []) ∨ s.Answered n command recv

/-- Nothing was sent yet. -/
def Fresh (s : Link) : Prop := s.sent = [] ∧ s.pending = none ∧ s.Quiet ∧ s.lineBuf = []

structure Inv (cu : Culture) (s : Link) : Prop where
  firmware : Firmware.Inv s.firmware
  own : s.OwnResponses
  ids : ∀ r ∈ s.returned, r.1 < s.sent.length
  stage : s.Fresh ∨ ∃ n command recv resps, s.Busy cu n command recv resps

theorem init_inv (cu : Culture) {f : Firmware} (h : Firmware.Inv f) (hl : f.cmd_line = []) : (init f).Inv cu where
  firmware := h
  own _ hr := by cases hr
  ids _ hr := by cases hr
  stage := Or.inl ⟨rfl, rfl, ⟨rfl, hl, rfl⟩, rfl⟩

theorem Own.mono {s s' : Link} {r : Nat × ProtocolResponse} (h : s.Own r) (hex : ∀ x ∈ s.executed, x ∈ s'.executed)
    (hsent : s.sent <+: s'.sent) : s'.Own r := by
  obtain ⟨x, hx, command, hc, hrest⟩ := h
  refine ⟨x, hex x hx, command, ?_, hrest⟩
  obtain ⟨t, ht⟩ := hsent
  have hlt : r.1 < s.sent.length := (List.getElem?_eq_some_iff.mp hc).1
  rw [← ht, List.getElem?_append_left hlt]
  exact hc

/-! ## When the line is quiet -/

/-- With nothing left to receive the response was handed over, and with something left it was not. -/
theorem answered_resps {cu : Culture} {a : Answer} (ha : a.Wf) {recv rest : Text} (hcut : a.print = recv ++ rest)
    {col : Collector} {p : Text × Handed} (hp : portDataReceived cu ([], (col, [])) recv = p) :
    (rest = [] ∧ p.1 = [] ∧ p.2.2 = [response a]) ∨ (rest ≠ [] ∧ p.2.2 = []) := by
  rw [← hp]
  by_cases hrest : rest = []
  · rw [hrest, List.append_nil] at hcut
    rw [← hcut]
    exact Or.inl ⟨hrest, received_answer cu ha col []⟩
  · exact Or.inr ⟨hrest, received_part cu ha hcut hrest col⟩

section Busy

variable {cu : Culture} {s : Link} {n : Nat} {command recv : Text} {resps : List ProtocolResponse}

theorem Busy.nothing_received (h : s.Busy cu n command [] resps) : s.lineBuf = [] ∧ resps = [] := by
  obtain ⟨col, hpanel⟩ := h.panel
  have heq : (([], (col, [])) : Text × Handed) = (s.lineBuf, (s.collector, resps)) := hpanel
  simp only [Prod.mk.injEq] at heq
  exact ⟨heq.1.symm, heq.2.2.symm⟩

/-- Once a response was handed over, everything has been received. -/
theorem Busy.quiet (h : s.Busy cu n command recv resps) (hne : resps ≠ []) : s.Quiet := by
  rcases h.phase with ⟨-, rfl⟩ | ⟨hto, hline, a, x, ha, hcut, -⟩
  · exact absurd h.nothing_received.2 hne
  · obtain ⟨col, hpanel⟩ := h.panel
    rcases answered_resps ha hcut hpanel with ⟨hp, -, -⟩ | ⟨-, hnil⟩
    · exact ⟨hto, hline, hp⟩
    · exact absurd hnil hne

theorem Busy.lineBuf (h : s.Busy cu n command recv resps) (hq : s.Quiet) : s.lineBuf = [] := by
  rcases h.phase with ⟨-, rfl⟩ | ⟨-, -, a, x, ha, hcut, -⟩
  · exact h.nothing_received.1
  · obtain ⟨col, hpanel⟩ := h.panel
    rcases answered_resps ha hcut hpanel with ⟨-, hbuf, -⟩ | ⟨hp, -⟩
    · exact hbuf
    · exact absurd hq.2.2 hp

end Busy

/-- Where a command may be sent with care, the line is quiet. -/
theorem Inv.quiet {cu : Culture} {s : Link} (h : s.Inv cu) (hc : s.lastReturned ∨ s.Quiet) :
    s.Quiet ∧ s.lineBuf = [] := by
  rcases h.stage with ⟨-, -, hq, hbuf⟩ | ⟨n, command, recv, resps, hb⟩
  · exact ⟨hq, hbuf⟩
  · have hq : s.Quiet := by
      rcases hc with ⟨⟨id, resp⟩, hr, hid⟩ | hq
      · rw [hb.length, Nat.add_sub_cancel] at hid
        subst hid
        exact hb.quiet (hb.returned resp hr)
      · exact hq
    exact ⟨hq, hb.lineBuf hq⟩

/-! ## Steps of the panel -/

theorem Inv.send {cu : Culture} {s : Link} (h : s.Inv cu) {command : Text} (hcmd : IsCommand command)
    (hc : s.lastReturned ∨ s.Quiet) : (s.sendCommand command).Inv cu := by
  obtain ⟨⟨hto, hline, hpanel⟩, hbuf⟩ := h.quiet hc
  have hsent : s.sent <+: (s.sendCommand command).sent := List.prefix_append _ _
  refine ⟨h.firmware, fun r hr => (h.own r hr).mono (fun _ hx => hx) hsent, fun r hr => ?_, Or.inr ?_⟩
  · exact (h.ids r hr).trans_le hsent.length_le
  · refine ⟨s.sent.length, command, [], [], ⟨?_, ?_, hcmd, ?_, ?_, ?_, Or.inl ⟨⟨hpanel, ?_⟩, rfl⟩⟩⟩
    · exact List.length_append
    · exact List.getElem?_concat_length
    · refine ⟨{ s.collector with collectName := none }, ?_⟩
      show _ = (s.lineBuf, _)
      rw [hbuf]
      rfl
    · intro p hp
      cases hp
      exact ⟨rfl, rfl⟩
    · intro resp hr
      exact absurd (h.ids _ hr) (Nat.lt_irrefl _)
    · refine ⟨[], command.map asciiChar, rfl, ?_, hline⟩
      show s.toBoard ++ _ = _
      rw [hto]
      rfl

theorem mem_trySet {o : Option Pending} {t : TaskState} {p : Pending} (h : p ∈ trySet o t) :
    (p ∈ o ∧ p.task ≠ .waiting) ∨ ∃ q ∈ o, q.task = .waiting ∧ p = { q with task := t } := by
  unfold trySet at h
  obtain ⟨q, hq, rfl⟩ := Option.mem_map.mp h
  split
  · rename_i hw
    exact Or.inr ⟨q, hq, hw, rfl⟩
  · rename_i hw
    exact Or.inl ⟨hq, hw⟩

theorem Inv.timeout {cu : Culture} {s : Link} (h : s.Inv cu) : s.timeout.Inv cu := by
  refine ⟨h.firmware, h.own, h.ids, ?_⟩
  rcases h.stage with ⟨hsent, hp, hq, hbuf⟩ | ⟨n, command, recv, resps, hb⟩
  · refine Or.inl ⟨hsent, ?_, hq, hbuf⟩
    show trySet s.pending .timedOut = none
    rw [hp]
    rfl
  · refine Or.inr ⟨n, command, recv, resps, ⟨hb.length, hb.last, hb.isCommand, hb.panel, ?_, hb.returned, hb.phase⟩⟩
    intro p hp
    rcases mem_trySet hp with ⟨hp, -⟩ | ⟨q, hq, -, rfl⟩
    · exact hb.pending p hp
    · exact ⟨(hb.pending q hq).1, trivial⟩

/-- The first response after the command was sent completes its task. -/
theorem taskOk_completed {n : Nat} {p : Pending} {o : Option Pending} {resp : ProtocolResponse}
    (h : ∀ q ∈ o, q.id = n ∧ TaskOk [] q.task) (hp : p ∈ trySet o (.completed resp)) :
    p.id = n ∧ TaskOk [resp] p.task := by
  rcases mem_trySet hp with ⟨hp, hw⟩ | ⟨q, hq, -, rfl⟩
  · obtain ⟨hid, htask⟩ := h p hp
    refine ⟨hid, ?_⟩
    cases ht : p.task with
    | waiting => exact absurd ht hw
    | completed r =>
      rw [ht] at htask
      cases htask
    | timedOut => trivial
  · exact ⟨(h q hq).1, rfl⟩

theorem Inv.dataReceived {cu : Culture} {s : Link} (h : s.Inv cu) : (s.dataReceived cu).Inv cu := by
  unfold Link.dataReceived
  split
  · exact h
  · rename_i c rest hpanel
    have hne : s.toPanel ≠ [] := by
      rw [hpanel]
      exact List.cons_ne_nil _ _
    dsimp only
    generalize hr : portDataReceived cu (s.lineBuf, (s.collector, [])) [c] = r
    refine ⟨h.firmware, h.own, h.ids, Or.inr ?_⟩
    rcases h.stage with ⟨-, -, hq, -⟩ | ⟨n, command, recv, resps, hb⟩
    · exact absurd hq.2.2 hne
    rcases hb.phase with ⟨⟨hnil, -⟩, -⟩ | ⟨hto, hline, a, x, ha, hcut, hx⟩
    · exact absurd hnil hne
    obtain ⟨col, hp⟩ := hb.panel
    -- The answer was not complete, so nothing had been handed over.
    obtain rfl : resps = [] := by
      rcases answered_resps ha hcut hp with ⟨hnil, -⟩ | ⟨-, hnil⟩
      · exact absurd hnil hne
      · exact hnil
    have hnext : portDataReceived cu ([], (col, [])) (recv ++ [c]) = r := by
      rw [received_append, hp, hr]
    rw [hpanel, List.append_cons] at hcut
    refine ⟨n, command, recv ++ [c], r.2.2, ⟨hb.length, hb.last, hb.isCommand, ⟨col, hnext⟩, fun p hp' => ?_, ?_,
      Or.inr ⟨hto, hline, a, x, ha, hcut, hx⟩⟩⟩
    · change p ∈ r.2.2.foldl (fun p resp => trySet p (.completed resp)) s.pending at hp'
      rcases answered_resps ha hcut hnext with ⟨-, -, hone⟩ | ⟨-, hnil⟩
      · rw [hone] at hp' ⊢
        exact taskOk_completed hb.pending hp'
      · rw [hnil] at hp' ⊢
        exact hb.pending p hp'
    · intro resp hret
      exact absurd rfl (hb.returned resp hret)

/-- The response that a command returns is its own. -/
theorem Busy.own {cu : Culture} {s : Link} {n : Nat} {command recv : Text} {resp : ProtocolResponse}
    (h : s.Busy cu n command recv [resp]) : s.Own (n, resp) := by
  rcases h.phase with ⟨-, rfl⟩ | ⟨-, -, a, x, ha, hcut, hx, hid, hline, hout, hname⟩
  · exact absurd h.nothing_received.2 (List.cons_ne_nil _ _)
  · obtain ⟨col, hpanel⟩ := h.panel
    refine ⟨x, hx, command, h.last, hid, hline, a, ha, hout, hname, ?_⟩
    rcases answered_resps ha hcut hpanel with ⟨-, -, hone⟩ | ⟨-, hnil⟩
    · exact (List.cons.inj hone).1
    · exact absurd hnil (List.cons_ne_nil _ _)

theorem Inv.resume {cu : Culture} {s : Link} (h : s.Inv cu) : s.resume.Inv cu := by
  unfold Link.resume
  split
  · rename_i id resp hp
    rcases h.stage with ⟨-, hnone, -⟩ | ⟨n, command, recv, resps, hb⟩
    · rw [hnone] at hp
      cases hp
    obtain ⟨rfl, htask⟩ := hb.pending _ hp
    obtain rfl : resps = [resp] := htask
    refine ⟨h.firmware, fun r hr => ?_, fun r hr => ?_, Or.inr ?_⟩
    · rcases List.mem_append.mp hr with hr | hr
      · exact h.own r hr
      · rw [List.mem_singleton.mp hr]
        exact hb.own
    · rcases List.mem_append.mp hr with hr | hr
      · exact h.ids r hr
      · rw [List.mem_singleton.mp hr]
        show id < s.sent.length
        rw [hb.length]
        exact Nat.lt_succ_self _
    · exact ⟨id, command, recv, [resp], ⟨hb.length, hb.last, hb.isCommand, hb.panel, fun p hp => (by cases hp),
        fun _ _ => List.cons_ne_nil _ _, hb.phase⟩⟩
  · refine ⟨h.firmware, h.own, h.ids, ?_⟩
    rcases h.stage with ⟨hsent, -, hq, hbuf⟩ | ⟨n, command, recv, resps, hb⟩
    · exact Or.inl ⟨hsent, rfl, hq, hbuf⟩
    · exact Or.inr ⟨n, command, recv, resps, ⟨hb.length, hb.last, hb.isCommand, hb.panel, fun p hp => (by cases hp),
        hb.returned, hb.phase⟩⟩

/-! ## Steps of the board -/

theorem command_char {command : Text} (h : IsCommand command) {c : Char} (hc : c ∈ command.map asciiChar) :
    c ≠ '\r' ∧ c ≠ '\n' ∧ c ≠ 'q' := by
  obtain ⟨d, hd, rfl⟩ := List.mem_map.mp hc
  unfold asciiChar
  split
  · exact h.2 d hd
  · decide

theorem feed_stored (f : Firmware) (env : Env) {c : Char} (hr : c ≠ '\r') (hn : c ≠ '\n') {front : Text}
    (h : f.cmd_line = front.take (CMD_LINE_MAX - 1)) :
    cmd_channel_feed f env c = ({ f with cmd_line := (front ++ [c]).take (CMD_LINE_MAX - 1) }, []) := by
  unfold cmd_channel_feed
  rw [if_neg (by simp [hr, hn])]
  by_cases hlen : front.length < CMD_LINE_MAX - 1
  · have htake : f.cmd_line = front := by rw [h, List.take_of_length_le (Nat.le_of_lt hlen)]
    rw [if_pos (by rw [htake]; exact hlen), htake, List.take_of_length_le (by rw [List.length_append]; exact hlen)]
  · have hfull : (front ++ [c]).take (CMD_LINE_MAX - 1) = f.cmd_line := by
      rw [h, List.take_append_of_le_length (by omega)]
    rw [if_neg (by rw [h, List.length_take]; omega), hfull]

theorem feed_enter (f : Firmware) (env : Env) (h : f.cmd_line ≠ []) :
    cmd_channel_feed f env '\r' =
      ({ (cmd_dispatch f env (f.cmd_line.takeWhile (· ≠ '\x00'))).1 with cmd_line := [] },
        (cmd_dispatch f env (f.cmd_line.takeWhile (· ≠ '\x00'))).2) := by
  unfold cmd_channel_feed
  rw [if_pos (Or.inl rfl), if_pos (List.length_pos_of_ne_nil h)]

theorem feed_inv {f : Firmware} (h : Firmware.Inv f) (env : Env) (c : Char) :
    Firmware.Inv (cmd_channel_feed f env c).1 := by
  unfold cmd_channel_feed
  split
  · split
    · have hd := h.dispatch env (f.cmd_line.takeWhile (· ≠ '\x00'))
      exact ⟨hd.board, hd.rtt⟩
    · exact h
  · split
    · exact ⟨h.board, h.rtt⟩
    · exact h

/-- The last character of the command makes the board execute it. -/
theorem Inv.executes {cu : Culture} {s : Link} (h : s.Inv cu) {n : Nat} {command : Text}
    {resps : List ProtocolResponse} (hb : s.Busy cu n command [] resps) (hpanel : s.toPanel = [])
    (hboard : s.toBoard = [(n, '\r')]) (hline : s.firmware.cmd_line = (command.map asciiChar).take (CMD_LINE_MAX - 1))
    (env : Env) : (s.sciReceive env).Inv cu := by
  have hne : s.firmware.cmd_line ≠ [] := by
    have hcmd : command ≠ [] := hb.isCommand.1
    rw [hline]
    simp [hcmd]
  have hview : s.firmware.cmd_line.takeWhile (· ≠ '\x00') = boardLine command := by rw [hline, boardLine]
  have hat : lineAt s.firmware '\r' = some (boardLine command) := by
    unfold lineAt
    rw [if_pos ⟨Or.inl rfl, List.length_pos_of_ne_nil hne⟩, hview]
  obtain ⟨a, ha, hname, hout⟩ := dispatch_answer h.firmware env (boardLine command)
  have hinv := feed_inv h.firmware env '\r'
  unfold Link.sciReceive
  rw [hboard]
  dsimp only
  rw [if_neg (by decide), hat]
  rw [feed_enter _ env hne, hview] at hinv ⊢
  dsimp only
  refine ⟨hinv, fun r hr => (h.own r hr).mono (fun x hx => List.mem_append_left _ hx) (List.prefix_refl _), h.ids,
    Or.inr ⟨n, command, [], resps, ⟨hb.length, hb.last, hb.isCommand, hb.panel, hb.pending, hb.returned, Or.inr ?_⟩⟩⟩
  refine ⟨rfl, rfl, a, _, ha, ?_, List.mem_append_right _ (List.mem_singleton_self _), rfl, rfl, hout, hname.symm⟩
  show a.print = s.toPanel ++ _
  rw [hpanel, hout]
  rfl

theorem Inv.stores {cu : Culture} {s : Link} (h : s.Inv cu) {n : Nat} {command : Text}
    {resps : List ProtocolResponse} (hb : s.Busy cu n command [] resps) (hpanel : s.toPanel = []) {front tail : Text}
    {d : Char} (hcut : command.map asciiChar = front ++ d :: tail)
    (hboard : s.toBoard = (n, d) :: (tail ++ ['\r']).map (n, ·))
    (hline : s.firmware.cmd_line = front.take (CMD_LINE_MAX - 1)) (env : Env) : (s.sciReceive env).Inv cu := by
  obtain ⟨hr, hn, hq⟩ := command_char hb.isCommand (c := d) (by rw [hcut]; simp)
  have hat : lineAt s.firmware d = none := by
    unfold lineAt
    rw [if_neg (by simp [hr, hn])]
  unfold Link.sciReceive
  rw [hboard]
  dsimp only
  rw [if_neg hq, hat, feed_stored s.firmware env hr hn hline]
  dsimp only
  simp only [Option.map_none, Option.toList_none, List.append_nil]
  refine ⟨⟨h.firmware.board, h.firmware.rtt⟩, h.own, h.ids,
    Or.inr ⟨n, command, [], resps, ⟨hb.length, hb.last, hb.isCommand, hb.panel, hb.pending, hb.returned,
      Or.inl ⟨⟨hpanel, front ++ [d], tail, ?_, rfl, rfl⟩, rfl⟩⟩⟩⟩
  rw [hcut, List.append_cons]

theorem Inv.sciReceive {cu : Culture} {s : Link} (h : s.Inv cu) (env : Env) : (s.sciReceive env).Inv cu := by
  cases hto : s.toBoard with
  | nil =>
    unfold Link.sciReceive
    rw [hto]
    exact h
  | cons x rest =>
    have hne : s.toBoard ≠ [] := by
      rw [hto]
      exact List.cons_ne_nil _ _
    rcases h.stage with ⟨-, -, hq, -⟩ | ⟨n, command, recv, resps, hb⟩
    · exact absurd hq.1 hne
    rcases hb.phase with ⟨⟨hpanel, front, tail, hcut, hboard, hline⟩, rfl⟩ | ⟨hnil, -⟩
    · cases tail with
      | nil =>
        rw [List.append_nil] at hcut
        exact h.executes hb hpanel hboard (hcut ▸ hline) env
      | cons d tail => exact h.stores hb hpanel hcut hboard hline env
    · exact absurd hnil hne

theorem interrupt_cmd_line (f : Firmware) (i : Interrupt) : (f.interrupt i).cmd_line = f.cmd_line := by
  cases i <;> rfl

theorem Inv.interrupt {cu : Culture} {s : Link} (h : s.Inv cu) (i : Interrupt) :
    Inv cu { s with firmware := s.firmware.interrupt i } := by
  have hline := interrupt_cmd_line s.firmware i
  refine ⟨h.firmware.interrupt i, h.own, h.ids, ?_⟩
  rcases h.stage with ⟨hsent, hp, ⟨hto, hcmd, hpanel⟩, hbuf⟩ | ⟨n, command, recv, resps, hb⟩
  · exact Or.inl ⟨hsent, hp, ⟨hto, hline.trans hcmd, hpanel⟩, hbuf⟩
  · refine Or.inr ⟨n, command, recv, resps, ⟨hb.length, hb.last, hb.isCommand, hb.panel, hb.pending, hb.returned, ?_⟩⟩
    rcases hb.phase with ⟨⟨hpanel, front, tail, hcut, hboard, hcmd⟩, hrecv⟩ | ⟨hto, hcmd, hrest⟩
    · exact Or.inl ⟨⟨hpanel, front, tail, hcut, hboard, hline.trans hcmd⟩, hrecv⟩
    · exact Or.inr ⟨hto, hline.trans hcmd, hrest⟩

/-! ## Runs -/

theorem inv_step (cu : Culture) (s : Link) (e : Step) (h : s.Inv cu) (ha : (carefulMachine cu).allowed s e) :
    (step cu s e).Inv cu := by
  cases e with
  | send command => exact h.send ha.2.1 ha.2.2
  | timeout => exact h.timeout
  | dataReceived => exact h.dataReceived
  | resume => exact h.resume
  | sciReceive env => exact h.sciReceive env
  | interrupt i => exact h.interrupt i

/-- In a run in which every command is sent with care, every response that is returned belongs to its command. -/
theorem own_responses (cu : Culture) (c : Board.Boot) (es : List Step)
    (h : (carefulMachine cu).Legal (init (boot c)) es) : ((machine cu).run (init (boot c)) es).OwnResponses :=
  (Machine.run_invariant (inv_step cu) (init_inv cu (boot_inv c) rfl) h).own

/-- A command that returns, one that times out, and one that is sent after the late answer has come. -/
def carefulRun : List Step :=
  [Step.send "ARPRESET".toList] ++ List.replicate 9 (Step.sciReceive sampleEnv) ++
    List.replicate 35 Step.dataReceived ++ [Step.resume] ++
    [Step.send "NETIF LIST".toList, Step.timeout, Step.resume] ++ List.replicate 11 (Step.sciReceive sampleEnv) ++
    List.replicate 88 Step.dataReceived ++ [Step.send "ARPRESET".toList]

theorem own_responses_sample :
    (carefulMachine .ordinal).Legal (init (boot (.main Lwip.ethzero true))) carefulRun ∧
    ((machine .ordinal).run (init (boot (.main Lwip.ethzero true))) carefulRun).returned.length = 1 ∧
    ((machine .ordinal).run (init (boot (.main Lwip.ethzero true))) carefulRun).OwnResponses :=
  have hlegal : (carefulMachine .ordinal).Legal (init (boot (.main Lwip.ethzero true))) carefulRun := by decide +kernel
  ⟨hlegal, by decide +kernel, own_responses _ _ _ hlegal⟩

/-- The answer to the first command comes after its timeout. -/
def lateRun : List Step :=
  [Step.send "NETIF LIST".toList, Step.timeout, Step.resume, Step.send "ARPRESET".toList] ++
    List.replicate 11 (Step.sciReceive sampleEnv) ++ List.replicate 88 Step.dataReceived ++ [Step.resume]

/-- The second command returns the answer to the first, before the board has executed it. -/
theorem late_answer_attributed :
    (machine .ordinal).Legal (init (boot (.main Lwip.ethzero true))) lateRun ∧
    ¬ ((machine .ordinal).run (init (boot (.main Lwip.ethzero true))) lateRun).OwnResponses := by
  refine ⟨by decide +kernel, fun h => ?_⟩
  have hret : ((machine .ordinal).run (init (boot (.main Lwip.ethzero true))) lateRun).returned.map (·.1) = [1] := by
    decide +kernel
  have hex : ((machine .ordinal).run (init (boot (.main Lwip.ethzero true))) lateRun).executed.map (·.id) = [0] := by
    decide +kernel
  generalize (machine .ordinal).run (init (boot (.main Lwip.ethzero true))) lateRun = s at h hret hex
  obtain ⟨r, hr, hid⟩ := List.mem_map.mp (hret ▸ List.mem_singleton_self 1)
  obtain ⟨x, hx, -, -, hxid, -⟩ := h r hr
  have hzero : x.id ∈ [0] := hex ▸ List.mem_map_of_mem hx
  rw [hxid, hid] at hzero
  exact absurd hzero (by decide)

end MultiIp.Panel.Link

import MultiIp.Board.Answers

/-!
# The serial side of the main loop

`EMAC_LwIP_Main` hands every received byte to the command channel, except the
key `q`. That key and the button on the board open the menu, which reads the
serial line itself and eats what it reads.
-/

namespace MultiIp

open Lib Board Firmware

/-- A line that `cmd_dispatch` got, and where. -/
structure Dispatch where
  firmware : Firmware
  env : Env
  line : Text

/-- What a dispatched line made the board print. -/
def Dispatch.out (d : Dispatch) : Text := (cmd_dispatch d.firmware d.env d.line).2

structure Console where
  firmware : Firmware
  terminal_input_flag : Bool
  /-- What the host sent and the board has not read yet. -/
  rx : Text
  /-- What the command channel was fed, dispatched and printed, for the record. -/
  fed : Text
  dispatched : List Dispatch
  printed : Text

namespace Console

def init (f : Firmware) (rx : Text) : Console where
  firmware := f
  terminal_input_flag := false
  rx := rx
  fed := []
  dispatched := []
  printed := []

/-- `cmd_channel_feed` ends a line at either of these. -/
def isEnd (c : Char) : Bool := c == '\r' || c == '\n'

def dispatchOf (f : Firmware) (env : Env) (c : Char) : List Dispatch :=
  if isEnd c = true ∧ f.cmd_line.length > 0 then [⟨f, env, f.cmd_line.takeWhile (· ≠ '\x00')⟩] else []

def feed (s : Console) (env : Env) (c : Char) : Console :=
  let r := cmd_channel_feed s.firmware env c
  { s with
    firmware := r.1
    fed := s.fed ++ [c]
    dispatched := s.dispatched ++ dispatchOf s.firmware env c
    printed := s.printed ++ r.2 }

inductive Step
  /-- The main loop reads a byte, if there is one. -/
  | key (env : Env)
  /-- `read_terminal_line` reads this many bytes before it returns. -/
  | menu (eaten : Nat)
  | button
  | call (a : Action)
  | interrupt (i : Interrupt)

def step (s : Console) : Step → Console
  | .key env =>
    match s.rx with
    | [] => s
    | c :: rx =>
      if c = 'q' then { s with rx := rx, terminal_input_flag := true } else { s with rx := rx }.feed env c
  | .menu eaten => { s with rx := s.rx.drop eaten, terminal_input_flag := false }
  | .button => { s with terminal_input_flag := true }
  | .call a => { s with firmware := s.firmware.setBoard (Board.step s.firmware.board a) }
  | .interrupt i => { s with firmware := s.firmware.interrupt i }

/-- The flag is looked at after every byte. A press that comes after the look and before the next byte
is one that comes after that byte. -/
def allowed (s : Console) : Step → Prop
  | .key _ => s.terminal_input_flag = false
  | .menu _ => s.terminal_input_flag = true
  | .call a => Board.allowed s.firmware.board a
  | _ => True

def machine : Lib.Machine Console Step where
  step := step
  allowed := allowed

instance (s : Console) (e : Step) : Decidable (machine.allowed s e) :=
  match e with
  | .key _ => inferInstanceAs (Decidable (s.terminal_input_flag = false))
  | .menu _ => inferInstanceAs (Decidable (s.terminal_input_flag = true))
  | .call a => inferInstanceAs (Decidable (∀ n ∈ a.listed, n ∈ s.firmware.board.net.list))
  | .button | .interrupt _ => isTrue trivial

/-! ## Lines -/

/-- The lines of a byte stream that are not empty. What follows the last line end is not a line. -/
def commandLines (s : Text) : List Text := (s.splitOnP isEnd).dropLast.filter (· ≠ [])

/-- What is left of a line in the buffer, read as a C string. -/
def cutLine (line : Text) : Text := (line.take (CMD_LINE_MAX - 1)).takeWhile (· ≠ '\x00')

/-- After the bytes `front`, which end a line, the pieces are complete. -/
def Complete (front : Text) (pieces : List Text) : Prop :=
  ∀ t, (front ++ t).splitOnP isEnd = pieces ++ t.splitOnP isEnd

theorem Complete.nil : Complete [] [] := fun _ => rfl

theorem Complete.line {front : Text} {pieces : List Text} (h : Complete front pieces) {line : Text}
    (hline : ∀ c ∈ line, isEnd c = false) {c : Char} (hc : isEnd c = true) :
    Complete (front ++ line ++ [c]) (pieces ++ [line]) := by
  intro t
  rw [List.append_assoc, List.append_assoc, List.singleton_append, h,
    List.splitOnP_append_cons_of_forall_mem hline c hc, List.append_assoc, List.singleton_append]

theorem Complete.commandLines {front : Text} {pieces : List Text} (h : Complete front pieces) {line : Text}
    (hline : ∀ c ∈ line, isEnd c = false) : commandLines (front ++ line) = pieces.filter (· ≠ []) := by
  rw [Console.commandLines, h, List.splitOnP_eq_singleton hline, List.dropLast_concat]

/-- The channel has dispatched the lines of what it was fed, and the buffer holds the part of the last one. -/
structure Buffered (s : Console) (front : Text) (pieces : List Text) (line : Text) : Prop where
  fed : s.fed = front ++ line
  complete : Complete front pieces
  clean : ∀ c ∈ line, isEnd c = false
  cmd_line : s.firmware.cmd_line = line.take (CMD_LINE_MAX - 1)
  dispatched : s.dispatched.map Dispatch.line = (pieces.filter (· ≠ [])).map cutLine

theorem feed_end {f : Firmware} (env : Env) {c : Char} (hc : isEnd c = true) (hne : f.cmd_line ≠ []) :
    cmd_channel_feed f env c =
      ({ (cmd_dispatch f env (f.cmd_line.takeWhile (· ≠ '\x00'))).1 with cmd_line := [] },
        (cmd_dispatch f env (f.cmd_line.takeWhile (· ≠ '\x00'))).2) := by
  simp only [isEnd, Bool.or_eq_true, beq_iff_eq] at hc
  unfold cmd_channel_feed
  rw [if_pos hc, if_pos (List.length_pos_of_ne_nil hne)]

theorem feed_empty {f : Firmware} (env : Env) {c : Char} (hc : isEnd c = true) (hnil : f.cmd_line = []) :
    cmd_channel_feed f env c = (f, []) := by
  simp only [isEnd, Bool.or_eq_true, beq_iff_eq] at hc
  unfold cmd_channel_feed
  rw [if_pos hc, if_neg (by simp [hnil])]

theorem feed_byte {f : Firmware} (env : Env) {c : Char} (hc : isEnd c = false) {line : Text}
    (hline : f.cmd_line = line.take (CMD_LINE_MAX - 1)) :
    cmd_channel_feed f env c = ({ f with cmd_line := (line ++ [c]).take (CMD_LINE_MAX - 1) }, []) := by
  simp only [isEnd, Bool.or_eq_false_iff, beq_eq_false_iff_ne] at hc
  unfold cmd_channel_feed
  rw [if_neg (by simp [hc])]
  have hlen : f.cmd_line.length = min (CMD_LINE_MAX - 1) line.length := by rw [hline, List.length_take]
  by_cases hroom : line.length < CMD_LINE_MAX - 1
  · rw [if_pos (by omega), hline, List.take_of_length_le (by omega),
      List.take_of_length_le (by rw [List.length_append, List.length_singleton]; omega)]
  · rw [if_neg (by omega), List.take_append_of_le_length (by omega), ← hline]

theorem Buffered.feed {s : Console} {front line : Text} {pieces : List Text} (h : s.Buffered front pieces line)
    (env : Env) (c : Char) : ∃ front' pieces' line', (s.feed env c).Buffered front' pieces' line' := by
  cases hc : isEnd c with
  | false =>
    have hnone : dispatchOf s.firmware env c = [] := by simp [dispatchOf, hc]
    refine ⟨front, pieces, line ++ [c], ⟨?_, h.complete, ?_, ?_, ?_⟩⟩
    · show s.fed ++ [c] = _
      rw [h.fed, List.append_assoc]
    · intro d hd
      rcases List.mem_append.mp hd with hd | hd
      · exact h.clean d hd
      · rw [List.mem_singleton.mp hd, hc]
    · show (cmd_channel_feed s.firmware env c).1.cmd_line = _
      rw [feed_byte env hc h.cmd_line]
    · show (s.dispatched ++ dispatchOf s.firmware env c).map Dispatch.line = _
      rw [hnone, List.append_nil, h.dispatched]
  | true =>
    refine ⟨front ++ line ++ [c], pieces ++ [line], [], ⟨?_, h.complete.line h.clean hc, by simp, ?_, ?_⟩⟩
    · show s.fed ++ [c] = _
      rw [h.fed, List.append_nil]
    · show (cmd_channel_feed s.firmware env c).1.cmd_line = _
      by_cases hnil : s.firmware.cmd_line = []
      · rw [feed_empty env hc hnil, hnil]
        rfl
      · rw [feed_end env hc hnil]
        rfl
    · show (s.dispatched ++ dispatchOf s.firmware env c).map Dispatch.line = _
      rw [List.map_append, h.dispatched, List.filter_append, List.map_append]
      congr 1
      by_cases hnil : line = []
      · simp [dispatchOf, h.cmd_line, hnil]
      · simp [dispatchOf, h.cmd_line, hnil, hc, cutLine, List.length_pos_iff]

/-! ## Runs -/

structure Inv (s : Console) : Prop where
  firmware : Firmware.Inv s.firmware
  buffered : ∃ front pieces line, s.Buffered front pieces line
  dispatches : ∀ d ∈ s.dispatched, Firmware.Inv d.firmware
  printed : s.printed = s.dispatched.flatMap Dispatch.out

theorem init_inv {f : Firmware} (h : Firmware.Inv f) (hline : f.cmd_line = []) (rx : Text) : (init f rx).Inv where
  firmware := h
  buffered := ⟨[], [], [], ⟨rfl, .nil, by simp, hline, rfl⟩⟩
  dispatches _ hd := by cases hd
  printed := rfl

theorem channel_inv {f : Firmware} (h : Firmware.Inv f) (env : Env) (c : Char) :
    Firmware.Inv (cmd_channel_feed f env c).1 := by
  unfold cmd_channel_feed
  split
  · split
    · have hd := h.dispatch env (f.cmd_line.takeWhile (· ≠ '\x00'))
      exact ⟨hd.board, hd.rtt⟩
    · exact h
  · split
    · exact ⟨h.board, h.rtt⟩
    · exact h

theorem channel_out (f : Firmware) (env : Env) (c : Char) :
    (cmd_channel_feed f env c).2 = (dispatchOf f env c).flatMap Dispatch.out := by
  cases hc : isEnd c with
  | false =>
    have hnone : dispatchOf f env c = [] := by simp [dispatchOf, hc]
    rw [hnone]
    simp only [isEnd, Bool.or_eq_false_iff, beq_eq_false_iff_ne] at hc
    unfold cmd_channel_feed
    rw [if_neg (by simp [hc])]
    split <;> rfl
  | true =>
    by_cases hnil : f.cmd_line = []
    · rw [feed_empty env hc hnil]
      simp [dispatchOf, hnil]
    · rw [feed_end env hc hnil]
      simp [dispatchOf, hnil, hc, List.length_pos_iff, Dispatch.out]

theorem Inv.feed {s : Console} (h : s.Inv) (env : Env) (c : Char) : (s.feed env c).Inv := by
  obtain ⟨front, pieces, line, hb⟩ := h.buffered
  refine ⟨channel_inv h.firmware env c, hb.feed env c, ?_, ?_⟩
  · intro d hd
    rcases List.mem_append.mp hd with hd | hd
    · exact h.dispatches d hd
    · unfold dispatchOf at hd
      split at hd
      · rw [List.mem_singleton.mp hd]
        exact h.firmware
      · cases hd
  · show s.printed ++ (cmd_channel_feed s.firmware env c).2 = (s.dispatched ++ _).flatMap Dispatch.out
    rw [h.printed, channel_out, List.flatMap_append]

theorem Inv.quiet {s s' : Console} (h : s.Inv) (hf : Firmware.Inv s'.firmware)
    (hline : s'.firmware.cmd_line = s.firmware.cmd_line) (hfed : s'.fed = s.fed)
    (hd : s'.dispatched = s.dispatched) (hp : s'.printed = s.printed) : s'.Inv := by
  obtain ⟨front, pieces, line, hb⟩ := h.buffered
  refine ⟨hf, ⟨front, pieces, line, ⟨hfed.trans hb.fed, hb.complete, hb.clean, hline.trans hb.cmd_line, ?_⟩⟩, ?_, ?_⟩
  · rw [hd, hb.dispatched]
  · rw [hd]
    exact h.dispatches
  · rw [hp, hd, h.printed]

theorem inv_step (s : Console) (e : Step) (h : s.Inv) (ha : s.allowed e) : (s.step e).Inv := by
  cases e with
  | key env =>
    unfold Console.step
    dsimp only
    split
    · exact h
    · split
      · exact h.quiet h.firmware rfl rfl rfl rfl
      · rename_i c rx _ _
        exact Inv.feed (s := { s with rx := rx }) (h.quiet h.firmware rfl rfl rfl rfl) env c
  | menu eaten => exact h.quiet h.firmware rfl rfl rfl rfl
  | button => exact h.quiet h.firmware rfl rfl rfl rfl
  | call a => exact h.quiet (h.firmware.call a ha) rfl rfl rfl rfl
  | interrupt i =>
    refine h.quiet (h.firmware.interrupt i) ?_ rfl rfl rfl
    cases i <;> rfl

theorem run_inv (c : Boot) (rx : Text) {es : List Step} (h : machine.Legal (init (boot c) rx) es) :
    (machine.run (init (boot c) rx) es).Inv :=
  Machine.run_invariant inv_step (init_inv (boot_inv c) rfl rx) h

/-- In every run the dispatched lines are the lines that the channel was fed, as the buffer holds them. -/
theorem Inv.lines {s : Console} (h : s.Inv) : s.dispatched.map Dispatch.line = (commandLines s.fed).map cutLine := by
  obtain ⟨front, pieces, line, hb⟩ := h.buffered
  rw [hb.fed, hb.complete.commandLines hb.clean, hb.dispatched]

end Console

end MultiIp

import Mathlib.Data.List.TakeWhile
import MultiIp.Board.Console

/-!
# Lines and the menu

The line buffer survives the menu. What is dispatched are whole lines of the
host if the menu is opened only between two lines and eats only whole lines;
otherwise what was received before the menu is joined with what comes after it.
-/

namespace MultiIp.Console

open Lib Board Firmware

/-- What the host sends. -/
def sends (ls : List Text) : Text := ls.flatMap (· ++ ['\r'])

/-- A line without a line end and without the key that opens the menu. -/
def IsHostLine (l : Text) : Prop := ∀ c ∈ l, isEnd c = false ∧ c ≠ 'q'

/-- Every line that was dispatched is a complete line of the host. -/
def WholeLines (ls : List Text) (s : Console) : Prop :=
  ∀ d ∈ s.dispatched, d.line ∈ ls ∧ d.line.length ≤ CMD_LINE_MAX - 1

/-- The line fits the buffer and is a C string. -/
def Fits (l : Text) : Prop := l.length ≤ CMD_LINE_MAX - 1 ∧ '\x00' ∉ l

/-- The menu is opened between two lines, and eats whole lines. -/
def betweenLines (s : Console) : Step → Prop
  | .menu eaten => s.firmware.cmd_line = [] ∧
      (s.rx.take eaten = [] ∨ (s.rx.take eaten).getLast? = some '\r' ∨ s.rx.drop eaten = [])
  | _ => True

def betweenMachine : Lib.Machine Console Step where
  step := step
  allowed s e := s.allowed e ∧ s.betweenLines e

instance (s : Console) (e : Step) : Decidable (betweenMachine.allowed s e) :=
  match e with
  | .key _ => inferInstanceAs (Decidable (s.terminal_input_flag = false ∧ True))
  | .menu eaten => inferInstanceAs (Decidable (s.terminal_input_flag = true ∧ s.firmware.cmd_line = [] ∧
      (s.rx.take eaten = [] ∨ (s.rx.take eaten).getLast? = some '\r' ∨ s.rx.drop eaten = [])))
  | .call a => inferInstanceAs (Decidable ((∀ n ∈ a.listed, n ∈ s.firmware.board.net.list) ∧ True))
  | .button | .interrupt _ => isTrue ⟨trivial, trivial⟩

/-! ## Whole lines -/

@[simp] theorem sends_cons (l : Text) (ls : List Text) : sends (l :: ls) = l ++ '\r' :: sends ls := by
  simp [sends]

theorem sends_append (ls ms : List Text) : sends (ls ++ ms) = sends ls ++ sends ms := List.flatMap_append

/-- Where bytes that end a line are taken off, whole lines are left. -/
theorem drop_sends {ls : List Text} (h : ∀ l ∈ ls, '\r' ∉ l) {k : Nat}
    (hk : (sends ls).take k = [] ∨ ((sends ls).take k).getLast? = some '\r' ∨ (sends ls).drop k = []) :
    ∃ j, (sends ls).drop k = sends (ls.drop j) := by
  induction ls generalizing k with
  | nil => exact ⟨0, by simp [sends]⟩
  | cons l ls ih =>
    have hl : '\r' ∉ l := h l List.mem_cons_self
    by_cases hin : k ≤ l.length
    · -- The cut lies in the first line, so nothing was taken off.
      have htake : (sends (l :: ls)).take k = l.take k := by
        rw [sends_cons, List.take_append_of_le_length hin]
      rcases hk with hk | hk | hk
      · refine ⟨0, ?_⟩
        have hsplit := List.take_append_drop k (sends (l :: ls))
        rw [hk, List.nil_append] at hsplit
        rw [hsplit, List.drop_zero]
      · rw [htake] at hk
        exact absurd (List.mem_of_mem_take (List.mem_of_getLast? hk)) hl
      · rw [List.drop_eq_nil_iff, sends_cons, List.length_append, List.length_cons] at hk
        omega
    · obtain ⟨m, rfl⟩ : ∃ m, k = l.length + (m + 1) := ⟨k - l.length - 1, by omega⟩
      have hdrop : (sends (l :: ls)).drop (l.length + (m + 1)) = (sends ls).drop m := by
        rw [sends_cons, List.drop_length_add_append, List.drop_succ_cons]
      have htake : (sends (l :: ls)).take (l.length + (m + 1)) = l ++ '\r' :: (sends ls).take m := by
        rw [sends_cons, List.take_length_add_append, List.take_succ_cons]
      rw [hdrop, htake] at hk
      obtain ⟨j, hj⟩ := ih (fun l hl => h l (List.mem_cons_of_mem _ hl)) (k := m) (by
        rcases hk with hk | hk | hk
        · simp at hk
        · cases ht : (sends ls).take m with
          | nil => exact Or.inl rfl
          | cons c t =>
            refine Or.inr (Or.inl ?_)
            rw [ht] at hk
            simpa [List.getLast?_cons] using hk
        · exact Or.inr (Or.inr hk))
      exact ⟨j + 1, by rw [hdrop, hj, List.drop_succ_cons]⟩

/-- What was fed are whole lines and the part `cur` of one, and what is left to read is the rest of that
line and further lines, or nothing. -/
def AtLine (ls : List Text) (s : Console) : Prop :=
  ∃ ks cur, s.fed = sends ks ++ cur ∧
    ((∃ t ms, s.rx = t ++ '\r' :: sends ms ∧ (ks ++ (cur ++ t) :: ms).Sublist ls) ∨
      (s.rx = [] ∧ cur = [] ∧ ks.Sublist ls))

theorem AtLine.of_rest {ls : List Text} (ks ms : List Text) {s : Console} (hfed : s.fed = sends ks) (hrx : s.rx = sends ms)
    (hsub : (ks ++ ms).Sublist ls) : AtLine ls s := by
  refine ⟨ks, [], by rw [hfed, List.append_nil], ?_⟩
  cases ms with
  | nil => exact Or.inr ⟨hrx, rfl, by simpa using hsub⟩
  | cons m ms => exact Or.inl ⟨m, ms, by rw [hrx, sends_cons], hsub⟩

theorem AtLine.key {ls : List Text} (hls : ∀ l ∈ ls, IsHostLine l) {s : Console} (h : AtLine ls s) (env : Env) :
    AtLine ls (s.step (.key env)) := by
  obtain ⟨ks, cur, hfed, ⟨t, ms, hrx, hsub⟩ | ⟨hrx, hcur, hsub⟩⟩ := h
  · have hmem : cur ++ t ∈ ls := hsub.subset (by simp)
    cases t with
    | nil =>
      -- The line is complete.
      rw [List.nil_append] at hrx
      have hstep : s.step (.key env) = { s with rx := sends ms }.feed env '\r' := by
        simp only [step, hrx]
        rfl
      rw [hstep]
      refine AtLine.of_rest (ks ++ [cur]) ms ?_ rfl (by simpa using hsub)
      show s.fed ++ ['\r'] = _
      rw [hfed, sends_append, List.append_assoc, sends_cons]
      rfl
    | cons c t =>
      obtain ⟨-, hq⟩ := hls _ hmem c (by simp)
      have hstep : s.step (.key env) = { s with rx := t ++ '\r' :: sends ms }.feed env c := by
        simp only [step, hrx, List.cons_append]
        rw [if_neg hq]
      rw [hstep]
      refine ⟨ks, cur ++ [c], ?_, Or.inl ⟨t, ms, rfl, by simpa using hsub⟩⟩
      show s.fed ++ [c] = _
      rw [hfed, List.append_assoc]
  · have hstep : s.step (.key env) = s := by simp only [step, hrx]
    rw [hstep]
    exact ⟨ks, cur, hfed, Or.inr ⟨hrx, hcur, hsub⟩⟩

theorem complete_sends {ks : List Text} (h : ∀ l ∈ ks, IsHostLine l) : Complete (sends ks) ks := by
  induction ks with
  | nil => exact .nil
  | cons k ks ih =>
    intro t
    rw [sends_cons, List.append_assoc, List.cons_append,
      List.splitOnP_append_cons_of_forall_mem (fun c hc => (h k List.mem_cons_self c hc).1) '\r' rfl,
      ih (fun l hl => h l (List.mem_cons_of_mem _ hl))]
    rfl

/-- The parts of what was fed are lines of the host. -/
theorem AtLine.parts {ls : List Text} (hls : ∀ l ∈ ls, IsHostLine l) {s : Console} (h : AtLine ls s) :
    ∃ ks cur, s.fed = sends ks ++ cur ∧ Complete (sends ks) ks ∧ (∀ c ∈ cur, isEnd c = false) ∧ ks.Sublist ls ∧
      (cur = [] → ∃ ms, s.rx = sends ms ∧ (ks ++ ms).Sublist ls) := by
  obtain ⟨ks, cur, hfed, ⟨t, ms, hrx, hsub⟩ | ⟨hrx, rfl, hsub⟩⟩ := h
  · have hks : ks.Sublist ls := (List.sublist_append_left ks _).trans hsub
    have hmem : cur ++ t ∈ ls := hsub.subset (by simp)
    refine ⟨ks, cur, hfed, complete_sends fun l hl => hls l (hks.subset hl), ?_, hks, ?_⟩
    · exact fun c hc => (hls _ hmem c (List.mem_append_left _ hc)).1
    · rintro rfl
      exact ⟨t :: ms, by rw [hrx, sends_cons], hsub⟩
  · refine ⟨ks, [], hfed, complete_sends fun l hl => hls l (hsub.subset hl), by simp, hsub, fun _ => ?_⟩
    exact ⟨[], hrx, by simpa using hsub⟩

theorem AtLine.menu {ls : List Text} (hls : ∀ l ∈ ls, IsHostLine l) {s : Console} (hinv : s.Inv) (h : AtLine ls s)
    {eaten : Nat} (hb : s.betweenLines (.menu eaten)) : AtLine ls (s.step (.menu eaten)) := by
  obtain ⟨ks, cur, hfed, hcomplete, hclean, -, hrest⟩ := h.parts hls
  obtain ⟨front, pieces, line, hbuf⟩ := hinv.buffered
  -- The buffer is empty, so what was fed ends with a line end.
  have hline : line = [] := by
    have hcmd := hbuf.cmd_line
    rw [hb.1] at hcmd
    exact (List.take_eq_nil_iff.mp hcmd.symm).resolve_left (by decide)
  have hcur : cur = [] := by
    have hsplit : pieces ++ [line] = ks ++ [cur] := by
      rw [← List.splitOnP_eq_singleton hclean, ← hcomplete, ← hfed, hbuf.fed, hbuf.complete,
        List.splitOnP_eq_singleton hbuf.clean]
    rw [hline] at hsplit
    exact (List.singleton_inj.mp (List.append_inj_right' hsplit rfl)).symm
  obtain ⟨ms, hrx, hsub⟩ := hrest hcur
  have hms : ∀ l ∈ ms, '\r' ∉ l := by
    intro l hl hr
    have hend := (hls l (hsub.subset (List.mem_append_right _ hl)) '\r' hr).1
    exact absurd hend (by decide)
  have hcut := hb.2
  rw [hrx] at hcut
  obtain ⟨j, hj⟩ := drop_sends hms hcut
  refine AtLine.of_rest ks (ms.drop j) ?_ ?_ ?_
  · show s.fed = _
    rw [hfed, hcur, List.append_nil]
  · show s.rx.drop eaten = _
    rw [hrx, hj]
  · exact ((List.Sublist.refl ks).append (List.drop_sublist j ms)).trans hsub

theorem AtLine.step {ls : List Text} (hls : ∀ l ∈ ls, IsHostLine l) {s : Console} (hinv : s.Inv) (h : AtLine ls s)
    {e : Step} (hb : s.betweenLines e) : AtLine ls (s.step e) := by
  cases e with
  | key env => exact h.key hls env
  | menu eaten => exact h.menu hls hinv hb
  | button => exact h
  | call a => exact h
  | interrupt i => exact h

theorem cutLine_of_fits {l : Text} (h : Fits l) : cutLine l = l := by
  have hall : ∀ c ∈ l, decide (c ≠ '\x00') = true := by
    intro c hc
    rw [decide_eq_true_eq]
    rintro rfl
    exact h.2 hc
  rw [cutLine, List.take_of_length_le h.1]
  exact List.takeWhile_eq_self_iff.mpr hall

/-- If the menu is opened only between lines, only whole lines are dispatched. -/
theorem whole_lines_between (c : Boot) (ls : List Text) (hls : ∀ l ∈ ls, IsHostLine l) (hfits : ∀ l ∈ ls, Fits l)
    (es : List Step) (h : betweenMachine.Legal (init (boot c) (sends ls)) es) :
    WholeLines ls (machine.run (init (boot c) (sends ls)) es) := by
  have hstep : ∀ s e, (Inv s ∧ AtLine ls s) → betweenMachine.allowed s e → Inv (s.step e) ∧ AtLine ls (s.step e) :=
    fun s e hs ha => ⟨inv_step s e hs.1 ha.1, hs.2.step hls hs.1 ha.2⟩
  have hstart : AtLine ls (init (boot c) (sends ls)) := AtLine.of_rest [] ls rfl rfl (List.Sublist.refl ls)
  obtain ⟨hinv, hat⟩ := Machine.run_invariant hstep ⟨init_inv (boot_inv c) rfl _, hstart⟩ h
  obtain ⟨ks, cur, hfed, hcomplete, hclean, hsub, -⟩ := hat.parts hls
  intro d hd
  have hmem : d.line ∈ (ks.filter (· ≠ [])).map cutLine := by
    rw [← hcomplete.commandLines hclean, ← hfed]
    exact hinv.lines ▸ List.mem_map_of_mem hd
  obtain ⟨l, hl, heq⟩ := List.mem_map.mp hmem
  have hl' : l ∈ ls := hsub.subset (List.mem_of_mem_filter hl)
  rw [← heq, cutLine_of_fits (hfits l hl')]
  exact ⟨hl', (hfits l hl').1⟩

/-- The menu is opened after the first line and eats the second. -/
def betweenSteps : List Step := List.replicate 9 (.key sampleEnv) ++ [.button, .menu 11] ++ List.replicate 9 (.key sampleEnv)

theorem whole_lines_between_sample :
    WholeLines ["ARPRESET".toList, "NETIF LIST".toList, "ARPRESET".toList] (machine.run (init (boot (.main Lwip.ethzero true))
      (sends ["ARPRESET".toList, "NETIF LIST".toList, "ARPRESET".toList])) betweenSteps) := by
  refine whole_lines_between _ _ ?_ ?_ _ (by decide +kernel)
  · have hall : (["ARPRESET".toList, "NETIF LIST".toList, "ARPRESET".toList].all
        (fun l => l.all (fun c => !isEnd c && c != 'q'))) = true := by decide
    intro l hl c hc
    simpa using List.all_eq_true.mp (List.all_eq_true.mp hall l hl) c hc
  · intro l hl
    simp only [List.mem_cons, List.not_mem_nil, or_false] at hl
    rcases hl with rfl | rfl | rfl <;> exact ⟨by decide, by decide⟩

/-- The menu is opened in the first line and eats up to the arguments of the second. -/
def joinedSteps : List Step := List.replicate 10 (.key sampleEnv) ++ [.button, .menu 12] ++ List.replicate 7 (.key sampleEnv)

/-- The board dispatches `NETIF DEL 1 5000`, which the host never sent. -/
theorem fragments_joined :
    machine.Legal (init (boot (.main Lwip.ethzero true)) (sends ["NETIF DEL 9".toList, "SOCK OPEN 1 5000".toList])) joinedSteps ∧
    ¬ WholeLines ["NETIF DEL 9".toList, "SOCK OPEN 1 5000".toList] (machine.run (init (boot (.main Lwip.ethzero true))
      (sends ["NETIF DEL 9".toList, "SOCK OPEN 1 5000".toList])) joinedSteps) := by
  refine ⟨by decide +kernel, fun h => ?_⟩
  have hlines : (machine.run (init (boot (.main Lwip.ethzero true))
      (sends ["NETIF DEL 9".toList, "SOCK OPEN 1 5000".toList])) joinedSteps).dispatched.map Dispatch.line =
        ["NETIF DEL 1 5000".toList] := by decide +kernel
  obtain ⟨d, hd, hline⟩ := List.mem_map.mp (hlines ▸ List.mem_singleton_self _)
  have hmem := (h d hd).1
  rw [hline] at hmem
  exact absurd hmem (by decide)

end MultiIp.Console

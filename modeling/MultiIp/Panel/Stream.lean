import MultiIp.Panel.SerialRules

/-!
# The stream of received characters

What the panel makes of the stream does not depend on how it was cut into
chunks, and pieces of the stream that the panel ignores can stand anywhere
between two lines.
-/

namespace MultiIp.Panel

open Lib Wire

section Stream

variable (cu : Culture)

theorem received_append (p : Text × Handed) (s t : Text) :
    portDataReceived cu p (s ++ t) = portDataReceived cu (portDataReceived cu p s) t := by
  simp only [portDataReceived, List.map_append, List.foldl_append]

theorem received_chunks (chunks : List Text) (p : Text × Handed) :
    chunks.foldl (portDataReceived cu) p = portDataReceived cu p chunks.flatten := by
  induction chunks generalizing p with
  | nil => rfl
  | cons s chunks ih => rw [List.foldl_cons, ih, List.flatten_cons, received_append]

theorem asciiChar_eq_lf {c : Char} : asciiChar c = '\n' ↔ c = '\n' := by
  unfold asciiChar
  split
  · rfl
  · rename_i h
    constructor
    · intro hc
      exact absurd hc (by decide)
    · rintro rfl
      exact absurd (by decide) h

theorem lf_not_mem_map {l : Text} (h : '\n' ∉ l) : '\n' ∉ l.map asciiChar := by
  intro hm
  obtain ⟨c, hc, heq⟩ := List.mem_map.mp hm
  exact h (asciiChar_eq_lf.mp heq ▸ hc)

theorem map_asciiChar {s : Text} (h : ∀ c ∈ s, isAscii c = true) : s.map asciiChar = s := by
  refine (List.map_congr_left fun c hc => ?_).trans (List.map_id s)
  rw [asciiChar, if_pos (h c hc)]
  rfl

theorem received_line {l : Text} (h : '\n' ∉ l) (st : Handed) :
    portDataReceived cu ([], st) (l ++ ['\n']) = ([], handLine cu st (l.map asciiChar)) := by
  have hlf : [('\n' : Char)].map asciiChar = ['\n'] := rfl
  rw [portDataReceived, List.map_append, hlf, feed_line _ _ _ _ (lf_not_mem_map h)]
  rfl

/-- After a line feed nothing is left in the buffer. -/
theorem received_whole (p : Text × Handed) (s : Text) : (portDataReceived cu p (s ++ ['\n'])).1 = [] := by
  rw [received_append]
  rfl

theorem handed_prefix (s : Text) (p : Text × Handed) : p.2.2 <+: (portDataReceived cu p s).2.2 := by
  induction s generalizing p with
  | nil => exact List.prefix_refl _
  | cons c s ih =>
    have hcut : portDataReceived cu p (c :: s) = portDataReceived cu (portDataReceived cu p [c]) s :=
      received_append cu p [c] s
    rw [hcut]
    refine List.IsPrefix.trans ?_ (ih _)
    show p.2.2 <+: (feedChar (handLine cu) p (asciiChar c)).2.2
    unfold feedChar
    split
    · exact List.prefix_append _ _
    · exact List.prefix_refl _

/-- Pieces that the panel ignores make no difference between lines. -/
theorem received_inserted {E : Text → Prop} (hE : ∀ e, E e → ∀ st, portDataReceived cu ([], st) e = ([], st))
    {ps qs : List Text} (h : Inserted E ps qs) (hps : ∀ p ∈ ps, ∃ s, p = s ++ ['\n']) (st : Handed) :
    portDataReceived cu ([], st) qs.flatten = portDataReceived cu ([], st) ps.flatten := by
  induction h generalizing st with
  | nil => rfl
  | keep p h ih =>
    obtain ⟨s, rfl⟩ := hps p List.mem_cons_self
    have hbuf : portDataReceived cu ([], st) (s ++ ['\n']) =
        ([], (portDataReceived cu ([], st) (s ++ ['\n'])).2) :=
      Prod.ext (received_whole cu _ s) rfl
    rw [List.flatten_cons, List.flatten_cons, received_append cu _ (s ++ ['\n']), received_append cu _ (s ++ ['\n']), hbuf]
    exact ih (fun q hq => hps q (List.mem_cons_of_mem _ hq)) _
  | insert he h ih =>
    rw [List.flatten_cons, received_append, hE _ he]
    exact ih hps st

/-! ## Events -/

/-- A line that starts with `#EVT `. -/
def IsEvent (t : Text) : Prop := ∃ e : Text, '\n' ∉ e ∧ t = "#EVT ".toList ++ e ++ ['\n']

theorem isAscii_asciiChar (c : Char) : isAscii (asciiChar c) = true := by
  unfold asciiChar
  split
  · assumption
  · rfl

theorem trimEndCr_append {p s : Text} (hp : p.getLast? ≠ some '\r') : trimEndCr (p ++ s) = p ++ trimEndCr s := by
  have hself : p.reverse.dropWhile (· == '\r') = p.reverse := by
    rw [← List.head?_reverse] at hp
    cases hr : p.reverse with
    | nil => rfl
    | cons c t =>
      rw [hr] at hp
      exact List.dropWhile_cons_of_neg (by simpa using hp)
  unfold trimEndCr
  rw [List.reverse_append, List.dropWhile_append]
  split
  · rename_i h
    rw [hself, List.isEmpty_iff.mp h]
    simp
  · simp

theorem mem_trimEndCr {s : Text} {c : Char} (h : c ∈ trimEndCr s) : c ∈ s := by
  unfold trimEndCr at h
  rw [List.mem_reverse] at h
  exact List.mem_reverse.mp ((List.dropWhile_sublist _).mem h)

theorem handLine_ignored {line : Text} (h : ignored cu (trimEndCr line)) (st : Handed) : handLine cu st line = st := by
  obtain ⟨h1, h2⟩ := processLine_ignored cu h st.1
  unfold handLine
  dsimp only
  rw [h1, h2]
  simp

theorem received_event {t : Text} (h : IsEvent t) (st : Handed) : portDataReceived cu ([], st) t = ([], st) := by
  obtain ⟨e, he, rfl⟩ := h
  have hmap : ("#EVT ".toList ++ e).map asciiChar = "#EVT ".toList ++ e.map asciiChar := List.map_append
  have hlf : '\n' ∉ "#EVT ".toList ++ e := by
    intro hm
    rcases List.mem_append.mp hm with hm | hm
    · exact absurd hm (by decide)
    · exact he hm
  rw [received_line cu hlf, hmap, handLine_ignored]
  rw [trimEndCr_append (by decide)]
  refine ignored_event cu fun c hc => ?_
  obtain ⟨d, -, rfl⟩ := List.mem_map.mp (mem_trimEndCr hc)
  exact isAscii_asciiChar d

/-! ## Answers -/

theorem received_lines {ls : List Text} (h : ∀ l ∈ ls, ∀ c ∈ l, isPrintable c = true) (st : Handed) :
    portDataReceived cu ([], st) (ls.flatMap (· ++ eol)) =
      ([], ls.foldl (fun st l => handLine cu st (l ++ ['\r'])) st) := by
  induction ls generalizing st with
  | nil => rfl
  | cons l ls ih =>
    have hl := h l List.mem_cons_self
    have hlf : '\n' ∉ l ++ ['\r'] := by simpa using not_mem_of_printable hl (by decide : isPrintable '\n' = false)
    have hascii : (l ++ ['\r']).map asciiChar = l ++ ['\r'] := by
      refine map_asciiChar fun c hc => ?_
      rcases List.mem_append.mp hc with hc | hc
      · exact isAscii_of_isPrintable (hl c hc)
      · rw [List.mem_singleton.mp hc]
        rfl
    have hline : portDataReceived cu ([], st) (l ++ eol) = ([], handLine cu st (l ++ ['\r'])) := by
      have hcut : l ++ eol = (l ++ ['\r']) ++ ['\n'] := by
        rw [List.append_assoc]
        rfl
      rw [hcut, received_line cu hlf, hascii]
    rw [List.flatMap_cons, received_append, hline, ih (fun m hm => h m (List.mem_cons_of_mem _ hm))]
    rfl

/-- An answer, from any collector, hands over its response and nothing else. -/
theorem received_answer {a : Answer} (h : a.Wf) (s : Collector) (rs : List ProtocolResponse) :
    (portDataReceived cu ([], (s, rs)) a.print).1 = [] ∧
      (portDataReceived cu ([], (s, rs)) a.print).2.2 = rs ++ [response a] := by
  rw [Answer.print, received_lines cu h.printable]
  exact ⟨rfl, hand_answer cu h s rs⟩

/-- Before the last character of an answer nothing is handed over. -/
theorem received_part {a : Answer} (h : a.Wf) {recv rest : Text} (hcut : a.print = recv ++ rest) (hrest : rest ≠ [])
    (col : Collector) : (portDataReceived cu ([], (col, [])) recv).2.2 = [] := by
  have hne : a.lines ≠ [] := by cases a <;> simp [Answer.lines]
  have hlines := List.dropLast_append_getLast hne
  generalize hfront : a.lines.dropLast = front at hlines
  generalize hlast : a.lines.getLast hne = last at hlines
  have hpr := h.printable
  rw [← hlines] at hpr
  have hall : a.print = front.flatMap (· ++ eol) ++ (last ++ ['\r']) ++ ['\n'] := by
    rw [Answer.print, ← hlines, List.flatMap_append, List.flatMap_singleton, List.append_assoc, List.append_assoc]
    rfl
  have hnone : (portDataReceived cu ([], (col, [])) (front.flatMap (· ++ eol) ++ (last ++ ['\r']))).2.2 = [] := by
    have hlf : '\n' ∉ last ++ ['\r'] := by
      simpa using not_mem_of_printable (hpr last (by simp)) (by decide : isPrintable '\n' = false)
    rw [received_append, received_lines cu (fun l hl => hpr l (List.mem_append_left _ hl)), portDataReceived,
      feed_partial _ _ _ _ (lf_not_mem_map hlf), ← hfront]
    exact hand_front cu h (col, [])
  have hpre : recv <+: front.flatMap (· ++ eol) ++ (last ++ ['\r']) := by
    obtain ⟨init, c, rfl⟩ : ∃ init c, rest = init ++ [c] :=
      ⟨rest.dropLast, rest.getLast hrest, (List.dropLast_append_getLast hrest).symm⟩
    rw [hall, ← List.append_assoc recv] at hcut
    exact ⟨init, (List.append_inj_left' hcut rfl).symm⟩
  obtain ⟨tail, htail⟩ := hpre
  have hgrow := handed_prefix cu tail (portDataReceived cu ([], (col, [])) recv)
  rw [← received_append, htail, hnone] at hgrow
  exact List.prefix_nil.mp hgrow

/-- However the text is cut into chunks, and whatever events stand between its lines, the panel hands over one
response, which has the property `Q`. -/
def Delivers (out : Text) (Q : ProtocolResponse → Prop) : Prop :=
  ∀ (col : Collector) (pieces chunks : List Text), Inserted IsEvent (linesOf out) pieces →
    chunks.flatten = pieces.flatten →
    ∃ resp, (chunks.foldl (portDataReceived cu) ([], (col, []))).2.2 = [resp] ∧ Q resp

theorem delivers_answer {a : Answer} (h : a.Wf) {Q : ProtocolResponse → Prop} (hQ : Q (response a)) :
    Delivers cu a.print Q := by
  intro col pieces chunks hins hflat
  refine ⟨response a, ?_, hQ⟩
  have hlines : linesOf a.print = (a.lines.map (· ++ ['\r'])).map (· ++ ['\n']) := by
    rw [a.print_eq, linesOf_flatMap h.lines_lf]
  have hwhole : ∀ p ∈ linesOf a.print, ∃ s, p = s ++ ['\n'] := by
    intro p hp
    rw [hlines] at hp
    obtain ⟨s, -, rfl⟩ := List.mem_map.mp hp
    exact ⟨s, rfl⟩
  have hself : (linesOf a.print).flatten = a.print := by
    rw [hlines, a.print_eq, List.flatMap]
  rw [received_chunks, hflat, received_inserted cu (fun e he st => received_event cu he st) hins hwhole, hself]
  exact (received_answer cu h col []).2

end Stream

end MultiIp.Panel

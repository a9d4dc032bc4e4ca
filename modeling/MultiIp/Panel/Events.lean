import MultiIp.Board.Answers
import MultiIp.Panel.Stream

/-!
# Received datagrams on the serial line

The main loop prints every datagram it polls as an event. The payload is printed
as it is, so a line feed in it ends the event's line.
-/

namespace MultiIp.Panel

open Board Lwip Lib Wire Firmware

/-! ## The event of a datagram -/

/-- A polled message with the address of its interface and the port of its socket. -/
structure RxEvent where
  my_ip : ip_addr_t
  local_port : UInt16
  rx_msg : udp_rx_msg_t

/-- `"\r\n#EVT UDPRX %s:%u -> %s:%u %u bayt\r\n"`. -/
def rxInfo (e : RxEvent) : Text :=
  "\r\n#EVT UDPRX ".toList ++ ipaddr_ntoa e.rx_msg.src_ip ++ ':' :: decimal e.rx_msg.src_port.toNat ++
    " -> ".toList ++ ipaddr_ntoa e.my_ip ++ ':' :: decimal e.local_port.toNat ++
    ' ' :: decimal e.rx_msg.data_len.toNat ++ " bayt\r\n".toList

/-- The first bytes of the payload. -/
def rxData (e : RxEvent) : Text :=
  (e.rx_msg.data.bytes.take (min e.rx_msg.data_len.toNat 64)).map (fun b => Char.ofNat b.toNat)

/-- What the main loop prints. -/
def rxText (e : RxEvent) : Text :=
  rxInfo e ++ if e.rx_msg.data_len > 0 then "#EVT Data: ".toList ++ rxData e ++ eol else []

/-- `rx_info` has 112 bytes, and `msg_len` counts only what was written. -/
theorem rxInfo_length (e : RxEvent) : (rxInfo e).length < 112 := by
  have h1 := ipaddr_ntoa_length e.rx_msg.src_ip
  have h2 := decimal16_length e.rx_msg.src_port
  have h3 := ipaddr_ntoa_length e.my_ip
  have h4 := decimal16_length e.local_port
  have h5 := decimal16_length e.rx_msg.data_len
  have h6 : "\r\n#EVT UDPRX ".toList.length = 13 := rfl
  have h7 : " -> ".toList.length = 4 := rfl
  have h8 : " bayt\r\n".toList.length = 7 := rfl
  unfold rxInfo
  simp only [List.length_append, List.length_cons]
  omega

/-- What the panel sees as lines of their own: the payload after its first line feed. -/
def strayLines (e : RxEvent) : List Text := ((rxData e).splitOn '\n').tail

/-- The line as `ProcessLine` gets it. -/
def decoded (l : Text) : Text := trimEndCr (l.map asciiChar)

/-- Whatever answer is printed, and wherever the events stand between its lines, the panel hands over the responses
that it hands over without them. -/
def NoInfluence (cu : Culture) (evs : RxEvent → Prop) : Prop :=
  ∀ (ls pieces : List Text) (col : Collector), (∀ l ∈ ls, '\n' ∉ l) →
    Inserted (fun t => ∃ e, evs e ∧ t = rxText e) (ls.map (· ++ eol)) pieces →
    (portDataReceived cu ([], (col, [])) pieces.flatten).2.2 =
      (portDataReceived cu ([], (col, [])) (ls.map (· ++ eol)).flatten).2.2

/-! ## The lines of an event -/

section Lines

variable (cu : Culture)

theorem received_split {l : Text} {ls : List Text} (h : ∀ m ∈ l :: ls, '\n' ∉ m) (st : Handed) :
    portDataReceived cu ([], st) (['\n'].intercalate (l :: ls) ++ eol) =
      ([], (l :: ls).foldl (fun st l => handLine cu st (l.map asciiChar)) st) := by
  induction ls generalizing l st with
  | nil =>
    have hl : '\n' ∉ l ++ ['\r'] := by simpa using h l List.mem_cons_self
    have hcut : ['\n'].intercalate [l] ++ eol = (l ++ ['\r']) ++ ['\n'] := by
      rw [List.intercalate_singleton, List.append_assoc]
      rfl
    have hcr : handLine cu st ((l ++ ['\r']).map asciiChar) = handLine cu st (l.map asciiChar) := by
      unfold handLine
      rw [List.map_append, show [('\r' : Char)].map asciiChar = ['\r'] from rfl, trimEndCr_append_cr]
    rw [hcut, received_line cu hl, hcr]
    rfl
  | cons m ls ih =>
    rw [List.intercalate_cons_cons, List.append_assoc, received_append, received_line cu (h l List.mem_cons_self),
      ih (fun k hk => h k (List.mem_cons_of_mem _ hk))]
    rfl

theorem handLine_event {s : Text} (st : Handed) : handLine cu st (("#EVT ".toList ++ s).map asciiChar) = st := by
  refine handLine_ignored cu ?_ st
  rw [List.map_append, show "#EVT ".toList.map asciiChar = "#EVT ".toList from rfl, trimEndCr_append (by decide)]
  refine ignored_event cu fun c hc => ?_
  obtain ⟨d, -, rfl⟩ := List.mem_map.mp (mem_trimEndCr hc)
  exact isAscii_asciiChar d

/-- The line that names the sender and the receiver, without `#EVT ` and its end. -/
def rxHeader (e : RxEvent) : Text :=
  "UDPRX ".toList ++ ipaddr_ntoa e.rx_msg.src_ip ++ ':' :: decimal e.rx_msg.src_port.toNat ++ " -> ".toList ++
    ipaddr_ntoa e.my_ip ++ ':' :: decimal e.local_port.toNat ++ ' ' :: decimal e.rx_msg.data_len.toNat ++
    " bayt".toList

theorem rxHeader_lf (e : RxEvent) : '\n' ∉ rxHeader e := by
  have hlf : isPrintable '\n' = false := rfl
  have hn : ∀ n, '\n' ∉ decimal n := fun n => not_mem_of_printable (printable_decimal n) hlf
  have ha : ∀ ip, '\n' ∉ ipaddr_ntoa ip := fun ip => not_mem_of_printable (printable_ntoa ip) hlf
  unfold rxHeader
  simp only [List.mem_append, List.mem_cons, hn, ha]
  decide

theorem rxInfo_eq (e : RxEvent) : rxInfo e = ['\n'].intercalate [['\r'], "#EVT ".toList ++ rxHeader e] ++ eol := by
  have h : ∀ v w x y z : Text, "\r\n#EVT UDPRX ".toList ++ v ++ ':' :: w ++ " -> ".toList ++ x ++ ':' :: y ++
      ' ' :: z ++ " bayt\r\n".toList = ['\n'].intercalate [['\r'], "#EVT ".toList ++ ("UDPRX ".toList ++ v ++
        ':' :: w ++ " -> ".toList ++ x ++ ':' :: y ++ ' ' :: z ++ " bayt".toList)] ++ eol := by
    intro v w x y z
    simp [eol, List.intercalate]
  exact h _ _ _ _ _

theorem received_rxInfo (e : RxEvent) (st : Handed) : portDataReceived cu ([], st) (rxInfo e) = ([], st) := by
  have hlines : ∀ m ∈ [['\r'], "#EVT ".toList ++ rxHeader e], '\n' ∉ m := by
    intro m hm
    simp only [List.mem_cons, List.not_mem_nil, or_false] at hm
    rcases hm with rfl | rfl
    · decide
    · rw [List.mem_append, not_or]
      exact ⟨by decide, rxHeader_lf e⟩
  rw [rxInfo_eq, received_split cu hlines]
  simp only [List.foldl_cons, List.foldl_nil, handLine_event]
  rw [handLine_ignored cu (Or.inl rfl)]

/-- The panel takes the event apart into lines that it ignores and the stray lines. -/
theorem received_rxText (e : RxEvent) (st : Handed) :
    portDataReceived cu ([], st) (rxText e) =
      ([], (strayLines e).foldl (fun st l => handLine cu st (l.map asciiChar)) st) := by
  unfold rxText
  rw [received_append, received_rxInfo]
  split
  · obtain ⟨l, ls, hl⟩ := List.exists_cons_of_ne_nil (List.splitOn_ne_nil '\n' (rxData e))
    have hjoin : rxData e = ['\n'].intercalate (l :: ls) := by rw [← hl, List.intercalate_splitOn]
    have hlf : ∀ m ∈ ("#EVT Data: ".toList ++ l) :: ls, '\n' ∉ m := by
      intro m hm
      rcases List.mem_cons.mp hm with rfl | hm
      · rw [List.mem_append, not_or]
        exact ⟨by decide, (of_mem_splitOn (hl ▸ List.mem_cons_self)).1⟩
      · exact (of_mem_splitOn (hl ▸ List.mem_cons_of_mem _ hm)).1
    rw [hjoin, ← intercalate_append, received_split cu hlf, List.foldl_cons,
      show "#EVT Data: ".toList ++ l = "#EVT ".toList ++ ("Data: ".toList ++ l) from rfl, handLine_event, strayLines, hl]
    rfl
  · rename_i hzero
    have hnil : rxData e = [] := by
      have hlen : e.rx_msg.data_len = 0 := by simpa using hzero
      simp [rxData, hlen]
    rw [strayLines, hnil]
    rfl

theorem received_harmless {e : RxEvent} (h : ∀ l ∈ strayLines e, ignored cu (decoded l)) (st : Handed) :
    portDataReceived cu ([], st) (rxText e) = ([], st) := by
  rw [received_rxText]
  generalize strayLines e = ls at h
  induction ls with
  | nil => rfl
  | cons l ls ih =>
    rw [List.foldl_cons, handLine_ignored cu (h l List.mem_cons_self)]
    exact ih (fun m hm => h m (List.mem_cons_of_mem _ hm))

/-! ## A stray line can be noticed -/

/-- A line that no event can print. -/
def longLine : Text := List.replicate 65 'x'

/-- The answer into which the event is inserted. -/
def probe : Answer := .block "X".toList [longLine] "OK".toList

/-- The answer of which only `longLine` was sent can no longer be delivered unchanged. -/
def Spoiled (st : Handed) : Prop := st.2 ≠ [] ∨ (st.1.collectName.isSome = true ∧ st.1.collectLines ≠ [longLine])

theorem processLine_cases {s : Collector} (hs : s.collectName.isSome = true) {line : Text} (h : ¬ ignored cu line) :
    (Outcome.response (processLine cu s line).2 ≠ none) ∨
    ((processLine cu s line).1.collectName.isSome = true ∧
      ((processLine cu s line).1.collectLines = s.collectLines ++ [line] ∨ (processLine cu s line).1.collectLines = [])) := by
  have hne : line ≠ [] := fun hnil => h (Or.inl hnil)
  unfold processLine
  cases h1 : cu.startsWith line "#".toList with
  | false => exact Or.inr (by simp [hne, hs])
  | true =>
    have h2 : cu.startsWith line "#EVT ".toList = false := by
      by_contra ht
      exact h (Or.inr ⟨h1, by simpa using ht⟩)
    rw [h2]
    cases cu.startsWith line "#BEGIN ".toList with
    | true => exact Or.inr ⟨rfl, Or.inr rfl⟩
    | false =>
    cases cu.startsWith line "#END ".toList with
    | true => exact Or.inl (Option.some_ne_none _)
    | false =>
    cases cu.startsWith line "#ERR".toList with
    | true => exact Or.inl (Option.some_ne_none _)
    | false => exact Or.inr (by simp [hs])

theorem spoiled_of_line {st : Handed} (hs : st.1.collectName.isSome = true) {line : Text}
    (h : ¬ ignored cu (trimEndCr line)) (hD : trimEndCr line ≠ longLine) : Spoiled (handLine cu st line) := by
  rcases processLine_cases cu hs h with hr | ⟨hname, hl⟩
  · obtain ⟨resp, hresp⟩ := Option.ne_none_iff_exists'.mp hr
    refine Or.inl ?_
    show st.2 ++ _ ≠ []
    rw [hresp]
    simp
  · refine Or.inr ⟨hname, ?_⟩
    show (processLine cu st.1 (trimEndCr line)).1.collectLines ≠ [longLine]
    rcases hl with hl | hl
    · rw [hl]
      intro heq
      have hlast := List.append_eq_singleton_iff.mp heq
      simp only [List.cons.injEq, and_true, List.cons_ne_nil, and_false, or_false] at hlast
      exact hD hlast.2
    · rw [hl]
      exact (List.cons_ne_nil _ _).symm

theorem Spoiled.line {st : Handed} (h : Spoiled st) {line : Text} (hD : trimEndCr line ≠ longLine) :
    Spoiled (handLine cu st line) := by
  rcases h with h | ⟨hname, hl⟩
  · refine Or.inl ?_
    show st.2 ++ _ ≠ []
    simp [h]
  · by_cases hig : ignored cu (trimEndCr line)
    · rw [handLine_ignored cu hig]
      exact Or.inr ⟨hname, hl⟩
    · exact spoiled_of_line cu hname hig hD

theorem Spoiled.lines {st : Handed} (h : Spoiled st) {ls : List Text} (hD : ∀ l ∈ ls, decoded l ≠ longLine) :
    Spoiled (ls.foldl (fun st l => handLine cu st (l.map asciiChar)) st) := by
  induction ls generalizing st with
  | nil => exact h
  | cons l ls ih =>
    exact ih (h.line cu (hD l List.mem_cons_self)) (fun m hm => hD m (List.mem_cons_of_mem _ hm))

/-- One line that is not ignored spoils the answer, whatever follows it. -/
theorem spoiled_of_lines {st : Handed} (hs : st.1.collectName.isSome = true) {ls : List Text}
    (hD : ∀ l ∈ ls, decoded l ≠ longLine) (h : ∃ l ∈ ls, ¬ ignored cu (decoded l)) :
    Spoiled (ls.foldl (fun st l => handLine cu st (l.map asciiChar)) st) := by
  induction ls with
  | nil =>
    obtain ⟨l, hl, -⟩ := h
    cases hl
  | cons l ls ih =>
    have hrest : ∀ m ∈ ls, decoded m ≠ longLine := fun m hm => hD m (List.mem_cons_of_mem _ hm)
    rw [List.foldl_cons]
    by_cases hig : ignored cu (decoded l)
    · obtain ⟨m, hm, hbad⟩ := h
      rw [handLine_ignored cu hig]
      rcases List.mem_cons.mp hm with rfl | hm
      · exact absurd hig hbad
      · exact ih hrest ⟨m, hm, hbad⟩
    · exact (spoiled_of_line cu hs hig (hD l List.mem_cons_self)).lines cu hrest

theorem decoded_ne_longLine {e : RxEvent} {l : Text} (h : l ∈ strayLines e) : decoded l ≠ longLine := by
  intro heq
  have hlen : (decoded l).length ≤ l.length := by
    unfold decoded trimEndCr
    rw [List.length_reverse]
    exact (List.dropWhile_sublist _).length_le.trans (by simp)
  have hl : l.length ≤ (rxData e).length := (of_mem_splitOn (List.mem_of_mem_tail h)).2
  have hdata : (rxData e).length ≤ 64 := by
    simp only [rxData, List.length_map, List.length_take]
    omega
  rw [heq, longLine, List.length_replicate] at hlen
  omega

theorem isData_longLine : IsData longLine :=
  isData_append (p := "x") (by decide) (s := List.replicate 64 'x') (List.all_eq_true.mp (by decide))

theorem probe_wf : probe.Wf := ⟨by decide, by simpa using isData_longLine, by decide⟩

theorem probe_front (st : Handed) :
    ["#BEGIN X".toList, longLine].foldl (fun st l => handLine cu st (l ++ ['\r'])) st =
      (⟨some "X".toList, [longLine]⟩, st.2) := by
  have hbegin : handLine cu st ("#BEGIN X".toList ++ ['\r']) = (⟨some "X".toList, []⟩, st.2) := by
    rw [handLine_eq cu (by decide), show "#BEGIN X".toList = "#BEGIN ".toList ++ "X".toList from rfl,
      processLine_begin cu (by decide)]
    simp [Outcome.response]
  rw [List.foldl_cons, hbegin]
  exact hand_data cu (by simpa using isData_longLine) _ _ _

theorem probe_end (st : Handed) :
    (portDataReceived cu ([], st) ("#END X OK".toList ++ eol)).2.2 =
      st.2 ++ [⟨"X".toList, "OK".toList, st.1.collectLines⟩] := by
  have hcut : portDataReceived cu ([], st) ("#END X OK".toList ++ eol) =
      ([], handLine cu st ("#END X OK".toList ++ ['\r'])) :=
    received_line cu (l := "#END X OK".toList ++ ['\r']) (by decide) st
  rw [hcut, handLine_eq cu (by decide),
    show "#END X OK".toList = "#END ".toList ++ "X".toList ++ ' ' :: "OK".toList from rfl,
    processLine_end cu (by decide) (by decide)]
  rfl

theorem probe_received (e : RxEvent) {st : Handed}
    (hst : (strayLines e).foldl (fun st l => handLine cu st (l.map asciiChar)) (⟨some "X".toList, [longLine]⟩, []) = st)
    {pieces : List Text}
    (hp : ["#BEGIN X".toList ++ eol, longLine ++ eol, rxText e, "#END X OK".toList ++ eol] = pieces) :
    (portDataReceived cu ([], (.init, [])) pieces.flatten).2.2 =
      st.2 ++ [⟨"X".toList, "OK".toList, st.1.collectLines⟩] := by
  have hcut : ∀ a b c d : Text, [a ++ eol, b ++ eol, c, d].flatten = [a, b].flatMap (· ++ eol) ++ (c ++ d) := by
    intro a b c d
    simp
  have hprint : ∀ l ∈ ["#BEGIN X".toList, longLine], ∀ c ∈ l, isPrintable c = true := by
    intro l hl
    simp only [List.mem_cons, List.not_mem_nil, or_false] at hl
    rcases hl with rfl | rfl
    · exact List.all_eq_true.mp (by decide)
    · exact isData_longLine.printable
  rw [← hp, hcut, received_append, received_lines cu hprint, probe_front, received_append, received_rxText, hst,
    probe_end]

/-- The events insert nothing into the responses exactly when no payload has a line, after its first, that is neither
empty nor another event. -/
theorem no_influence_iff (evs : RxEvent → Prop) :
    NoInfluence cu evs ↔ ∀ e, evs e → ∀ l ∈ strayLines e, ignored cu (decoded l) := by
  constructor
  · intro h e he
    by_contra hbad
    push Not at hbad
    have hins : Inserted (fun t => ∃ e, evs e ∧ t = rxText e) (probe.lines.map (· ++ eol))
        ["#BEGIN X".toList ++ eol, longLine ++ eol, rxText e, "#END X OK".toList ++ eol] :=
      .keep _ (.keep _ (.insert ⟨e, he, rfl⟩ (.keep _ .nil)))
    generalize hp : ["#BEGIN X".toList ++ eol, longLine ++ eol, rxText e, "#END X OK".toList ++ eol] = pieces at hins
    have hsame := h probe.lines _ .init probe_wf.no_lf hins
    have hplain : (portDataReceived cu ([], (.init, [])) (probe.lines.map (· ++ eol)).flatten).2.2 = [response probe] :=
      (received_answer cu probe_wf .init []).2
    have hspoiled : Spoiled ((strayLines e).foldl (fun st l => handLine cu st (l.map asciiChar))
        (⟨some "X".toList, [longLine]⟩, [])) :=
      spoiled_of_lines cu rfl (fun l hl => decoded_ne_longLine hl) hbad
    generalize hst : (strayLines e).foldl (fun st l => handLine cu st (l.map asciiChar))
      (⟨some "X".toList, [longLine]⟩, []) = st at hspoiled
    have hsplit := (probe_received cu e hst hp).symm.trans (hsame.trans hplain)
    obtain ⟨hnil, hresp⟩ : _ = [] ∧ _ := by
      rcases List.append_eq_singleton_iff.mp hsplit with h | ⟨-, h⟩
      · exact h
      · exact absurd h (List.cons_ne_nil _ _)
    rcases hspoiled with hne | ⟨-, hne⟩
    · exact hne hnil
    · refine hne ?_
      simpa [response, probe] using hresp
  · intro h ls pieces col hlf hins
    have hwhole : ∀ p ∈ ls.map (· ++ eol), ∃ s, p = s ++ ['\n'] := by
      intro p hp
      obtain ⟨l, -, rfl⟩ := List.mem_map.mp hp
      refine ⟨l ++ ['\r'], ?_⟩
      rw [List.append_assoc]
      rfl
    have hE : ∀ t, (∃ e, evs e ∧ t = rxText e) → ∀ st, portDataReceived cu ([], st) t = ([], st) := by
      rintro t ⟨e, he, rfl⟩ st
      exact received_harmless cu (h e he) st
    rw [received_inserted cu hE hins hwhole]

end Lines

/-- A datagram of 17 bytes: a line feed and the last line of an answer. -/
def spoof : RxEvent where
  my_ip := 0x0a00000a
  local_port := 5000
  rx_msg :=
    { udp_rx_msg_t.zero with
      src_ip := 0x0a000005
      src_port := 4000
      data := (Buf.zero _).memcpy 0 "\n#END NETIFDEL OK".toUTF8.toList
      data_len := 17 }

/-- The panel takes the payload for an answer. -/
theorem payload_influences : ¬ NoInfluence .ordinal (fun e => e = spoof) := by
  intro h
  have hsame := h ["#BEGIN NETIFDEL".toList, "#END NETIFDEL ERR:bad_index".toList]
    [rxText spoof, "#BEGIN NETIFDEL".toList ++ eol, "#END NETIFDEL ERR:bad_index".toList ++ eol] .init (by decide)
    (.insert ⟨spoof, rfl, rfl⟩ (.keep _ (.keep _ .nil)))
  exact absurd hsame (by decide +kernel)

end MultiIp.Panel

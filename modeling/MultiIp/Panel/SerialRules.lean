import MultiIp.Panel.Serial

/-!
# What the panel makes of each kind of line

Events change nothing, and an answer, from whatever was collected before it,
gives exactly one response: its own.
-/

namespace MultiIp.Panel

open Lib Wire

/-! ## Trimming -/

theorem trim_eq_self {s : Text} (hh : ∀ c ∈ s.head?, isSpace c = false) (hl : ∀ c ∈ s.getLast?, isSpace c = false) :
    trim s = s := by
  have hfront : s.dropWhile isSpace = s := by
    cases s with
    | nil => rfl
    | cons c s => simp [hh c rfl]
  have hback : s.reverse.dropWhile isSpace = s.reverse := by
    rw [← List.head?_reverse] at hl
    cases hs : s.reverse with
    | nil => rfl
    | cons c t =>
      rw [hs] at hl
      simp [hl c rfl]
  rw [trim, hfront, hback, List.reverse_reverse]

theorem trimEndCr_append_cr (s : Text) : trimEndCr (s ++ ['\r']) = trimEndCr s := by simp [trimEndCr]

theorem trimEndCr_eq_self {s : Text} (h : '\r' ∉ s) : trimEndCr s = s := by
  unfold trimEndCr
  cases hs : s.reverse with
  | nil => simp_all
  | cons c t =>
    have hc : c ≠ '\r' := by
      rintro rfl
      exact h (by rw [← List.mem_reverse, hs]; exact List.mem_cons_self)
    rw [List.dropWhile_cons_of_neg (by simpa using hc), ← hs, List.reverse_reverse]

theorem isSpace_of_word {w : Text} (h : IsWord w) {c : Char} (hc : c ∈ w) : isSpace c = false := by
  obtain ⟨hp, hne⟩ := h.2 c hc
  have := isPrintable_iff.mp hp
  simp [isSpace, hne]
  omega

theorem trim_word {w : Text} (h : IsWord w) : trim w = w :=
  trim_eq_self (fun _ hc => isSpace_of_word h (List.mem_of_head? hc))
    (fun _ hc => isSpace_of_word h (List.mem_of_getLast? hc))

/-! ## Lines -/

section Lines

variable (cu : Culture)

theorem isAscii_of_isPrintable {c : Char} (h : isPrintable c = true) : isAscii c = true := by
  have := isPrintable_iff.mp h
  simp only [isAscii, decide_eq_true_eq]
  omega

/-- A prefix of the code whose last character is not a letter. -/
theorem startsWith_append {p : String} (hp : p.toList.all isPrintable = true)
    (hl : p.toList.getLast?.any Char.isAlpha = false) {s : Text} (hs : ∀ c ∈ s, isAscii c = true) :
    cu.startsWith (p.toList ++ s) p.toList = true :=
  cu.of_append _ _ (List.all_eq_true.mp hp) hs (by rw [hl]; rfl)

theorem startsWith_false {s : Text} {p : String} (hs : ∀ c ∈ s, isPrintable c = true)
    (hp : p.toList.all isPrintable = true) (h : ¬ p.toList <+: s) : cu.startsWith s p.toList = false := by
  by_contra ht
  exact h (cu.isPrefix_of _ _ hs (List.all_eq_true.mp hp) (by simpa using ht))

theorem processLine_nil (s : Collector) : processLine cu s [] = (s, none) := by
  have h : cu.startsWith [] "#".toList = false :=
    startsWith_false cu (by simp) (by decide) (by decide)
  unfold processLine
  rw [h]
  rfl

/-- Lines that change nothing and give nothing to the command that waits. -/
def ignored (line : Text) : Prop :=
  line = [] ∨ (cu.startsWith line "#".toList = true ∧ cu.startsWith line "#EVT ".toList = true)

theorem processLine_ignored {line : Text} (h : ignored cu line) (s : Collector) :
    (processLine cu s line).1 = s ∧ Outcome.response (processLine cu s line).2 = none := by
  rcases h with rfl | ⟨h1, h2⟩
  · rw [processLine_nil]
    exact ⟨rfl, rfl⟩
  · unfold processLine
    rw [h1, h2]
    exact ⟨rfl, rfl⟩

theorem ignored_event {s : Text} (hs : ∀ c ∈ s, isAscii c = true) : ignored cu ("#EVT ".toList ++ s) := by
  refine Or.inr ⟨?_, startsWith_append cu (by decide) (by decide) hs⟩
  have hrest : ∀ c ∈ "EVT ".toList ++ s, isAscii c = true := by
    intro c hc
    rcases List.mem_append.mp hc with hc | hc
    · exact List.all_eq_true.mp (by decide : "EVT ".toList.all isAscii = true) c hc
    · exact hs c hc
  exact startsWith_append cu (p := "#") (by decide) (by decide) hrest

theorem processLine_data {l : Text} (h : IsData l) {s : Collector} (hs : s.collectName.isSome = true) :
    processLine cu s l = ({ s with collectLines := s.collectLines ++ [l] }, none) := by
  have hmark := fun q hq {p} => h.not_prefix q hq (p := p)
  have h1 := startsWith_false cu (p := "#EVT ") h.printable (by decide) (hmark "#EVT" (by decide) (by decide))
  have h2 := startsWith_false cu (p := "#BEGIN ") h.printable (by decide) (hmark "#BEGIN" (by decide) (by decide))
  have h3 := startsWith_false cu (p := "#END ") h.printable (by decide) (hmark "#END" (by decide) (by decide))
  have h4 := startsWith_false cu (p := "#ERR") h.printable (by decide) (hmark "#ERR" (by decide) (by decide))
  unfold processLine
  rw [h1, h2, h3, h4]
  cases cu.startsWith l "#".toList <;> simp [h.ne_nil, hs]

theorem startsWith_hash {p : String} (hp : "#".toList <+: p.toList) {s : Text}
    (h : ∀ c ∈ p.toList ++ s, isAscii c = true) : cu.startsWith (p.toList ++ s) "#".toList = true := by
  obtain ⟨t, ht⟩ := hp
  rw [← ht, List.append_assoc] at h ⊢
  exact startsWith_append cu (by decide) (by decide)
    (fun c hc => h c (List.mem_append_right _ hc))

theorem printable_append {p : String} (hp : p.toList.all isPrintable = true) {s : Text}
    (hs : ∀ c ∈ s, isPrintable c = true) : ∀ c ∈ p.toList ++ s, isPrintable c = true := by
  intro c hc
  rcases List.mem_append.mp hc with hc | hc
  · exact List.all_eq_true.mp hp c hc
  · exact hs c hc

theorem processLine_begin {name : Text} (h : IsWord name) (s : Collector) :
    processLine cu s ("#BEGIN ".toList ++ name) = (⟨some name, []⟩, none) := by
  have hpr := printable_append (p := "#BEGIN ") (by decide) (fun c hc => (h.2 c hc).1)
  have hasc := fun c hc => isAscii_of_isPrintable (hpr c hc)
  have h1 := startsWith_hash cu (p := "#BEGIN ") (by decide) hasc
  have h2 := startsWith_false cu (p := "#EVT ") hpr (by decide) (by simp)
  have h3 := startsWith_append cu (p := "#BEGIN ") (by decide) (by decide)
    (fun c hc => isAscii_of_isPrintable (h.2 c hc).1)
  unfold processLine
  rw [h1, h2, h3, show ("#BEGIN ".toList ++ name).drop 7 = name from rfl, trim_word h]
  rfl

theorem processLine_end {name status : Text} (hn : IsWord name) (hst : IsWord status) (s : Collector) :
    processLine cu s ("#END ".toList ++ name ++ ' ' :: status) =
      ({ s with collectName := none }, some (.result ⟨name, status, s.collectLines⟩)) := by
  have hrest : ∀ c ∈ name ++ ' ' :: status, isPrintable c = true := by
    intro c hc
    rcases List.mem_append.mp hc with hc | hc
    · exact (hn.2 c hc).1
    · rcases List.mem_cons.mp hc with rfl | hc
      · decide
      · exact (hst.2 c hc).1
  have hpr := printable_append (p := "#END ") (by decide) hrest
  have hasc := fun c hc => isAscii_of_isPrintable (hpr c hc)
  have h1 := startsWith_hash cu (p := "#END ") (by decide) hasc
  have h2 := startsWith_false cu (p := "#EVT ") hpr (by decide) (by simp)
  have h3 := startsWith_false cu (p := "#BEGIN ") hpr (by decide) (by simp)
  have h4 := startsWith_append cu (p := "#END ") (by decide) (by decide)
    (fun c hc => isAscii_of_isPrintable (hrest c hc))
  have htrim : trim (name ++ ' ' :: status) = name ++ ' ' :: status := by
    apply trim_eq_self
    · intro c hc
      rw [List.head?_append_of_ne_nil _ hn.1] at hc
      exact isSpace_of_word hn (List.mem_of_head? hc)
    · intro c hc
      rw [List.getLast?_append_of_ne_nil _ (by simp), List.getLast?_cons_of_ne_nil hst.1] at hc
      exact isSpace_of_word hst (List.mem_of_getLast? hc)
  have htake : (name ++ ' ' :: status).takeWhile (· ≠ ' ') = name := by
    rw [List.takeWhile_append_of_pos]
    · simp
    · intro c hc
      simpa using (hn.2 c hc).2
  have hdrop : ("#END ".toList ++ (name ++ ' ' :: status)).drop 5 = name ++ ' ' :: status := rfl
  rw [List.append_assoc]
  unfold processLine
  rw [h1, h2, h3, h4, hdrop, htrim]
  have hresp : endResponse (name ++ ' ' :: status) s.collectLines = ⟨name, status, s.collectLines⟩ := by
    have hcut : (name ++ ' ' :: status).drop (name.length + 1) = status := by simp
    unfold endResponse
    dsimp only
    rw [htake, hcut, trim_word hst, if_pos (by simp)]
  rw [hresp]
  rfl

theorem processLine_err {reason : Text} (h : IsWord reason) (s : Collector) :
    processLine cu s ("#ERR ".toList ++ reason) =
      (s, some (.result ⟨[], "ERR:".toList ++ reason, []⟩)) := by
  have hpr := printable_append (p := "#ERR ") (by decide) (fun c hc => (h.2 c hc).1)
  have hasc := fun c hc => isAscii_of_isPrintable (hpr c hc)
  have h1 := startsWith_hash cu (p := "#ERR ") (by decide) hasc
  have h2 := startsWith_false cu (p := "#EVT ") hpr (by decide) (by simp)
  have h3 := startsWith_false cu (p := "#BEGIN ") hpr (by decide) (by simp)
  have h4 := startsWith_false cu (p := "#END ") hpr (by decide) (by simp)
  have h5 : cu.startsWith ("#ERR".toList ++ ' ' :: reason) "#ERR".toList = true := by
    refine cu.of_append _ _ (List.all_eq_true.mp (by decide)) (fun c hc => ?_) (by simp)
    rcases List.mem_cons.mp hc with rfl | hc
    · decide
    · exact isAscii_of_isPrintable (h.2 c hc).1
  have htrim : trim (' ' :: reason) = reason := by
    have hskip : trim (' ' :: reason) = trim reason := rfl
    rw [hskip, trim_word h]
  unfold processLine
  rw [h1, h2, h3, h4, show "#ERR ".toList ++ reason = "#ERR".toList ++ ' ' :: reason from rfl, h5]
  rw [show ("#ERR".toList ++ ' ' :: reason).drop 4 = ' ' :: reason from rfl, htrim]
  rfl

end Lines

/-! ## Answers -/

/-- The response that the panel should make of an answer. -/
def response : Answer → ProtocolResponse
  | .block name data status => ⟨name, status, data⟩
  | .err reason => ⟨[], "ERR:".toList ++ reason, []⟩

section Answers

variable (cu : Culture)

theorem handLine_eq {line : Text} (h : '\r' ∉ line) (st : Handed) :
    handLine cu st (line ++ ['\r']) =
      ((processLine cu st.1 line).1, st.2 ++ (Outcome.response (processLine cu st.1 line).2).toList) := by
  unfold handLine
  rw [trimEndCr_append_cr, trimEndCr_eq_self h]

theorem hand_data {data : List Text} (h : ∀ l ∈ data, IsData l) (name : Text) (ls : List Text)
    (rs : List ProtocolResponse) :
    data.foldl (fun st l => handLine cu st (l ++ ['\r'])) (⟨some name, ls⟩, rs) = (⟨some name, ls ++ data⟩, rs) := by
  induction data generalizing ls with
  | nil => simp
  | cons l data ih =>
    have hl := h l List.mem_cons_self
    rw [List.foldl_cons, handLine_eq cu (not_mem_of_printable hl.printable (by decide)), processLine_data cu hl rfl]
    simp only [Outcome.response, Option.toList_none, List.append_nil]
    rw [ih (fun m hm => h m (List.mem_cons_of_mem _ hm))]
    simp

theorem hand_begin {name : Text} (h : IsWord name) (st : Handed) :
    handLine cu st ("#BEGIN ".toList ++ name ++ ['\r']) = (⟨some name, []⟩, st.2) := by
  have hcr : '\r' ∉ "#BEGIN ".toList ++ name := by
    rw [List.mem_append, not_or]
    exact ⟨by decide, not_mem_of_printable (fun c hc => (h.2 c hc).1) (by decide)⟩
  rw [handLine_eq cu hcr, processLine_begin cu h]
  simp [Outcome.response]

theorem hand_front {a : Answer} (h : a.Wf) (st : Handed) :
    (a.lines.dropLast.foldl (fun st l => handLine cu st (l ++ ['\r'])) st).2 = st.2 := by
  cases a with
  | block name data status =>
    have hfront : (Answer.block name data status).lines.dropLast = ("#BEGIN ".toList ++ name) :: data := by
      rw [Answer.lines, List.dropLast_concat]
    rw [hfront, List.foldl_cons, hand_begin cu h.1, hand_data cu h.2.1]
  | err reason => rfl

/-- The lines of an answer, from any collector, hand over its response and nothing else. -/
theorem hand_answer {a : Answer} (h : a.Wf) (s : Collector) (rs : List ProtocolResponse) :
    (a.lines.foldl (fun st l => handLine cu st (l ++ ['\r'])) (s, rs)).2 = rs ++ [response a] := by
  have hcr : ∀ l ∈ a.lines, '\r' ∉ l := fun l hl => not_mem_of_printable (h.printable l hl) (by decide)
  cases a with
  | block name data status =>
    obtain ⟨hname, hdata, hstatus⟩ := h
    simp only [Answer.lines, List.cons_append, List.foldl_cons, List.foldl_append, List.foldl_nil]
    rw [hand_begin cu hname, hand_data cu hdata, handLine_eq cu (hcr _ (by simp [Answer.lines])),
      processLine_end cu hname hstatus]
    rfl
  | err reason =>
    simp only [Answer.lines, List.foldl_cons, List.foldl_nil]
    rw [handLine_eq cu (hcr _ (by simp [Answer.lines])), processLine_err cu h]
    rfl

end Answers

end MultiIp.Panel

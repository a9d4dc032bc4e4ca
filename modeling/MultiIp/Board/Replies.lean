import MultiIp.Board.Console

/-!
# One reply per line

Every line that the command channel dispatches is answered by exactly one
reply: the line `#ERR unknown_command`, or a block of lines that ends in `#END`.
-/

namespace MultiIp.Console

open Lib Wire Board Firmware

def blockLines (name : Text) (data : List Text) (status : String) : List Text :=
  ("#BEGIN ".toList ++ name) :: data ++ ["#END ".toList ++ name ++ ' ' :: status.toList]

/-- No data line starts with one of the `marks`, so the first and the last line are the only ones of their kind. -/
structure IsBlock (name : Text) (data : List Text) (status : String) : Prop where
  name : IsWord name
  data : ∀ l ∈ data, IsData l
  word : IsWord status.toList
  status : isStatus status = true

def IsReply (out : Text) : Prop :=
  out = "#ERR unknown_command".toList ++ eol ∨
    ∃ name data status, IsBlock name data status ∧ out = (blockLines name data status).flatMap (· ++ eol)

theorem dispatch_reply {f : Firmware} (h : Firmware.Inv f) (env : Env) (line : Text) :
    IsReply (cmd_dispatch f env line).2 := by
  rw [dispatch_eq]
  rcases named_parse env line with hc | hname
  · rw [hc]
    exact Or.inl rfl
  · have hc : parse env line ≠ .unknown := by
      intro hc
      rw [hc] at hname
      exact hname.1 rfl
    obtain ⟨data, status, hdata, hword, hstatus, hout⟩ := body_ends h env hc
    refine Or.inr ⟨(parse env line).name.toList, data, status, ⟨hname, hdata, hword, hstatus⟩, ?_⟩
    rw [exec_eq hc, after, hout, block_print]
    rfl

/-! ## Counting replies -/

/-- The last line of a reply. -/
def endsReply (l : Text) : Bool := "#END".toList.isPrefixOf l || "#ERR".toList.isPrefixOf l

def replyCount (out : Text) : Nat := (linesOf out).countP endsReply

theorem endsReply_data {l : Text} (h : IsData l) : endsReply (l ++ ['\r', '\n']) = false := by
  have hnot : ∀ q : String, q ∈ marks → '\r' ∉ q.toList → q.toList.isPrefixOf (l ++ ['\r', '\n']) = false := by
    intro q hq hr
    rw [← Bool.not_eq_true, List.isPrefixOf_iff_prefix]
    intro hpre
    rcases List.prefix_or_prefix_of_prefix hpre (List.prefix_append l _) with hl | ⟨t, ht⟩
    · exact h.no_mark q hq hl
    · rw [← ht, List.prefix_append_right_inj] at hpre
      cases t with
      | nil => exact h.no_mark q hq (by rw [← ht, List.append_nil])
      | cons c t =>
        obtain ⟨rfl, -⟩ := List.cons_prefix_cons.mp hpre
        exact hr (by rw [← ht]; simp)
  simp only [endsReply, hnot "#END" (by decide) (by decide), hnot "#ERR" (by decide) (by decide), Bool.or_false]

theorem IsReply.lines {out : Text} (h : IsReply out) :
    ∃ ls : List Text, (∀ l ∈ ls, '\n' ∉ l) ∧ out = ls.flatMap (· ++ ['\n']) ∧
      (ls.map (· ++ ['\n'])).countP endsReply = 1 := by
  have hcut : ∀ l : Text, (l ++ ['\r']) ++ ['\n'] = l ++ ['\r', '\n'] := fun l => by simp
  rcases h with rfl | ⟨name, data, status, hb, rfl⟩
  · exact ⟨["#ERR unknown_command\r".toList], by decide, by decide, by decide⟩
  · have hwf : (Answer.block name data status.toList).Wf := ⟨hb.name, hb.data, hb.word⟩
    refine ⟨_, hwf.lines_lf, (Answer.block name data status.toList).print_eq, ?_⟩
    have hbegin : ∀ t : Text, endsReply ("#BEGIN ".toList ++ name ++ t) = false := fun t => by
      simp [endsReply, List.isPrefixOf]
    have hend : ∀ t : Text, endsReply ("#END ".toList ++ name ++ ' ' :: status.toList ++ t) = true := fun t => by
      simp [endsReply, List.isPrefixOf]
    have hdata : (data.map ((· ++ ['\n']) ∘ (· ++ ['\r']))).countP endsReply = 0 := by
      rw [List.countP_eq_zero]
      intro l hl
      obtain ⟨m, hm, rfl⟩ := List.mem_map.mp hl
      rw [Function.comp_apply, hcut, endsReply_data (hb.data m hm)]
      exact Bool.false_ne_true
    simp only [Answer.lines, List.map_map, List.map_append, List.map_cons, List.map_nil, List.countP_append,
      List.cons_append, List.countP_cons, List.countP_nil, hdata, hcut, hbegin, hend]
    rfl

theorem replyCount_flatten {rs : List Text} (h : ∀ r ∈ rs, IsReply r) : replyCount rs.flatten = rs.length := by
  -- All lines of all replies together.
  have hlines : ∃ ls : List Text, (∀ l ∈ ls, '\n' ∉ l) ∧ rs.flatten = ls.flatMap (· ++ ['\n']) ∧
      (ls.map (· ++ ['\n'])).countP endsReply = rs.length := by
    induction rs with
    | nil => exact ⟨[], by simp, rfl, rfl⟩
    | cons r rs ih =>
      obtain ⟨ls, hls, hr, hcount⟩ := (h r List.mem_cons_self).lines
      obtain ⟨ms, hms, hrs, hcounts⟩ := ih fun r hr => h r (List.mem_cons_of_mem _ hr)
      refine ⟨ls ++ ms, ?_, ?_, ?_⟩
      · intro l hl
        rcases List.mem_append.mp hl with hl | hl
        · exact hls l hl
        · exact hms l hl
      · rw [List.flatten_cons, hr, hrs, List.flatMap_append]
      · rw [List.map_append, List.countP_append, hcount, hcounts, List.length_cons, Nat.add_comm]
  obtain ⟨ls, hls, hrs, hcount⟩ := hlines
  rw [replyCount, hrs, linesOf_flatMap hls, hcount]

/-- In every state of every run a line is answered by one reply, and as many replies were printed as
lines that are not empty were received. -/
theorem one_reply_per_line (c : Boot) (rx : Text) (es : List Step) (h : machine.Legal (init (boot c) rx) es) :
    (∀ env line, IsReply (cmd_dispatch (machine.run (init (boot c) rx) es).firmware env line).2) ∧
    (∃ rs : List Text, (∀ r ∈ rs, IsReply r) ∧ (machine.run (init (boot c) rx) es).printed = rs.flatten ∧
      rs.length = (commandLines (machine.run (init (boot c) rx) es).fed).length) ∧
    replyCount (machine.run (init (boot c) rx) es).printed =
      (commandLines (machine.run (init (boot c) rx) es).fed).length := by
  have hinv := run_inv c rx h
  generalize machine.run (init (boot c) rx) es = s at hinv
  have hreplies : ∀ r ∈ s.dispatched.map Dispatch.out, IsReply r := by
    intro r hr
    obtain ⟨d, hd, rfl⟩ := List.mem_map.mp hr
    exact dispatch_reply (hinv.dispatches d hd) d.env d.line
  have hprinted : s.printed = (s.dispatched.map Dispatch.out).flatten := hinv.printed
  have hlength : (s.dispatched.map Dispatch.out).length = (commandLines s.fed).length := by
    have hlines := congrArg List.length hinv.lines
    rwa [List.length_map, List.length_map, ← List.length_map Dispatch.out] at hlines
  refine ⟨dispatch_reply hinv.firmware, ⟨_, hreplies, hprinted, hlength⟩, ?_⟩
  rw [hprinted, replyCount_flatten hreplies, hlength]

/-- A command, an empty line, a line that is no command and one that is not complete. -/
def sampleStream : Text := "ARPRESET\r\n\rhello\rNETIF".toList

theorem one_reply_per_line_sample :
    machine.Legal (init (boot (.main Lwip.ethzero true)) sampleStream) (List.replicate 22 (.key sampleEnv)) ∧
    replyCount (machine.run (init (boot (.main Lwip.ethzero true)) sampleStream)
      (List.replicate 22 (.key sampleEnv))).printed = 2 := by
  have hlegal : machine.Legal (init (boot (.main Lwip.ethzero true)) sampleStream)
      (List.replicate 22 (.key sampleEnv)) := by decide +kernel
  have hlines : (commandLines (machine.run (init (boot (.main Lwip.ethzero true)) sampleStream)
      (List.replicate 22 (.key sampleEnv))).fed).length = 2 := by decide +kernel
  exact ⟨hlegal, (one_reply_per_line _ _ _ hlegal).2.2.trans hlines⟩

end MultiIp.Console

import MultiIp.Board.Addressed
import MultiIp.Lib.Scan

/-!
# The arguments of a command

Eight commands read arguments, with `sscanf` or `atoi`. Each has a format; a
command acts on exactly what was written if its format stops at every token.
-/

namespace MultiIp.Firmware

open Board Lwip Lib

/-! ## Words and formats -/

inductive ArgsCmd
  | netif_add | netif_del | netif_set | sock_open | sock_close | ping | scan | udp_send
  deriving DecidableEq

namespace ArgsCmd

/-- What `cmd_dispatch` compares the line with. -/
def word : ArgsCmd → String
  | netif_add => "NETIF ADD "
  | netif_del => "NETIF DEL "
  | netif_set => "NETIF SET "
  | sock_open => "SOCK OPEN "
  | sock_close => "SOCK CLOSE "
  | ping => "PING "
  | scan => "SCAN "
  | udp_send => "UDP SEND "

/-- The conversions of its `sscanf`; `atoi` converts like `%d`. -/
def format : ArgsCmd → List Conv
  | netif_add => [.word 15, .word 15, .word 15]
  | netif_del | scan => [.int]
  | netif_set => [.int, .word 7, .word 15]
  | sock_open | sock_close => [.int, .int]
  | ping => [.int, .word 15]
  | udp_send => [.int, .int, .word 15, .int]

/-- What the line becomes when the format does not read it, or an address is none: `atoi` then gives 0. -/
def refused : ArgsCmd → Command
  | netif_add => .bad_args "NETIFADD"
  | netif_del => .netif_del 0
  | netif_set => .bad_args "NETIFSET"
  | sock_open => .bad_args "SOCKOPEN"
  | sock_close => .bad_args "SOCKCLOSE"
  | ping => .bad_args "PING"
  | scan => .scan 0
  | udp_send => .bad_args "UDPSEND"

/-- The command with these arguments, before the text `rest`. -/
def make (env : Env) : ArgsCmd → List Item → (rest : Text) → Option Command
  | netif_add, [.word ip, .word mask, .word gw], _ => do
    return .netif_add (← ipaddr_aton ip) (← ipaddr_aton mask) (← ipaddr_aton gw)
  | netif_del, [.int idx], _ => some (.netif_del (env.int idx))
  | netif_set, [.int idx, .word field, .word val], _ => do
    return .netif_set (env.int idx) field (← ipaddr_aton val)
  | sock_open, [.int idx, .int port], _ => some (.sock_open (env.int idx) (env.int port))
  | sock_close, [.int idx, .int nth], _ => some (.sock_close (env.int idx) (env.int nth))
  | ping, [.int idx, .word ip], _ => do return .ping (env.int idx) (← ipaddr_aton ip)
  | scan, [.int idx], _ => some (.scan (env.int idx))
  | udp_send, [.int idx, .int nth, .word ip, .int port], rest => do
    return .udp_send (env.int idx) (env.int nth) (← ipaddr_aton ip) (env.int port) (skipSpace rest)
  | _, _, _ => none

end ArgsCmd

/-! ## Reading a line -/

theorem env_int_small (env : Env) {n : Nat} (h : n ≤ 65535) : env.int n = n := by
  unfold Env.int
  rw [if_pos (by omega)]

theorem argsOf_append (w : String) (args : Text) : argsOf w (w.toList ++ args) = some args := by
  rw [argsOf, if_pos (List.isPrefixOf_iff_prefix.mpr (List.prefix_append _ _)), ← String.length_toList, List.drop_left]

theorem argsOf_other (w v : String) (args : Text) (h : w.toList.isPrefixOf (v.toList ++ args) = false) :
    argsOf w (v.toList ++ args) = none := by
  rw [argsOf, h, if_neg Bool.false_ne_true]

theorem line_ne (w v : String) (args : Text) (h : w.toList.isPrefixOf (v.toList ++ args) = false) :
    v.toList ++ args ≠ w.toList := by
  intro heq
  rw [heq, List.isPrefixOf_iff_prefix.mpr (List.prefix_refl w.toList)] at h
  cases h

section Parse

variable (env : Env) (args : Text)

theorem parse_netif_add : parse env ("NETIF ADD ".toList ++ args) =
    (netif_add_args args).elim (.bad_args "NETIFADD") (fun a => .netif_add a.1 a.2.1 a.2.2) := by
  simp only [parse, parseWith, argsOf_append, if_neg (line_ne "NETIF LIST" "NETIF ADD " args rfl)]

theorem parse_netif_del : parse env ("NETIF DEL ".toList ++ args) = .netif_del (env.atoi args) := by
  simp only [parse, parseWith, argsOf_other "NETIF ADD " "NETIF DEL " args rfl, argsOf_append,
    if_neg (line_ne "NETIF LIST" "NETIF DEL " args rfl)]

theorem parse_netif_set : parse env ("NETIF SET ".toList ++ args) =
    (netif_set_args env args).elim (.bad_args "NETIFSET") (fun a => .netif_set a.1 a.2.1 a.2.2) := by
  have hno := fun w => argsOf_other w "NETIF SET " args
  simp only [parse, parseWith, hno "NETIF ADD " rfl, hno "NETIF DEL " rfl, argsOf_append,
    if_neg (line_ne "NETIF LIST" "NETIF SET " args rfl)]

theorem parse_sock_open : parse env ("SOCK OPEN ".toList ++ args) =
    (two_ints env args).elim (.bad_args "SOCKOPEN") (fun a => .sock_open a.1 a.2) := by
  have hno := fun w => argsOf_other w "SOCK OPEN " args
  simp only [parse, parseWith, hno "NETIF ADD " rfl, hno "NETIF DEL " rfl, hno "NETIF SET " rfl, argsOf_append,
    if_neg (line_ne "NETIF LIST" "SOCK OPEN " args rfl)]

theorem parse_sock_close : parse env ("SOCK CLOSE ".toList ++ args) =
    (two_ints env args).elim (.bad_args "SOCKCLOSE") (fun a => .sock_close a.1 a.2) := by
  have hno := fun w => argsOf_other w "SOCK CLOSE " args
  simp only [parse, parseWith, hno "NETIF ADD " rfl, hno "NETIF DEL " rfl, hno "NETIF SET " rfl, hno "SOCK OPEN " rfl,
    argsOf_append, if_neg (line_ne "NETIF LIST" "SOCK CLOSE " args rfl)]

theorem parse_ping : parse env ("PING ".toList ++ args) =
    (ping_args env args).elim (.bad_args "PING") (fun a => .ping a.1 a.2) := by
  have hno := fun w => argsOf_other w "PING " args
  simp only [parse, parseWith, hno "NETIF ADD " rfl, hno "NETIF DEL " rfl, hno "NETIF SET " rfl, hno "SOCK OPEN " rfl,
    hno "SOCK CLOSE " rfl, argsOf_append, if_neg (line_ne "NETIF LIST" "PING " args rfl)]

theorem parse_scan : parse env ("SCAN ".toList ++ args) = .scan (env.atoi args) := by
  have hno := fun w => argsOf_other w "SCAN " args
  simp only [parse, parseWith, hno "NETIF ADD " rfl, hno "NETIF DEL " rfl, hno "NETIF SET " rfl, hno "SOCK OPEN " rfl,
    hno "SOCK CLOSE " rfl, hno "PING " rfl, argsOf_append, if_neg (line_ne "NETIF LIST" "SCAN " args rfl)]

theorem parse_udp_send : parse env ("UDP SEND ".toList ++ args) =
    (udp_send_args env args).elim (.bad_args "UDPSEND")
      (fun a => .udp_send a.1 a.2.1 a.2.2.1 a.2.2.2.1 a.2.2.2.2) := by
  have hno := fun w => argsOf_other w "UDP SEND " args
  simp only [parse, parseWith, hno "NETIF ADD " rfl, hno "NETIF DEL " rfl, hno "NETIF SET " rfl, hno "SOCK OPEN " rfl,
    hno "SOCK CLOSE " rfl, hno "PING " rfl, hno "SCAN " rfl, argsOf_append,
    if_neg (line_ne "NETIF LIST" "UDP SEND " args rfl), if_neg (line_ne "ARPRESET" "UDP SEND " args rfl)]

/-- Each line is read through the format of its command. -/
theorem parse_format (c : ArgsCmd) : parse env (c.word.toList ++ args) =
    ((scanf c.format args).bind (fun r => c.make env r.1 r.2)).getD c.refused := by
  cases c with
  | netif_add =>
    rw [ArgsCmd.word, parse_netif_add]
    simp only [netif_add_args, ArgsCmd.format, scanf, Conv.scan]
    cases scanWord 15 args with
    | none => rfl
    | some a =>
      cases h : scanWord 15 a.2 with
      | none => simp [h, ArgsCmd.refused]
      | some b =>
        cases h' : scanWord 15 b.2 with
        | none => simp [h, h', ArgsCmd.refused]
        | some c =>
          simp only [h, h', Option.bind_eq_bind, Option.bind_some, Option.map_some, ArgsCmd.make]
          cases ipaddr_aton a.1 <;> cases ipaddr_aton b.1 <;> cases ipaddr_aton c.1 <;> rfl
  | netif_del =>
    rw [ArgsCmd.word, parse_netif_del]
    simp only [Env.atoi, ArgsCmd.format, scanf, Conv.scan]
    cases scanInt args with
    | none => rfl
    | some a => rfl
  | netif_set =>
    rw [ArgsCmd.word, parse_netif_set]
    simp only [netif_set_args, ArgsCmd.format, scanf, Conv.scan]
    cases scanInt args with
    | none => rfl
    | some a =>
      cases h : scanWord 7 a.2 with
      | none => simp [h, ArgsCmd.refused]
      | some b =>
        cases h' : scanWord 15 b.2 with
        | none => simp [h, h', ArgsCmd.refused]
        | some c =>
          simp only [h, h', Option.bind_eq_bind, Option.bind_some, Option.map_some, ArgsCmd.make]
          cases ipaddr_aton c.1 <;> rfl
  | sock_open =>
    rw [ArgsCmd.word, parse_sock_open]
    simp only [two_ints, ArgsCmd.format, scanf, Conv.scan]
    cases scanInt args with
    | none => rfl
    | some a => cases h : scanInt a.2 <;> simp [h, ArgsCmd.refused, ArgsCmd.make]
  | sock_close =>
    rw [ArgsCmd.word, parse_sock_close]
    simp only [two_ints, ArgsCmd.format, scanf, Conv.scan]
    cases scanInt args with
    | none => rfl
    | some a => cases h : scanInt a.2 <;> simp [h, ArgsCmd.refused, ArgsCmd.make]
  | ping =>
    rw [ArgsCmd.word, parse_ping]
    simp only [ping_args, ArgsCmd.format, scanf, Conv.scan]
    cases scanInt args with
    | none => rfl
    | some a =>
      cases h : scanWord 15 a.2 with
      | none => simp [h, ArgsCmd.refused]
      | some b =>
        simp only [h, Option.bind_eq_bind, Option.bind_some, Option.map_some, ArgsCmd.make]
        cases ipaddr_aton b.1 <;> rfl
  | scan =>
    rw [ArgsCmd.word, parse_scan]
    simp only [Env.atoi, ArgsCmd.format, scanf, Conv.scan]
    cases scanInt args with
    | none => rfl
    | some a => rfl
  | udp_send =>
    rw [ArgsCmd.word, parse_udp_send]
    simp only [udp_send_args, ArgsCmd.format, scanf, Conv.scan]
    cases scanInt args with
    | none => rfl
    | some a =>
      cases h : scanInt a.2 with
      | none => simp [h, ArgsCmd.refused]
      | some b =>
        cases h' : scanWord 15 b.2 with
        | none => simp [h, h', ArgsCmd.refused]
        | some c =>
          cases h'' : scanInt c.2 with
          | none => simp [h, h', h'', ArgsCmd.refused]
          | some d =>
            simp only [h, h', h'', Option.bind_eq_bind, Option.bind_some, Option.map_some, ArgsCmd.make]
            cases ipaddr_aton c.1 <;> rfl

end Parse

theorem two_ints_token (env : Env) {k p : Nat} (hk : k ≤ 65535) {t : Text} (htoken : intToken t = some (p : Int))
    (hp : p ≤ 65535) : two_ints env (decimal k ++ ' ' :: t) = some ((k : Int), (p : Int)) := by
  simp only [two_ints, scanInt_decimal k (atBreak_blank _).not_digit, scanInt_blank, scanInt_of_token htoken,
    env_int_small env hk, env_int_small env hp, Option.bind_eq_bind, Option.bind_some]
  rfl

/-- Tokens between blanks are read as they are; the blanks before the data are skipped. -/
theorem udp_send_args_token (env : Env) {k j p : Nat} (hk : k ≤ 65535) (hj : j ≤ 65535) (dst : ip_addr_t) {t : Text}
    (ht : ∀ c ∈ t, isSpace c = false) (htoken : intToken t = some (p : Int)) (hp : p ≤ 65535) (data : Text) :
    udp_send_args env (decimal k ++ ' ' :: (decimal j ++ ' ' :: (ipaddr_ntoa dst ++ ' ' :: (t ++ ' ' :: data)))) =
      some ((k : Int), (j : Int), dst, (p : Int), skipSpace data) := by
  have hne : t ≠ [] := by
    rintro rfl
    cases htoken
  simp only [udp_send_args, scanInt_decimal _ (atBreak_blank _).not_digit, scanInt_blank, scanWord_blank,
    scanWord_word (ipaddr_ntoa_ne_nil dst) (ipaddr_ntoa_length dst) (fun _ hc => not_isSpace_ntoa hc) (atBreak_blank _),
    scanInt_append hne ht (atBreak_blank data), scanInt_of_token htoken, aton_ntoa, env_int_small env hk,
    env_int_small env hj, env_int_small env hp, Option.map_some, List.nil_append, Option.bind_eq_bind, Option.bind_some,
    skipSpace_blank]
  rfl

/-! ## What was written -/

/-- The items that the format took are the complete tokens of the text, all of them but the data of UDP SEND, and
the command is made of them. -/
def Written (env : Env) (c : ArgsCmd) (args : Text) (cmd : Command) : Prop :=
  ∃ is r ts, scanf c.format args = some (is, r) ∧ readTokens c.format (tokens args) = some (is, ts) ∧
    (c ≠ .udp_send → ts = []) ∧ c.make env is r = some cmd

/-- The command is past the checks that are answered with `ERR:bad_args` and `ERR:bad_index`. -/
def Command.Passes (f : Firmware) : Command → Prop
  | .netif_add .. => True
  | .netif_del idx | .netif_set idx _ _ | .sock_close idx _ | .ping idx _ | .scan idx =>
    (cmd_netif_by_index f.board idx).isSome
  | .sock_open idx port => (1 ≤ port ∧ port ≤ 65535) ∧ (cmd_netif_by_index f.board idx).isSome
  | .udp_send idx _ _ port data =>
    (1 ≤ port ∧ port ≤ 65535) ∧ data ≠ [] ∧ (cmd_netif_by_index f.board idx).isSome
  | .netif_list | .arp_reset | .bad_args _ | .unknown => False

/-- Every conversion stops at white space or at the end, and after the last one there is only white space, or the
data of UDP SEND. -/
def StopsAtTokens (c : ArgsCmd) (args : Text) : Prop :=
  StopsAtBreaks c.format args ∧ (c ≠ .udp_send → ∀ is r, scanf c.format args = some (is, r) → skipSpace r = [])

instance (f : Firmware) (cmd : Command) : Decidable (cmd.Passes f) := by
  unfold Command.Passes
  cases cmd <;> infer_instance

/-- A command that does not pass is answered with an error, and nothing has changed. -/
theorem exec_of_not_passes {f : Firmware} (env : Env) {cmd : Command} (h : ¬ cmd.Passes f)
    (hcmd : cmd ≠ .netif_list ∧ cmd ≠ .arp_reset ∧ cmd ≠ .unknown) :
    ∃ status ∈ ["ERR:bad_args", "ERR:bad_index", "ERR:no_data"], cmd.exec f env = (f, answer cmd.name status) := by
  have hanswer {status : String} (hbody : cmd.body f env = (f, endLine cmd.name status)) :
      cmd.exec f env = (f, answer cmd.name status) := by
    rw [exec_eq hcmd.2.2, hbody]
    rfl
  have hindex {k : Int} (hask : asksFor k cmd) (hk : ¬ (cmd_netif_by_index f.board k).isSome) :
      ∃ status ∈ ["ERR:bad_args", "ERR:bad_index", "ERR:no_data"], cmd.exec f env = (f, answer cmd.name status) :=
    ⟨"ERR:bad_index", by simp, hanswer (body_bad_index (by simpa using hk) env hask)⟩
  cases cmd with
  | netif_list => exact absurd rfl hcmd.1
  | arp_reset => exact absurd rfl hcmd.2.1
  | unknown => exact absurd rfl hcmd.2.2
  | netif_add ip mask gw => exact absurd trivial h
  | bad_args name => exact ⟨"ERR:bad_args", by simp, hanswer rfl⟩
  | netif_del idx | netif_set idx _ _ | sock_close idx _ | ping idx _ | scan idx => exact hindex rfl h
  | sock_open idx port =>
    by_cases hport : 1 ≤ port ∧ port ≤ 65535
    · exact hindex ⟨rfl, hport⟩ (fun hk => h ⟨hport, hk⟩)
    · refine ⟨"ERR:bad_args", by simp, hanswer ?_⟩
      show sockOpen f idx port = (f, endLine "SOCKOPEN" "ERR:bad_args")
      rw [sockOpen, if_pos (by omega)]
      exact congrArg (Prod.mk f) (by decide)
  | udp_send idx nth dst port data =>
    by_cases hport : 1 ≤ port ∧ port ≤ 65535
    · by_cases hdata : data = []
      · refine ⟨"ERR:no_data", by simp, hanswer ?_⟩
        show udpSend f env idx nth dst port data = (f, endLine "UDPSEND" "ERR:no_data")
        rw [udpSend, if_neg (by omega), if_pos hdata]
        exact congrArg (Prod.mk f) (by decide)
      · exact hindex ⟨rfl, hport, hdata⟩ (fun hk => h ⟨hport, hdata, hk⟩)
    · refine ⟨"ERR:bad_args", by simp, hanswer ?_⟩
      show udpSend f env idx nth dst port data = (f, endLine "UDPSEND" "ERR:bad_args")
      rw [udpSend, if_pos (by omega)]
      exact congrArg (Prod.mk f) (by decide)

theorem format_ok (c : ArgsCmd) : ∀ v ∈ c.format, v.Ok := by
  cases c <;> decide

theorem by_index_zero (b : Board) : cmd_netif_by_index b 0 = none := rfl

/-- A command that passes its checks was made of what the format took. -/
theorem make_of_passes {f : Firmware} {env : Env} {c : ArgsCmd} {args : Text}
    (h : (parse env (c.word.toList ++ args)).Passes f) :
    ∃ is r, scanf c.format args = some (is, r) ∧ c.make env is r = some (parse env (c.word.toList ++ args)) := by
  rw [parse_format] at h ⊢
  cases hmake : (scanf c.format args).bind (fun r => c.make env r.1 r.2) with
  | none =>
    rw [hmake, Option.getD_none] at h
    cases c <;> simp [ArgsCmd.refused, Command.Passes, by_index_zero] at h
  | some cmd =>
    obtain ⟨⟨is, r⟩, hscan, hmk⟩ := Option.bind_eq_some_iff.mp hmake
    exact ⟨is, r, hscan, hmk⟩

/-- For every text: a command that passes its checks acts on exactly what was written if and only if its conversions
stop at the tokens. -/
theorem args_written_iff (f : Firmware) (env : Env) (c : ArgsCmd) (args : Text) :
    let cmd := parse env (c.word.toList ++ args)
    (cmd.Passes f → Written env c args cmd) ↔ (cmd.Passes f → StopsAtTokens c args) := by
  intro cmd
  refine forall_congr' fun hpass => ?_
  obtain ⟨is, r, hscan, hmake⟩ := make_of_passes hpass
  have hiff : ∀ ts, readTokens c.format (tokens args) = some (is, ts) ↔ StopsAtBreaks c.format args ∧ ts = tokens r :=
    fun ts => readTokens_iff (format_ok c) hscan
  constructor
  · rintro ⟨is', r', ts, hscan', hread, hts, -⟩
    rw [hscan] at hscan'
    cases hscan'
    obtain ⟨hstops, rfl⟩ := (hiff ts).mp hread
    refine ⟨hstops, fun hc is' r' hscan' => ?_⟩
    rw [hscan] at hscan'
    cases hscan'
    exact (tokens_eq_nil r).mp (hts hc)
  · rintro ⟨hstops, hrest⟩
    exact ⟨is, r, tokens r, hscan, (hiff _).mpr ⟨hstops, rfl⟩,
      fun hc => (tokens_eq_nil r).mpr (hrest hc is r hscan), hmake⟩

/-- The address is cut after 15 characters: the ping goes to 192.168.100.100. -/
theorem ping_cut_token :
    let cmd := parse sampleEnv ("PING ".toList ++ "1 192.168.100.1005".toList)
    cmd = .ping 1 0xc0a86464 ∧ ipaddr_aton "192.168.100.1005".toList = none ∧
      ¬ (cmd.Passes (boot (.main ethzero true)) → Written sampleEnv .ping "1 192.168.100.1005".toList cmd) := by
  refine ⟨rfl, by decide, fun h => ?_⟩
  obtain ⟨is, r, ts, hscan, hread, -⟩ := h (by decide)
  have hrest : scanf ArgsCmd.ping.format "1 192.168.100.1005".toList =
      some ([.int 1, .word "192.168.100.100".toList], "5".toList) := by decide
  rw [hrest] at hscan
  cases hscan
  have htokens : readTokens ArgsCmd.ping.format (tokens "1 192.168.100.1005".toList) =
      some ([.int 1, .word "192.168.100.1005".toList], []) := by decide
  rw [htokens] at hread
  exact absurd (Prod.mk.inj (Option.some.inj hread)).1 (by decide)

end MultiIp.Firmware

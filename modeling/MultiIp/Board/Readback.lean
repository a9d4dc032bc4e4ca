import MultiIp.Board.Arguments
import MultiIp.Board.Follow

/-!
# Addresses read back

`NETIF SET` reads an address, `NETIF LIST` prints it. A number with a leading 0
is octal, and only the last number of four is checked.
-/

namespace MultiIp.Firmware

open Board Lwip Lib Wire

/-! ## What is listed -/

/-- The three addresses in a `#NETIF` line. -/
structure Shown where
  ip : Text
  mask : Text
  gw : Text
  deriving DecidableEq

/-- The addresses in the line for the interface at position `k`. -/
def shownLine (k : Nat) (l : Text) : Option Shown :=
  match words l with
  | w :: pos :: ip :: mask :: gw :: _ => if [w, pos] = netifMark k then some ⟨ip, mask, gw⟩ else none
  | _ => none

def shownAt (out : Text) (k : Nat) : List Shown := (printedLines out).filterMap (shownLine k)

def netif.shown (nif : netif) : Shown := ⟨ipaddr_ntoa nif.ip_addr, ipaddr_ntoa nif.netmask, ipaddr_ntoa nif.gw⟩

theorem shownLine_netifText (b : Board) (n : NetifPtr) (idx k : Nat) :
    shownLine k (netifText b n idx) = if idx = k then some (netif.shown (b.net.netifs n)) else none := by
  have hmark : ["#NETIF".toList, decimal idx] = netifMark k ↔ idx = k := by
    constructor
    · intro h
      exact decimal_inj (List.cons.inj (List.cons.inj h).2).1
    · rintro rfl
      rfl
  rw [shownLine, words_netifText]
  simp only [hmark]
  rfl

theorem shownLine_sockText (b : Board) (n : NetifPtr) (idx j k : Nat) : shownLine k (sockText b n idx j) = none := by
  rw [shownLine, words_sockText]

theorem shown_netifData (b : Board) (n : NetifPtr) (idx k : Nat) :
    (netifData b n idx).filterMap (shownLine k) = if idx = k then [netif.shown (b.net.netifs n)] else [] := by
  have hsocks : ((List.range (udp_source_count_sockets b n)).map (sockText b n idx)).filterMap (shownLine k) = [] := by
    rw [List.filterMap_eq_nil_iff]
    intro l hl
    obtain ⟨j, -, rfl⟩ := List.mem_map.mp hl
    exact shownLine_sockText b n idx j k
  rw [netifData, List.filterMap_cons, shownLine_netifText, hsocks]
  split <;> rename_i h <;> simp_all

theorem shown_listData (b : Board) (ns : List NetifPtr) (idx k : Nat) :
    (listData b ns idx).filterMap (shownLine k) =
      if k < idx then [] else (ns[k - idx]?.map (fun n => netif.shown (b.net.netifs n))).toList := by
  induction ns generalizing idx with
  | nil => simp [listData]
  | cons n ns ih =>
    rw [listData, List.filterMap_append, shown_netifData, ih]
    by_cases hlt : k < idx
    · rw [if_neg (by omega), if_pos (by omega), if_pos hlt, List.nil_append]
    · rw [if_neg hlt]
      by_cases heq : idx = k
      · subst heq
        rw [if_pos rfl, if_pos (by omega), Nat.sub_self]
        rfl
      · have hsub : k - idx = k - (idx + 1) + 1 := by omega
        rw [if_neg heq, if_neg (by omega), hsub, List.getElem?_cons_succ, List.nil_append]

/-- The list has one line for each position. -/
theorem shownAt_list {f : Firmware} (h : Inv f) (k : Nat) :
    shownAt (cmd_netif_list f).2 k =
      ((cmd_netif_by_index f.board k).map (fun n => netif.shown (f.board.net.netifs n))).toList := by
  have hbegin : shownLine k "#BEGIN NETIFLIST".toList = none := rfl
  have hend : shownLine k "#END NETIFLIST OK".toList = none := by
    rw [shownLine, show words "#END NETIFLIST OK".toList = ["#END".toList, "NETIFLIST".toList, "OK".toList] by decide]
  have hindex : (if k < 1 then [] else (f.board.net.list[k - 1]?.map (fun n => netif.shown (f.board.net.netifs n))).toList) =
      ((cmd_netif_by_index f.board k).map (fun n => netif.shown (f.board.net.netifs n))).toList := by
    unfold cmd_netif_by_index
    by_cases hk : k < 1
    · rw [if_pos hk, if_pos (by omega)]
      rfl
    · have hnat : ((k : Int) - 1).toNat = k - 1 := by omega
      rw [if_neg hk, if_neg (by omega), hnat]
  rw [shownAt, printed_list h, List.cons_append, List.filterMap_cons, hbegin, List.filterMap_append, shown_listData,
    hindex, List.filterMap_cons, hend, List.filterMap_nil, List.append_nil]

/-! ## What is set -/

inductive Field
  | IP | MASK | GW
  deriving DecidableEq

def Field.word : Field → String
  | .IP => "IP"
  | .MASK => "MASK"
  | .GW => "GW"

def Field.get : Field → Shown → Text
  | .IP, s => s.ip
  | .MASK, s => s.mask
  | .GW, s => s.gw

/-- `NETIF SET <k> <field> <text>`. -/
def setLine (k : Nat) (field : Field) (text : Text) : Text :=
  "NETIF SET ".toList ++ (decimal k ++ ' ' :: (field.word.toList ++ ' ' :: text))

theorem isSpace_dotted {a b c d : Text} (ha : IsNumber a) (hb : IsNumber b) (hc : IsNumber c) (hd : IsNumber d) :
    ∀ x ∈ dotted a b c d, isSpace x = false := by
  intro x hx
  simp only [dotted, List.mem_append, List.mem_cons] at hx
  rcases hx with hx | rfl | hx | rfl | hx | rfl | hx
  · exact isSpace_of_isDigit (ha.2 x hx)
  · rfl
  · exact isSpace_of_isDigit (hb.2 x hx)
  · rfl
  · exact isSpace_of_isDigit (hc.2 x hx)
  · rfl
  · exact isSpace_of_isDigit (hd.2 x hx)

/-- The line is read as the position, the field and what `ipaddr_aton` makes of the text. -/
theorem parse_setLine (env : Env) {k : Nat} (hk : k ≤ 65535) (field : Field) {text : Text} (hne : text ≠ [])
    (hlen : text.length ≤ 15) (hspace : ∀ x ∈ text, isSpace x = false) :
    parse env (setLine k field text) =
      (ipaddr_aton text).elim (.bad_args "NETIFSET") (fun val => .netif_set k field.word.toList val) := by
  have hfield : ∀ s, scanWord 7 (field.word.toList ++ ' ' :: s) = some (field.word.toList, ' ' :: s) := by
    have hword : field.word.toList ≠ [] ∧ field.word.toList.length ≤ 7 ∧ field.word.toList.all (!isSpace ·) = true := by
      cases field <;> decide
    have hspace : ∀ x ∈ field.word.toList, isSpace x = false := by simpa using hword.2.2
    exact fun s => scanWord_word hword.1 hword.2.1 hspace (atBreak_blank s)
  have hword := scanWord_word hne hlen hspace atBreak_nil
  rw [List.append_nil] at hword
  have hargs : netif_set_args env (decimal k ++ ' ' :: (field.word.toList ++ ' ' :: text)) =
      (ipaddr_aton text).map (fun val => ((k : Int), field.word.toList, val)) := by
    simp only [netif_set_args, scanInt_decimal k (atBreak_blank _).not_digit, scanWord_blank, hfield, hword, env_int_small env hk,
      Option.bind_eq_bind, Option.bind_some]
    cases ipaddr_aton text with
    | none => rfl
    | some val => rfl
  unfold setLine
  rw [parse_netif_set, hargs]
  cases ipaddr_aton text with
  | none => rfl
  | some val => rfl

/-- The interface with one address replaced. -/
def Field.set (val : ip_addr_t) : Field → netif → netif
  | .IP, nif => { nif with ip_addr := val }
  | .MASK, nif => { nif with netmask := val }
  | .GW, nif => { nif with gw := val }

theorem Field.get_set (val : ip_addr_t) (field : Field) (nif : netif) :
    field.get (netif.shown (field.set val nif)) = ipaddr_ntoa val := by
  cases field <;> rfl

theorem Field.get_set_other (val : ip_addr_t) {field g : Field} (hg : g ≠ field) (nif : netif) :
    g.get (netif.shown (field.set val nif)) = g.get (netif.shown nif) := by
  -- `rfl` would first compare the two records, and evaluate the texts that differ.
  cases field <;> cases g <;> first | exact absurd rfl hg | simp only [Field.get, Field.set, netif.shown]

theorem netifSet_eq {f : Firmware} {k : Int} {n : NetifPtr} (hn : cmd_netif_by_index f.board k = some n) (field : Field)
    (val : ip_addr_t) : ∃ b, netifSet f k field.word.toList val = (f.setBoard b, cmd_out "#END NETIFSET OK\r\n") ∧
      b.net = f.board.net.modify n (field.set val) := by
  unfold netifSet
  rw [hn]
  dsimp only
  cases field with
  | IP => exact ⟨setIp f.board n val, if_pos rfl, netif_ip_changed_net _ (some n)⟩
  | MASK =>
    refine ⟨{ f.board with net := netif_set_netmask f.board.net n val }, ?_, rfl⟩
    exact (if_neg (by decide)).trans (if_pos rfl)
  | GW =>
    refine ⟨{ f.board with net := netif_set_gw f.board.net n val }, ?_, rfl⟩
    exact ((if_neg (by decide)).trans (if_neg (by decide))).trans (if_pos rfl)

theorem by_index_inj {f : Firmware} (h : Inv f) {j k : Int} {n : NetifPtr} (hj : cmd_netif_by_index f.board j = some n)
    (hk : cmd_netif_by_index f.board k = some n) : j = k := by
  obtain ⟨l, hl⟩ := h.board.net
  unfold cmd_netif_by_index at hj hk
  split at hj
  · cases hj
  split at hk
  · cases hk
  have heq := (List.getElem?_inj (List.getElem?_eq_some_iff.mp hj).1 hl.list_nodup).mp (hj.trans hk.symm)
  omega

/-- After the command one address of one interface is another, whatever arrives before the list is printed. -/
theorem shown_after_set {f : Firmware} (h : Inv f) (env : Env) (is : List Interrupt) {k : Nat} {n : NetifPtr}
    (hn : cmd_netif_by_index f.board k = some n) (field : Field) (val : ip_addr_t) :
    let f' := ((Command.netif_set k field.word.toList val).exec f env).1.interrupts is
    (∃ s s', shownAt (cmd_netif_list f).2 k = [s] ∧ shownAt (cmd_netif_list f').2 k = [s'] ∧
      field.get s' = ipaddr_ntoa val ∧ ∀ g ≠ field, g.get s' = g.get s) ∧
    ∀ j ≠ k, shownAt (cmd_netif_list f').2 j = shownAt (cmd_netif_list f).2 j := by
  obtain ⟨b, hset, hnet⟩ := netifSet_eq hn field val
  have hexec : ((Command.netif_set k field.word.toList val).exec f env).1 = f.setBoard b := congrArg Prod.fst hset
  have hinv := h.exec env (Command.netif_set k field.word.toList val)
  rw [hexec] at hinv ⊢
  intro f'
  have hsteady : Steady b f'.board := interrupts_steady hinv is
  have hlist : f'.board.net.list = f.board.net.list := by
    rw [hsteady.list, hnet]
    rfl
  have hindex : ∀ j : Nat, cmd_netif_by_index f'.board j = cmd_netif_by_index f.board j := by
    intro j
    unfold cmd_netif_by_index
    rw [hlist]
  have hshown : ∀ m, f'.board.net.netifs m = if m = n then field.set val (f.board.net.netifs n) else f.board.net.netifs m := by
    intro m
    rw [hsteady.netifs, hnet]
    by_cases hm : m = n
    · subst hm
      simp [Net.modify]
    · simp [Net.modify, hm]
  constructor
  · refine ⟨_, _, ?_, ?_, field.get_set val (f.board.net.netifs n), fun g hg => Field.get_set_other val hg _⟩
    · rw [shownAt_list h, hn]
      rfl
    · rw [shownAt_list (hinv.interrupts is), hindex, hn, Option.map_some, hshown, if_pos rfl]
      rfl
  · intro j hj
    rw [shownAt_list (hinv.interrupts is), shownAt_list h, hindex]
    cases hm : cmd_netif_by_index f.board j with
    | none => rfl
    | some m =>
      have hne : m ≠ n := by
        rintro rfl
        exact hj (by exact_mod_cast by_index_inj h hm hn)
      rw [Option.map_some, Option.map_some, hshown, if_neg hne]

/-! ## The round trip -/

theorem dispatch_netif_list (f : Firmware) (env : Env) : cmd_dispatch f env "NETIF LIST".toList = cmd_netif_list f :=
  if_pos rfl

/-- In every reachable state: an address of four numbers that is set is listed as these numbers, read as C does, if
the first three are at most 255, and nothing else in the list changes. A last number above 255 is refused. -/
theorem addresses_read_back (c : Boot) (es : List Event) (h : machine.Legal (boot c) es) (env env' : Env)
    (is : List Interrupt) {k : Nat} (hk : 1 ≤ k ∧ k ≤ (machine.run (boot c) es).board.net.list.length) (field : Field)
    {w x y z : Text} (hw : IsNumber w) (hx : IsNumber x) (hy : IsNumber y) (hz : IsNumber z)
    (hlen : (dotted w x y z).length ≤ 15) :
    let f := machine.run (boot c) es
    let r := cmd_dispatch f env (setLine k field (dotted w x y z))
    let before := (cmd_dispatch f env' "NETIF LIST".toList).2
    let after := (cmd_dispatch (r.1.interrupts is) env' "NETIF LIST".toList).2
    (r.2 = answer "NETIFSET" "OK" →
      (∃ s s', shownAt before k = [s] ∧ shownAt after k = [s'] ∧
        (aton_value w ≤ 255 → aton_value x ≤ 255 → aton_value y ≤ 255 → field.get s' =
          dotted (decimal (aton_value w)) (decimal (aton_value x)) (decimal (aton_value y)) (decimal (aton_value z))) ∧
        ∀ g ≠ field, g.get s' = g.get s) ∧
      ∀ j ≠ k, shownAt after j = shownAt before j) ∧
    (255 < aton_value z → r.2 = answer "NETIFSET" "ERR:bad_args") := by
  have hinv := inv_reachable c h
  generalize machine.run (boot c) es = f at hk hinv ⊢
  have hcount := list_length_lt hinv
  obtain ⟨n, hn⟩ : ∃ n, cmd_netif_by_index f.board k = some n := by
    have hlt : ((k : Int) - 1).toNat < f.board.net.list.length := by omega
    exact ⟨_, (if_neg (by omega)).trans (List.getElem?_eq_getElem hlt)⟩
  have hne : dotted w x y z ≠ [] := by
    simp [dotted]
  have hlast : UInt32.ofNat (aton_value z) > 0xff ↔ 255 < aton_value z := by
    have hdigits : z.length ≤ 9 := by
      have hw1 := List.length_pos_iff.mpr hw.1
      have hx1 := List.length_pos_iff.mpr hx.1
      have hy1 := List.length_pos_iff.mpr hy.1
      simp only [dotted, List.length_append, List.length_cons] at hlen
      omega
    have hz9 : aton_value z < 2 ^ 32 := by
      have hpow : 10 ^ z.length ≤ 10 ^ 9 := Nat.pow_le_pow_right (by decide) hdigits
      have hlt := aton_value_lt hz
      omega
    rw [gt_iff_lt, UInt32.lt_iff_toNat_lt, UInt32.toNat_ofNat_of_lt' hz9]
    rfl
  have hparse := parse_setLine env (show k ≤ 65535 by omega) field hne hlen (isSpace_dotted hw hx hy hz)
  rw [aton_dotted hw hx hy hz] at hparse
  simp only [dispatch_netif_list]
  simp only [dispatch_eq, hparse]
  by_cases hbig : 255 < aton_value z
  · rw [if_pos (hlast.mpr hbig)]
    have hreply : ∀ g : Firmware, ((Command.bad_args "NETIFSET").exec g env).2 = answer "NETIFSET" "ERR:bad_args" :=
      fun _ => rfl
    refine ⟨fun hok => ?_, fun _ => hreply f⟩
    exact absurd ((hreply f).symm.trans hok) (by decide)
  · rw [if_neg (fun h => hbig (hlast.mp h))]
    refine ⟨fun _ => ?_, fun h => absurd h hbig⟩
    obtain ⟨⟨s, s', hs, hs', hget, hother⟩, hrest⟩ := shown_after_set hinv env is hn field _
    refine ⟨⟨s, s', hs, hs', fun hw' hx' hy' => ?_, hother⟩, hrest⟩
    rw [hget]
    exact ntoa_join (by omega) (by omega) (by omega) (by omega)

theorem addresses_read_back_sample :
    let f := machine.run (boot (.main ethzero true)) []
    let r := cmd_dispatch f sampleEnv (setLine 1 .IP (dotted "10".toList "0".toList "0".toList "010".toList))
    (1 ≤ 1 ∧ 1 ≤ f.board.net.list.length) ∧ r.2 = answer "NETIFSET" "OK" ∧
      (255 < aton_value "010".toList → r.2 = answer "NETIFSET" "ERR:bad_args") :=
  ⟨by decide, by decide, (addresses_read_back (.main ethzero true) [] trivial sampleEnv sampleEnv [] (by decide) .IP
    (by decide) (by decide) (by decide) (by decide) (by decide)).2⟩

/-- 10.0.0.010 is set, and 10.0.0.8 is listed. -/
theorem leading_zero_octal :
    let r := cmd_dispatch (boot (.main ethzero true)) sampleEnv
      (setLine 1 .IP (dotted "10".toList "0".toList "0".toList "010".toList))
    r.2 = answer "NETIFSET" "OK" ∧ Nat.ofDigitChars 10 "010".toList 0 = 10 ∧
      (shownAt (cmd_dispatch r.1 sampleEnv "NETIF LIST".toList).2 1).map Shown.ip = ["10.0.0.8".toList] := by
  decide

end MultiIp.Firmware

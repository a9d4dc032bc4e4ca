import MultiIp.Board.Shelf
import MultiIp.Panel.Decode
import MultiIp.Panel.Payload

/-!
# The cards of the panel

`TmsControlPanel/Form1.cs`. A card shows one interface of the last list that was
drawn. A click on it sends a command with the positions that the card shows,
after every command that already waits. The command hits what was clicked if
the positions have not moved since the list was read.
-/

namespace MultiIp.Panel

open Lib Wire Lwip Board Firmware

/-! ## Cards -/

/-- A card, with what the list was read from: how many changes the positions had seen,
and which interface and which sockets stood there. -/
structure Card where
  info : NetifInfo
  since : Nat
  netif : NetifId
  sockets : List SockId

/-- `{n}` in an interpolated string. -/
def intText (n : Int) : Text := if n < 0 then '-' :: decimal n.natAbs else decimal n.natAbs

/-- `BuildSignature`. -/
def buildSignature (netifs : List NetifInfo) : Text :=
  ['|'].intercalate (netifs.map (fun n =>
    intText n.Index ++ ',' :: n.Ip ++ ',' :: n.Mask ++ ',' :: n.Gw ++
      ',' :: ['+'].intercalate (n.Sockets.map (fun s => intText s.Port))))

/-- What a handler of a card does. -/
inductive CardAction
  /-- `Card_DeleteRequested`. -/
  | delete
  /-- One round of the loop of `Card_EditRequested`. -/
  | edit (field value : Text)
  /-- `Card_SocketAddRequested`. -/
  | socketAdd (port : Nat)
  /-- `Card_SocketDeleteRequested` for the `j`-th chip of the card. -/
  | socketDelete (j : Nat)

/-- The command that is sent, `none` if there is none: a port out of range is not sent, and the card has no such chip. -/
def CardAction.command (n : NetifInfo) : CardAction → Option Text
  | .delete => some ("NETIF DEL ".toList ++ intText n.Index)
  | .edit field value => some ("NETIF SET ".toList ++ (intText n.Index ++ ' ' :: (field ++ ' ' :: value)))
  | .socketAdd port =>
    if port < 1 ∨ port > 65535 then none
    else some ("SOCK OPEN ".toList ++ (intText n.Index ++ ' ' :: decimal port))
  | .socketDelete j =>
    (n.Sockets[j]?).map (fun sock => "SOCK CLOSE ".toList ++ (intText n.Index ++ ' ' :: intText sock.Nth))

/-! ## The panel and the board -/

/-- A command that waits for `_cmdLock`. -/
inductive Queued
  | card (c : Card) (a : CardAction) (line : Text)
  | refresh
  | other (line : Text)

def Queued.line : Queued → Text
  | .card _ _ line => line
  | .refresh => "NETIF LIST".toList
  | .other line => line

/-- A command of a card, and the board as it was before. -/
structure Executed where
  before : Firmware
  ids : Ids
  env : Env
  card : Card
  action : CardAction
  line : Text

structure World where
  fw : Firmware
  ids : Ids
  /-- The edits that the executed commands made, the oldest first. -/
  changes : List ShelfEdit
  /-- Lists that were read, to be drawn. -/
  listings : List (List Card)
  cards : List Card
  /-- The cards whose handlers run. A handler waits for its dialog and for its commands. -/
  handlers : List Card
  queue : List Queued
  lastSignature : Text
  executed : List Executed

def World.start (c : Boot) : World where
  fw := Firmware.boot c
  ids := .none
  changes := []
  listings := []
  cards := []
  handlers := []
  queue := []
  lastSignature := []
  executed := []

inductive World.Step
  | click (i : Nat)
  /-- The handler `h` sends a command. -/
  | issue (h : Nat) (a : CardAction)
  /-- A command from elsewhere on the panel. -/
  | send (line : Text)
  | refresh
  /-- The command gets the lock, and the board executes it. -/
  | execute (i : Nat) (env : Env)
  /-- The command is given up, as when the port is closed. -/
  | giveUp (i : Nat)
  /-- The rest of `RefreshNetifsAsync`. -/
  | draw (i : Nat)
  /-- `ForceRefreshAsync` forgets the signature. -/
  | forget
  | disconnect
  | interrupt (i : Interrupt)
  | poll (id : udp_sock_id_t) (msg : Option udp_rx_msg_t)

namespace World

/-- The board goes on to `f`. -/
def advance (w : World) (f : Firmware) : World := { w with fw := f, ids := w.ids.next w.fw.board f.board }

def shelf (w : World) : List (NetifId × List SockId) := Firmware.shelf w.ids w.fw.board

/-- The cards of the answer to NETIF LIST. -/
def listing (w : World) : List Card :=
  List.zipWith (fun info s => ⟨info, w.changes.length, s.1, s.2⟩)
    (parseNetifList ⟨"NETIFLIST".toList, "OK".toList, listData w.fw.board w.fw.board.net.list 1⟩) w.shelf

def execute (w : World) (p : Queued) (env : Env) : World :=
  let w' := { w.advance (cmd_dispatch w.fw env p.line).1 with
    changes := w.changes ++ (edit w.fw.board (parse env p.line)).toList }
  match p with
  | .card c a line => { w' with executed := w.executed ++ [⟨w.fw, w.ids, env, c, a, line⟩] }
  | .refresh => { w' with listings := w.listings ++ [w.listing] }
  | .other _ => w'

def draw (w : World) (cards : List Card) : World :=
  let sig := buildSignature (cards.map (·.info))
  if sig = w.lastSignature then w else { w with lastSignature := sig, cards := cards }

def step (w : World) : Step → World
  | .click i => { w with handlers := w.handlers ++ w.cards[i]?.toList }
  | .issue h a =>
    match w.handlers[h]? with
    | some c => { w with queue := w.queue ++ ((a.command c.info).map (Queued.card c a)).toList }
    | none => w
  | .send line => { w with queue := w.queue ++ [.other line] }
  | .refresh => { w with queue := w.queue ++ [.refresh] }
  | .execute i env =>
    match w.queue[i]? with
    | some p => { w.execute p env with queue := w.queue.eraseIdx i }
    | none => w
  | .giveUp i => { w with queue := w.queue.eraseIdx i }
  | .draw i =>
    match w.listings[i]? with
    | some cards => w.draw cards
    | none => w
  | .forget => { w with lastSignature := [] }
  | .disconnect => { w with cards := [], lastSignature := [] }
  | .interrupt i => w.advance (w.fw.interrupt i)
  | .poll id msg => w.advance (w.fw.setBoard (udp_source_poll_rx w.fw.board id msg).1)

def machine : Lib.Machine World Step where
  step := step
  allowed _ _ := True

end World

/-! ## What a command hits -/

/-- The interface that the board looks up for the command. -/
def actsOn (b : Board) : Command → Option NetifPtr
  | .netif_del idx | .netif_set idx _ _ | .sock_open idx _ | .sock_close idx _ => cmd_netif_by_index b idx
  | _ => none

/-- The slot that `udp_source_remove_listener` closes for SOCK CLOSE. -/
def closedSlot (b : Board) : Command → Option SlotIdx
  | .sock_close idx nth => do
    let n ← cmd_netif_by_index b idx
    let sock ← nthSocket b n nth
    resolve b sock.socket_id
  | _ => none

/-- The command was refused, or it hit the interface of the card and, for a chip, the socket of the chip. -/
def Executed.Right (x : Executed) : Prop :=
  endsInError (cmd_dispatch x.before x.env x.line).2 ∨
  (∃ n, actsOn x.before.board (parse x.env x.line) = some n ∧ x.ids.netif n = x.card.netif) ∧
    ∀ j, x.action = .socketDelete j → ∃ s, closedSlot x.before.board (parse x.env x.line) = some s ∧
      x.card.sockets[j]? = some (x.ids.socket s)

/-! ## The condition -/

/-- The position of the interface, counted from 0. -/
def Card.place (c : Card) : Nat := (c.info.Index - 1).toNat

/-- The edits since the list of the card was read left the clicked interface, or the clicked socket, where it was. -/
def StillThere (changes : List ShelfEdit) (c : Card) : CardAction → Prop
  | .socketDelete j => ShelfEdit.innerTrack (changes.drop c.since) (c.place, j) = some (c.place, j)
  | _ => ShelfEdit.outerTrack (changes.drop c.since) c.place = some c.place

instance (changes : List ShelfEdit) (c : Card) : (a : CardAction) → Decidable (StillThere changes c a)
  | .delete | .edit _ _ | .socketAdd _ =>
    inferInstanceAs (Decidable (ShelfEdit.outerTrack (changes.drop c.since) c.place = some c.place))
  | .socketDelete j =>
    inferInstanceAs (Decidable (ShelfEdit.innerTrack (changes.drop c.since) (c.place, j) = some (c.place, j)))

/-- Nothing stands at the position now. -/
def Missing (b : Board) : Command → Prop
  | .sock_close idx nth => ∀ n ∈ cmd_netif_by_index b idx, nthSocket b n nth = none
  | c => actsOn b c = none

instance (b : Board) : (c : Command) → Decidable (Missing b c)
  | .sock_close idx nth => inferInstanceAs (Decidable (∀ n ∈ cmd_netif_by_index b idx, nthSocket b n nth = none))
  | .netif_list | .netif_add _ _ _ | .netif_del _ | .netif_set _ _ _ | .sock_open _ _ | .ping _ _ | .scan _ | .arp_reset
  | .udp_send _ _ _ _ _ | .bad_args _ | .unknown => inferInstanceAs (Decidable (actsOn b _ = none))

def Queued.InPlace (w : World) (env : Env) : Queued → Prop
  | .card c a line => StillThere w.changes c a ∨ Missing w.fw.board (parse env line)
  | .refresh | .other _ => True

instance (w : World) (env : Env) : (p : Queued) → Decidable (p.InPlace w env)
  | .card c a line => inferInstanceAs (Decidable (StillThere w.changes c a ∨ Missing w.fw.board (parse env line)))
  | .refresh | .other _ => isTrue trivial

def InPlace (w : World) : World.Step → Prop
  | .execute i env => ∀ p ∈ w.queue[i]?, p.InPlace w env
  | _ => True

/-- Runs in which every command of a card is executed in place. -/
def World.steadyMachine : Lib.Machine World World.Step where
  step := World.step
  allowed := InPlace

instance (w : World) : (a : World.Step) → Decidable (World.steadyMachine.allowed w a)
  | .execute i env => inferInstanceAs (Decidable (∀ p ∈ w.queue[i]?, p.InPlace w env))
  | .click _ | .issue _ _ | .send _ | .refresh | .giveUp _ | .draw _ | .forget | .disconnect | .interrupt _ | .poll _ _ =>
    isTrue trivial

/-! ## Cards follow the list -/

/-- Wherever the edits since its list moved what the card shows, there it stands on the shelf. -/
structure Traced (changes : List ShelfEdit) (shelf : List (NetifId × List SockId)) (c : Card) : Prop where
  since : c.since ≤ changes.length
  index : c.info.Index = ((c.place + 1 : Nat) : Int)
  small : c.place < 1000
  netif : ∀ k, ShelfEdit.outerTrack (changes.drop c.since) c.place = some k → ShelfEdit.Holds shelf k c.netif
  chip : ∀ j sock, c.info.Sockets[j]? = some sock → sock.Nth = ((j + 1 : Nat) : Int) ∧ j < 1000 ∧
    ∃ id, c.sockets[j]? = some id ∧ ∀ kj, ShelfEdit.innerTrack (changes.drop c.since) (c.place, j) = some kj →
      ShelfEdit.HoldsItem shelf kj c.netif id

/-- A command makes its edit, and the cards follow. -/
theorem Traced.changed {changes : List ShelfEdit} {s s' : List (NetifId × List SockId)} {c : Card} (h : Traced changes s c)
    {e : Option ShelfEdit} (he : Changes e s s') : Traced (changes ++ e.toList) s' c := by
  cases e with
  | none =>
    obtain rfl : s' = s := he
    rwa [Option.toList_none, List.append_nil]
  | some e =>
    have hdrop : (changes ++ [e]).drop c.since = changes.drop c.since ++ [e] := List.drop_append_of_le_length h.since
    refine ⟨by have := h.since; simp only [Option.toList_some, List.length_append]; omega, h.index, h.small,
      fun k hk => ?_, fun j sock hj => ?_⟩
    · rw [Option.toList_some, hdrop, ShelfEdit.outerTrack_concat] at hk
      obtain ⟨k₀, hk₀, hmove⟩ := Option.bind_eq_some_iff.mp hk
      exact he.holds hmove (h.netif k₀ hk₀)
    · obtain ⟨hnth, hlt, id, hid, hchip⟩ := h.chip j sock hj
      refine ⟨hnth, hlt, id, hid, fun kj hkj => ?_⟩
      rw [Option.toList_some, hdrop, ShelfEdit.innerTrack_concat] at hkj
      obtain ⟨kj₀, hkj₀, hmove⟩ := Option.bind_eq_some_iff.mp hkj
      exact he.holdsItem hmove (hchip kj₀ hkj₀)

/-- The card of the interface at position `k`. -/
def cardOf (w : World) (k : Nat) (n : NetifPtr) : Card where
  info := shownNetif w.fw.board n (k + 1)
  since := w.changes.length
  netif := w.ids.netif n
  sockets := (socketsOn w.fw.board n).map w.ids.socket

theorem listing_eq {w : World} (h : Inv w.fw) : w.listing = w.fw.board.net.list.mapIdx (cardOf w) := by
  rw [World.listing, parse_list _ (list_length_lt h), shownNetifs, World.shelf, Firmware.shelf]
  refine List.ext_getElem (by simp) fun k h₁ h₂ => ?_
  simp only [List.getElem_zipWith, List.getElem_mapIdx, List.getElem_map]
  rfl

/-- A new list shows what stands on the shelf. -/
theorem listing_traced {w : World} (h : Inv w.fw) : ∀ c ∈ w.listing, Traced w.changes w.shelf c := by
  intro c hc
  rw [listing_eq h] at hc
  obtain ⟨k, hk, rfl⟩ := List.mem_mapIdx.mp hc
  have hplace : (cardOf w k w.fw.board.net.list[k]).place = k := by
    simp [Card.place, cardOf, shownNetif]
  have hlen := list_length_lt h
  have hshelf : w.shelf[k]? = some (entry w.ids w.fw.board w.fw.board.net.list[k]) := by
    simp [World.shelf, Firmware.shelf, hk]
  have hnone : w.changes.drop (cardOf w k w.fw.board.net.list[k]).since = [] := List.drop_length
  refine ⟨Nat.le_refl _, by rw [hplace]; rfl, by omega, fun j hj => ?_, fun j sock hj => ?_⟩
  · rw [hnone, hplace] at hj
    obtain rfl := Option.some.inj hj
    exact ⟨_, hshelf⟩
  · obtain ⟨hlt, rfl⟩ := List.getElem?_eq_some_iff.mp hj
    have hcount := count_le w.fw.board w.fw.board.net.list[k]
    have hsock : j < (socketsOn w.fw.board w.fw.board.net.list[k]).length := by
      simpa [cardOf, shownNetif, shownSockets] using hlt
    have hid : ((socketsOn w.fw.board w.fw.board.net.list[k]).map w.ids.socket)[j]? =
        some (w.ids.socket (socketsOn w.fw.board w.fw.board.net.list[k])[j]) := by
      rw [List.getElem?_map, List.getElem?_eq_getElem hsock]
      rfl
    refine ⟨?_, ?_, _, hid, fun kj hkj => ?_⟩
    · simp [cardOf, shownNetif, shownSockets]
    · unfold udp_source_count_sockets at hcount
      omega
    · rw [hnone, hplace] at hkj
      obtain rfl := Option.some.inj hkj
      exact ⟨_, hshelf, hid⟩

/-! ## How the board reads the commands -/

theorem intText_ofNat (n : Nat) : intText n = decimal n := by
  rw [intText, if_neg (by omega), Int.natAbs_natCast]

section

variable (env : Env) {k : Nat} (hk : k ≤ 65535)
include hk

theorem parse_delete : parse env ("NETIF DEL ".toList ++ decimal k) = .netif_del k := by
  simp only [parse_netif_del, Env.atoi, scanInt_of_token (intToken_decimal k), env_int_small env hk]

/-- Whatever the field and the value are, the index is read. -/
theorem parse_edit (rest : Text) :
    parse env ("NETIF SET ".toList ++ (decimal k ++ ' ' :: rest)) = .bad_args "NETIFSET" ∨
    ∃ field val, parse env ("NETIF SET ".toList ++ (decimal k ++ ' ' :: rest)) = .netif_set k field val := by
  have hargs : netif_set_args env (decimal k ++ ' ' :: rest) = none ∨
      ∃ field val, netif_set_args env (decimal k ++ ' ' :: rest) = some ((k : Int), field, val) := by
    simp only [netif_set_args, scanInt_decimal k (atBreak_blank rest).not_digit, Option.bind_eq_bind, Option.bind_some,
      env_int_small env hk]
    rcases scanWord 7 (' ' :: rest) with _ | ⟨field, s⟩
    · exact Or.inl rfl
    · rw [Option.bind_some]
      rcases scanWord 15 s with _ | ⟨val_s, t⟩
      · exact Or.inl rfl
      · rw [Option.bind_some]
        rcases ipaddr_aton val_s with _ | val
        · exact Or.inl rfl
        · exact Or.inr ⟨field, val, rfl⟩
  rw [parse_netif_set]
  rcases hargs with hargs | ⟨field, val, hargs⟩
  · exact Or.inl (by rw [hargs]; rfl)
  · exact Or.inr ⟨field, val, by rw [hargs]; rfl⟩

theorem parse_socketAdd {port : Nat} (hport : port ≤ 65535) :
    parse env ("SOCK OPEN ".toList ++ (decimal k ++ ' ' :: decimal port)) = .sock_open k port := by
  rw [parse_sock_open, two_ints_token env hk (intToken_decimal _) hport]
  rfl

theorem parse_socketDelete {j : Nat} (hj : j ≤ 65535) :
    parse env ("SOCK CLOSE ".toList ++ (decimal k ++ ' ' :: decimal j)) = .sock_close k j := by
  rw [parse_sock_close, two_ints_token env hk (intToken_decimal _) hj]
  rfl

end

/-- What the board reads from the command of a card: the positions that the card shows. -/
def ReadsAs (c : Card) (a : CardAction) (cmd : Command) : Prop :=
  match a with
  | .delete => cmd = .netif_del ((c.place + 1 : Nat) : Int)
  | .edit _ _ => cmd = .bad_args "NETIFSET" ∨ ∃ field val, cmd = .netif_set ((c.place + 1 : Nat) : Int) field val
  | .socketAdd _ => ∃ port : Nat, (1 ≤ port ∧ port ≤ 65535) ∧ cmd = .sock_open ((c.place + 1 : Nat) : Int) port
  | .socketDelete j => cmd = .sock_close ((c.place + 1 : Nat) : Int) ((j + 1 : Nat) : Int)

theorem Traced.reads {changes : List ShelfEdit} {s : List (NetifId × List SockId)} {c : Card} (h : Traced changes s c)
    {a : CardAction} {line : Text} (hl : a.command c.info = some line) (env : Env) : ReadsAs c a (parse env line) := by
  have hsmall := h.small
  have hk : c.place + 1 ≤ 65535 := by omega
  have hindex : intText c.info.Index = decimal (c.place + 1) := by rw [h.index, intText_ofNat]
  cases a with
  | delete =>
    obtain rfl := Option.some.inj hl
    rw [hindex]
    exact parse_delete env hk
  | edit field value =>
    obtain rfl := Option.some.inj hl
    rw [hindex]
    exact parse_edit env hk (field ++ ' ' :: value)
  | socketAdd port =>
    simp only [CardAction.command] at hl
    split at hl
    · cases hl
    · rename_i hrange
      obtain rfl := Option.some.inj hl
      rw [hindex]
      exact ⟨port, by omega, parse_socketAdd env hk (by omega)⟩
  | socketDelete j =>
    obtain ⟨sock, hsock, rfl⟩ := Option.map_eq_some_iff.mp hl
    obtain ⟨hnth, hj, -⟩ := h.chip j sock hsock
    rw [hindex, hnth, intText_ofNat]
    exact parse_socketDelete env hk (by omega)

/-! ## A command in place -/

theorem error_answer (name : String) {status : String} (reason : Text) (hname : ' ' ∉ name.toList)
    (hs : status.toList = "ERR:".toList ++ reason) (hr : ' ' ∉ reason) : endsInError (answer name status) := by
  refine Or.inr ⟨beginLine name, name.toList, reason, ?_, hname, hr⟩
  delta answer endLine
  rw [hs]
  simp

theorem bad_index_refused {f : Firmware} {env : Env} {line : Text} {cmd : Command} (hc : parse env line = cmd) {k : Int}
    (hask : asksFor k cmd) (hk : cmd_netif_by_index f.board k = none) :
    endsInError (cmd_dispatch f env line).2 := by
  have hne : cmd ≠ .unknown := by
    rintro rfl
    exact hask
  have hname : ' ' ∉ cmd.name.toList := by
    cases cmd with
    | netif_list | netif_add _ _ _ | arp_reset | bad_args _ | unknown => exact hask.elim
    | _ =>
      simp only [Command.name]
      decide
  rw [dispatch_body f env hc hne, body_bad_index hk env hask]
  exact error_answer cmd.name "bad_index".toList hname rfl (by decide)

section

variable {w : World} {c : Card} {a : CardAction} {line : Text} {env : Env}

/-- Nothing at the position: the board answers with an error. -/
theorem missing_refused (hread : ReadsAs c a (parse env line)) (hm : Missing w.fw.board (parse env line)) :
    endsInError (cmd_dispatch w.fw env line).2 := by
  cases a with
  | delete =>
    rw [show parse env line = _ from hread] at hm
    exact bad_index_refused hread rfl hm
  | edit field value =>
    rcases hread with hread | ⟨f, v, hread⟩
    · rw [dispatch_body w.fw env hread (by simp)]
      exact error_answer "NETIFSET" "bad_args".toList (by decide) rfl (by decide)
    · rw [hread] at hm
      exact bad_index_refused hread rfl hm
  | socketAdd port =>
    obtain ⟨p, hp, hread⟩ := hread
    rw [hread] at hm
    exact bad_index_refused hread ⟨rfl, by omega⟩ hm
  | socketDelete j =>
    rw [show parse env line = _ from hread] at hm
    cases hn : cmd_netif_by_index w.fw.board ((c.place + 1 : Nat) : Int) with
    | none => exact bad_index_refused hread rfl hn
    | some n =>
      rw [(no_socket hn (hm n hn)).1 env line hread]
      exact error_answer "SOCKCLOSE" "bad_socket".toList (by decide) rfl (by decide)

theorem by_index_place {b : Board} {k : Nat} {n : NetifPtr} (h : b.net.list[k]? = some n) :
    cmd_netif_by_index b ((k + 1 : Nat) : Int) = some n := by
  rw [Nat.add_comm, by_index_succ, h]

/-- The clicked interface, or the clicked socket, stands where the card shows it: the command hits it. -/
theorem there_right (ht : Traced w.changes w.shelf c) (hl : a.command c.info = some line)
    (hthere : StillThere w.changes c a) : Executed.Right ⟨w.fw, w.ids, env, c, a, line⟩ := by
  have hread := ht.reads hl env
  unfold Executed.Right
  dsimp only
  have hnetif : ∀ {cmd : Command}, parse env line = cmd → ShelfEdit.outerTrack (w.changes.drop c.since) c.place = some c.place →
      actsOn w.fw.board cmd = cmd_netif_by_index w.fw.board ((c.place + 1 : Nat) : Int) →
      ∃ n, actsOn w.fw.board (parse env line) = some n ∧ w.ids.netif n = c.netif := by
    intro cmd hc htrack hacts
    obtain ⟨n, hn, hid⟩ := holds_netif (ht.netif _ htrack)
    exact ⟨n, by rw [hc, hacts, by_index_place hn], hid⟩
  cases a with
  | delete => exact Or.inr ⟨hnetif hread hthere rfl, fun j hj => by cases hj⟩
  | edit field value =>
    rcases hread with hread | ⟨f, v, hread⟩
    · refine Or.inl (missing_refused (c := c) (a := .edit field value) (Or.inl hread) ?_)
      rw [hread]
      rfl
    · exact Or.inr ⟨hnetif hread hthere rfl, fun j hj => by cases hj⟩
  | socketAdd port =>
    obtain ⟨p, -, hread⟩ := hread
    exact Or.inr ⟨hnetif hread hthere rfl, fun j hj => by cases hj⟩
  | socketDelete j =>
    obtain ⟨sock, hsock, -⟩ := Option.map_eq_some_iff.mp hl
    obtain ⟨-, -, id, hid, hchip⟩ := ht.chip j sock hsock
    obtain ⟨n, i, hn, hnid, hi, hsid⟩ := holds_socket (hchip _ hthere)
    have hread : parse env line = .sock_close ((c.place + 1 : Nat) : Int) ((j + 1 : Nat) : Int) := hread
    have hlt : j < udp_source_count_sockets w.fw.board n := (List.getElem?_eq_some_iff.mp hi).1
    obtain ⟨i', hi', hres⟩ := nthSocket_slot (nthSocket_of_lt w.fw.board hlt)
    have hsame : i' = i := by
      rw [show (((j + 1 : Nat) : Int) - 1).toNat = j by omega, hi] at hi'
      exact (Option.some.inj hi').symm
    have hclosed : closedSlot w.fw.board (parse env line) = some i := by
      rw [hread]
      simp only [closedSlot, by_index_place hn, nthSocket_of_lt w.fw.board hlt, Option.bind_eq_bind, Option.bind_some]
      rw [hres, hsame]
    refine Or.inr ⟨⟨n, ?_, hnid⟩, fun j' hj' => ⟨i, hclosed, ?_⟩⟩
    · rw [hread]
      exact by_index_place hn
    · obtain rfl : j = j' := by injection hj'
      rw [hid, hsid]

end

/-! ## Runs -/

namespace World

/-- Every card that can still send a command follows the list, and what was sent hit what was clicked. -/
structure Inv (w : World) : Prop where
  fw : Firmware.Inv w.fw
  listings : ∀ cards ∈ w.listings, ∀ c ∈ cards, Traced w.changes w.shelf c
  cards : ∀ c ∈ w.cards, Traced w.changes w.shelf c
  handlers : ∀ c ∈ w.handlers, Traced w.changes w.shelf c
  queue : ∀ c a line, Queued.card c a line ∈ w.queue → Traced w.changes w.shelf c ∧ a.command c.info = some line
  executed : ∀ x ∈ w.executed, x.Right

theorem start_inv (c : Boot) : (start c).Inv where
  fw := Firmware.boot_inv c
  listings _ h := by cases h
  cards _ h := by cases h
  handlers _ h := by cases h
  queue _ _ _ h := by cases h
  executed _ h := by cases h

section

variable {w : World} (h : w.Inv)
include h

/-- The board goes on, with an edit of the positions if there is one. -/
theorem Inv.advance {f : Firmware} (hf : Firmware.Inv f) {e : Option ShelfEdit}
    (he : Changes e w.shelf (w.advance f).shelf) :
    Inv { w.advance f with changes := w.changes ++ e.toList } where
  fw := hf
  listings cards hc c hmem := (h.listings cards hc c hmem).changed he
  cards c hc := (h.cards c hc).changed he
  handlers c hc := (h.handlers c hc).changed he
  queue c a line hq := ⟨(h.queue c a line hq).1.changed he, (h.queue c a line hq).2⟩
  executed := h.executed

theorem Inv.advance_steady {f : Firmware} (hf : Firmware.Inv f) (hs : (w.advance f).shelf = w.shelf) :
    (w.advance f).Inv := by
  have hstay := h.advance (e := none) hf hs
  rwa [Option.toList_none, List.append_nil] at hstay

theorem Inv.eraseIdx (i : Nat) : Inv { w with queue := w.queue.eraseIdx i } :=
  { h with queue := fun c a line hq => h.queue c a line (List.mem_of_mem_eraseIdx hq) }

theorem Inv.enqueue {p : Queued} (hp : ∀ c a line, p ≠ .card c a line) : Inv { w with queue := w.queue ++ [p] } :=
  { h with
    queue := by
      intro c a line hq
      rcases List.mem_append.mp hq with hq | hq
      · exact h.queue c a line hq
      · exact absurd (List.mem_singleton.mp hq).symm (hp c a line) }

theorem Inv.click (i : Nat) : (w.step (.click i)).Inv :=
  { h with
    handlers := by
      intro c hc
      rcases List.mem_append.mp hc with hc | hc
      · exact h.handlers c hc
      · exact h.cards c (List.mem_of_getElem? (Option.mem_toList.mp hc)) }

theorem Inv.issue (i : Nat) (a : CardAction) : (w.step (.issue i a)).Inv := by
  simp only [World.step]
  split
  · rename_i c hc
    refine { h with queue := ?_ }
    intro c' a' line hq
    rcases List.mem_append.mp hq with hq | hq
    · exact h.queue c' a' line hq
    · obtain ⟨t, ht, heq⟩ := Option.map_eq_some_iff.mp (Option.mem_toList.mp hq)
      cases heq
      exact ⟨h.handlers c (List.mem_of_getElem? hc), ht⟩
  · exact h

theorem Inv.drawn (i : Nat) : (w.step (.draw i)).Inv := by
  simp only [World.step]
  split
  · rename_i cards hc
    unfold World.draw
    dsimp only
    split
    · exact h
    · exact { h with cards := h.listings cards (List.mem_of_getElem? hc) }
  · exact h

/-- A command is executed. The one condition is on the commands of cards. -/
theorem Inv.execute (p : Queued) (env : Env) (hp : ∀ c a line, p = .card c a line →
    (Traced w.changes w.shelf c ∧ a.command c.info = some line) ∧
      (StillThere w.changes c a ∨ Missing w.fw.board (parse env line))) : (w.execute p env).Inv := by
  have hboard : cmd_dispatch w.fw env p.line = (parse env p.line).exec w.fw env := dispatch_eq w.fw env p.line
  have hedit := exec_shelf w.ids h.fw env (parse env p.line)
  rw [← hboard] at hedit
  have hnext := h.advance (h.fw.dispatch env p.line) hedit
  cases p with
  | card c a line =>
    obtain ⟨⟨ht, hl⟩, hplace⟩ := hp c a line rfl
    refine { hnext with executed := ?_ }
    intro x hx
    rcases List.mem_append.mp hx with hx | hx
    · exact h.executed x hx
    · obtain rfl := List.mem_singleton.mp hx
      rcases hplace with hthere | hmissing
      · exact there_right ht hl hthere
      · exact Or.inl (missing_refused (ht.reads hl env) hmissing)
  | refresh =>
    refine { hnext with listings := ?_ }
    intro cards hc
    rcases List.mem_append.mp hc with hc | hc
    · exact hnext.listings cards hc
    · obtain rfl := List.mem_singleton.mp hc
      exact fun c hmem => (listing_traced h.fw c hmem).changed hedit
  | other line => exact hnext

omit h in
theorem execute_queue (p : Queued) (env : Env) : (w.execute p env).queue = w.queue := by
  cases p <;> rfl

theorem Inv.step (a : Step) (ha : InPlace w a) : (w.step a).Inv := by
  cases a with
  | click i => exact h.click i
  | issue i a => exact h.issue i a
  | send line => exact h.enqueue (by simp)
  | refresh => exact h.enqueue (by simp)
  | execute i env =>
    simp only [World.step]
    split
    · rename_i p hp
      have hdone := h.execute p env (by
        rintro c a line rfl
        exact ⟨h.queue c a line (List.mem_of_getElem? hp), ha _ hp⟩)
      refine { hdone with queue := fun c a line hq => hdone.queue c a line ?_ }
      rw [execute_queue]
      exact List.mem_of_mem_eraseIdx hq
    · exact h
  | giveUp i => exact h.eraseIdx i
  | draw i => exact h.drawn i
  | forget => exact { h with }
  | disconnect => exact { h with cards := by simp [World.step] }
  | interrupt i => exact h.advance_steady (h.fw.interrupt i) (shelf_steady (interrupt_steady h.fw i))
  | poll id msg =>
    refine h.advance_steady (h.fw.call (.poll_rx id msg) (fun n hn => by cases hn)) ?_
    rcases poll_rx_spec w.fw.board id msg with hpoll | ⟨i, -, -, hpoll⟩
    · exact shelf_same (by rw [setBoard, hpoll]) (fun n => by rw [setBoard, hpoll])
    · refine shelf_same (by rw [setBoard, hpoll]; rfl) (fun n => socketsOn_congr fun j => ?_)
      rw [setBoard, hpoll]
      by_cases hj : j = i
      · subst hj
        simp [onNetif, modifySlot, readSlot]
      · simp [onNetif, modifySlot, hj]

end

end World

/-- In every run in which the commands of cards are executed in place, each is refused or hits what was clicked. -/
theorem clicks_hit (c : Boot) (as : List World.Step) (h : World.steadyMachine.Legal (.start c) as) :
    ∀ x ∈ (World.machine.run (.start c) as).executed, x.Right :=
  (Lib.Machine.run_invariant (M := World.steadyMachine) (P := World.Inv) (fun _ a hw ha => hw.step a ha)
    (World.start_inv c) h).executed

/-- An interface with two sockets; on its card the second socket is deleted, then the interface. -/
def patientRun : List World.Step :=
  [.send "NETIF ADD 10.0.0.20 255.255.255.0 10.0.0.1".toList, .execute 0 sampleEnv,
    .send "SOCK OPEN 1 5000".toList, .execute 0 sampleEnv, .send "SOCK OPEN 1 6000".toList, .execute 0 sampleEnv,
    .refresh, .execute 0 sampleEnv, .draw 0, .click 0, .issue 0 (.socketDelete 1), .issue 0 .delete,
    .execute 0 sampleEnv, .execute 0 sampleEnv]

theorem clicks_hit_sample :
    World.steadyMachine.Legal (.start (.main ethzero true)) patientRun ∧
    (World.machine.run (.start (.main ethzero true)) patientRun).executed.length = 2 ∧
    ∀ x ∈ (World.machine.run (.start (.main ethzero true)) patientRun).executed, x.Right := by
  have hlegal : World.steadyMachine.Legal (.start (.main ethzero true)) patientRun := by decide +kernel
  exact ⟨hlegal, by decide +kernel, clicks_hit _ _ hlegal⟩

/-- The interface is deleted while another one waits to be added. -/
def hastyRun : List World.Step :=
  [.send "NETIF ADD 10.0.0.20 255.255.255.0 10.0.0.1".toList, .execute 0 sampleEnv,
    .refresh, .execute 0 sampleEnv, .draw 0, .click 0,
    .send "NETIF ADD 10.0.0.30 255.255.255.0 10.0.0.1".toList, .issue 0 .delete,
    .execute 0 sampleEnv, .execute 0 sampleEnv]

/-- The new interface is at position 1 when NETIF DEL 1 is executed, and is removed in place of the other. -/
theorem hasty_click_misses :
    ∃ x ∈ (World.machine.run (.start (.main ethzero true)) hastyRun).executed, ¬ x.Right := by
  have hmap : (World.machine.run (.start (.main ethzero true)) hastyRun).executed.map (fun x =>
      ((actsOn x.before.board (parse x.env x.line)).map x.ids.netif, x.card.netif,
        (cmd_dispatch x.before x.env x.line).2)) =
      [(some (.alias_list 1, 1), (.alias_list 0, 1), "#BEGIN NETIFDEL\r\n#END NETIFDEL".toList ++ " OK\r\n".toList)] := by
    decide +kernel
  obtain ⟨x, hx, heq⟩ := List.map_eq_singleton_iff.mp hmap
  simp only [Prod.mk.injEq] at heq
  obtain ⟨hacts, hcard, hout⟩ := heq
  refine ⟨x, by rw [hx]; exact List.mem_singleton_self x, ?_⟩
  rintro (herr | ⟨⟨n, hn, hid⟩, -⟩)
  · rw [hout] at herr
    exact not_endsInError_ok _ herr
  · rw [hn, Option.map_some, hid, hcard] at hacts
    exact absurd (Option.some.inj hacts) (by decide)

end MultiIp.Panel

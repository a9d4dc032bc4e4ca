import MultiIp.Board.Addressed
import MultiIp.Board.Follow
import MultiIp.Board.Refusals
import MultiIp.Lib.Places

/-!
# What a command does to the positions

A command names an interface by its position on the list and a socket by its
position on the interface. `edit` is what a command does to these positions,
and `exec_shelf` proves it of the interfaces and sockets that stand there.
-/

namespace MultiIp.Firmware

open Board Lwip Lib

/-! ## Which interface it is -/

/-- An entry of the pool is used again for another interface, and a slot for another socket; the number tells them apart. -/
abbrev NetifId := NetifPtr × Nat
abbrev SockId := SlotIdx × Nat

/-- How often each interface was added and each slot opened. -/
structure Ids where
  born : NetifPtr → Nat
  opened : SlotIdx → Nat

def Ids.none : Ids := ⟨fun _ => 0, fun _ => 0⟩

/-- The counts after a step from `b` to `b'`. -/
def Ids.next (g : Ids) (b b' : Board) : Ids where
  born n := if n ∉ b.net.list ∧ n ∈ b'.net.list then g.born n + 1 else g.born n
  opened i := if (b.s_listeners i).in_use = false ∧ (b'.s_listeners i).in_use = true then g.opened i + 1 else g.opened i

def Ids.netif (g : Ids) (n : NetifPtr) : NetifId := (n, g.born n)

def Ids.socket (g : Ids) (i : SlotIdx) : SockId := (i, g.opened i)

/-- The interface with its sockets in the order of their slots. -/
def entry (g : Ids) (b : Board) (n : NetifPtr) : NetifId × List SockId := (g.netif n, (socketsOn b n).map g.socket)

/-- The entries in the order of the list. -/
def shelf (g : Ids) (b : Board) : List (NetifId × List SockId) := b.net.list.map (entry g b)

/-! ## What a command changes -/

/-- How many sockets of the interface come before the first free slot. -/
def openPlace (b : Board) (n : NetifPtr) : Nat :=
  ((List.finRange UDP_MAX_LISTENERS).takeWhile (fun i => (b.s_listeners i).in_use)).countP (onNetif b n)

def edit (b : Board) : Command → Option ShelfEdit
  | .netif_add _ _ _ => if ∃ i, b.used i = false then some (.outer (.insert 0)) else none
  | .netif_del idx =>
    match cmd_netif_by_index b idx with
    | some (.alias_list _) => some (.outer (.remove (idx - 1).toNat))
    | _ => none
  | .sock_open idx port =>
    if port < 1 ∨ port > 65535 then none
    else
      match cmd_netif_by_index b idx with
      | some n =>
        if (udp_source_add_listener b (some n) (UInt16.ofNat port.toNat) (some 0)).2.1 = .ERR_OK then
          some (.inner (idx - 1).toNat (.insert (openPlace b n)))
        else none
      | none => none
  | .sock_close idx nth =>
    match cmd_netif_by_index b idx with
    | some n => (nthSocket b n nth).map (fun _ => .inner (idx - 1).toNat (.remove (nth - 1).toNat))
    | none => none
  | _ => none

/-- The shelf after a command that makes the edit, if it makes one. -/
def Changes (e : Option ShelfEdit) (s s' : List (NetifId × List SockId)) : Prop :=
  match e with
  | none => s' = s
  | some e => e.Makes s s'

/-! ## Entries that stay -/

section

variable {b b' : Board} {g : Ids}

theorem next_netif {n : NetifPtr} (h : n ∈ b.net.list) : (g.next b b').netif n = g.netif n := by
  simp [Ids.netif, Ids.next, h]

theorem next_socket {i : SlotIdx} (h : (b.s_listeners i).in_use = true) : (g.next b b').socket i = g.socket i := by
  simp [Ids.socket, Ids.next, h]

theorem next_sockets {l : List SlotIdx} (h : ∀ i ∈ l, (b.s_listeners i).in_use = true) :
    l.map (g.next b b').socket = l.map g.socket :=
  List.map_congr_left fun i hi => next_socket (h i hi)

theorem mem_socketsOn {n : NetifPtr} {i : SlotIdx} : i ∈ socketsOn b n ↔ onNetif b n i = true := by
  simp [socketsOn]

theorem socketsOn_in_use {n : NetifPtr} : ∀ i ∈ socketsOn b n, (b.s_listeners i).in_use = true := by
  intro i hi
  exact onNetif_in_use (mem_socketsOn.mp hi)

theorem entries_same {l : List NetifPtr} (hl : ∀ n ∈ l, n ∈ b.net.list) (hs : ∀ n ∈ l, socketsOn b' n = socketsOn b n) :
    l.map (entry (g.next b b') b') = l.map (entry g b) := by
  refine List.map_congr_left fun n hn => ?_
  rw [entry, next_netif (hl n hn), hs n hn, next_sockets socketsOn_in_use, entry]

theorem shelf_same (hl : b'.net.list = b.net.list) (hs : ∀ n, socketsOn b' n = socketsOn b n) :
    shelf (g.next b b') b' = shelf g b := by
  rw [shelf, hl]
  exact entries_same (fun n hn => hn) (fun n _ => hs n)

theorem socketsOn_congr {n : NetifPtr} (h : ∀ i, onNetif b' n i = onNetif b n i) : socketsOn b' n = socketsOn b n :=
  List.filter_congr fun i _ => h i

theorem socketsOn_slots (h : b'.s_listeners = b.s_listeners) (n : NetifPtr) : socketsOn b' n = socketsOn b n :=
  socketsOn_congr fun i => onNetif_congr (by rw [h])

theorem shelf_steady (h : Steady b b') : shelf (g.next b b') b' = shelf g b := by
  refine shelf_same h.list fun n => socketsOn_congr fun i => ?_
  obtain ⟨hu, -, hn⟩ := h.slots i
  simp [onNetif, hu, hn]

theorem by_index_around (h : Board.Inv b) {idx : Int} {n : NetifPtr} (hn : cmd_netif_by_index b idx = some n) :
    ∃ l r, b.net.list = l ++ n :: r ∧ l.length = (idx - 1).toNat ∧ ∀ m ∈ l ++ r, m ∈ b.net.list ∧ m ≠ n := by
  obtain ⟨ns, hns⟩ := h.net
  unfold cmd_netif_by_index at hn
  split at hn
  · cases hn
  · obtain ⟨hlt, rfl⟩ := List.getElem?_eq_some_iff.mp hn
    have hcut : b.net.list = b.net.list.take (idx - 1).toNat ++
        b.net.list[(idx - 1).toNat] :: b.net.list.drop ((idx - 1).toNat + 1) := by
      rw [List.getElem_cons_drop, List.take_append_drop]
    have hnd := hns.list_nodup
    rw [hcut] at hnd
    obtain ⟨hnot, -⟩ := List.nodup_cons.mp (List.nodup_middle.mp hnd)
    refine ⟨_, _, hcut, ?_, fun m hm => ⟨?_, ?_⟩⟩
    · rw [List.length_take]
      omega
    · rcases List.mem_append.mp hm with hm | hm
      · exact List.mem_of_mem_take hm
      · exact List.mem_of_mem_drop hm
    · rintro rfl
      exact hnot hm

end

/-! ## Adding and removing an interface -/

section

variable {b : Board} (g : Ids)

theorem add_shelf (h : Board.Inv b) (ip mask gw : ip_addr_t) (alloc : Bool) :
    Changes (edit b (.netif_add ip mask gw)) (shelf g b)
      (shelf (g.next b (net_if_add b ip mask gw alloc).1) (net_if_add b ip mask gw alloc).1) := by
  obtain ⟨l, hl⟩ := h.net
  have hslots := (net_if_add_sockets b ip mask gw alloc).2
  rw [net_if_add_fst] at hslots ⊢
  rcases lwIPAliasAdd_spec hl ip mask gw alloc with ⟨hfull, hr⟩ | ⟨i, hi, hr⟩
  · rw [edit, if_neg (by simp [hfull]), hr]
    exact shelf_same rfl fun _ => rfl
  · rw [edit, if_pos ⟨i, hi⟩]
    have hinv := hl.aliasAdd hi ip mask gw
    have hlist : (lwIPAliasAdd b ip mask gw alloc).1.net.list = .alias_list i :: b.net.list := by
      rw [hr, hl.list_eq]
      exact hinv.list_eq
    generalize (lwIPAliasAdd b ip mask gw alloc).1 = b' at hslots hlist
    have hrest := entries_same (g := g) (fun n (hn : n ∈ b.net.list) => hn) (fun n _ => socketsOn_slots hslots n)
    refine ⟨[], entry (g.next b b') b' (.alias_list i), shelf g b, rfl, ?_, rfl⟩
    rw [List.nil_append, shelf, hlist, List.map_cons, hrest]
    rfl

theorem net_if_remove_list (h : Board.Inv b) {i : Fin maxAliasNetif} (hn : .alias_list i ∈ b.net.list) :
    (net_if_remove b (some (.alias_list i))).1.net.list = b.net.list.erase (.alias_list i) := by
  obtain ⟨l, hl⟩ := h.net
  have hnet := remove_all_net b (some (.alias_list i))
  have hused : (udp_source_remove_all_on_netif b (some (.alias_list i))).used i = true := by
    rw [(remove_all_same b (some (.alias_list i))).used]
    exact (hl.alias_mem i).mp (hl.list_eq ▸ hn)
  rw [hl.list_eq] at hn ⊢
  obtain ⟨next', head', hrem, hchain⟩ := netif_remove_spec hl hn (by simp)
  unfold net_if_remove
  dsimp only
  rw [if_neg (by simp)]
  simp only [lwIPAliasRemove, hused, if_true, hnet, hrem]
  exact walk_eq hchain (netifPtr_length_le (chain_nodup hchain))

theorem net_if_remove_onNetif {n m : NetifPtr} (hm : m ≠ n) (i : SlotIdx) :
    onNetif (net_if_remove b (some n)).1 m i = onNetif b m i := by
  unfold net_if_remove
  dsimp only
  split
  · rfl
  · have hslot : (lwIPAliasRemove (udp_source_remove_all_on_netif b (some n)) n).s_listeners i =
        if onNetif b n i then closeSlot (b.s_listeners i) else b.s_listeners i := by
      rw [(lwIPAliasRemove_sockets _ _).2, remove_all_slots]
    cases hon : onNetif b n i with
    | false => exact onNetif_congr (by rw [hslot, hon]; rfl)
    | true =>
      -- The slot was on `n`, so it is not on `m` before or after.
      have hnet : (b.s_listeners i).netif ≠ some m := by
        rw [(onNetif_iff.mp hon).1]
        simpa using hm.symm
      rw [hon, if_pos rfl] at hslot
      simp [onNetif, hslot, closeSlot, hnet]

theorem del_shelf (h : Board.Inv b) {idx : Int} {n : NetifPtr} (hn : cmd_netif_by_index b idx = some n) :
    Changes (edit b (.netif_del idx)) (shelf g b)
      (shelf (g.next b (net_if_remove b (some n)).1) (net_if_remove b (some n)).1) := by
  rw [edit, hn]
  cases n with
  | phys => exact shelf_same rfl fun _ => rfl
  | alias_list i =>
    have hlist := net_if_remove_list h (by_index_mem hn)
    obtain ⟨l, r, hsplit, hlen, haround⟩ := by_index_around h hn
    have hstay : (l ++ .alias_list i :: r).erase (.alias_list i) = l ++ r := by
      rw [List.erase_append_right _ (fun hm => (haround _ (List.mem_append_left _ hm)).2 rfl), List.erase_cons_head]
    rw [hsplit, hstay] at hlist
    refine ⟨l.map (entry g b), entry g b (.alias_list i), r.map (entry g b), ?_, ?_, by rw [List.length_map, hlen]⟩
    · rw [shelf, hsplit, List.map_append, List.map_cons]
    · rw [shelf, hlist, ← List.map_append]
      exact entries_same (fun m hm => (haround m hm).1)
        (fun m hm => socketsOn_congr (net_if_remove_onNetif (haround m hm).2))

/-! ## Opening and closing a socket -/

/-- An edit of the sockets of one interface that leaves the other interfaces alone. -/
theorem inner_shelf (h : Board.Inv b) {b' : Board} (hlist : b'.net.list = b.net.list) {idx : Int} {n : NetifPtr}
    (hn : cmd_netif_by_index b idx = some n) (hother : ∀ m, m ≠ n → socketsOn b' m = socketsOn b m) {e : Edit}
    (he : e.Makes ((socketsOn b n).map g.socket) ((socketsOn b' n).map (g.next b b').socket)) :
    (ShelfEdit.inner (idx - 1).toNat e).Makes (shelf g b) (shelf (g.next b b') b') := by
  obtain ⟨l, r, hsplit, hlen, haround⟩ := by_index_around h hn
  have hpart : ∀ t : List NetifPtr, (∀ m ∈ t, m ∈ l ++ r) → t.map (entry (g.next b b') b') = t.map (entry g b) :=
    fun t ht => entries_same (fun m hm => (haround m (ht m hm)).1) (fun m hm => hother m (haround m (ht m hm)).2)
  refine ⟨l.map (entry g b), g.netif n, _, _, r.map (entry g b), ?_, ?_, by rw [List.length_map, hlen], he⟩
  · rw [shelf, hsplit, List.map_append, List.map_cons, entry]
  · rw [shelf, hlist, hsplit, List.map_append, List.map_cons, hpart l (fun m hm => List.mem_append_left _ hm),
      hpart r (fun m hm => List.mem_append_right _ hm), entry, next_netif (by_index_mem hn)]

/-- What a successful call did: the first free slot is the new socket. -/
theorem add_listener_opened {n : NetifPtr} {port : UInt16} {cell : udp_sock_id_t}
    (hok : (udp_source_add_listener b (some n) port (some cell)).2.1 = .ERR_OK) :
    ∃ i p, (List.finRange UDP_MAX_LISTENERS).find? (fun i => !(b.s_listeners i).in_use) = some i ∧
      (udp_source_add_listener b (some n) port (some cell)).1.net = b.net ∧
      (udp_source_add_listener b (some n) port (some cell)).1.s_listeners =
        Function.update b.s_listeners i (openSlot (b.s_listeners i) p n) := by
  unfold udp_source_add_listener at hok ⊢
  dsimp only at hok ⊢
  split at hok
  · rename_i i hfind
    rcases open_slot_slots b i n port cell with ⟨herr, -⟩ | ⟨p, -, -, hs⟩
    · exact absurd hok herr
    · exact ⟨i, p, hfind, open_slot_net b i n port cell, hs⟩
  · cases hok

theorem open_shelf (h : Board.Inv b) {idx : Int} {n : NetifPtr} (hn : cmd_netif_by_index b idx = some n) {port : UInt16}
    {cell : udp_sock_id_t} (hok : (udp_source_add_listener b (some n) port (some cell)).2.1 = .ERR_OK) :
    (ShelfEdit.inner (idx - 1).toNat (.insert (openPlace b n))).Makes (shelf g b)
      (shelf (g.next b (udp_source_add_listener b (some n) port (some cell)).1)
        (udp_source_add_listener b (some n) port (some cell)).1) := by
  obtain ⟨i, p, hfind, hnet, hslots⟩ := add_listener_opened hok
  generalize (udp_source_add_listener b (some n) port (some cell)).1 = b' at hnet hslots
  obtain ⟨hfree, pre, post, hcut, hpre⟩ := List.find?_eq_some_iff_append.mp hfind
  have hfree : (b.s_listeners i).in_use = false := by simpa using hfree
  have hpre : ∀ j ∈ pre, (b.s_listeners j).in_use = true := by simpa using hpre
  have hnew : (b'.s_listeners i).in_use = true ∧ (b'.s_listeners i).netif = some n := by
    rw [hslots, Function.update_self]
    exact ⟨rfl, rfl⟩
  have hkeep : ∀ j, j ≠ i → ∀ m, onNetif b' m j = onNetif b m j :=
    fun j hj m => onNetif_congr (by rw [hslots, Function.update_of_ne hj])
  have hoff : ∀ m, onNetif b m i = false := by simp [onNetif, hfree]
  refine inner_shelf g h (by rw [hnet]) hn (fun m hm => socketsOn_congr fun j => ?_) ?_
  · by_cases hj : j = i
    · rw [hj, hoff]
      simp [onNetif, hnew, hm.symm]
    · exact hkeep j hj m
  · -- Before and after the new slot nothing changes.
    have hnd : (pre ++ i :: post).Nodup := hcut ▸ List.nodup_finRange _
    obtain ⟨hnot, -⟩ := List.nodup_cons.mp (List.nodup_middle.mp hnd)
    have hpart : ∀ t : List SlotIdx, (∀ j ∈ t, j ∈ pre ++ post) → t.filter (onNetif b' n) = t.filter (onNetif b n) := by
      intro t ht
      refine List.filter_congr fun j hj => hkeep j ?_ n
      rintro rfl
      exact hnot (ht j hj)
    have hbefore : socketsOn b n = pre.filter (onNetif b n) ++ post.filter (onNetif b n) := by
      rw [socketsOn, hcut, List.filter_append, List.filter_cons_of_neg (by simp [hoff])]
    have hafter : socketsOn b' n = pre.filter (onNetif b n) ++ i :: post.filter (onNetif b n) := by
      rw [socketsOn, hcut, List.filter_append, List.filter_cons_of_pos (by simp [onNetif, hnew]),
        hpart pre (fun j hj => List.mem_append_left _ hj), hpart post (fun j hj => List.mem_append_right _ hj)]
    have hids : ∀ t : List SlotIdx, (t.filter (onNetif b n)).map (g.next b b').socket = (t.filter (onNetif b n)).map g.socket :=
      fun t => next_sockets fun j hj => onNetif_in_use (List.mem_filter.mp hj).2
    have hplace : openPlace b n = (pre.filter (onNetif b n)).length := by
      rw [openPlace, hcut, List.takeWhile_append_of_pos hpre, List.takeWhile_cons_of_neg (by simp [hfree]),
        List.append_nil, List.countP_eq_length_filter]
    refine ⟨(pre.filter (onNetif b n)).map g.socket, (g.next b b').socket i, (post.filter (onNetif b n)).map g.socket,
      by rw [hbefore, List.map_append], ?_, by rw [List.length_map, hplace]⟩
    rw [hafter, List.map_append, List.map_cons, hids, hids]

theorem close_shelf (h : Board.Inv b) {idx : Int} {n : NetifPtr} (hn : cmd_netif_by_index b idx = some n) {j : Nat}
    {i : SlotIdx} (hj : (socketsOn b n)[j]? = some i) :
    (ShelfEdit.inner (idx - 1).toNat (.remove j)).Makes (shelf g b)
      (shelf (g.next b (remove_slot b i)) (remove_slot b i)) := by
  have hon : onNetif b n i = true := mem_socketsOn.mp (List.mem_of_getElem? hj)
  have hclosed : ∀ m, onNetif (remove_slot b i) m i = false := by
    intro m
    rw [onNetif, remove_slot_slots, Function.update_self]
    simp [closeSlot]
  have hkeep : ∀ k, k ≠ i → ∀ m, onNetif (remove_slot b i) m k = onNetif b m k :=
    fun k hk m => onNetif_congr (by rw [remove_slot_slots, Function.update_of_ne hk])
  refine inner_shelf g h (by rw [remove_slot_net]) hn (fun m hm => socketsOn_congr fun k => ?_) ?_
  · by_cases hk : k = i
    · rw [hk, hclosed]
      simp [onNetif, (onNetif_iff.mp hon).1, hm.symm]
    · exact hkeep k hk m
  · obtain ⟨hlt, hget⟩ := List.getElem?_eq_some_iff.mp hj
    have hcut : socketsOn b n = (socketsOn b n).take j ++ i :: (socketsOn b n).drop (j + 1) := by
      rw [← hget, List.getElem_cons_drop, List.take_append_drop]
    have hnd : (socketsOn b n).Nodup := (List.nodup_finRange _).filter _
    have hafter : socketsOn (remove_slot b i) n = (socketsOn b n).erase i := by
      rw [hnd.erase_eq_filter, socketsOn, socketsOn, List.filter_filter]
      refine List.filter_congr fun k _ => ?_
      by_cases hk : k = i
      · rw [hk, hclosed]
        simp
      · rw [hkeep k hk]
        simp [hk]
    have hids : (socketsOn (remove_slot b i) n).map (g.next b (remove_slot b i)).socket =
        ((socketsOn b n).erase i).map g.socket := by
      rw [hafter]
      exact next_sockets fun k hk => onNetif_in_use (mem_socketsOn.mp (List.mem_of_mem_erase hk))
    have hrest : (socketsOn b n).erase i = (socketsOn b n).take j ++ (socketsOn b n).drop (j + 1) := by
      rw [hcut] at hnd
      obtain ⟨hnot, -⟩ := List.nodup_cons.mp (List.nodup_middle.mp hnd)
      conv_lhs => rw [hcut]
      rw [List.erase_append_right _ (fun hm => hnot (List.mem_append_left _ hm)), List.erase_cons_head]
    refine ⟨((socketsOn b n).take j).map g.socket, g.socket i, ((socketsOn b n).drop (j + 1)).map g.socket, ?_, ?_, ?_⟩
    · rw [← List.map_cons, ← List.map_append, ← hcut]
    · rw [hids, hrest, List.map_append]
    · rw [List.length_map, List.length_take]
      omega

end

/-! ## Commands -/

section

variable {f : Firmware} (g : Ids)

theorem netifAdd_shelf (h : Inv f) (env : Env) (ip mask gw : ip_addr_t) :
    Changes (edit f.board (.netif_add ip mask gw)) (shelf g f.board)
      (shelf (g.next f.board (netifAdd f env ip mask gw).1.board) (netifAdd f env ip mask gw).1.board) := by
  have hadd := add_shelf g h.board ip mask gw env.alloc
  unfold netifAdd
  dsimp only
  split <;> exact hadd

theorem netifDel_shelf (h : Inv f) (idx : Int) :
    Changes (edit f.board (.netif_del idx)) (shelf g f.board)
      (shelf (g.next f.board (netifDel f idx).1.board) (netifDel f idx).1.board) := by
  unfold netifDel
  cases hn : cmd_netif_by_index f.board idx with
  | none =>
    rw [edit, hn]
    exact shelf_same rfl fun _ => rfl
  | some n =>
    have hdel := del_shelf g h.board hn
    dsimp only
    split <;> exact hdel

theorem netifSet_shelf (idx : Int) (field : Text) (val : ip_addr_t) :
    shelf (g.next f.board (netifSet f idx field val).1.board) (netifSet f idx field val).1.board = shelf g f.board := by
  unfold netifSet
  split
  · exact shelf_same rfl fun _ => rfl
  · rename_i n _
    split
    · refine shelf_same ?_ (socketsOn_slots (setIp_slots f.board n val))
      show (setIp f.board n val).net.list = f.board.net.list
      rw [setIp, netif_ip_changed_net]
      rfl
    · split
      · exact shelf_same rfl fun _ => rfl
      · split <;> exact shelf_same rfl fun _ => rfl

theorem sockOpen_shelf (h : Inv f) (idx port : Int) :
    Changes (edit f.board (.sock_open idx port)) (shelf g f.board)
      (shelf (g.next f.board (sockOpen f idx port).1.board) (sockOpen f idx port).1.board) := by
  obtain ⟨l, hl⟩ := h.board.registry
  simp only [edit, sockOpen]
  split
  · exact shelf_same rfl fun _ => rfl
  · cases hn : cmd_netif_by_index f.board idx with
    | none => exact shelf_same rfl fun _ => rfl
    | some n =>
      dsimp only
      split
      · rename_i hok
        rw [if_neg (not_not.mpr hok)]
        exact open_shelf g h.board hn hok
      · rename_i herr
        have hsame := add_listener_failed hl n (UInt16.ofNat port.toNat) 0 herr
        exact shelf_same hsame.netif_list (socketsOn_slots hsame.slots)

theorem nthSocket_slot {b : Board} {n : NetifPtr} {nth : Int} {sock : udp_netif_socket_info_t}
    (h : nthSocket b n nth = some sock) :
    ∃ i, (socketsOn b n)[(nth - 1).toNat]? = some i ∧ resolve b sock.socket_id = some i := by
  have hcount := count_le b n
  unfold nthSocket at h
  split at h
  · cases h
  · rename_i hrange
    obtain rfl := Option.some.inj h
    have hlt : (nth - 1).toNat < (socketsOn b n).length := by
      unfold udp_source_count_sockets at hrange
      omega
    have hbyte : (UInt8.ofNat (nth - 1).toNat).toNat = (nth - 1).toNat := by
      rw [UInt8.toNat_ofNat']
      unfold udp_source_count_sockets at hcount
      omega
    refine ⟨(socketsOn b n)[(nth - 1).toNat], List.getElem?_eq_getElem hlt, ?_⟩
    have hon := mem_socketsOn.mp (List.getElem_mem hlt)
    rw [udp_source_get_socket, hbyte, List.getElem?_eq_getElem hlt]
    dsimp only
    rw [resolve_make_id, if_pos ⟨onNetif_in_use hon, rfl⟩]

theorem sockClose_shelf (h : Inv f) (idx nth : Int) :
    Changes (edit f.board (.sock_close idx nth)) (shelf g f.board)
      (shelf (g.next f.board (sockClose f idx nth).1.board) (sockClose f idx nth).1.board) := by
  simp only [edit, sockClose]
  cases hn : cmd_netif_by_index f.board idx with
  | none => exact shelf_same rfl fun _ => rfl
  | some n =>
    dsimp only
    cases hsock : nthSocket f.board n nth with
    | none => exact shelf_same rfl fun _ => rfl
    | some sock =>
      obtain ⟨i, hi, hres⟩ := nthSocket_slot hsock
      dsimp only [udp_source_remove_listener]
      rw [hres]
      exact close_shelf g h.board hn hi

theorem holds_netif {b : Board} {g : Ids} {k : Nat} {id : NetifId} (h : ShelfEdit.Holds (shelf g b) k id) :
    ∃ n, b.net.list[k]? = some n ∧ g.netif n = id := by
  obtain ⟨xs, hxs⟩ := h
  rw [shelf, List.getElem?_map] at hxs
  obtain ⟨n, hn, hentry⟩ := Option.map_eq_some_iff.mp hxs
  exact ⟨n, hn, congrArg Prod.fst hentry⟩

theorem holds_socket {b : Board} {g : Ids} {k j : Nat} {id : NetifId} {sid : SockId}
    (h : ShelfEdit.HoldsItem (shelf g b) (k, j) id sid) :
    ∃ n i, b.net.list[k]? = some n ∧ g.netif n = id ∧ (socketsOn b n)[j]? = some i ∧ g.socket i = sid := by
  obtain ⟨xs, hxs, hj⟩ := h
  rw [shelf, List.getElem?_map] at hxs
  obtain ⟨n, hn, hentry⟩ := Option.map_eq_some_iff.mp hxs
  obtain rfl : (socketsOn b n).map g.socket = xs := congrArg Prod.snd hentry
  obtain ⟨i, hi, hid⟩ := Option.map_eq_some_iff.mp (List.getElem?_map.symm.trans hj)
  exact ⟨n, i, hn, congrArg Prod.fst hentry, hi, hid⟩

/-- A command makes its edit and no other change to who stands where. -/
theorem exec_shelf (h : Inv f) (env : Env) (c : Command) :
    Changes (edit f.board c) (shelf g f.board) (shelf (g.next f.board (c.exec f env).1.board) (c.exec f env).1.board) := by
  cases c with
  | netif_list => exact shelf_same rfl fun _ => rfl
  | netif_add ip mask gw => exact netifAdd_shelf g h env ip mask gw
  | netif_del idx => exact netifDel_shelf g h idx
  | netif_set idx field val => exact netifSet_shelf g idx field val
  | sock_open idx port => exact sockOpen_shelf g h idx port
  | sock_close idx nth => exact sockClose_shelf g h idx nth
  | ping idx target => exact shelf_steady (pingOnce_steady h env idx target)
  | scan idx => exact shelf_steady (scanOn_steady h env idx)
  | arp_reset => exact shelf_same rfl fun _ => rfl
  | udp_send idx nth dst port data => exact shelf_steady (udpSend_steady h env idx nth dst port data)
  | bad_args name => exact shelf_same rfl fun _ => rfl
  | unknown => exact shelf_same rfl fun _ => rfl

end

end MultiIp.Firmware

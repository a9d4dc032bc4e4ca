import MultiIp.Panel.Cards

/-!
# What the operator has selected

`FillNetifCombos` fills the lists of interfaces and of sockets again and selects
the entry with the number that was selected before. The number is a position,
and the positions move when the board's lists change.
-/

namespace MultiIp.Panel

open Lib Wire Lwip Board Firmware

/-! ## Lists to select from -/

/-- A `ComboBox` of the form; no selection is the index -1. -/
structure ComboBox (α : Type*) where
  Items : List α
  SelectedIndex : Option Nat

namespace ComboBox

variable {α : Type*}

def SelectedItem (c : ComboBox α) : Option α := c.SelectedIndex.bind (fun i => c.Items[i]?)

/-- The items are replaced, and the one with the number of the selected item is selected, or the first. -/
def refill (key : α → Int) (c : ComboBox α) (items : List α) : ComboBox α :=
  let previous := (c.SelectedItem.map key).getD (-1)
  { Items := items
    SelectedIndex :=
      if items.isEmpty then none else some ((items.findIdx? (fun x => key x = previous)).getD 0) }

def select (c : ComboBox α) (i : Nat) : ComboBox α :=
  if i < c.Items.length then { c with SelectedIndex := some i } else c

end ComboBox

/-- `_netifs` and the lists of the form. -/
structure Selectors where
  netifs : List NetifInfo
  cmbTermNetif : ComboBox NetifInfo
  cmbSendNetif : ComboBox NetifInfo
  cmbSendSocket : ComboBox SocketInfo

namespace Selectors

def fillOneNetifCombo (netifs : List NetifInfo) (cmb : ComboBox NetifInfo) : ComboBox NetifInfo :=
  cmb.refill NetifInfo.Index netifs

def fillSocketCombo (p : Selectors) : Selectors :=
  let n := p.cmbSendNetif.SelectedItem
  { p with cmbSendSocket := p.cmbSendSocket.refill SocketInfo.Nth ((n.map NetifInfo.Sockets).getD []) }

def fillNetifCombos (p : Selectors) : Selectors :=
  let p := { p with cmbTermNetif := fillOneNetifCombo p.netifs p.cmbTermNetif }
  let p := { p with cmbSendNetif := fillOneNetifCombo p.netifs p.cmbSendNetif }
  -- Setting the index raises `SelectedIndexChanged` of the sender's list.
  let p := if p.netifs = [] then p else p.fillSocketCombo
  p.fillSocketCombo

/-- A new list was read. -/
def refresh (p : Selectors) (netifs : List NetifInfo) : Selectors := fillNetifCombos { p with netifs := netifs }

end Selectors

/-- What the operator does to the selection. -/
inductive Pick
  | termNetif (i : Nat)
  | sendNetif (i : Nat)
  | sendSocket (i : Nat)

def Selectors.pick (p : Selectors) : Pick → Selectors
  | .termNetif i => { p with cmbTermNetif := p.cmbTermNetif.select i }
  | .sendNetif i => Selectors.fillSocketCombo { p with cmbSendNetif := p.cmbSendNetif.select i }
  | .sendSocket i => { p with cmbSendSocket := p.cmbSendSocket.select i }

/-! ## What an entry stands for -/

/-- The board, and which interface and which socket each one is. -/
structure Config where
  fw : Firmware
  ids : Ids

namespace Config

def boot (c : Boot) : Config := ⟨Firmware.boot c, .none⟩

def machine : Lib.Machine Config Event where
  step c e := ⟨Firmware.step c.fw e, c.ids.next c.fw.board (Firmware.step c.fw e).board⟩
  allowed c e := Firmware.allowed c.fw e

instance (c : Config) (e : Event) : Decidable (machine.allowed c e) :=
  inferInstanceAs (Decidable (Firmware.machine.allowed c.fw e))

def shelf (c : Config) : List (NetifId × List SockId) := Firmware.shelf c.ids c.fw.board

/-- The interface that PING and UDP SEND with the number of the entry leave from. -/
def netifOf (c : Config) (n : NetifInfo) : Option NetifId := (cmd_netif_by_index c.fw.board n.Index).map c.ids.netif

/-- The socket that UDP SEND with the numbers of the entries leaves from. -/
def socketOf (c : Config) (n : NetifInfo) (s : SocketInfo) : Option SockId := do
  let m ← cmd_netif_by_index c.fw.board n.Index
  let sock ← nthSocket c.fw.board m s.Nth
  let i ← resolve c.fw.board sock.socket_id
  return c.ids.socket i

/-- The interface is on the board's list. -/
def Has (c : Config) (id : NetifId) : Prop := ∃ p, ShelfEdit.Holds c.shelf p id

/-- The socket is open on the interface. -/
def HasSocket (c : Config) (id : NetifId) (sid : SockId) : Prop := ∃ pj, ShelfEdit.HoldsItem c.shelf pj id sid

end Config

/-! ## Keeping the selection -/

/-- If the interface of the entry `s` is still there, the entry `s'` stands for it. -/
def KeepsNetif (old new : Config) (s s' : Option NetifInfo) : Prop :=
  ∀ n id, s = some n → old.netifOf n = some id → new.Has id → ∃ n', s' = some n' ∧ new.netifOf n' = some id

/-- If the selected socket is still open on the selected interface, it is selected again. -/
def KeepsSocket (old new : Config) (before after : Selectors) : Prop :=
  ∀ n s id sid, before.cmbSendNetif.SelectedItem = some n → before.cmbSendSocket.SelectedItem = some s →
    old.netifOf n = some id → old.socketOf n s = some sid → new.HasSocket id sid →
    ∃ n' s', after.cmbSendNetif.SelectedItem = some n' ∧ after.cmbSendSocket.SelectedItem = some s' ∧
      new.netifOf n' = some id ∧ new.socketOf n' s' = some sid

/-- `p'` is where a box goes back to from `p`: the same position, or the head of a list that does not reach to `p`. -/
def InPlaceAt (count p p' : Nat) : Prop := p' = p ∨ count ≤ p ∧ p' = 0

def NetifInPlace (old new : Config) (p : Nat) : Prop :=
  ∀ id p', ShelfEdit.Holds old.shelf p id → ShelfEdit.Holds new.shelf p' id → InPlaceAt new.shelf.length p p'

def SocketInPlace (old new : Config) (p j : Nat) : Prop :=
  ∀ id sid p' ids j', ShelfEdit.HoldsItem old.shelf (p, j) id sid → new.shelf[p']? = some (id, ids) →
    ids[j']? = some sid → InPlaceAt new.shelf.length p p' ∧ InPlaceAt ids.length j j'

/-! ## Filling a list again -/

def Numbered {α : Type*} (key : α → Int) (items : List α) : Prop :=
  ∀ i x, items[i]? = some x → key x = ((i + 1 : Nat) : Int)

def ComboBox.Within {α : Type*} (c : ComboBox α) : Prop := ∀ p, c.SelectedIndex = some p → p < c.Items.length

section

variable {α : Type*} {key : α → Int} {items : List α} {c : ComboBox α}

theorem findIdx_numbered (h : Numbered key items) (p : Nat) :
    items.findIdx? (fun x => key x = ((p + 1 : Nat) : Int)) = if p < items.length then some p else none := by
  have hkey : ∀ i (hi : i < items.length), key items[i] = ((i + 1 : Nat) : Int) :=
    fun i hi => h i _ (List.getElem?_eq_getElem hi)
  split
  · rename_i hp
    refine List.findIdx?_eq_some_iff_getElem.mpr ⟨hp, by simp [hkey], fun j hj => ?_⟩
    simp only [hkey, decide_eq_true_eq]
    omega
  · rename_i hp
    refine List.findIdx?_eq_none_iff.mpr fun x hx => ?_
    obtain ⟨i, hi, rfl⟩ := List.getElem_of_mem hx
    simp only [hkey, decide_eq_false_iff_not]
    omega

theorem selectedItem_of (h : c.SelectedIndex = some p) : c.SelectedItem = c.Items[p]? := by
  rw [ComboBox.SelectedItem, h]
  rfl

theorem selected_at (h : c.Within) {p : Nat} (hp : c.SelectedIndex = some p) :
    ∃ x, c.SelectedItem = some x ∧ c.Items[p]? = some x :=
  ⟨_, (selectedItem_of hp).trans (List.getElem?_eq_getElem (h p hp)), List.getElem?_eq_getElem (h p hp)⟩

/-- The box goes back to the position that was selected, or to the first if there is none. -/
theorem refill_index (hc : Numbered key c.Items) {p : Nat} (h : c.SelectedIndex = some p) (hp : p < c.Items.length)
    (hitems : Numbered key items) (hne : items ≠ []) :
    (c.refill key items).SelectedIndex = some (if p < items.length then p else 0) := by
  have hprev : (c.SelectedItem.map key).getD (-1) = ((p + 1 : Nat) : Int) := by
    rw [selectedItem_of h, List.getElem?_eq_getElem hp]
    exact hc p _ (List.getElem?_eq_getElem hp)
  have hempty : items.isEmpty = false := by simpa using hne
  simp only [ComboBox.refill, hprev, hempty, Bool.false_eq_true, if_false, findIdx_numbered hitems]
  split <;> rfl

theorem refill_within : (c.refill key items).Within := by
  intro p hp
  simp only [ComboBox.refill] at hp ⊢
  split at hp
  · cases hp
  · rename_i hne
    obtain rfl := Option.some.inj hp
    cases hfind : items.findIdx? (fun x => key x = (c.SelectedItem.map key).getD (-1)) with
    | none => simpa [List.length_pos_iff] using hne
    | some i => exact (List.findIdx?_eq_some_iff_getElem.mp hfind).1

theorem select_within (h : c.Within) (i : Nat) : (c.select i).Within := by
  intro p hp
  unfold ComboBox.select at hp ⊢
  split
  · rename_i hi
    rw [if_pos hi] at hp
    obtain rfl := Option.some.inj hp
    exact hi
  · rename_i hi
    rw [if_neg hi] at hp
    exact h p hp

theorem select_items (i : Nat) : (c.select i).Items = c.Items := by
  unfold ComboBox.select
  split <;> rfl

theorem refill_refill (hitems : Numbered key items) : (c.refill key items).refill key items = c.refill key items := by
  by_cases hne : items = []
  · subst hne
    rfl
  · obtain ⟨p, hp⟩ : ∃ p, (c.refill key items).SelectedIndex = some p := by
      simp only [ComboBox.refill, if_neg (show ¬ items.isEmpty = true by simpa using hne)]
      exact ⟨_, rfl⟩
    have hlt : p < items.length := refill_within p hp
    have hagain := refill_index (c := c.refill key items) hitems hp hlt hitems hne
    rw [if_pos hlt] at hagain
    rw [ComboBox.refill, ComboBox.mk.injEq]
    refine ⟨rfl, ?_⟩
    rw [hp]
    exact hagain

theorem inPlaceAt_iff {count p p' : Nat} (h : p' < count) : InPlaceAt count p p' ↔ p' = if p < count then p else 0 := by
  unfold InPlaceAt
  split <;> omega

end

/-! ## The numbers of the lists -/

theorem shownNetifs_numbered (b : Board) : Numbered NetifInfo.Index (shownNetifs b) := by
  intro k n hn
  rw [shownNetifs, List.getElem?_mapIdx] at hn
  obtain ⟨m, -, rfl⟩ := Option.map_eq_some_iff.mp hn
  rfl

theorem shownNetif_at {b : Board} {p : Nat} {n : NetifInfo} (hn : (shownNetifs b)[p]? = some n) :
    ∃ m, b.net.list[p]? = some m ∧ n = shownNetif b m (p + 1) := by
  rw [shownNetifs, List.getElem?_mapIdx] at hn
  obtain ⟨m, hm, rfl⟩ := Option.map_eq_some_iff.mp hn
  exact ⟨m, hm, rfl⟩

theorem sockets_numbered {b : Board} {n : Option NetifInfo} (h : ∀ m, n = some m → m ∈ shownNetifs b) :
    Numbered SocketInfo.Nth ((n.map NetifInfo.Sockets).getD []) := by
  cases n with
  | none =>
    intro j s hs
    cases hs
  | some m =>
    obtain ⟨k, hk⟩ := List.getElem?_of_mem (h m rfl)
    obtain ⟨ptr, -, rfl⟩ := shownNetif_at hk
    intro j s hs
    have hs : (shownSockets b ptr)[j]? = some s := hs
    rw [shownSockets, List.getElem?_mapIdx] at hs
    obtain ⟨i, -, rfl⟩ := Option.map_eq_some_iff.mp hs
    rfl

namespace Config

variable {c : Config}

/-- The entry at a position stands for the interface at that position. -/
theorem netifOf_iff {p : Nat} {n : NetifInfo} (hn : (shownNetifs c.fw.board)[p]? = some n) {id : NetifId} :
    c.netifOf n = some id ↔ ShelfEdit.Holds c.shelf p id := by
  obtain ⟨m, hm, rfl⟩ := shownNetif_at hn
  have hlook : cmd_netif_by_index c.fw.board (shownNetif c.fw.board m (p + 1)).Index = some m := by_index_place hm
  rw [netifOf, hlook, Option.map_some, Option.some.injEq]
  constructor
  · rintro rfl
    exact ⟨_, by rw [shelf, Firmware.shelf, List.getElem?_map, hm]; rfl⟩
  · intro h
    obtain ⟨m', hm', hid⟩ := holds_netif h
    rw [hm, Option.some.injEq] at hm'
    rw [hm', hid]

theorem socketOf_iff {p j : Nat} {n : NetifInfo} {s : SocketInfo} (hn : (shownNetifs c.fw.board)[p]? = some n)
    (hs : n.Sockets[j]? = some s) {sid : SockId} :
    c.socketOf n s = some sid ↔ ∃ id, ShelfEdit.HoldsItem c.shelf (p, j) id sid := by
  obtain ⟨m, hm, rfl⟩ := shownNetif_at hn
  have hlook : cmd_netif_by_index c.fw.board (shownNetif c.fw.board m (p + 1)).Index = some m := by_index_place hm
  have hs : (shownSockets c.fw.board m)[j]? = some s := hs
  rw [shownSockets, List.getElem?_mapIdx] at hs
  obtain ⟨i, hi, rfl⟩ := Option.map_eq_some_iff.mp hs
  have hlt : j < udp_source_count_sockets c.fw.board m := (List.getElem?_eq_some_iff.mp hi).1
  obtain ⟨i', hi', hres⟩ := nthSocket_slot (nthSocket_of_lt c.fw.board hlt)
  rw [show (((j + 1 : Nat) : Int) - 1).toNat = j by omega, hi, Option.some.injEq] at hi'
  have hsock : c.socketOf (shownNetif c.fw.board m (p + 1)) ⟨((j + 1 : Nat) : Int), (localPort c.fw.board i).toNat⟩ =
      some (c.ids.socket i) := by
    simp only [socketOf, hlook, nthSocket_of_lt c.fw.board hlt, Option.bind_eq_bind, Option.bind_some, hres, ← hi']
    rfl
  rw [hsock, Option.some.injEq]
  constructor
  · rintro rfl
    refine ⟨_, _, by rw [shelf, Firmware.shelf, List.getElem?_map, hm]; rfl, ?_⟩
    rw [List.getElem?_map, hi]
    rfl
  · rintro ⟨id, h⟩
    obtain ⟨m', k, hm', -, hk, hid⟩ := holds_socket h
    rw [hm, Option.some.injEq] at hm'
    rw [← hm', hi, Option.some.injEq] at hk
    rw [hk, hid]

/-- UDP SEND with the numbers of the entries sends from this socket. -/
theorem sendCall_from {n : NetifInfo} {s : SocketInfo} {dst : ip_addr_t} {port : Int} {data : Text} {call : SendCall}
    (h : sendCall c.fw.board (.udp_send n.Index s.Nth dst port data) = some call) :
    c.socketOf n s = (resolve c.fw.board call.socket_id).map c.ids.socket := by
  unfold sendCall at h
  dsimp only at h
  split at h
  · cases h
  · obtain ⟨m, hm, h⟩ := Option.bind_eq_some_iff.mp h
    obtain ⟨sock, hsock, h⟩ := Option.bind_eq_some_iff.mp h
    obtain rfl := Option.some.inj h
    simp only [socketOf, hm, hsock, Option.bind_eq_bind, Option.bind_some]
    exact Option.map_eq_bind.symm

theorem holds_unique (h : Firmware.Inv c.fw) {p p' : Nat} {id : NetifId} (hp : ShelfEdit.Holds c.shelf p id)
    (hp' : ShelfEdit.Holds c.shelf p' id) : p = p' := by
  obtain ⟨n, hn, hid⟩ := holds_netif hp
  obtain ⟨m, hm, hid'⟩ := holds_netif hp'
  obtain ⟨l, hl⟩ := h.board.net
  have hsame : n = m := congrArg Prod.fst (hid.trans hid'.symm)
  rw [← hsame] at hm
  exact (List.getElem?_inj (List.getElem?_eq_some_iff.mp hn).1 hl.list_nodup).mp (hn.trans hm.symm)

theorem holdsItem_unique (h : Firmware.Inv c.fw) {pj pj' : Nat × Nat} {id id' : NetifId} {sid : SockId}
    (hp : ShelfEdit.HoldsItem c.shelf pj id sid) (hp' : ShelfEdit.HoldsItem c.shelf pj' id' sid) : pj = pj' := by
  obtain ⟨p, j⟩ := pj
  obtain ⟨p', j'⟩ := pj'
  obtain ⟨n, i, hn, -, hi, hsid⟩ := holds_socket hp
  obtain ⟨m, k, hm, -, hk, hsid'⟩ := holds_socket hp'
  obtain ⟨l, hl⟩ := h.board.net
  have hslot : i = k := congrArg Prod.fst (hsid.trans hsid'.symm)
  rw [← hslot] at hk
  have hon := onNetif_netif_eq (mem_socketsOn.mp (List.mem_of_getElem? hi))
  have hon' := onNetif_netif_eq (mem_socketsOn.mp (List.mem_of_getElem? hk))
  have hsame : n = m := Option.some.inj (hon.symm.trans hon')
  rw [← hsame] at hm hk
  rw [(List.getElem?_inj (List.getElem?_eq_some_iff.mp hn).1 hl.list_nodup).mp (hn.trans hm.symm),
    (List.getElem?_inj (List.getElem?_eq_some_iff.mp hi).1 (socketsOn_nodup _ _)).mp (hi.trans hk.symm)]

end Config

/-! ## One list of interfaces -/

section

variable {old new : Config}

theorem shelf_length (c : Config) : c.shelf.length = (shownNetifs c.fw.board).length := by
  simp [Config.shelf, Firmware.shelf, shownNetifs]

theorem holds_lt {c : Config} {p : Nat} {id : NetifId} (h : ShelfEdit.Holds c.shelf p id) : p < c.shelf.length := by
  obtain ⟨xs, hxs⟩ := h
  exact (List.getElem?_eq_some_iff.mp hxs).1

theorem refilled_netif (new : Config) {c : ComboBox NetifInfo} (hitems : c.Items = shownNetifs old.fw.board) {p : Nat}
    (hsel : c.SelectedIndex = some p) (hp : p < c.Items.length) (hne : 0 < new.shelf.length) :
    ∃ n', (c.refill NetifInfo.Index (shownNetifs new.fw.board)).SelectedItem = some n' ∧
      (shownNetifs new.fw.board)[if p < new.shelf.length then p else 0]? = some n' := by
  rw [shelf_length] at hne ⊢
  have hindex := refill_index (by rw [hitems]; exact shownNetifs_numbered _) hsel hp (shownNetifs_numbered new.fw.board)
    (List.ne_nil_of_length_pos hne)
  have hlt : (if p < (shownNetifs new.fw.board).length then p else 0) < (shownNetifs new.fw.board).length := by
    split
    · assumption
    · exact hne
  refine ⟨_, ?_, List.getElem?_eq_getElem hlt⟩
  rw [selectedItem_of hindex]
  exact List.getElem?_eq_getElem hlt

theorem keepsNetif_iff (hnew : Firmware.Inv new.fw) {c : ComboBox NetifInfo}
    (hitems : c.Items = shownNetifs old.fw.board) (hwithin : c.Within) :
    KeepsNetif old new c.SelectedItem (c.refill NetifInfo.Index (shownNetifs new.fw.board)).SelectedItem ↔
      ∀ p, c.SelectedIndex = some p → NetifInPlace old new p := by
  constructor
  · intro h p hsel id p' hp hp'
    have hlt := hwithin p hsel
    obtain ⟨n, hn, hat⟩ := selected_at hwithin hsel
    rw [hitems] at hat
    obtain ⟨n', hn', hnew'⟩ := h n id hn ((Config.netifOf_iff hat).mpr hp) ⟨p', hp'⟩
    obtain ⟨m, hm, hmat⟩ := refilled_netif new hitems hsel hlt (Nat.zero_lt_of_lt (holds_lt hp'))
    obtain rfl : n' = m := Option.some.inj (hn'.symm.trans hm)
    rw [inPlaceAt_iff (holds_lt hp')]
    exact Config.holds_unique hnew hp' ((Config.netifOf_iff hmat).mp hnew')
  · rintro h n id hn hid ⟨p', hp'⟩
    obtain ⟨p, hsel, hat⟩ := Option.bind_eq_some_iff.mp hn
    have hlt := hwithin p hsel
    rw [hitems] at hat
    have hplace := h p hsel id p' ((Config.netifOf_iff hat).mp hid) hp'
    rw [inPlaceAt_iff (holds_lt hp')] at hplace
    obtain ⟨m, hm, hmat⟩ := refilled_netif new hitems hsel hlt (Nat.zero_lt_of_lt (holds_lt hp'))
    rw [← hplace] at hmat
    exact ⟨m, hm, (Config.netifOf_iff hmat).mpr hp'⟩

end

/-! ## The form -/

/-- The lists of the form were filled from the board's list. -/
structure Shows (p : Selectors) (b : Board) : Prop where
  term : p.cmbTermNetif.Items = shownNetifs b
  term_within : p.cmbTermNetif.Within
  send : p.cmbSendNetif.Items = shownNetifs b
  send_within : p.cmbSendNetif.Within
  socket : p.cmbSendSocket.Items = ((p.cmbSendNetif.SelectedItem).map NetifInfo.Sockets).getD []
  socket_within : p.cmbSendSocket.Within

theorem mem_of_selected {c : ComboBox NetifInfo} {b : Board} (h : c.Items = shownNetifs b) :
    ∀ m, c.SelectedItem = some m → m ∈ shownNetifs b := by
  intro m hm
  obtain ⟨i, -, hi⟩ := Option.bind_eq_some_iff.mp hm
  rw [← h]
  exact List.mem_of_getElem? hi

/-- The list of sockets is filled twice, with the same sockets. -/
theorem refresh_eq (p : Selectors) (b : Board) :
    p.refresh (shownNetifs b) =
      { netifs := shownNetifs b
        cmbTermNetif := p.cmbTermNetif.refill NetifInfo.Index (shownNetifs b)
        cmbSendNetif := p.cmbSendNetif.refill NetifInfo.Index (shownNetifs b)
        cmbSendSocket := p.cmbSendSocket.refill SocketInfo.Nth
          (((p.cmbSendNetif.refill NetifInfo.Index (shownNetifs b)).SelectedItem.map NetifInfo.Sockets).getD []) } := by
  have hsockets : Numbered SocketInfo.Nth
      (((p.cmbSendNetif.refill NetifInfo.Index (shownNetifs b)).SelectedItem.map NetifInfo.Sockets).getD []) :=
    sockets_numbered (mem_of_selected rfl)
  unfold Selectors.refresh Selectors.fillNetifCombos Selectors.fillOneNetifCombo
  dsimp only
  split
  · rfl
  · simp only [Selectors.fillSocketCombo, refill_refill hsockets]

theorem refresh_shows (p : Selectors) (b : Board) : Shows (p.refresh (shownNetifs b)) b := by
  rw [refresh_eq]
  exact ⟨rfl, refill_within, rfl, refill_within, rfl, refill_within⟩

theorem Shows.pick {p : Selectors} {b : Board} (h : Shows p b) (k : Pick) : Shows (p.pick k) b := by
  cases k with
  | termNetif i => exact { h with term := (select_items i).trans h.term, term_within := select_within h.term_within i }
  | sendNetif i =>
    exact { h with
      send := (select_items i).trans h.send
      send_within := select_within h.send_within i
      socket := rfl
      socket_within := refill_within }
  | sendSocket i =>
    exact { h with socket := (select_items i).trans h.socket, socket_within := select_within h.socket_within i }

theorem Shows.picks {p : Selectors} {b : Board} (h : Shows p b) (ks : List Pick) :
    Shows (ks.foldl Selectors.pick p) b := by
  induction ks generalizing p with
  | nil => exact h
  | cons k ks ih => exact ih (h.pick k)

section

variable {old new : Config}

theorem shelf_sockets {c : Config} {p : Nat} {n : NetifInfo} (hn : (shownNetifs c.fw.board)[p]? = some n) {id : NetifId}
    {ids : List SockId} (hids : c.shelf[p]? = some (id, ids)) : n.Sockets.length = ids.length := by
  obtain ⟨m, hm, rfl⟩ := shownNetif_at hn
  rw [Config.shelf, Firmware.shelf, List.getElem?_map, hm, Option.map_some, Option.some.injEq] at hids
  obtain rfl : (socketsOn c.fw.board m).map c.ids.socket = ids := congrArg Prod.snd hids
  simp [shownNetif, shownSockets]

theorem refilled_socket (new : Config) {before : Selectors} (h : Shows before old.fw.board) {j : Nat}
    (hsel : before.cmbSendSocket.SelectedIndex = some j) {n' : NetifInfo} (hn' : n' ∈ shownNetifs new.fw.board)
    (hne : 0 < n'.Sockets.length) :
    ∃ s', (before.cmbSendSocket.refill SocketInfo.Nth n'.Sockets).SelectedItem = some s' ∧
      n'.Sockets[if j < n'.Sockets.length then j else 0]? = some s' := by
  have hold : Numbered SocketInfo.Nth before.cmbSendSocket.Items := by
    rw [h.socket]
    exact sockets_numbered (mem_of_selected h.send)
  have hnew : Numbered SocketInfo.Nth n'.Sockets := 
    sockets_numbered (b := new.fw.board) (n := some n') (fun m hm => Option.some.inj hm ▸ hn')
  have hindex := refill_index hold hsel (h.socket_within j hsel) hnew (List.ne_nil_of_length_pos hne)
  have hlt : (if j < n'.Sockets.length then j else 0) < n'.Sockets.length := by
    split
    · assumption
    · exact hne
  refine ⟨_, ?_, List.getElem?_eq_getElem hlt⟩
  rw [selectedItem_of hindex]
  exact List.getElem?_eq_getElem hlt

/-- What is selected in the form when its lists were filled again. -/
theorem reselected (new : Config) {before : Selectors} (h : Shows before old.fw.board) {p j q : Nat}
    (hp : before.cmbSendNetif.SelectedIndex = some p) (hj : before.cmbSendSocket.SelectedIndex = some j)
    (hq : q = if p < new.shelf.length then p else 0) {id : NetifId} {ids : List SockId}
    (hids : new.shelf[q]? = some (id, ids)) (hne : 0 < ids.length) :
    ∃ n s, (before.refresh (shownNetifs new.fw.board)).cmbSendNetif.SelectedItem = some n ∧
      (before.refresh (shownNetifs new.fw.board)).cmbSendSocket.SelectedItem = some s ∧
      (shownNetifs new.fw.board)[q]? = some n ∧ n.Sockets[if j < ids.length then j else 0]? = some s := by
  have hlt : q < new.shelf.length := (List.getElem?_eq_some_iff.mp hids).1
  obtain ⟨n, hn, hat⟩ := refilled_netif new h.send hp (h.send_within p hp) (Nat.zero_lt_of_lt hlt)
  rw [← hq] at hat
  have hlen : n.Sockets.length = ids.length := shelf_sockets hat hids
  obtain ⟨s, hs, hsat⟩ := refilled_socket new h hj (List.mem_of_getElem? hat) (by omega)
  rw [hlen] at hsat
  rw [refresh_eq]
  refine ⟨n, s, hn, ?_, hat, hsat⟩
  dsimp only
  rw [hn, Option.map_some, Option.getD_some]
  exact hs

theorem keepsSocket_iff (hnew : Firmware.Inv new.fw) {before : Selectors} (h : Shows before old.fw.board) :
    KeepsSocket old new before (before.refresh (shownNetifs new.fw.board)) ↔
      ∀ p j, before.cmbSendNetif.SelectedIndex = some p → before.cmbSendSocket.SelectedIndex = some j →
        SocketInPlace old new p j := by
  constructor
  · rintro hkeep p j hp hj id sid p' ids j' ⟨xs, hxs, hx⟩ hids hj'
    obtain ⟨n, hn, hat⟩ := selected_at h.send_within hp
    obtain ⟨s, hs, hsat⟩ := selected_at h.socket_within hj
    rw [h.send] at hat
    rw [h.socket, hn, Option.map_some, Option.getD_some] at hsat
    obtain ⟨n', s', hn', hs', hid', hsid'⟩ := hkeep n s id sid hn hs ((Config.netifOf_iff hat).mpr ⟨xs, hxs⟩)
      ((Config.socketOf_iff hat hsat).mpr ⟨id, xs, hxs, hx⟩) ⟨(p', j'), ids, hids, hj'⟩
    have hlt : p' < new.shelf.length := (List.getElem?_eq_some_iff.mp hids).1
    have hjlt : j' < ids.length := (List.getElem?_eq_some_iff.mp hj').1
    have hplace : p' = if p < new.shelf.length then p else 0 := by
      obtain ⟨m, hm, hmat⟩ := refilled_netif new h.send hp (h.send_within p hp) (Nat.zero_lt_of_lt hlt)
      rw [refresh_eq] at hn'
      obtain rfl : n' = m := Option.some.inj (hn'.symm.trans hm)
      exact Config.holds_unique hnew ⟨ids, hids⟩ ((Config.netifOf_iff hmat).mp hid')
    obtain ⟨m, k, hm, hk, hmat, hkat⟩ := reselected new h hp hj hplace hids (Nat.zero_lt_of_lt hjlt)
    obtain rfl : n' = m := Option.some.inj (hn'.symm.trans hm)
    obtain rfl : s' = k := Option.some.inj (hs'.symm.trans hk)
    obtain ⟨id', hitem⟩ := (Config.socketOf_iff hmat hkat).mp hsid'
    have hthere : ShelfEdit.HoldsItem new.shelf (p', j') id sid := ⟨ids, hids, hj'⟩
    have hsame := congrArg Prod.snd (Config.holdsItem_unique hnew hthere hitem)
    exact ⟨(inPlaceAt_iff hlt).mpr hplace, (inPlaceAt_iff hjlt).mpr hsame⟩
  · rintro hplace n s id sid hn hs hid hsid ⟨⟨p', j'⟩, ids, hids, hj'⟩
    obtain ⟨p, hp, hat⟩ := Option.bind_eq_some_iff.mp hn
    obtain ⟨j, hj, hsat⟩ := Option.bind_eq_some_iff.mp hs
    rw [h.send] at hat
    rw [h.socket, hn, Option.map_some, Option.getD_some] at hsat
    dsimp only at hids hj'
    obtain ⟨id', xs, hxs, hx⟩ := (Config.socketOf_iff hat hsat).mp hsid
    obtain ⟨ys, hys⟩ := (Config.netifOf_iff hat).mp hid
    rw [hys, Option.some.injEq, Prod.mk.injEq] at hxs
    obtain ⟨rfl, rfl⟩ := hxs
    obtain ⟨hp', hjp'⟩ := hplace p j hp hj id sid p' ids j' ⟨ys, hys, hx⟩ hids hj'
    have hjlt : j' < ids.length := (List.getElem?_eq_some_iff.mp hj').1
    rw [inPlaceAt_iff (List.getElem?_eq_some_iff.mp hids).1] at hp'
    rw [inPlaceAt_iff hjlt] at hjp'
    obtain ⟨m, k, hm, hk, hmat, hkat⟩ := reselected new h hp hj hp' hids (Nat.zero_lt_of_lt hjlt)
    rw [← hjp'] at hkat
    exact ⟨m, k, hm, hk, (Config.netifOf_iff hmat).mpr ⟨ids, hids⟩,
      (Config.socketOf_iff hmat hkat).mpr ⟨id, ids, hids, hj'⟩⟩

end

/-! ## Runs -/

theorem config_inv (c : Boot) {es : List Event} (h : Config.machine.Legal (.boot c) es) :
    Firmware.Inv (Config.machine.run (.boot c) es).fw :=
  Lib.Machine.run_invariant (M := Config.machine) (P := fun s => Firmware.Inv s.fw)
    (fun s e hs he => inv_step s.fw e hs he) (Firmware.boot_inv c) h

/-- The list of the configuration `old` is read, the operator selects, the board goes on to `new`, and its list is
read. -/
structure Reread (old new : Config) (before after : Selectors) : Prop where
  board : ∃ c es gs, Config.machine.Legal (.boot c) (es ++ gs) ∧ old = Config.machine.run (.boot c) es ∧
    new = Config.machine.run (.boot c) (es ++ gs)
  panel : ∃ (p : Selectors) (ks : List Pick), before = ks.foldl Selectors.pick (p.refresh (shownNetifs old.fw.board))
  reread : after = before.refresh (shownNetifs new.fw.board)

/-- The selection is kept exactly if what is selected, and still there, is in place. -/
theorem selection_kept_iff {old new : Config} {before after : Selectors} (h : Reread old new before after) :
    (KeepsNetif old new before.cmbTermNetif.SelectedItem after.cmbTermNetif.SelectedItem ↔
      ∀ p, before.cmbTermNetif.SelectedIndex = some p → NetifInPlace old new p) ∧
    (KeepsNetif old new before.cmbSendNetif.SelectedItem after.cmbSendNetif.SelectedItem ↔
      ∀ p, before.cmbSendNetif.SelectedIndex = some p → NetifInPlace old new p) ∧
    (KeepsSocket old new before after ↔
      ∀ p j, before.cmbSendNetif.SelectedIndex = some p → before.cmbSendSocket.SelectedIndex = some j →
        SocketInPlace old new p j) := by
  obtain ⟨⟨c, es, gs, hgs, -, hrun⟩, ⟨p, ks, hbefore⟩, rfl⟩ := h
  have hnew : Firmware.Inv new.fw := by
    rw [hrun]
    exact config_inv c hgs
  have hshows : Shows before old.fw.board := by
    rw [hbefore]
    exact (refresh_shows p old.fw.board).picks ks
  refine ⟨?_, ?_, keepsSocket_iff hnew hshows⟩
  · rw [refresh_eq]
    exact keepsNetif_iff hnew hshows.term hshows.term_within
  · rw [refresh_eq]
    exact keepsNetif_iff hnew hshows.send hshows.send_within

def Selectors.empty : Selectors := ⟨[], ⟨[], none⟩, ⟨[], none⟩, ⟨[], none⟩⟩

def startRun : List Event := [.line sampleEnv "SOCK OPEN 1 5000".toList]

def startConfig : Config := Config.machine.run (.boot (.main ethzero true)) startRun

/-- The first interface and its socket are selected. -/
def startForm : Selectors := Selectors.empty.refresh (shownNetifs startConfig.fw.board)

def afterLine (line : String) : Config :=
  Config.machine.run (.boot (.main ethzero true)) (startRun ++ [.line sampleEnv line.toList])

theorem startForm_reread (line : String) :
    Reread startConfig (afterLine line) startForm (startForm.refresh (shownNetifs (afterLine line).fw.board)) where
  board := ⟨.main ethzero true, startRun, [.line sampleEnv line.toList], ⟨trivial, trivial, trivial⟩, rfl, rfl⟩
  panel := ⟨.empty, [], rfl⟩
  reread := rfl

theorem selection_kept_sample :
    KeepsNetif startConfig (afterLine "SOCK OPEN 1 6000") startForm.cmbTermNetif.SelectedItem
      (startForm.refresh (shownNetifs (afterLine "SOCK OPEN 1 6000").fw.board)).cmbTermNetif.SelectedItem ∧
    KeepsNetif startConfig (afterLine "SOCK OPEN 1 6000") startForm.cmbSendNetif.SelectedItem
      (startForm.refresh (shownNetifs (afterLine "SOCK OPEN 1 6000").fw.board)).cmbSendNetif.SelectedItem ∧
    KeepsSocket startConfig (afterLine "SOCK OPEN 1 6000") startForm
      (startForm.refresh (shownNetifs (afterLine "SOCK OPEN 1 6000").fw.board)) := by
  have hterm : startForm.cmbTermNetif.SelectedIndex = some 0 := by decide +kernel
  have hsend : startForm.cmbSendNetif.SelectedIndex = some 0 := by decide +kernel
  have hsocket : startForm.cmbSendSocket.SelectedIndex = some 0 := by decide +kernel
  have hstart : startConfig.shelf = [((.phys, 0), [(0, 1)])] := by decide +kernel
  have hafter : (afterLine "SOCK OPEN 1 6000").shelf = [((.phys, 0), [(0, 1), (1, 1)])] := by decide +kernel
  have hplace : NetifInPlace startConfig (afterLine "SOCK OPEN 1 6000") 0 := by
    intro id p' hp hp'
    have hlt := holds_lt hp'
    rw [hafter, List.length_singleton] at hlt
    exact Or.inl (by omega)
  have hitem : SocketInPlace startConfig (afterLine "SOCK OPEN 1 6000") 0 0 := by
    rintro id sid p' ids j' ⟨xs, hxs, hx⟩ hids hj'
    have hlt := (List.getElem?_eq_some_iff.mp hids).1
    rw [hafter, List.length_singleton] at hlt
    obtain rfl : p' = 0 := by omega
    rw [hstart] at hxs
    rw [hafter] at hids
    simp only [List.getElem?_cons_zero, Option.some.injEq, Prod.mk.injEq] at hxs hids
    obtain ⟨-, rfl⟩ := hxs
    obtain ⟨-, rfl⟩ := hids
    have hsid : sid = (0, 1) := (Option.some.inj hx).symm
    have hnd : ([(0, 1), (1, 1)] : List SockId).Nodup := by decide
    rw [hsid] at hj'
    exact ⟨Or.inl rfl, Or.inl ((List.getElem?_inj (List.getElem?_eq_some_iff.mp hj').1 hnd).mp hj')⟩
  obtain ⟨htermIff, hsendIff, hsocketIff⟩ := selection_kept_iff (startForm_reread "SOCK OPEN 1 6000")
  refine ⟨htermIff.mpr fun p hp => ?_, hsendIff.mpr fun p hp => ?_, hsocketIff.mpr fun p j hp hj => ?_⟩
  · rw [hterm, Option.some.injEq] at hp
    exact hp ▸ hplace
  · rw [hsend, Option.some.injEq] at hp
    exact hp ▸ hplace
  · rw [hsend, Option.some.injEq] at hp
    rw [hsocket, Option.some.injEq] at hj
    exact hp ▸ hj ▸ hitem

theorem not_keepsNetif {old new : Config} {s s' : Option NetifInfo} {id : NetifId} (hs : s.bind old.netifOf = some id)
    (hs' : s'.bind new.netifOf ≠ some id) (h : new.Has id) : ¬ KeepsNetif old new s s' := by
  intro hkeep
  obtain ⟨n, hn, hid⟩ := Option.bind_eq_some_iff.mp hs
  obtain ⟨n', hn', hid'⟩ := hkeep n id hn hid h
  exact hs' (Option.bind_eq_some_iff.mpr ⟨n', hn', hid'⟩)

def addLine : String := "NETIF ADD 10.0.0.20 255.255.255.0 10.0.0.1"

/-- A new interface takes the position of the selected one, and the form selects it; it has no socket to select. -/
theorem added_interface_selected : ∃ old new before after, Reread old new before after ∧
    ¬ KeepsNetif old new before.cmbTermNetif.SelectedItem after.cmbTermNetif.SelectedItem ∧
    ¬ KeepsNetif old new before.cmbSendNetif.SelectedItem after.cmbSendNetif.SelectedItem ∧
    ¬ KeepsSocket old new before after := by
  have hafter : (afterLine addLine).shelf = [((.alias_list 0, 1), []), ((.phys, 0), [(0, 1)])] := by decide +kernel
  have hhas : (afterLine addLine).Has (.phys, 0) := ⟨1, _, by rw [hafter]; rfl⟩
  have hhasSocket : (afterLine addLine).HasSocket (.phys, 0) (0, 1) := ⟨(1, 0), _, by rw [hafter]; rfl, rfl⟩
  have hterm : startForm.cmbTermNetif.SelectedItem.bind startConfig.netifOf = some (.phys, 0) := by decide +kernel
  have hsend : startForm.cmbSendNetif.SelectedItem.bind startConfig.netifOf = some (.phys, 0) := by decide +kernel
  have hsocket : startForm.cmbSendNetif.SelectedItem.bind (fun n =>
      startForm.cmbSendSocket.SelectedItem.bind (startConfig.socketOf n)) = some (0, 1) := by decide +kernel
  refine ⟨startConfig, afterLine addLine, startForm, _, startForm_reread addLine,
    not_keepsNetif hterm (by decide +kernel) hhas, not_keepsNetif hsend (by decide +kernel) hhas, fun hkeep => ?_⟩
  obtain ⟨n, hn, hid⟩ := Option.bind_eq_some_iff.mp hsend
  obtain ⟨m, hm, hs⟩ := Option.bind_eq_some_iff.mp hsocket
  obtain rfl : n = m := Option.some.inj (hn.symm.trans hm)
  obtain ⟨s, hs, hsid⟩ := Option.bind_eq_some_iff.mp hs
  obtain ⟨n', s', -, hs', -⟩ := hkeep n s (.phys, 0) (0, 1) hn hs hid hsid hhasSocket
  have hnone : (startForm.refresh (shownNetifs (afterLine addLine).fw.board)).cmbSendSocket.SelectedItem = none := by
    decide +kernel
  rw [hnone] at hs'
  cases hs'

end MultiIp.Panel

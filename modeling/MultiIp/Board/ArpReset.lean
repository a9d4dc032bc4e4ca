import MultiIp.Board.ArpMoves

/-!
# The ARP reset

`ARPRESET` and option 6 of the menu clean up for each interface of the list.
An entry that waits for an answer belongs to no interface yet, so it stays.
-/

namespace MultiIp.Lwip

theorem cleanup_netifs_spec (l : List NetifPtr) (a : Arp) (j : ArpIdx) :
    (l.foldl etharp_cleanup_netif a).arp_table j =
      if (a.arp_table j).state ≠ .EMPTY ∧ ∃ n ∈ l, (a.arp_table j).netif = some n then
        { a.arp_table j with q := none, state := .EMPTY } else a.arp_table j := by
  induction l generalizing a with
  | nil => simp
  | cons n l ih =>
    rw [List.foldl_cons, ih, etharp_cleanup_netif_spec]
    by_cases hn : (a.arp_table j).state ≠ .EMPTY ∧ (a.arp_table j).netif = some n
    · simp [hn.1, hn.2]
    · rw [if_neg hn]
      by_cases hempty : (a.arp_table j).state = .EMPTY
      · simp [hempty]
      · have hne : (a.arp_table j).netif ≠ some n := fun heq => hn ⟨hempty, heq⟩
        simp [hempty, hne]

/-- No packet waits with an empty entry. -/
def etharp_entry.Clean (e : etharp_entry) : Prop := e.state = .EMPTY → e.q = none

theorem EntryStep.clean {R : ip_addr_t → eth_addr → Prop} {e e' : etharp_entry} (h : EntryStep R e e') (he : e.Clean) :
    e'.Clean := by
  unfold etharp_entry.Clean at he ⊢
  cases h with
  | free => exact fun _ => rfl
  | claim ip h => exact he
  | pend h => simp
  | queue p h => simp [h]
  | rerequest h => simp
  | resolve n mac h => simp

end MultiIp.Lwip

namespace MultiIp.Firmware

open Board Lwip Lib

/-- Option 6 of the menu. -/
def menu_arp_reset (f : Firmware) : Firmware × Text :=
  (arpReset f, cmd_out "ARP Table reset completed" ++ ['\r'] ++ ['\n'])

/-- Every entry is empty and no packet is queued. -/
def ArpEmpty (a : Arp) : Prop := ∀ i, (a.arp_table i).state = .EMPTY ∧ (a.arp_table i).q = none

instance (a : Arp) : Decidable (ArpEmpty a) :=
  inferInstanceAs (Decidable (∀ i, (a.arp_table i).state = .EMPTY ∧ (a.arp_table i).q = none))

/-- Every request that has no answer yet is tagged with an interface of the list. -/
def PendingListed (b : Board) : Prop :=
  ∀ i, (b.net.arp.arp_table i).state = .PENDING → ∃ n ∈ b.net.list, (b.net.arp.arp_table i).netif = some n

theorem clean_reachable (c : Boot) {es : List Event} (h : machine.Legal (boot c) es) (i : ArpIdx) :
    ((machine.run (boot c) es).board.net.arp.arp_table i).Clean := by
  refine moves_invariant (P := fun b => ∀ i, (b.net.arp.arp_table i).Clean) c ?_ ?_ h i
  · intro j
    rw [(boot_net c).arp]
    exact fun _ => rfl
  · intro b m hinv hb _
    obtain ⟨l, hl⟩ := hinv.net
    exact (move_steps hl m).invariant (fun _ _ hstep he => hstep.clean he) hb

theorem arpReset_empty_iff {f : Firmware} (hinv : Inv f) (hclean : ∀ i, (f.board.net.arp.arp_table i).Clean) :
    ArpEmpty (arpReset f).board.net.arp ↔ PendingListed f.board := by
  obtain ⟨l, hl⟩ := hinv.board.net
  have hspec : ∀ i, (arpReset f).board.net.arp.arp_table i = _ :=
    cleanup_netifs_spec f.board.net.list f.board.net.arp
  constructor
  · intro hempty i hpend
    obtain ⟨hstate, -⟩ := hempty i
    rw [hspec] at hstate
    by_contra hoff
    rw [if_neg (fun h => hoff h.2), hpend] at hstate
    cases hstate
  · intro hpend i
    rw [hspec]
    by_cases hempty : (f.board.net.arp.arp_table i).state = .EMPTY
    · rw [if_neg (fun h => h.1 hempty)]
      exact ⟨hempty, hclean i hempty⟩
    · have htag : ∃ n ∈ f.board.net.list, (f.board.net.arp.arp_table i).netif = some n := by
        cases hs : (f.board.net.arp.arp_table i).state with
        | EMPTY => exact absurd hs hempty
        | PENDING => exact hpend i hs
        | STABLE | STABLE_REREQUESTING =>
          -- A stable entry is tagged with the interface that got the answer.
          obtain ⟨n, hn, hmem⟩ := hl.arp i (by rw [hs]; rfl)
          exact ⟨n, by rwa [hl.list_eq], hn⟩
      rw [if_pos ⟨hempty, htag⟩]
      exact ⟨rfl, rfl⟩

/-- In every reachable state the reset empties the table exactly when no unanswered request is left without
an interface of the list. -/
theorem arp_reset_empties_iff (c : Boot) (es : List Event) (h : machine.Legal (boot c) es) :
    let f := machine.run (boot c) es
    (ArpEmpty (cmd_arp_reset f).1.board.net.arp ↔ PendingListed f.board) ∧
      (ArpEmpty (menu_arp_reset f).1.board.net.arp ↔ PendingListed f.board) := by
  have hiff := arpReset_empty_iff (inv_reachable c h) (fun i => clean_reachable c h i)
  exact ⟨hiff, hiff⟩

/-- An ARP request of a neighbour for the address of the board. -/
def neighbourFrame : ArpFrame where
  len := 42
  hdr :=
    { hwtype := HWTYPE_ETHERNET, proto := ETHTYPE_IP, hwlen := 6, protolen := 4, opcode := ARP_REQUEST,
      shwaddr := #v[2, 0, 0, 0, 0, 1], sipaddr := 0x0a000014, dhwaddr := ethzero, dipaddr := 0x0a00000a }

def neighbourRun : List Event := [.call (.arp_input neighbourFrame)]

theorem arp_reset_empties_sample :
    let f := machine.run (boot (.main ethzero true)) neighbourRun
    machine.Legal (boot (.main ethzero true)) neighbourRun ∧
      (ArpEmpty (cmd_arp_reset f).1.board.net.arp ↔ PendingListed f.board) :=
  ⟨by decide, (arp_reset_empties_iff (.main ethzero true) neighbourRun (by decide)).1⟩

/-- A ping to a host that does not answer. -/
def silentRun : List Event := [.line sampleEnv "PING 1 10.0.0.20".toList]

theorem silent_host_survives :
    machine.Legal (boot (.main ethzero true)) silentRun ∧
      ¬ ArpEmpty (cmd_arp_reset (machine.run (boot (.main ethzero true)) silentRun)).1.board.net.arp ∧
      ¬ ArpEmpty (menu_arp_reset (machine.run (boot (.main ethzero true)) silentRun)).1.board.net.arp := by
  decide

end MultiIp.Firmware

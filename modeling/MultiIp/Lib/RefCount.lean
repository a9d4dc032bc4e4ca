import Mathlib.Data.List.Perm.Subperm
import MultiIp.Lib.Chain
import MultiIp.Lib.Tally

/-!
# Counted references

Nodes that point to at most one other node each, and users who hold references
to nodes. A node is given back when nobody refers to it any more, and with it
its own reference, so that a release can walk along a whole list.
-/

namespace MultiIp.Lib

theorem chain_relink {α : Type*} [DecidableEq α] {a : α} {next : α → Option α} {v h : Option α} {lv l : List α}
    (hv : Chain next v lv) (hav : a ∉ lv) (hl : Chain next h l) : ∃ l', Chain (Function.update next a v) h l' := by
  have hkeep : ∀ {h t : Option α} {l : List α}, a ∉ l → Seg next h l t → Seg (Function.update next a v) h l t := by
    intro h t l hal hseg
    refine (seg_congr (fun x hx => ?_)).mpr hseg
    have hne : x ≠ a := by
      rintro rfl
      exact hal hx
    simp [hne]
  by_cases hal : a ∈ l
  · obtain ⟨l₁, l₂, rfl⟩ := List.append_of_mem hal
    obtain ⟨m, hseg, rfl, -⟩ := (seg_append _ _ _ _ _).mp hl
    have ha₁ : a ∉ l₁ := fun hin => by
      have hnd := List.nodup_middle.mp (chain_nodup hl)
      exact (List.nodup_cons.mp hnd).1 (List.mem_append_left _ hin)
    refine ⟨l₁ ++ a :: lv, (seg_append _ _ _ _ _).mpr ⟨some a, hkeep ha₁ hseg, rfl, ?_⟩⟩
    rw [Function.update_self]
    exact hkeep hav hv
  · exact ⟨l, hkeep hal hl⟩

/-- A walk does not leave what has no pointer out of it. -/
theorem seg_closed {α : Type*} {next : α → Option α} {S : α → Prop} (hS : ∀ a, S a → ∀ b, next a = some b → S b)
    {a b : α} {l : List α} (ha : S a) (hseg : Seg next (some a) l (some b)) : S b := by
  induction l generalizing a with
  | nil =>
    obtain rfl := Option.some.inj hseg
    exact ha
  | cons x l ih =>
    obtain ⟨hax, hseg⟩ := hseg
    obtain rfl := Option.some.inj hax
    cases hn : next a with
    | none =>
      rw [hn] at hseg
      cases l with
      | nil => cases hseg
      | cons x l => cases hseg.1
    | some n =>
      rw [hn] at hseg
      exact ih (hS a ha n hn) hseg

theorem chain_next_mem {α : Type*} {next : α → Option α} {h : Option α} {l : List α} (hl : Chain next h l) {a b : α}
    (ha : a ∈ l) (hn : next a = some b) : b ∈ l := by
  obtain ⟨l₁, l₂, rfl⟩ := List.append_of_mem ha
  obtain ⟨m, -, rfl, hrest⟩ := (seg_append _ _ _ _ _).mp hl
  rw [hn] at hrest
  cases l₂ with
  | nil => cases hrest
  | cons x l₂ =>
    obtain rfl := Option.some.inj hrest.1
    simp

/-- A chain that begins outside of `L` stays outside of it, if only `L` leads into `L`. -/
theorem chain_outside {α : Type*} {next : α → Option α} {live L l : List α} {a : α}
    (hlive : ∀ x ∈ live, ∀ y, next x = some y → y ∈ live) (hL : ∀ x ∈ live, ∀ y ∈ L, next x = some y → x ∈ L)
    (ha : a ∈ live) (haL : a ∉ L) (hl : Chain next (some a) l) : ∀ b ∈ l, b ∉ L := by
  intro b hb
  obtain ⟨l₁, l₂, rfl⟩ := List.append_of_mem hb
  obtain ⟨m, hseg, rfl, -⟩ := (seg_append _ _ _ _ _).mp hl
  have hout : b ∈ live ∧ b ∉ L := seg_closed (S := fun x => x ∈ live ∧ x ∉ L)
    (fun x hx y hy => ⟨hlive x hx.1 y hy, fun hyL => hx.2 (hL x hx.1 y hyL hy)⟩) ⟨ha, haL⟩ hseg
  exact hout.2

/-- The nodes in use, their `next` fields and their counters. -/
structure RefCounts (α : Type*) where
  live : List α
  next : α → Option α
  count : α → Nat

namespace RefCounts

variable {α : Type*} [DecidableEq α] {c : RefCounts α} {held : List α} {a b : α}

/-- How many nodes in use point to the node. -/
def links (c : RefCounts α) (a : α) : Nat := (c.live.filterMap c.next).count a

/-- Each counter says how many references there are, and there is at least one. -/
structure Counted (c : RefCounts α) (held : List α) : Prop where
  nodup : c.live.Nodup
  count_eq : ∀ a ∈ c.live, c.count a = held.count a + c.links a
  pos : ∀ a ∈ c.live, 0 < c.count a
  held_live : ∀ a ∈ held, a ∈ c.live
  next_live : ∀ a ∈ c.live, ∀ b, c.next a = some b → b ∈ c.live
  ends : ∀ a ∈ c.live, ∃ l, Chain c.next (some a) l

/-- A walk from one of the references meets the node. -/
def Reachable (c : RefCounts α) (held : List α) (a : α) : Prop :=
  ∃ h ∈ held, ∃ l, Seg c.next (some h) l (some a)

theorem links_pos : 0 < c.links a ↔ ∃ b ∈ c.live, c.next b = some a := by
  rw [links, List.count_pos_iff, List.mem_filterMap]

namespace Counted

theorem seg_live (h : Counted c held) {l : List α} (ha : a ∈ c.live) (hseg : Seg c.next (some a) l (some b)) :
    b ∈ c.live :=
  seg_closed h.next_live ha hseg

theorem chain_live (h : Counted c held) {l : List α} (ha : a ∈ c.live) (hl : Chain c.next (some a) l) :
    ∀ b ∈ l, b ∈ c.live := by
  intro b hb
  obtain ⟨l₁, l₂, rfl⟩ := List.append_of_mem hb
  obtain ⟨m, hseg, rfl, -⟩ := (seg_append _ _ _ _ _).mp hl
  exact h.seg_live ha hseg

/-- A list of nodes in use is no longer than there are nodes. -/
theorem chain_length (h : Counted c held) {l : List α} (ha : a ∈ c.live) (hl : Chain c.next (some a) l) :
    l.length ≤ c.live.length :=
  ((chain_nodup hl).subperm (h.chain_live ha hl)).length_le

theorem chain_cons (h : Counted c held) (hb : b ∈ c.live) (hn : c.next b = some a) {l : List α}
    (hl : Chain c.next (some a) l) : (b :: l).length ≤ c.live.length :=
  h.chain_length hb ⟨rfl, hn ▸ hl⟩

/-- From some reference a walk leads to each node in use: nothing in use is lost. -/
theorem reachable (h : Counted c held) (ha : a ∈ c.live) : c.Reachable held a := by
  obtain ⟨l, hl⟩ := h.ends a ha
  -- Towards the front the list gets longer, and it is never longer than there are nodes.
  induction hk : c.live.length - l.length using Nat.strongRecOn generalizing a l with
  | ind k ih =>
    have hcount := h.count_eq a ha
    have hpos := h.pos a ha
    rcases Nat.eq_zero_or_pos (held.count a) with hzero | hheld
    · obtain ⟨b, hb, hn⟩ := links_pos.mp (by omega : 0 < c.links a)
      have hlen := h.chain_cons hb hn hl
      rw [List.length_cons] at hlen
      obtain ⟨r, hr, l', hseg⟩ := ih (c.live.length - (b :: l).length) (by rw [List.length_cons]; omega) hb (b :: l)
        ⟨rfl, hn ▸ hl⟩ rfl
      exact ⟨r, hr, l' ++ [b], (seg_append _ _ _ _ _).mpr ⟨some b, hseg, rfl, hn⟩⟩
    · exact ⟨a, List.count_pos_iff.mp hheld, [], rfl⟩

/-- What is in use is what the references lead to. -/
theorem live_iff (h : Counted c held) : a ∈ c.live ↔ c.Reachable held a := by
  refine ⟨h.reachable, ?_⟩
  rintro ⟨r, hr, l, hseg⟩
  exact h.seg_live (h.held_live r hr) hseg

/-- A node has as many references as its counter says, so one reference alone leaves no other. -/
theorem count_pos_of_held (h : Counted c (a :: held)) : a ∈ c.live ∧ c.count a = held.count a + 1 + c.links a := by
  have ha := h.held_live a List.mem_cons_self
  have hcount := h.count_eq a ha
  rw [List.count_cons_self] at hcount
  exact ⟨ha, hcount⟩

theorem links_of_not_live (h : Counted c held) (ha : a ∉ c.live) : c.links a = 0 := by
  by_contra hne
  obtain ⟨b, hb, hn⟩ := links_pos.mp (Nat.pos_of_ne_zero hne)
  exact ha (h.next_live b hb a hn)

end Counted

/-! ## Operations -/

/-- A new node, with one reference. -/
def push (c : RefCounts α) (a : α) : RefCounts α where
  live := a :: c.live
  next := Function.update c.next a none
  count := Function.update c.count a 1

def setCount (c : RefCounts α) (a : α) (n : Nat) : RefCounts α := { c with count := Function.update c.count a n }

/-- The node is given back. -/
def drop (c : RefCounts α) (a : α) : RefCounts α := { c with live := c.live.erase a }

def setNext (c : RefCounts α) (a : α) (n : Option α) : RefCounts α := { c with next := Function.update c.next a n }

namespace Counted

theorem push (h : Counted c held) (ha : a ∉ c.live) : Counted (c.push a) (a :: held) := by
  have hne : ∀ {b}, b ∈ c.live → b ≠ a := by
    rintro b hb rfl
    exact ha hb
  have hlinks : ∀ b, (c.push a).links b = c.links b := by
    intro b
    have hmap : c.live.filterMap (Function.update c.next a none) = c.live.filterMap c.next :=
      List.filterMap_congr (fun x hx => Function.update_of_ne (hne hx) _ _)
    simp [RefCounts.push, links, hmap]
  have hkeep : ∀ {b l}, Chain c.next (some b) l → b ∈ c.live → Chain (c.push a).next (some b) l := fun hl hb =>
    (seg_congr (fun x hx => Function.update_of_ne (hne (h.chain_live hb hl x hx)) _ _)).mpr hl
  have hheld : ∀ b, (a :: held).count b = held.count b + if b = a then 1 else 0 := by
    intro b
    by_cases hba : b = a
    · subst hba
      simp
    · rw [List.count_cons_of_ne (Ne.symm hba), if_neg hba]
      rfl
  refine ⟨List.nodup_cons.mpr ⟨ha, h.nodup⟩, ?_, ?_, ?_, ?_, ?_⟩
  · intro b hb
    rw [hlinks, hheld]
    rcases List.mem_cons.mp hb with rfl | hb
    · have hnot : held.count b = 0 := List.count_eq_zero.mpr (fun hin => ha (h.held_live b hin))
      simp [RefCounts.push, h.links_of_not_live ha, hnot]
    · simp [RefCounts.push, hne hb, h.count_eq b hb]
  · intro b hb
    rcases List.mem_cons.mp hb with rfl | hb
    · simp [RefCounts.push]
    · simpa [RefCounts.push, hne hb] using h.pos b hb
  · intro b hb
    rcases List.mem_cons.mp hb with rfl | hb
    · exact List.mem_cons_self
    · exact List.mem_cons_of_mem _ (h.held_live b hb)
  · intro b hb d hn
    rcases List.mem_cons.mp hb with rfl | hb
    · simp [RefCounts.push] at hn
    · simp only [RefCounts.push, Function.update_of_ne (hne hb)] at hn
      exact List.mem_cons_of_mem _ (h.next_live b hb d hn)
  · intro b hb
    rcases List.mem_cons.mp hb with rfl | hb
    · exact ⟨[b], rfl, by simp [RefCounts.push, Seg]⟩
    · obtain ⟨l, hl⟩ := h.ends b hb
      exact ⟨l, hkeep hl hb⟩

theorem of_perm {held' : List α} (h : Counted c held) (hperm : held.Perm held') : Counted c held' :=
  ⟨h.nodup, fun b hb => hperm.count_eq b ▸ h.count_eq b hb, h.pos, fun b hb => h.held_live b (hperm.mem_iff.mpr hb),
    h.next_live, h.ends⟩

/-- Only the counters of nodes in use matter. -/
theorem of_count (h : Counted c held) {count : α → Nat} (hcount : ∀ b ∈ c.live, count b = c.count b) :
    Counted { c with count := count } held := by
  refine ⟨h.nodup, fun b hb => ?_, fun b hb => ?_, h.held_live, h.next_live, h.ends⟩
  · exact (hcount b hb).trans (h.count_eq b hb)
  · have hpos := h.pos b hb
    rwa [← hcount b hb] at hpos

/-- One more reference. -/
theorem retain (h : Counted c held) (ha : a ∈ c.live) : Counted (c.setCount a (c.count a + 1)) (a :: held) := by
  refine ⟨h.nodup, ?_, ?_, ?_, h.next_live, h.ends⟩
  · intro b hb
    have hcount := h.count_eq b hb
    by_cases hba : b = a
    · subst hba
      simp only [setCount, Function.update_self, List.count_cons_self]
      show _ = _ + 1 + c.links b
      omega
    · simp only [setCount, Function.update_of_ne hba, List.count_cons_of_ne (Ne.symm hba)]
      exact hcount
  · intro b hb
    by_cases hba : b = a
    · subst hba
      simp [setCount]
    · simpa [setCount, hba] using h.pos b hb
  · intro b hb
    rcases List.mem_cons.mp hb with rfl | hb
    · exact ha
    · exact h.held_live b hb

/-- A reference is given up, and there are others. -/
theorem release_shared (h : Counted c (a :: held)) (hn : c.count a ≠ 1) :
    Counted (c.setCount a (c.count a - 1)) held := by
  obtain ⟨ha, hcount⟩ := h.count_pos_of_held
  refine ⟨h.nodup, ?_, ?_, fun b hb => h.held_live b (List.mem_cons_of_mem _ hb), h.next_live, h.ends⟩
  · intro b hb
    have heq := h.count_eq b hb
    by_cases hba : b = a
    · subst hba
      simp only [setCount, Function.update_self]
      show _ = _ + c.links b
      omega
    · rw [List.count_cons_of_ne (Ne.symm hba)] at heq
      simp only [setCount, Function.update_of_ne hba]
      exact heq
  · intro b hb
    by_cases hba : b = a
    · subst hba
      have hpos := h.pos b hb
      simp only [setCount, Function.update_self]
      omega
    · simpa [setCount, hba] using h.pos b hb

/-- The last reference is given up: the node goes, and its own reference is to be given up next. -/
theorem release_last (h : Counted c (a :: held)) (hn : c.count a = 1) : Counted (c.drop a) ((c.next a).toList ++ held) := by
  obtain ⟨ha, hcount⟩ := h.count_pos_of_held
  have hmem : ∀ b, b ∈ c.live.erase a ↔ b ≠ a ∧ b ∈ c.live := fun b => h.nodup.mem_erase_iff
  have hnone : ∀ b ∈ c.live, c.next b ≠ some a := by
    intro b hb heq
    have := links_pos.mpr ⟨b, hb, heq⟩
    omega
  have hfree : a ∉ held := fun hin => by
    have := List.count_pos_iff.mpr hin
    omega
  refine ⟨h.nodup.erase a, ?_, ?_, ?_, ?_, ?_⟩
  · intro b hb
    obtain ⟨hba, hb⟩ := (hmem b).mp hb
    have heq := h.count_eq b hb
    have htally := filterMap_erase_count ha c.next b
    rw [List.count_cons_of_ne (Ne.symm hba)] at heq
    rw [List.count_append]
    show c.count b = _ + ((c.live.erase a).filterMap c.next).count b
    unfold links at heq
    omega
  · exact fun b hb => h.pos b ((hmem b).mp hb).2
  · intro b hb
    refine (hmem b).mpr ?_
    rcases List.mem_append.mp hb with hb | hb
    · have hnext := Option.mem_toList.mp hb
      exact ⟨fun heq => hnone a ha (heq ▸ hnext), h.next_live a ha b hnext⟩
    · exact ⟨fun heq => hfree (heq ▸ hb), h.held_live b (List.mem_cons_of_mem _ hb)⟩
  · intro b hb d hd
    have hlive := ((hmem b).mp hb).2
    exact (hmem d).mpr ⟨fun heq => hnone b hlive (heq ▸ hd), h.next_live b hlive d hd⟩
  · exact fun b hb => h.ends b ((hmem b).mp hb).2

/-- A `next` field is written: the reference that goes into it was held, and the one that was in it is held now. -/
theorem relink {v : Option α} (h : Counted c (v.toList ++ held)) (ha : a ∈ c.live) {lv : List α}
    (hv : Chain c.next v lv) (hav : a ∉ lv) : Counted (c.setNext a v) ((c.next a).toList ++ held) := by
  refine ⟨h.nodup, ?_, h.pos, ?_, ?_, ?_⟩
  · intro b hb
    have heq := h.count_eq b hb
    have htally := filterMap_update_count h.nodup ha c.next v b
    rw [List.count_append] at heq ⊢
    show c.count b = _ + (c.live.filterMap (Function.update c.next a v)).count b
    unfold links at heq
    omega
  · intro b hb
    rcases List.mem_append.mp hb with hb | hb
    · exact h.next_live a ha b (Option.mem_toList.mp hb)
    · exact h.held_live b (List.mem_append_right _ hb)
  · intro b hb d hn
    by_cases hba : b = a
    · subst hba
      simp only [setNext, Function.update_self] at hn
      exact h.held_live d (List.mem_append_left _ (Option.mem_toList.mpr hn))
    · simp only [setNext, Function.update_of_ne hba] at hn
      exact h.next_live b hb d hn
  · intro b hb
    obtain ⟨l, hl⟩ := h.ends b hb
    exact chain_relink hv hav hl

/-- The reference in a `next` field is held instead. -/
theorem cut (h : Counted c held) (ha : a ∈ c.live) : Counted (c.setNext a none) ((c.next a).toList ++ held) :=
  relink (v := none) h ha (show Chain c.next none [] from rfl) List.not_mem_nil

end Counted

end RefCounts

end MultiIp.Lib

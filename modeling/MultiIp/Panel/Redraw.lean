import MultiIp.Panel.Cards

/-!
# When the cards are drawn again

`RefreshNetifsAsync` draws a list only if its signature is not that of the last
list that was drawn. Two lists of the board have one signature only if they
show the same, so the cards never lag behind a list that was read.
-/

namespace MultiIp.Panel

open Lib Wire Lwip Board Firmware

/-! ## What a list of the board shows -/

/-- Sockets with these ports, numbered from 1. -/
def numbered (ports : List Nat) : List SocketInfo :=
  ports.mapIdx (fun j (port : Nat) => ⟨((j + 1 : Nat) : Int), (port : Int)⟩)

/-- Digits and dots. -/
def IsDotted (t : Text) : Prop := ∀ c ∈ t, c.isDigit = true ∨ c = '.'

structure Printed (n : NetifInfo) : Prop where
  index : 0 ≤ n.Index
  ip : IsDotted n.Ip
  mask : IsDotted n.Mask
  gw : IsDotted n.Gw
  sockets : ∃ ports, n.Sockets = numbered ports

theorem isDotted_ntoa (ip : ip_addr_t) : IsDotted (ipaddr_ntoa ip) := fun _ hc => mem_ipaddr_ntoa hc

theorem isDotted_decimal (k : Nat) : IsDotted (decimal k) := fun _ hc => Or.inl (isDigit_of_mem_decimal hc)

theorem IsDotted.not_mem {t : Text} (h : IsDotted t) {sep : Char} (hdigit : sep.isDigit = false) (hdot : sep ≠ '.') :
    sep ∉ t := by
  intro hm
  rcases h sep hm with hc | hc
  · rw [hdigit] at hc
    cases hc
  · exact hdot hc

theorem shownNetif_printed (b : Board) (n : NetifPtr) (idx : Nat) : Printed (shownNetif b n idx) where
  index := Int.natCast_nonneg idx
  ip := isDotted_ntoa _
  mask := isDotted_ntoa _
  gw := isDotted_ntoa _
  sockets := by
    refine ⟨(socketsOn b n).map (fun i => (localPort b i).toNat), ?_⟩
    refine List.ext_getElem (by simp [shownNetif, shownSockets, numbered]) fun j h₁ h₂ => ?_
    simp [shownNetif, shownSockets, numbered]

theorem shownNetifs_printed (b : Board) : ∀ n ∈ shownNetifs b, Printed n := by
  intro n hn
  obtain ⟨k, hk, rfl⟩ := List.mem_mapIdx.mp hn
  exact shownNetif_printed b _ _

theorem list_ne_nil {f : Firmware} (h : Firmware.Inv f) : f.board.net.list ≠ [] := by
  obtain ⟨l, hl⟩ := h.board.net
  exact List.ne_nil_of_mem hl.phys_listed

/-! ## Signatures -/

def portsText (n : NetifInfo) : Text := ['+'].intercalate (n.Sockets.map (fun s => intText s.Port))

def netifFields (n : NetifInfo) : List Text := [intText n.Index, n.Ip, n.Mask, n.Gw, portsText n]

theorem buildSignature_eq (l : List NetifInfo) :
    buildSignature l = ['|'].intercalate (l.map (fun n => [','].intercalate (netifFields n))) := by
  rw [buildSignature]
  refine congrArg _ (List.map_congr_left fun n _ => ?_)
  simp [netifFields, portsText, List.intercalate_cons_cons]

theorem portsText_numbered {n : NetifInfo} {ports : List Nat} (h : n.Sockets = numbered ports) :
    portsText n = ['+'].intercalate (ports.map decimal) := by
  rw [portsText, h]
  refine congrArg _ (List.ext_getElem (by simp [numbered]) fun j h₁ h₂ => ?_)
  simp [numbered, intText_ofNat]

namespace Printed

variable {n m : NetifInfo}

theorem index_text (h : Printed n) : intText n.Index = decimal n.Index.toNat := by
  rw [← intText_ofNat, Int.toNat_of_nonneg h.index]

theorem mem_portsText (h : Printed n) {c : Char} (hc : c ∈ portsText n) : c = '+' ∨ c.isDigit = true := by
  obtain ⟨ports, hports⟩ := h.sockets
  rw [portsText_numbered hports] at hc
  cases ports with
  | nil => cases hc
  | cons p ports =>
    rcases mem_intercalate hc with rfl | ⟨t, ht, hc⟩
    · exact Or.inl rfl
    · obtain ⟨q, -, rfl⟩ := List.mem_map.mp (by exact ht : t ∈ (p :: ports).map decimal)
      exact Or.inr (isDigit_of_mem_decimal hc)

theorem not_mem_fields (h : Printed n) {sep : Char} (hdigit : sep.isDigit = false) (hdot : sep ≠ '.')
    (hplus : sep ≠ '+') : ∀ t ∈ netifFields n, sep ∉ t := by
  intro t ht
  simp only [netifFields, List.mem_cons, List.not_mem_nil, or_false] at ht
  rcases ht with rfl | rfl | rfl | rfl | rfl
  · rw [h.index_text]
    exact (isDotted_decimal _).not_mem hdigit hdot
  · exact h.ip.not_mem hdigit hdot
  · exact h.mask.not_mem hdigit hdot
  · exact h.gw.not_mem hdigit hdot
  · intro hm
    rcases h.mem_portsText hm with hc | hc
    · exact hplus hc
    · rw [hdigit] at hc
      cases hc

theorem index_inj (hn : Printed n) (hm : Printed m) (h : intText n.Index = intText m.Index) : n.Index = m.Index := by
  rw [hn.index_text, hm.index_text] at h
  rw [← Int.toNat_of_nonneg hn.index, decimal_inj h, Int.toNat_of_nonneg hm.index]

/-- The positions are not in the signature, but they follow from the number of the ports. -/
theorem sockets_inj (hn : Printed n) (hm : Printed m) (h : portsText n = portsText m) : n.Sockets = m.Sockets := by
  obtain ⟨ps, hps⟩ := hn.sockets
  obtain ⟨qs, hqs⟩ := hm.sockets
  have hword : ∀ l : List Nat, ∀ t ∈ l.map decimal, t ≠ [] ∧ '+' ∉ t := by
    intro l t ht
    obtain ⟨p, -, rfl⟩ := List.mem_map.mp ht
    exact ⟨decimal_ne_nil p, (isDotted_decimal p).not_mem (by decide) (by decide)⟩
  rw [portsText_numbered hps, portsText_numbered hqs] at h
  have hmap : ps.map decimal = qs.map decimal := intercalate_inj_words (hword ps) (hword qs) h
  rw [hps, hqs, (List.map_inj_right fun _ _ => decimal_inj).mp hmap]

theorem fields_inj (hn : Printed n) (hm : Printed m)
    (h : [','].intercalate (netifFields n) = [','].intercalate (netifFields m)) : n = m := by
  have hfields : netifFields n = netifFields m :=
    intercalate_inj (hn.not_mem_fields (by decide) (by decide) (by decide))
      (hm.not_mem_fields (by decide) (by decide) (by decide)) (by simp [netifFields]) (by simp [netifFields]) h
  simp only [netifFields, List.cons.injEq, and_true] at hfields
  obtain ⟨hindex, hip, hmask, hgw, hports⟩ := hfields
  cases n
  cases m
  simp only [NetifInfo.mk.injEq]
  exact ⟨hn.index_inj hm hindex, hip, hmask, hgw, hn.sockets_inj hm hports⟩

theorem entry (h : Printed n) :
    [','].intercalate (netifFields n) ≠ [] ∧ '|' ∉ [','].intercalate (netifFields n) := by
  refine ⟨by simp [netifFields, List.intercalate_cons_cons], fun hbar => ?_⟩
  rcases mem_intercalate hbar with hc | ⟨t, ht, hc⟩
  · exact absurd hc (by decide)
  · exact h.not_mem_fields (by decide) (by decide) (by decide) t ht hc

end Printed

theorem mem_entries {l : List NetifInfo} (hl : ∀ n ∈ l, Printed n) :
    ∀ t ∈ l.map (fun n => [','].intercalate (netifFields n)), t ≠ [] ∧ '|' ∉ t := by
  intro t ht
  obtain ⟨n, hn, rfl⟩ := List.mem_map.mp ht
  exact (hl n hn).entry

theorem buildSignature_inj {l m : List NetifInfo} (hl : ∀ n ∈ l, Printed n) (hm : ∀ n ∈ m, Printed n)
    (h : buildSignature l = buildSignature m) : l = m := by
  rw [buildSignature_eq, buildSignature_eq] at h
  have hmap := intercalate_inj_words (mem_entries hl) (mem_entries hm) h
  clear h
  induction l generalizing m with
  | nil =>
    rw [List.map_nil, eq_comm, List.map_eq_nil_iff] at hmap
    exact hmap.symm
  | cons n l ih =>
    cases m with
    | nil => cases hmap
    | cons k m =>
      rw [List.map_cons, List.map_cons, List.cons.injEq] at hmap
      have hhead : n = k := (hl n List.mem_cons_self).fields_inj (hm k List.mem_cons_self) hmap.1
      rw [hhead, ih (fun x hx => hl x (List.mem_cons_of_mem _ hx)) (fun x hx => hm x (List.mem_cons_of_mem _ hx))
        hmap.2]

/-- A signature is empty only before anything was drawn. -/
theorem buildSignature_ne_nil {l : List NetifInfo} (hl : ∀ n ∈ l, Printed n) (hne : l ≠ []) :
    buildSignature l ≠ [] := by
  rw [buildSignature_eq]
  intro h
  exact hne (List.map_eq_nil_iff.mp (intercalate_eq_nil (fun t ht => (mem_entries hl t ht).1) h))

/-! ## The lists that the panel reads -/

/-- The panel can take the answer to NETIF LIST for the list `l`, however the answer is cut into chunks and
whatever events stand between its lines. -/
def ReadsList (cu : Culture) (f : Firmware) (l : List NetifInfo) : Prop :=
  ∃ (col : Collector) (pieces chunks : List Text) (resp : ProtocolResponse),
    Inserted IsEvent (linesOf (cmd_netif_list f).2) pieces ∧ chunks.flatten = pieces.flatten ∧
    (chunks.foldl (portDataReceived cu) ([], (col, []))).2.2 = [resp] ∧ parseNetifList resp = l

theorem inserted_refl (E : Text → Prop) (ps : List Text) : Inserted E ps ps := by
  induction ps with
  | nil => exact .nil
  | cons p ps ih => exact ih.keep p

theorem readsList_iff (cu : Culture) {f : Firmware} (h : Firmware.Inv f) (l : List NetifInfo) :
    ReadsList cu f l ↔ l = shownNetifs f.board := by
  have hdel : Delivers cu (cmd_netif_list f).2 (fun resp => parseNetifList resp = shownNetifs f.board) := by
    rw [netif_list_print h]
    exact delivers_answer cu (isWord_name (by decide) (isData_listData _ _ _)) (parse_list _ (list_length_lt h) _)
  constructor
  · rintro ⟨col, pieces, chunks, resp, hins, hflat, hresp, rfl⟩
    obtain ⟨resp', hresp', hshown⟩ := hdel col pieces chunks hins hflat
    rw [hresp, List.cons.injEq] at hresp'
    rw [hresp'.1, hshown]
  · rintro rfl
    obtain ⟨resp, hresp, hshown⟩ := hdel .init _ _ (inserted_refl _ _) rfl
    exact ⟨.init, _, _, resp, inserted_refl _ _, rfl, hresp, hshown⟩

theorem listing_infos {w : World} (h : Firmware.Inv w.fw) : w.listing.map (·.info) = shownNetifs w.fw.board := by
  rw [listing_eq h, shownNetifs]
  refine List.ext_getElem (by simp) fun k h₁ h₂ => ?_
  simp [cardOf]

/-! ## Runs -/

namespace World

/-- The signature is that of the cards, or it was forgotten. -/
structure Fresh (w : World) : Prop where
  fw : Firmware.Inv w.fw
  listings : ∀ cards ∈ w.listings, cards ≠ [] ∧ ∀ c ∈ cards, Printed c.info
  cards : ∀ c ∈ w.cards, Printed c.info
  signature : w.lastSignature = [] ∨ w.lastSignature = buildSignature (w.cards.map (·.info))

theorem start_fresh (c : Boot) : (start c).Fresh where
  fw := Firmware.boot_inv c
  listings _ h := by cases h
  cards _ h := by cases h
  signature := Or.inl rfl

theorem printed_infos {cards : List Card} (h : ∀ c ∈ cards, Printed c.info) : ∀ n ∈ cards.map (·.info), Printed n := by
  intro n hn
  obtain ⟨c, hc, rfl⟩ := List.mem_map.mp hn
  exact h c hc

section

variable {w : World} (h : w.Fresh)
include h

theorem Fresh.listing : w.listing ≠ [] ∧ ∀ c ∈ w.listing, Printed c.info := by
  have hinfos := listing_infos h.fw
  constructor
  · intro hnil
    rw [hnil, List.map_nil, shownNetifs, eq_comm, List.mapIdx_eq_nil_iff] at hinfos
    exact list_ne_nil h.fw hinfos
  · intro c hc
    exact shownNetifs_printed w.fw.board _ (hinfos ▸ List.mem_map_of_mem hc)

theorem Fresh.execute (p : Queued) (env : Env) : (w.execute p env).Fresh := by
  have hfw := h.fw.dispatch env p.line
  cases p with
  | card c a line => exact { h with fw := hfw }
  | refresh =>
    refine { h with fw := hfw, listings := ?_ }
    intro cards hc
    rcases List.mem_append.mp hc with hc | hc
    · exact h.listings cards hc
    · obtain rfl := List.mem_singleton.mp hc
      exact h.listing
  | other line => exact { h with fw := hfw }

/-- A list that was read and is not drawn is on the cards already. -/
theorem Fresh.drawn {cards : List Card} (hc : cards ∈ w.listings) :
    (w.draw cards).Fresh ∧ (w.draw cards).cards.map (·.info) = cards.map (·.info) := by
  obtain ⟨hne, hprinted⟩ := h.listings cards hc
  unfold draw
  dsimp only
  split
  · rename_i hsame
    refine ⟨h, ?_⟩
    have hnil : buildSignature (cards.map (·.info)) ≠ [] :=
      buildSignature_ne_nil (printed_infos hprinted) (fun hmap => hne (List.map_eq_nil_iff.mp hmap))
    rcases h.signature with hsig | hsig
    · exact absurd (hsame.trans hsig) hnil
    · exact (buildSignature_inj (printed_infos hprinted) (printed_infos h.cards) (hsame.trans hsig)).symm
  · exact ⟨{ h with cards := hprinted, signature := Or.inr rfl }, rfl⟩

theorem Fresh.step (a : Step) : (w.step a).Fresh := by
  cases a with
  | click i => exact { h with }
  | issue i a =>
    simp only [World.step]
    split <;> exact { h with }
  | send line => exact { h with }
  | refresh => exact { h with }
  | execute i env =>
    simp only [World.step]
    split
    · exact { h.execute _ env with }
    · exact h
  | giveUp i => exact { h with }
  | draw i =>
    simp only [World.step]
    split
    · rename_i cards hc
      exact (h.drawn (List.mem_of_getElem? hc)).1
    · exact h
  | forget => exact { h with signature := Or.inl rfl }
  | disconnect => exact { h with cards := by simp [World.step], signature := Or.inl rfl }
  | interrupt i => exact { h with fw := h.fw.interrupt i }
  | poll id msg => exact { h with fw := h.fw.call (.poll_rx id msg) (fun n hn => by cases hn) }

end

theorem run_fresh (c : Boot) (as : List Step) : (machine.run (.start c) as).Fresh := by
  have hlegal : ∀ (w : World) (as : List Step), machine.Legal w as := by
    intro w as
    induction as generalizing w with
    | nil => trivial
    | cons a as ih => exact ⟨trivial, ih _⟩
  exact Lib.Machine.run_invariant (P := Fresh) (fun _ a hw _ => hw.step a) (start_fresh c) (hlegal _ as)

end World

/-- Lists of the board with one signature are equal, and once a list that was read is drawn, the cards show it. -/
theorem cards_up_to_date (cu : Culture) :
    (∀ (c d : Boot) (es gs : List Event) (l m : List NetifInfo), machine.Legal (boot c) es → machine.Legal (boot d) gs →
      ReadsList cu (machine.run (boot c) es) l → ReadsList cu (machine.run (boot d) gs) m →
      (buildSignature l = buildSignature m → l = m) ∧ (l ≠ [] → buildSignature l ≠ [])) ∧
    ∀ (c : Boot) (as : List World.Step),
      (∀ l, ReadsList cu (World.machine.run (.start c) as).fw l ↔
        l = (World.machine.run (.start c) as).listing.map (·.info)) ∧
      ∀ i cards, (World.machine.run (.start c) as).listings[i]? = some cards →
        (World.machine.run (.start c) (as ++ [.draw i])).cards.map (·.info) = cards.map (·.info) := by
  refine ⟨fun c d es gs l m hes hgs hl hm => ?_, fun c as => ⟨fun l => ?_, fun i cards hc => ?_⟩⟩
  · obtain rfl := (readsList_iff cu (inv_reachable c hes) l).mp hl
    obtain rfl := (readsList_iff cu (inv_reachable d hgs) m).mp hm
    exact ⟨buildSignature_inj (shownNetifs_printed _) (shownNetifs_printed _),
      buildSignature_ne_nil (shownNetifs_printed _)⟩
  · rw [readsList_iff cu (World.run_fresh c as).fw, listing_infos (World.run_fresh c as).fw]
  · have hdrawn := ((World.run_fresh c as).drawn (List.mem_of_getElem? hc)).2
    rw [Lib.Machine.run_append]
    show (World.step _ (.draw i)).cards.map _ = _
    simp only [World.step]
    rw [hc]
    exact hdrawn

/-- An interface is added and deleted again. -/
def undoneRun : List Event :=
  [.line sampleEnv "NETIF ADD 10.0.0.20 255.255.255.0 10.0.0.1".toList, .line sampleEnv "NETIF DEL 1".toList]

/-- The first list is read. -/
def firstReading : List World.Step := [.refresh, .execute 0 sampleEnv]

theorem cards_up_to_date_sample :
    shownNetifs (machine.run (boot (.main ethzero true)) undoneRun).board =
      shownNetifs (Firmware.boot (.main ethzero true)).board ∧
    ∃ cards, (World.machine.run (.start (.main ethzero true)) firstReading).listings[0]? = some cards ∧
      (World.machine.run (.start (.main ethzero true)) (firstReading ++ [.draw 0])).cards.map (·.info) =
        cards.map (·.info) := by
  have hundone : machine.Legal (boot (.main ethzero true)) undoneRun := by decide
  have hreads : ∀ es : List Event, machine.Legal (boot (.main ethzero true)) es →
      ReadsList .ordinal (machine.run (boot (.main ethzero true)) es)
        (shownNetifs (machine.run (boot (.main ethzero true)) es).board) :=
    fun es hes => (readsList_iff _ (inv_reachable _ hes) _).mpr rfl
  have hsig : buildSignature (shownNetifs (machine.run (boot (.main ethzero true)) undoneRun).board) =
      buildSignature (shownNetifs (Firmware.boot (.main ethzero true)).board) := by decide +kernel
  obtain ⟨hlists, hruns⟩ := cards_up_to_date .ordinal
  obtain ⟨cards, hcards⟩ : ∃ cards,
      (World.machine.run (.start (.main ethzero true)) firstReading).listings[0]? = some cards :=
    Option.isSome_iff_exists.mp (by decide +kernel)
  exact ⟨(hlists _ _ undoneRun [] _ _ hundone trivial (hreads _ hundone) (hreads _ trivial)).1 hsig, cards, hcards,
    (hruns _ firstReading).2 0 cards hcards⟩

end MultiIp.Panel

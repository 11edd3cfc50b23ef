import IntelGfx.Verify.Frame

/-!
# The framebuffer

The driver writes only the entries of the global GTT that are its own, whatever it is asked for, so
that the others are what the firmware and `agp_gart` have written. `kFramebuffer` shows the engines
of a client the framebuffer where these entries have it.
-/

namespace IntelGfx
open Memory RenderEngine

/-- The pages of the global GTT that are the driver's. -/
def Config.Managed (config : Config) (p : Nat) : Prop :=
  pageRound config.reserved / 4096 ≤ p ∧ p < pageRound config.reserved / 4096 +
    min (config.tableSize / 8 * 4096 % 2 ^ 64 - pageRound config.reserved)
      GlobalGTT.kManagedSize / 4096

namespace Device

/-- What others than the driver write in a call. -/
def Call.writes : Call → (Nat → Nat) → Nat → Nat
  | .gart page entry, entries => Function.update entries page entry
  | .open, entries | .ioctl _ _ _, entries | .close _, entries => entries

/-- The entries that others than the driver have written last, from those of the firmware on. -/
def written (entries : Nat → Nat) (calls : List (Call × Oracle)) : Nat → Nat :=
  calls.foldl (fun entries a => a.1.writes entries) entries

end Device

namespace GlobalGTT
variable {ω : Oracle} {os os' : Os α} {g g' : GlobalGTT}

theorem destroy_part (os : Os α) (g : GlobalGTT) :
    (g.destroy os).2.firstPage = g.firstPage ∧ (g.destroy os).2.pageCount = g.pageCount ∧
      ∀ p, ¬ (g.firstPage ≤ p ∧ p < g.firstPage + g.pageCount) →
        (g.destroy os).2.entries p = g.entries p := by
  have hout (p : Nat) (hp : ¬ (g.firstPage ≤ p ∧ p < g.firstPage + g.pageCount)) :
      ¬ (g.firstPage + 0 ≤ p ∧ p < g.firstPage + 0 + g.pageCount) := by simpa using hp
  unfold destroy
  rw [fill_eq]
  cases g.scratchArea with
  | none =>
    dsimp only
    split
    · exact ⟨rfl, rfl, fun p hp => if_neg (hout p hp)⟩
    · exact ⟨rfl, rfl, fun _ _ => rfl⟩
  | some a =>
    dsimp only
    split
    · exact ⟨rfl, rfl, fun p hp => if_neg (hout p hp)⟩
    · exact ⟨rfl, rfl, fun _ _ => rfl⟩

end GlobalGTT

namespace Memory
variable {ω : Oracle} {g : GlobalGTT} {m m' : Memory} {config : Config} {entries : Nat → Nat}

/-- The driver has written only what is its own: the rest is as others have left it. -/
structure Firmware (config : Config) (entries : Nat → Nat) (m : Memory) : Prop where
  entry : ∀ p, ¬ config.Managed p → m.gtt.entries p = entries p
  managed : ∀ p, m.gtt.firstPage ≤ p ∧ p < m.gtt.firstPage + m.gtt.pageCount → config.Managed p

namespace Firmware

theorem of_gtt (F : m.Firmware config entries) (h : m'.gtt = m.gtt) : m'.Firmware config entries :=
  ⟨by rw [h]; exact F.entry, by rw [h]; exact F.managed⟩

/-- Nothing else is written as long as the global GTT is not set up or taken down. -/
theorem of_inv (F : m.Firmware config entries) (H : m.Inv g) (H' : m'.Inv g) :
    m'.Firmware config entries := by
  have hfirst : m'.gtt.firstPage = m.gtt.firstPage :=
    H'.aperture.firstPage.trans H.aperture.firstPage.symm
  have hcount : m'.gtt.pageCount = m.gtt.pageCount :=
    H'.aperture.pageCount.trans H.aperture.pageCount.symm
  refine ⟨fun p hp => ?_, fun p hp => F.managed p ?_⟩
  · have hout : ¬ (g.firstPage ≤ p ∧ p < g.firstPage + g.pageCount) := by
      rw [← H.aperture.firstPage, ← H.aperture.pageCount]
      exact fun h => hp (F.managed p h)
    exact (H'.aperture.outside p hout).trans
      ((H.aperture.outside p hout).symm.trans (F.entry p hp))
  · rwa [hfirst, hcount] at hp

theorem initGTT {r : Except Error Unit} (F : m.Firmware config entries)
    (h : m.initGTT ω config = (r, m')) : m'.Firmware config entries := by
  unfold Memory.initGTT at h
  generalize hi : m.gtt.init ω m.os Owner.gtt config.registers config.barSize config.generation
    config.tableSize config.reserved = res at h
  obtain ⟨r₁, os', gtt'⟩ := res
  cases h
  cases r with
  | error e => exact F.of_gtt (GlobalGTT.init_error hi)
  | ok u =>
    obtain ⟨-, -, hout⟩ := GlobalGTT.init_ok hi
    obtain ⟨hfirst, hcount⟩ := GlobalGTT.init_part hi
    have hmanaged (p : Nat) : gtt'.firstPage ≤ p ∧ p < gtt'.firstPage + gtt'.pageCount ↔
        config.Managed p := by rw [hfirst, hcount, Config.Managed]
    exact ⟨fun p hp => (hout p ((hmanaged p).not.mpr hp)).trans (F.entry p hp),
      fun p hp => (hmanaged p).mp hp⟩

theorem deleteGTT (F : m.Firmware config entries) : m.deleteGTT.Firmware config entries := by
  obtain ⟨hfirst, hcount, hout⟩ := GlobalGTT.destroy_part m.os m.gtt
  have hgtt : m.deleteGTT.gtt = (m.gtt.destroy m.os).2 := rfl
  refine ⟨fun p hp => ?_, fun p hp => F.managed p ?_⟩
  · rw [hgtt, hout p fun h => hp (F.managed p h)]
    exact F.entry p hp
  · rwa [hgtt, hfirst, hcount] at hp

/-- Others write an entry, which is none of the driver's as it is not managed. -/
theorem gart (F : m.Firmware config entries) (page entry : Nat) :
    (m.gart page entry).Firmware config (Function.update entries page entry) := by
  rw [Memory.gart]
  split
  · next h =>
    refine ⟨fun p hp => (F.entry p hp).trans (Function.update_of_ne ?_ ..).symm, F.managed⟩
    rintro rfl
    exact hp (F.managed p h)
  · refine ⟨fun p hp => ?_, F.managed⟩
    rw [Function.update_apply]
    exact if_congr .rfl rfl (F.entry p hp)

end Firmware
end Memory

namespace Device
variable {ω : Oracle} {g : GlobalGTT} {d : Device} {config : Config} {entries : Nat → Nat}

/-- The driver has written only what is its own: the rest is as others have left it. -/
structure Firmware (config : Config) (entries : Nat → Nat) (d : Device) : Prop where
  same : d.config = config
  mem : d.mem.Firmware config entries

namespace Firmware

theorem initGTT (F : Firmware config entries d) (I : d.Inv g) :
    Firmware config entries (d.initGTT ω) := by
  rw [Device.initGTT]
  split
  · exact F
  rename_i hv
  have hv : d.mem.gtt.valid = false := Bool.eq_false_iff.mpr hv
  have hnone := I.gtt hv
  split
  · next m ha => exact ⟨F.same, F.mem.of_gtt (allocate_idle ha).gtt⟩
  next m ha =>
  have I₁ := I.idle (allocate_idle ha)
  have F₁ := F.mem.of_gtt (allocate_idle ha).gtt
  have hv₁ : m.gtt.valid = false := (congrArg GlobalGTT.valid (allocate_idle ha).gtt).trans hv
  have hconfig := F.same
  subst hconfig
  split
  · next e m' hi => exact ⟨rfl, F₁.initGTT hi⟩
  next m' hi =>
  have F₂ := F₁.initGTT hi
  obtain ⟨-, -, g', M, hok, -⟩ := initGTT_spec I₁.mem hv₁ hi
  have I₂ : Inv g' { d with mem := m' } := by
    refine I₁.shared rfl rfl rfl .rfl M (fun o ho => ho ▸ rfl) I₁.master
      (fun he o ho => (I₁.absent he o ho).frame M ?_) fun _ => hnone
    rintro rfl
    cases ho
  split
  next blitter m₃ hb =>
  obtain ⟨I₃, hv₃, -⟩ := I₂.createMaster (hok rfl) (hnone .blitter) hb
  split
  next render m₄ hr =>
  obtain ⟨I₄, -⟩ :=
    I₃.createMaster hv₃ ((Function.update_of_ne (by decide) ..).trans (hnone .render)) hr
  exact ⟨rfl, (F₂.of_inv I₂.mem I₃.mem).of_inv I₃.mem I₄.mem⟩

theorem uninit (F : Firmware config entries d) (H : d.mem.Inv g) :
    Firmware config entries d.uninit := by
  rw [Device.uninit]
  split
  · exact F
  · obtain ⟨M, -⟩ := destroyAll_spec ([EngineId.render, .blitter].filterMap d.masters) H
    exact ⟨F.same, (F.mem.of_inv H M.inv).deleteGTT⟩

theorem openClient (F : Firmware config entries d) (I : d.Inv g) :
    Firmware config entries (d.openClient ω) := by
  rw [Device.openClient]
  generalize hs : (if d.openCount = 0 then d.mem.allocate ω else (.ok (), d.mem)) = res
  obtain ⟨status, m⟩ := res
  have hidle : d.mem.Idle m := by
    split at hs
    · exact allocate_idle hs
    · obtain ⟨-, rfl⟩ := Prod.mk.inj hs
      exact .rfl
  have F₁ : Firmware config entries { d with mem := m } := ⟨F.same, F.mem.of_gtt hidle.gtt⟩
  cases status with
  | error e => exact F₁
  | ok u =>
    have I₁ := I.idle hidle
    have F₂ := F₁.initGTT (ω := ω) I₁
    obtain ⟨⟨g', I₂⟩, -⟩ := I₁.initGTT ω
    dsimp only
    generalize Device.initGTT ω { d with mem := m } = d₂ at I₂ F₂ ⊢
    split
    · next e m₃ ha =>
      have F₃ : Firmware config entries { d₂ with mem := m₃ } :=
        ⟨F₂.same, F₂.mem.of_gtt (allocate_idle ha).gtt⟩
      split
      · exact F₃.uninit (I₂.idle (allocate_idle ha)).mem
      · exact F₃
    next m₃ ha =>
    have I₃ := I₂.idle (allocate_idle ha)
    have hfree : d₂.clients d₂.nextClient = none := by
      by_contra hne
      obtain ⟨x, hx⟩ := Option.ne_none_iff_exists'.mp hne
      exact Nat.lt_irrefl _ (I₃.client hx).1
    generalize hnew : RenderClient.new ω d₂.nextClient d₂.config d₂.masters m₃ = res
    obtain ⟨x, m₄⟩ := res
    obtain ⟨M, -⟩ := RenderClient.new_spec I₃.mem (fun o ho =>
      (I₃.gone ho hfree).resolve_right fun h => Nat.lt_irrefl _ h.1) hnew
    exact ⟨F₂.same, F₂.mem.of_inv I₂.mem M.inv⟩

theorem closeClient (F : Firmware config entries d) (I : d.Inv g) (c : Nat) :
    Firmware config entries (d.closeClient ω c) := by
  rw [Device.closeClient]
  cases hx : d.clients c with
  | none => exact F
  | some x =>
    obtain ⟨-, -, S⟩ := I.client hx
    have H : ((d.session x).destroy ω).Inv g := by
      cases hq : (d.session x).quarantined with
      | true =>
        rw [Session.destroy, if_pos hq]
        exact S.mem
      | false => exact (Session.destroy_spec (ω := ω) S hq).1.inv
    have F₁ : Firmware config entries { d with
        mem := (d.session x).destroy ω
        clients := Function.update d.clients c none
        openCount := d.openCount - 1 } := ⟨F.same, F.mem.of_inv I.mem H⟩
    dsimp only
    split
    · exact F₁.uninit H
    · exact F₁

theorem start (config : Config) (entries : Nat → Nat) (foreign : List Nat) :
    Firmware config entries (Device.start config entries foreign) := by
  refine ⟨rfl, fun _ _ => rfl, fun p ⟨_, hp⟩ => absurd hp ?_⟩
  exact Nat.not_lt_zero p

theorem step (F : Firmware config entries d) (I : d.Inv g) (a : Call × Oracle) :
    Firmware config (a.1.writes entries) (Device.step a d) := by
  obtain ⟨call, ω⟩ := a
  have I₁ := I.idle (idle_enter d.mem)
  have F₁ : Firmware config entries { d with mem := d.mem.enter } :=
    ⟨F.same, F.mem.of_gtt (idle_enter d.mem).gtt⟩
  unfold Device.step
  cases call with
  | «open» => exact F₁.openClient I₁
  | ioctl c header request =>
    dsimp only
    rw [Device.ioctl]
    split
    · exact F₁
    · next x hx =>
      generalize h : Session.ioctl ω _ header request = res
      exact ⟨F₁.same, F₁.mem.of_inv I₁.mem (I₁.request hx h).1.mem⟩
  | close c => exact F₁.closeClient I₁ c
  | gart page entry => exact ⟨F₁.same, F₁.mem.gart page entry⟩

theorem exec (F : Firmware config entries d) (I : ∃ g, d.Inv g) (calls : List (Call × Oracle)) :
    Firmware config (written entries calls) (Run.exec Device.step d calls) := by
  induction calls generalizing d entries with
  | nil => exact F
  | cons a calls ih =>
    obtain ⟨g, I⟩ := I
    exact ih (F.step I a) (step_inv a I).1

end Firmware

theorem exec_firm (config : Config) (entries : Nat → Nat) (foreign : List Nat)
    (calls : List (Call × Oracle)) :
    Firmware config (written entries calls)
      (Run.exec step (start config entries foreign) calls) :=
  (Firmware.start config entries foreign).exec ⟨_, start_inv config entries foreign⟩ calls

/-- Whatever the users of the device do, and whatever fails: the driver leaves each entry of the
global GTT that is not its own as it is, so that it is what the firmware or `agp_gart` has written
there last. -/
theorem exec_firmware (config : Config) (entries : Nat → Nat) (foreign : List Nat)
    (calls : List (Call × Oracle)) (p : Nat) (hp : ¬ config.Managed p) :
    (Run.exec step (start config entries foreign) calls).mem.gtt.entries p =
      written entries calls p :=
  (exec_firm config entries foreign calls).mem.entry p hp

/-- What `agp_gart` has written to an entry is there after a client has come and gone. -/
theorem exec_firmware_open :
    (Run.exec step (start Config.blitter (fun p => p * 4096 + 1) [])
      [(.gart 2 0x9001, .unfailing), (.open, .unfailing),
        (.close 0, .unfailing)]).mem.gtt.entries 2 = 0x9001 :=
  exec_firmware Config.blitter (fun p => p * 4096 + 1) [] [(.gart 2 0x9001, .unfailing),
    (.open, .unfailing), (.close 0, .unfailing)] 2 fun h => absurd h.1 (by decide +kernel)

end Device

/-! ## `kFramebuffer` -/

/-- The addresses of the framebuffer, rounded to pages. -/
def FrameRange (address size a : Nat) : Prop :=
  address / 4096 * 4096 ≤ a ∧ a < (address + size + 4095) % 2 ^ 64 / 4096 * 4096

namespace Session
variable {ω : Oracle} {g : GlobalGTT} {e : RenderEngine} {engines : List RenderEngine}
  {m m' : Memory} {address size : Nat} {s s' : Session}

/-- What the engines may have done to the translation of `x`: it is in the framebuffer, and the
global GTT resolves it so. -/
abbrev Framed (engines : List RenderEngine) (gtt : GlobalGTT) (address size : Nat) (o : Owner)
    (x _s p : Nat) : Prop :=
  Spaces engines o ∧ FrameRange address size x ∧ gtt.lookup (x / 4096 * 4096) = .ok p

/-- The page that an address of a range of pages is in. -/
theorem page_of_range {first last a : Nat} (hfirst : first % 4096 = 0) (hlast : last % 4096 = 0)
    (hlo : first ≤ a) (hhi : a < last) : (a - first) / 4096 < (last - first) / 4096 ∧
      a < first + (a - first) / 4096 * 4096 + 4096 ∧ a < first + (last - first) / 4096 * 4096 := by
  omega

theorem mapGlobalRange_framed {r : Except Error Unit} (H : m.Inv g)
    (hpt : ∃ pt, m.tables e.addressSpace = some pt)
    (h : e.mapGlobalRange ω m address size = (r, m')) :
    Retabled (Framed [e] m.gtt address size) m m' ∧ (r = .ok () → e.ready = true ∧
      ∀ pt', m'.tables e.addressSpace = some pt' → ∀ a, FrameRange address size a →
        a < 2 ^ 48 ∧ m.gtt.lookup (a / 4096 * 4096) = .ok (pt'.translate a)) := by
  unfold RenderEngine.mapGlobalRange at h
  split at h
  · cases h
    refine ⟨.of_eq rfl, fun hr => ?_⟩
    cases hr
  rename_i hready
  obtain ⟨pt, hpt⟩ := hpt
  obtain ⟨-, -, nodes, R⟩ := H.tables hpt
  obtain ⟨-, -, -, done, pt', nodes', ht, G⟩ :=
    mapGlobalPages_spec H hpt R (Nat.mul_mod_left _ _) h
  have hle := G.le
  refine ⟨.of_update hpt ht (congrArg (·.2.2.2.1) G.grown.fixed) fun x hx => ?_, fun hr =>
    ⟨by simpa using hready, fun pt₁ hpt₁ a ha => ?_⟩⟩
  · obtain ⟨hout, hin⟩ := G.translate x hx
    by_cases hr : address / 4096 * 4096 ≤ x ∧ x < address / 4096 * 4096 + done * 4096
    · exact .inr ⟨spaces_head rfl, ⟨hr.1, by omega⟩, hin hr⟩
    · exact .inl (hout hr)
  · rw [ht, Function.update_self] at hpt₁
    cases hpt₁
    obtain ⟨hj, hpage, hin⟩ :=
      page_of_range (Nat.mul_mod_left _ _) (Nat.mul_mod_left _ _) ha.1 ha.2
    rw [← G.ok hr] at hj hin
    obtain ⟨-, hlimit, -⟩ := G.reached _ hj
    have hlt : a < 2 ^ 48 := by
      have hround : (address / 4096 * 4096 + (a - address / 4096 * 4096) / 4096 * 4096) % 4096 =
          0 := by
        rw [← Nat.add_mul, Nat.mul_mod_left]
      omega
    exact ⟨hlt, (G.translate a hlt).2 ⟨ha.1, hin⟩⟩

theorem mapGlobalRanges_framed {r : Except Error Unit} (H : m.Inv g)
    (hpt : ∀ e ∈ engines, ∃ pt, m.tables e.addressSpace = some pt)
    (h : mapGlobalRanges ω address size engines m = (r, m')) :
    Retabled (Framed engines m.gtt address size) m m' ∧ (r = .ok () → ∀ e ∈ engines,
      ∀ pt', m'.tables e.addressSpace = some pt' → ∀ a, FrameRange address size a →
        m.gtt.lookup (a / 4096 * 4096) = .ok (pt'.translate a)) := by
  induction engines generalizing m with
  | nil =>
    cases h
    refine ⟨.of_eq rfl, fun _ e he => ?_⟩
    cases he
  | cons e engines ih =>
    unfold mapGlobalRanges at h
    generalize h1 : e.mapGlobalRange ω m address size = res at h
    obtain ⟨r₁, m₁⟩ := res
    obtain ⟨M₁, -, hgtt₁, -⟩ := mapGlobalRange_spec H (hpt e List.mem_cons_self) h1
    obtain ⟨hT₁, hok₁⟩ := mapGlobalRange_framed H (hpt e List.mem_cons_self) h1
    have hT₁' : Retabled (Framed (e :: engines) m.gtt address size) m m₁ := by
      refine hT₁.mono fun q x s p hq => ⟨?_, hq.2⟩
      obtain ⟨y, hy, rfl⟩ := hq.1
      exact spaces_head (by rw [List.mem_singleton.mp hy])
    cases r₁ with
    | error s =>
      cases h
      refine ⟨hT₁', fun hr => ?_⟩
      cases hr
    | ok u =>
      have hpt₁ : ∀ e ∈ engines, ∃ pt, m₁.tables e.addressSpace = some pt := by
        intro y hy
        refine Option.isSome_iff_exists.mp ((hT₁.isSome _).trans ?_)
        exact Option.isSome_iff_exists.mpr (hpt y (List.mem_cons_of_mem _ hy))
      obtain ⟨hT₂, hok₂⟩ := ih M₁.inv hpt₁ h
      rw [hgtt₁] at hT₂ hok₂
      refine ⟨hT₁'.trans (hT₂.mono fun q x s p hq => ⟨spaces_cons hq.1, hq.2⟩),
        fun hr y hy pt' hpt' a ha => ?_⟩
      rcases List.mem_cons.mp hy with rfl | hy
      · -- the later engines leave it alone, or enter the same page
        obtain ⟨pt₁, hpt₁, -, htr⟩ := hT₂.back hpt'
        obtain ⟨hlt, hlookup⟩ := (hok₁ rfl).2 pt₁ hpt₁ a ha
        rcases htr a hlt with h | ⟨-, -, h⟩
        · rw [h]
          exact hlookup
        · exact h
      · exact hok₂ hr y hy pt' hpt' a ha

/-- Nothing changes but what the engines show in the framebuffer, and if the request succeeds they
show all of it. -/
theorem framebuffer_framed {info : SharedInfo} {r : Except Error Reply} (I : s.Inv g)
    (h : s.framebuffer ω (some info) = (r, s')) :
    (s'.client = s.client ∧ s'.masters = s.masters ∧ s'.mem.objects = s.mem.objects ∧
      s'.mem.gtt = s.mem.gtt) ∧
    Retabled (fun o x t p => s.client.gtt = true ∧ Framed s.readyEngines s.mem.gtt
      info.frameBufferOffset (info.bytesPerRow * info.virtualHeight) o x t p) s.mem s'.mem ∧
    (∀ y, r = .ok y → s.client.gtt = true → ∀ e ∈ s.readyEngines,
      ∀ pt', s'.mem.tables e.addressSpace = some pt' → ∀ a,
        FrameRange info.frameBufferOffset (info.bytesPerRow * info.virtualHeight) a →
        s.mem.gtt.lookup (a / 4096 * 4096) = .ok (pt'.translate a)) := by
  unfold framebuffer at h
  dsimp only at h
  split at h
  · cases h
    refine ⟨⟨rfl, rfl, rfl, rfl⟩, .of_eq rfl, fun y hy => ?_⟩
    cases hy
  generalize he : (if s.client.gtt = true then s.readyEngines else []) = engines at h
  have hengines : ∀ x ∈ engines, s.client.gtt = true ∧ x ∈ s.readyEngines := by
    intro x hx
    subst he
    split at hx
    · exact ⟨‹_›, hx⟩
    · cases hx
  have hpt : ∀ x ∈ engines, ∃ pt, s.mem.tables x.addressSpace = some pt := by
    intro x hx
    obtain ⟨e, hx, -⟩ := mem_readyEngines (hengines x hx).2
    obtain ⟨-, -, hspace, -, -, hpt⟩ := I.client.equipped.engine hx
    exact hspace ▸ hpt
  generalize hm : mapGlobalRanges ω info.frameBufferOffset (info.bytesPerRow * info.virtualHeight)
    engines s.mem = res at h
  obtain ⟨r₁, m₁⟩ := res
  obtain ⟨-, hobj, hgtt, -⟩ := mapGlobalRanges_spec I.mem hpt hm
  obtain ⟨hT, hok⟩ := mapGlobalRanges_framed I.mem hpt hm
  have hT' : Retabled (fun o x t p => s.client.gtt = true ∧ Framed s.readyEngines s.mem.gtt
      info.frameBufferOffset (info.bytesPerRow * info.virtualHeight) o x t p) s.mem m₁ := by
    refine hT.mono fun q x t p hq => ?_
    obtain ⟨⟨y, hy, rfl⟩, hframe⟩ := hq
    exact ⟨(hengines y hy).1, ⟨y, (hengines y hy).2, rfl⟩, hframe⟩
  cases r₁ with
  | error e =>
    cases h
    refine ⟨⟨rfl, rfl, hobj, hgtt⟩, hT', fun y hy => ?_⟩
    cases hy
  | ok u =>
    have hidle : Idle (s.setMem m₁) s' := reply_idle h
    have htables : s'.mem.tables = m₁.tables := hidle.mem.tables
    refine ⟨⟨hidle.client, hidle.masters, hidle.mem.objects.trans hobj, hidle.mem.gtt.trans hgtt⟩,
      hT'.trans (.of_eq htables), fun y _ hclient e hmem pt' hpt' => ?_⟩
    rw [htables] at hpt'
    rw [if_pos hclient] at he
    exact hok rfl e (he ▸ hmem) pt' hpt'

theorem ioctl_framebuffer {header : Header} {shared : Option SharedInfo} {r : Except Error Reply}
    (h : s.ioctl ω header (.framebuffer shared) = (r, s')) :
    (∃ x, r = .error x) ∧ Idle s s' ∨ ∃ s₁, Idle s s₁ ∧ s₁.framebuffer ω shared = (r, s') := by
  unfold ioctl at h
  dsimp only at h
  split at h
  · cases h
    exact .inl ⟨⟨_, rfl⟩, .rfl⟩
  simp only [Request.isNative, Bool.false_eq_true, if_false] at h
  generalize hq : s.readRequest ω header (Request.framebuffer shared).sizeof = res at h
  obtain ⟨q, s₁⟩ := res
  have hidle := readRequest_idle hq
  cases q with
  | error x =>
    cases h
    exact .inl ⟨⟨_, rfl⟩, hidle⟩
  | ok u => exact .inr ⟨s₁, hidle, h⟩

theorem ioctl_framed {header : Header} {info : SharedInfo} {r : Except Error Reply} (I : s.Inv g)
    (h : s.ioctl ω header (.framebuffer (some info)) = (r, s')) :
    (s'.client = s.client ∧ s'.masters = s.masters ∧ s'.mem.objects = s.mem.objects ∧
      s'.mem.gtt = s.mem.gtt) ∧
    Retabled (fun o x t p => s.client.gtt = true ∧ Framed s.readyEngines s.mem.gtt
      info.frameBufferOffset (info.bytesPerRow * info.virtualHeight) o x t p) s.mem s'.mem ∧
    (∀ y, r = .ok y → s.client.gtt = true → ∀ e ∈ s.readyEngines,
      ∀ pt', s'.mem.tables e.addressSpace = some pt' → ∀ a,
        FrameRange info.frameBufferOffset (info.bytesPerRow * info.virtualHeight) a →
        s.mem.gtt.lookup (a / 4096 * 4096) = .ok (pt'.translate a)) := by
  rcases ioctl_framebuffer h with ⟨⟨z, rfl⟩, hidle⟩ | ⟨s₁, hidle, h⟩
  · refine ⟨⟨hidle.client, hidle.masters, hidle.mem.objects, hidle.mem.gtt⟩,
      .of_eq hidle.mem.tables, fun y hy => ?_⟩
    cases hy
  obtain ⟨⟨hc, hm, ho, hg⟩, hT, hok⟩ := framebuffer_framed (hidle.keeps I).inv h
  have hready : s₁.readyEngines = s.readyEngines := by
    rw [readyEngines, readyEngines, hidle.client, hidle.masters]
  rw [hidle.client, hidle.mem.gtt, hready] at hT hok
  exact ⟨⟨hc.trans hidle.client, hm.trans hidle.masters, ho.trans hidle.mem.objects,
    hg.trans hidle.mem.gtt⟩, .trans (.of_eq hidle.mem.tables) hT,
    hok⟩

end Session

namespace Device

/-- Whatever the users of the device have done: `kFramebuffer` changes nothing but what the engines
of the client show in the framebuffer, and when it succeeds each of them shows the whole of it as
the global GTT resolves it, which outside of the driver's own part is where the firmware or
`agp_gart` has put it by then. -/
theorem exec_framebuffer (config : Config) (entries : Nat → Nat) (foreign : List Nat)
    (calls : List (Call × Oracle)) {ω : Oracle} {header : Header} {info : SharedInfo} {c : Nat}
    {x : RenderClient} {r : Except Error Reply} {s s' : Session}
    (hx : (Run.exec step (start config entries foreign) calls).clients c = some x)
    (hs : s = (Run.exec step (start config entries foreign) calls).entered x)
    (h : s.ioctl ω header (.framebuffer (some info)) = (r, s')) :
    (s'.client = s.client ∧ s'.masters = s.masters ∧ s'.mem.objects = s.mem.objects ∧
      s'.mem.gtt = s.mem.gtt) ∧
    Retabled (Session.Framed s.readyEngines s.mem.gtt info.frameBufferOffset
      (info.bytesPerRow * info.virtualHeight)) s.mem s'.mem ∧
    (∀ y, r = .ok y → s.client.gtt = true → ∀ e ∈ s.readyEngines,
      ∀ pt', s'.mem.tables e.addressSpace = some pt' → ∀ a,
        FrameRange info.frameBufferOffset (info.bytesPerRow * info.virtualHeight) a →
        s.mem.gtt.lookup (a / 4096 * 4096) = .ok (pt'.translate a) ∧
          (¬ config.Managed (a / 4096) →
            pt'.translate a = written entries calls (a / 4096) &&& addressMask)) := by
  obtain ⟨g, I⟩ := exec_inv config entries foreign calls
  have S := I.entered hx
  rw [← hs] at S
  have hgtt : s.mem.gtt = (Run.exec step (start config entries foreign) calls).mem.gtt :=
    hs ▸ (idle_enter _).gtt
  obtain ⟨hkept, hT, hok⟩ := Session.ioctl_framed S h
  refine ⟨hkept, hT.mono fun _ _ _ _ h => h.2, fun y hy hclient e he pt' hpt' a ha => ?_⟩
  have hlookup := hok y hy hclient e he pt' hpt' a ha
  refine ⟨hlookup, fun hmanaged => ?_⟩
  obtain ⟨-, -, -, -, -, heq⟩ := GlobalGTT.lookup_ok hlookup
  rw [Nat.mul_div_cancel _ (by decide), hgtt,
    (exec_firm config entries foreign calls).mem.entry _ hmanaged] at heq
  exact heq

/-- A framebuffer of one page, the first one. -/
def onePage : SharedInfo := ⟨0x80000000, 0, 64, 16, 64, 32⟩

/-- The engine of a client shows it at the page where `agp_gart` has put it. -/
theorem exec_framebuffer_onePage :
    let d := Run.exec step (start Config.blitter (fun _ => 0) [])
      [(.gart 0 4097, .unfailing), (.open, .unfailing)]
    ∃ x, d.clients 0 = some x ∧ (d.entered x).readyEngines ≠ [] ∧
      ∀ e ∈ (d.entered x).readyEngines, ∀ pt', ((d.entered x).ioctl .unfailing ⟨32, 8, 32⟩
        (.framebuffer (some onePage))).2.mem.tables e.addressSpace = some pt' →
          pt'.translate 0 = 4096 := by
  generalize hcalls : [(Call.gart 0 4097, Oracle.unfailing), (.open, .unfailing)] = calls
  intro d
  have h : (d.clients 0).map (fun x => (x.gtt, (d.entered x).readyEngines.length, ((d.entered
      x).ioctl .unfailing ⟨32, 8, 32⟩ (.framebuffer (some onePage))).1.isOk)) =
        some (true, 1, true) := by
    subst hcalls
    decide +kernel
  obtain ⟨x, hx, h⟩ := Option.map_eq_some_iff.mp h
  obtain ⟨hgtt, h⟩ := Prod.mk.inj h
  obtain ⟨hlength, hok⟩ := Prod.mk.inj h
  refine ⟨x, hx, fun hnil => ?_, fun e he pt' hpt' => ?_⟩
  · rw [hnil] at hlength
    cases hlength
  obtain ⟨y, hy⟩ : ∃ y, ((d.entered x).ioctl .unfailing ⟨32, 8, 32⟩
      (.framebuffer (some onePage))).1 = .ok y := by
    generalize ((d.entered x).ioctl .unfailing ⟨32, 8, 32⟩ (.framebuffer (some onePage))).1 = r
      at hok
    cases r with
    | error z => cases hok
    | ok y => exact ⟨y, rfl⟩
  rw [((exec_framebuffer Config.blitter _ [] calls hx rfl Prod.mk.eta.symm).2.2 y hy hgtt e he
    pt' hpt' 0 ⟨by decide, by decide⟩).2 fun h => absurd h.1 (by decide +kernel)]
  subst hcalls
  decide

end Device

/-! ## The framebuffer and the driver's own part -/

namespace Session

end Session

namespace Device

end Device
end IntelGfx

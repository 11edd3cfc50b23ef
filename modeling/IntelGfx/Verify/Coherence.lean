import IntelGfx.Mesa.Execbuffer
import IntelGfx.Verify.Driver
import IntelGfx.Verify.IntelWinsys

/-!
# The winsys and the driver agree

`Coherent`: what the winsys has written down about the buffers of a descriptor is what the driver
holds for its client. Every call keeps it, whichever of its requests fail, so that what is read off
the map of the winsys is true of the driver.
-/

namespace IntelGfx

namespace Winsys
variable {client : Int → Nat} {fd : Int} {h : Nat} {bo : Buffer}

open Adapter

structure Coherent (client : Int → Nat) (fd : Int) (a : Adapter Driver) : Prop where
  driver : a.kernel.Open (client fd)
  sorted : Sorted a.buffers
  live : ∀ {h bo}, ((fd, h), bo) ∈ a.buffers → bo.purged = false →
    ∃ v, a.kernel.device.held (client fd) h = some v ∧ v.size = bo.size ∧ v.address = bo.address
  gone : ∀ {h bo}, ((fd, h), bo) ∈ a.buffers → bo.purged = true →
    bo.address = 0 ∧ a.kernel.device.held (client fd) h = none
  known : ∀ {h v}, a.kernel.device.held (client fd) h = some v →
    ∃ bo, ((fd, h), bo) ∈ a.buffers ∧ bo.purged = false

namespace Coherent
variable {a a' : Adapter Driver}

/-- The driver holds what it did. -/
theorem of_held (C : Coherent client fd a) (hb : a'.buffers = a.buffers)
    (O : a'.kernel.Open (client fd))
    (hh : a'.kernel.device.held (client fd) = a.kernel.device.held (client fd)) :
    Coherent client fd a' := by
  refine ⟨O, hb ▸ C.sorted, ?_, ?_, ?_⟩
  · rw [hb, hh]
    exact C.live
  · rw [hb, hh]
    exact C.gone
  · rw [hb, hh]
    exact C.known

/-- A buffer is closed, and its entry says so or is erased. -/
theorem close (C : Coherent client fd a) (O : a'.kernel.Open (client fd))
    (hh : a'.kernel.device.held (client fd) =
      Function.update (a.kernel.device.held (client fd)) h none)
    (hs : Sorted a'.buffers)
    (hkey : ∀ {bo}, ((fd, h), bo) ∈ a'.buffers → bo.purged = true ∧ bo.address = 0)
    (hrest : ∀ {h' bo}, h' ≠ h → (((fd, h'), bo) ∈ a'.buffers ↔ ((fd, h'), bo) ∈ a.buffers)) :
    Coherent client fd a' := by
  refine ⟨O, hs, fun {h' bo} hb hp => ?_, fun {h' bo} hb hp => ?_, fun {h' v} hv => ?_⟩
  · have hne : h' ≠ h := by
      rintro rfl
      exact nomatch hp.symm.trans (hkey hb).1
    rw [hh, Function.update_of_ne hne]
    exact C.live ((hrest hne).mp hb) hp
  · rw [hh]
    by_cases hne : h' = h
    · subst hne
      exact ⟨(hkey hb).2, Function.update_self ..⟩
    · rw [Function.update_of_ne hne]
      exact C.gone ((hrest hne).mp hb) hp
  · rw [hh] at hv
    by_cases hne : h' = h
    · subst hne
      rw [Function.update_self] at hv
      exact nomatch hv
    · rw [Function.update_of_ne hne] at hv
      obtain ⟨bo, hb, hp⟩ := C.known hv
      exact ⟨bo, (hrest hne).mpr hb, hp⟩

end Coherent

/-! ## `DRM_IOCTL_I915_GEM_CREATE` -/

theorem call_kernel {κ : Type*} {K : Kernel κ} {request : Request} {r : Except Error Reply}
    {a a' : Adapter κ} (h : a.call K fd request = (r, a')) :
    K fd request a.kernel = (r, a'.kernel) := by
  obtain ⟨rfl, rfl⟩ := Prod.mk.inj h
  rfl

theorem createBuffer_coherent {a a₁ : Adapter Driver} {size : Nat} (C : Coherent client fd a)
    (h : a.createBuffer (Driver.ioctl client) fd size = (none, a₁)) : Coherent client fd a₁ ∧
      a₁.buffers = a.buffers ∧ a₁.trace = a.trace ∧
      a₁.kernel.device.allocated (client fd) = a.kernel.device.allocated (client fd) ∧
      ∃ e, Driver.ioctl client fd (.createBuffer size 0 0) a.kernel = (.error e, a₁.kernel) := by
  obtain ⟨hb, -, ht⟩ := createBuffer_eq h
  rw [createBuffer] at h
  generalize hcall : a.call (Driver.ioctl client) fd (.createBuffer size 0 0) = c at h
  obtain ⟨r, a'⟩ := c
  have hk := call_kernel hcall
  obtain ⟨O, ⟨⟨e, rfl⟩, hh, ha⟩ | ⟨size, handle, area, rfl, -⟩⟩ :=
    Driver.ioctl_createBuffer C.driver rfl hk
  · obtain ⟨-, rfl⟩ := Prod.mk.inj h
    exact ⟨C.of_held hb O hh, hb, ht, ha, e, hk⟩
  · cases (Prod.mk.inj h).1

/-! ## `reclaim` -/

/-- What the cached buffers of a descriptor amount to. -/
def cachedBytes (fd : Int) (entries : List (Key × Buffer)) : Nat :=
  ((entries.filter (cached fd)).map (·.2.size)).sum

theorem cachedBytes_purged {entries : List (Key × Buffer)} {e : Key × Buffer} (hn : entries.Nodup)
    (he : e ∈ entries) (hc : cached fd e = true) :
    cachedBytes fd (entries.map fun x => if x = e then (x.1, purge x.2) else x) + e.2.size =
      cachedBytes fd entries := by
  have hrest (l : List (Key × Buffer)) (hl : e ∉ l) :
      l.map (fun x => if x = e then (x.1, purge x.2) else x) = l := by
    refine (List.map_congr_left fun x hx => ?_).trans (List.map_id l)
    rw [if_neg (by rintro rfl; exact hl hx), id]
  induction entries with
  | nil => exact nomatch he
  | cons x entries ih =>
    obtain ⟨hx, hn⟩ := List.nodup_cons.mp hn
    unfold cachedBytes at ih ⊢
    rw [List.map_cons]
    by_cases hxe : x = e
    · subst hxe
      rw [if_pos rfl, List.filter_cons_of_neg (by simp [cached_purge]), List.filter_cons_of_pos hc,
        hrest entries hx, List.map_cons, List.sum_cons, Nat.add_comm]
    · have ih := ih hn ((List.mem_cons.mp he).resolve_left (Ne.symm hxe))
      rw [if_neg hxe, List.filter_cons, List.filter_cons]
      split
      · rw [List.map_cons, List.map_cons, List.sum_cons, List.sum_cons, Nat.add_assoc, ih]
      · exact ih

theorem cachedBytes_none {entries : List (Key × Buffer)} (h : ∀ e ∈ entries, cached fd e = false) :
    cachedBytes fd entries = 0 := by
  rw [cachedBytes, List.filter_eq_nil_iff.mpr fun e he => by rw [h e he]; exact Bool.false_ne_true]
  rfl

/-- The entry that `reclaim` finds is closed. -/
theorem Coherent.purge {a a₁ : Adapter Driver} (C : Coherent client fd a)
    (he : ((fd, h), bo) ∈ a.buffers)
    (hb : a₁.buffers = a.buffers.map fun x => if x = ((fd, h), bo) then (x.1, purge x.2) else x)
    (O : a₁.kernel.Open (client fd))
    (hh : a₁.kernel.device.held (client fd) =
      Function.update (a.kernel.device.held (client fd)) h none) : Coherent client fd a₁ := by
  refine C.close O hh ?_ (fun {bo'} hb' => ?_) fun {h' bo'} hne => ?_
  · rw [hb]
    exact map_sorted C.sorted fun x => by split <;> rfl
  · rw [hb] at hb'
    obtain ⟨x, hx, hx'⟩ := List.mem_map.mp hb'
    split at hx'
    · obtain ⟨-, rfl⟩ := Prod.mk.inj hx'
      exact ⟨rfl, rfl⟩
    · next hne =>
      subst hx'
      exact absurd (congrArg (Prod.mk _) (C.sorted.unique hx he)) hne
  · rw [hb, List.mem_map]
    constructor
    · rintro ⟨x, hx, hx'⟩
      split at hx'
      · next hxe =>
        rw [hxe] at hx'
        exact absurd (congrArg (·.1.2) hx').symm hne
      · rwa [← hx']
    · intro hx
      exact ⟨_, hx, if_neg fun hxe => hne (congrArg (·.1.2) hxe)⟩

/-- What the buffers that `reclaim` closes are worth to the client: as many bytes as they are said
to have. -/
theorem reclaimLoop_coherent {a : Adapter Driver} {bytes count fuel freed purged : Nat}
    (C : Coherent client fd a) (hf : a.buffers.countP (cached fd) < fuel) :
    let r := reclaimLoop (Driver.ioctl client) fd bytes count fuel freed purged a
    Coherent client fd r.2 ∧ (∀ h v, r.2.kernel.device.held (client fd) h = some v →
        a.kernel.device.held (client fd) h = some v) ∧
      ((∃ key t, r.2.trace = .close key false :: (t ++ a.trace)) ∨
      ∃ f, f % 4096 = 0 ∧ purged ≤ r.1 ∧ (f ≠ 0 → purged < r.1) ∧
        r.2.kernel.device.allocated (client fd) + f = a.kernel.device.allocated (client fd) ∧
        (purged < r.1 ∨ a.kernel.device.HasSlot (client fd) →
          r.2.kernel.device.HasSlot (client fd)) ∧
        (count ≤ r.1 ∧ bytes ≤ freed + f ∨ f = cachedBytes fd a.buffers)) := by
  induction fuel generalizing freed purged a with
  | zero => exact absurd hf (Nat.not_lt_zero _)
  | succ fuel ih =>
    rw [reclaimLoop]
    by_cases hc : purged < count ∨ freed < bytes
    · rw [if_pos hc]
      cases ho : oldest fd a.buffers with
      | none =>
        refine ⟨C, fun _ _ => id, .inr ⟨0, rfl, Nat.le_refl _, fun h0 => absurd rfl h0, rfl,
          fun h => h.resolve_left (Nat.lt_irrefl _), .inr ?_⟩⟩
        exact (cachedBytes_none (oldest_none ho)).symm
      | some e =>
        obtain ⟨⟨fd', h⟩, bo⟩ := e
        obtain ⟨he, hce, -⟩ := oldest_some ho
        obtain ⟨⟨rfl, -⟩, hp⟩ : (fd' = fd ∧ bo.purgeable = true) ∧ bo.purged = false := by
          simpa [cached] using hce
        dsimp only
        generalize hcall : a.call (Driver.ioctl client) fd' (.closeBuffer h 0) = r
        obtain ⟨r, a₁⟩ := r
        obtain ⟨hb, -, ht⟩ := call_eq hcall
        obtain ⟨O, hclose⟩ := Driver.ioctl_closeBuffer C.driver rfl (call_kernel hcall)
        rcases hclose with ⟨⟨e, rfl⟩, hh⟩ | ⟨rfl, v, hv, hh, ha, hslot⟩
        · have C' : Coherent client fd'
              { a₁ with trace := .close (fd', h) false :: a₁.trace } := C.of_held hb O hh
          refine ⟨C',
            fun k v hv => (congrFun hh k).symm.trans hv, .inl ⟨(fd', h), [], congrArg _ ht⟩⟩
        · obtain ⟨v', hv', hsize, -⟩ := C.live he hp
          obtain rfl := Option.some.inj (hv.symm.trans hv')
          have hm : ({ a₁ with trace := .close (fd', h) true :: a₁.trace }.modify (fd', h)
              Adapter.purge).buffers =
              a.buffers.map fun x =>
                if x = ((fd', h), bo) then (x.1, Adapter.purge x.2) else x := by
            rw [← hb]
            exact modify_purge (a := a₁) (e := ((fd', h), bo)) (hb ▸ C.sorted) (hb ▸ he)
          have hlt := countP_purged he hce
          rw [← hm] at hlt
          have hbytes := cachedBytes_purged
            (C.sorted.imp fun hb e => hb.ne (congrArg Prod.fst e)) he hce
          rw [← hm] at hbytes
          obtain ⟨C', hshrink, hrest⟩ := @ih _ (freed + bo.size) (purged + 1)
            (C.purge he hm O hh) (Nat.lt_of_lt_of_le hlt (Nat.le_of_lt_succ hf))
          refine ⟨C', fun k w hw => ?_, hrest.imp ?_ ?_⟩
          · have hw := hshrink k w hw
            change a₁.kernel.device.held (client fd') k = some w at hw
            rw [hh, Function.update_apply] at hw
            split at hw
            · cases hw
            · exact hw
          · rintro ⟨key, t, htrace⟩
            refine ⟨key, t ++ [.close (fd', h) true], ?_⟩
            rw [List.append_assoc, List.singleton_append, ← ht]
            exact htrace
          · rintro ⟨f, hf0, hle, -, hallocated, hroom, henough⟩
            have hmod := C.driver.held_mod hv
            have hallocated' := Nat.add_right_cancel_iff (n := bo.size) |>.mpr hallocated
            refine ⟨f + bo.size, by omega, Nat.le_of_succ_le hle, fun _ => hle, ?_, fun _ =>
              hroom (.inr hslot), ?_⟩
            · rw [← ha, hsize, ← Nat.add_assoc]
              exact hallocated'
            · exact henough.imp (fun h => ⟨h.1, by omega⟩) fun h => by rw [h, hbytes]
    · rw [if_neg hc]
      exact ⟨C, fun _ _ => id, .inr ⟨0, rfl, Nat.le_refl _, fun h0 => absurd rfl h0, rfl,
        fun h => h.resolve_left (Nat.lt_irrefl _), .inl ⟨by omega, by omega⟩⟩⟩

/-! ## Bindings -/

theorem mem_modify {κ : Type*} {a : Adapter κ} {key key' : Key} {f : Buffer → Buffer} :
    (key', bo) ∈ (a.modify key f).buffers ↔
      ∃ b, (key', b) ∈ a.buffers ∧ bo = if key' = key then f b else b := by
  refine List.mem_map.trans ?_
  constructor
  · rintro ⟨⟨k, b⟩, hx, he⟩
    split at he
    · next hk =>
      obtain ⟨rfl, rfl⟩ := Prod.mk.inj he
      exact ⟨b, hx, (if_pos hk).symm⟩
    · next hk =>
      obtain ⟨rfl, rfl⟩ := Prod.mk.inj he
      exact ⟨b, hx, (if_neg hk).symm⟩
  · rintro ⟨b, hb, rfl⟩
    refine ⟨_, hb, ?_⟩
    dsimp only
    split
    · rfl
    · rfl

/-- The descriptor's client is left to the winsys, which binds nothing in the global GTT. -/
structure Driven (client : Int → Nat) (fd : Int) (a : Adapter Driver) : Prop
    extends Coherent client fd a where
  unbound : ∀ {h v}, a.kernel.device.held (client fd) h = some v → v.bound = false

namespace Driven
variable {a a' : Adapter Driver} {x : Nat} {ok : Bool}

theorem of_held (D : Driven client fd a) (hb : a'.buffers = a.buffers)
    (O : a'.kernel.Open (client fd))
    (hh : a'.kernel.device.held (client fd) = a.kernel.device.held (client fd)) :
    Driven client fd a' :=
  ⟨D.toCoherent.of_held hb O hh, by rw [hh]; exact D.unbound⟩

/-- Nothing is said in the map about a field other than these. -/
theorem modify (D : Driven client fd a) {key : Key} {f : Buffer → Buffer}
    (hb : a'.buffers = (a.modify key f).buffers) (hk : a'.kernel = a.kernel)
    (hf : ∀ bo, (f bo).size = bo.size ∧ (f bo).address = bo.address ∧
      (f bo).purged = bo.purged) : Driven client fd a' := by
  have hentry {key' : Key} {bo : Buffer} (h : (key', bo) ∈ a'.buffers) :
      ∃ b, (key', b) ∈ a.buffers ∧ bo.size = b.size ∧ bo.address = b.address ∧
        bo.purged = b.purged := by
    obtain ⟨b, hb, rfl⟩ := mem_modify.mp (hb ▸ h)
    refine ⟨b, hb, ?_⟩
    split
    · exact hf b
    · exact ⟨rfl, rfl, rfl⟩
  refine ⟨⟨hk ▸ D.driver, hb ▸ map_sorted D.sorted fun x => by split <;> rfl, fun h hp => ?_,
    fun h hp => ?_, fun {h v} hv => ?_⟩, by rw [hk]; exact D.unbound⟩
  · obtain ⟨b, hb, hs, ha, hpurged⟩ := hentry h
    rw [hk, hs, ha]
    exact D.live hb (hpurged ▸ hp)
  · obtain ⟨b, hb, -, ha, hpurged⟩ := hentry h
    rw [hk, ha]
    exact D.gone hb (hpurged ▸ hp)
  · rw [hk] at hv
    obtain ⟨bo, hbo, hp⟩ := D.known hv
    refine ⟨_, hb ▸ mem_modify.mpr ⟨bo, hbo, rfl⟩, ?_⟩
    split
    · exact (hf bo).2.2.trans hp
    · exact hp

/-- A buffer is bound elsewhere, and its entry says so. -/
theorem rebind {v : Held} (D : Driven client fd a) (O : a'.kernel.Open (client fd))
    (hv : a.kernel.device.held (client fd) h = some v)
    (hh : a'.kernel.device.held (client fd) =
      Function.update (a.kernel.device.held (client fd)) h (some { v with address := x }))
    (hb : a'.buffers = (a.modify (fd, h) fun bo => { bo with address := x }).buffers) :
    Driven client fd a' := by
  refine ⟨⟨O, hb ▸ map_sorted D.sorted fun x => by split <;> rfl, fun {h' bo} he hp => ?_,
    fun {h' bo} he hp => ?_, fun {h' w} hw => ?_⟩, fun {h' w} hw => ?_⟩
  · obtain ⟨b, hmem, rfl⟩ := mem_modify.mp (hb ▸ he)
    rw [hh]
    split at hp
    · next hk =>
      obtain rfl : h' = h := congrArg Prod.snd hk
      obtain ⟨w, hw, hs, -⟩ := D.live hmem hp
      obtain rfl := Option.some.inj (hv.symm.trans hw)
      rw [if_pos rfl, Function.update_self]
      exact ⟨_, rfl, hs, rfl⟩
    · next hk =>
      rw [if_neg hk, Function.update_of_ne fun heq => hk (congrArg _ heq)]
      exact D.live hmem hp
  · obtain ⟨b, hmem, rfl⟩ := mem_modify.mp (hb ▸ he)
    rw [hh]
    split at hp
    · next hk =>
      obtain rfl : h' = h := congrArg Prod.snd hk
      exact nomatch hv.symm.trans (D.gone hmem hp).2
    · next hk =>
      rw [if_neg hk, Function.update_of_ne fun heq => hk (congrArg _ heq)]
      exact D.gone hmem hp
  · have hold : ∃ w, a.kernel.device.held (client fd) h' = some w := by
      rw [hh, Function.update_apply] at hw
      split at hw
      · next heq => exact ⟨v, heq ▸ hv⟩
      · exact ⟨w, hw⟩
    obtain ⟨w', hw'⟩ := hold
    obtain ⟨bo, hbo, hp⟩ := D.known hw'
    refine ⟨_, hb ▸ mem_modify.mpr ⟨bo, hbo, rfl⟩, ?_⟩
    split
    · exact hp
    · exact hp
  · rw [hh, Function.update_apply] at hw
    split at hw
    · obtain rfl := Option.some.inj hw
      exact (D.unbound hv : v.bound = false)
    · exact D.unbound hw

/-- A buffer is unbound, or nothing happens. -/
theorem unbind (D : Driven client fd a) (hu : a.unbind (Driver.ioctl client) (fd, h) = (ok, a')) :
    Driven client fd a' ∧ (ok = false ∨ ok = true ∧
      a'.buffers = (a.modify (fd, h) fun bo => { bo with address := 0 }).buffers ∧
      ∃ v, a.kernel.device.held (client fd) h = some v ∧ a'.kernel.device.held (client fd) =
        Function.update (a.kernel.device.held (client fd)) h (some { v with address := 0 })) := by
  rw [Adapter.unbind] at hu
  generalize hcall : a.call (Driver.ioctl client) fd (.unbindVirtual h 0) = res at hu
  obtain ⟨r, a₁⟩ := res
  obtain ⟨hb, -, -⟩ := call_eq hcall
  obtain ⟨O, ⟨⟨e, rfl⟩, hh⟩ | ⟨rfl, v, hv, hh⟩⟩ :=
    Driver.ioctl_unbindVirtual D.driver rfl (call_kernel hcall)
  · obtain ⟨rfl, rfl⟩ := Prod.mk.inj hu
    exact ⟨D.of_held hb O hh, .inl rfl⟩
  · obtain ⟨rfl, rfl⟩ := Prod.mk.inj hu
    have hb' : (a₁.modify (fd, h) fun bo => { bo with address := 0 }).buffers =
        (a.modify (fd, h) fun bo => { bo with address := 0 }).buffers := by
      rw [Adapter.modify, hb, Adapter.modify]
    exact ⟨D.rebind O hv hh hb', .inr ⟨rfl, hb', v, hv, hh⟩⟩

/-- A buffer is bound, or nothing happens. -/
theorem bind (D : Driven client fd a) (hu : a.bind (Driver.ioctl client) (fd, h) x = (ok, a')) :
    Driven client fd a' ∧ (ok = false ∨ ok = true ∧
      a'.buffers = (a.modify (fd, h) fun bo => { bo with address := x }).buffers ∧
      ∃ v, a.kernel.device.held (client fd) h = some v ∧ a'.kernel.device.held (client fd) =
        Function.update (a.kernel.device.held (client fd)) h (some { v with address := x })) := by
  rw [Adapter.bind] at hu
  generalize hcall : a.call (Driver.ioctl client) fd (.bindVirtual h 0 x) = res at hu
  obtain ⟨r, a₁⟩ := res
  obtain ⟨hb, -, -⟩ := call_eq hcall
  obtain ⟨O, ⟨⟨e, rfl⟩, hh⟩ | ⟨rfl, v, hv, hh⟩⟩ :=
    Driver.ioctl_bindVirtual D.driver rfl (call_kernel hcall)
  · obtain ⟨rfl, rfl⟩ := Prod.mk.inj hu
    exact ⟨D.of_held hb O hh, .inl rfl⟩
  · obtain ⟨rfl, rfl⟩ := Prod.mk.inj hu
    have hb' : (a₁.modify (fd, h) fun bo => { bo with address := x }).buffers =
        (a.modify (fd, h) fun bo => { bo with address := x }).buffers := by
      rw [Adapter.modify, hb, Adapter.modify]
    exact ⟨D.rebind O hv hh hb', .inr ⟨rfl, hb', v, hv, hh⟩⟩

theorem evict (D : Driven client fd a) {start stop : Nat} {entries : List (Key × Buffer)}
    (he : a.evict (Driver.ioctl client) (fd, h) start stop entries = (ok, a')) :
    Driven client fd a' := by
  induction entries generalizing a with
  | nil =>
    obtain ⟨-, rfl⟩ := Prod.mk.inj he
    exact D
  | cons e entries ih =>
    obtain ⟨⟨fd', h'⟩, bo⟩ := e
    rw [Adapter.evict] at he
    split at he
    · exact ih D he
    next hskip =>
    obtain rfl : fd' = fd := by simpa using (not_or.mp hskip).1
    split at he
    · generalize hu : a.unbind (Driver.ioctl client) (fd', h') = res at he
      obtain ⟨ok', a₁⟩ := res
      obtain ⟨D₁, -⟩ := D.unbind hu
      cases ok' with
      | false =>
        obtain ⟨-, rfl⟩ := Prod.mk.inj he
        exact D₁
      | true => exact ih D₁ he
    · exact ih D he

theorem evictAll (D : Driven client fd a) {objects : List ExecObject} {r : Option Errno}
    (he : a.evictAll (Driver.ioctl client) fd objects = (r, a')) : Driven client fd a' := by
  induction objects generalizing a with
  | nil =>
    obtain ⟨-, rfl⟩ := Prod.mk.inj he
    exact D
  | cons object objects ih =>
    rw [Adapter.evictAll] at he
    split at he
    · obtain ⟨-, rfl⟩ := Prod.mk.inj he
      exact D
    next bo hbo =>
    split at he
    · exact ih D he
    dsimp only at he
    generalize hev : a.evict (Driver.ioctl client) _ _ _ _ = res at he
    obtain ⟨ok', a₁⟩ := res
    have D₁ := D.evict hev
    cases ok' with
    | false =>
      obtain ⟨-, rfl⟩ := Prod.mk.inj he
      exact D₁
    | true => exact ih D₁ he

theorem rebound (D : Driven client fd a) {bo : Buffer}
    (hr : a.rebind (Driver.ioctl client) (fd, h) bo x = (ok, a')) : Driven client fd a' := by
  rw [Adapter.rebind] at hr
  split at hr
  · obtain ⟨-, rfl⟩ := Prod.mk.inj hr
    exact D
  have D₁ : Driven client fd
      (if bo.address ≠ 0 then a.unbind (Driver.ioctl client) (fd, h) else (true, a)).2 := by
    split
    · exact (D.unbind rfl).1
    · exact D
  generalize (if bo.address ≠ 0 then a.unbind (Driver.ioctl client) (fd, h) else (true, a)) = res
    at hr D₁
  obtain ⟨ok', a₁⟩ := res
  cases ok' with
  | false =>
    obtain ⟨-, rfl⟩ := Prod.mk.inj hr
    exact D₁
  | true => exact (D₁.bind hr).1

theorem bindAll (D : Driven client fd a) {objects : List ExecObject} {r : Option Errno}
    (hb : a.bindAll (Driver.ioctl client) fd objects = (r, a')) : Driven client fd a' := by
  induction objects generalizing a with
  | nil =>
    obtain ⟨-, rfl⟩ := Prod.mk.inj hb
    exact D
  | cons object objects ih =>
    rw [Adapter.bindAll] at hb
    split at hb
    · obtain ⟨-, rfl⟩ := Prod.mk.inj hb
      exact D
    next bo hbo =>
    split at hb
    · obtain ⟨-, rfl⟩ := Prod.mk.inj hb
      exact D
    generalize hr : a.rebind (Driver.ioctl client) _ _ _ = res at hb
    obtain ⟨ok', a₁⟩ := res
    have D₁ := D.rebound hr
    cases ok' with
    | false =>
      obtain ⟨-, rfl⟩ := Prod.mk.inj hb
      exact D₁
    | true => exact ih D₁ hb

theorem layout (D : Driven client fd a) {objects : List ExecObject} {r : Option Errno}
    (hl : a.layout (Driver.ioctl client) fd objects = (r, a')) : Driven client fd a' := by
  rw [Adapter.layout] at hl
  generalize he : a.evictAll (Driver.ioctl client) fd objects = res at hl
  obtain ⟨_ | e, a₁⟩ := res
  · exact (D.evictAll he).bindAll hl
  · obtain ⟨-, rfl⟩ := Prod.mk.inj hl
    exact D.evictAll he

/-! ### Calls -/

/-- A buffer that the driver does not hold any more is forgotten. -/
theorem close (D : Driven client fd a) (hb : a'.buffers = a.buffers.filter (·.1 ≠ (fd, h)))
    (O : a'.kernel.Open (client fd)) (hh : a'.kernel.device.held (client fd) =
      Function.update (a.kernel.device.held (client fd)) h none) : Driven client fd a' := by
  refine ⟨D.toCoherent.close O hh (hb ▸ D.sorted.filter _) (fun he => ?_) fun {h' bo} hne => ?_,
    fun {h' v} hv => ?_⟩
  · rw [hb] at he
    exact absurd (List.mem_filter.mp he).2 (by simp)
  · rw [hb, List.mem_filter]
    refine and_iff_left ?_
    simpa using hne
  · rw [hh, Function.update_apply] at hv
    split at hv
    · exact nomatch hv
    · exact D.unbound hv

/-- A buffer that the driver has made is entered. -/
theorem add (D : Driven client fd a) {size : Nat} {area : Option Nat} (hb : a'.buffers = a.buffers)
    (O : a'.kernel.Open (client fd)) (hh : a'.kernel.device.held (client fd) =
      Function.update (a.kernel.device.held (client fd)) h (some ⟨size, 0, false⟩)) :
    Driven client fd (a'.add fd h size area) := by
  have hmem {h' : Nat} {bo : Buffer} : ((fd, h'), bo) ∈ (a'.add fd h size area).buffers ↔
      h' = h ∧ bo = ⟨area, size, 0, 0, false, false, 0⟩ ∨ h' ≠ h ∧ ((fd, h'), bo) ∈ a.buffers := by
    rw [Adapter.add, mem_insert (hb ▸ D.sorted), hb]
    simp only [Prod.mk.injEq, true_and, ne_eq]
    rw [and_comm (b := ¬ h' = h)]
  refine ⟨⟨O, insert_sorted (hb ▸ D.sorted), fun {h' bo} he hp => ?_, fun {h' bo} he hp => ?_,
    fun {h' v} hv => ?_⟩, fun {h' v} hv => ?_⟩
  · change ∃ v, a'.kernel.device.held _ _ = _ ∧ _
    rw [hh]
    rcases hmem.mp he with ⟨rfl, rfl⟩ | ⟨hne, he⟩
    · exact ⟨_, Function.update_self .., rfl, rfl⟩
    · rw [Function.update_of_ne hne]
      exact D.live he hp
  · change _ ∧ a'.kernel.device.held _ _ = _
    rw [hh]
    rcases hmem.mp he with ⟨rfl, rfl⟩ | ⟨hne, he⟩
    · exact nomatch hp
    · rw [Function.update_of_ne hne]
      exact D.gone he hp
  · change a'.kernel.device.held _ _ = _ at hv
    rw [hh] at hv
    by_cases hne : h' = h
    · exact ⟨_, hmem.mpr (.inl ⟨hne, rfl⟩), rfl⟩
    · rw [Function.update_of_ne hne] at hv
      obtain ⟨bo, hbo, hp⟩ := D.known hv
      exact ⟨bo, hmem.mpr (.inr ⟨hne, hbo⟩), hp⟩
  · change a'.kernel.device.held _ _ = _ at hv
    rw [hh, Function.update_apply] at hv
    split at hv
    · obtain rfl := Option.some.inj hv
      rfl
    · exact D.unbound hv

theorem createBuffer (D : Driven client fd a) {size : Nat} {r : Option (Nat × Nat × Option Nat)}
    (h : a.createBuffer (Driver.ioctl client) fd size = (r, a')) :
    r.elim (Driven client fd a') fun b => Driven client fd (a'.add fd b.2.1 b.1 b.2.2) := by
  rw [Adapter.createBuffer] at h
  generalize hc : a.call (Driver.ioctl client) fd (.createBuffer size 0 0) = c at h
  obtain ⟨q, a₁⟩ := c
  obtain ⟨hb, -, -⟩ := call_eq hc
  obtain ⟨O, ⟨⟨e, rfl⟩, hh, -⟩ | ⟨size, handle, area, rfl, -, hh⟩⟩ :=
    Driver.ioctl_createBuffer D.driver rfl (call_kernel hc)
  · obtain ⟨rfl, rfl⟩ := Prod.mk.inj h
    exact D.of_held hb O hh
  · obtain ⟨rfl, rfl⟩ := Prod.mk.inj h
    exact D.add hb O hh

/-- A request that binds nothing. -/
theorem call (D : Driven client fd a) {request : Request} {r : Except Error Reply}
    (hb : Session.bindsNothing request = true)
    (hc : a.call (Driver.ioctl client) fd request = (r, a')) : Driven client fd a' := by
  obtain ⟨O, hh⟩ := Driver.ioctl_bindsNothing D.driver rfl hb (call_kernel hc)
  exact D.of_held (call_eq hc).1 O hh

theorem execbuffer (D : Driven client fd a) (r : Execbuffer2) :
    Driven client fd (a.execbuffer (Driver.ioctl client) fd r).2 := by
  rw [Adapter.execbuffer]
  split
  · exact D
  split
  · exact D
  split
  · exact D
  dsimp only
  generalize hl : a.layout (Driver.ioctl client) fd r.objects = res
  obtain ⟨_ | e, a₁⟩ := res
  · have D₁ := D.layout hl
    dsimp only
    generalize hc : a₁.call (Driver.ioctl client) fd _ = res
    obtain ⟨_ | _, a₂⟩ := res
    · exact D₁.call rfl hc
    · exact D₁.call rfl hc
  · exact D.layout hl

theorem setTiling (D : Driven client fd a) (tiling stride : Nat) :
    Driven client fd (a.setTiling (Driver.ioctl client) fd h tiling stride).2 := by
  rw [Adapter.setTiling]
  split
  · exact D
  generalize hc : a.call (Driver.ioctl client) fd _ = res
  obtain ⟨_ | _, a₁⟩ := res
  · exact D.call rfl hc
  · have D₁ := D.call rfl hc
    dsimp only
    exact D₁.modify rfl rfl fun _ => ⟨rfl, rfl, rfl⟩

theorem contextCreate (D : Driven client fd a) :
    Driven client fd (a.contextCreate (Driver.ioctl client) fd).2 := by
  rw [Adapter.contextCreate]
  generalize hc : a.call (Driver.ioctl client) fd _ = res
  obtain ⟨r, a₁⟩ := res
  have D₁ := D.call rfl hc
  split
  · next heq => exact (Prod.mk.inj heq).2 ▸ D₁
  · next heq => exact (Prod.mk.inj heq).2 ▸ D₁

theorem contextDestroy (D : Driven client fd a) (context : Nat) :
    Driven client fd (a.contextDestroy (Driver.ioctl client) fd context).2 := by
  rw [Adapter.contextDestroy]
  generalize hc : a.call (Driver.ioctl client) fd _ = res
  obtain ⟨_ | _, a₁⟩ := res
  · exact D.call rfl hc
  · exact D.call rfl hc

theorem gemClose (D : Driven client fd a) :
    Driven client fd (a.gemClose (Driver.ioctl client) fd h).2 := by
  rw [Adapter.gemClose]
  split
  · exact D
  next bo hbo =>
  have hmem := (buffer_eq_some D.sorted).mp hbo
  dsimp only
  split
  · next hp =>
    refine D.close rfl D.driver ?_
    rw [Function.update_eq_self_iff.mpr (D.gone hmem hp).2.symm]
  generalize hc : a.call (Driver.ioctl client) fd (.closeBuffer h 0) = res
  obtain ⟨r, a₁⟩ := res
  obtain ⟨hb, -, -⟩ := call_eq hc
  obtain ⟨O, ⟨⟨e, rfl⟩, hh⟩ | ⟨rfl, v, -, hh, -⟩⟩ :=
    Driver.ioctl_closeBuffer D.driver rfl (call_kernel hc)
  · exact D.of_held hb O hh
  · exact D.close (congrArg (List.filter _) hb) O hh

theorem reclaim (D : Driven client fd a) (bytes count : Nat) :
    Driven client fd (a.reclaim (Driver.ioctl client) fd bytes count).2 := by
  obtain ⟨C, hshrink, -⟩ := @reclaimLoop_coherent client fd a bytes count (a.buffers.length + 1) 0 0
    D.toCoherent (Nat.lt_succ_of_le List.countP_le_length)
  exact ⟨C, fun hv => D.unbound (hshrink _ _ hv)⟩

theorem gemMadvise (D : Driven client fd a) (dontNeed : Bool) :
    Driven client fd (a.gemMadvise (Driver.ioctl client) fd h dontNeed).2 := by
  rw [Adapter.gemMadvise]
  split
  · exact D
  split
  · exact D
  split
  · exact D.modify (f := fun bo => { bo with purgeable := false }) rfl rfl fun _ => ⟨rfl, rfl, rfl⟩
  have D₁ : Driven client fd (a.mark (fd, h)) := by
    exact D.modify (f := fun bo => { bo with purgeable := true, stamp := a.purgeClock + 1 }) rfl rfl
      fun _ => ⟨rfl, rfl, rfl⟩
  dsimp only
  split
  · exact D₁.reclaim ..
  · exact D₁

theorem gemCreate (D : Driven client fd a) (size : Nat) :
    Driven client fd (a.gemCreate (Driver.ioctl client) fd size).2 := by
  rw [Adapter.gemCreate]
  generalize hc : a.createBuffer (Driver.ioctl client) fd size = c
  obtain ⟨_ | ⟨size', handle, area⟩, a₁⟩ := c
  · have D₁ := D.createBuffer hc
    have D₂ := D₁.reclaim size kReclaimBatch
    dsimp only at D₂ ⊢
    generalize a₁.reclaim (Driver.ioctl client) fd size kReclaimBatch = res at D₂
    obtain ⟨freed, a₂⟩ := res
    dsimp only at D₂ ⊢
    split
    · exact D₂
    generalize hc₂ : a₂.createBuffer (Driver.ioctl client) fd size = c
    obtain ⟨_ | ⟨size', handle, area⟩, a₃⟩ := c
    · exact D₂.createBuffer hc₂
    · exact D₂.createBuffer hc₂
  · exact D.createBuffer hc

theorem ioctl (D : Driven client fd a) (call : Ioctl) :
    Driven client fd (ioctl (Driver.ioctl client) fd call a).2 := by
  cases call with
  | gemCreate size => exact D.gemCreate size
  | gemClose handle => exact D.gemClose
  | gemMadvise handle dontNeed => exact D.gemMadvise dontNeed
  | setTiling handle tiling stride => exact D.setTiling tiling stride
  | execbuffer r => exact D.execbuffer r
  | contextCreate => exact D.contextCreate
  | contextDestroy context => exact D.contextDestroy context

theorem start {k : Driver} (O : k.Open (client fd))
    (h : ∀ h, k.device.held (client fd) h = none) : Driven client fd (start k) :=
  ⟨⟨O, .nil, nofun, nofun, fun hv => nomatch hv.symm.trans (h _)⟩,
    fun hv => nomatch hv.symm.trans (h _)⟩

theorem exec (D : Driven client fd a) (calls : List Ioctl) : Driven client fd
    (Run.exec (fun call a => (Winsys.ioctl (Driver.ioctl client) fd call a).2) a calls) :=
  Run.invariant_of_step (I := Driven client fd) (fun _ call D => D.ioctl call) calls D

/-- What the map says is there, is there. -/
theorem any_iff (D : Driven client fd a) : (a.buffer (fd, h)).any (!·.purged) = true ↔
    a.kernel.device.held (client fd) h ≠ none := by
  constructor
  · intro hany
    obtain ⟨bo, hbo, hp⟩ := (Option.any_eq_true _ _).mp hany
    obtain ⟨v, hv, -⟩ := D.live ((buffer_eq_some D.sorted).mp hbo) (by simpa using hp)
    exact fun hnone => nomatch hv.symm.trans hnone
  · intro hne
    obtain ⟨v, hv⟩ := Option.ne_none_iff_exists'.mp hne
    obtain ⟨bo, hbo, hp⟩ := D.known hv
    rw [(buffer_eq_some D.sorted).mpr hbo, Option.any_some, hp]
    rfl

theorem retained_iff (D : Driven client fd a) (dontNeed : Bool) :
    (a.gemMadvise (Driver.ioctl client) fd h dontNeed).1 = .retained true ↔
      (a.gemMadvise (Driver.ioctl client) fd h dontNeed).2.kernel.device.held (client fd) h ≠
        none := by
  rw [← (D.gemMadvise dontNeed).any_iff, Adapter.gemMadvise]
  cases hbo : a.buffer (fd, h) with
  | none =>
    dsimp only
    rw [hbo]
    exact ⟨by rintro ⟨⟩, by rintro ⟨⟩⟩
  | some bo =>
    dsimp only
    split
    · next hp =>
      rw [hbo, Option.any_some, hp]
      exact ⟨by rintro ⟨⟩, by rintro ⟨⟩⟩
    next hp =>
    split
    · refine iff_of_true rfl ?_
      have hmem := (buffer_eq_some D.sorted).mp hbo
      have hsorted : Sorted (a.unmark (fd, h)).buffers :=
        map_sorted D.sorted fun x => by split <;> rfl
      dsimp only
      rw [(buffer_eq_some hsorted).mpr (mem_unmark hmem)]
      simpa using hp
    · exact ⟨Result.retained.inj, congrArg _⟩

end Driven

/-- On a descriptor whose client is new, whatever is called and whichever of the requests of the
calls fail: the map agrees with the driver, and a buffer is reported as retained exactly if the
driver has it. -/
theorem exec_coherent {k : Driver} (O : k.Open (client fd))
    (hnew : ∀ h, k.device.held (client fd) h = none) (calls : List Ioctl) :
    let K := Driver.ioctl client
    let a := Run.exec (fun call a => (ioctl K fd call a).2) (start k) calls
    Coherent client fd a ∧ ∀ h dontNeed,
      (a.gemMadvise K fd h dontNeed).1 = .retained true ↔
        (a.gemMadvise K fd h dontNeed).2.kernel.device.held (client fd) h ≠ none := by
  intro K a
  have D : Driven client fd a := (Driven.start O hnew).exec calls
  exact ⟨D.toCoherent, fun h dontNeed => D.retained_iff dontNeed⟩

/-- A device that has been opened once. -/
def opened : Device := Run.exec Device.step (Device.start Device.Config.blitter (fun _ => 0) [])
  [(.open, .unfailing)]

/-- A client without a buffer, alone with the device. -/
theorem open_alone {config : Config} {entries : Nat → Nat} {foreign : List Nat}
    {calls : List (Device.Call × Oracle)} {d : Device} {c : Nat} {turns : Nat → Turn}
    (hd : d = Run.exec Device.step (Device.start config entries foreign) calls)
    (hx : (d.clients c).any (fun x =>
      (List.range kMaxBuffers).all fun i => (x.buffers i).isNone) = true)
    (h : ∀ n, (turns n).others = []) :
    (Driver.mk d turns 0).Open c ∧ ∀ h, d.held c h = none := by
  obtain ⟨x, hx, hall⟩ := (Option.any_eq_true _ _).mp hx
  have O : (Driver.mk d turns 0).Open c := by
    refine ⟨⟨_, _, _, _, hd⟩, (fun hnone => by cases hx.symm.trans hnone), fun n a ha => ?_⟩
    rw [show (turns n).others = [] from h n] at ha
    cases ha
  refine ⟨O, fun b => ?_⟩
  obtain ⟨g, I⟩ := O.inv
  rw [Device.held_of_client hx]
  refine Session.held_none fun i o ho _ => ?_
  have hlt := ((I.client hx).2.2.client.holding.slot ho).1
  have hnone := List.all_eq_true.mp hall i (List.mem_range.mpr hlt)
  rw [show x.buffers i = some o from ho] at hnone
  cases hnone

theorem opened_new {turns : Nat → Turn} (h : ∀ n, (turns n).others = []) :
    (Driver.mk opened turns 0).Open 0 ∧ ∀ h, opened.held 0 h = none :=
  open_alone rfl (by decide +kernel) h

/-- A buffer is made and marked while nothing fails. -/
theorem exec_coherent_gemCreate :
    let turns : Nat → Turn := fun _ => ⟨[], none, .unfailing⟩
    let K := Driver.ioctl fun _ => 0
    let a := Run.exec (fun call a => (ioctl K 3 call a).2) (start ⟨opened, turns, 0⟩)
      [.gemCreate 5000, .gemMadvise 1 true]
    Coherent (fun _ => 0) 3 a ∧ a.buffers.map (fun e => (e.1, e.2.size, e.2.purgeable)) =
      [((3, 1), 8192, true)] := by
  intro turns K a
  obtain ⟨O, hnew⟩ := @opened_new turns fun _ => rfl
  exact ⟨(@exec_coherent (fun _ => 0) 3 ⟨opened, turns, 0⟩ O hnew _).1, by decide +kernel⟩

end Winsys

end IntelGfx

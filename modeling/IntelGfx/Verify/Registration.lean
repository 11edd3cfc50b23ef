import IntelGfx.Server.Registration
import Mathlib.Data.List.Nodup

/-!
# What the service leaves behind

A link with the text of a registration counts as one, whoever has made it. Such a link is gone when
the service stops; everything else at a registered path stays.
-/

namespace IntelGfx

namespace Server

variable {failures : Failures} {fs fs' : FileSystem} {registrations : List Registration}
  {r : Registration}

/-- What a table of registrations is like. -/
structure Table (registrations : List Registration) : Prop where
  short : ∀ r ∈ registrations, r.target.length < PATH_MAX - 1
  once : (registrations.map (·.link)).Nodup
  /-- No directory of the table is one of its links. -/
  apart : ∀ r ∈ registrations, ∀ directory, r.directory = some directory →
    directory ∉ registrations.map (·.link)

theorem Table.tail (h : Table (r :: registrations)) : Table registrations where
  short x hx := h.short x (List.mem_cons_of_mem _ hx)
  once := (List.nodup_cons.mp h.once).2
  apart x hx d hd hmem := h.apart x (List.mem_cons_of_mem _ hx) d hd (List.mem_cons_of_mem _ hmem)

theorem table_kRegistrations : Table kRegistrations where
  short := by decide
  once := by decide
  apart := by decide

/-- A target that is cut off is too long to compare equal. -/
theorem isOurRegistration_iff (h : r.target.length < PATH_MAX - 1) :
    isOurRegistration r fs = true ↔ fs r.link = .symlink r.target := by
  unfold isOurRegistration FileSystem.readlink
  cases fs r.link with
  | absent | file | directory => exact ⟨nofun, nofun⟩
  | symlink target =>
    rw [Entry.symlink.injEq, decide_eq_true_iff]
    refine ⟨fun heq => ?_, fun heq => ?_⟩
    · have hlist := congrArg String.toList heq
      rw [String.toList_ofList] at hlist
      have hlength := congrArg List.length hlist
      rw [List.length_take, String.length_toList, String.length_toList] at hlength
      rw [List.take_of_length_le (by rw [String.length_toList]; omega)] at hlist
      exact String.toList_inj.mp hlist
    · rw [heq, List.take_of_length_le (by rw [String.length_toList]; omega), String.ofList_toList]

theorem mkdir_of_ne {fails : Bool} {path path' : String} (h : path' ≠ path) :
    fs.mkdir fails path path' = fs path' := by
  unfold FileSystem.mkdir
  split
  · rfl
  · exact Function.update_of_ne h _ _

/-- What registering comes to at the link of one registration. -/
def Registered (fs fs' : FileSystem) (r : Registration) (registered : Bool) : Prop :=
  (registered = true ∧ fs' r.link = .symlink r.target ∧
    (fs r.link = .symlink r.target ∨ fs r.link = .absent)) ∨
  (registered = false ∧ fs' r.link = fs r.link ∧ fs r.link ≠ .symlink r.target)

theorem Registered.congr {fs₁ fs₁' : FileSystem} {registered : Bool}
    (h : Registered fs fs' r registered) (hfs : fs₁ r.link = fs r.link)
    (hfs' : fs₁' r.link = fs' r.link) : Registered fs₁ fs₁' r registered := by
  unfold Registered
  rw [hfs, hfs']
  exact h

/-- The body of the loop, after `mkdir`. -/
theorem link_registered {fails : Bool} (h : r.target.length < PATH_MAX - 1) {registered : Bool}
    (hr : (if isOurRegistration r fs then (true, fs) else fs.symlink fails r.target r.link) =
      (registered, fs')) :
    Registered fs fs' r registered ∧ ∀ path, path ≠ r.link → fs' path = fs path := by
  by_cases hours : isOurRegistration r fs = true
  · rw [if_pos hours] at hr
    cases hr
    have hlink := (isOurRegistration_iff h).mp hours
    exact ⟨.inl ⟨rfl, hlink, .inl hlink⟩, fun _ _ => rfl⟩
  · rw [if_neg hours] at hr
    have hother := fun hlink => hours ((isOurRegistration_iff h).mpr hlink)
    unfold FileSystem.symlink at hr
    split at hr
    · cases hr
      exact ⟨.inr ⟨rfl, rfl, hother⟩, fun _ _ => rfl⟩
    · next hfree =>
      cases hr
      simp only [not_or, Decidable.not_not] at hfree
      exact ⟨.inl ⟨rfl, Function.update_self _ _ _, .inr hfree.2⟩,
        fun path hpath => Function.update_of_ne hpath _ _⟩

theorem register_length (failures : Failures) (registrations : List Registration) (i : Nat)
    (fs : FileSystem) :
    (register failures registrations i fs).1.length = registrations.length := by
  induction registrations generalizing i fs with
  | nil => rfl
  | cons r registrations ih => exact congrArg (· + 1) (ih (i + 1) _)

theorem register_spec (failures : Failures) (T : Table registrations) (i : Nat) (fs : FileSystem) :
    (∀ x ∈ registrations.zip (register failures registrations i fs).1,
      Registered fs (register failures registrations i fs).2 x.1 x.2) ∧
    ∀ path, path ∉ registrations.map (·.link) →
      (∀ r ∈ registrations, r.directory ≠ some path) →
      (register failures registrations i fs).2 path = fs path := by
  induction registrations generalizing i fs with
  | nil => exact ⟨nofun, fun _ _ _ => rfl⟩
  | cons r registrations ih =>
    unfold register
    have hmkdir : ∀ path, r.directory ≠ some path →
        r.directory.elim fs (fs.mkdir (failures.mkdir (i + 2))) path = fs path := by
      intro path hpath
      cases hd : r.directory with
      | none => rfl
      | some directory => exact mkdir_of_ne fun heq => hpath (by rw [hd, heq])
    dsimp only
    generalize r.directory.elim fs (fs.mkdir (failures.mkdir (i + 2))) = fs₁ at hmkdir ⊢
    generalize hlinked : (if isOurRegistration r fs₁ then (true, fs₁)
      else fs₁.symlink (failures.symlink i) r.target r.link) = res
    obtain ⟨registered, fs₂⟩ := res
    obtain ⟨hr, hframe⟩ := link_registered (T.short r List.mem_cons_self) hlinked
    obtain ⟨hrest, hothers⟩ := ih T.tail (i + 1) fs₂
    have hlink : r.link ∉ registrations.map (·.link) := (List.nodup_cons.mp T.once).1
    have hno : ∀ x ∈ r :: registrations, ∀ y ∈ r :: registrations, y.directory ≠ some x.link :=
      fun x hx y hy heq => T.apart y hy _ heq (List.mem_map_of_mem hx)
    refine ⟨fun x hx => ?_, fun path hpath hdirectory => ?_⟩
    · rcases List.mem_cons.mp hx with rfl | hx
      · -- neither `mkdir` nor the links that follow are at this path
        exact hr.congr (hmkdir r.link (hno r List.mem_cons_self r List.mem_cons_self)).symm
          (hothers r.link hlink fun y hy =>
            hno r List.mem_cons_self y (List.mem_cons_of_mem _ hy))
      · have hmem := (List.of_mem_zip hx).1
        have hsame := (hframe x.1.link fun heq => hlink (heq ▸ List.mem_map_of_mem hmem)).trans
          (hmkdir x.1.link (hno x.1 (List.mem_cons_of_mem _ hmem) r List.mem_cons_self))
        exact (hrest x hx).congr hsame.symm rfl
    · rw [List.map_cons, List.mem_cons, not_or] at hpath
      rw [hothers path hpath.2 fun y hy => hdirectory y (List.mem_cons_of_mem _ hy),
        hframe path hpath.1, hmkdir path (hdirectory r List.mem_cons_self)]

/-- The body of the loop of the destructor, at the link of its registration. -/
theorem unlink_registered {fs₀ : FileSystem} {registered : Bool}
    (h : r.target.length < PATH_MAX - 1) (hr : Registered fs₀ fs r registered) :
    (if registered && isOurRegistration r fs then fs.unlink r.link else fs) r.link =
      if fs₀ r.link = .symlink r.target then .absent else fs₀ r.link := by
  rcases hr with ⟨rfl, hlink, hfirst⟩ | ⟨rfl, hlink, hfirst⟩
  · rw [(isOurRegistration_iff h).mpr hlink, Bool.and_true, if_pos rfl, FileSystem.unlink,
      Function.update_self]
    split
    · rfl
    · next hother => exact (hfirst.resolve_left hother).symm
  · rw [Bool.false_and, if_neg Bool.false_ne_true, if_neg hfirst]
    exact hlink

theorem unregister_spec {fs₀ : FileSystem} {pairs : List (Registration × Bool)}
    (hshort : ∀ x ∈ pairs, x.1.target.length < PATH_MAX - 1)
    (honce : (pairs.map (·.1.link)).Nodup) (h : ∀ x ∈ pairs, Registered fs₀ fs x.1 x.2) :
    (∀ x ∈ pairs, unregister pairs fs x.1.link =
      if fs₀ x.1.link = .symlink x.1.target then .absent else fs₀ x.1.link) ∧
    ∀ path, path ∉ pairs.map (·.1.link) → unregister pairs fs path = fs path := by
  induction pairs generalizing fs with
  | nil => exact ⟨nofun, fun _ _ => rfl⟩
  | cons y pairs ih =>
    obtain ⟨r, registered⟩ := y
    have hlink : r.link ∉ pairs.map (·.1.link) := (List.nodup_cons.mp honce).1
    have hr := unlink_registered (hshort _ List.mem_cons_self) (h _ List.mem_cons_self)
    have hframe : ∀ path, path ≠ r.link →
        (if registered && isOurRegistration r fs then fs.unlink r.link else fs) path =
          fs path := by
      intro path hpath
      split
      · exact Function.update_of_ne hpath _ _
      · rfl
    unfold unregister
    generalize (if registered && isOurRegistration r fs then fs.unlink r.link else fs) = fs₁
      at hr hframe ⊢
    have hrest : ∀ x ∈ pairs, Registered fs₀ fs₁ x.1 x.2 := fun x hx =>
      (h x (List.mem_cons_of_mem _ hx)).congr rfl
        (hframe x.1.link fun heq => hlink (heq ▸ List.mem_map_of_mem hx))
    obtain ⟨hpairs, hothers⟩ := ih (fun x hx => hshort x (List.mem_cons_of_mem _ hx))
      (List.nodup_cons.mp honce).2 hrest
    refine ⟨fun x hx => ?_, fun path hpath => ?_⟩
    · rcases List.mem_cons.mp hx with rfl | hx
      · exact (hothers r.link hlink).trans hr
      · exact hpairs x hx
    · rw [List.map_cons, List.mem_cons, not_or] at hpath
      exact (hothers path hpath.2).trans (hframe path hpath.1)

/-- The first two calls of `mkdir` are not at a registered path. -/
theorem mkdirs_link (fs : FileSystem) (b c : Bool) (hr : r ∈ kRegistrations) :
    ((fs.mkdir b "/boot/system/non-packaged").mkdir c "/boot/system/non-packaged/add-ons") r.link =
      fs r.link := by
  have hfirst : ∀ r ∈ kRegistrations, r.link ≠ "/boot/system/non-packaged" := by decide
  have hsecond : ∀ r ∈ kRegistrations, r.link ≠ "/boot/system/non-packaged/add-ons" := by decide
  rw [mkdir_of_ne (hsecond r hr), mkdir_of_ne (hfirst r hr)]

theorem run_link (failures : Failures) (fs : FileSystem) (hr : r ∈ kRegistrations) :
    run failures fs r.link =
      if fs r.link = .symlink r.target then .absent else fs r.link := by
  have T := table_kRegistrations
  unfold run readyToRun
  have hbefore := mkdirs_link fs (failures.mkdir 0) (failures.mkdir 1) hr
  dsimp only
  generalize (fs.mkdir (failures.mkdir 0) "/boot/system/non-packaged").mkdir (failures.mkdir 1)
    "/boot/system/non-packaged/add-ons" = fs₁ at hbefore ⊢
  obtain ⟨hregistered, -⟩ := register_spec failures T 0 fs₁
  have hlength := register_length failures kRegistrations 0 fs₁
  generalize register failures kRegistrations 0 fs₁ = res at hregistered hlength ⊢
  obtain ⟨flags, fs₂⟩ := res
  have hfst : (kRegistrations.zip flags).map Prod.fst = kRegistrations :=
    List.map_fst_zip (Nat.le_of_eq hlength.symm)
  have honce : ((kRegistrations.zip flags).map (·.1.link)).Nodup := by
    have hmap := List.map_map (f := Prod.fst) (g := Registration.link)
      (l := kRegistrations.zip flags)
    rw [hfst] at hmap
    exact hmap ▸ T.once
  obtain ⟨hpairs, -⟩ := unregister_spec
    (fun x hx => T.short x.1 (List.of_mem_zip hx).1) honce hregistered
  obtain ⟨x, hx, rfl⟩ := List.mem_map.mp (hfst ▸ hr)
  rw [← hbefore]
  exact hpairs x hx

/-- Starting and stopping the service leaves every registered path as it was, if and only if none
of them was a link with the text of its registration. -/
theorem run_unchanged_iff (failures : Failures) (fs : FileSystem) :
    (∀ r ∈ kRegistrations, run failures fs r.link = fs r.link) ↔
      ∀ r ∈ kRegistrations, fs r.link ≠ .symlink r.target := by
  refine forall₂_congr fun r hr => ?_
  rw [run_link failures fs hr]
  by_cases hours : fs r.link = .symlink r.target
  · rw [if_pos hours]
    exact ⟨fun h => absurd (h.trans hours) nofun, fun h => absurd hours h⟩
  · rw [if_neg hours]
    exact ⟨fun _ => hours, fun _ => rfl⟩

/-- A library that has been installed by hand, with the links that go with one. -/
def byHand (path : String) : Entry :=
  if path = "/boot/system/non-packaged/lib/libEGL.so.1.0.0" then .file 1 else
  if path = "/boot/system/non-packaged/lib/libEGL.so.1" then .symlink "libEGL.so.1.0.0" else
  if path = "/boot/system/non-packaged/lib/libEGL.so" then .symlink "libEGL.so.1" else
  if path ∈ ["/boot", "/boot/system", "/boot/system/non-packaged",
    "/boot/system/non-packaged/lib"] then .directory else .absent

theorem not_unchanged_of_byHand :
    ¬ ∀ (failures : Failures) (fs : FileSystem), ∀ r ∈ kRegistrations,
      run failures fs r.link = fs r.link := by
  intro h
  have hlink := h ⟨fun _ => false, fun _ => false⟩ byHand
    ⟨"libEGL.so.1.0.0", "/boot/system/non-packaged/lib/libEGL.so.1", none⟩ (by decide)
  exact absurd hlink (by decide)

end Server

end IntelGfx

import Mathlib.Logic.Function.Basic

/-!
# Registrations of the service

`server/IntelGfx.cpp`: the links that the service makes when it starts and removes when it stops.
The file system is taken by its paths. Which calls of `mkdir` and `symlink` fail, other than because
of what is there, is an input. The roster of devices is left out.
-/

namespace IntelGfx

namespace Server

def PATH_MAX : Nat := 1024

structure Registration where
  target : String
  link : String
  directory : Option String
  deriving DecidableEq

def kRegistrations : List Registration :=
  [⟨"/boot/system/add-ons/opengl/Intel Gallium",
    "/boot/system/non-packaged/add-ons/opengl/Intel Gallium",
    some "/boot/system/non-packaged/add-ons/opengl"⟩,
   ⟨"/boot/system/lib/intelgfx/libEGL.so.1.0.0",
    "/boot/system/non-packaged/lib/libEGL.so.1.0.0",
    some "/boot/system/non-packaged/lib"⟩,
   ⟨"libEGL.so.1.0.0", "/boot/system/non-packaged/lib/libEGL.so.1", none⟩,
   ⟨"libEGL.so.1.0.0", "/boot/system/non-packaged/lib/libEGL.so", none⟩,
   ⟨"/boot/system/lib/intelgfx/libGLESv2.so.2.0.0",
    "/boot/system/non-packaged/lib/libGLESv2.so.2.0.0",
    some "/boot/system/non-packaged/lib"⟩,
   ⟨"libGLESv2.so.2.0.0", "/boot/system/non-packaged/lib/libGLESv2.so.2", none⟩,
   ⟨"libGLESv2.so.2.0.0", "/boot/system/non-packaged/lib/libGLESv2.so", none⟩]

/-- What there is at a path. -/
inductive Entry where
  | absent
  | file (content : Nat)
  | directory
  | symlink (target : String)
  deriving DecidableEq

abbrev FileSystem := String → Entry

namespace FileSystem

/-- `readlink` into a buffer of `size` bytes. -/
def readlink (fs : FileSystem) (path : String) (size : Nat) : Option String :=
  match fs path with
  | .symlink target => some (.ofList (target.toList.take size))
  | _ => none

def mkdir (fails : Bool) (path : String) (fs : FileSystem) : FileSystem :=
  if fails ∨ fs path ≠ .absent then fs else Function.update fs path .directory

/-- Whether `symlink` has succeeded, and what it leaves. -/
def symlink (fails : Bool) (target link : String) (fs : FileSystem) : Bool × FileSystem :=
  if fails ∨ fs link ≠ .absent then (false, fs)
  else (true, Function.update fs link (.symlink target))

def unlink (path : String) (fs : FileSystem) : FileSystem := Function.update fs path .absent

end FileSystem

/-- `is_our_registration` -/
def isOurRegistration (registration : Registration) (fs : FileSystem) : Bool :=
  match fs.readlink registration.link (PATH_MAX - 1) with
  | none => false
  | some target => target = registration.target

/-- Which calls fail. -/
structure Failures where
  mkdir : Nat → Bool
  symlink : Nat → Bool

/-- The loop of `ReadyToRun`, from registration `i` on: what goes to `fRegistered`. -/
def register (failures : Failures) : List Registration → (i : Nat) → FileSystem →
    List Bool × FileSystem
  | [], _, fs => ([], fs)
  | registration :: registrations, i, fs =>
    let fs := registration.directory.elim fs (fs.mkdir (failures.mkdir (i + 2)))
    let (registered, fs) :=
      if isOurRegistration registration fs then (true, fs)
      else fs.symlink (failures.symlink i) registration.target registration.link
    let (rest, fs) := register failures registrations (i + 1) fs
    (registered :: rest, fs)

/-- `ReadyToRun` -/
def readyToRun (failures : Failures) (fs : FileSystem) : List Bool × FileSystem :=
  let fs := fs.mkdir (failures.mkdir 0) "/boot/system/non-packaged"
  let fs := fs.mkdir (failures.mkdir 1) "/boot/system/non-packaged/add-ons"
  register failures kRegistrations 0 fs

/-- The loop of `~IntelGfxServer`. -/
def unregister : List (Registration × Bool) → FileSystem → FileSystem
  | [], fs => fs
  | (registration, registered) :: rest, fs =>
    unregister rest (if registered && isOurRegistration registration fs then
      fs.unlink registration.link else fs)

/-- The service is started and stopped. -/
def run (failures : Failures) (fs : FileSystem) : FileSystem :=
  let (fRegistered, fs) := readyToRun failures fs
  unregister (kRegistrations.zip fRegistered) fs

end Server

end IntelGfx

import IntelGfx.Kernel.Forcewake
import IntelGfx.Kernel.StateLayout

/-!
# The topology query

`topology` of the Mesa adapter (`IntelWinsys.cpp`), which turns what `kGetTopology` reports into
the record that Iris asks for.
-/

namespace IntelGfx

/-- `drm_i915_query_item`, as far as it is read. -/
structure QueryItem where
  length : Int
  dataPtr : Bool

/-- `drm_i915_query_topology_info` -/
structure TopologyInfo where
  maxSlices : BitVec 16
  maxSubslices : BitVec 16
  maxEusPerSubslice : BitVec 16
  subsliceOffset : BitVec 16
  subsliceStride : BitVec 16
  euOffset : BitVec 16
  euStride : BitVec 16
  data : Nat → Byte

inductive QueryAnswer where
  | length (length : Int)
  | info (t : TopologyInfo)

namespace Topology

/-- `kGetTopology`: an engine that is ready reports what its scheduler holds, if the report can be
copied to the caller. -/
def get (ready copied : Bool) (t : Topology) : Option Topology :=
  if ready && copied then some t else none

/-- The loop over the slices, on data that starts out as zeroes. -/
def fill (t : Topology) : Nat → Byte :=
  (List.range 3).foldl (fun data s =>
    if t.sliceMask &&& 1 <<< s = 0 then data
    else (List.range 4).foldl (fun data ss =>
        Function.update data (4 + s * 4 + ss) ((t.euMask s >>> (ss * 8) &&& 0xff).setWidth 8))
      (Function.update data (1 + s) ((t.subsliceMask s).setWidth 8)))
    (Function.update (fun _ => 0) 0 (t.sliceMask.setWidth 8))

/-- `topology` -/
def query (item : QueryItem) (served : Option Topology) : Option QueryAnswer :=
  let size := 16 + 1 + 3 + 12
  if item.length = 0 then some (.length size) else
  if item.length < size ∨ !item.dataPtr then none else
  match served with
  | none => none
  | some t =>
    let info : TopologyInfo :=
      { maxSlices := t.maxSlices.setWidth 16
        maxSubslices := t.maxSubslices.setWidth 16
        maxEusPerSubslice := t.maxEusPerSubslice.setWidth 16
        subsliceOffset := 1
        subsliceStride := 1
        euOffset := 4
        euStride := 1
        data := t.fill }
    if info.data 0 = 0 then none else some (.info info)

end Topology

end IntelGfx

import IntelGfx.Mesa.RasBuffer

/-!
# What is drawn to the screen

`Display` copies what is visible of the bitmap, as long as the offsets that it computes on `int32`
do not overflow.
-/

namespace IntelGfx

namespace Renderer

variable {bitmap : Bitmap} {info : DirectBufferInfo} {clip : ClippingRect}

/-- An `int32` holds the value. -/
def Fits (v : Int) : Prop := -2 ^ 31 ≤ v ∧ v < 2 ^ 31

theorem checked_of_fits {v : Int} (h : Fits v) : checked v = some v := if_pos h

theorem checked_of_not_fits {v : Int} (h : ¬ Fits v) : checked v = none := if_neg h

namespace RasBuffer

/-! ## Clipping in one direction -/

/-- A range from the start on, clipped to all that an `int32` holds. -/
theorem clipAxis_screen {l r : Int} (hl : 0 ≤ l) (hr : -2 ^ 30 < r) (hr' : r < 2 ^ 30) :
    clipAxis l (r + 1 - l) 0x7fffffff = some (l, r + 1 - l) := by
  have hlow : clipLow l (r + 1 - l) = some (l, r + 1 - l) := if_neg (by omega)
  have hstop : Fits (l + (r + 1 - l)) := by
    unfold Fits
    omega
  rw [clipAxis, hlow, Option.bind_eq_bind, Option.bind_some]
  dsimp only
  rw [clipHigh, checked_of_fits hstop, Option.bind_eq_bind, Option.bind_some, if_neg (by omega)]
  rfl

/-- The destination: the range begins `o` before it. -/
theorem clipAxis_dst {o size width : Int} (ho : 0 ≤ o) (ho' : o < 2 ^ 31) (hs : 0 < size)
    (hs' : size < 2 ^ 31) (hw : 0 ≤ width) (hw' : width < 2 ^ 31) :
    clipAxis (-o) size width = some (0, min width (size - o)) := by
  have hlow : clipLow (-o) size = some (0, size - o) := by
    unfold clipLow
    split
    · rw [checked_of_fits (by unfold Fits; omega)]
      rfl
    · obtain rfl : o = 0 := by omega
      simp
  have hstop : Fits (0 + (size - o)) := by
    unfold Fits
    omega
  rw [clipAxis, hlow, Option.bind_eq_bind, Option.bind_some]
  dsimp only
  rw [clipHigh, checked_of_fits hstop, Option.bind_eq_bind, Option.bind_some]
  split
  · have hwidth : Fits (width - 0) := by
      unfold Fits
      omega
    rw [checked_of_fits hwidth, Int.min_eq_left (by omega), Int.sub_zero]
    rfl
  · rw [Int.min_eq_right (by omega)]
    rfl

/-- The source: the range begins `o` after it. -/
theorem clipAxis_src {o size width : Int} (ho : 0 ≤ o) (hs : 0 < size) (hs' : size < 2 ^ 31)
    (hw : 0 ≤ width) (how : o + width < 2 ^ 31) :
    clipAxis o width size = some (o, min width (size - o)) := by
  have hlow : clipLow o width = some (o, width) := if_neg (by omega)
  have hstop : Fits (o + width) := by
    unfold Fits
    omega
  rw [clipAxis, hlow, Option.bind_eq_bind, Option.bind_some]
  dsimp only
  rw [clipHigh, checked_of_fits hstop, Option.bind_eq_bind, Option.bind_some]
  split
  · have hsize : Fits (size - o) := by
      unfold Fits
      omega
    rw [checked_of_fits hsize, Int.min_eq_right (by omega)]
    rfl
  · rw [Int.min_eq_left (by omega)]
    rfl

theorem clipOrg_of_fits {x org : Int} (h : 0 ≤ x + org) (h' : x + org < 2 ^ 31) :
    clipOrg x org = some (x + org) := by
  rw [clipOrg, checked_of_fits ⟨by omega, h'⟩, Option.map_some]
  split
  · rfl
  · congr 1
    omega

/-! ## Clipping -/

/-- The offset of a pixel is computed without overflow. -/
def InRange (b : RasBuffer) (x y : Int) : Prop :=
  Fits (y * b.stride) ∧ Fits (x * b.pixelSize) ∧ Fits (y * b.stride + x * b.pixelSize)

theorem offset_of_inRange {b : RasBuffer} {x y : Int} (h : b.InRange x y) :
    b.offset x y = some (y * b.stride + x * b.pixelSize) := by
  rw [offset, checked_of_fits h.1, Option.bind_eq_bind, Option.bind_some, checked_of_fits h.2.1,
    Option.bind_some, checked_of_fits h.2.2]

theorem offset_of_not_inRange {b : RasBuffer} {x y : Int} (h : ¬ b.InRange x y) :
    b.offset x y = none := by
  unfold offset
  by_cases hy : Fits (y * b.stride)
  case neg =>
    rw [checked_of_not_fits hy]
    rfl
  by_cases hx : Fits (x * b.pixelSize)
  case neg =>
    rw [checked_of_fits hy, checked_of_not_fits hx]
    rfl
  rw [checked_of_fits hy, Option.bind_eq_bind, Option.bind_some, checked_of_fits hx,
    Option.bind_some, checked_of_not_fits fun hsum => h ⟨hy, hx, hsum⟩]

/-- `ClipSize`, when the ranges have been found. -/
theorem clipSize_eq {b : RasBuffer} {x y w h x' y' w' h' : Int}
    (hx : clipAxis x w b.width = some (x', w')) (hy : clipAxis y h b.height = some (y', h'))
    (hox : 0 ≤ x' + b.orgX ∧ x' + b.orgX < 2 ^ 31) (hoy : 0 ≤ y' + b.orgY ∧ y' + b.orgY < 2 ^ 31) :
    b.clipSize x y w h = (b.part x' y' w' h').map fun part =>
      { part with orgX := x' + b.orgX, orgY := y' + b.orgY } := by
  rw [clipSize, hx, Option.bind_eq_bind, Option.bind_some]
  dsimp only
  rw [hy, Option.bind_eq_bind, Option.bind_some]
  dsimp only
  unfold part
  split
  · cases b.offset x' y' with
    | none => rfl
    | some offset =>
      simp only [Option.map_some, Option.bind_eq_bind, Option.bind_some,
        clipOrg_of_fits hox.1 hox.2, clipOrg_of_fits hoy.1 hoy.2]
  · simp only [Option.map_some, Option.bind_eq_bind, Option.bind_some,
      clipOrg_of_fits hox.1 hox.2, clipOrg_of_fits hoy.1 hoy.2]

/-! ## Copying -/

theorem blitRows_eq {dst src : RasBuffer} (hf : src.pixelFormat = dst.pixelFormat)
    (hw : Fits (src.width * src.pixelSize)) (height : Nat) (d s : Int) :
    blitRows dst src height (some d) (some s) = some ((List.range height).map fun j : Nat =>
      .memcpy (some (d + j * dst.stride)) (some (s + j * src.stride))
        (src.width * src.pixelSize)) := by
  induction height generalizing d s with
  | zero => rfl
  | succ height ih =>
    have hrow : blitRow dst src (some d) (some s) =
        some (.memcpy (some d) (some s) (src.width * src.pixelSize)) := by
      rw [blitRow, if_pos hf, checked_of_fits hw]
      rfl
    rw [blitRows, hrow, Option.map_some, Option.map_some, ih, List.range_succ_eq_map,
      List.map_cons, List.map_map]
    simp only [Option.bind_eq_bind, Option.bind_some, Int.natCast_zero, Int.zero_mul, Int.add_zero]
    congr 2
    refine List.map_congr_left fun j _ => ?_
    simp only [Function.comp_apply, Nat.succ_eq_add_one, Int.natCast_add, Int.natCast_one,
      Int.add_mul, Int.one_mul]
    congr 2 <;> omega

/-- The origins are not looked at. -/
theorem blitRows_org (dst src : RasBuffer) (x y x' y' : Int) (height : Nat) (d s : Option Int) :
    blitRows { dst with orgX := x, orgY := y } { src with orgX := x', orgY := y' } height d s =
      blitRows dst src height d s := by
  induction height generalizing d s with
  | zero => rfl
  | succ height ih =>
    rw [blitRows, blitRows]
    refine congrArg (Option.bind _) (funext fun row => ?_)
    rw [ih]

/-- The columns, or the rows, of a bitmap of that size that are seen from the origin on. -/
def seen (width size org : Int) : Int := min width (size - org)

/-- A buffer that is drawn to, and a bitmap. -/
structure Drawn (b src : RasBuffer) : Prop where
  width : 0 ≤ b.width
  height : 0 ≤ b.height
  orgX : 0 ≤ b.orgX ∧ b.orgX + b.width < 2 ^ 31
  orgY : 0 ≤ b.orgY ∧ b.orgY + b.height < 2 ^ 31
  size : (0 < src.width ∧ src.width < 2 ^ 31) ∧ 0 < src.height ∧ src.height < 2 ^ 31
  org : src.orgX = 0 ∧ src.orgY = 0
  row : Fits (src.width * src.pixelSize)
  pixel : 0 ≤ src.pixelSize
  format : src.pixelFormat = b.pixelFormat

theorem Drawn.blit_eq {b src : RasBuffer} (D : Drawn b src) : b.blit src =
    (b.part 0 0 (seen b.width src.width b.orgX) (seen b.height src.height b.orgY)).bind fun dst =>
    (src.part b.orgX b.orgY (seen b.width src.width b.orgX)
      (seen b.height src.height b.orgY)).bind fun src =>
    blitRows dst src dst.height.toNat dst.colors src.colors := by
  obtain ⟨⟨hox, hox'⟩, hoy, hoy'⟩ := And.intro D.orgX D.orgY
  obtain ⟨⟨hsw, hsw'⟩, hsh, hsh'⟩ := D.size
  have hw := D.width
  have hh := D.height
  have hx : checked (src.orgX - b.orgX) = some (-b.orgX) := by
    rw [D.org.1, Int.zero_sub]
    exact checked_of_fits (by unfold Fits; omega)
  have hy : checked (src.orgY - b.orgY) = some (-b.orgY) := by
    rw [D.org.2, Int.zero_sub]
    exact checked_of_fits (by unfold Fits; omega)
  have hx' : checked (- -b.orgX) = some b.orgX := by
    rw [Int.neg_neg]
    exact checked_of_fits (by unfold Fits; omega)
  have hy' : checked (- -b.orgY) = some b.orgY := by
    rw [Int.neg_neg]
    exact checked_of_fits (by unfold Fits; omega)
  have hdst := clipSize_eq (b := b)
    (clipAxis_dst hox (by omega) hsw hsw' hw (by omega))
    (clipAxis_dst hoy (by omega) hsh hsh' hh (by omega)) (by omega) (by omega)
  have hsrc := clipSize_eq (b := src) (clipAxis_src hox hsw hsw' hw hox')
    (clipAxis_src hoy hsh hsh' hh hoy') (by rw [D.org.1]; omega) (by rw [D.org.2]; omega)
  rw [blit, hx, Option.bind_eq_bind, Option.bind_some, hy, Option.bind_eq_bind, Option.bind_some,
    hdst]
  change (Option.map _ (b.part 0 0 (seen b.width src.width b.orgX)
    (seen b.height src.height b.orgY))).bind _ = _
  cases b.part 0 0 (seen b.width src.width b.orgX) (seen b.height src.height b.orgY) with
  | none => rfl
  | some dst =>
    rw [Option.map_some, Option.bind_some, Option.bind_some, hx', Option.bind_some, hy',
      Option.bind_some, hsrc]
    change (Option.map _ (src.part b.orgX b.orgY (seen b.width src.width b.orgX)
      (seen b.height src.height b.orgY))).bind _ = _
    cases src.part b.orgX b.orgY (seen b.width src.width b.orgX)
      (seen b.height src.height b.orgY) with
    | none => rfl
    | some src => exact blitRows_org dst src _ _ _ _ _ _ _

/-- What is seen of the bitmap is copied, row after row, if its offset can be computed. -/
theorem Drawn.blit_seen {b src : RasBuffer} (D : Drawn b src) {d s : Int}
    (hd : b.colors = some d) (hs : src.colors = some s)
    (hc : 0 < seen b.width src.width b.orgX) (hr : 0 < seen b.height src.height b.orgY) :
    (src.InRange b.orgX b.orgY →
      b.blit src = some ((List.range (seen b.height src.height b.orgY).toNat).map fun j : Nat =>
        .memcpy (some (d + j * b.stride))
          (some (s + (b.orgY * src.stride + b.orgX * src.pixelSize) + j * src.stride))
          (seen b.width src.width b.orgX * src.pixelSize))) ∧
    (¬ src.InRange b.orgX b.orgY → b.blit src = none) := by
  have hzero : b.InRange 0 0 := by
    unfold InRange Fits
    simp
  have hrow : Fits (seen b.width src.width b.orgX * src.pixelSize) := by
    have hle : seen b.width src.width b.orgX * src.pixelSize ≤ src.width * src.pixelSize :=
      Int.mul_le_mul_of_nonneg_right
        (Int.le_trans (Int.min_le_right _ _) (Int.sub_le_self _ D.orgX.1)) D.pixel
    have hge := Int.mul_nonneg (Int.le_of_lt hc) D.pixel
    exact ⟨by omega, Int.lt_of_le_of_lt hle D.row.2⟩
  rw [D.blit_eq, part, if_pos ⟨hc, hr⟩, offset_of_inRange hzero, hd, part, if_pos ⟨hc, hr⟩, hs]
  refine ⟨fun hin => ?_, fun hout => ?_⟩
  · rw [offset_of_inRange hin]
    simp only [Option.map_some, Option.bind_some, Int.zero_mul, Int.add_zero]
    exact blitRows_eq (by exact D.format) (by exact hrow) _ _ _
  · rw [offset_of_not_inRange hout]
    rfl

theorem Drawn.blit_unseen {b src : RasBuffer} (D : Drawn b src)
    (h : ¬ (0 < seen b.width src.width b.orgX ∧ 0 < seen b.height src.height b.orgY)) :
    b.blit src = some [] := by
  rw [D.blit_eq, part, if_neg h, part, if_neg h]
  rfl

end RasBuffer

/-! ## Clip rectangles -/

namespace ClippingRect

/-- The coordinates are below `2 ^ 30`. -/
structure Small (r : ClippingRect) : Prop where
  left : -2 ^ 30 < r.left ∧ r.left < 2 ^ 30
  top : -2 ^ 30 < r.top ∧ r.top < 2 ^ 30
  right : -2 ^ 30 < r.right ∧ r.right < 2 ^ 30
  bottom : -2 ^ 30 < r.bottom ∧ r.bottom < 2 ^ 30

structure Inside (r window : ClippingRect) : Prop where
  left : window.left ≤ r.left
  top : window.top ≤ r.top
  right : r.right ≤ window.right
  bottom : r.bottom ≤ window.bottom

structure OnScreen (r : ClippingRect) (info : DirectBufferInfo) : Prop where
  left : 0 ≤ r.left
  top : 0 ≤ r.top
  right : 4 * (r.right + 1) ≤ info.bytesPerRow

/-- A rectangle that is not empty. -/
def Proper (r : ClippingRect) : Prop := r.left ≤ r.right ∧ r.top ≤ r.bottom

end ClippingRect

/-- A bitmap and a screen of 32 bits a pixel. -/
structure Drawable (bitmap : Bitmap) (info : DirectBufferInfo) : Prop where
  width : 0 < bitmap.width
  height : 0 < bitmap.height ∧ bitmap.height < 2 ^ 31
  stride : bitmap.bytesPerRow = 4 * bitmap.width ∧ bitmap.bytesPerRow < 2 ^ 31
  format : bitmap.colorSpace = info.pixelFormat
  depth : info.bitsPerPixel = 32
  pitch : info.bytesPerRow < 2 ^ 32
  window : info.windowBounds.Small
  clips : ∀ clip ∈ info.clipList,
    clip.Small ∧ clip.Inside info.windowBounds ∧ clip.OnScreen info

/-- The columns of the bitmap that are seen in a clip rectangle. -/
def columns (bitmap : Bitmap) (info : DirectBufferInfo) (clip : ClippingRect) : Int :=
  RasBuffer.seen (clip.right + 1 - clip.left) bitmap.width (clip.left - info.windowBounds.left)

/-- The rows of the bitmap that are seen in a clip rectangle. -/
def rows (bitmap : Bitmap) (info : DirectBufferInfo) (clip : ClippingRect) : Int :=
  RasBuffer.seen (clip.bottom + 1 - clip.top) bitmap.height (clip.top - info.windowBounds.top)

/-- Something is seen in a clip rectangle. -/
def Seen (bitmap : Bitmap) (info : DirectBufferInfo) (clip : ClippingRect) : Prop :=
  0 < columns bitmap info clip ∧ 0 < rows bitmap info clip

instance : Decidable (Seen bitmap info clip) := instDecidableAnd

/-- Where the rows of the screen are taken to be. -/
def screenStride (info : DirectBufferInfo) : Int := (RasBuffer.ofInfo info).stride

/-- The destination for a clip rectangle. -/
def target (info : DirectBufferInfo) (clip : ClippingRect) (w h : Int) (colors : Option Int) :
    RasBuffer where
  width := w
  height := h
  stride := screenStride info
  orgX := clip.left - info.windowBounds.left
  orgY := clip.top - info.windowBounds.top
  colors := colors
  pixelFormat := info.pixelFormat
  pixelSize := (info.bitsPerPixel / 8 : Nat)

theorem target_eq (info : DirectBufferInfo) (clip : ClippingRect) (w h : Int)
    (colors : Option Int) (part : RasBuffer)
    (hpart : part = { RasBuffer.ofInfo info with width := w, height := h, colors := colors }) :
    { part with
      orgX := clip.left - info.windowBounds.left
      orgY := clip.top - info.windowBounds.top } = target info clip w h colors := by
  rw [hpart]
  unfold target screenStride RasBuffer.ofInfo
  dsimp only

/-- What is copied for a clip rectangle. -/
def copies (bitmap : Bitmap) (info : DirectBufferInfo) (clip : ClippingRect) : List Row :=
  if Seen bitmap info clip then
    (List.range (rows bitmap info clip).toNat).map fun j : Nat =>
      .memcpy
        (some (info.bits + (clip.top * screenStride info + clip.left * 4) + j * screenStride info))
        (some (bitmap.bits + ((clip.top - info.windowBounds.top) * bitmap.bytesPerRow +
          (clip.left - info.windowBounds.left) * 4) + j * bitmap.bytesPerRow))
        (columns bitmap info clip * 4)
  else []

/-- The offsets that are computed for a clip rectangle do not overflow. -/
structure Safe (bitmap : Bitmap) (info : DirectBufferInfo) (clip : ClippingRect) : Prop where
  screen : clip.Proper → (RasBuffer.ofInfo info).InRange clip.left clip.top
  source : Seen bitmap info clip → (RasBuffer.ofBitmap bitmap).InRange
    (clip.left - info.windowBounds.left) (clip.top - info.windowBounds.top)

namespace Drawable

theorem pixelSize (D : Drawable bitmap info) : (RasBuffer.ofBitmap bitmap).pixelSize = 4 := by
  have hw := D.width
  change bitmap.bytesPerRow.tdiv bitmap.width = 4
  rw [D.stride.1, Int.mul_tdiv_cancel _ (by omega)]

theorem screenPixelSize (D : Drawable bitmap info) : (RasBuffer.ofInfo info).pixelSize = 4 := by
  change ((info.bitsPerPixel / 8 : Nat) : Int) = 4
  rw [D.depth]
  rfl

theorem drawn (D : Drawable bitmap info) (hclip : clip ∈ info.clipList) {w h : Int}
    (hw : 0 ≤ w ∧ (0 < w → w ≤ clip.right + 1 - clip.left))
    (hh : 0 ≤ h ∧ (0 < h → h ≤ clip.bottom + 1 - clip.top)) (colors : Option Int) :
    (target info clip w h colors).Drawn (.ofBitmap bitmap) := by
  obtain ⟨C, I, -⟩ := D.clips clip hclip
  obtain ⟨⟨hwl, -⟩, ⟨hwt, -⟩, -, -⟩ := D.window
  obtain ⟨⟨-, hl⟩, ⟨-, ht⟩, ⟨-, hr⟩, ⟨-, hb⟩⟩ := C
  have hleft := I.left
  have htop := I.top
  have hstride := D.stride
  have hwidth := D.width
  refine ⟨hw.1, hh.1, ⟨?_, ?_⟩, ⟨?_, ?_⟩, ⟨⟨hwidth, ?_⟩, D.height⟩, ⟨rfl, rfl⟩, ?_, ?_, D.format⟩
  · change 0 ≤ clip.left - info.windowBounds.left
    omega
  · change clip.left - info.windowBounds.left + w < 2 ^ 31
    omega
  · change 0 ≤ clip.top - info.windowBounds.top
    omega
  · change clip.top - info.windowBounds.top + h < 2 ^ 31
    omega
  · change bitmap.width < 2 ^ 31
    omega
  · rw [D.pixelSize]
    change -2 ^ 31 ≤ bitmap.width * 4 ∧ bitmap.width * 4 < 2 ^ 31
    omega
  · rw [D.pixelSize]
    decide

/-- Up to `Blit`. -/
theorem displayClip_blit (D : Drawable bitmap info) (hclip : clip ∈ info.clipList) :
    displayClip bitmap info clip =
      ((RasBuffer.ofInfo info).part clip.left clip.top (clip.right + 1 - clip.left)
        (clip.bottom + 1 - clip.top)).bind fun part =>
      RasBuffer.blit { part with
        orgX := clip.left - info.windowBounds.left
        orgY := clip.top - info.windowBounds.top } (.ofBitmap bitmap) := by
  obtain ⟨C, I, S⟩ := D.clips clip hclip
  obtain ⟨⟨hwl, hwl'⟩, ⟨hwt, hwt'⟩, -, -⟩ := D.window
  obtain ⟨⟨-, hl⟩, ⟨-, ht⟩, ⟨hr, hr'⟩, ⟨hb, hb'⟩⟩ := C
  have hleft := S.left
  have htop := S.top
  have hfits (v : Int) (h : -2 ^ 31 ≤ v) (h' : v < 2 ^ 31) : checked v = some v :=
    checked_of_fits ⟨h, h'⟩
  have hclipped := RasBuffer.clipSize_eq (b := RasBuffer.ofInfo info)
    (RasBuffer.clipAxis_screen hleft hr hr') (RasBuffer.clipAxis_screen htop hb hb')
    (by change 0 ≤ clip.left + 0 ∧ clip.left + 0 < 2 ^ 31; omega)
    (by change 0 ≤ clip.top + 0 ∧ clip.top + 0 < 2 ^ 31; omega)
  have hrect : (RasBuffer.ofInfo info).clipRect clip.left clip.top (clip.right + 1)
      (clip.bottom + 1) = (RasBuffer.ofInfo info).clipSize clip.left clip.top
        (clip.right + 1 - clip.left) (clip.bottom + 1 - clip.top) := by
    rw [RasBuffer.clipRect, hfits (clip.right + 1 - clip.left) (by omega) (by omega),
      Option.bind_eq_bind, Option.bind_some,
      hfits (clip.bottom + 1 - clip.top) (by omega) (by omega), Option.bind_some]
  rw [displayClip, hfits (clip.right + 1) (by omega) (by omega), Option.bind_eq_bind,
    Option.bind_some, hfits (clip.bottom + 1) (by omega) (by omega), Option.bind_some, hrect,
    hclipped, hfits (-info.windowBounds.left) (by omega) (by omega),
    hfits (-info.windowBounds.top) (by omega) (by omega)]
  cases (RasBuffer.ofInfo info).part clip.left clip.top (clip.right + 1 - clip.left)
      (clip.bottom + 1 - clip.top) with
  | none => rfl
  | some part =>
    have hx : clip.left + (RasBuffer.ofInfo info).orgX + -info.windowBounds.left =
        clip.left - info.windowBounds.left := by
      change clip.left + 0 + -info.windowBounds.left = clip.left - info.windowBounds.left
      omega
    have hy : clip.top + (RasBuffer.ofInfo info).orgY + -info.windowBounds.top =
        clip.top - info.windowBounds.top := by
      change clip.top + 0 + -info.windowBounds.top = clip.top - info.windowBounds.top
      omega
    simp only [Option.map_some, Option.bind_some, RasBuffer.shift, hx, hy, Option.bind_eq_bind,
      hfits (clip.left - info.windowBounds.left) (by omega) (by omega),
      hfits (clip.top - info.windowBounds.top) (by omega) (by omega)]

theorem proper_of_seen (h : Seen bitmap info clip) : clip.Proper := by
  have hc := h.1
  have hr := h.2
  unfold columns RasBuffer.seen at hc
  unfold rows RasBuffer.seen at hr
  exact ⟨by omega, by omega⟩

theorem displayClip_eq (D : Drawable bitmap info) (hclip : clip ∈ info.clipList) :
    (Safe bitmap info clip → displayClip bitmap info clip = some (copies bitmap info clip)) ∧
    (¬ Safe bitmap info clip → displayClip bitmap info clip = none) := by
  rw [D.displayClip_blit hclip]
  by_cases hproper : clip.Proper
  case neg =>
    have hempty : ¬ (0 < clip.right + 1 - clip.left ∧ 0 < clip.bottom + 1 - clip.top) :=
      fun h => hproper ⟨by omega, by omega⟩
    have hunseen : ¬ Seen bitmap info clip := fun h => hproper (proper_of_seen h)
    have hdrawn := D.drawn hclip (w := 0) (h := 0) ⟨Int.le_refl 0, fun h => absurd h (by omega)⟩
      ⟨Int.le_refl 0, fun h => absurd h (by omega)⟩ none
    have hnone : ¬ (0 < RasBuffer.seen 0 bitmap.width (clip.left - info.windowBounds.left) ∧
        0 < RasBuffer.seen 0 bitmap.height (clip.top - info.windowBounds.top)) := by
      unfold RasBuffer.seen
      omega
    rw [RasBuffer.part, if_neg hempty, Option.bind_some, target_eq info clip 0 0 none _ rfl, copies,
      if_neg hunseen]
    exact ⟨fun _ => hdrawn.blit_unseen hnone,
      fun h => absurd ⟨fun hp => absurd hp hproper, fun hs => absurd hs hunseen⟩ h⟩
  have hfull : 0 < clip.right + 1 - clip.left ∧ 0 < clip.bottom + 1 - clip.top := by
    obtain ⟨hx, hy⟩ := hproper
    omega
  rw [RasBuffer.part, if_pos hfull]
  by_cases hscreen : (RasBuffer.ofInfo info).InRange clip.left clip.top
  case neg =>
    rw [RasBuffer.offset_of_not_inRange hscreen]
    exact ⟨fun h => absurd (h.screen hproper) hscreen, fun _ => rfl⟩
  rw [RasBuffer.offset_of_inRange hscreen, Option.map_some, Option.bind_some,
    target_eq info clip _ _ _ _ rfl]
  have hdrawn := D.drawn hclip (w := clip.right + 1 - clip.left) (h := clip.bottom + 1 - clip.top)
    ⟨by omega, fun _ => Int.le_refl _⟩ ⟨by omega, fun _ => Int.le_refl _⟩
    (some (info.bits +
      (clip.top * screenStride info + clip.left * (RasBuffer.ofInfo info).pixelSize)))
  by_cases hseen : Seen bitmap info clip
  · obtain ⟨hin, hout⟩ := hdrawn.blit_seen rfl rfl hseen.1 hseen.2
    refine ⟨fun h => ?_, fun h => ?_⟩
    · rw [copies, if_pos hseen]
      refine (hin (h.source hseen)).trans ?_
      rw [D.pixelSize, D.screenPixelSize]
      unfold columns rows target RasBuffer.ofBitmap
      dsimp only
    · exact hout fun hb => h ⟨fun _ => hscreen, fun _ => hb⟩
  · rw [copies, if_neg hseen]
    exact ⟨fun _ => hdrawn.blit_unseen hseen,
      fun h => absurd ⟨fun _ => hscreen, fun hs => absurd hs hseen⟩ h⟩

theorem displayClips_eq (D : Drawable bitmap info) {clips : List ClippingRect}
    (hclips : ∀ clip ∈ clips, clip ∈ info.clipList) :
    ((∀ clip ∈ clips, Safe bitmap info clip) →
      displayClips bitmap info clips = some (clips.flatMap (copies bitmap info))) ∧
    (¬ (∀ clip ∈ clips, Safe bitmap info clip) → displayClips bitmap info clips = none) := by
  induction clips with
  | nil => exact ⟨fun _ => rfl, fun h => absurd nofun h⟩
  | cons clip clips ih =>
    obtain ⟨hsome, hnone⟩ := D.displayClip_eq (hclips clip List.mem_cons_self)
    obtain ⟨ihsome, ihnone⟩ := ih fun c hc => hclips c (List.mem_cons_of_mem _ hc)
    rw [displayClips]
    by_cases hclip : Safe bitmap info clip
    case neg =>
      rw [hnone hclip]
      exact ⟨fun h => absurd (h clip List.mem_cons_self) hclip, fun _ => rfl⟩
    rw [hsome hclip, Option.bind_eq_bind, Option.bind_some]
    by_cases hrest : ∀ c ∈ clips, Safe bitmap info c
    · rw [ihsome hrest]
      exact ⟨fun _ => rfl, fun h => absurd (List.forall_mem_cons.mpr ⟨hclip, hrest⟩) h⟩
    · rw [ihnone hrest]
      exact ⟨fun h => absurd (List.forall_mem_cons.mp h).2 hrest, fun _ => rfl⟩

end Drawable

/-! ## What is copied -/

/-- The byte at `s` is copied to `d`. -/
def Copied (rows : List Row) (d s : Int) : Prop :=
  ∃ dst src bytes, .memcpy (some dst) (some src) bytes ∈ rows ∧
    ∃ k : Int, (0 ≤ k ∧ k < bytes) ∧ d = dst + k ∧ s = src + k

/-- A pixel of a clip rectangle where the bitmap is. -/
structure Shown (bitmap : Bitmap) (info : DirectBufferInfo) (clip : ClippingRect) (x y : Int) :
    Prop where
  clipX : clip.left ≤ x ∧ x ≤ clip.right
  clipY : clip.top ≤ y ∧ y ≤ clip.bottom
  column : 0 ≤ x - info.windowBounds.left ∧ x - info.windowBounds.left < bitmap.width
  row : 0 ≤ y - info.windowBounds.top ∧ y - info.windowBounds.top < bitmap.height

/-- Byte `k` of a pixel of the screen whose rows are so far apart. -/
def screenByte (info : DirectBufferInfo) (stride x y k : Int) : Int :=
  info.bits + y * stride + 4 * x + k

/-- Byte `k` of the bitmap's pixel at that position. -/
def bitmapByte (bitmap : Bitmap) (info : DirectBufferInfo) (x y k : Int) : Int :=
  bitmap.bits + (y - info.windowBounds.top) * bitmap.bytesPerRow +
    4 * (x - info.windowBounds.left) + k

/-- What is shown is copied, pixel by pixel, and nothing else is. -/
structure Exact (bitmap : Bitmap) (info : DirectBufferInfo) (rows : List Row) : Prop where
  memcpy : ∀ row ∈ rows, ∃ d s bytes, row = .memcpy (some d) (some s) bytes
  copied : ∀ d s, Copied rows d s ↔ ∃ clip ∈ info.clipList, ∃ x y k,
    Shown bitmap info clip x y ∧ (0 ≤ k ∧ k < 4) ∧
      d = screenByte info info.bytesPerRow x y k ∧ s = bitmapByte bitmap info x y k

theorem copied_flatMap {α : Type*} {f : α → List Row} {l : List α} {d s : Int} :
    Copied (l.flatMap f) d s ↔ ∃ a ∈ l, Copied (f a) d s := by
  unfold Copied
  constructor
  · rintro ⟨dst, src, bytes, hmem, hk⟩
    obtain ⟨a, ha, hrow⟩ := List.mem_flatMap.mp hmem
    exact ⟨a, ha, dst, src, bytes, hrow, hk⟩
  · rintro ⟨a, ha, dst, src, bytes, hrow, hk⟩
    exact ⟨dst, src, bytes, List.mem_flatMap.mpr ⟨a, ha, hrow⟩, hk⟩

namespace Drawable

/-- What is copied for a clip rectangle, with the rows where they are taken to be. -/
theorem copied_copies (D : Drawable bitmap info) (hclip : clip ∈ info.clipList) {d s : Int} :
    Copied (copies bitmap info clip) d s ↔ ∃ x y k, Shown bitmap info clip x y ∧
      (0 ≤ k ∧ k < 4) ∧ d = screenByte info (screenStride info) x y k ∧
        s = bitmapByte bitmap info x y k := by
  obtain ⟨-, I, -⟩ := D.clips clip hclip
  have hleft := I.left
  have htop := I.top
  unfold copies screenByte bitmapByte
  generalize screenStride info = stride
  constructor
  · rintro ⟨dst, src, bytes, hmem, k, hk, rfl, rfl⟩
    split at hmem
    · obtain ⟨j, hj, heq⟩ := List.mem_map.mp hmem
      cases heq
      have hj := List.mem_range.mp hj
      unfold columns RasBuffer.seen at hk
      unfold rows RasBuffer.seen at hj
      refine ⟨clip.left + k / 4, clip.top + j, k % 4, ⟨⟨by omega, by omega⟩, ⟨by omega, by omega⟩,
        ⟨by omega, by omega⟩, ⟨by omega, by omega⟩⟩, ⟨by omega, by omega⟩, ?_, ?_⟩
      · rw [Int.add_mul]
        omega
      · rw [show clip.top + (j : Int) - info.windowBounds.top =
          clip.top - info.windowBounds.top + j by omega, Int.add_mul _ (j : Int)]
        omega
    · exact nomatch hmem
  · rintro ⟨x, y, k, ⟨hx, hy, hcolumn, hrow⟩, hk, rfl, rfl⟩
    have hseen : Seen bitmap info clip := by
      unfold Seen columns rows RasBuffer.seen
      omega
    rw [if_pos hseen]
    refine ⟨_, _, _, List.mem_map.mpr ⟨(y - clip.top).toNat, List.mem_range.mpr ?_, rfl⟩,
      4 * (x - clip.left) + k, ⟨by omega, ?_⟩, ?_, ?_⟩
    · unfold rows RasBuffer.seen
      omega
    · unfold columns RasBuffer.seen
      omega
    · rw [Int.toNat_of_nonneg (by omega), Int.sub_mul]
      omega
    · rw [Int.toNat_of_nonneg (by omega), show y - info.windowBounds.top =
        clip.top - info.windowBounds.top + (y - clip.top) by omega, Int.add_mul _ (y - clip.top)]
      omega

end Drawable

/-- A place in an image is in one row only. -/
theorem row_inj {w a b p q : Int} (hp : 0 ≤ p) (hp' : p < w) (hq : 0 ≤ q) (hq' : q < w)
    (h : a * w + p = b * w + q) : a = b ∧ p = q := by
  have hdiv (a p : Int) (hp : 0 ≤ p) (hp' : p < w) : (p + a * w) / w = a := by
    rw [Int.add_mul_ediv_right _ _ (by omega), Int.ediv_eq_zero_of_lt hp hp', Int.zero_add]
  have hab : a = b := by
    rw [← hdiv a p hp hp', ← hdiv b q hq hq', Int.add_comm p, Int.add_comm q, h]
  obtain rfl := hab
  exact ⟨rfl, by omega⟩

/-- A byte of the bitmap is of one pixel only. -/
theorem bitmapByte_inj (hs : bitmap.bytesPerRow = 4 * bitmap.width) {clip' : ClippingRect}
    {x y k x' y' k' : Int} (h : Shown bitmap info clip x y) (hk : 0 ≤ k ∧ k < 4)
    (h' : Shown bitmap info clip' x' y') (hk' : 0 ≤ k' ∧ k' < 4)
    (heq : bitmapByte bitmap info x y k = bitmapByte bitmap info x' y' k') :
    x = x' ∧ y = y' ∧ k = k' := by
  obtain ⟨hx, hx'⟩ := h.column
  obtain ⟨hx₁, hx₁'⟩ := h'.column
  unfold bitmapByte at heq
  obtain ⟨hrow, hplace⟩ := row_inj (w := bitmap.bytesPerRow)
    (a := y - info.windowBounds.top) (b := y' - info.windowBounds.top)
    (p := 4 * (x - info.windowBounds.left) + k) (q := 4 * (x' - info.windowBounds.left) + k')
    (by omega) (by omega) (by omega) (by omega) (by omega)
  exact ⟨by omega, by omega, by omega⟩

namespace Exact
variable {rows : List Row}

/-- A pixel of the screen is written if and only if it is in a clip rectangle where the bitmap
is. -/
theorem written (E : Exact bitmap info rows) (D : Drawable bitmap info) {x y k : Int}
    (hx : 0 ≤ x ∧ 4 * (x + 1) ≤ info.bytesPerRow) (hk : 0 ≤ k ∧ k < 4) :
    (∃ s, Copied rows (screenByte info info.bytesPerRow x y k) s) ↔
      ∃ clip ∈ info.clipList, Shown bitmap info clip x y := by
  constructor
  · rintro ⟨s, hcopied⟩
    obtain ⟨clip, hclip, x', y', k', hs, hk', hd, -⟩ := (E.copied _ _).mp hcopied
    obtain ⟨-, -, S⟩ := D.clips clip hclip
    have hleft := S.left
    have hright := S.right
    obtain ⟨hcl, hcr⟩ := hs.clipX
    unfold screenByte at hd
    obtain ⟨rfl, hplace⟩ := row_inj (w := info.bytesPerRow) (a := y) (b := y') (p := 4 * x + k)
      (q := 4 * x' + k') (by omega) (by omega) (by omega) (by omega) (by omega)
    obtain rfl : x = x' := by omega
    exact ⟨clip, hclip, hs⟩
  · rintro ⟨clip, hclip, hs⟩
    exact ⟨_, (E.copied _ _).mpr ⟨clip, hclip, x, y, k, hs, hk, rfl, rfl⟩⟩

/-- No byte outside the bitmap is read. -/
theorem read (E : Exact bitmap info rows) (D : Drawable bitmap info) {d s : Int}
    (h : Copied rows d s) :
    bitmap.bits ≤ s ∧ s < bitmap.bits + bitmap.height * bitmap.bytesPerRow := by
  obtain ⟨clip, -, x, y, k, hs, hk, -, rfl⟩ := (E.copied _ _).mp h
  obtain ⟨hx, hx'⟩ := hs.column
  obtain ⟨hy, hy'⟩ := hs.row
  have hstride := D.stride.1
  have hfirst : 0 ≤ (y - info.windowBounds.top) * bitmap.bytesPerRow :=
    Int.mul_nonneg hy (by omega)
  have hlast : (y - info.windowBounds.top + 1) * bitmap.bytesPerRow ≤
      bitmap.height * bitmap.bytesPerRow := Int.mul_le_mul_of_nonneg_right (by omega) (by omega)
  rw [Int.add_mul, Int.one_mul] at hlast
  unfold bitmapByte
  omega

end Exact

/-- The offsets for a clip rectangle do not overflow, and the pitch of the screen is below `2 ^ 31`
or does not matter. -/
structure Addressable (bitmap : Bitmap) (info : DirectBufferInfo) (clip : ClippingRect) :
    Prop extends Safe bitmap info clip where
  pitch : info.bytesPerRow < 2 ^ 31 ∨ ∀ x y, Shown bitmap info clip x y → y = 0

theorem screenStride_eq (h : info.bytesPerRow < 2 ^ 32) :
    screenStride info = info.bytesPerRow ∧ info.bytesPerRow < 2 ^ 31 ∨
      screenStride info = info.bytesPerRow - 2 ^ 32 ∧ 2 ^ 31 ≤ info.bytesPerRow := by
  unfold screenStride RasBuffer.ofInfo
  dsimp only
  rw [Int.bmod_def]
  omega

/-- The rows of the screen are where they are taken to be. -/
theorem Addressable.screenByte_eq (A : Addressable bitmap info clip)
    (h : info.bytesPerRow < 2 ^ 32) {x y k : Int} (hs : Shown bitmap info clip x y) :
    screenByte info (screenStride info) x y k = screenByte info info.bytesPerRow x y k := by
  unfold screenByte
  rcases screenStride_eq h with ⟨hstride, -⟩ | ⟨-, hlarge⟩
  · rw [hstride]
  · have hy := A.pitch.resolve_left (Nat.not_lt.mpr hlarge) x y hs
    rw [hy, Int.zero_mul, Int.zero_mul]

/-- `Display` draws what is shown of the bitmap, and nothing else, if and only if the offsets it
computes do not overflow. -/
theorem display_exact_iff (D : Drawable bitmap info) :
    (∃ rows, display bitmap (some info) = some rows ∧ Exact bitmap info rows) ↔
      ∀ clip ∈ info.clipList, Addressable bitmap info clip := by
  obtain ⟨hsome, hnone⟩ := D.displayClips_eq fun clip (h : clip ∈ info.clipList) => h
  constructor
  · rintro ⟨rows, hdisplay, E⟩ clip hclip
    have hsafe : ∀ clip ∈ info.clipList, Safe bitmap info clip := by
      by_contra hnot
      exact nomatch (hnone hnot).symm.trans hdisplay
    obtain rfl := Option.some.inj ((hsome hsafe).symm.trans hdisplay)
    refine ⟨hsafe clip hclip, ?_⟩
    rcases screenStride_eq D.pitch with ⟨-, hsmall⟩ | ⟨hstride, hlarge⟩
    · exact .inl hsmall
    refine .inr fun x y hs => ?_
    have hcopied : Copied (info.clipList.flatMap (copies bitmap info))
        (screenByte info (screenStride info) x y 0) (bitmapByte bitmap info x y 0) :=
      copied_flatMap.mpr ⟨clip, hclip,
        (D.copied_copies hclip).mpr ⟨x, y, 0, hs, by omega, rfl, rfl⟩⟩
    obtain ⟨clip', -, x', y', k', hs', hk', hd, hb⟩ := (E.copied _ _).mp hcopied
    obtain ⟨rfl, rfl, rfl⟩ := bitmapByte_inj D.stride.1 hs (by omega) hs' hk' hb
    unfold screenByte at hd
    rw [hstride, Int.mul_sub] at hd
    omega
  · intro h
    refine ⟨_, hsome fun clip hclip => (h clip hclip).toSafe, ?_, fun d s => ?_⟩
    · intro row hrow
      obtain ⟨clip, -, hrow⟩ := List.mem_flatMap.mp hrow
      unfold copies at hrow
      split at hrow
      · obtain ⟨j, -, rfl⟩ := List.mem_map.mp hrow
        exact ⟨_, _, _, rfl⟩
      · exact nomatch hrow
    · rw [copied_flatMap]
      refine exists_congr fun clip => and_congr_right fun hclip => ?_
      rw [D.copied_copies hclip]
      refine exists_congr fun x => exists_congr fun y => exists_congr fun k =>
        and_congr_right fun hs => ?_
      rw [(h clip hclip).screenByte_eq D.pitch hs]

theorem ClippingRect.small_iff {r : ClippingRect} : r.Small ↔
    (-2 ^ 30 < r.left ∧ r.left < 2 ^ 30) ∧ (-2 ^ 30 < r.top ∧ r.top < 2 ^ 30) ∧
      (-2 ^ 30 < r.right ∧ r.right < 2 ^ 30) ∧ -2 ^ 30 < r.bottom ∧ r.bottom < 2 ^ 30 :=
  ⟨fun h => ⟨h.left, h.top, h.right, h.bottom⟩, fun h => ⟨h.1, h.2.1, h.2.2.1, h.2.2.2⟩⟩

/-- A bitmap of three by two pixels, in a window that is partly to the left of the screen. -/
def smallBitmap : Bitmap := ⟨3, 2, 12, 0, 1000⟩

def smallScreen : DirectBufferInfo :=
  ⟨100000, 400, 32, 0, ⟨-1, 5, 10, 10⟩, [⟨0, 5, 10, 10⟩]⟩

theorem smallScreen_drawable : Drawable smallBitmap smallScreen where
  width := by decide
  height := by decide
  stride := by decide
  format := rfl
  depth := rfl
  pitch := by decide
  window := ClippingRect.small_iff.mpr (by decide)
  clips clip hclip := by
    obtain rfl := List.mem_singleton.mp hclip
    exact ⟨ClippingRect.small_iff.mpr (by decide), ⟨by decide, by decide, by decide, by decide⟩,
      ⟨by decide, by decide, by decide⟩⟩

theorem display_exact_iff_small :
    ∃ rows, display smallBitmap (some smallScreen) = some rows ∧
      Exact smallBitmap smallScreen rows := by
  refine (display_exact_iff smallScreen_drawable).mpr fun clip hclip => ?_
  obtain rfl := List.mem_singleton.mp hclip
  unfold smallBitmap smallScreen
  exact ⟨⟨fun _ => by unfold RasBuffer.InRange Fits; decide,
    fun _ => by unfold RasBuffer.InRange Fits; decide⟩, .inl (by decide)⟩

/-- A screen of `2 ^ 15` pixels a row, with a window of one pixel `2 ^ 31` bytes into it. -/
def largeScreen : DirectBufferInfo :=
  ⟨2 ^ 40, 2 ^ 17, 32, 0, ⟨0, 2 ^ 14, 0, 2 ^ 14⟩, [⟨0, 2 ^ 14, 0, 2 ^ 14⟩]⟩

theorem not_exact_of_offset :
    ¬ ∀ (bitmap : Bitmap) (info : DirectBufferInfo), Drawable bitmap info →
      ∃ rows, display bitmap (some info) = some rows ∧ Exact bitmap info rows := by
  intro h
  have D : Drawable ⟨1, 1, 4, 0, 1000⟩ largeScreen :=
    { width := by decide
      height := by decide
      stride := by decide
      format := rfl
      depth := rfl
      pitch := by decide
      window := ClippingRect.small_iff.mpr (by decide)
      clips := fun clip hclip => by
        obtain rfl := List.mem_singleton.mp hclip
        exact ⟨ClippingRect.small_iff.mpr (by decide),
          ⟨by decide, by decide, by decide, by decide⟩, ⟨by decide, by decide, by decide⟩⟩ }
  obtain ⟨rows, hrows, -⟩ := h _ _ D
  have hnone : display ⟨1, 1, 4, 0, 1000⟩ (some largeScreen) = none := by decide
  exact nomatch hnone.symm.trans hrows

end Renderer

end IntelGfx

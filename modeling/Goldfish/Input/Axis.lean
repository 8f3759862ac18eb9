import Goldfish.Input.PointerEvents

/-!
# Goldfish.Input.Axis

**How far `scaleAxis` can be trusted.** A coordinate of a display is scaled to the range of an evdev
axis by a product and a division in 32 bits. The product is exact as long as it fits in 32 bits, and
once it does not the quotient is too small whatever the size of the display
(`scaleAxis_exact_iff`): nothing can make up for the wrap.

`Scales` is what a caller expects of a display size. It holds of exactly the sizes whose last
coordinate does not wrap (`scales_iff`).
-/

namespace Goldfish.Input

open Goldfish.Lib.EvDev

/-- The largest coordinate whose product with `EV_ABS_MAX` fits in 32 bits. -/
def axisLimit : Nat := 131076

/-- The coordinates of a display of a given size are scaled as intended. -/
structure Scales (max_in : UInt32) : Prop where
  /-- The exact quotient, rounded down. -/
  floor : ∀ value ≤ max_in, (scaleAxis value 0 max_in).toNat = value.toNat * 0x7FFF / max_in.toNat
  bound : ∀ value ≤ max_in, scaleAxis value 0 max_in ≤ EV_ABS_MAX
  monotone : ∀ value value', value ≤ value' → value' ≤ max_in →
    scaleAxis value 0 max_in ≤ scaleAxis value' 0 max_in
  zero : scaleAxis 0 0 max_in = 0
  full : scaleAxis max_in 0 max_in = EV_ABS_MAX

/-- A size that is not zero takes the second branch. -/
theorem scaleAxis_toNat {max_in : UInt32} (hmax : 1 ≤ max_in) (value : UInt32) :
    (scaleAxis value 0 max_in).toNat = value.toNat * 0x7FFF % 4294967296 / max_in.toNat := by
  have hbranch : ¬ max_in < 1 := UInt32.not_lt.mpr hmax
  simp only [scaleAxis, UInt32.sub_zero, UInt32.add_zero, if_neg hbranch, UInt32.toNat_div, UInt32.toNat_mul]
  rfl

/-- A product that wraps loses more than any divisor of 32 bits can make up for. -/
theorem mod_div_lt {product divisor : Nat} (hwrap : 4294967296 ≤ product) (hpos : 0 < divisor)
    (hdivisor : divisor < 4294967296) : product % 4294967296 / divisor < product / divisor := by
  rw [Nat.div_lt_iff_lt_mul hpos]
  have hfloor : product < divisor * (product / divisor + 1) := Nat.lt_mul_div_succ product hpos
  have hmod : product % 4294967296 ≤ product - 4294967296 := by omega
  calc product % 4294967296
    _ ≤ product - 4294967296 := hmod
    _ < product - divisor := by omega
    _ ≤ product / divisor * divisor := by
        rw [Nat.mul_succ, Nat.mul_comm] at hfloor
        omega

/-- **Scaling is exact exactly below the limit**, whatever the size. -/
theorem scaleAxis_exact_iff {max_in : UInt32} (hmax : 1 ≤ max_in) (value : UInt32) :
    (scaleAxis value 0 max_in).toNat = value.toNat * 0x7FFF / max_in.toNat ↔ value.toNat ≤ axisLimit := by
  have hpos : 0 < max_in.toNat := UInt32.le_iff_toNat_le.mp hmax
  rw [scaleAxis_toNat hmax, axisLimit]
  constructor
  · intro hexact
    by_contra hlimit
    have hwrap : 4294967296 ≤ value.toNat * 0x7FFF := by omega
    have hless := mod_div_lt hwrap hpos max_in.toNat_lt
    omega
  · intro hlimit
    rw [Nat.mod_eq_of_lt (by omega)]

/-- A size within the limit scales as intended. -/
theorem scales_of_le {max_in : UInt32} (hmax : 1 ≤ max_in) (hlimit : max_in.toNat ≤ axisLimit) :
    Scales max_in := by
  have hpos : 0 < max_in.toNat := UInt32.le_iff_toNat_le.mp hmax
  have hfloor (value : UInt32) (hvalue : value ≤ max_in) :
      (scaleAxis value 0 max_in).toNat = value.toNat * 0x7FFF / max_in.toNat :=
    (scaleAxis_exact_iff hmax value).mpr ((UInt32.le_iff_toNat_le.mp hvalue).trans hlimit)
  have hfull : (scaleAxis max_in 0 max_in).toNat = EV_ABS_MAX.toNat := by
    rw [hfloor max_in (UInt32.le_refl max_in), Nat.mul_div_cancel_left _ hpos]
    rfl
  have hmonotone (value value' : UInt32) (hle : value ≤ value') (hvalue' : value' ≤ max_in) :
      scaleAxis value 0 max_in ≤ scaleAxis value' 0 max_in := by
    rw [UInt32.le_iff_toNat_le] at hle ⊢
    rw [hfloor value (UInt32.le_trans (UInt32.le_iff_toNat_le.mpr hle) hvalue'), hfloor value' hvalue']
    exact Nat.div_le_div_right (Nat.mul_le_mul_right _ hle)
  exact {
    floor := hfloor
    bound := by
      intro value hvalue
      have hle := hmonotone value max_in hvalue (UInt32.le_refl max_in)
      rwa [UInt32.toNat_inj.mp hfull] at hle
    monotone := hmonotone
    zero := by
      rw [← UInt32.toNat_inj, hfloor 0 (UInt32.le_iff_toNat_le.mpr (Nat.zero_le _))]
      simp
    full := UInt32.toNat_inj.mp hfull }

/-- **The sizes that scale as intended**: the law holds on a display exactly if its last coordinate
does not wrap, and on any other one for exactly the coordinates that do not. -/
theorem scales_iff (max_in : UInt32) (hmax : 1 ≤ max_in) :
    (Scales max_in ↔ max_in.toNat ≤ axisLimit) ∧
      ∀ value ≤ max_in, ((scaleAxis value 0 max_in).toNat = value.toNat * 0x7FFF / max_in.toNat ↔
        value.toNat ≤ axisLimit) := by
  refine ⟨⟨?_, scales_of_le hmax⟩, fun value _ => scaleAxis_exact_iff hmax value⟩
  intro hscales
  exact (scaleAxis_exact_iff hmax max_in).mp (hscales.floor max_in (UInt32.le_refl max_in))

/-- On a screen of 1080 columns. -/
theorem scales_iff_small : (1 : UInt32) ≤ 1080 ∧ (Scales 1080 ↔ (1080 : UInt32).toNat ≤ axisLimit) :=
  ⟨by decide, (scales_iff 1080 (by decide)).1⟩

/-- The last column of a display with one column more than the limit is sent as the first one. -/
theorem not_scales_wide : ¬ ∀ max_in : UInt32, 1 ≤ max_in → max_in ≤ 0x7FFFFFFF → Scales max_in := by
  intro hall
  have hfull := (hall 131077 (by decide) (by decide)).full
  have hwraps : scaleAxis 131077 0 131077 = 0 := by decide
  rw [hwraps] at hfull
  cases hfull

/-! ### The positions of a touch -/

/-- The axis a code of a position writes, on a display of `w` columns and `h` rows. -/
def Touch.position (t : Touch) (w h : UInt32) : EvCode → Option (UInt32 × UInt32)
  | .ABS_MT_POSITION_X => some (t.x, w)
  | .ABS_MT_POSITION_Y => some (t.y, h)
  | _ => none

/-- A position that is sent is a scaled coordinate. -/
theorem Touch.position_slotEvents {t : Touch} {w h slot : UInt32} {e : EvDevEvent} {value max_in : UInt32}
    (he : e ∈ t.slotEvents w h slot) (hcode : t.position w h e.code = some (value, max_in)) :
    e.value = scaleAxis value 0 max_in := by
  simp only [Touch.slotEvents, List.mem_append, List.mem_cons, List.not_mem_nil, or_false] at he
  rcases he with (((((rfl | hmajor) | hminor) | horient) | rfl | rfl | rfl) | hup)
  · cases hcode
  · split at hmajor <;> simp_all [Touch.position]
  · split at hminor <;> simp_all [Touch.position]
  · split at horient <;> simp_all [Touch.position]
  · cases hcode
  · cases hcode
    rfl
  · cases hcode
    rfl
  · split at hup
    · simp only [List.mem_cons, List.not_mem_nil, or_false] at hup
      rcases hup with rfl | rfl <;> cases hcode
    · cases hup

/-- **The display is sent positions on its axes**, where its sizes are within the limit and the touch is
on the display. -/
theorem Touch.position_le {t : Touch} {w h slot : UInt32} (hw : w.toNat ≤ axisLimit) (hh : h.toNat ≤ axisLimit)
    (hx : 1 ≤ w ∧ t.x ≤ w) (hy : 1 ≤ h ∧ t.y ≤ h) {e : EvDevEvent} (he : e ∈ t.slotEvents w h slot)
    (hcode : e.code = .ABS_MT_POSITION_X ∨ e.code = .ABS_MT_POSITION_Y) : e.value ≤ EV_ABS_MAX := by
  rcases hcode with hcode | hcode
  · have hposition : t.position w h e.code = some (t.x, w) := by rw [hcode]; rfl
    rw [Touch.position_slotEvents he hposition]
    exact (scales_of_le hx.1 hw).bound t.x hx.2
  · have hposition : t.position w h e.code = some (t.y, h) := by rw [hcode]; rfl
    rw [Touch.position_slotEvents he hposition]
    exact (scales_of_le hy.1 hh).bound t.y hy.2

end Goldfish.Input

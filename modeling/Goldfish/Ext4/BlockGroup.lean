import Goldfish.Ext4.Layout
import Goldfish.Lib.Bitmap
import Goldfish.Lib.Trace

/-!
# Goldfish.Ext4.BlockGroup

Reserving and freeing the blocks of one block group (`allocate.c`). `error` leaves with a
`longjmp`, so it is an `Except` here.

`reserve_blocks` marks eight blocks at a time where it can. That is the same as one after
another (`reserveLoops_eq`), so what it does is said once, of single bits
(`reserveBlocks_ok`, `reserveBlocks_error`).
-/

namespace Goldfish.Ext4

open Goldfish.Lib Bitmap

/-- `struct block_group_info`. -/
structure BlockGroup where
  firstBlock : Nat
  headerBlocks : Nat
  dataBlocksUsed : Nat
  hasSuperblock : Bool
  blockBitmap : Bitmap
  inodeBitmap : Bitmap
  inodeTable : Option (List Inode)
  freeBlocks : Nat
  firstFreeBlock : Nat
  freeInodes : Nat
  firstFreeInode : Nat
  flags : BitVec 16
  usedDirs : BitVec 16
  deriving DecidableEq, Repr

/-- What the inodes of a group depend on. -/
structure InodePart where
  inodeBitmap : Bitmap
  inodeTable : Option (List Inode)
  freeInodes : Nat
  firstFreeInode : Nat
  flags : BitVec 16
  usedDirs : BitVec 16
  deriving DecidableEq, Repr

/-- What allocating inodes touches. -/
def BlockGroup.inodePart (bg : BlockGroup) : InodePart :=
  ⟨bg.inodeBitmap, bg.inodeTable, bg.freeInodes, bg.firstFreeInode, bg.flags, bg.usedDirs⟩

/-- The same of all groups. -/
def inodeParts (bgs : List BlockGroup) : List InodePart := bgs.map BlockGroup.inodePart

theorem inodeParts_set {bgs : List BlockGroup} {i : Nat} {bg bg' : BlockGroup} (hbg : bgs[i]? = some bg)
    (heq : bg'.inodePart = bg.inodePart) : inodeParts (bgs.set i bg') = inodeParts bgs := by
  obtain ⟨hi, rfl⟩ := List.getElem?_eq_some_iff.mp hbg
  rw [inodeParts, inodeParts, List.map_set,
    heq, ← List.getElem_map BlockGroup.inodePart (h := by rwa [List.length_map])]
  exact List.set_getElem_self _

/-- Whether the bit was set, and the bitmap in which it is. -/
def bitmapSetBit (bitmap : Bitmap) (bit : Nat) : Bool × Bitmap :=
  if bitAt bitmap bit then (true, bitmap) else (false, bitmap.setBit bit)

/-- What the byte was, and the bitmap in which it is full. -/
def bitmapSet8Bits (bitmap : Bitmap) (bit : Nat) : BitVec 8 × Bitmap :=
  (bitmap.getD (bit / 8) 0#8, bitmap.setByte bit)

/-- The text of the error of `reserve_blocks`. -/
def alreadyReserved : String := "attempted to reserve already reserved block"

/-! ### `reserve_blocks` -/

/-- The last loop: the blocks that are left, one after another. -/
def reserveBits : (left : Nat) → (block : Nat) → Bitmap → Except String Bitmap
  | 0, _, bitmap => .ok bitmap
  | left + 1, block, bitmap =>
    match bitmapSetBit bitmap block with
    | (true, _) => .error alreadyReserved
    | (false, bitmap') => reserveBits left (block + 1) bitmap'

/-- The first loop, up to the next byte: what is left, the next block and the bitmap. -/
def reserveToByte : (left : Nat) → (block : Nat) → Bitmap → Except String (Nat × Nat × Bitmap)
  | 0, block, bitmap => .ok (0, block, bitmap)
  | left + 1, block, bitmap =>
    if block % 8 ≠ 0 then
      match bitmapSetBit bitmap block with
      | (true, _) => .error alreadyReserved
      | (false, bitmap') => reserveToByte left (block + 1) bitmap'
    else .ok (left + 1, block, bitmap)

/-- The second loop, a byte at a time. `i` of the source is `num - left`. -/
def reserveBytes (num : Nat) : (fuel left : Nat) → (block : Nat) → Bitmap → Except String (Nat × Nat × Bitmap)
  | 0, left, block, bitmap => .ok (left, block, bitmap)
  | fuel + 1, left, block, bitmap =>
    if num - left + 8 ≤ num / 8 * 8 then
      match bitmapSet8Bits bitmap block with
      | (byte, bitmap') => if byte ≠ 0#8 then .error alreadyReserved
        else reserveBytes num fuel (left - 8) (block + 8) bitmap'
    else .ok (left, block, bitmap)

/-- The three loops. -/
def reserveLoops (num start : Nat) (bitmap : Bitmap) : Except String Bitmap := do
  let (left, block, bitmap) ← reserveToByte num start bitmap
  let (left, block, bitmap) ← reserveBytes num num left block bitmap
  reserveBits left block bitmap

/-- The group, or nothing if the result is `-1`. -/
def reserveBlocks (bg : BlockGroup) (start num : Nat) : Except String (Option BlockGroup) :=
  if num > bg.freeBlocks then .ok none
  else do
    let bitmap ← reserveLoops num start bg.blockBitmap
    pure (some { bg with
      blockBitmap := bitmap
      freeBlocks := bg.freeBlocks - num
      firstFreeBlock := if start = bg.firstFreeBlock then start + num else bg.firstFreeBlock })

/-! ### `free_blocks` -/

/-- The loop, from the last block down. -/
def clearBlocks : (left : Nat) → (block : Nat) → Bitmap → Bitmap
  | 0, _, bitmap => bitmap
  | left + 1, block, bitmap => clearBlocks left (block - 1) (bitmap.clearBit block)

/-- `free_blocks`: the last blocks that were taken are given back. -/
def freeBlocks (bg : BlockGroup) (numBlocks : Nat) : BlockGroup :=
  { bg with
    blockBitmap := clearBlocks numBlocks (bg.firstFreeBlock - 1) bg.blockBitmap
    freeBlocks := bg.freeBlocks + numBlocks
    firstFreeBlock := bg.firstFreeBlock - numBlocks }

/-! ### A byte at a time and a bit at a time -/

variable {bitmap bitmap' : Bitmap} {start block num left : Nat}

/-- The bitmap with some more blocks. -/
def marked : (num : Nat) → (block : Nat) → Bitmap → Bitmap
  | 0, _, bitmap => bitmap
  | num + 1, block, bitmap => marked num (block + 1) (bitmap.setBit block)

@[simp] theorem length_marked : (marked num block bitmap).length = bitmap.length := by
  induction num generalizing block bitmap with
  | zero => rfl
  | succ num ih => rw [marked, ih, length_setBit]

theorem bitAt_setBit_eq {bit i : Nat} :
    bitAt (bitmap.setBit bit) i = (decide (i = bit ∧ bit < 8 * bitmap.length) || bitAt bitmap i) := by
  by_cases h : bit < 8 * bitmap.length
  · rw [bitAt_setBit h]
    simp [h]
  · have hle : bitmap.length ≤ bit / 8 := by omega
    rw [setBit, List.set_eq_of_length_le hle]
    simp [h]

theorem bitAt_marked {i : Nat} :
    bitAt (marked num block bitmap) i =
      (decide (block ≤ i ∧ i < block + num ∧ i < 8 * bitmap.length) || bitAt bitmap i) := by
  induction num generalizing block bitmap with
  | zero => simp [marked]; omega
  | succ num ih =>
    rw [marked, ih, length_setBit, bitAt_setBit_eq, ← Bool.or_assoc, ← Bool.decide_or]
    congr 1
    exact decide_eq_decide.mpr (by omega)

/-- All of the blocks are clear. -/
def Clear (bitmap : Bitmap) (block num : Nat) : Prop := ∀ i, block ≤ i → i < block + num → bitAt bitmap i = false

/-- **One bit after another**: the blocks are marked, if they were clear. -/
theorem reserveBits_ok (h : Clear bitmap block num) :
    reserveBits num block bitmap = .ok (marked num block bitmap) := by
  induction num generalizing block bitmap with
  | zero => rfl
  | succ num ih =>
    have hclear : bitAt bitmap block = false := h block (Nat.le_refl _) (by omega)
    rw [reserveBits, bitmapSetBit, hclear]
    refine ih fun i hi hlt => ?_
    rw [bitAt_setBit_eq, h i (by omega) (by omega), Bool.or_false, decide_eq_false (by omega)]

theorem reserveBits_error (h : ¬ Clear bitmap block num) : reserveBits num block bitmap = .error alreadyReserved := by
  induction num generalizing block bitmap with
  | zero => exact absurd (fun i hi hlt => absurd hlt (by omega)) h
  | succ num ih =>
    rw [reserveBits, bitmapSetBit]
    cases hbit : bitAt bitmap block with
    | true => rfl
    | false =>
      refine ih fun hrest => h fun i hi hlt => ?_
      by_cases hne : i = block
      · rw [hne, hbit]
      · have hclear := hrest i (by omega) (by omega)
        rw [bitAt_setBit_eq, Bool.or_eq_false_iff] at hclear
        exact hclear.2

theorem marked_add (m n : Nat) : marked (m + n) block bitmap = marked n (block + m) (marked m block bitmap) := by
  induction m generalizing block bitmap with
  | zero => rw [Nat.zero_add]; rfl
  | succ m ih => rw [Nat.succ_add, marked, ih, marked, Nat.add_assoc, Nat.add_comm 1 m]

theorem clear_add {m n : Nat} :
    Clear bitmap block (m + n) ↔ Clear bitmap block m ∧ Clear (marked m block bitmap) (block + m) n := by
  constructor
  · intro h
    refine ⟨fun i hi hlt => h i hi (by omega), fun i hi hlt => ?_⟩
    rw [bitAt_marked, h i (by omega) (by omega), Bool.or_false, decide_eq_false (by omega)]
  · intro ⟨hfirst, hrest⟩ i hi hlt
    by_cases hm : i < block + m
    · exact hfirst i hi hm
    · have hclear := hrest i (by omega) (by omega)
      rw [bitAt_marked, Bool.or_eq_false_iff] at hclear
      exact hclear.2

/-- Some blocks, and then some more. -/
theorem reserveBits_add (m n : Nat) :
    reserveBits (m + n) block bitmap = (reserveBits m block bitmap).bind (reserveBits n (block + m)) := by
  by_cases hfirst : Clear bitmap block m
  · rw [reserveBits_ok hfirst, Except.bind]
    by_cases hrest : Clear (marked m block bitmap) (block + m) n
    · rw [reserveBits_ok hrest, reserveBits_ok (clear_add.mpr ⟨hfirst, hrest⟩), marked_add]
    · rw [reserveBits_error hrest, reserveBits_error fun h => hrest (clear_add.mp h).2]
  · rw [reserveBits_error hfirst, reserveBits_error fun h => hfirst (clear_add.mp h).1]
    rfl

/-- Eight bits are a byte. -/
theorem reserveBits_byte (h : block % 8 = 0) :
    reserveBits 8 block bitmap =
      if bitmap.getD (block / 8) 0#8 ≠ 0#8 then .error alreadyReserved else .ok (bitmap.setByte block) := by
  by_cases hzero : bitmap.getD (block / 8) 0#8 = 0#8
  · have hbits := byte_eq_zero_iff.mp hzero
    have hclear : Clear bitmap block 8 := fun i hi hlt => hbits i (by omega)
    rw [reserveBits_ok hclear, if_neg (not_not_intro hzero)]
    refine congrArg _ (ext_bitAt (by rw [length_marked, length_setByte]) fun i => ?_)
    rw [bitAt_marked]
    by_cases hlt : block < 8 * bitmap.length
    · rw [bitAt_setByte hlt]
      congr 1
      exact decide_eq_decide.mpr (by omega)
    · have hle : bitmap.length ≤ block / 8 := by omega
      rw [setByte, List.set_eq_of_length_le hle, decide_eq_false (by omega), Bool.false_or]
  · have hclear : ¬ Clear bitmap block 8 :=
      fun h' => hzero (byte_eq_zero_iff.mpr fun i hi => h' i (by omega) (by omega))
    rw [reserveBits_error hclear, if_pos hzero]

theorem reserveToByte_eq (left block : Nat) (bitmap : Bitmap) :
    (reserveToByte left block bitmap).bind (fun s => reserveBits s.1 s.2.1 s.2.2) = reserveBits left block bitmap := by
  induction left generalizing block bitmap with
  | zero => rfl
  | succ left ih =>
    rw [reserveToByte]
    split
    · rw [reserveBits]
      split
      · rfl
      · exact ih _ _
    · rfl

/-- Where the first loop ends, a byte begins if anything is left. -/
theorem reserveToByte_aligned {s : Nat × Nat × Bitmap} (h : reserveToByte left block bitmap = .ok s) :
    s.1 = 0 ∨ s.2.1 % 8 = 0 := by
  induction left generalizing block bitmap with
  | zero =>
    cases h
    exact Or.inl rfl
  | succ left ih =>
    rw [reserveToByte] at h
    split at h
    · split at h
      · cases h
      · exact ih h
    · rename_i hblock
      cases h
      exact Or.inr (not_not.mp hblock)

theorem reserveBytes_eq (num fuel left block : Nat) (bitmap : Bitmap) (h : left = 0 ∨ block % 8 = 0) :
    (reserveBytes num fuel left block bitmap).bind (fun s => reserveBits s.1 s.2.1 s.2.2) =
      reserveBits left block bitmap := by
  induction fuel generalizing left block bitmap with
  | zero => rfl
  | succ fuel ih =>
    rw [reserveBytes]
    split
    · have hblock : block % 8 = 0 := h.resolve_left (by omega)
      obtain ⟨rest, rfl⟩ : ∃ rest, left = 8 + rest := ⟨left - 8, by omega⟩
      rw [reserveBits_add, reserveBits_byte hblock, bitmapSet8Bits, Nat.add_sub_cancel_left]
      dsimp only
      split
      · rfl
      · exact ih rest (block + 8) _ (Or.inr (by omega))
    · rfl

/-- **Eight blocks at a time is the same as one at a time.** -/
theorem reserveLoops_eq (num start : Nat) (bitmap : Bitmap) :
    reserveLoops num start bitmap = reserveBits num start bitmap := by
  rw [← reserveToByte_eq, reserveLoops]
  cases h : reserveToByte num start bitmap with
  | error e => rfl
  | ok s => exact reserveBytes_eq num num s.1 s.2.1 s.2.2 (reserveToByte_aligned h)

/-! ### What one call does -/

variable {bg : BlockGroup}

theorem reserveBlocks_ok (hnum : num ≤ bg.freeBlocks) (hclear : Clear bg.blockBitmap start num) :
    reserveBlocks bg start num = .ok (some { bg with
      blockBitmap := marked num start bg.blockBitmap
      freeBlocks := bg.freeBlocks - num
      firstFreeBlock := if start = bg.firstFreeBlock then start + num else bg.firstFreeBlock }) := by
  rw [reserveBlocks, if_neg (by omega), reserveLoops_eq, reserveBits_ok hclear]
  rfl

theorem reserveBlocks_error (hnum : num ≤ bg.freeBlocks) (hclear : ¬ Clear bg.blockBitmap start num) :
    reserveBlocks bg start num = .error alreadyReserved := by
  rw [reserveBlocks, if_neg (by omega), reserveLoops_eq, reserveBits_error hclear]
  rfl

/-- **Reserving blocks**, whether it goes a bit or a byte at a time: it is refused if there are not enough free
blocks, and fails if any of them has been reserved before. Otherwise just these are marked. -/
theorem reserveBlocks_cases (bg : BlockGroup) (start num : Nat) :
    (bg.freeBlocks < num ∧ reserveBlocks bg start num = .ok none) ∨
      (num ≤ bg.freeBlocks ∧ ¬ Clear bg.blockBitmap start num ∧ reserveBlocks bg start num = .error alreadyReserved) ∨
      (num ≤ bg.freeBlocks ∧ Clear bg.blockBitmap start num ∧ ∃ bg', reserveBlocks bg start num = .ok (some bg') ∧
        bg'.freeBlocks + num = bg.freeBlocks ∧
        ∀ i, bitAt bg'.blockBitmap i =
          (decide (start ≤ i ∧ i < start + num ∧ i < 8 * bg.blockBitmap.length) || bitAt bg.blockBitmap i)) := by
  rcases Nat.lt_or_ge bg.freeBlocks num with hfull | hnum
  · exact Or.inl ⟨hfull, by rw [reserveBlocks, if_pos hfull]⟩
  · by_cases hclear : Clear bg.blockBitmap start num
    · exact Or.inr
        (Or.inr ⟨hnum, hclear, _, reserveBlocks_ok hnum hclear, Nat.sub_add_cancel hnum, fun i => bitAt_marked⟩)
    · exact Or.inr (Or.inl ⟨hnum, hclear, reserveBlocks_error hnum hclear⟩)

@[simp] theorem length_clearBlocks : (clearBlocks num block bitmap).length = bitmap.length := by
  induction num generalizing block bitmap with
  | zero => rfl
  | succ num ih => rw [clearBlocks, ih, length_clearBit]

/-- The last blocks below a limit are cleared. -/
theorem bitAt_clearBlocks {limit i : Nat} (hnum : num ≤ limit) (hlimit : limit ≤ 8 * bitmap.length) :
    bitAt (clearBlocks num (limit - 1) bitmap) i = (decide (¬ (limit - num ≤ i ∧ i < limit)) && bitAt bitmap i) := by
  induction num generalizing limit bitmap with
  | zero => simp [clearBlocks]
  | succ num ih =>
    rw [clearBlocks, ih (by omega) (by rw [length_clearBit]; omega), bitAt_clearBit (by omega), ← Bool.and_assoc,
      ← Bool.decide_and]
    congr 1
    exact decide_eq_decide.mpr (by omega)

end Goldfish.Ext4

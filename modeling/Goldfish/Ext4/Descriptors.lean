import Goldfish.Ext4.Crc16
import Goldfish.Ext4.Metadata

/-!
# Goldfish.Ext4.Descriptors

The group descriptors and the free counts of the superblock, as `ext4_fill_in_sb` prepares
them and `ext4_update_free` completes them at the end.

A descriptor has 16 bits for each of its counts and the superblock 32 for each of its totals.
They are the numbers of clear bits in the bitmaps of the image all the same
(`counts_makeExt4fs`), and each descriptor has the checksum of the fields before it.
-/

namespace Goldfish.Ext4

open Goldfish.Lib Goldfish.Lib.Bitmap

/-- `struct ext2_group_desc`. The reserved fields stay zero. -/
structure GroupDesc where
  bgBlockBitmap : Nat
  bgInodeBitmap : Nat
  bgInodeTable : Nat
  bgFreeBlocksCount : BitVec 16
  bgFreeInodesCount : BitVec 16
  bgUsedDirsCount : BitVec 16
  bgFlags : BitVec 16
  bgChecksum : BitVec 16
  deriving DecidableEq, Repr

/-- The bytes of a descriptor up to `bg_checksum`. -/
def GroupDesc.bytes (desc : GroupDesc) : List UInt8 :=
  toLE 4 desc.bgBlockBitmap ++ (toLE 4 desc.bgInodeBitmap ++ (toLE 4 desc.bgInodeTable ++
    (toLE 2 desc.bgFreeBlocksCount.toNat ++ (toLE 2 desc.bgFreeInodesCount.toNat ++
      (toLE 2 desc.bgUsedDirsCount.toNat ++ (toLE 2 desc.bgFlags.toNat ++ List.replicate 10 0))))))

/-- The fields of the superblock that `ext4_update_free` changes, with the one that it reads. -/
structure SuperBlock where
  sUuid : List UInt8
  sFreeBlocksCountLo : BitVec 32
  sFreeInodesCount : BitVec 32
  deriving DecidableEq, Repr

/-- What `ext4_fill_in_sb` leaves in the descriptor of a group. -/
def fillInDesc (info : Info) (aux : AuxInfo) (i : Nat) : GroupDesc where
  bgBlockBitmap := groupStart info aux i + bitmapOffset info aux i
  bgInodeBitmap := groupStart info aux i + bitmapOffset info aux i + 1
  bgInodeTable := groupStart info aux i + bitmapOffset info aux i + 2
  bgFreeBlocksCount := BitVec.ofNat 16 info.blocksPerGroup
  bgFreeInodesCount := BitVec.ofNat 16 info.inodesPerGroup
  bgUsedDirsCount := 0
  bgFlags := 0
  bgChecksum := 0

/-- The descriptor of a group in the loop of `ext4_update_free`. -/
def updateDesc (sUuid : List UInt8) (i : Nat) (desc : GroupDesc) (bg : BlockGroup) : GroupDesc :=
  let desc := { desc with
    bgFreeBlocksCount := BitVec.ofNat 16 bg.freeBlocks
    bgFreeInodesCount := BitVec.ofNat 16 bg.freeInodes
    bgUsedDirsCount := desc.bgUsedDirsCount + bg.usedDirs
    bgFlags := bg.flags }
  { desc with bgChecksum := ext4Crc16 (ext4Crc16 (ext4Crc16 (~~~0#16) sUuid) (toLE 4 i)) desc.bytes }

/-- The checksum does not depend on itself. -/
theorem bgChecksum_updateDesc (sUuid : List UInt8) (i : Nat) (desc : GroupDesc) (bg : BlockGroup) :
    (updateDesc sUuid i desc bg).bgChecksum =
      ext4Crc16 (ext4Crc16 (ext4Crc16 (~~~0#16) sUuid) (toLE 4 i)) (updateDesc sUuid i desc bg).bytes := by
  unfold updateDesc
  dsimp only [GroupDesc.bytes]

/-- The loop of `ext4_update_free`, over the groups from `i` on. -/
def updateFreeFrom (info : Info) (aux : AuxInfo) (i : Nat) (sb : SuperBlock) :
    List BlockGroup → List GroupDesc × SuperBlock
  | [] => ([], sb)
  | bg :: bgs =>
    let sb := { sb with
      sFreeBlocksCountLo := sb.sFreeBlocksCountLo + BitVec.ofNat 32 bg.freeBlocks
      sFreeInodesCount := sb.sFreeInodesCount + BitVec.ofNat 32 bg.freeInodes }
    let (descs, sb') := updateFreeFrom info aux (i + 1) sb bgs
    (updateDesc sb.sUuid i (fillInDesc info aux i) bg :: descs, sb')

/-- `ext4_update_free`, after `ext4_fill_in_sb`. -/
def updateFree (info : Info) (aux : AuxInfo) (sUuid : List UInt8) (bgs : List BlockGroup) :
    List GroupDesc × SuperBlock :=
  updateFreeFrom info aux 0 ⟨sUuid, 0, 0⟩ bgs

variable {g : Geometry} {info : Info} {aux : AuxInfo} {bgs : List BlockGroup} {bg : BlockGroup} {sb : SuperBlock}
  {i k : Nat}

/-- Each group has its descriptor. -/
theorem getElem?_updateFreeFrom (h : bgs[k]? = some bg) :
    (updateFreeFrom info aux i sb bgs).1[k]? =
      some (updateDesc sb.sUuid (i + k) (fillInDesc info aux (i + k)) bg) := by
  induction bgs generalizing i sb k with
  | nil => cases h
  | cons bg' bgs ih =>
    rw [updateFreeFrom]
    dsimp only
    cases k with
    | zero =>
      obtain rfl : bg' = bg := Option.some.inj h
      rfl
    | succ k =>
      rw [List.getElem?_cons_succ] at h ⊢
      rw [ih h, Nat.add_right_comm, Nat.add_assoc]

theorem length_updateFreeFrom : (updateFreeFrom info aux i sb bgs).1.length = bgs.length := by
  induction bgs generalizing i sb with
  | nil => rfl
  | cons bg bgs ih => rw [updateFreeFrom, List.length_cons, List.length_cons, ih]

/-- The totals, as far as 32 bits go. -/
theorem updateFreeFrom_totals (info : Info) (aux : AuxInfo) (i : Nat) (sb : SuperBlock) (bgs : List BlockGroup) :
    (updateFreeFrom info aux i sb bgs).2.sFreeBlocksCountLo = sb.sFreeBlocksCountLo + BitVec.ofNat 32 (totalFree bgs) ∧
    (updateFreeFrom info aux i sb bgs).2.sFreeInodesCount =
      sb.sFreeInodesCount + BitVec.ofNat 32 (totalFreeInodes bgs) := by
  induction bgs generalizing i sb with
  | nil => exact ⟨(BitVec.add_zero _).symm, (BitVec.add_zero _).symm⟩
  | cons bg bgs ih =>
    have htotal : totalFree (bg :: bgs) = bg.freeBlocks + totalFree bgs := List.sum_cons
    have htotalInodes : totalFreeInodes (bg :: bgs) = bg.freeInodes + totalFreeInodes bgs := List.sum_cons
    rw [updateFreeFrom]
    dsimp only
    rw [(ih _ _).1, (ih _ _).2, htotal, htotalInodes, BitVec.ofNat_add, BitVec.ofNat_add, BitVec.add_assoc,
      BitVec.add_assoc]
    exact ⟨rfl, rfl⟩

theorem updateFree_totals (info : Info) (aux : AuxInfo) (sUuid : List UInt8) (bgs : List BlockGroup) :
    (updateFree info aux sUuid bgs).2.sFreeBlocksCountLo = BitVec.ofNat 32 (totalFree bgs) ∧
    (updateFree info aux sUuid bgs).2.sFreeInodesCount = BitVec.ofNat 32 (totalFreeInodes bgs) := by
  obtain ⟨hblocks, hinodes⟩ := updateFreeFrom_totals info aux 0 ⟨sUuid, 0, 0⟩ bgs
  exact ⟨hblocks.trans (BitVec.zero_add _), hinodes.trans (BitVec.zero_add _)⟩

theorem clearBits_le (bitmap : Bitmap) (limit : Nat) : clearBits bitmap limit ≤ limit :=
  (Finset.card_filter_le _ _).trans_eq (Finset.card_range limit)

/-- Numbers that are at most `limit` each. -/
theorem sum_map_le (bgs : List BlockGroup) {f : BlockGroup → Nat} {limit : Nat} (h : ∀ bg ∈ bgs, f bg ≤ limit) :
    (bgs.map f).sum ≤ bgs.length * limit := by
  have hle := List.sum_le_card_nsmul (bgs.map f) limit fun n hn => by
    obtain ⟨bg, hbg, rfl⟩ := List.mem_map.mp hn
    exact h bg hbg
  rwa [List.length_map, nsmul_eq_mul, Nat.cast_id] at hle

/-- **The counts that are written are those of the bitmaps**, for each group in its descriptor and for all of them
in the superblock, and the checksum of a descriptor is that of its fields. -/
theorem counts_makeExt4fs (g : Geometry) (directory : Option (FileName × Dentries)) (mountpoint : FileName)
    (sUuid : List UInt8) (hfits : Fits g (treeOf directory)) (hinodes : g.info.inodesPerGroup < 2 ^ 16) :
    ∃ image descs sb, makeExt4fs g.info g.aux directory mountpoint = .ok image ∧
      updateFree g.info g.aux sUuid image.bgs = (descs, sb) ∧ descs.length = image.bgs.length ∧
      (∀ i bg desc, image.bgs[i]? = some bg → descs[i]? = some desc →
        desc.bgFreeBlocksCount.toNat = clearBits bg.blockBitmap g.info.blocksPerGroup ∧
        desc.bgFreeInodesCount.toNat = clearBits bg.inodeBitmap g.info.inodesPerGroup ∧
        desc.bgChecksum = ext4Crc16 (ext4Crc16 (ext4Crc16 (~~~0#16) sUuid) (toLE 4 i)) desc.bytes) ∧
      sb.sFreeBlocksCountLo.toNat = (image.bgs.map fun bg => clearBits bg.blockBitmap g.info.blocksPerGroup).sum ∧
      sb.sFreeInodesCount.toNat = (image.bgs.map fun bg => clearBits bg.inodeBitmap g.info.inodesPerGroup).sum := by
  obtain ⟨image, hmake, hmade⟩ := makeExt4fs_made hfits mountpoint
  have hblocks (bg : BlockGroup) (hbg : bg ∈ image.bgs) : bg.freeBlocks =
      clearBits bg.blockBitmap g.info.blocksPerGroup := by
    obtain ⟨i, hi⟩ := List.mem_iff_getElem?.mp hbg
    exact (hmade.ok.groups.groups i bg hi).freeBlocks_eq
  have hfreeInodes (bg : BlockGroup) (hbg : bg ∈ image.bgs) :
      bg.freeInodes = clearBits bg.inodeBitmap g.info.inodesPerGroup :=
    (hmade.ok.inodes.parts bg.inodePart (List.mem_map_of_mem hbg)).freeInodes_eq
  have hlength : image.bgs.length = g.aux.groups := hmade.ok.groups.length
  have hper := g.blocksPerGroup_lt
  obtain ⟨htotal, htotalInodes⟩ := updateFree_totals g.info g.aux sUuid image.bgs
  refine ⟨image, (updateFree g.info g.aux sUuid image.bgs).1, (updateFree g.info g.aux sUuid image.bgs).2, hmake, rfl,
    length_updateFreeFrom, fun i bg desc hbg hdesc => ?_, ?_, ?_⟩
  · have hmem := List.mem_of_getElem? hbg
    rw [updateFree, getElem?_updateFreeFrom hbg, Option.some_inj, Nat.zero_add] at hdesc
    have hle := clearBits_le bg.blockBitmap g.info.blocksPerGroup
    have hle' := clearBits_le bg.inodeBitmap g.info.inodesPerGroup
    subst hdesc
    refine ⟨?_, ?_, bgChecksum_updateDesc sUuid i _ bg⟩
    · change (BitVec.ofNat 16 bg.freeBlocks).toNat = _
      rw [hblocks bg hmem, BitVec.toNat_ofNat, Nat.mod_eq_of_lt (by omega)]
    · change (BitVec.ofNat 16 bg.freeInodes).toNat = _
      rw [hfreeInodes bg hmem, BitVec.toNat_ofNat, Nat.mod_eq_of_lt (by omega)]
  · have hsum : totalFree image.bgs = (image.bgs.map fun bg => clearBits bg.blockBitmap g.info.blocksPerGroup).sum :=
      congrArg List.sum (List.map_congr_left hblocks)
    have hle := sum_map_le image.bgs fun bg _ => clearBits_le bg.blockBitmap g.info.blocksPerGroup
    have hmax := g.blocks_lt
    rw [groupStart, ← hlength] at hmax
    rw [htotal, BitVec.toNat_ofNat, hsum, Nat.mod_eq_of_lt (by omega)]
  · have hsum : totalFreeInodes image.bgs =
        (image.bgs.map fun bg => clearBits bg.inodeBitmap g.info.inodesPerGroup).sum := by
      rw [totalFreeInodes, inodeParts, List.map_map]
      exact congrArg List.sum (List.map_congr_left hfreeInodes)
    have hle := sum_map_le image.bgs fun bg _ => clearBits_le bg.inodeBitmap g.info.inodesPerGroup
    have hmax := g.inodes_lt
    rw [← hlength] at hmax
    rw [htotalInodes, BitVec.toNat_ofNat, hsum, Nat.mod_eq_of_lt (by omega)]

theorem counts_smallTree :
    ∃ image descs sb, makeExt4fs smallGeometry.info smallGeometry.aux (some ([47], smallTree)) [47] = .ok image ∧
      updateFree smallGeometry.info smallGeometry.aux (List.replicate 16 0) image.bgs = (descs, sb) ∧
      descs.length = image.bgs.length ∧
      (∀ i bg desc, image.bgs[i]? = some bg → descs[i]? = some desc →
        desc.bgFreeBlocksCount.toNat = clearBits bg.blockBitmap smallGeometry.info.blocksPerGroup ∧
        desc.bgFreeInodesCount.toNat = clearBits bg.inodeBitmap smallGeometry.info.inodesPerGroup ∧
        desc.bgChecksum = ext4Crc16 (ext4Crc16 (ext4Crc16 (~~~0#16) (List.replicate 16 0)) (toLE 4 i)) desc.bytes) ∧
      sb.sFreeBlocksCountLo.toNat =
        (image.bgs.map fun bg => clearBits bg.blockBitmap smallGeometry.info.blocksPerGroup).sum ∧
      sb.sFreeInodesCount.toNat =
        (image.bgs.map fun bg => clearBits bg.inodeBitmap smallGeometry.info.inodesPerGroup).sum :=
  counts_makeExt4fs smallGeometry (some ([47], smallTree)) [47] (List.replicate 16 0)
    smallTree_fits (by decide +kernel)

end Goldfish.Ext4

import Goldfish.Ext4.Filesystem
import Mathlib.Data.List.Nodup

/-!
# Goldfish.Ext4.Metadata

The parts of an image that are no content: the superblock and its copies with the group descriptors (`ext4_fill_in_sb`,
`ext4_queue_sb`), the bitmaps of every group (`init_bg`), and the inode tables of the groups in which an inode has been
looked at (`allocate_bg_inode_table`). They are known by the blocks they cover.

All of them lie in the headers, and none meets another one or the content (`chunks_makeExt4fs`).
-/

open Goldfish.Lib Goldfish.Lib.Bitmap

namespace Goldfish.Ext4

variable {g : Geometry} {bgs : List BlockGroup} {i b : Nat} {hasTable : Bool}

/-- What is in a header before the bitmaps. -/
def bitmapOffset (info : Info) (aux : AuxInfo) (i : Nat) : Nat :=
  if bgHasSuperBlock info i then 1 + aux.bgDescBlocks + info.bgDescReserveBlocks else 0

/-- The superblock and the descriptors of a group, as first blocks and lengths. That of the first group is at
`first_data_block`, which is where `ext4_queue_sb` puts it. -/
def superBlockRanges (info : Info) (aux : AuxInfo) (i : Nat) : List (Nat × Nat) :=
  if bgHasSuperBlock info i then [(groupStart info aux i, 1), (groupStart info aux i + 1, aux.bgDescBlocks)] else []

/-- The two bitmaps of a group, which are neighbours. -/
def bitmapRanges (info : Info) (aux : AuxInfo) (i : Nat) : List (Nat × Nat) :=
  [(groupStart info aux i + bitmapOffset info aux i, 2)]

/-- The inode table of a group, if it has one. -/
def inodeTableRanges (info : Info) (aux : AuxInfo) (i : Nat) (hasTable : Bool) : List (Nat × Nat) :=
  if hasTable then [(groupStart info aux i + 2 + bitmapOffset info aux i, aux.inodeTableBlocks)] else []

/-- All of a group's own blocks. -/
def metadataOf (info : Info) (aux : AuxInfo) (i : Nat) (hasTable : Bool) : List (Nat × Nat) :=
  superBlockRanges info aux i ++ (bitmapRanges info aux i ++ inodeTableRanges info aux i hasTable)

/-- All blocks that are no content. -/
def metadata (info : Info) (aux : AuxInfo) (bgs : List BlockGroup) : List (Nat × Nat) :=
  (List.range bgs.length).flatMap fun i => metadataOf info aux i ((bgs[i]?).any fun bg => bg.inodeTable.isSome)

theorem mem_superBlockRanges :
    b ∈ rangeBlocks (superBlockRanges g.info g.aux i) ↔
      bgHasSuperBlock g.info i = true ∧ groupStart g.info g.aux i ≤ b ∧
      b < groupStart g.info g.aux i + 1 + g.aux.bgDescBlocks := by
  rw [superBlockRanges]
  split
  · rename_i hhas
    simp only [rangeBlocks, List.flatMap_cons, List.flatMap_nil, List.append_nil, List.mem_append, List.mem_range'_1,
      hhas, true_and]
    omega
  · rename_i hhas
    exact ⟨fun h => absurd h List.not_mem_nil, fun h => absurd h.1 hhas⟩

theorem mem_bitmapRanges :
    b ∈ rangeBlocks (bitmapRanges g.info g.aux i) ↔
      groupStart g.info g.aux i + bitmapOffset g.info g.aux i ≤ b ∧
      b < groupStart g.info g.aux i + bitmapOffset g.info g.aux i + 2 := by
  simp only [bitmapRanges, rangeBlocks, List.flatMap_cons, List.flatMap_nil, List.append_nil, List.mem_range'_1]

theorem mem_inodeTableRanges (h : b ∈ rangeBlocks (inodeTableRanges g.info g.aux i hasTable)) :
    groupStart g.info g.aux i + bitmapOffset g.info g.aux i + 2 ≤ b ∧
      b < groupStart g.info g.aux i + bitmapOffset g.info g.aux i + 2 + g.aux.inodeTableBlocks := by
  rw [inodeTableRanges] at h
  split at h
  · simp only [rangeBlocks, List.flatMap_cons, List.flatMap_nil, List.append_nil, List.mem_range'_1] at h
    omega
  · cases h

theorem rangeBlocks_append (ranges more : List (Nat × Nat)) :
    rangeBlocks (ranges ++ more) = rangeBlocks ranges ++ rangeBlocks more :=
  List.flatMap_append

theorem headerBlocks_eq (info : Info) (aux : AuxInfo) (i : Nat) :
    headerBlocks info aux i = bitmapOffset info aux i + 2 + aux.inodeTableBlocks := by
  rw [headerBlocks, bitmapOffset, Nat.add_comm (2 + _), ← Nat.add_assoc]

theorem bitmapOffset_of_superBlock {info : Info} (aux : AuxInfo) (h : bgHasSuperBlock info i = true) :
    bitmapOffset info aux i = 1 + aux.bgDescBlocks + info.bgDescReserveBlocks := if_pos h

/-- **What there is of a group lies in its header**, and not on the blocks that are kept behind its descriptors. -/
theorem header_of_metadataOf (h : b ∈ rangeBlocks (metadataOf g.info g.aux i hasTable)) :
    groupStart g.info g.aux i ≤ b ∧ b < groupStart g.info g.aux i + headerBlocks g.info g.aux i ∧
      (bgHasSuperBlock g.info i = true → ¬ (groupStart g.info g.aux i + 1 + g.aux.bgDescBlocks ≤ b ∧
        b < groupStart g.info g.aux i + 1 + g.aux.bgDescBlocks + g.info.bgDescReserveBlocks)) := by
  rw [metadataOf, rangeBlocks_append, rangeBlocks_append, List.mem_append, List.mem_append, mem_superBlockRanges,
    mem_bitmapRanges] at h
  rw [headerBlocks_eq]
  rcases h with ⟨hhas, hge, hlt⟩ | hbitmap | htable
  · have hoffset := bitmapOffset_of_superBlock g.aux hhas
    exact ⟨hge, by omega, fun _ => by omega⟩
  · exact ⟨by omega, by omega, fun hhas => by rw [bitmapOffset_of_superBlock g.aux hhas] at hbitmap; omega⟩
  · have hrange := mem_inodeTableRanges htable
    exact ⟨by omega, by omega, fun hhas => by rw [bitmapOffset_of_superBlock g.aux hhas] at hrange; omega⟩

theorem nodup_metadataOf : (rangeBlocks (metadataOf g.info g.aux i hasTable)).Nodup := by
  have hsuper : (rangeBlocks (superBlockRanges g.info g.aux i)).Nodup := by
    rw [superBlockRanges]
    split
    · simp only [rangeBlocks, List.flatMap_cons, List.flatMap_nil, List.append_nil]
      refine List.nodup_append'.mpr ⟨List.nodup_range', List.nodup_range', fun b hb hb' => ?_⟩
      rw [List.mem_range'_1] at hb hb'
      omega
    · exact List.nodup_nil
  have hbitmap : (rangeBlocks (bitmapRanges g.info g.aux i)).Nodup := by
    simp only [bitmapRanges, rangeBlocks, List.flatMap_cons, List.flatMap_nil, List.append_nil]
    exact List.nodup_range'
  have htable : (rangeBlocks (inodeTableRanges g.info g.aux i hasTable)).Nodup := by
    rw [inodeTableRanges]
    split
    · simp only [rangeBlocks, List.flatMap_cons, List.flatMap_nil, List.append_nil]
      exact List.nodup_range'
    · exact List.nodup_nil
  rw [metadataOf, rangeBlocks_append, rangeBlocks_append]
  refine List.nodup_append'.mpr ⟨hsuper, List.nodup_append'.mpr ⟨hbitmap, htable, fun b hb hb' => ?_⟩,
    fun b hb hb' => ?_⟩
  · have hrange := mem_inodeTableRanges hb'
    rw [mem_bitmapRanges] at hb
    omega
  · obtain ⟨hhas, hge, hlt⟩ := mem_superBlockRanges.mp hb
    have hoffset := bitmapOffset_of_superBlock g.aux hhas
    rcases List.mem_append.mp hb' with hb' | hb'
    · rw [mem_bitmapRanges] at hb'
      omega
    · have hrange := mem_inodeTableRanges hb'
      omega

theorem rangeBlocks_metadata (info : Info) (aux : AuxInfo) (bgs : List BlockGroup) :
    rangeBlocks (metadata info aux bgs) =
      (List.range bgs.length).flatMap fun i =>
        rangeBlocks (metadataOf info aux i ((bgs[i]?).any fun bg => bg.inodeTable.isSome)) := by
  rw [metadata, rangeBlocks, List.flatMap_assoc]
  rfl

theorem mem_metadata (h : b ∈ rangeBlocks (metadata g.info g.aux bgs)) :
    ∃ i hasTable, i < bgs.length ∧ b ∈ rangeBlocks (metadataOf g.info g.aux i hasTable) := by
  rw [rangeBlocks_metadata] at h
  obtain ⟨i, hi, hb⟩ := List.mem_flatMap.mp h
  exact ⟨i, _, List.mem_range.mp hi, hb⟩

/-- **No block is in two of them.** -/
theorem nodup_metadata (hlength : bgs.length = g.aux.groups) : (rangeBlocks (metadata g.info g.aux bgs)).Nodup := by
  rw [rangeBlocks_metadata, List.nodup_flatMap]
  refine ⟨fun i _ => nodup_metadataOf, List.pairwise_lt_range.imp_of_mem fun {i j} hi hj hlt b hb hb' => ?_⟩
  have hheader := g.header_le i (by rw [← hlength]; exact List.mem_range.mp hi)
  have hsize := g.groupSize_le i
  have hstart := g.groupStart_add_le hlt
  obtain ⟨-, hless, -⟩ := header_of_metadataOf hb
  obtain ⟨hge, -, -⟩ := header_of_metadataOf hb'
  omega

theorem not_isData_of_metadata (hlength : bgs.length = g.aux.groups)
    (h : b ∈ rangeBlocks (metadata g.info g.aux bgs)) : ¬ g.IsData b := by
  obtain ⟨i, hasTable, hi, hb⟩ := mem_metadata h
  obtain ⟨hge, hlt, -⟩ := header_of_metadataOf hb
  exact not_isData_of_header (hlength ▸ hi) hge hlt

/-- The blocks that are kept behind the first descriptors are not part of them. -/
theorem not_reserved_of_metadata (hlength : bgs.length = g.aux.groups)
    (hb : b ∈ rangeBlocks (metadata g.info g.aux bgs)) :
    ¬ (groupStart g.info g.aux 0 + 1 + g.aux.bgDescBlocks ≤ b ∧
      b < groupStart g.info g.aux 0 + 1 + g.aux.bgDescBlocks + g.info.bgDescReserveBlocks) := by
  obtain ⟨i, hasTable, hi, hmem⟩ := mem_metadata hb
  obtain ⟨hge, -, hnot⟩ := header_of_metadataOf hmem
  rcases Nat.eq_zero_or_pos i with rfl | hpos
  · exact hnot (bgHasSuperBlock_zero g.info)
  · have hheader := g.header_le 0 (by omega)
    have hsize := g.groupSize_le 0
    have hstart := g.groupStart_add_le hpos
    rw [headerBlocks_eq, bitmapOffset_of_superBlock g.aux (bgHasSuperBlock_zero g.info)] at hheader
    omega

/-- **No block of an image is written twice**, be it with content or with metadata, and no block that is written
is free. -/
theorem chunks_makeExt4fs (g : Geometry) (directory : Option (FileName × Dentries)) (mountpoint : FileName)
    (hfits : Fits g (treeOf directory)) :
    ∃ image, makeExt4fs g.info g.aux directory mountpoint = .ok image ∧
      image.chunks.Pairwise (Chunk.Apart g.info.blockSize) ∧
      (rangeBlocks (metadata g.info g.aux image.bgs)).Nodup ∧
      (∀ c ∈ image.chunks, ∀ b, c.covers g.info.blockSize b = true →
        b ∉ rangeBlocks (metadata g.info g.aux image.bgs) ∧ ¬ FreeIn g image.bgs b) ∧
      ∀ b ∈ rangeBlocks (metadata g.info g.aux image.bgs), ¬ FreeIn g image.bgs b := by
  obtain ⟨image, hmake, hmade⟩ := makeExt4fs_made hfits mountpoint
  obtain ⟨hgroups, -, howned⟩ := hmade.ok
  refine ⟨image, hmake, howned.apart, nodup_metadata hgroups.length,
    fun c hc b hb => ⟨fun hmem => ?_, howned.owned c hc b hb⟩,
    fun b hb hfree => not_isData_of_metadata hgroups.length hb (hfree.isData hgroups)⟩
  rcases hmade.chunks c hc with hdata | hreserved
  · exact not_isData_of_metadata hgroups.length hmem (hdata b hb)
  · exact not_reserved_of_metadata hgroups.length hmem (hreserved b hb)

theorem chunks_smallTree :
    ∃ image, makeExt4fs smallGeometry.info smallGeometry.aux (some ([47], smallTree)) [47] = .ok image ∧
      image.chunks.Pairwise (Chunk.Apart smallGeometry.info.blockSize) ∧
      (rangeBlocks (metadata smallGeometry.info smallGeometry.aux image.bgs)).Nodup ∧
      (∀ c ∈ image.chunks, ∀ b, c.covers smallGeometry.info.blockSize b = true →
        b ∉ rangeBlocks (metadata smallGeometry.info smallGeometry.aux image.bgs) ∧
        ¬ FreeIn smallGeometry image.bgs b) ∧
      ∀ b ∈ rangeBlocks (metadata smallGeometry.info smallGeometry.aux image.bgs),
        ¬ FreeIn smallGeometry image.bgs b :=
  chunks_makeExt4fs smallGeometry (some ([47], smallTree)) [47] smallTree_fits

end Goldfish.Ext4

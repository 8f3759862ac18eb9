import Goldfish.Ext4.Filesystem
import Goldfish.Lib.Ownership

/-!
# Goldfish.Ext4.Allocations

**Allocations, one after another**, of blocks (`allocate_block`, `ext4_allocate_best_fit`) and of inodes
(`allocate_inode`), from the groups as `block_allocator_init` leaves them. Both are allocators in the sense of
`Allocates`: what is asked for is given as long as there is room, and was free. So over a whole run nothing is
given twice, nothing of a header is given, and a request is refused only if there is no room for all of them
(`allocateBlocks_each`, `allocateInode_each`).

How few regions one allocation has is a result of its own (`allocateBestFit_fewest`).
-/

open Goldfish.Lib Goldfish.Lib.Bitmap

namespace Goldfish.Ext4

variable {g : Geometry} {bgs bgs' : List BlockGroup} {i b n : Nat}

/-! ### Blocks -/

/-- A call of `allocate_block` or of `ext4_allocate_best_fit`. -/
inductive BlockRequest where
  | block
  | bestFit (len : Nat)

namespace BlockRequest

/-- How many blocks are asked for. -/
def len : BlockRequest → Nat
  | block => 1
  | bestFit len => len

/-- The blocks that are allocated. -/
def give (bgs : List BlockGroup) : BlockRequest → Option (List Nat × List BlockGroup)
  | block => ((allocateBlock bgs).toOption.bind id).map fun r => ([r.1], r.2)
  | bestFit len => (allocateBestFit bgs len).toOption.map fun r => (regionBlocks r.1, r.2)

theorem give_allocates (g : Geometry) : Allocates give (GroupsOk g) (FreeIn g) totalFree len where
  some_of_le bgs req hok := by
    cases req with
    | block =>
      intro (hle : 1 ≤ totalFree bgs)
      rcases allocateBlock_cases hok with ⟨i, bg, hbg, hfree, halloc⟩ | ⟨hzero, -⟩
      · refine ⟨[groupStart g.info g.aux i + bg.firstFreeBlock], bgs.set i (bg.take 1), ?_,
          hok.set ((hok.groups i bg hbg).take hfree), takes_take hok hbg hfree, rfl, totalFree_take hbg hfree⟩
        rw [give, halloc]
        rfl
      · omega
    | bestFit len =>
      intro (hle : len ≤ totalFree bgs)
      obtain ⟨regs, bgs', hfit, h⟩ := allocateBestFit_ok hok hle
      refine ⟨regionBlocks regs, bgs', ?_, h.groupsOk hok, h.takes hok, ?_, h.totalFree_eq⟩
      · rw [give, hfit]
        rfl
      · rw [length_regionBlocks]
        exact h.regionsLen_eq
  none_of_lt bgs req hok := by
    cases req with
    | block =>
      intro (hlt : totalFree bgs < 1)
      rcases allocateBlock_cases hok with ⟨i, bg, hbg, hfree, -⟩ | ⟨-, halloc⟩
      · have htotal := totalFree_take hbg hfree
        omega
      · rw [give, halloc]
        rfl
    | bestFit len =>
      intro (hlt : totalFree bgs < len)
      obtain ⟨e, herror⟩ := allocateBestFit_error hok hlt
      rw [give, herror]
      rfl

end BlockRequest

/-- At the start all the blocks for data are free. -/
theorem Initial.freeIn_iff (h : Initial g bgs) : FreeIn g bgs b ↔ g.IsData b := by
  refine ⟨fun hfree => hfree.isData h.groupsOk, fun ⟨i, hi, hmem⟩ => ?_⟩
  obtain ⟨bg, hbg⟩ : ∃ bg, bgs[i]? = some bg := ⟨_, List.getElem?_eq_getElem (h.groupsOk.length ▸ hi)⟩
  have hinitial := h.all i bg hbg
  have hfirst := hinitial.free_all
  have hfree := hinitial.free
  have hheader := hinitial.header
  rw [Geometry.dataBlocks, List.mem_range'_1] at hmem
  exact (Ext4.freeIn_iff h.groupsOk).mpr ⟨i, bg, hbg, by omega, by omega⟩

/-- **No block is given twice**, over any run of allocations, and no block of a header is given. A run ends early
only if there are not enough blocks for it. -/
theorem allocateBlocks_each (g : Geometry) (reqs : List BlockRequest) :
    ∃ bgs, blockAllocatorInit g.info g.aux = .ok bgs ∧
      (((reqs.map BlockRequest.len).sum ≤ g.dataLen ∧
        ∃ blocks bgs', giveEach BlockRequest.give bgs reqs = some (blocks, bgs') ∧ blocks.Nodup ∧
          blocks.length = (reqs.map BlockRequest.len).sum ∧ (∀ b ∈ blocks, g.IsData b) ∧
          ∀ b, FreeIn g bgs' b ↔ g.IsData b ∧ b ∉ blocks) ∨
        (g.dataLen < (reqs.map BlockRequest.len).sum ∧ giveEach BlockRequest.give bgs reqs = none)) := by
  obtain ⟨bgs, hinit, h⟩ := initial_ok g
  have hrun := (BlockRequest.give_allocates g).each h.groupsOk reqs
  rw [h.total] at hrun
  refine ⟨bgs, hinit, hrun.imp_left ?_⟩
  rintro ⟨hle, blocks, bgs', hgive, htakes, hlength⟩
  exact ⟨hle, blocks, bgs', hgive, htakes.nodup, hlength, fun b hb => h.freeIn_iff.mp (htakes.wasFree b hb),
    fun b => by rw [htakes.after, h.freeIn_iff]⟩

/-- **The best fit has as few regions as there can be**: any groups that have enough room together are at least as
many. -/
theorem allocateBestFit_fewest (len : Nat) (hok : GroupsOk g bgs) :
    (len ≤ totalFree bgs ∧ ∃ regs bgs', allocateBestFit bgs len = .ok (regs, bgs') ∧ regionsLen regs = len ∧
        Takes (FreeIn g bgs) (FreeIn g bgs') (regionBlocks regs) ∧
        ∀ groups : Finset Nat, len ≤ ∑ i ∈ groups, freeOf bgs i → regs.length ≤ groups.card) ∨
      (totalFree bgs < len ∧ ∃ e, allocateBestFit bgs len = .error e) := by
  rcases Nat.lt_or_ge (totalFree bgs) len with hfull | hroom
  · exact Or.inr ⟨hfull, allocateBestFit_error hok hfull⟩
  · obtain ⟨regs, bgs', hfit, h⟩ := allocateBestFit_ok hok hroom
    exact Or.inl ⟨hroom, regs, bgs', hfit, h.regionsLen_eq, h.takes hok, fun groups henough => h.fewest henough⟩

/-- Four groups of seven blocks. Three blocks of a header are only where there is a superblock. -/
def tinyGeometry (sparseSuper : Bool) : Geometry where
  info := ⟨28 * 1024, 1024, 7, 8, 128, 32, 0, 1, sparseSuper⟩
  aux := ⟨1, 29, 1, 4, 1⟩
  blockSize_ge := Nat.le_refl 1024
  blockSize_lt := show 1024 < 2 ^ 16 by decide
  blockSize_align := show 1024 % 4 = 0 by decide
  blocksPerGroup_le := show 7 ≤ 8 * 1024 by decide
  blocksPerGroup_lt := show 7 < 2 ^ 16 by decide
  inodesPerGroup_pos := show 0 < 8 by decide
  inodesPerGroup_le := show 8 ≤ 8 * 1024 by decide
  inodeTable_ge := show 8 ≤ 1 * 1024 / 128 by decide
  inodes_lt := show 4 * 8 < 2 ^ 32 by decide
  header_le := by cases sparseSuper <;> decide
  blocks_lt := show 1 + 4 * 7 < 2 ^ 32 by decide

/-- Five blocks: the four of the third group, which has no superblock, and the one of the first group. -/
theorem allocateBestFit_small :
    ∃ bgs bgs', blockAllocatorInit (tinyGeometry true).info (tinyGeometry true).aux = .ok bgs ∧
      allocateBestFit bgs 5 = .ok ([⟨18, 4, 2⟩, ⟨7, 1, 0⟩], bgs') ∧
      Takes (FreeIn (tinyGeometry true) bgs) (FreeIn (tinyGeometry true) bgs') [18, 19, 20, 21, 7] ∧
      ∀ groups : Finset Nat, 5 ≤ ∑ i ∈ groups, freeOf bgs i → 2 ≤ groups.card := by
  obtain ⟨bgs, hinit, h⟩ := initial_ok (tinyGeometry true)
  have hregs : ((blockAllocatorInit (tinyGeometry true).info (tinyGeometry true).aux).toOption.bind fun bgs =>
      (allocateBestFit bgs 5).toOption.map Prod.fst) = some [⟨18, 4, 2⟩, ⟨7, 1, 0⟩] := by decide +kernel
  rcases allocateBestFit_fewest 5 h.groupsOk with ⟨-, regs, bgs', hfit, -, htakes, hfew⟩ | ⟨hless, -⟩
  · rw [hinit] at hregs
    change (allocateBestFit bgs 5).toOption.map Prod.fst = _ at hregs
    rw [hfit] at hregs
    obtain rfl : regs = [⟨18, 4, 2⟩, ⟨7, 1, 0⟩] := Option.some.inj hregs
    exact ⟨bgs, bgs', hinit, hfit, htakes, hfew⟩
  · rw [h.total] at hless
    exact absurd hless (by decide +kernel)

/-! ### Inodes -/

/-- An inode whose bit is clear. -/
def FreeInode (g : Geometry) (bgs : List BlockGroup) (n : Nat) : Prop :=
  0 < n ∧ ∃ p, partOf g.info bgs n = some p ∧ bitAt p.inodeBitmap (inodeSlot g.info n) = false

/-- The inode that `allocate_inode` finds. -/
def giveInode (info : Info) (bgs : List BlockGroup) (_ : Unit) : Option (List Nat × List BlockGroup) :=
  (allocateInode info bgs).map fun r => ([r.1], r.2)

theorem Reserves.takes {first : Nat} (h : Reserves g bgs i 1 first bgs') (hok : InodesOk g bgs) :
    Takes (FreeInode g bgs) (FreeInode g bgs') [i * g.info.inodesPerGroup + first] := by
  obtain ⟨p, hp, hnum, rfl⟩ := h.some_part
  have hpart := hok.parts p (List.mem_of_getElem? hp)
  have hfree := hpart.free
  have hfirst := hpart.first_pos
  have hbits := g.inodesPerGroup_le
  have hlength := hpart.length
  obtain ⟨hgroup, hslot⟩ := inodeGroup_add (g := g) (i := i) hfirst (by omega)
  have hpart_of : partOf g.info bgs (i * g.info.inodesPerGroup + p.firstFreeInode) = some p := by
    rw [partOf, hgroup, hp]
  have hlt : p.firstFreeInode - 1 < g.info.inodesPerGroup := by omega
  have hbit : bitAt p.inodeBitmap (p.firstFreeInode - 1) = false := by
    rw [hpart.used _ hlt, decide_eq_false (by omega)]
  refine ⟨List.nodup_singleton _, fun n hn => ?_, fun m => ?_⟩
  · rw [List.mem_singleton.mp hn]
    exact ⟨by omega, p, hpart_of, by rw [hslot, hbit]⟩
  · rw [List.mem_singleton, FreeInode, FreeInode, h.partOf_eq]
    constructor
    · rintro ⟨hpos, p', hp', hclear⟩
      obtain ⟨q, hq, rfl⟩ := Option.map_eq_some_iff.mp hp'
      split at hclear
      · rw [InodePart.reserve, bitAt_marked, Bool.or_eq_false_iff] at hclear
        refine ⟨⟨hpos, q, hq, hclear.2⟩, ?_⟩
        rintro rfl
        obtain rfl : p = q := Option.some.inj (hpart_of.symm.trans hq)
        rw [hslot] at hclear
        exact absurd (of_decide_eq_false hclear.1) (by omega)
      · rename_i hne
        refine ⟨⟨hpos, q, hq, hclear⟩, ?_⟩
        rintro rfl
        exact hne hgroup.symm
    · rintro ⟨⟨hpos, q, hq, hclear⟩, hne⟩
      refine ⟨hpos, _, by rw [hq, Option.map_some], ?_⟩
      split
      · rename_i hi
        obtain rfl : p = q := by
          rw [partOf, ← hi, hp] at hq
          exact Option.some.inj hq
        rw [InodePart.reserve, bitAt_marked, hclear, Bool.or_false, decide_eq_false_iff_not]
        intro hmem
        refine hne (eq_of_slot hpos (by omega) (hi.symm.trans hgroup.symm) ?_)
        rw [hslot]
        omega
      · exact hclear

theorem giveInode_allocates (g : Geometry) :
    Allocates (giveInode g.info) (InodesOk g) (FreeInode g) totalFreeInodes fun _ => 1 where
  some_of_le bgs _ hok hle := by
    obtain ⟨n, bgs', halloc⟩ := allocateInode_ok hle
    obtain ⟨i, first, h, rfl⟩ := reserves_of_allocateInodeFrom halloc
    exact ⟨_, bgs', by rw [giveInode, halloc, Option.map_some], h.inodesOk hok, h.takes hok, rfl, h.totalFreeInodes_eq⟩
  none_of_lt bgs _ hok hlt := by
    cases halloc : allocateInode g.info bgs with
    | none => rw [giveInode, halloc, Option.map_none]
    | some r =>
      obtain ⟨i, first, h, -⟩ := reserves_of_allocateInodeFrom halloc
      have htotal := h.totalFreeInodes_eq
      omega

/-- At the start all the inodes are free. -/
theorem Initial.freeInode_iff (h : Initial g bgs) :
    FreeInode g bgs n ↔ 0 < n ∧ n ≤ g.aux.groups * g.info.inodesPerGroup := by
  have hlt : inodeGroup g.info n < g.aux.groups ↔ n - 1 < g.aux.groups * g.info.inodesPerGroup := by
    rw [inodeGroup, Nat.div_lt_iff_lt_mul g.inodesPerGroup_pos]
  refine and_congr_right fun hpos => ⟨fun hfree => ?_, fun hle => ?_⟩
  · obtain ⟨p, hp, -⟩ := hfree
    have hgroup := (List.getElem?_eq_some_iff.mp hp).1
    rw [inodeParts, List.length_map, h.groupsOk.length, hlt] at hgroup
    omega
  · have hgroup : inodeGroup g.info n < bgs.length := by
      rw [h.groupsOk.length, hlt]
      omega
    obtain ⟨bg, hbg⟩ : ∃ bg, bgs[inodeGroup g.info n]? = some bg := ⟨_, List.getElem?_eq_getElem hgroup⟩
    refine ⟨bg.inodePart, by rw [partOf, inodeParts, List.getElem?_map, hbg, Option.map_some], ?_⟩
    rw [BlockGroup.inodePart, (h.all _ bg hbg).inodeBitmap, bitAt_zeros]

/-- **No inode is given twice**, over any run of allocations, and all of them can be given. -/
theorem allocateInode_each (g : Geometry) (count : Nat) :
    ∃ bgs, blockAllocatorInit g.info g.aux = .ok bgs ∧
      ((count ≤ g.aux.groups * g.info.inodesPerGroup ∧ ∃ inodes bgs',
          giveEach (giveInode g.info) bgs (List.replicate count ()) = some (inodes, bgs') ∧ inodes.Nodup ∧
          inodes.length = count ∧
          (∀ n ∈ inodes, 0 < n ∧ n ≤ g.aux.groups * g.info.inodesPerGroup) ∧
          ∀ n, FreeInode g bgs' n ↔ (0 < n ∧ n ≤ g.aux.groups * g.info.inodesPerGroup) ∧ n ∉ inodes) ∨
        (g.aux.groups * g.info.inodesPerGroup < count ∧
          giveEach (giveInode g.info) bgs (List.replicate count ()) = none)) := by
  obtain ⟨bgs, hinit, h⟩ := initial_ok g
  have hrun := (giveInode_allocates g).each h.inodesOk (List.replicate count ())
  rw [List.map_replicate, List.sum_replicate_nat, Nat.mul_one, h.totalInodes] at hrun
  refine ⟨bgs, hinit, hrun.imp_left ?_⟩
  rintro ⟨hle, inodes, bgs', hgive, htakes, hlength⟩
  exact ⟨hle, inodes, bgs', hgive, htakes.nodup, hlength, fun n hn => h.freeInode_iff.mp (htakes.wasFree n hn),
    fun n => by rw [htakes.after, h.freeInode_iff]⟩

/-! ### The blocks of a file -/

/-- **A file of any length is read back through its extents**, be they in the inode or in a block of their own,
and all that was on the image before can still be read. That is so exactly if there is a block to spare and a
group with two free blocks; otherwise there is an error. -/
theorem readContent_inodeAllocateFileExtents {image : Image} (host : FileName → List UInt8) (filename : FileName)
    (inode : Inode) (hok : GroupsOk g image.bgs) (howned : ChunksOwned g image.bgs image.chunks)
    (hextents : g.ExtentsFit) (hpos : 0 < (host filename).length)
    (hmax : divRoundUp (host filename).length g.info.blockSize + 1 < 2 ^ 32) :
    (divRoundUp (host filename).length g.info.blockSize + 1 ≤ totalFree image.bgs ∧ (∃ i, 2 ≤ freeOf image.bgs i) →
      ∃ inode' image', inodeAllocateFileExtents g.info image inode (host filename).length filename =
        .ok (inode', image') ∧
        readContent host g.info.blockSize image' inode' = some (host filename) ∧
        (∀ b p, partAt g.info.blockSize image.chunks b = some p → partAt g.info.blockSize image'.chunks b = some p) ∧
        image'.chunks.Pairwise (Chunk.Apart g.info.blockSize) ∧
        totalFree image.bgs ≤ totalFree image'.bgs + (divRoundUp (host filename).length g.info.blockSize + 1)) ∧
    (¬ (divRoundUp (host filename).length g.info.blockSize + 1 ≤ totalFree image.bgs ∧ ∃ i, 2 ≤ freeOf image.bgs i) →
      ∃ e, inodeAllocateFileExtents g.info image inode (host filename).length filename = .error e) := by
  refine ⟨fun hroom => ?_, fun hnot => inodeAllocateFileExtents_error hok hpos hmax hnot inode filename⟩
  have hroomy : Roomy g image (divRoundUp (host filename).length g.info.blockSize + 1) :=
    ⟨hok, howned, hroom.1, hroom.2⟩
  obtain ⟨inode', image', hallocate, -, hattached⟩ :=
    inodeAllocateFileExtents_ok hroomy hextents hpos hmax inode filename
  obtain ⟨more, hmore⟩ := hattached.queued.chunks.exists_chunks
  have hsize := hattached.size_eq (lt_of_divRoundUp_lt hmax)
  have hcontent := readContent_of_parts host g.blockSize_pos hattached.parts (Nat.le_of_eq hsize) rfl
  rw [hsize, List.take_length] at hcontent
  refine ⟨inode', image', hallocate, hcontent, fun b p hp => ?_, hattached.queued.owned.apart, hattached.queued.total⟩
  rw [hmore]
  exact partAt_append hp

/-- A file of three bytes, in an image of 16 MiB; and one of two blocks, in four groups that have one free block
each, where there is no room for it although four blocks are free. -/
theorem readContent_small :
    (∃ image₀ image, Image.init smallGeometry.info smallGeometry.aux = .ok image₀ ∧
      reserveFirstInodes image₀ = .ok image ∧
      ∃ inode' image', inodeAllocateFileExtents smallGeometry.info image Inode.zero 3 [47] = .ok (inode', image') ∧
        readContent (fun _ => [1, 2, 3]) smallGeometry.info.blockSize image' inode' = some [1, 2, 3] ∧
        (∀ b p, partAt smallGeometry.info.blockSize image.chunks b = some p →
          partAt smallGeometry.info.blockSize image'.chunks b = some p) ∧
        image'.chunks.Pairwise (Chunk.Apart smallGeometry.info.blockSize) ∧
        totalFree image.bgs ≤ totalFree image'.bgs + (divRoundUp 3 smallGeometry.info.blockSize + 1)) ∧
    ∃ bgs, blockAllocatorInit (tinyGeometry false).info (tinyGeometry false).aux = .ok bgs ∧ totalFree bgs = 4 ∧
      ∃ e, inodeAllocateFileExtents (tinyGeometry false).info ⟨bgs, [], []⟩ Inode.zero 2048 [47] = .error e := by
  constructor
  · obtain ⟨image₀, image, hinit, hreserve, h⟩ := start_ok (g := smallGeometry) (by decide +kernel) (by decide +kernel)
    have hroom : smallGeometry.aux.groups + (divRoundUp 3 smallGeometry.info.blockSize + 1) ≤ totalFree image.bgs := by
      rw [h.total]
      decide +kernel
    have htwo := (Roomy.of_spare h.ok.groups h.ok.owned (Nat.succ_pos _) hroom).two
    exact ⟨image₀, image, hinit, hreserve,
      (readContent_inodeAllocateFileExtents (fun _ => [1, 2, 3]) [47] Inode.zero h.ok.groups
      h.ok.owned ⟨by decide +kernel, by decide +kernel⟩ (by decide) (by decide +kernel)).1
        ⟨Nat.le_of_add_left_le hroom, htwo⟩⟩
  · obtain ⟨bgs, hinit, h⟩ := initial_ok (tinyGeometry false)
    have htotal : totalFree bgs = 4 := by
      rw [h.total]
      decide +kernel
    have howned : ChunksOwned (tinyGeometry false) bgs [] :=
      ⟨fun _ hc => absurd hc List.not_mem_nil, List.Pairwise.nil⟩
    have hsizes : ∀ i < 4, groupSize (tinyGeometry false).info (tinyGeometry false).aux i -
        headerBlocks (tinyGeometry false).info (tinyGeometry false).aux i < 2 := by decide +kernel
    have hone : ¬ ∃ i, 2 ≤ freeOf bgs i := by
      rintro ⟨i, hi⟩
      cases hbg : bgs[i]? with
      | none =>
        rw [freeOf, frees, List.getElem?_map, hbg] at hi
        exact absurd hi (by decide)
      | some bg =>
        have hlt := (List.getElem?_eq_some_iff.mp hbg).1
        rw [h.groupsOk.length] at hlt
        rw [freeOf_eq hbg, (h.all i bg hbg).free_all] at hi
        exact absurd (hsizes i hlt) (Nat.not_lt.mpr hi)
    have hlength : ((fun _ => List.replicate 2048 0 : FileName → List UInt8) [47]).length = 2048 :=
      List.length_replicate
    have hnone := (readContent_inodeAllocateFileExtents (fun _ => List.replicate 2048 0) [47] Inode.zero
      (show GroupsOk (tinyGeometry false) (⟨bgs, [], []⟩ : Image).bgs from h.groupsOk)
        howned ⟨by decide +kernel, by decide +kernel⟩
      (by rw [hlength]; decide) (by rw [hlength]; decide +kernel)).2 fun hroom => hone hroom.2
    rw [hlength] at hnone
    exact ⟨bgs, hinit, htotal, hnone⟩

end Goldfish.Ext4

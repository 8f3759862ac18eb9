import Mathlib.Tactic.Common
import Mathlib.Algebra.Order.Ring.Nat

/-!
# Goldfish.Ext4.Geometry

The sizes of a filesystem image (`make_ext4fs.c`, `ext4_utils.c`), as they follow from its
length where nothing else is asked for.

`Geometry` is what the allocator relies on: the groups cover the blocks, the header of
each fits in it, and the last group that would be too small for its header has been cut
off. The sizes that are computed for a length are such a geometry, as long as the blocks have
32-bit numbers (`Geometry.make`).
-/

namespace Goldfish.Ext4

/-- `DIV_ROUND_UP`. -/
def divRoundUp (x y : Nat) : Nat := (x + y - 1) / y

/-- `ALIGN`. -/
def align (x y : Nat) : Nat := y * divRoundUp x y

/-- `sizeof(struct ext2_group_desc)`. -/
def sizeofGroupDesc : Nat := 32

/-- `struct fs_info`, as far as it is a size. -/
structure Info where
  len : Nat
  blockSize : Nat
  blocksPerGroup : Nat
  inodesPerGroup : Nat
  inodeSize : Nat
  inodes : Nat
  journalBlocks : Nat
  bgDescReserveBlocks : Nat
  sparseSuper : Bool
  deriving DecidableEq, Repr

/-- `struct fs_aux_info`, as far as it is a size. -/
structure AuxInfo where
  firstDataBlock : Nat
  lenBlocks : Nat
  inodeTableBlocks : Nat
  groups : Nat
  bgDescBlocks : Nat
  deriving DecidableEq, Repr

/-! ### Backup superblocks -/

/-- The loop, with enough fuel. -/
def isPowerOfLoop : (fuel : Nat) → (a b : Nat) → Bool
  | 0, a, b => a == b
  | fuel + 1, a, b =>
    if a > b then
      if a % b ≠ 0 then false else isPowerOfLoop fuel (a / b) b
    else a == b

/-- `is_power_of`: the powers from `b` itself on. -/
def isPowerOf (a b : Nat) : Bool := isPowerOfLoop a a b

/-- `ext4_bg_has_super_block`. -/
def bgHasSuperBlock (info : Info) (bg : Nat) : Bool :=
  if !info.sparseSuper then true
  else if bg = 0 ∨ bg = 1 then true
  else isPowerOf bg 3 || isPowerOf bg 5 || isPowerOf bg 7

/-! ### The sizes -/

/-- `compute_block_size`. -/
def computeBlockSize : Nat := 4096

/-- `compute_journal_blocks`: a 64th of the image, within limits. -/
def computeJournalBlocks (len blockSize : Nat) : Nat := min (max (divRoundUp len blockSize / 64) 1024) 32768

/-- `compute_blocks_per_group`: a bitmap has one block. -/
def computeBlocksPerGroup (blockSize : Nat) : Nat := blockSize * 8

/-- `compute_inodes`: one for four blocks. -/
def computeInodes (len blockSize : Nat) : Nat := divRoundUp len blockSize / 4

/-- `compute_inodes_per_group`: the tables have whole blocks. -/
def computeInodesPerGroup (len blockSize blocksPerGroup inodes inodeSize : Nat) : Nat :=
  let blocks := divRoundUp len blockSize
  let blockGroups := divRoundUp blocks blocksPerGroup
  align (divRoundUp inodes blockGroups) (blockSize / inodeSize)

/-- `compute_bg_desc_reserve_blocks`: room for an image 1024 times as large. -/
def computeBgDescReserveBlocks (len blockSize blocksPerGroup : Nat) : Nat :=
  let blocks := divRoundUp len blockSize
  let blockGroups := divRoundUp blocks blocksPerGroup
  let bgDescBlocks := divRoundUp (blockGroups * sizeofGroupDesc) blockSize
  min (divRoundUp (blockGroups * 1024 * sizeofGroupDesc) blockSize - bgDescBlocks) (blockSize / 4)

/-- What `make_ext4fs_internal` fills in if only the length is given. -/
def makeInfo (len : Nat) : Info :=
  let blockSize := computeBlockSize
  let len := len / blockSize * blockSize
  let blocksPerGroup := computeBlocksPerGroup blockSize
  let inodeSize := 256
  let inodesPerGroup := computeInodesPerGroup len blockSize blocksPerGroup (computeInodes len blockSize) inodeSize
  { len := len
    blockSize := blockSize
    blocksPerGroup := blocksPerGroup
    inodesPerGroup := inodesPerGroup
    inodeSize := inodeSize
    inodes := inodesPerGroup * divRoundUp (divRoundUp len blockSize) blocksPerGroup
    journalBlocks := computeJournalBlocks len blockSize
    bgDescReserveBlocks := computeBgDescReserveBlocks len blockSize blocksPerGroup
    sparseSuper := true }

/-- How many blocks the header of the last group takes. -/
def lastHeaderSize (info : Info) (inodeTableBlocks groups bgDescBlocks : Nat) : Nat :=
  2 + inodeTableBlocks + if bgHasSuperBlock info (groups - 1) then 1 + bgDescBlocks + info.bgDescReserveBlocks else 0

/-- `ext4_create_fs_aux_info`. -/
def createFsAuxInfo (info : Info) : AuxInfo :=
  let firstDataBlock := if info.blockSize > 1024 then 0 else 1
  let lenBlocks := info.len / info.blockSize
  let inodeTableBlocks := divRoundUp (info.inodesPerGroup * info.inodeSize) info.blockSize
  let groups := divRoundUp (lenBlocks - firstDataBlock) info.blocksPerGroup
  let bgDescBlocks := divRoundUp (groups * sizeofGroupDesc) info.blockSize
  let lastGroupSize := lenBlocks % info.blocksPerGroup
  if lastGroupSize > 0 ∧ lastGroupSize < lastHeaderSize info inodeTableBlocks groups bgDescBlocks then
    { firstDataBlock, lenBlocks := lenBlocks - lastGroupSize, inodeTableBlocks, groups := groups - 1, bgDescBlocks }
  else { firstDataBlock, lenBlocks, inodeTableBlocks, groups, bgDescBlocks }

/-- How many blocks of a group its header takes (`init_bg`). -/
def headerBlocks (info : Info) (aux : AuxInfo) (i : Nat) : Nat :=
  2 + aux.inodeTableBlocks + if bgHasSuperBlock info i then 1 + aux.bgDescBlocks + info.bgDescReserveBlocks else 0

/-! ### What the allocator relies on -/

/-- The first block of a group. -/
def groupStart (info : Info) (aux : AuxInfo) (i : Nat) : Nat := aux.firstDataBlock + i * info.blocksPerGroup

/-- How many blocks a group has: fewer than the others, if it is the last one. -/
def groupSize (info : Info) (aux : AuxInfo) (i : Nat) : Nat :=
  min info.blocksPerGroup (aux.lenBlocks - groupStart info aux i)

/-- The sizes of an image, and what the computations make sure of. -/
structure Geometry where
  info : Info
  aux : AuxInfo
  blockSize_ge : 1024 ≤ info.blockSize
  /-- The length of a directory entry has 16 bits. -/
  blockSize_lt : info.blockSize < 2 ^ 16
  blockSize_align : info.blockSize % 4 = 0
  /-- One block has a bit for every block of a group. -/
  blocksPerGroup_le : info.blocksPerGroup ≤ 8 * info.blockSize
  /-- The length of an extent has 16 bits. -/
  blocksPerGroup_lt : info.blocksPerGroup < 2 ^ 16
  inodesPerGroup_pos : 0 < info.inodesPerGroup
  /-- One block has a bit for every inode of a group. -/
  inodesPerGroup_le : info.inodesPerGroup ≤ 8 * info.blockSize
  /-- The table of a group has room for all its inodes. -/
  inodeTable_ge : info.inodesPerGroup ≤ aux.inodeTableBlocks * info.blockSize / info.inodeSize
  /-- No inode number overflows. -/
  inodes_lt : aux.groups * info.inodesPerGroup < 2 ^ 32
  /-- The header of a group fits in it. -/
  header_le : ∀ i, i < aux.groups → headerBlocks info aux i ≤ groupSize info aux i
  /-- No block number overflows. -/
  blocks_lt : groupStart info aux aux.groups < 2 ^ 32

namespace Geometry

variable (g : Geometry) {i j : Nat}

/-- The blocks of a group that do not belong to its header. -/
def dataBlocks (i : Nat) : List Nat :=
  List.range' (groupStart g.info g.aux i + headerBlocks g.info g.aux i)
    (groupSize g.info g.aux i - headerBlocks g.info g.aux i)

theorem blockSize_pos : 0 < g.info.blockSize := Nat.lt_of_lt_of_le (by decide) g.blockSize_ge

theorem groupSize_le (i : Nat) : groupSize g.info g.aux i ≤ g.info.blocksPerGroup := Nat.min_le_left _ _

/-- A block belongs to one group only. -/
theorem groupStart_add_le (h : i < j) :
    groupStart g.info g.aux i + g.info.blocksPerGroup ≤ groupStart g.info g.aux j := by
  have hmul : (i + 1) * g.info.blocksPerGroup ≤ j * g.info.blocksPerGroup := Nat.mul_le_mul_right _ h
  rw [Nat.succ_mul] at hmul
  rw [groupStart, groupStart]
  omega

end Geometry

/-! ### The sizes of an image of a given length -/

section Make

variable {len : Nat}

theorem divRoundUp_le {x y n : Nat} (h : x ≤ n * y) (hy : 0 < y) : divRoundUp x y ≤ n := by
  rw [divRoundUp, ← Nat.lt_succ_iff, Nat.div_lt_iff_lt_mul hy, Nat.succ_mul]
  omega

theorem le_divRoundUp_mul (x : Nat) {y : Nat} (hy : 0 < y) : x ≤ divRoundUp x y * y := by
  have hdiv := Nat.div_add_mod (x + y - 1) y
  have hmod := Nat.mod_lt (x + y - 1) hy
  rw [divRoundUp, Nat.mul_comm]
  omega

/-- What is rounded up ends in the same piece. -/
theorem pred_div_eq {x y : Nat} (hx : 0 < x) (hy : 0 < y) : (x - 1) / y = (divRoundUp x y * y - 1) / y := by
  have hround : divRoundUp x y = (x - 1) / y + 1 := by
    rw [divRoundUp, show x + y - 1 = x - 1 + y by omega, Nat.add_div_right _ hy]
  rw [hround]
  refine (Nat.div_eq_of_lt_le ?_ ?_).symm
  · rw [Nat.succ_mul]
    omega
  · rw [Nat.succ_mul]
    omega

theorem makeInfo_inodesPerGroup_le (len : Nat) : (makeInfo len).inodesPerGroup ≤ 8192 := by
  have hblocks := le_divRoundUp_mul (divRoundUp (len / 4096 * 4096) 4096) (y := 32768) (by decide)
  have hinodes : divRoundUp (divRoundUp (len / 4096 * 4096) 4096 / 4)
      (divRoundUp (divRoundUp (len / 4096 * 4096) 4096) 32768) ≤ 8192 := by
    rcases Nat.eq_zero_or_pos (divRoundUp (divRoundUp (len / 4096 * 4096) 4096) 32768) with hzero | hpos
    · rw [hzero, divRoundUp, Nat.div_zero]
      exact Nat.zero_le _
    · exact divRoundUp_le (by omega) hpos
  have halign : align (divRoundUp (divRoundUp (len / 4096 * 4096) 4096 / 4)
      (divRoundUp (divRoundUp (len / 4096 * 4096) 4096) 32768)) 16 ≤ 8192 := by
    rw [align, divRoundUp]
    omega
  exact halign

theorem bgDescReserveBlocks_le (len : Nat) : (makeInfo len).bgDescReserveBlocks ≤ 1024 := Nat.min_le_right _ _

theorem headerBlocks_le (len : Nat) {aux : AuxInfo} (i : Nat) (htable : aux.inodeTableBlocks ≤ 512)
    (hdesc : aux.bgDescBlocks ≤ 1024) :
    headerBlocks (makeInfo len) aux i ≤ 2563 := by
  have hreserve := bgDescReserveBlocks_le len
  rw [headerBlocks]
  split <;> omega

theorem inodeTableBlocks_createFsAuxInfo (info : Info) :
    (createFsAuxInfo info).inodeTableBlocks = divRoundUp (info.inodesPerGroup * info.inodeSize) info.blockSize := by
  unfold createFsAuxInfo
  dsimp only
  rw [apply_ite AuxInfo.inodeTableBlocks, ite_self]

/-- The last group has room for its header, or it has been cut off. -/
theorem createFsAuxInfo_cases (hmax : len ≤ 2 ^ 44 - 2 ^ 27) :
    ∃ lenBlocks groups inodeTableBlocks bgDescBlocks,
      createFsAuxInfo (makeInfo len) = ⟨0, lenBlocks, inodeTableBlocks, groups, bgDescBlocks⟩ ∧
      groups ≤ 2 ^ 17 - 1 ∧ inodeTableBlocks ≤ 512 ∧ bgDescBlocks ≤ 1024 ∧ lenBlocks ≤ groups * 32768 ∧
      (lenBlocks = groups * 32768 ∨
        (groups - 1) * 32768 + headerBlocks (makeInfo len) (createFsAuxInfo (makeInfo len))
        (groups - 1) ≤ lenBlocks) := by
  have hlen : (makeInfo len).len / (makeInfo len).blockSize = len / 4096 := Nat.mul_div_cancel _ (by decide)
  have hper : (makeInfo len).blocksPerGroup = 32768 := rfl
  have hfirst : (if (makeInfo len).blockSize > 1024 then 0 else 1) = 0 := rfl
  have hgroups : divRoundUp (len / 4096) 32768 ≤ 2 ^ 17 - 1 := divRoundUp_le (by omega) (by decide)
  have hpos : 0 < (makeInfo len).blockSize := show 0 < 4096 by decide
  have htable : divRoundUp ((makeInfo len).inodesPerGroup * (makeInfo len).inodeSize) (makeInfo len).blockSize ≤
      512 := by
    refine divRoundUp_le ?_ hpos
    change _ * 256 ≤ 512 * 4096
    have hle := makeInfo_inodesPerGroup_le len
    omega
  have hdesc : divRoundUp (divRoundUp (len / 4096) 32768 * sizeofGroupDesc) (makeInfo len).blockSize ≤ 1024 := by
    refine divRoundUp_le ?_ hpos
    change _ * 32 ≤ 1024 * 4096
    omega
  have hcover := le_divRoundUp_mul (len / 4096) (y := 32768) (by decide)
  have hmod := Nat.div_add_mod (len / 4096) 32768
  have hround : divRoundUp (len / 4096) 32768 = (len / 4096 + 32767) / 32768 := rfl
  unfold createFsAuxInfo
  simp only [hlen, hper, hfirst, Nat.sub_zero]
  split
  · rename_i hlast
    exact ⟨_, _, _, _, rfl, by omega, htable, hdesc, by omega, Or.inl (by omega)⟩
  · rename_i hlast
    refine ⟨_, _, _, _, rfl, hgroups, htable, hdesc, hcover, ?_⟩
    rw [not_and_or, not_lt] at hlast
    rcases hlast with hfull | hroom
    · exact Or.inl (by omega)
    · rcases Nat.eq_zero_or_pos (len / 4096 % 32768) with hzero | hsome
      · exact Or.inl (by omega)
      · refine Or.inr (Nat.le_trans (Nat.add_le_add_left (not_lt.mp hroom) _) ?_)
        omega

theorem makeInfo_inodesPerGroup_pos (hmin : 4 * 4096 ≤ len) : 0 < (makeInfo len).inodesPerGroup := by
  have hblocks : 4 ≤ divRoundUp (len / 4096 * 4096) 4096 := by
    rw [divRoundUp]
    omega
  have hgroups : 0 < divRoundUp (divRoundUp (len / 4096 * 4096) 4096) 32768 := Nat.div_pos (by omega) (by decide)
  have hinodes : 0 < divRoundUp (divRoundUp (len / 4096 * 4096) 4096 / 4)
      (divRoundUp (divRoundUp (len / 4096 * 4096) 4096) 32768) := Nat.div_pos (by omega) hgroups
  have halign : 0 < align (divRoundUp (divRoundUp (len / 4096 * 4096) 4096 / 4)
      (divRoundUp (divRoundUp (len / 4096 * 4096) 4096) 32768)) 16 := by
    rw [align, divRoundUp]
    omega
  exact halign

/-- **The sizes that are computed for a length are those of an image.** -/
def Geometry.make (len : Nat) (hmin : 4 * 4096 ≤ len) (hmax : len ≤ 2 ^ 44 - 2 ^ 27) : Geometry where
  info := makeInfo len
  aux := createFsAuxInfo (makeInfo len)
  blockSize_ge := show 1024 ≤ 4096 by decide
  blockSize_lt := show 4096 < 2 ^ 16 by decide
  blockSize_align := show 4096 % 4 = 0 by decide
  blocksPerGroup_le := show 4096 * 8 ≤ 8 * 4096 by decide
  blocksPerGroup_lt := show 4096 * 8 < 2 ^ 16 by decide
  inodesPerGroup_pos := makeInfo_inodesPerGroup_pos hmin
  inodesPerGroup_le := by
    have hle := makeInfo_inodesPerGroup_le len
    change _ ≤ 8 * 4096
    omega
  inodeTable_ge := by
    have hge := le_divRoundUp_mul ((makeInfo len).inodesPerGroup * 256) (y := 4096) (by decide)
    rw [inodeTableBlocks_createFsAuxInfo]
    change _ ≤ divRoundUp ((makeInfo len).inodesPerGroup * 256) 4096 * 4096 / 256
    omega
  inodes_lt := by
    obtain ⟨lenBlocks, groups, table, desc, haux, hgroups, -⟩ := createFsAuxInfo_cases hmax
    have hle := makeInfo_inodesPerGroup_le len
    rw [haux]
    calc groups * (makeInfo len).inodesPerGroup ≤ (2 ^ 17 - 1) * 8192 := Nat.mul_le_mul hgroups hle
      _ < 2 ^ 32 := by decide
  header_le := by
    intro i hi
    obtain ⟨lenBlocks, groups, table, desc, haux, hgroups, htable, hdesc, hcover, hlast⟩ := createFsAuxInfo_cases hmax
    rw [haux] at hi hlast ⊢
    have hheader : headerBlocks (makeInfo len) ⟨0, lenBlocks, table, groups, desc⟩ i ≤ 2563 :=
      headerBlocks_le len i htable hdesc
    have hmul : i * 32768 + 32768 ≤ groups * 32768 := by
      rw [← Nat.succ_mul]
      exact Nat.mul_le_mul_right _ hi
    change _ ≤ min 32768 (lenBlocks - (0 + i * 32768))
    dsimp only at hi
    rcases hlast with hfull | hroom
    · omega
    · by_cases hi' : i = groups - 1
      · rw [hi'] at hheader ⊢
        omega
      · have hbefore : i * 32768 + 32768 ≤ (groups - 1) * 32768 := by
          rw [← Nat.succ_mul]
          exact Nat.mul_le_mul_right _ (by omega)
        omega
  blocks_lt := by
    obtain ⟨lenBlocks, groups, table, desc, haux, hgroups, -⟩ := createFsAuxInfo_cases hmax
    rw [haux]
    change 0 + groups * 32768 < 2 ^ 32
    omega

end Make

end Goldfish.Ext4

import Goldfish.Ext4.Image

/-!
# Goldfish.Ext4.Extents

Giving an inode its blocks (`extent.c`), and finding them again.

`do_inode_allocate_extents` asks for one block more than the file has. If there are three
regions or less, their extents go into the inode and that block is given back; otherwise
the extents are written to it. `findBlock` is what a reader does with an inode. It finds the
blocks that have been allocated, in order, each with its part of what is copied
(`GivenExtents.attached`), and finds the same ones however the image grows
(`findBlock_append`).
-/

namespace Goldfish.Ext4

open Goldfish.Lib

/-- What is returned for a block that there is not. -/
def EXT4_ALLOCATE_FAILED : Nat := 2 ^ 32 - 1

/-- The loop that fills in the extents, over the regions that are left. -/
def fillExtents : List (Nat × Nat) → (fileBlock : Nat) → List Extent
  | [], _ => []
  | (regionBlock, regionLen) :: regions, fileBlock =>
    ⟨fileBlock, regionLen % 2 ^ 16, 0, regionBlock⟩ :: fillExtents regions ((fileBlock + regionLen) % 2 ^ 32)

/-- The block for the extents, or zero. -/
def takeExtentBlock (alloc : BlockAllocation) (bgs : List BlockGroup) :
    Except String (Nat × BlockAllocation × List BlockGroup) :=
  if blockAllocationNumRegions alloc ≤ 3 then do
    let (alloc, bgs) ← reduceAllocation 1 alloc bgs 1
    pure (0, alloc, bgs)
  else
    let alloc := (reserveOobBlocks alloc 1).2
    pure ((getOobBlock alloc 0).getD EXT4_ALLOCATE_FAILED, alloc, bgs)

/-- The fields of an inode with this many blocks. -/
def setBlocks (info : Info) (inode : Inode) (len blockLen : Nat) (iBlock : IBlock) : Inode :=
  let blocks := blockLen * info.blockSize / 512
  { inode with
    iBlock
    iFlags := inode.iFlags ||| EXT4_EXTENTS_FL
    iSizeLo := len % 2 ^ 32
    iSizeHigh := len / 2 ^ 32 % 2 ^ 32
    iBlocksLo := blocks % 2 ^ 32
    lIBlocksHigh := blocks / 2 ^ 32 % 2 ^ 16 }

/-- `do_inode_allocate_extents`. One block more is asked for, for the leaf; it is given back where no leaf is
needed. -/
def doInodeAllocateExtents (info : Info) (image : Image) (inode : Inode) (len : Nat) :
    Except String (BlockAllocation × Inode × Image) := do
  let blockLen := divRoundUp len info.blockSize % 2 ^ 32
  match ← allocateBlocks image.bgs ((blockLen + 1) % 2 ^ 32) with
  | none => .error s!"Failed to allocate {(blockLen + 1) % 2 ^ 32} blocks\n"
  | some (alloc, bgs) =>
    let allocationLen := blockAllocationNumRegions alloc
    let (extentBlock, alloc, bgs) ← takeExtentBlock alloc bgs
    let entries := fillExtents (remainingRegions alloc) 0
    if extentBlock = 0 then
      let hdr := ⟨EXT4_EXT_MAGIC, allocationLen % 2 ^ 16, 3, 0, 0⟩
      pure (rewindAlloc alloc, setBlocks info inode len blockLen (.extents hdr entries), { image with bgs })
    else if info.blockSize - sizeofExtent / sizeofExtent < allocationLen then
      .error s!"File size {len} is too big to fit in a single extent block\n"
    else
      let hdr := ⟨EXT4_EXT_MAGIC, allocationLen % 2 ^ 16, (info.blockSize - sizeofExtent) / sizeofExtent, 0, 0⟩
      let leaf : Chunk := ⟨.leaf hdr entries, 0, info.blockSize, extentBlock⟩
      let iBlock := .indices ⟨EXT4_EXT_MAGIC, 1, 3, 1, 0⟩ [⟨0, extentBlock, 0⟩]
      pure (rewindAlloc alloc, setBlocks info inode len ((blockLen + 1) % 2 ^ 32) iBlock,
        { image with bgs, chunks := image.chunks ++ [leaf] })

/-- The number of the buffer, unless there is none. -/
def inodeAllocateDataExtents (info : Info) (image : Image) (inode : Inode) (len backingLen : Nat) :
    Except String (Option Nat × Inode × Image) := do
  let (alloc, inode, image) ← doInodeAllocateExtents info image inode len
  if backingLen ≠ 0 then
    let (data, image) ← extentCreateBacking info image alloc backingLen
    pure (some data, inode, image)
  else pure (none, inode, image)

/-- `inode_allocate_file_extents`: blocks for a file of the host. -/
def inodeAllocateFileExtents (info : Info) (image : Image) (inode : Inode) (len : Nat) (filename : FileName) :
    Except String (Inode × Image) := do
  let (alloc, inode, image) ← doInodeAllocateExtents info image inode len
  let image ← extentCreateBackingFile info image alloc len filename
  pure (inode, image)

/-! ### A reader -/

section Reader

variable {α : Type}

/-- What is behind a header, if it is in order. -/
def readEntries (hdr : ExtentHeader) (depth room : Nat) (entries : List α) : Option (List α) :=
  if hdr.ehMagic = EXT4_EXT_MAGIC ∧ hdr.ehDepth = depth ∧ hdr.ehEntries ≤ hdr.ehMax ∧ hdr.ehMax ≤ room then
    some (entries.take hdr.ehEntries)
  else none

/-- The extents of a leaf. -/
def readLeaf (blockSize : Nat) (chunks : List Chunk) (idx : ExtentIdx) : Option (List Extent) :=
  match partAt blockSize chunks (idx.eiLeafHi * 2 ^ 32 + idx.eiLeafLo) with
  | some ⟨.leaf hdr entries, _, _⟩ => readEntries hdr 0 ((blockSize - sizeofExtent) / sizeofExtent) entries
  | _ => none

/-- The extents of an inode, over at most one level of leafs. -/
def readExtents (blockSize : Nat) (chunks : List Chunk) : IBlock → Option (List Extent)
  | .extents hdr entries => readEntries hdr 0 3 entries
  | .indices hdr entries => do
    let indices ← readEntries hdr 1 3 entries
    let leafs ← indices.mapM (readLeaf blockSize chunks)
    pure leafs.flatten
  | _ => none

/-- How many blocks an extent stands for. Above `EXT_INIT_MAX_LEN` the length says that it is not initialized. -/
def Extent.actualLen (e : Extent) : Nat := if e.eeLen ≤ EXT_INIT_MAX_LEN then e.eeLen else e.eeLen - EXT_INIT_MAX_LEN

/-- The block of a file, by its extents. An extent that is not initialized stands for zeros, not for its blocks. -/
def findExtent : List Extent → (fileBlock : Nat) → Option Nat
  | [], _ => none
  | e :: entries, fileBlock =>
    if e.eeBlock ≤ fileBlock ∧ fileBlock < e.eeBlock + e.actualLen then
      if e.eeLen ≤ EXT_INIT_MAX_LEN then some (e.eeStartHi * 2 ^ 32 + e.eeStartLo + (fileBlock - e.eeBlock)) else none
    else findExtent entries fileBlock

/-- The block of a file. -/
def findBlock (blockSize : Nat) (chunks : List Chunk) (inode : Inode) (fileBlock : Nat) : Option Nat :=
  if inode.iFlags &&& EXT4_EXTENTS_FL ≠ 0 then
    (readExtents blockSize chunks inode.iBlock).bind fun entries => findExtent entries fileBlock
  else
    match inode.iBlock with
    | .direct blocks => if fileBlock < EXT4_NDIR_BLOCKS then blocks[fileBlock]? else none
    | _ => none

end Reader

variable {g : Geometry} {bgs bgs' : List BlockGroup} {regs : List Region} {alloc alloc' : BlockAllocation}
  {image image' : Image} {inode inode' : Inode} {blockSize len b : Nat} {chunks more : List Chunk} {content : Content}

theorem readLeaf_append {idx : ExtentIdx} {entries : List Extent} (h : readLeaf blockSize chunks idx = some entries) :
    readLeaf blockSize (chunks ++ more) idx = some entries := by
  rw [readLeaf] at h ⊢
  cases hp : partAt blockSize chunks (idx.eiLeafHi * 2 ^ 32 + idx.eiLeafLo) with
  | none =>
    rw [hp] at h
    cases h
  | some p =>
    rw [hp] at h
    rwa [partAt_append hp]

theorem readExtents_append {iBlock : IBlock} {entries : List Extent}
    (h : readExtents blockSize chunks iBlock = some entries) :
    readExtents blockSize (chunks ++ more) iBlock = some entries := by
  cases iBlock with
  | extents hdr es => exact h
  | indices hdr es =>
    simp only [readExtents, Option.bind_eq_bind, Option.bind_eq_some_iff] at h ⊢
    obtain ⟨indices, hindices, leafs, hleafs, hentries⟩ := h
    refine ⟨indices, hindices, leafs, ?_, hentries⟩
    clear hindices hentries
    induction indices generalizing leafs with
    | nil => exact hleafs
    | cons idx indices ih =>
      simp only [List.mapM_cons, Option.bind_eq_bind, Option.bind_eq_some_iff] at hleafs ⊢
      obtain ⟨leaf, hleaf, rest, hrest, heq⟩ := hleafs
      exact ⟨leaf, readLeaf_append hleaf, rest, ih rest hrest, heq⟩
  | zeros => cases h
  | direct blocks => cases h
  | text bytes => cases h

/-- **A block that has been found stays where it is.** -/
theorem findBlock_append {k : Nat} (h : findBlock blockSize chunks inode k = some b) :
    findBlock blockSize (chunks ++ more) inode k = some b := by
  rw [findBlock] at h ⊢
  split
  · rename_i hflag
    rw [if_pos hflag, Option.bind_eq_some_iff] at h
    obtain ⟨entries, hentries, hfind⟩ := h
    rw [readExtents_append hentries, Option.bind_some, hfind]
  · rename_i hflag
    rwa [if_neg hflag] at h

/-- **The extents of some regions lead to their blocks.** -/
theorem findExtent_fillExtents {regions : List (Nat × Nat)} (hlens : ∀ r ∈ regions, r.2 ≤ EXT_INIT_MAX_LEN)
    {start : Nat} (htotal : start + (rangeBlocks regions).length < 2 ^ 32) (k : Nat) :
    findExtent (fillExtents regions start) (start + k) = (rangeBlocks regions)[k]? := by
  induction regions generalizing start k with
  | nil => rfl
  | cons r regions ih =>
    obtain ⟨block, regionLen⟩ := r
    have hlen : regionLen ≤ EXT_INIT_MAX_LEN := hlens (block, regionLen) List.mem_cons_self
    have hmax : EXT_INIT_MAX_LEN < 2 ^ 16 := by decide
    rw [rangeBlocks_cons, List.length_append, List.length_range'] at htotal
    rw [fillExtents, findExtent, rangeBlocks_cons]
    dsimp only
    rw [Nat.mod_eq_of_lt (Nat.lt_of_le_of_lt hlen hmax), Nat.mod_eq_of_lt (by omega), Extent.actualLen, if_pos hlen,
      if_pos hlen]
    dsimp only
    by_cases hk : k < regionLen
    · rw [if_pos ⟨Nat.le_add_right _ _, Nat.add_lt_add_left hk _⟩,
        List.getElem?_append_left (by rwa [List.length_range']), List.getElem?_range' hk, Nat.add_sub_cancel_left,
        Nat.zero_mul, Nat.zero_add, Nat.one_mul]
    · have hnext : start + k = start + regionLen + (k - regionLen) := by omega
      rw [if_neg (by omega), List.getElem?_append_right (by rw [List.length_range']; omega), List.length_range', hnext]
      exact ih (fun r hr => hlens r (List.mem_cons_of_mem _ hr)) (by omega) _

/-! ### The block for the extents -/

/-- The block of the leaf, if there is one. -/
def leafBlocks (leaf : Nat) : List Nat := if leaf = 0 then [] else [leaf]

/-- Of the blocks that have been taken these are the file's, and one may be there for the extents. -/
structure SetAside (g : Geometry) (bgs : List BlockGroup) (blockLen numRegions leaf : Nat) (alloc : BlockAllocation)
    (bgs' : List BlockGroup) : Prop where
  groupsOk : GroupsOk g bgs'
  takes : Takes (FreeIn g bgs) (FreeIn g bgs') (leafBlocks leaf ++ rangeBlocks (remainingRegions alloc))
  length : (rangeBlocks (remainingRegions alloc)).length = blockLen
  length_regions : (remainingRegions alloc).length = numRegions
  few : leaf = 0 → numRegions ≤ 3
  lens : ∀ r ∈ remainingRegions alloc, r.2 ≤ g.info.blocksPerGroup
  rewind : rewindAlloc alloc = alloc
  total : totalFree bgs ≤ totalFree bgs' + (blockLen + 1)
  inodeParts : inodeParts bgs' = inodeParts bgs

/-- What `get_region` goes through, at the beginning. -/
theorem remainingRegions_of_rewound (reg : Region) (regs : List Region) (last : Option Nat) (oobList : RegionList) :
    remainingRegions ⟨⟨reg :: regs, last, 0, 0⟩, oobList⟩ = (reg :: regs).map fun reg => (reg.block, reg.len) := rfl

theorem lens_of_rewound {reg reg' : Region} (hlens : ∀ r ∈ reg :: regs, r.len ≤ g.info.blocksPerGroup)
    (hle : reg'.len ≤ reg.len) (last : Option Nat) (oobList : RegionList) :
    ∀ r ∈ remainingRegions ⟨⟨reg' :: regs, last, 0, 0⟩, oobList⟩, r.2 ≤ g.info.blocksPerGroup := by
  intro r hr
  rw [remainingRegions_of_rewound] at hr
  obtain ⟨reg'', hreg'', rfl⟩ := List.mem_map.mp hr
  rcases List.mem_cons.mp hreg'' with rfl | hreg''
  · exact Nat.le_trans hle (hlens reg List.mem_cons_self)
  · exact hlens reg'' (List.mem_cons_of_mem _ hreg'')

theorem rangeBlocks_map (regs : List Region) :
    rangeBlocks (regs.map fun reg => (reg.block, reg.len)) = regionBlocks regs := by
  rw [rangeBlocks, List.flatMap_map]
  rfl

theorem freeIn_pos (hok : GroupsOk g bgs) (hfree : FreeIn g bgs b) : b ≠ 0 := by
  obtain ⟨i, bg, hbg, hge, -⟩ := (freeIn_iff hok).mp hfree
  have hheader := (hok.groups i bg hbg).header
  rw [headerBlocks] at hheader
  omega

/-- **Up to three regions**: the block is given back. -/
theorem takeExtentBlock_few {reg : Region} (hok : GroupsOk g bgs) (h : BestFits g bgs (len + 1) (reg :: regs) bgs')
    (htwo : 1 < reg.len) (hfew : regs.length < 3) :
    ∃ alloc bgs'', takeExtentBlock { createAllocation with list := .fresh (reg :: regs) } bgs' =
      .ok (0, alloc, bgs'') ∧
      SetAside g bgs len (regs.length + 1) 0 alloc bgs'' := by
  obtain ⟨bg, hbg, hblock, hmin, hbg', -⟩ := h.first
  have hok' := h.groupsOk hok
  have hle : reg.len ≤ bg.freeBlocks := by omega
  have hpos : 0 < reg.len := by omega
  have hgroup := hok.groups _ bg hbg
  have htotal := h.regionsLen_eq
  have hlast : reg.blocks = List.range' reg.block (reg.len - 1) ++ [reg.block + (reg.len - 1)] := by
    rw [Region.blocks, ← List.range'_1_concat, Nat.sub_add_cancel hpos]
  rw [regionsLen, List.map_cons, List.sum_cons, ← regionsLen] at htotal
  refine ⟨⟨⟨{ reg with len := reg.len - 1 } :: regs, some 0, 0, 0⟩, .empty⟩,
    bgs'.set reg.bg (freeBlocks (bg.take reg.len) 1), ?_,
    ⟨hok'.set (hgroup.giveBack hpos hle), ?_, ?_, ?_, fun _ => by omega, ?_, rfl, ?_, ?_⟩⟩
  · have hnum : blockAllocationNumRegions { createAllocation with list := .fresh (reg :: regs) } ≤ 3 := by
      change regs.length + 1 ≤ 3
      omega
    have hmodify : (bgs'.modify reg.bg fun bg => freeBlocks bg 1) = bgs'.set reg.bg (freeBlocks (bg.take reg.len) 1) :=
      modify_eq_set_of_getElem? hbg'
    rw [takeExtentBlock, if_pos hnum, reduceAllocation_one htwo, hmodify]
    rfl
  · have htakes := h.takes hok
    rw [regionBlocks_cons, hlast, List.append_assoc] at htakes
    have hperm : (List.range' reg.block (reg.len - 1) ++ ([reg.block + (reg.len - 1)] ++ regionBlocks regs)).Perm
        ((List.range' reg.block (reg.len - 1) ++ regionBlocks regs) ++ [reg.block + (reg.len - 1)]) := by
      rw [List.append_assoc]
      exact List.perm_append_comm.append_left _
    have hback : Takes (FreeIn g bgs) (FreeIn g (bgs'.set reg.bg (freeBlocks (bg.take reg.len) 1)))
        (List.range' reg.block (reg.len - 1) ++ regionBlocks regs) :=
      (htakes.perm hperm).giveBack fun b => by rw [freeIn_giveBack hok' hbg' hgroup hpos hle, hblock]
    rw [remainingRegions_of_rewound, rangeBlocks_map, regionBlocks_cons]
    exact hback
  · rw [remainingRegions_of_rewound, rangeBlocks_map, length_regionBlocks, regionsLen, List.map_cons,
      List.sum_cons, ← regionsLen]
    dsimp only
    omega
  · rw [remainingRegions_of_rewound, List.length_map]
    rfl
  · exact lens_of_rewound (h.len_le hok) (Nat.sub_le _ _) _ _
  · have hall := h.totalFree_eq
    have hback : (freeBlocks (bg.take reg.len) 1).freeBlocks = (bg.take reg.len).freeBlocks + 1 := rfl
    have hset : frees (bgs'.set reg.bg (freeBlocks (bg.take reg.len) 1)) =
        (frees bgs').set reg.bg ((bg.take reg.len).freeBlocks + 1) := List.map_set
    have hfrees : (frees bgs')[reg.bg]? = some (bg.take reg.len).freeBlocks := by
      rw [frees, List.getElem?_map, hbg', Option.map_some]
    have hnew : ((frees bgs').set reg.bg ((bg.take reg.len).freeBlocks + 1))[reg.bg]? =
        some ((bg.take reg.len).freeBlocks + 1) := by
      rw [List.getElem?_set, if_pos rfl, if_pos (List.getElem?_eq_some_iff.mp hfrees).1]
    have hsum := sum_eq_sum_set_sub hnew (n := 1) (by omega)
    rw [List.set_set, Nat.add_sub_cancel, ← hset] at hsum
    have hold := sum_eq_sum_set_sub hfrees (n := 0) (Nat.zero_le _)
    rw [Nat.sub_zero] at hold
    rw [totalFree] at hall ⊢
    rw [totalFree] at hall
    rw [totalFree]
    omega
  · have hsame : (freeBlocks (bg.take reg.len) 1).inodePart = (bg.take reg.len).inodePart := rfl
    exact (inodeParts_set hbg' hsame).trans h.inodeParts_eq

/-- **More regions**: the first block is set aside. -/
theorem takeExtentBlock_many {reg : Region} (hok : GroupsOk g bgs) (h : BestFits g bgs (len + 1) (reg :: regs) bgs')
    (htwo : 1 < reg.len) (hmany : ¬ regs.length < 3) :
    ∃ alloc, takeExtentBlock { createAllocation with list := .fresh (reg :: regs) } bgs' =
      .ok (reg.block, alloc, bgs') ∧
      reg.block ≠ 0 ∧ SetAside g bgs len (regs.length + 1) reg.block alloc bgs' := by
  have hpos : 0 < reg.len := by omega
  have htotal := h.regionsLen_eq
  have htakes := h.takes hok
  have hfirst : reg.blocks = reg.block :: List.range' (reg.block + 1) (reg.len - 1) := by
    rw [Region.blocks, ← List.range'_succ, Nat.sub_add_cancel hpos]
  rw [regionBlocks_cons, hfirst] at htakes
  have hne : reg.block ≠ 0 := freeIn_pos hok (htakes.wasFree _ (by simp))
  rw [regionsLen, List.map_cons, List.sum_cons, ← regionsLen] at htotal
  refine ⟨⟨⟨{ reg with block := reg.block + 1, len := reg.len - 1 } :: regs, none, 0, 0⟩,
    .fresh [{ reg with len := 1 }]⟩, ?_, hne, ⟨h.groupsOk hok, ?_, ?_, ?_, fun hzero => absurd hzero hne, ?_, rfl, by
      rw [h.totalFree_eq], h.inodeParts_eq⟩⟩
  · have hnum : ¬ blockAllocationNumRegions { createAllocation with list := .fresh (reg :: regs) } ≤ 3 := by
      change ¬ regs.length + 1 ≤ 3
      omega
    rw [takeExtentBlock, if_neg hnum, reserveOobBlocks_one htwo]
    rfl
  · rw [remainingRegions_of_rewound, rangeBlocks_map, regionBlocks_cons, leafBlocks, if_neg hne]
    exact htakes
  · rw [remainingRegions_of_rewound, rangeBlocks_map, length_regionBlocks, regionsLen, List.map_cons,
      List.sum_cons, ← regionsLen]
    dsimp only
    omega
  · rw [remainingRegions_of_rewound, List.length_map]
    rfl
  · exact lens_of_rewound (h.len_le hok) (Nat.sub_le _ _) _ _

theorem length_fillExtents (regions : List (Nat × Nat)) (start : Nat) :
    (fillExtents regions start).length = regions.length := by
  induction regions generalizing start with
  | nil => rfl
  | cons r regions ih => rw [fillExtents, List.length_cons, ih, List.length_cons]

/-! ### What an inode gets -/

theorem readEntries_ok {α : Type} {num depth ehMax room : Nat} {entries : List α} (hnum : entries.length = num)
    (hmax : num ≤ ehMax) (hroom : ehMax ≤ room) (hlt : num < 2 ^ 16) :
    readEntries ⟨EXT4_EXT_MAGIC, num % 2 ^ 16, ehMax, depth, 0⟩ depth room entries = some entries := by
  rw [readEntries, Nat.mod_eq_of_lt hlt, if_pos ⟨rfl, rfl, hmax, hroom⟩, ← hnum, List.take_length]

theorem or_extents_ne_zero (flags : BitVec 32) : (flags ||| EXT4_EXTENTS_FL) &&& EXT4_EXTENTS_FL ≠ 0 := by
  have habsorb : (flags ||| EXT4_EXTENTS_FL) &&& EXT4_EXTENTS_FL = EXT4_EXTENTS_FL := by
    ext i
    simp +contextual
  rw [habsorb]
  decide

/-- The blocks of an inode depend on two of its fields. -/
theorem findBlock_congr (hflags : inode'.iFlags &&& EXT4_EXTENTS_FL = inode.iFlags &&& EXT4_EXTENTS_FL)
    (hblock : inode'.iBlock = inode.iBlock) (k : Nat) :
    findBlock blockSize chunks inode' k = findBlock blockSize chunks inode k := by
  rw [findBlock, hflags, hblock, findBlock]

/-- The blocks that an inode has been given, and what has been queued for that. -/
structure GivenExtents (g : Geometry) (image : Image) (inode : Inode) (len : Nat) (alloc : BlockAllocation)
    (inode' : Inode) (image' : Image) : Prop where
  setAside : ∃ numRegions leaf leafChunks,
    SetAside g image.bgs (divRoundUp len g.info.blockSize) numRegions leaf alloc image'.bgs ∧
    image'.chunks = image.chunks ++ leafChunks ∧ leafChunks.length ≤ 1 ∧
    ∀ c ∈ leafChunks, ∀ b, c.covers g.info.blockSize b = true → b ∈ leafBlocks leaf
  buffers : image'.buffers = image.buffers
  inode : ∃ blockLen iBlock, inode' = setBlocks g.info inode len blockLen iBlock
  found : ∀ k, findBlock g.info.blockSize image'.chunks inode' k = (rangeBlocks (remainingRegions alloc))[k]?

/-- What there must be before blocks are taken: enough of them, and two in one group, so that the first region has
a block to spare. -/
structure Roomy (g : Geometry) (image : Image) (need : Nat) : Prop where
  groupsOk : GroupsOk g image.bgs
  owned : ChunksOwned g image.bgs image.chunks
  room : need ≤ totalFree image.bgs
  two : ∃ i, 2 ≤ freeOf image.bgs i

/-- With a block to spare for each group some group has two. -/
theorem Roomy.of_spare {need : Nat} (hok : GroupsOk g image.bgs) (howned : ChunksOwned g image.bgs image.chunks)
    (hpos : 0 < need) (hroom : g.aux.groups + need ≤ totalFree image.bgs) : Roomy g image need where
  groupsOk := hok
  owned := howned
  room := by omega
  two := exists_two_le_freeOf (by rw [hok.length]; omega)

/-- The extents of all the regions fit in one block, and an initialized extent is long enough for a group. -/
structure Geometry.ExtentsFit (g : Geometry) : Prop where
  groups : g.aux.groups ≤ (g.info.blockSize - sizeofExtent) / sizeofExtent
  blocks : g.info.blocksPerGroup ≤ EXT_INIT_MAX_LEN

theorem findBlock_setBlocks {blockLen : Nat} {iBlock : IBlock} {entries : List Extent} {regions : List (Nat × Nat)}
    (hread : readExtents blockSize chunks iBlock = some entries) (hentries : entries = fillExtents regions 0)
    (hlens : ∀ r ∈ regions, r.2 ≤ EXT_INIT_MAX_LEN) (htotal : (rangeBlocks regions).length < 2 ^ 32) (k : Nat) :
    findBlock blockSize chunks (setBlocks g.info inode len blockLen iBlock) k = (rangeBlocks regions)[k]? := by
  have hstart : 0 + (rangeBlocks regions).length < 2 ^ 32 := by omega
  have hfind := findExtent_fillExtents hlens hstart k
  rw [Nat.zero_add] at hfind
  have hflag : (setBlocks g.info inode len blockLen iBlock).iFlags &&& EXT4_EXTENTS_FL ≠ 0 :=
    or_extents_ne_zero inode.iFlags
  have hblock : (setBlocks g.info inode len blockLen iBlock).iBlock = iBlock := rfl
  rw [findBlock, if_pos hflag, hblock, hread, Option.bind_some, hentries, hfind]

/-- The extents are found again in the block that was set aside. -/
theorem readExtents_leaf {leaf : Nat} {hdr : ExtentHeader} {entries : List Extent} (howned : ChunksOwned g bgs chunks)
    (hleaf : FreeIn g bgs leaf)
    (hread : readEntries hdr 0 ((g.info.blockSize - sizeofExtent) / sizeofExtent) entries = some entries) :
    readExtents g.info.blockSize (chunks ++ [⟨.leaf hdr entries, 0, g.info.blockSize, leaf⟩])
      (.indices ⟨EXT4_EXT_MAGIC, 1, 3, 1, 0⟩ [⟨0, leaf, 0⟩]) = some entries := by
  have hcovers : Chunk.covers g.info.blockSize ⟨.leaf hdr entries, 0, g.info.blockSize, leaf⟩ leaf = true := by
    have hpos := (lt_divRoundUp (x := g.info.blockSize) (k := 0) g.blockSize_pos).mpr
      (by have := g.blockSize_pos; omega)
    exact covers_iff.mpr ⟨Nat.le_refl _, Nat.lt_add_of_pos_right hpos⟩
  have hleafs : readLeaf g.info.blockSize (chunks ++ [⟨.leaf hdr entries, 0, g.info.blockSize, leaf⟩]) ⟨0, leaf, 0⟩ =
      some entries := by
    rw [readLeaf]
    dsimp only
    rw [Nat.zero_mul, Nat.zero_add, partAt_new howned hleaf, partAt_cons, if_pos hcovers]
    exact hread
  have hroot : readEntries ⟨EXT4_EXT_MAGIC, 1, 3, 1, 0⟩ 1 3 [(⟨0, leaf, 0⟩ : ExtentIdx)] = some [⟨0, leaf, 0⟩] := rfl
  simp [readExtents, hroot, hleafs]

/-- **Giving an inode its blocks.** -/
theorem doInodeAllocateExtents_ok (hroomy : Roomy g image (divRoundUp len g.info.blockSize + 1))
    (hextents : g.ExtentsFit) (hpos : 0 < len) (hmax : divRoundUp len g.info.blockSize + 1 < 2 ^ 32) (inode : Inode) :
    ∃ alloc inode' image', doInodeAllocateExtents g.info image inode len = .ok (alloc, inode', image') ∧
      GivenExtents g image inode len alloc inode' image' := by
  obtain ⟨hok, howned, hfree, i, hi⟩ := hroomy
  have hbs := g.blockSize_pos
  have hn : 0 < divRoundUp len g.info.blockSize := (lt_divRoundUp hbs).mpr (by omega)
  rw [doInodeAllocateExtents]
  dsimp only
  rw [Nat.mod_eq_of_lt (show divRoundUp len g.info.blockSize < 2 ^ 32 by omega), Nat.mod_eq_of_lt hmax, allocateBlocks]
  generalize hblockLen : divRoundUp len g.info.blockSize = blockLen at hn hmax hfree ⊢
  obtain ⟨regs, bgs₁, hfit, hbest⟩ := allocateBestFit_ok hok hfree
  have hlens := hbest.regionsLen_eq
  obtain ⟨reg, regs, rfl⟩ : ∃ reg regs', regs = reg :: regs' := by
    cases regs with
    | nil => exact absurd hlens (by simp [regionsLen])
    | cons reg regs => exact ⟨reg, regs, rfl⟩
  have htwo := hbest.one_lt_first (by omega) hi
  have hcount : regs.length + 1 ≤ g.aux.groups := by
    have hle := hbest.length_le
    rwa [hok.length] at hle
  have hmaxExtents : regs.length + 1 ≤ (g.info.blockSize - sizeofExtent) / sizeofExtent :=
    Nat.le_trans hcount hextents.groups
  have hdiv : (g.info.blockSize - sizeofExtent) / sizeofExtent ≤ g.info.blockSize - sizeofExtent := Nat.div_le_self _ _
  have hsizeof : sizeofExtent = 12 := rfl
  have hlt : regs.length + 1 < 2 ^ 16 := by
    have hbslt := g.blockSize_lt
    omega
  rw [hfit, ok_bind]
  dsimp only
  rw [if_neg (by simp), pure_def, ok_bind]
  dsimp only
  by_cases hthree : regs.length < 3
  · obtain ⟨alloc', bgs', htake, haside⟩ := takeExtentBlock_few hok hbest htwo hthree
    rw [RegionList.fresh] at htake
    rw [htake, ok_bind]
    dsimp only
    rw [if_pos rfl, haside.rewind]
    refine ⟨_, _, _, rfl, ⟨_, 0, [], hblockLen ▸ haside, (List.append_nil _).symm, Nat.zero_le 1,
      fun _ hc => absurd hc List.not_mem_nil⟩, rfl, ⟨_, _, rfl⟩, fun k => ?_⟩
    refine findBlock_setBlocks ?_ rfl (fun r hr => Nat.le_trans (haside.lens r hr) hextents.blocks)
      (by rw [haside.length]; omega) k
    exact readEntries_ok (by rw [length_fillExtents, haside.length_regions]; rfl) (haside.few rfl) (Nat.le_refl 3) hlt
  · obtain ⟨alloc', htake, hne, haside⟩ := takeExtentBlock_many hok hbest htwo hthree
    have hnum : ¬ g.info.blockSize - sizeofExtent / sizeofExtent <
        blockAllocationNumRegions { createAllocation with list := .fresh (reg :: regs) } := by
      change ¬ g.info.blockSize - 1 < regs.length + 1
      omega
    rw [RegionList.fresh] at htake hnum
    rw [htake, ok_bind]
    dsimp only
    rw [if_neg hne, if_neg hnum, haside.rewind]
    have hleaf : FreeIn g image.bgs reg.block := by
      refine haside.takes.wasFree _ ?_
      rw [leafBlocks, if_neg hne]
      exact List.mem_append_left _ (List.mem_singleton_self _)
    refine ⟨_, _, _, rfl, ⟨_, reg.block, _, hblockLen ▸ haside, rfl, Nat.le_refl 1, fun c hc b hb => ?_⟩, rfl,
      ⟨_, _, rfl⟩, fun k => ?_⟩
    · have hone := divRoundUp_mul_self 1 hbs
      rw [Nat.one_mul] at hone
      rw [List.mem_singleton.mp hc, covers_iff] at hb
      dsimp only at hb
      rw [leafBlocks, if_neg hne, List.mem_singleton]
      omega
    · refine findBlock_setBlocks (readExtents_leaf howned hleaf ?_) rfl
        (fun r hr => Nat.le_trans (haside.lens r hr) hextents.blocks) (by rw [haside.length]; omega) k
      exact readEntries_ok (by rw [length_fillExtents, haside.length_regions]; rfl) hmaxExtents (Nat.le_refl _) hlt

/-! ### The blocks of a file and what they hold -/

/-- Every block of a file is found, and holds its part of the content. -/
def HoldsParts (blockSize : Nat) (chunks : List Chunk) (inode : Inode) (len : Nat) (content : Content) : Prop :=
  ∀ k, k * blockSize < len → ∃ b, findBlock blockSize chunks inode k = some b ∧
    partAt blockSize chunks b = some ⟨content, k * blockSize, min blockSize (len - k * blockSize)⟩

theorem HoldsParts.append (h : HoldsParts blockSize chunks inode len content) :
    HoldsParts blockSize (chunks ++ more) inode len content := by
  intro k hk
  obtain ⟨b, hb, hp⟩ := h k hk
  exact ⟨b, findBlock_append hb, partAt_append hp⟩

/-- Some blocks have been taken and some chunks queued on them. -/
structure Queued (g : Geometry) (image image' : Image) (blocks : Nat) : Prop where
  groupsOk : GroupsOk g image'.bgs
  owned : ChunksOwned g image'.bgs image'.chunks
  takes : ∃ taken, Takes (FreeIn g image.bgs) (FreeIn g image'.bgs) taken
  chunks : Queues g image image'
  total : totalFree image.bgs ≤ totalFree image'.bgs + blocks
  inodeParts : inodeParts image'.bgs = inodeParts image.bgs

/-- An inode with its content, and what has been queued for that. -/
structure Attached (g : Geometry) (image : Image) (inode : Inode) (len : Nat) (content : Content) (inode' : Inode)
    (image' : Image) : Prop where
  queued : Queued g image image' (divRoundUp len g.info.blockSize + 1)
  inode : ∃ blockLen iBlock, inode' = setBlocks g.info inode len blockLen iBlock
  parts : HoldsParts g.info.blockSize image'.chunks inode' len content

/-- **The content is queued on the blocks that the inode has been given.** -/
theorem GivenExtents.attached (h : GivenExtents g image inode len alloc inode' image')
    (howned : ChunksOwned g image.bgs image.chunks) (content : Content) (buffers : List (List UInt8)) :
    Attached g image inode len content inode' { image' with
      chunks := image'.chunks ++ backingChunks g.info.blockSize content (remainingRegions alloc) 0 len
      buffers := buffers } := by
  obtain ⟨numRegions, leaf, leafChunks, haside, hchunks, hone, hleaf⟩ := h.setAside
  have hbs := g.blockSize_pos
  obtain ⟨-, hnodup, hdisjoint⟩ := List.nodup_append'.mp haside.takes.nodup
  have htaken : ∀ c ∈ leafChunks ++ backingChunks g.info.blockSize content (remainingRegions alloc) 0 len, ∀ b,
      c.covers g.info.blockSize b = true → b ∈ leafBlocks leaf ++ rangeBlocks (remainingRegions alloc) := by
    intro c hc b hb
    rcases List.mem_append.mp hc with hc | hc
    · exact List.mem_append_left _ (hleaf c hc b hb)
    · exact List.mem_append_right _ (mem_rangeBlocks_of_covers hbs hc hb)
  refine ⟨⟨haside.groupsOk, ?_, ⟨_, haside.takes⟩, ⟨_, by rw [hchunks, List.append_assoc], fun c hc b hb => ?_⟩,
    haside.total, haside.inodeParts⟩, h.inode, fun k hk => ?_⟩
  · dsimp only
    rw [hchunks, List.append_assoc]
    refine howned.append haside.takes htaken ?_
    refine List.pairwise_append.mpr ⟨?_, apart_backingChunks hbs hnodup _ _, fun c hc c' hc' b hb hb' => ?_⟩
    · match leafChunks, hone with
      | [], _ => exact List.Pairwise.nil
      | [c], _ => exact List.pairwise_singleton _ _
    · exact hdisjoint (hleaf c hc b hb) (mem_rangeBlocks_of_covers hbs hc' hb')
  · exact haside.takes.wasFree b (htaken c hc b hb)
  · have hlt : k < (rangeBlocks (remainingRegions alloc)).length := by
      rw [haside.length]
      exact (lt_divRoundUp hbs).mpr hk
    obtain ⟨b, hb⟩ : ∃ b, (rangeBlocks (remainingRegions alloc))[k]? = some b := ⟨_, List.getElem?_eq_getElem hlt⟩
    have hmem := List.mem_of_getElem? hb
    refine ⟨b, findBlock_append (by rw [h.found, hb]), ?_⟩
    dsimp only
    rw [hchunks, List.append_assoc, partAt_new howned (haside.takes.wasFree b (List.mem_append_right _ hmem)),
      partAt_append_of_not_covers fun c hc hcovers => hdisjoint (hleaf c hc b hcovers) hmem,
      partAt_backingChunks hbs hnodup hb hk, Nat.zero_add]

/-- The regions are enough for the content. -/
theorem GivenExtents.not_runsOut (h : GivenExtents g image inode len alloc inode' image') :
    backingRunsOut g.info.blockSize (remainingRegions alloc) len = false := by
  obtain ⟨numRegions, leaf, leafChunks, haside, -⟩ := h.setAside
  refine backingRunsOut_eq_false ?_
  rw [haside.length]
  exact le_divRoundUp_mul len g.blockSize_pos

/-- **A buffer for the content of an inode.** -/
theorem inodeAllocateDataExtents_ok (hroomy : Roomy g image (divRoundUp len g.info.blockSize + 1))
    (hextents : g.ExtentsFit) (hpos : 0 < len) (hmax : divRoundUp len g.info.blockSize + 1 < 2 ^ 32) (inode : Inode) :
    ∃ inode' image', inodeAllocateDataExtents g.info image inode len len =
      .ok (some image.buffers.length, inode', image') ∧
      image'.buffers = image.buffers ++ [List.replicate len 0] ∧
      Attached g image inode len (.buffer image.buffers.length) inode' image' := by
  obtain ⟨alloc, inode₁, image₁, hdo, hgiven⟩ := doInodeAllocateExtents_ok hroomy hextents hpos hmax inode
  rw [inodeAllocateDataExtents, hdo, ok_bind]
  dsimp only
  rw [if_pos (by omega), extentCreateBacking, hgiven.not_runsOut, if_neg Bool.false_ne_true, hgiven.buffers]
  exact ⟨_, _, rfl, rfl, hgiven.attached hroomy.owned _ _⟩

/-- **A file for the content of an inode.** -/
theorem inodeAllocateFileExtents_ok (hroomy : Roomy g image (divRoundUp len g.info.blockSize + 1))
    (hextents : g.ExtentsFit) (hpos : 0 < len) (hmax : divRoundUp len g.info.blockSize + 1 < 2 ^ 32) (inode : Inode)
    (filename : FileName) :
    ∃ inode' image', inodeAllocateFileExtents g.info image inode len filename = .ok (inode', image') ∧
      image'.buffers = image.buffers ∧ Attached g image inode len (.file filename) inode' image' := by
  obtain ⟨alloc, inode₁, image₁, hdo, hgiven⟩ := doInodeAllocateExtents_ok hroomy hextents hpos hmax inode
  rw [inodeAllocateFileExtents, hdo, ok_bind]
  dsimp only
  rw [extentCreateBackingFile, hgiven.not_runsOut, if_neg Bool.false_ne_true]
  exact ⟨_, _, rfl, hgiven.buffers, hgiven.attached hroomy.owned _ _⟩

/-! ### No group with two free blocks -/

/-- A first region of one block is freed, if there are at most three, and the list is left empty. -/
theorem takeExtentBlock_whole_few {reg : Region} {regs : List Region} (hlen : reg.len = 1) (hfew : regs.length < 3)
    (bgs : List BlockGroup) :
    takeExtentBlock { createAllocation with list := .fresh (reg :: regs) } bgs =
      .ok (0, createAllocation, bgs.modify reg.bg fun bg => freeBlocks bg 1) := by
  have hnum : blockAllocationNumRegions { createAllocation with list := .fresh (reg :: regs) } ≤ 3 := by
    change regs.length + 1 ≤ 3
    omega
  rw [takeExtentBlock, if_pos hnum, reduceAllocation_whole _ hlen]
  rfl

/-- If there are more, it is all that is left in the list. -/
theorem takeExtentBlock_whole_many {reg : Region} {regs : List Region} (hlen : reg.len = 1) (hmany : ¬ regs.length < 3)
    (hpos : ∀ r ∈ regs, 0 < r.len) (bgs : List BlockGroup) :
    ∃ block oobList, takeExtentBlock { createAllocation with list := .fresh (reg :: regs) } bgs =
      .ok (block, ⟨.fresh [reg], oobList⟩, bgs) := by
  obtain ⟨reg', regs, rfl⟩ := List.exists_cons_of_length_pos (show 0 < regs.length by omega)
  have hnum : ¬ blockAllocationNumRegions { createAllocation with list := .fresh (reg :: reg' :: regs) } ≤ 3 := by
    change ¬ (reg' :: regs).length + 1 ≤ 3
    omega
  obtain ⟨oobList, hreserve⟩ := reserveOobBlocks_whole regs hlen (hpos reg' List.mem_cons_self)
  refine ⟨(getOobBlock ⟨.fresh [reg], oobList⟩ 0).getD EXT4_ALLOCATE_FAILED, oobList, ?_⟩
  rw [takeExtentBlock, if_neg hnum, hreserve]
  rfl

/-- **If no group has two free blocks**, the first region has one, and it is lost with what comes behind it. The
inode has fewer blocks than its content, or there is an error. -/
theorem doInodeAllocateExtents_lost (hok : GroupsOk g image.bgs) (hone : ∀ i, freeOf image.bgs i < 2) (hpos : 0 < len)
    (hmax : divRoundUp len g.info.blockSize + 1 < 2 ^ 32)
    (hfree : divRoundUp len g.info.blockSize + 1 ≤ totalFree image.bgs) (inode : Inode) :
    (∃ e, doInodeAllocateExtents g.info image inode len = .error e) ∨
      ∃ alloc inode' image', doInodeAllocateExtents g.info image inode len = .ok (alloc, inode', image') ∧
        (rangeBlocks (remainingRegions alloc)).length * g.info.blockSize < len := by
  have hn : 0 < divRoundUp len g.info.blockSize := (lt_divRoundUp g.blockSize_pos).mpr (by omega)
  have hmany (k : Nat) (hk : k < divRoundUp len g.info.blockSize) : k * g.info.blockSize < len :=
    (lt_divRoundUp g.blockSize_pos).mp hk
  rw [doInodeAllocateExtents]
  dsimp only
  rw [Nat.mod_eq_of_lt (show divRoundUp len g.info.blockSize < 2 ^ 32 by omega), Nat.mod_eq_of_lt hmax, allocateBlocks]
  generalize divRoundUp len g.info.blockSize = blockLen at hn hmax hfree hmany ⊢
  obtain ⟨regs, bgs₁, hfit, hbest⟩ := allocateBestFit_ok hok hfree
  have hlens := hbest.regionsLen_eq
  have hregs := hbest.pos
  obtain ⟨reg, regs, rfl⟩ : ∃ reg regs', regs = reg :: regs' := by
    cases regs with
    | nil => exact absurd hlens (by simp [regionsLen])
    | cons reg regs => exact ⟨reg, regs, rfl⟩
  have hlen : reg.len = 1 := by
    obtain ⟨bg, hbg, -, hmin, -⟩ := hbest.first
    have hle := hone reg.bg
    have hge := hregs reg List.mem_cons_self
    rw [freeOf_eq hbg] at hle
    omega
  rw [hfit, ok_bind]
  dsimp only
  rw [if_neg (by simp), pure_def, ok_bind]
  dsimp only
  by_cases hthree : regs.length < 3
  · -- the list is empty: nothing is left of the file
    have htake := takeExtentBlock_whole_few hlen hthree bgs₁
    rw [RegionList.fresh] at htake
    rw [htake, ok_bind]
    dsimp only
    rw [if_pos rfl]
    exact Or.inr ⟨_, _, _, rfl,
      by rw [show remainingRegions (rewindAlloc createAllocation) = [] from rfl]; simpa [rangeBlocks]⟩
  · -- the first region is all that is left in the list
    have hpos' : ∀ r ∈ regs, 0 < r.len := fun r hr => hregs r (List.mem_cons_of_mem _ hr)
    obtain ⟨block, oobList, htake⟩ := takeExtentBlock_whole_many hlen hthree hpos' bgs₁
    have hleft : (rangeBlocks (remainingRegions (rewindAlloc ⟨.fresh [reg], oobList⟩))).length = 1 := by
      rw [show remainingRegions (rewindAlloc ⟨.fresh [reg], oobList⟩) = [(reg.block, reg.len)] from rfl, hlen]
      rfl
    have hsum : regs.length ≤ (regs.map Region.len).sum := by
      rw [← List.length_map Region.len]
      exact List.length_le_sum_of_one_le _ (List.forall_mem_map.mpr hpos')
    have hshort : (rangeBlocks (remainingRegions (rewindAlloc ⟨.fresh [reg], oobList⟩))).length * g.info.blockSize <
        len := by
      rw [hleft]
      refine hmany 1 ?_
      rw [regionsLen, List.map_cons, List.sum_cons] at hlens
      omega
    rw [RegionList.fresh] at htake
    rw [htake, ok_bind]
    dsimp only
    split
    · exact Or.inr ⟨_, _, _, rfl, hshort⟩
    · split
      · exact Or.inl ⟨_, rfl⟩
      · exact Or.inr ⟨_, _, _, rfl, hshort⟩

/-- So there is no file: the loop that queues its content runs out of regions. -/
theorem inodeAllocateFileExtents_error (hok : GroupsOk g image.bgs) (hpos : 0 < len)
    (hmax : divRoundUp len g.info.blockSize + 1 < 2 ^ 32)
    (h : ¬ (divRoundUp len g.info.blockSize + 1 ≤ totalFree image.bgs ∧ ∃ i, 2 ≤ freeOf image.bgs i)) (inode : Inode)
    (filename : FileName) : ∃ e, inodeAllocateFileExtents g.info image inode len filename = .error e := by
  rw [inodeAllocateFileExtents]
  by_cases hfree : divRoundUp len g.info.blockSize + 1 ≤ totalFree image.bgs
  · have hone : ∀ i, freeOf image.bgs i < 2 := fun i => Nat.lt_of_not_le fun htwo => h ⟨hfree, i, htwo⟩
    rcases doInodeAllocateExtents_lost hok hone hpos hmax hfree inode with ⟨e, herror⟩ |
      ⟨alloc, inode', image', hdo, hshort⟩
    · exact ⟨e, bind_eq_error.mpr (Or.inl herror)⟩
    · rw [hdo, ok_bind]
      dsimp only
      rw [extentCreateBackingFile, if_pos ((backingRunsOut_iff _ _ _).mpr hshort)]
      exact ⟨_, rfl⟩
  · obtain ⟨e, herror⟩ := allocateBestFit_error hok (Nat.lt_of_not_le hfree)
    have hblocks : allocateBlocks image.bgs (divRoundUp len g.info.blockSize + 1) = .error e :=
      bind_eq_error.mpr (Or.inl herror)
    have hdo : doInodeAllocateExtents g.info image inode len = .error e := by
      rw [doInodeAllocateExtents]
      dsimp only
      rw [Nat.mod_eq_of_lt (show divRoundUp len g.info.blockSize < 2 ^ 32 by omega), Nat.mod_eq_of_lt hmax]
      exact bind_eq_error.mpr (Or.inl hblocks)
    exact ⟨e, bind_eq_error.mpr (Or.inl hdo)⟩

end Goldfish.Ext4

import Goldfish.Ext4.ReadBack

/-!
# Goldfish.Ext4.Filesystem

A whole image (`make_ext4fs_internal`): the allocator, the inodes that are reserved, the
journal, the blocks that are kept for resizing, and then the directory with everything
below it.

What is queued for a directory on the host can be read back (`readImage_makeExt4fs`), and so can the journal
(`readContent_journal`). The blocks that are kept for resizing have slots of their own only in large images
(`resizeSlot_make_iff`).
-/

namespace Goldfish.Ext4

open Goldfish.Lib

/-- The position of the double-indirect block among the blocks of an inode. -/
def EXT4_DIND_BLOCK : Nat := 13

/-- The magic number of a journal. -/
def JBD2_MAGIC_NUMBER : Nat := 0xc03b3998

/-- The block type of its superblock. -/
def JBD2_SUPERBLOCK_V2 : Nat := 4

/-- `htonl`. -/
def toBE (width n : Nat) : List UInt8 := (toLE width n).reverse

/-! ### The journal -/

/-- `journal_superblock_t` up to `s_nr_users`. -/
def journalSuperblock (info : Info) : List UInt8 :=
  toBE 4 JBD2_MAGIC_NUMBER ++ toBE 4 JBD2_SUPERBLOCK_V2 ++ toBE 4 0 ++ toBE 4 info.blockSize ++
    toBE 4 info.journalBlocks ++ toBE 4 1 ++
    toBE 4 1 ++ List.replicate 36 0 ++ toBE 4 1

/-- `create_journal_inode`: the journal has a superblock and is empty. -/
def createJournalInode (info : Info) (aux : AuxInfo) (image : Image) : Except String Image := do
  let (inode, bgs) := getInode info aux image.bgs EXT4_JOURNAL_INO
  let len := info.journalBlocks * info.blockSize % 2 ^ 32
  match ← inodeAllocateDataExtents info { image with bgs } inode len len with
  | (none, _, _) => .error "failed to allocate extents for journal data"
  | (some data, inode, image) =>
    let inode := { inode with iMode := S_IFREG ||| 0o600#16, iLinksCount := 1 }
    pure { image with
      bgs := putInode info image.bgs EXT4_JOURNAL_INO inode
      buffers := image.buffers.modify data fun bytes => overwrite bytes 0 (journalSuperblock info) }

/-! ### The blocks for resizing -/

/-- Only the first region gets to the list, which is ended behind it. -/
def appendOobAllocation (alloc : BlockAllocation) (bgs : List BlockGroup) (len : Nat) :
    Except String (BlockAllocation × List BlockGroup) := do
  match ← allocateBestFit bgs len with
  | ([], _) => .error s!"failed to allocate {len} blocks"
  | (reg :: _, bgs) => pure ({ alloc with oobList := regionListAppend alloc.oobList reg }, bgs)

/-- The `r` of the loop of `inode_attach_resize`: the difference is unsigned, so it is never negative. -/
def resizeSlot (info : Info) (aux : AuxInfo) (i : Nat) : Nat :=
  (i + 2 ^ 32 - aux.bgDescBlocks) % 2 ^ 32 % info.bgDescReserveBlocks

/-- Where `inode_attach_resize` writes, in the order in which it does so: `dind_block_data`. -/
def resizeDindData (info : Info) (aux : AuxInfo) (alloc : BlockAllocation) : List UInt8 :=
  (List.range info.bgDescReserveBlocks).foldl
    (fun data i => overwrite data (4 * i)
      (toLE 4 ((getBlock alloc (resizeSlot info aux i)).getD EXT4_ALLOCATE_FAILED)))
    (List.replicate info.blockSize 0)

/-- The same for `ind_block_data`. -/
def resizeIndData (info : Info) (aux : AuxInfo) (alloc : BlockAllocation) (superblocks : Nat) : List UInt8 :=
  (List.range info.bgDescReserveBlocks).foldl
    (fun data i =>
      (List.range' 1 (superblocks - 1)).foldl
        (fun data j => overwrite data (4 * (resizeSlot info aux i * (info.blockSize / 4) + j - 1))
          (toLE 4 ((getBlock alloc (j * info.bgDescReserveBlocks + resizeSlot info aux i)).getD EXT4_ALLOCATE_FAILED)))
        data)
    (List.replicate (info.blockSize * info.bgDescReserveBlocks) 0)

/-- `inode_attach_resize`: the reserved blocks are reached over a double-indirect block. -/
def inodeAttachResize (info : Info) (aux : AuxInfo) (image : Image) (inode : Inode) (alloc : BlockAllocation) :
    Except String (Inode × Image) := do
  let blockLen := blockAllocationLen alloc
  let superblocks := blockLen / info.bgDescReserveBlocks
  if blockLen % info.bgDescReserveBlocks ≠ 0 then
    .error s!"reserved blocks not a multiple of {info.bgDescReserveBlocks}"
  else do
    let (alloc, bgs) ← appendOobAllocation alloc image.bgs 1
    let dindBlock := (getOobBlock alloc 0).getD EXT4_ALLOCATE_FAILED
    let indBlock := (getBlock alloc 0).getD EXT4_ALLOCATE_FAILED
    let lastBlock :=
      EXT4_NDIR_BLOCKS + info.blockSize / 4 + info.blockSize / 4 * (info.bgDescReserveBlocks - 1) + superblocks - 2
    let blocks := (blockLen + 1) * info.blockSize / 512
    let size := lastBlock * info.blockSize
    pure ({ inode with
        iBlock := .direct (List.replicate EXT4_DIND_BLOCK 0 ++ [dindBlock])
        iFlags := 0
        iBlocksLo := blocks % 2 ^ 32
        lIBlocksHigh := blocks / 2 ^ 32 % 2 ^ 16
        iSizeLo := size % 2 ^ 32
        iSizeHigh := size / 2 ^ 32 },
      { bgs
        chunks := image.chunks ++
          [⟨.buffer image.buffers.length, 0, info.blockSize, dindBlock⟩,
            ⟨.buffer (image.buffers.length + 1), 0, info.blockSize * info.bgDescReserveBlocks, indBlock⟩]
        buffers := image.buffers ++ [resizeDindData info aux alloc, resizeIndData info aux alloc superblocks] })

/-- The blocks that are kept behind the descriptors of each group that has them. -/
def reservedRegions (info : Info) (aux : AuxInfo) : BlockAllocation :=
  ((List.range aux.groups).filter fun i => bgHasSuperBlock info i).foldl
    (fun alloc i => appendRegion alloc (groupStart info aux i + 1 + aux.bgDescBlocks) info.bgDescReserveBlocks i)
      createAllocation

/-- `create_resize_inode`. -/
def createResizeInode (info : Info) (aux : AuxInfo) (image : Image) : Except String Image := do
  let (inode, bgs) := getInode info aux image.bgs EXT4_RESIZE_INO
  let (inode, image) ← inodeAttachResize info aux { image with bgs } inode (reservedRegions info aux)
  let inode := { inode with iMode := S_IFREG ||| 0o600#16, iLinksCount := 1 }
  pure { image with bgs := putInode info image.bgs EXT4_RESIZE_INO inode }

/-! ### The image -/

/-- The first ten inodes of the first group. -/
def reserveFirstInodes (image : Image) : Except String Image :=
  match (image.bgs[0]?).bind fun bg => reserveInodes bg 10 with
  | none => .error "failed to reserve first 10 inodes"
  | some (_, bg) => .ok { image with bgs := image.bgs.set 0 bg }

/-- There is a journal unless it is to have no blocks. -/
def createJournal (info : Info) (aux : AuxInfo) (image : Image) : Except String Image :=
  if info.journalBlocks ≠ 0 then createJournalInode info aux image else .ok image

/-- From a directory of the host with what is in it, or without one. -/
def buildRoot (info : Info) (aux : AuxInfo) (image : Image) (directory : Option (FileName × Dentries))
    (mountpoint : FileName) :
    Except String (Nat × Image) :=
  match directory with
  | some (fullPath, entries) => buildDirectoryStructure info aux image fullPath mountpoint 0 entries
  | none => buildDefaultDirectoryStructure info aux image

/-- `make_ext4fs_internal`, once the sizes are known. -/
def makeExt4fs (info : Info) (aux : AuxInfo) (directory : Option (FileName × Dentries)) (mountpoint : FileName) :
    Except String Image := do
  let image ← Image.init info aux
  let image ← reserveFirstInodes image
  let image ← createJournal info aux image
  let image ← createResizeInode info aux image
  let (rootInode, image) ← buildRoot info aux image directory mountpoint
  pure (inodeSetPermissions info aux image rootInode 0o755 0 0 0)

/-- A reader that starts at the root directory. -/
def readImage (host : FileName → List UInt8) (info : Info) (image : Image) (fuel : Nat) :
    Option (Attributes × Listing) := do
  let inode ← readInode info image.bgs EXT4_ROOT_INO
  if inode.iMode &&& S_IFMT = S_IFDIR then do
    let entries ← readEntriesOf host info image inode EXT4_ROOT_INO EXT4_ROOT_INO
    let listing ← readTree host info image fuel EXT4_ROOT_INO entries
    pure (attributes [] inode, listing)
  else none

/-! ### The start -/

/-- How many blocks an image has for data. -/
def Geometry.dataLen (g : Geometry) : Nat :=
  ((List.range g.aux.groups).map fun i => groupSize g.info g.aux i - headerBlocks g.info g.aux i).sum

variable {g : Geometry} {image image' : Image} {inode : Inode} {bgs : List BlockGroup} {bg : BlockGroup} {i n b : Nat}

theorem InitialGroup.inodePartOk (h : InitialGroup g i bg) : InodePartOk g bg.inodePart := by
  refine ⟨?_, ?_, ?_, fun j _ => ?_, ?_, fun table htable => ?_⟩
  · change bg.inodeBitmap.length = _
    rw [h.inodeBitmap, List.length_replicate]
  · change 0 < bg.firstFreeInode
    rw [h.firstFreeInode]
    exact Nat.one_pos
  · change bg.firstFreeInode ≤ _
    rw [h.firstFreeInode]
    exact Nat.le_add_left _ _
  · change Bitmap.bitAt bg.inodeBitmap j = decide (j + 1 < bg.firstFreeInode)
    rw [h.inodeBitmap, h.firstFreeInode, Bitmap.bitAt_zeros]
    exact (decide_eq_false (by omega)).symm
  · change bg.freeInodes = _ - bg.firstFreeInode
    rw [h.freeInodes, h.firstFreeInode, Nat.add_sub_cancel]
  · exact absurd (h.inodeTable.symm.trans htable) (by simp)

/-- Some number of each group, added up. -/
theorem map_eq_map_range {f : BlockGroup → Nat} {h : Nat → Nat} (hlength : bgs.length = n)
    (hall : ∀ i bg, bgs[i]? = some bg → f bg = h i) :
    bgs.map f = (List.range n).map h := by
  refine List.ext_getElem? fun i => ?_
  rw [List.getElem?_map, List.getElem?_map]
  rcases Nat.lt_or_ge i n with hlt | hge
  · rw [List.getElem?_range hlt, List.getElem?_eq_getElem (hlength ▸ hlt), Option.map_some, Option.map_some,
      hall i _ (List.getElem?_eq_getElem (hlength ▸ hlt))]
  · rw [List.getElem?_eq_none (hlength ▸ hge), List.getElem?_eq_none (by rwa [List.length_range]), Option.map_none,
      Option.map_none]

/-- The groups as `block_allocator_init` leaves them. -/
structure Initial (g : Geometry) (bgs : List BlockGroup) : Prop where
  all : ∀ i bg, bgs[i]? = some bg → InitialGroup g i bg
  groupsOk : GroupsOk g bgs
  inodesOk : InodesOk g bgs
  total : totalFree bgs = g.dataLen
  totalInodes : totalFreeInodes bgs = g.aux.groups * g.info.inodesPerGroup

theorem initial_ok (g : Geometry) : ∃ bgs, blockAllocatorInit g.info g.aux = .ok bgs ∧ Initial g bgs := by
  obtain ⟨bgs, hinit, hlength, hall⟩ := blockAllocatorInit_ok g
  refine ⟨bgs, hinit, hall, ⟨hlength, fun i bg hbg => (hall i bg hbg).toGroupOk⟩, ⟨hlength, fun p hp => ?_⟩, ?_, ?_⟩
  · obtain ⟨bg, hbg, rfl⟩ := List.mem_map.mp hp
    obtain ⟨i, hi⟩ := List.mem_iff_getElem?.mp hbg
    exact (hall i bg hi).inodePartOk
  · rw [totalFree, frees, map_eq_map_range hlength fun i bg hi => (hall i bg hi).free_all, Geometry.dataLen]
  · have hmap : bgs.map (InodePart.freeInodes ∘ BlockGroup.inodePart) = (List.range g.aux.groups).map fun _ =>
      g.info.inodesPerGroup :=
      map_eq_map_range hlength fun i bg hi => (hall i bg hi).freeInodes
    rw [totalFreeInodes, inodeParts, List.map_map, hmap, List.map_const', List.sum_replicate_nat, List.length_range]

/-- The image when the first inodes have been reserved. -/
structure Started (g : Geometry) (image : Image) : Prop where
  ok : ImageOk g image
  chunks : image.chunks = []
  buffers : image.buffers = []
  total : totalFree image.bgs = g.dataLen
  totalInodes : totalFreeInodes image.bgs + 10 = g.aux.groups * g.info.inodesPerGroup
  fresh : ∀ n, 0 < n → n ≤ 10 → Fresh g image.bgs n

/-- **An image can be started**, if there is room for the inodes that are reserved. -/
theorem start_ok (hgroups : 0 < g.aux.groups) (hinodes : 10 ≤ g.info.inodesPerGroup) :
    ∃ image₀ image, Image.init g.info g.aux = .ok image₀ ∧ reserveFirstInodes image₀ = .ok image ∧
      Started g image := by
  obtain ⟨bgs, hinit, h⟩ := initial_ok g
  obtain ⟨bg, hbg⟩ : ∃ bg, bgs[0]? = some bg := ⟨_, List.getElem?_eq_getElem (h.groupsOk.length ▸ hgroups)⟩
  have hinitial := h.all 0 bg hbg
  have hreserve : reserveInodes bg 10 = some (1, bg.reserveInodes 10) := by
    rw [reserveInodes, if_neg (by rw [hinitial.freeInodes]; omega), hinitial.firstFreeInode, BlockGroup.reserveInodes,
      hinitial.firstFreeInode]
  have hreserves := reserves_of_reserveInodes (g := g) hbg hreserve
  have hblocks := hreserves.blockParts_eq
  have howned : ChunksOwned g bgs [] := ⟨fun _ hc => absurd hc List.not_mem_nil, List.Pairwise.nil⟩
  refine ⟨⟨bgs, [], []⟩, ⟨bgs.set 0 (bg.reserveInodes 10), [], []⟩, ?_, ?_, ?_⟩
  · rw [Image.init, hinit]
    rfl
  · rw [reserveFirstInodes]
    dsimp only
    rw [hbg, Option.bind_some, hreserve]
  · have hok : ImageOk g ⟨bgs, [], []⟩ := ⟨h.groupsOk, h.inodesOk, howned⟩
    refine ⟨hok.withInodes hblocks (hreserves.inodesOk h.inodesOk), rfl, rfl, ?_, ?_, fun n hpos hn => ?_⟩
    · exact (totalFree_of_blockParts hblocks).trans h.total
    · exact hreserves.totalFreeInodes_eq.symm.trans h.totalInodes
    · have hfresh := (hreserves.fresh h.inodesOk (k := n - 1) (by omega)).2
      rwa [Nat.zero_mul, Nat.zero_add, Nat.add_sub_cancel' hpos] at hfresh

/-! ### The journal -/

/-- **The journal** is the content of its inode. -/
theorem createJournalInode_ok (hok : ImageOk g image) (hextents : g.ExtentsFit)
    (hfresh : Fresh g image.bgs EXT4_JOURNAL_INO) (hjournal : 0 < g.info.journalBlocks)
    (hlt : g.info.journalBlocks * g.info.blockSize < 2 ^ 32)
    (hroom : g.aux.groups + (g.info.journalBlocks + 1) ≤ totalFree image.bgs) :
    ∃ inode image', createJournalInode g.info g.aux image = .ok image' ∧
      Makes g image EXT4_JOURNAL_INO inode image' (g.info.journalBlocks + 1) ∧
      image'.buffers = image.buffers ++
        [overwrite (List.replicate (g.info.journalBlocks * g.info.blockSize) 0) 0 (journalSuperblock g.info)] ∧
      inode.size = g.info.journalBlocks * g.info.blockSize ∧
      HoldsParts g.info.blockSize image'.chunks inode (g.info.journalBlocks * g.info.blockSize)
        (.buffer image.buffers.length) := by
  have hbs := g.blockSize_pos
  have hpos : 0 < g.info.journalBlocks * g.info.blockSize := Nat.mul_pos hjournal hbs
  have hdiv := divRoundUp_mul_self g.info.journalBlocks hbs
  have hle : g.info.journalBlocks * 1024 ≤ g.info.journalBlocks * g.info.blockSize :=
    Nat.mul_le_mul_left _ g.blockSize_ge
  obtain ⟨hzero, hgot⟩ := hfresh.got hok
  have htotal := totalFree_of_blockParts hgot.blocks
  have hroomy : Roomy g { image with bgs := (getInode g.info g.aux image.bgs EXT4_JOURNAL_INO).2 }
      (divRoundUp (g.info.journalBlocks * g.info.blockSize) g.info.blockSize + 1) :=
    .of_spare hgot.ok.groups hgot.ok.owned (Nat.succ_pos _) (by rw [hdiv]; dsimp only; omega)
  obtain ⟨inode₁, image₁, hattach, hbuffers, hattached⟩ :=
    inodeAllocateDataExtents_ok hroomy hextents hpos (by omega) Inode.zero
  have hqueued := hattached.queued
  rw [hdiv] at hqueued
  rw [createJournalInode]
  dsimp only
  rw [Nat.mod_eq_of_lt hlt, hzero, hattach, ok_bind]
  dsimp only
  have hmodify :
      image₁.buffers.modify image.buffers.length (fun bytes => overwrite bytes 0 (journalSuperblock g.info)) =
      image.buffers ++
        [overwrite (List.replicate (g.info.journalBlocks * g.info.blockSize) 0) 0 (journalSuperblock g.info)] := by
    rw [hbuffers, modify_length_append]
  rw [hmodify]
  exact ⟨_, _, rfl, hgot.makes hqueued _ _, rfl, hattached.size_eq (by omega), hattached.parts.congr rfl rfl⟩

/-! ### The blocks for resizing -/

/-- The blocks that may hold data. -/
def Geometry.IsData (g : Geometry) (b : Nat) : Prop := ∃ i, i < g.aux.groups ∧ b ∈ g.dataBlocks i

/-- No header has a block for data. -/
theorem not_isData_of_header (hi : i < g.aux.groups) (hge : groupStart g.info g.aux i ≤ b)
    (hlt : b < groupStart g.info g.aux i + headerBlocks g.info g.aux i) : ¬ g.IsData b := by
  rintro ⟨j, hj, hmem⟩
  rw [Geometry.dataBlocks, List.mem_range'_1] at hmem
  have hheader := g.header_le i hi
  have hheader' := g.header_le j hj
  have hsize := g.groupSize_le i
  have hsize' := g.groupSize_le j
  rcases Nat.lt_trichotomy i j with hlt' | rfl | hgt
  · have hstart := g.groupStart_add_le hlt'
    omega
  · omega
  · have hstart := g.groupStart_add_le hgt
    omega

theorem FreeIn.isData (hok : GroupsOk g bgs) (h : FreeIn g bgs b) : g.IsData b := by
  obtain ⟨i, bg, hbg, hmem, -⟩ := h
  exact ⟨i, hok.length ▸ (List.getElem?_eq_some_iff.mp hbg).1, hmem⟩

/-- A chunk in a header, where so far all chunks are on blocks for data. -/
theorem ChunksOwned.append_header {chunks : List Chunk} {c : Chunk} (h : ChunksOwned g bgs chunks)
    (hok : GroupsOk g bgs) (hdata : ∀ c ∈ chunks, ∀ b, c.covers g.info.blockSize b = true → g.IsData b)
    (hheader : ∀ b, c.covers g.info.blockSize b = true → ¬ g.IsData b) : ChunksOwned g bgs (chunks ++ [c]) := by
  refine ⟨fun c' hc' b hb hfree => ?_,
    List.pairwise_append.mpr ⟨h.apart, List.pairwise_singleton _ _, fun c' hc' c'' hc'' b hb hb' => ?_⟩⟩
  · rcases List.mem_append.mp hc' with hc' | hc'
    · exact h.owned c' hc' b hb hfree
    · obtain rfl := List.mem_singleton.mp hc'
      exact hheader b hb (hfree.isData hok)
  · obtain rfl := List.mem_singleton.mp hc''
    exact hheader b hb' (hdata c' hc' b hb)

theorem bgHasSuperBlock_zero (info : Info) : bgHasSuperBlock info 0 = true := by
  rw [bgHasSuperBlock]
  split <;> rfl

/-- Regions that are appended one after another. -/
theorem foldl_appendRegion (start : Nat → Nat) (len : Nat) (is : List Nat) {alloc : BlockAllocation}
    (hiter : alloc.list.iter = 0) (hnoPartial : alloc.list.partialIter = 0) (hoob : alloc.oobList = .empty) :
    ∃ last, is.foldl (fun alloc i => appendRegion alloc (start i) len i) alloc =
      ⟨⟨alloc.list.regions ++ is.map fun i => ⟨start i, len, i⟩, last, 0, 0⟩, .empty⟩ := by
  induction is generalizing alloc with
  | nil =>
    obtain ⟨⟨regions, last, iter, partialIter⟩, oob⟩ := alloc
    dsimp only at hiter hnoPartial hoob
    subst hiter hnoPartial hoob
    exact ⟨last, by rw [List.foldl_nil, List.map_nil, List.append_nil]⟩
  | cons i is ih =>
    have hlist : (appendRegion alloc (start i) len i).list.regions = alloc.list.regions ++ [⟨start i, len, i⟩] ∧
        (appendRegion alloc (start i) len i).list.iter = 0 ∧
        (appendRegion alloc (start i) len i).list.partialIter = 0 := by
      rw [appendRegion, regionListAppend]
      split
      · rename_i hempty
        rw [List.isEmpty_iff.mp hempty]
        exact ⟨rfl, rfl, rfl⟩
      · exact ⟨rfl, hiter, hnoPartial⟩
    obtain ⟨last, hrest⟩ := ih hlist.2.1 hlist.2.2 hoob
    refine ⟨last, ?_⟩
    rw [List.foldl_cons, hrest, hlist.1, List.map_cons, List.append_assoc]
    rfl

/-- **Every block that is kept for resizing has a slot of its own**, if no difference of the loop wraps around or
all of them do, or if a difference that wraps around has the same remainder. -/
theorem resizeSlot_injective_iff (info : Info) (aux : AuxInfo) (hdesc : aux.bgDescBlocks < 2 ^ 32)
    (hreserve : info.bgDescReserveBlocks < 2 ^ 32) :
    (∀ i j, i < info.bgDescReserveBlocks → j < info.bgDescReserveBlocks →
      resizeSlot info aux i = resizeSlot info aux j → i = j) ↔
      aux.bgDescBlocks = 0 ∨ info.bgDescReserveBlocks ≤ aux.bgDescBlocks ∨ info.bgDescReserveBlocks ∣ 2 ^ 32 := by
  simp only [resizeSlot]
  generalize aux.bgDescBlocks = desc at hdesc ⊢
  generalize info.bgDescReserveBlocks = reserve at hreserve ⊢
  have hbefore : ∀ i, i < desc → (i + 2 ^ 32 - desc) % 2 ^ 32 = 2 ^ 32 - desc + i := fun i hi => by
    rw [Nat.mod_eq_of_lt (by omega)]
    omega
  have hbehind : ∀ i, desc ≤ i → i < reserve → (i + 2 ^ 32 - desc) % 2 ^ 32 = i - desc := fun i hle hi => by
    rw [Nat.sub_add_comm hle, Nat.add_mod_right, Nat.mod_eq_of_lt (by omega)]
  have hcancel : ∀ i j, i < reserve → j < reserve → (2 ^ 32 - desc + i) % reserve = (2 ^ 32 - desc + j) % reserve →
      i = j := fun i j hi hj h => by
    have hmod := Nat.ModEq.add_left_cancel' _ h
    rwa [Nat.ModEq, Nat.mod_eq_of_lt hi, Nat.mod_eq_of_lt hj] at hmod
  constructor
  · intro hinj
    by_contra hnot
    obtain ⟨hpos, hlt, hdvd⟩ : desc ≠ 0 ∧ ¬ reserve ≤ desc ∧ ¬ reserve ∣ 2 ^ 32 := by rwa [not_or, not_or] at hnot
    have hrest : 2 ^ 32 % reserve ≠ 0 := fun h => hdvd (Nat.dvd_of_mod_eq_zero h)
    have hmod := Nat.mod_lt (2 ^ 32) (show 0 < reserve by omega)
    have hdiv := Nat.div_add_mod (2 ^ 32) reserve
    generalize 2 ^ 32 % reserve = rest at hrest hmod hdiv
    -- what wraps around starts at this remainder, and meets what does not
    rcases Nat.lt_or_ge rest desc with hless | hge
    · have hsame := hinj (desc - rest) desc (by omega) (by omega) (by
        rw [hbefore _ (by omega), hbehind desc (Nat.le_refl _) (by omega), Nat.sub_self, Nat.zero_mod,
          show 2 ^ 32 - desc + (desc - rest) = reserve * (2 ^ 32 / reserve) by omega, Nat.mul_mod_right])
      omega
    · have hsame := hinj 0 rest (by omega) hmod (by
        rw [hbefore _ (by omega), hbehind rest hge hmod, show 2 ^ 32 - desc + 0 =
          reserve * (2 ^ 32 / reserve) + (rest - desc) by omega, Nat.mul_add_mod])
      omega
  · rintro (rfl | hle | hdvd) i j hi hj h
    · rw [hbehind i (Nat.zero_le _) hi, hbehind j (Nat.zero_le _) hj, Nat.sub_zero, Nat.sub_zero, Nat.mod_eq_of_lt hi,
        Nat.mod_eq_of_lt hj] at h
      exact h
    · rw [hbefore i (by omega), hbefore j (by omega)] at h
      exact hcancel i j hi hj h
    · rw [Nat.mod_mod_of_dvd _ hdvd, Nat.mod_mod_of_dvd _ hdvd, show i + 2 ^ 32 - desc = 2 ^ 32 - desc + i by omega,
        show j + 2 ^ 32 - desc = 2 ^ 32 - desc + j by omega] at h
      exact hcancel i j hi hj h

theorem bgDescBlocks_createFsAuxInfo (info : Info) :
    (createFsAuxInfo info).bgDescBlocks =
      divRoundUp (divRoundUp (info.len / info.blockSize - if info.blockSize > 1024 then 0 else 1)
        info.blocksPerGroup * sizeofGroupDesc)
        info.blockSize := by
  unfold createFsAuxInfo
  dsimp only
  rw [apply_ite AuxInfo.bgDescBlocks, ite_self]

/-- **With the sizes that are computed for an image**, two blocks get the same slot unless the image has more than
128 groups. -/
theorem resizeSlot_make_iff {len : Nat} (hmin : 4 * 4096 ≤ len) (hmax : len ≤ 2 ^ 44 - 2 ^ 27) :
    (∀ i j, i < (makeInfo len).bgDescReserveBlocks → j < (makeInfo len).bgDescReserveBlocks →
      resizeSlot (makeInfo len) (createFsAuxInfo (makeInfo len)) i =
        resizeSlot (makeInfo len) (createFsAuxInfo (makeInfo len)) j → i = j) ↔
      2 ^ 34 + 4096 ≤ len := by
  have hlen : (makeInfo len).len / (makeInfo len).blockSize = len / 4096 := Nat.mul_div_cancel _ (by decide)
  have hblocks : divRoundUp (len / 4096 * 4096) 4096 = len / 4096 := divRoundUp_mul_self _ (by decide)
  have hdesc : (createFsAuxInfo (makeInfo len)).bgDescBlocks =
      (divRoundUp (len / 4096) 32768 * 32 + 4096 - 1) / 4096 := by
    rw [bgDescBlocks_createFsAuxInfo, hlen]
    rfl
  have hreserve : (makeInfo len).bgDescReserveBlocks =
      min ((divRoundUp (len / 4096) 32768 * 1024 * 32 + 4096 - 1) / 4096 -
        (divRoundUp (len / 4096) 32768 * 32 + 4096 - 1) / 4096) 1024 := by
    rw [← hblocks]
    rfl
  have hgroups : divRoundUp (len / 4096) 32768 = (len / 4096 + 32768 - 1) / 32768 := rfl
  rw [resizeSlot_injective_iff _ _ (by omega) (by omega), hdesc, hreserve]
  generalize divRoundUp (len / 4096) 32768 = groups at hgroups ⊢
  constructor
  · rintro (hzero | hle | hdvd)
    · omega
    · omega
    · by_contra hlt
      have hone : (groups * 32 + 4096 - 1) / 4096 = 1 := by omega
      have height : (groups * 1024 * 32 + 4096 - 1) / 4096 = 8 * groups := by omega
      rw [hone, height, Nat.min_eq_left (by omega)] at hdvd
      -- there is an odd number of blocks
      have hodd : Nat.Coprime 2 (8 * groups - 1) := by
        rw [Nat.Coprime, Nat.gcd_rec, show (8 * groups - 1) % 2 = 1 by omega, Nat.gcd_one_left]
      have heq := Nat.Coprime.eq_one_of_dvd (hodd.symm.pow_right 32) hdvd
      omega
  · intro hge
    rw [Nat.min_eq_right (by omega)]
    exact Or.inr (Or.inr (by decide))

/-- In an image of 16 MiB. -/
theorem resizeSlot_small :
    ¬ ∀ i j, i < (makeInfo (16 * 2 ^ 20)).bgDescReserveBlocks → j < (makeInfo (16 * 2 ^ 20)).bgDescReserveBlocks →
      resizeSlot (makeInfo (16 * 2 ^ 20)) (createFsAuxInfo (makeInfo (16 * 2 ^ 20))) i =
        resizeSlot (makeInfo (16 * 2 ^ 20)) (createFsAuxInfo (makeInfo (16 * 2 ^ 20))) j → i = j :=
  fun h => absurd ((resizeSlot_make_iff (by decide) (by decide)).mp h) (by decide)

/-- The first of the groups has such blocks. -/
theorem reservedRegions_eq (hgroups : 0 < g.aux.groups) :
    ∃ regs last, reservedRegions g.info g.aux =
        ⟨⟨⟨groupStart g.info g.aux 0 + 1 + g.aux.bgDescBlocks, g.info.bgDescReserveBlocks, 0⟩ :: regs, last, 0, 0⟩,
          .empty⟩ ∧
      ∀ reg ∈ regs, reg.len = g.info.bgDescReserveBlocks := by
  obtain ⟨groups, hgroups'⟩ : ∃ k, g.aux.groups = k + 1 := ⟨g.aux.groups - 1, by omega⟩
  have hiter : createAllocation.list.iter = 0 := rfl
  obtain ⟨last, hfold⟩ :=
    foldl_appendRegion (fun i => groupStart g.info g.aux i + 1 + g.aux.bgDescBlocks) g.info.bgDescReserveBlocks
    ((List.range g.aux.groups).filter fun i => bgHasSuperBlock g.info i) hiter rfl rfl
  have hrange : (List.range g.aux.groups).filter (fun i => bgHasSuperBlock g.info i) =
      0 :: ((List.range groups).map Nat.succ).filter fun i => bgHasSuperBlock g.info i := by
    rw [hgroups', List.range_succ_eq_map, List.filter_cons_of_pos (bgHasSuperBlock_zero g.info)]
  refine ⟨_, last, by rw [reservedRegions, hfold, hrange, List.map_cons]; rfl, fun reg hreg => ?_⟩
  obtain ⟨i, -, rfl⟩ := List.mem_map.mp hreg
  rfl

theorem regionsLen_of_len {regs : List Region} {len : Nat} (h : ∀ reg ∈ regs, reg.len = len) :
    regionsLen regs = regs.length * len := by
  rw [regionsLen, List.map_congr_left h, List.map_const', List.sum_replicate_nat]

/-- What there is when the tree is about to be built. -/
structure Prepared (g : Geometry) (image image' : Image) : Prop where
  ok : ImageOk g image'
  fresh : ∀ m, m ≠ EXT4_RESIZE_INO → Fresh g image.bgs m → Fresh g image'.bgs m
  others : ∀ m i, 0 < m → m ≠ EXT4_RESIZE_INO → readInode g.info image.bgs m = some i →
    readInode g.info image'.bgs m = some i
  takes : ∃ taken, Takes (FreeIn g image.bgs) (FreeIn g image'.bgs) taken
  chunks : ∃ c c', image'.chunks = image.chunks ++ [c, c'] ∧
    (∀ b, c.covers g.info.blockSize b = true → FreeIn g image.bgs b) ∧
    ∀ b, c'.covers g.info.blockSize b = true → groupStart g.info g.aux 0 + 1 + g.aux.bgDescBlocks ≤ b ∧
      b < groupStart g.info g.aux 0 + 1 + g.aux.bgDescBlocks + g.info.bgDescReserveBlocks
  buffers : ∃ more, image'.buffers = image.buffers ++ more
  total : totalFree image.bgs = totalFree image'.bgs + 1
  totalInodes : totalFreeInodes image'.bgs = totalFreeInodes image.bgs

/-- **The inode for resizing** takes one block more, besides those that are kept for it. -/
theorem createResizeInode_ok (hok : ImageOk g image) (hfresh : Fresh g image.bgs EXT4_RESIZE_INO)
    (hgroups : 0 < g.aux.groups) (hreserve : 0 < g.info.bgDescReserveBlocks) (hroom : 1 ≤ totalFree image.bgs)
    (hdata : ∀ c ∈ image.chunks, ∀ b, c.covers g.info.blockSize b = true → g.IsData b) :
    ∃ image', createResizeInode g.info g.aux image = .ok image' ∧ Prepared g image image' := by
  have hbs := g.blockSize_pos
  obtain ⟨hzero, hgot⟩ := hfresh.got hok
  have htotal := totalFree_of_blockParts hgot.blocks
  obtain ⟨reg, bgs, hfit, hlen, hok', htakes, htotal', hinodeParts⟩ :=
    allocateBestFit_one hgot.ok.groups (by dsimp only; omega)
  dsimp only at hfit hok' htakes htotal' hinodeParts
  obtain ⟨regs, last, hreserved, hlens⟩ := reservedRegions_eq hgroups
  have hblockLen : blockAllocationLen (reservedRegions g.info g.aux) % g.info.bgDescReserveBlocks = 0 := by
    rw [hreserved, blockAllocationLen]
    dsimp only
    rw [regionsLen, List.map_cons, List.sum_cons, ← regionsLen, regionsLen_of_len hlens, Nat.add_mod_left,
      Nat.mul_mod_left]
  have happend : appendOobAllocation (reservedRegions g.info g.aux) (getInode g.info g.aux image.bgs EXT4_RESIZE_INO).2
      1 =
      .ok ({ reservedRegions g.info g.aux with oobList := .fresh [reg] }, bgs) := by
    rw [appendOobAllocation, hfit, ok_bind]
    dsimp only
    rw [hreserved]
    rfl
  have hoob : getOobBlock { reservedRegions g.info g.aux with oobList := .fresh [reg] } 0 = some reg.block := by
    rw [getOobBlock, RegionList.getBlock_fresh, regionBlocks_singleton hlen]
    rfl
  have hind : getBlock { reservedRegions g.info g.aux with oobList := .fresh [reg] } 0 =
      some (groupStart g.info g.aux 0 + 1 + g.aux.bgDescBlocks) := by
    rw [hreserved]
    simp [getBlock, RegionList.getBlock, nthBlock, hreserve]
  rw [createResizeInode]
  dsimp only
  rw [hzero, inodeAttachResize]
  dsimp only
  rw [if_neg (by omega), happend, ok_bind]
  dsimp only
  rw [hoob, hind, Option.getD_some, Option.getD_some, pure_def, ok_bind]
  have hone := divRoundUp_mul_self 1 hbs
  rw [Nat.one_mul] at hone
  have hreserveLen := divRoundUp_mul_self g.info.bgDescReserveBlocks hbs
  rw [Nat.mul_comm] at hreserveLen
  have hheader : headerBlocks g.info g.aux 0 =
      2 + g.aux.inodeTableBlocks + (1 + g.aux.bgDescBlocks + g.info.bgDescReserveBlocks) := by
    rw [headerBlocks, if_pos (bgHasSuperBlock_zero g.info)]
  have hfree : FreeIn g (getInode g.info g.aux image.bgs EXT4_RESIZE_INO).2 = FreeIn g image.bgs :=
    freeIn_of_blockParts hgot.blocks
  rw [hfree] at htakes
  have hcovers : ∀ b, Chunk.covers g.info.blockSize ⟨.buffer image.buffers.length, 0, g.info.blockSize, reg.block⟩ b =
      true →
      b ∈ [reg.block] := by
    intro b hb
    rw [covers_iff] at hb
    dsimp only at hb
    rw [List.mem_singleton]
    omega
  have hcovers' : ∀ b, Chunk.covers g.info.blockSize ⟨.buffer (image.buffers.length + 1), 0,
        g.info.blockSize * g.info.bgDescReserveBlocks, groupStart g.info g.aux 0 + 1 + g.aux.bgDescBlocks⟩ b = true →
      groupStart g.info g.aux 0 + 1 + g.aux.bgDescBlocks ≤ b ∧
        b < groupStart g.info g.aux 0 + 1 + g.aux.bgDescBlocks + g.info.bgDescReserveBlocks := by
    intro b hb
    rw [covers_iff] at hb
    dsimp only at hb
    omega
  have howned : ChunksOwned g bgs (image.chunks ++ [⟨.buffer image.buffers.length, 0, g.info.blockSize, reg.block⟩]) :=
    hok.owned.append htakes (fun c hc => by rw [List.mem_singleton.mp hc]; exact hcovers) (List.pairwise_singleton _ _)
  have howned' := howned.append_header hok'
    (c := ⟨.buffer (image.buffers.length + 1), 0, g.info.blockSize * g.info.bgDescReserveBlocks,
      groupStart g.info g.aux 0 + 1 + g.aux.bgDescBlocks⟩) (fun c hc b hb => ?_) (fun b hb => ?_)
  · rw [List.append_assoc, List.singleton_append] at howned'
    have hinodes : InodesOk g bgs := hgot.ok.inodes.of_inodeParts hok'.length hinodeParts
    have hread : readInode g.info bgs EXT4_RESIZE_INO = some Inode.zero :=
      (readInode_of_inodeParts hinodeParts).trans hgot.read
    refine ⟨_, rfl, ?_⟩
    generalize hinode : Inode.mk (S_IFREG ||| 0o600#16) Inode.zero.iUid _ _ _ _ _ _ _ _ _ _ _ = inode
    have hok₁ : ImageOk g ⟨bgs, image.chunks ++ [⟨.buffer image.buffers.length, 0, g.info.blockSize, reg.block⟩,
        ⟨.buffer (image.buffers.length + 1), 0, g.info.blockSize * g.info.bgDescReserveBlocks,
          groupStart g.info g.aux 0 + 1 + g.aux.bgDescBlocks⟩], image.buffers⟩ := ⟨hok', hinodes, howned'⟩
    have hblocks := blockParts_putInode g.info bgs EXT4_RESIZE_INO inode
    refine ⟨hok₁.withInodes hblocks (hinodes.putInode hread), fun m hne hm => ?_, fun m i hm hne hi => ?_, ?_,
      ⟨_, _, rfl, fun b hb => htakes.wasFree b (hcovers b hb), hcovers'⟩, ⟨_, rfl⟩, ?_, ?_⟩
    · exact ((hgot.fresh m hm).of_inodeParts hinodeParts).of_putInode hgot.pos hne
    · exact readInode_putInode_ne hm hgot.pos hne ((readInode_of_inodeParts hinodeParts).trans (hgot.others m i hi))
    · dsimp only
      rw [freeIn_of_blockParts hblocks]
      exact ⟨_, htakes⟩
    · dsimp only
      rw [totalFree_of_blockParts hblocks]
      omega
    · dsimp only
      rw [totalFreeInodes_putInode, totalFreeInodes, hinodeParts]
      exact hgot.totalInodes
  · rcases List.mem_append.mp hc with hc | hc
    · exact hdata c hc b hb
    · rw [List.mem_singleton.mp hc] at hb
      exact (htakes.wasFree b (hcovers b hb)).isData hok.groups
  · have hin := hcovers' b hb
    exact not_isData_of_header hgroups (by omega) (by omega)

/-! ### The tree -/

/-- The attributes of the root directory. -/
def rootAttributes (tree : Dentries) : Attributes :=
  ⟨[], S_IFDIR ||| 0o755#16, 0, 0, BitVec.ofNat 16 (tree.dirs + 2), 0, 0, 0⟩

/-- What there is when the tree has been built. -/
structure Rooted (g : Geometry) (image : Image) (tree : Dentries) (fullPath : FileName) (image' : Image) : Prop where
  ok : ImageOk g image'
  root : ∃ inode data before es old lo, readInode g.info image'.bgs EXT4_ROOT_INO = some inode ∧
    attributes [] inode = rootAttributes tree ∧
    HoldsDir g.info.blockSize image' inode EXT4_ROOT_INO EXT4_ROOT_INO data before es ∧
    HoldsEntries g image' old lo tree fullPath EXT4_ROOT_INO es
  others : ∀ m i, 0 < m → m ≠ EXT4_ROOT_INO → readInode g.info image.bgs m = some i →
    readInode g.info image'.bgs m = some i
  chunks : Queues g image image'
  buffers : ∀ (id : Nat) (bytes : List UInt8), image.buffers[id]? = some bytes → image'.buffers[id]? = some bytes

/-- **The root directory and everything below it.** -/
theorem buildRoot_ok (hok : ImageOk g image) (hextents : g.ExtentsFit) (hfresh : Fresh g image.bgs EXT4_ROOT_INO)
    {entries : Dentries} (hroot : DirOk g.info.blockSize entries.withLostAndFound.names)
    (htree : entries.withLostAndFound.Ok g.info.blockSize)
    (hroom : g.aux.groups + (dirBlocks g.info.blockSize (entries.withLostAndFound.names.map Prod.fst) + 1 +
      entries.withLostAndFound.blocks g.info.blockSize) ≤ totalFree image.bgs)
    (hinodes : entries.withLostAndFound.inodes ≤ totalFreeInodes image.bgs) (fullPath mountpoint : FileName) :
    ∃ built, buildDirectoryStructure g.info g.aux image fullPath mountpoint 0 entries = .ok (EXT4_ROOT_INO, built) ∧
      Rooted g image entries.withLostAndFound fullPath
        (inodeSetPermissions g.info g.aux built EXT4_ROOT_INO 0o755 0 0 0) := by
  rw [buildDirectoryStructure]
  dsimp only
  rw [if_pos rfl, makeDirectory, if_neg (by decide)]
  generalize entries.withLostAndFound = tree at *
  have hrootNum : EXT4_ROOT_INO < 2 ^ 32 := by decide
  obtain ⟨before, news, inode, made, hmake, hmakes, hbuffers, hdir, hkeys, hmode, hlinks⟩ :=
    makeDirectoryAt_ok hok hextents hfresh (by decide) tree.dirs hrootNum hroot (by omega)
  have htotal := hmakes.total
  have htotalInodes := hmakes.totalInodes
  have hlength : image.buffers.length + 1 ≤ made.buffers.length := by
    rw [hbuffers, List.length_append]; exact Nat.le_refl _
  obtain ⟨built, es, hbuild, hbuilt⟩ := buildEntries_ok hextents (Nat.lt_succ_self image.buffers.length)
    ⟨hmakes.ok, hlength, hmakes.pos, by decide, hdir.buffer, hdir.chain, hkeys, htree, by omega, by omega⟩
      fullPath mountpoint
  have hread := hbuilt.keeps.others EXT4_ROOT_INO inode hmakes.pos hmakes.read
  obtain ⟨hset, hchunks, hsetBuffers⟩ := inodeSetPermissions_ok hbuilt.keeps.ok hmakes.pos hread 0o755 0 0 0
  have hcarries : Carries g (fun m => m ≠ EXT4_ROOT_INO) (fun _ => True) built
      (inodeSetPermissions g.info g.aux built EXT4_ROOT_INO 0o755 0 0 0) :=
    ⟨hset.others, hset.chunks.exists_chunks, fun id bytes _ hbytes => by rw [hsetBuffers, hbytes]⟩
  rw [hmake, ok_bind, pure_def, ok_bind]
  dsimp only
  rw [hbuild, ok_bind]
  refine ⟨built, rfl, hset.ok,
    ⟨_, _, before, es, _, _, hset.read, ?_, (hdir.built hbuilt).withPermissions.carry hcarries trivial,
    hbuilt.holds.carry hcarries ?_ (fun _ _ => trivial) (fun _ => id) (Nat.le_refl _)⟩, fun m i hm hne hi => ?_, ?_,
    fun id bytes hbytes => ?_⟩
  · rw [rootAttributes, ← hmode, ← hlinks]
    rfl
  · rintro m hm rfl
    exact hm ⟨hmakes.pos, inode, hmakes.read⟩
  · exact hset.others m i hm hne (hbuilt.keeps.others m i hm (hmakes.others m i hm hne hi))
  · have htakes : ∃ taken, Takes (FreeIn g image.bgs) (FreeIn g built.bgs) taken := by
      obtain ⟨taken, htaken⟩ := hmakes.takes
      obtain ⟨taken', htaken'⟩ := hbuilt.keeps.takes
      exact ⟨_, htaken.append htaken'⟩
    exact (hmakes.chunks.trans hmakes.takes hbuilt.keeps.chunks).trans htakes hset.chunks
  · have hlt := (List.getElem?_eq_some_iff.mp hbytes).1
    rw [hsetBuffers]
    refine hbuilt.keeps.buffers id bytes (Nat.ne_of_lt hlt) ?_
    rw [hbuffers, List.getElem?_append_left hlt, hbytes]

/-- The default directories are those of an empty directory on the host. -/
theorem buildDefaultDirectoryStructure_eq (image : Image) (fullPath dirPath : FileName) (hok : ImageOk g image)
    (hextents : g.ExtentsFit) (hfresh : Fresh g image.bgs EXT4_ROOT_INO)
    (hroot : DirOk g.info.blockSize Dentries.nil.withLostAndFound.names)
    (hroom : g.aux.groups + (dirBlocks g.info.blockSize (Dentries.nil.withLostAndFound.names.map Prod.fst) + 1) ≤
      totalFree image.bgs) :
    buildDefaultDirectoryStructure g.info g.aux image =
      buildDirectoryStructure g.info g.aux image fullPath dirPath 0 .nil := by
  have hrootNum : EXT4_ROOT_INO < 2 ^ 32 := by decide
  obtain ⟨before, news, inode, made, hmake, -, -, -, hkeys, -, -⟩ :=
    makeDirectoryAt_ok hok hextents hfresh (by decide) 1 hrootNum hroot hroom
  obtain ⟨e, nils, rfl, -, hnil⟩ := exists_cons_of_map hkeys
  obtain rfl := List.map_eq_nil_iff.mp hnil
  have htree : Dentries.nil.withLostAndFound = .dir lostAndFound .nil .nil := rfl
  have hnames : Dentries.nil.withLostAndFound.names = [(lostAndFound.filename, EXT4_FT_DIR)] := rfl
  have hdirs : Dentries.nil.withLostAndFound.dirs = 1 := rfl
  rw [hnames] at hmake
  rw [buildDefaultDirectoryStructure, buildDirectoryStructure]
  dsimp only
  rw [if_pos rfl, hnames, hdirs, makeDirectory, if_neg (by decide), hmake, ok_bind, pure_def, ok_bind, ok_bind]
  dsimp only
  rw [htree, starts, starts, buildEntries, show Dentries.nil.names = [] from rfl, show Dentries.nil.dirs = 0 from rfl]
  cases makeDirectory g.info g.aux made EXT4_ROOT_INO [] 0 with
  | error e => rfl
  | ok made' =>
    obtain ⟨entryInode, subdirData, subdirPlaces, image'⟩ := made'
    dsimp only
    rw [ok_bind, ok_bind]
    dsimp only
    rw [buildEntries, ok_bind, buildEntries, ok_bind]
    rfl

/-! ### The image -/

/-- An image is large enough for a tree. -/
structure Fits (g : Geometry) (tree : Dentries) : Prop where
  extents : g.ExtentsFit
  groups : 0 < g.aux.groups
  firstInodes : 10 ≤ g.info.inodesPerGroup
  reserve : 0 < g.info.bgDescReserveBlocks
  journal : g.info.journalBlocks * g.info.blockSize < 2 ^ 32
  root : DirOk g.info.blockSize tree.names
  treeOk : tree.Ok g.info.blockSize
  /-- The journal, the block for resizing, the root directory and the tree. -/
  blocks : g.aux.groups + (g.info.journalBlocks + 1 + 1 + (dirBlocks g.info.blockSize (tree.names.map Prod.fst) + 1) +
    tree.blocks g.info.blockSize) ≤ g.dataLen
  inodes : tree.inodes + 10 ≤ g.aux.groups * g.info.inodesPerGroup

/-- What is on the host: nothing stands for the default directories. -/
def treeOf : Option (FileName × Dentries) → Dentries
  | some (_, entries) => entries.withLostAndFound
  | none => Dentries.nil.withLostAndFound

/-- The directory on the host. -/
def pathOf : Option (FileName × Dentries) → FileName
  | some (fullPath, _) => fullPath
  | none => []

/-- What holds of the image in the end. -/
structure Made (g : Geometry) (tree : Dentries) (fullPath : FileName) (image : Image) : Prop where
  ok : ImageOk g image
  root : ∃ inode data before es old lo, readInode g.info image.bgs EXT4_ROOT_INO = some inode ∧
    attributes [] inode = rootAttributes tree ∧
    HoldsDir g.info.blockSize image inode EXT4_ROOT_INO EXT4_ROOT_INO data before es ∧
    HoldsEntries g image old lo tree fullPath EXT4_ROOT_INO es
  journal : g.info.journalBlocks ≠ 0 → ∃ inode, readInode g.info image.bgs EXT4_JOURNAL_INO = some inode ∧
    inode.size = g.info.journalBlocks * g.info.blockSize ∧
    HoldsParts g.info.blockSize image.chunks inode (g.info.journalBlocks * g.info.blockSize) (.buffer 0) ∧
    image.buffers[0]? =
      some (overwrite (List.replicate (g.info.journalBlocks * g.info.blockSize) 0) 0 (journalSuperblock g.info))
  chunks : ∀ c ∈ image.chunks, (∀ b, c.covers g.info.blockSize b = true → g.IsData b) ∨
    ∀ b, c.covers g.info.blockSize b = true → groupStart g.info g.aux 0 + 1 + g.aux.bgDescBlocks ≤ b ∧
      b < groupStart g.info g.aux 0 + 1 + g.aux.bgDescBlocks + g.info.bgDescReserveBlocks

/-- What there is of the journal before the blocks for resizing are taken. -/
theorem journal_ok (hstarted : Started g image) (hextents : g.ExtentsFit)
    (hlt : g.info.journalBlocks * g.info.blockSize < 2 ^ 32)
    (hroom : g.aux.groups + (g.info.journalBlocks + 1) ≤ g.dataLen) :
    ∃ image', createJournal g.info g.aux image = .ok image' ∧
      ImageOk g image' ∧ (∀ n, 0 < n → n ≤ 10 → n ≠ EXT4_JOURNAL_INO → Fresh g image'.bgs n) ∧
      (∀ c ∈ image'.chunks, ∀ b, c.covers g.info.blockSize b = true → g.IsData b) ∧
      g.dataLen ≤ totalFree image'.bgs + (g.info.journalBlocks + 1) ∧
      totalFreeInodes image'.bgs = totalFreeInodes image.bgs ∧
      (g.info.journalBlocks ≠ 0 → ∃ inode, readInode g.info image'.bgs EXT4_JOURNAL_INO = some inode ∧
        inode.size = g.info.journalBlocks * g.info.blockSize ∧
        HoldsParts g.info.blockSize image'.chunks inode (g.info.journalBlocks * g.info.blockSize) (.buffer 0) ∧
        image'.buffers[0]? =
          some (overwrite (List.replicate (g.info.journalBlocks * g.info.blockSize) 0)
            0 (journalSuperblock g.info))) := by
  have htotal := hstarted.total
  rw [createJournal]
  by_cases hjournal : g.info.journalBlocks ≠ 0
  · obtain ⟨inode, image', hcreate, hmakes, hbuffers, hsize, hparts⟩ :=
      createJournalInode_ok hstarted.ok hextents (hstarted.fresh _ (by decide) (by decide))
        (Nat.pos_of_ne_zero hjournal) hlt (by omega)
    rw [if_pos hjournal]
    rw [hstarted.buffers] at hbuffers hparts
    refine ⟨image', hcreate, hmakes.ok, fun n hpos hn hne => hmakes.fresh n hne (hstarted.fresh n hpos hn),
      fun c hc b hb => ?_, htotal ▸ hmakes.total, hmakes.totalInodes,
      fun _ => ⟨inode, hmakes.read, hsize, hparts, by rw [hbuffers]; rfl⟩⟩
    obtain ⟨more, hmore, hfree⟩ := hmakes.chunks
    rw [hmore, hstarted.chunks, List.nil_append] at hc
    exact (hfree c hc b hb).isData hstarted.ok.groups
  · rw [if_neg hjournal]
    refine ⟨image, rfl, hstarted.ok, fun n hpos hn _ => hstarted.fresh n hpos hn,
      fun c hc => ?_, by omega, rfl, fun h => absurd h hjournal⟩
    rw [hstarted.chunks] at hc
    cases hc

theorem buildRoot_made {directory : Option (FileName × Dentries)} (hok : ImageOk g image)
    (hfits : Fits g (treeOf directory)) (hfresh : Fresh g image.bgs EXT4_ROOT_INO)
    (hroom : g.aux.groups + (dirBlocks g.info.blockSize ((treeOf directory).names.map Prod.fst) + 1 +
      (treeOf directory).blocks g.info.blockSize) ≤ totalFree image.bgs)
    (hinodes : (treeOf directory).inodes ≤ totalFreeInodes image.bgs) (mountpoint : FileName) :
    ∃ built, buildRoot g.info g.aux image directory mountpoint = .ok (EXT4_ROOT_INO, built) ∧
      Rooted g image (treeOf directory) (pathOf directory)
        (inodeSetPermissions g.info g.aux built EXT4_ROOT_INO 0o755 0 0 0) := by
  have hextents := hfits.extents
  have hroot := hfits.root
  have htree := hfits.treeOk
  cases directory with
  | some directory =>
    obtain ⟨fullPath, entries⟩ := directory
    rw [buildRoot]
    exact buildRoot_ok hok hextents hfresh hroot htree hroom hinodes fullPath mountpoint
  | none =>
    rw [buildRoot, buildDefaultDirectoryStructure_eq image [] mountpoint hok hextents hfresh hroot
      (Nat.le_trans (by rw [treeOf]; omega) hroom)]
    exact buildRoot_ok hok hextents hfresh hroot htree hroom hinodes [] mountpoint

/-- **The image is made, whatever the tree is**, as long as it fits. -/
theorem makeExt4fs_made {directory : Option (FileName × Dentries)} (hfits : Fits g (treeOf directory))
    (mountpoint : FileName) :
    ∃ image, makeExt4fs g.info g.aux directory mountpoint = .ok image ∧
      Made g (treeOf directory) (pathOf directory) image := by
  have hblocks := hfits.blocks
  have hinodes := hfits.inodes
  obtain ⟨image₀, image₁, hinit, hreserve, hstarted⟩ := start_ok hfits.groups hfits.firstInodes
  have htotal₁ := hstarted.totalInodes
  obtain ⟨image₂, hjournal, hok₂, hfresh₂, hdata₂, htotal₂, htotalInodes₂, hheld⟩ :=
    journal_ok hstarted hfits.extents hfits.journal (by omega)
  obtain ⟨image₃, hresize, hprepared⟩ :=
    createResizeInode_ok hok₂ (hfresh₂ _ (by decide) (by decide) (by decide)) hfits.groups hfits.reserve (by omega)
      hdata₂
  have htotal₃ := hprepared.total
  have htotalInodes₃ := hprepared.totalInodes
  have hfresh₃ := hprepared.fresh EXT4_ROOT_INO (by decide) (hfresh₂ _ (by decide) (by decide) (by decide))
  obtain ⟨built, hbuild, hrooted⟩ := buildRoot_made hprepared.ok hfits hfresh₃ (by omega) (by omega) mountpoint
  refine ⟨_, ?_, hrooted.ok, hrooted.root, fun hne => ?_, fun c hc => ?_⟩
  · rw [makeExt4fs, hinit, ok_bind, hreserve, ok_bind, hjournal, ok_bind, hresize, ok_bind, hbuild, ok_bind]
    rfl
  · obtain ⟨inode, hread, hsize, hparts, hbuffer⟩ := hheld hne
    obtain ⟨c, c', hchunks, -, -⟩ := hprepared.chunks
    obtain ⟨more, hmore, -⟩ := hrooted.chunks
    refine ⟨inode, hrooted.others _ _ (by decide) (by decide) (hprepared.others _ _ (by decide) (by decide) hread),
      hsize, ?_, hrooted.buffers _ _ (getElem?_of_append hprepared.buffers hbuffer)⟩
    rw [hmore, hchunks]
    exact hparts.append.append
  · obtain ⟨c₁, c₂, hchunks, hfree₁, hheader₂⟩ := hprepared.chunks
    obtain ⟨more, hmore, hfree⟩ := hrooted.chunks
    rw [hmore, hchunks] at hc
    simp only [List.mem_append, List.mem_cons, List.not_mem_nil, or_false] at hc
    rcases hc with (hc | rfl | rfl) | hc
    · exact Or.inl (hdata₂ c hc)
    · exact Or.inl fun b hb => (hfree₁ b hb).isData hok₂.groups
    · exact Or.inr hheader₂
    · exact Or.inl fun b hb => (hfree c hc b hb).isData hprepared.ok.groups

/-- **What is read from the image is what is on the host**: every file with its bytes, every link with its target
and every directory with its entries, each with its owner, mode and times. -/
theorem readImage_makeExt4fs (g : Geometry) (host : FileName → List UInt8) (directory : Option (FileName × Dentries))
    (mountpoint : FileName) (fuel : Nat) (hfits : Fits g (treeOf directory))
    (hsizes : (treeOf directory).Sizes host (pathOf directory)) (hfuel : (treeOf directory).height ≤ fuel) :
    ∃ image, makeExt4fs g.info g.aux directory mountpoint = .ok image ∧
      readImage host g.info image fuel =
        some (rootAttributes (treeOf directory),
          (treeOf directory).listing host g.info.blockSize (pathOf directory)) := by
  obtain ⟨image, hmake, hmade⟩ := makeExt4fs_made hfits mountpoint
  obtain ⟨inode, data, before, es, old, lo, hread, hattr, hdir, hholds⟩ := hmade.root
  have hmode : inode.iMode &&& S_IFMT = S_IFDIR := by
    rw [show inode.iMode = S_IFDIR ||| 0o755#16 from congrArg Attributes.mode hattr]
    decide
  refine ⟨image, hmake, ?_⟩
  rw [readImage, hread]
  simp only [Option.bind_eq_bind, Option.bind_some]
  rw [if_pos hmode, readEntriesOf_of_holdsDir hdir, Option.bind_some,
    readTree_of_holds hholds hfits.treeOk hsizes hfuel, Option.bind_some, hattr]
  rfl

/-- An image of 16 MiB, with the sizes that are computed for it. -/
def smallGeometry : Geometry := Geometry.make (16 * 2 ^ 20) (by decide) (by decide)

/-- A directory with a link, and the file that the link leads to. -/
def smallTree : Dentries :=
  .dir ⟨[100], 0o755, 0, 0, 9⟩ (.link ⟨[108], 0o777, 0, 0, 9⟩ [46, 46, 47, 97] .nil)
    (.file ⟨[97], 0o644, 1, 2, 7⟩ 3 .nil)

theorem smallTree_fits : Fits smallGeometry (treeOf (some ([47], smallTree))) := by
  have hnames : ∀ entries ∈ [(treeOf (some ([47], smallTree))).names, [], [([108], EXT4_FT_SYMLINK)]],
      NamesOk entries := by
    unfold NamesOk
    decide +kernel
  refine ⟨⟨by decide +kernel, by decide +kernel⟩, by
    decide +kernel, by decide +kernel, by decide +kernel, by decide +kernel,
    ⟨hnames _ (by simp), by decide +kernel⟩, ?_, by decide +kernel, by decide +kernel⟩
  exact ⟨by decide, ⟨hnames _ (by simp [Dentries.names]), by decide +kernel⟩, trivial, by decide,
    ⟨hnames _ (by simp [Dentries.names]), by decide +kernel⟩,
    ⟨by decide, trivial⟩, by decide, by decide +kernel, trivial⟩

theorem readImage_smallTree :
    ∃ image, makeExt4fs smallGeometry.info smallGeometry.aux (some ([47], smallTree)) [47] = .ok image ∧
      readImage (fun _ => [1, 2, 3]) smallGeometry.info image 4 =
        some (rootAttributes (treeOf (some ([47], smallTree))),
          (treeOf (some ([47], smallTree))).listing (fun _ => [1, 2, 3]) smallGeometry.info.blockSize [47]) :=
  readImage_makeExt4fs smallGeometry (fun _ => [1, 2, 3]) (some ([47], smallTree)) [47] 4 smallTree_fits
    ⟨trivial, trivial, rfl, trivial⟩ (by decide)

/-- **The journal can be read**: what is known of its superblock, and zeros. -/
theorem readContent_journal (g : Geometry) (host : FileName → List UInt8) (directory : Option (FileName × Dentries))
    (mountpoint : FileName) (hfits : Fits g (treeOf directory)) (hjournal : g.info.journalBlocks ≠ 0) :
    ∃ image inode, makeExt4fs g.info g.aux directory mountpoint = .ok image ∧
      readInode g.info image.bgs EXT4_JOURNAL_INO = some inode ∧
      readContent host g.info.blockSize image inode =
        some (journalSuperblock g.info ++
          List.replicate (g.info.journalBlocks * g.info.blockSize - (journalSuperblock g.info).length) 0) := by
  obtain ⟨image, hmake, hmade⟩ := makeExt4fs_made hfits mountpoint
  obtain ⟨inode, hread, hsize, hparts, hbuffer⟩ := hmade.journal hjournal
  have hge := g.blockSize_ge
  have hle : g.info.blockSize ≤ g.info.journalBlocks * g.info.blockSize :=
    Nat.le_mul_of_pos_left _ (Nat.pos_of_ne_zero hjournal)
  have hlen : (journalSuperblock g.info).length = 68 := by simp [journalSuperblock, toBE]
  have hbytes : overwrite (List.replicate (g.info.journalBlocks * g.info.blockSize) 0) 0 (journalSuperblock g.info) =
      journalSuperblock g.info ++
        List.replicate (g.info.journalBlocks * g.info.blockSize - (journalSuperblock g.info).length) 0 := by
    rw [overwrite, List.take_zero, List.nil_append, Nat.zero_add, List.drop_replicate]
  have hlength :
      (journalSuperblock g.info ++
        List.replicate (g.info.journalBlocks * g.info.blockSize - (journalSuperblock g.info).length) 0).length =
      g.info.journalBlocks * g.info.blockSize := by
    rw [List.length_append, List.length_replicate]
    omega
  rw [hbytes] at hbuffer
  rw [← hlength] at hsize hparts
  have hcontent := readContent_of_parts host g.blockSize_pos hparts (Nat.le_of_eq hsize) hbuffer
  rw [hsize, List.take_length] at hcontent
  exact ⟨image, inode, hmake, hread, hcontent⟩

theorem readContent_journal_small :
    ∃ image inode, makeExt4fs smallGeometry.info smallGeometry.aux (some ([47], smallTree)) [47] = .ok image ∧
      readInode smallGeometry.info image.bgs EXT4_JOURNAL_INO = some inode ∧
      readContent (fun _ => []) smallGeometry.info.blockSize image inode =
        some (journalSuperblock smallGeometry.info ++
          List.replicate
            (smallGeometry.info.journalBlocks * smallGeometry.info.blockSize -
              (journalSuperblock smallGeometry.info).length) 0) :=
  readContent_journal smallGeometry (fun _ => []) (some ([47], smallTree)) [47] smallTree_fits (by decide)

end Goldfish.Ext4

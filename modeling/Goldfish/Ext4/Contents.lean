import Goldfish.Ext4.Reader

/-!
# Goldfish.Ext4.Contents

Making a directory, a file or a symbolic link, and its permissions (`contents.c`, and the
part of `indirect.c` that a link needs).

Each of the three takes an inode that was not in use, and blocks that were free, for what
it makes (`Makes`). What could be read before can be read afterwards. Extended attributes are
left out: an entry without a label and without capabilities gets none.
-/

namespace Goldfish.Ext4

open Goldfish.Lib

/-- What a long symbolic link needs of `inode_allocate_data_indirect`: with more than direct blocks there is an error
on every way, as no block has been set aside for the others. -/
def inodeAllocateDataIndirect (info : Info) (image : Image) (inode : Inode) (len backingLen : Nat) :
    Except String (Option Nat × Inode × Image) :=
  let blockLen := divRoundUp len info.blockSize % 2 ^ 32
  if blockLen > EXT4_NDIR_BLOCKS then .error "failed to advance oob block"
  else do
    match ← allocateBlocks image.bgs blockLen with
    | none => .error s!"Failed to allocate {blockLen} blocks"
    | some (alloc, bgs) =>
      let (data, image) ←
        if backingLen ≠ 0 then
          if divRoundUp backingLen info.blockSize > EXT4_NDIR_BLOCKS then
            .error s!"indirect backing larger than {EXT4_NDIR_BLOCKS} blocks"
          else
            let (data, image) ← extentCreateBacking info { image with bgs } alloc backingLen
            pure (some data, image)
        else .ok (none, { image with bgs })
      let blocks := (List.range blockLen).map fun i => (getBlock alloc i).getD EXT4_ALLOCATE_FAILED
      match advanceBlocks alloc blockLen with
      | none => .error s!"failed to advance {blockLen} blocks"
      | some _ => pure (data, { inode with iBlock := .direct blocks }, image)

/-- The rest of `make_directory`, once the number of the inode is known. -/
def makeDirectoryAt (info : Info) (aux : AuxInfo) (image : Image) (inodeNum dirInodeNum : Nat)
    (entries : List (Name × Nat)) (dirs : Nat) :
    Except String (Nat × List Nat × Image) := do
  let len := directoryLen info.blockSize (entries.map Prod.fst)
  let (inode, bgs) := getInode info aux (addDirectory info image.bgs inodeNum) inodeNum
  match ← inodeAllocateDataExtents info { image with bgs } inode len len with
  | (none, _, _) => .error s!"failed to allocate {len} extents"
  | (some data, inode, image) =>
    let (bytes, places) ← fillDirectory info.blockSize len inodeNum dirInodeNum entries
    let inode := { inode with
      iMode := S_IFDIR, iLinksCount := BitVec.ofNat 16 (dirs + 2), iFlags := inode.iFlags ||| EXT4_NOATIME_FL }
    pure (data, places,
      { image with bgs := putInode info image.bgs inodeNum inode, buffers := image.buffers.set data bytes })

/-- The number of the inode, the buffer of the directory, where the entries are in it and the image. -/
def makeDirectory (info : Info) (aux : AuxInfo) (image : Image) (dirInodeNum : Nat) (entries : List (Name × Nat))
    (dirs : Nat) :
    Except String (Nat × Nat × List Nat × Image) :=
  if dirInodeNum ≠ 0 then
    match allocateInode info image.bgs with
    | none => .error "failed to allocate inode\n"
    | some (inodeNum, bgs) => do
      let made ← makeDirectoryAt info aux { image with bgs } inodeNum dirInodeNum entries dirs
      pure (inodeNum, made)
  else do
    let made ← makeDirectoryAt info aux image EXT4_ROOT_INO EXT4_ROOT_INO entries dirs
    pure (EXT4_ROOT_INO, made)

/-- `make_file`. An empty file gets no blocks. -/
def makeFile (info : Info) (aux : AuxInfo) (image : Image) (filename : FileName) (len : Nat) :
    Except String (Nat × Image) :=
  match allocateInode info image.bgs with
  | none => .error "failed to allocate inode\n"
  | some (inodeNum, bgs) => do
    let (inode, bgs) := getInode info aux bgs inodeNum
    let (inode, image) ←
      if len > 0 then inodeAllocateFileExtents info { image with bgs } inode len filename
      else .ok (inode, { image with bgs })
    let inode := { inode with iMode := S_IFREG, iLinksCount := 1, iFlags := inode.iFlags ||| EXT4_NOATIME_FL }
    pure (inodeNum, { image with bgs := putInode info image.bgs inodeNum inode })

/-- `make_link`. A short target is kept in the inode. -/
def makeLink (info : Info) (aux : AuxInfo) (image : Image) (link : List UInt8) : Except String (Nat × Image) :=
  match allocateInode info image.bgs with
  | none => .error "failed to allocate inode\n"
  | some (inodeNum, bgs) => do
    let (inode, bgs) := getInode info aux bgs inodeNum
    let inode := { inode with
      iMode := S_IFLNK, iLinksCount := 1, iFlags := inode.iFlags ||| EXT4_NOATIME_FL, iSizeLo := link.length % 2 ^ 32 }
    if link.length + 1 ≤ sizeofIBlock then
      -- a fast symlink
      pure (inodeNum, { image with bgs := putInode info bgs inodeNum { inode with iBlock := .text link } })
    else
      match ← inodeAllocateDataIndirect info { image with bgs } inode info.blockSize info.blockSize with
      | (none, _, _) => .error "make_link: no data"
      | (some data, inode, image) =>
        let inode := { inode with iBlocksLo := info.blockSize / 512 }
        pure (inodeNum, { image with
          bgs := putInode info image.bgs inodeNum inode
          buffers := image.buffers.modify data fun bytes => overwrite bytes 0 link })

/-- `inode_set_permissions`. The type is in the mode already. -/
def inodeSetPermissions (info : Info) (aux : AuxInfo) (image : Image) (inodeNum : Nat) (mode uid gid : BitVec 16)
    (mtime : Nat) : Image :=
  let (inode, bgs) := getInode info aux image.bgs inodeNum
  let inode := { inode with
    iMode := inode.iMode ||| mode, iUid := uid, iGid := gid, iMtime := mtime, iAtime := mtime, iCtime := mtime }
  { image with bgs := putInode info bgs inodeNum inode }

/-! ### What is true of an image -/

/-- What holds of an image between two entries. -/
structure ImageOk (g : Geometry) (image : Image) : Prop where
  groups : GroupsOk g image.bgs
  inodes : InodesOk g image.bgs
  owned : ChunksOwned g image.bgs image.chunks

variable {g : Geometry} {image image' : Image} {bgs bgs' : List BlockGroup} {buffers : List (List UInt8)}
  {n m blocks : Nat} {inode inode' : Inode}

/-- The blocks are as they were. -/
theorem ImageOk.withInodes (hok : ImageOk g image) (hblocks : blockParts bgs = blockParts image.bgs)
    (hinodes : InodesOk g bgs) :
    ImageOk g { image with bgs, buffers } := by
  refine ⟨hok.groups.of_blockParts hblocks, hinodes, ⟨?_, hok.owned.apart⟩⟩
  dsimp only
  rw [freeIn_of_blockParts hblocks]
  exact hok.owned.owned

/-- The inodes are as they were. -/
theorem InodesOk.of_inodeParts (hlength : bgs.length = g.aux.groups) (hparts : inodeParts bgs = inodeParts image.bgs)
    (hok : InodesOk g image.bgs) : InodesOk g bgs := ⟨hlength, by rw [hparts]; exact hok.parts⟩

theorem Fresh.of_inodeParts (hparts : inodeParts bgs' = inodeParts bgs) (h : Fresh g bgs n) : Fresh g bgs' n := by
  refine ⟨h.pos, ?_⟩
  rw [partOf, hparts]
  exact h.used

theorem readInode_of_inodeParts (hparts : inodeParts bgs' = inodeParts bgs) :
    readInode g.info bgs' m = readInode g.info bgs m := by
  rw [readInode, partOf, hparts, readInode, partOf]

theorem Queued.imageOk (h : Queued g image image' blocks) (hok : ImageOk g image) : ImageOk g image' :=
  ⟨h.groupsOk, hok.inodes.of_inodeParts h.groupsOk.length h.inodeParts, h.owned⟩

theorem Queued.refl (hok : ImageOk g image) (blocks : Nat) : Queued g image image blocks :=
  ⟨hok.groups, hok.owned, ⟨[], Takes.nil⟩, Queues.refl g image, Nat.le_add_right _ _, rfl⟩

/-- What an inode is made of: its number was not in use, or it is reserved, and what could be read of the others
has not changed. -/
structure Makes (g : Geometry) (image : Image) (n : Nat) (inode : Inode) (image' : Image) (blocks : Nat) : Prop where
  ok : ImageOk g image'
  pos : 0 < n
  read : readInode g.info image'.bgs n = some inode
  others : ∀ m i, 0 < m → m ≠ n → readInode g.info image.bgs m = some i → readInode g.info image'.bgs m = some i
  takes : ∃ taken, Takes (FreeIn g image.bgs) (FreeIn g image'.bgs) taken
  chunks : Queues g image image'
  total : totalFree image.bgs ≤ totalFree image'.bgs + blocks
  totalInodes : totalFreeInodes image'.bgs = totalFreeInodes image.bgs
  fresh : ∀ m, m ≠ n → Fresh g image.bgs m → Fresh g image'.bgs m

/-- The image once an inode has been asked for. -/
structure Got (g : Geometry) (image : Image) (n : Nat) (inode : Inode) (bgs : List BlockGroup) : Prop where
  ok : ImageOk g { image with bgs }
  pos : 0 < n
  read : readInode g.info bgs n = some inode
  others : ∀ m i, readInode g.info image.bgs m = some i → readInode g.info bgs m = some i
  blocks : blockParts bgs = blockParts image.bgs
  totalInodes : totalFreeInodes bgs = totalFreeInodes image.bgs
  fresh : ∀ m, Fresh g image.bgs m → Fresh g bgs m

theorem Fresh.got (hok : ImageOk g image) (hfresh : Fresh g image.bgs n) :
    (getInode g.info g.aux image.bgs n).1 = Inode.zero ∧
    Got g image n Inode.zero (getInode g.info g.aux image.bgs n).2 := by
  obtain ⟨hzero, hread⟩ := hfresh.getInode_eq hok.inodes
  have hblocks := blockParts_getInode g.info g.aux image.bgs n
  exact ⟨hzero, hok.withInodes hblocks (hok.inodes.getInode n), hfresh.pos, hread, fun m i h => readInode_getInode h,
    hblocks, totalFreeInodes_getInode _ _, fun m h => h.of_getInode⟩

/-- An inode that has been made before. -/
theorem got_of_readInode (hok : ImageOk g image) (hn : 0 < n) (hread : readInode g.info image.bgs n = some inode) :
    Got g image n inode (getInode g.info g.aux image.bgs n).2 := by
  have hblocks := blockParts_getInode g.info g.aux image.bgs n
  exact ⟨hok.withInodes hblocks (hok.inodes.getInode n), hn, readInode_getInode hread,
    fun m i h => readInode_getInode h, hblocks, totalFreeInodes_getInode _ _, fun m h => h.of_getInode⟩

theorem totalFree_of_blockParts {bgs' : List BlockGroup} (h : blockParts bgs' = blockParts bgs) :
    totalFree bgs' = totalFree bgs := by
  have hmap := congrArg (List.map BlockPart.freeBlocks) h
  rw [blockParts, blockParts, List.map_map, List.map_map] at hmap
  exact congrArg List.sum hmap

/-- **The inode is written in the end.** -/
theorem Got.makes (h : Got g image n inode bgs) (hq : Queued g { image with bgs } image' blocks) (inode' : Inode)
    (buffers : List (List UInt8)) :
    Makes g image n inode' { image' with bgs := putInode g.info image'.bgs n inode', buffers } blocks := by
  have hok' := hq.imageOk h.ok
  have hread : readInode g.info image'.bgs n = some inode := (readInode_of_inodeParts hq.inodeParts).trans h.read
  have hblocks := blockParts_putInode g.info image'.bgs n inode'
  have hfree : FreeIn g bgs = FreeIn g image.bgs := freeIn_of_blockParts h.blocks
  have htotal := totalFree_of_blockParts h.blocks
  have htotal' := hq.total
  dsimp only at htotal'
  refine ⟨hok'.withInodes hblocks (hok'.inodes.putInode hread), h.pos, readInode_putInode_self hread,
    fun m i hm hne hi => ?_, ?_, hq.chunks.congr hfree rfl rfl, ?_, ?_, fun m hne hfresh => ?_⟩
  · refine readInode_putInode_ne hm h.pos hne ?_
    exact (readInode_of_inodeParts hq.inodeParts).trans (h.others m i hi)
  · obtain ⟨taken, htaken⟩ := hq.takes
    dsimp only at htaken ⊢
    rw [freeIn_of_blockParts hblocks, ← hfree]
    exact ⟨taken, htaken⟩
  · dsimp only
    rw [totalFree_of_blockParts hblocks]
    omega
  · dsimp only
    rw [totalFreeInodes_putInode, totalFreeInodes, hq.inodeParts]
    exact h.totalInodes
  · exact ((h.fresh m hfresh).of_inodeParts hq.inodeParts).of_putInode h.pos hne

/-- What could be read can still be read, of the buffers those that are `kept`; so many blocks and inodes have
been taken at most. -/
structure Keeps (g : Geometry) (kept : Nat → Prop) (image image' : Image) (blocks inodes : Nat) : Prop where
  ok : ImageOk g image'
  others : ∀ m i, 0 < m → readInode g.info image.bgs m = some i → readInode g.info image'.bgs m = some i
  takes : ∃ taken, Takes (FreeIn g image.bgs) (FreeIn g image'.bgs) taken
  chunks : Queues g image image'
  buffers : ∀ id bytes, kept id → image.buffers[id]? = some bytes → image'.buffers[id]? = some bytes
  length : image.buffers.length ≤ image'.buffers.length
  total : totalFree image.bgs ≤ totalFree image'.bgs + blocks
  totalInodes : totalFreeInodes image.bgs ≤ totalFreeInodes image'.bgs + inodes

theorem Keeps.refl (hok : ImageOk g image) (kept : Nat → Prop) : Keeps g kept image image 0 0 :=
  ⟨hok, fun _ _ _ h => h, ⟨[], Takes.nil⟩, Queues.refl g image, fun _ _ _ h => h, Nat.le_refl _, Nat.le_refl _,
    Nat.le_refl _⟩

theorem Keeps.trans {kept : Nat → Prop} {image'' : Image} {blocks' inodes inodes' : Nat}
    (h : Keeps g kept image image' blocks inodes) (h' : Keeps g kept image' image'' blocks' inodes') :
    Keeps g kept image image'' (blocks + blocks') (inodes + inodes') := by
  refine ⟨h'.ok, fun m i hm hi => h'.others m i hm (h.others m i hm hi), ?_, h.chunks.trans h.takes h'.chunks,
    fun id bytes hid hbytes => h'.buffers id bytes hid (h.buffers id bytes hid hbytes),
    Nat.le_trans h.length h'.length, ?_, ?_⟩
  · obtain ⟨taken, htaken⟩ := h.takes
    obtain ⟨taken', htaken'⟩ := h'.takes
    exact ⟨_, htaken.append htaken'⟩
  · have htotal := h.total
    have htotal' := h'.total
    omega
  · have htotal := h.totalInodes
    have htotal' := h'.totalInodes
    omega

theorem Keeps.mono {kept kept' : Nat → Prop} {inodes : Nat} (h : Keeps g kept image image' blocks inodes)
    (hkept : ∀ id, kept' id → kept id) :
    Keeps g kept' image image' blocks inodes :=
  ⟨h.ok, h.others, h.takes, h.chunks, fun id bytes hid => h.buffers id bytes (hkept id hid), h.length, h.total,
    h.totalInodes⟩

/-- An inode whose number was not in use, and what has been made with it. -/
structure New (g : Geometry) (kept : Nat → Prop) (image : Image) (n : Nat) (inode : Inode) (image' : Image)
    (blocks inodes : Nat) : Prop
    extends Keeps g kept image image' blocks inodes where
  pos : 0 < n
  lt : n < 2 ^ 32
  new : readInode g.info image.bgs n = none
  read : readInode g.info image'.bgs n = some inode

theorem New.trans {kept : Nat → Prop} {image'' : Image} {blocks' inodes inodes' : Nat}
    (h : New g kept image n inode image' blocks inodes) (h' : Keeps g kept image' image'' blocks' inodes') :
    New g kept image n inode image'' (blocks + blocks') (inodes + inodes') :=
  ⟨h.toKeeps.trans h', h.pos, h.lt, h.new, h'.others n inode h.pos h.read⟩

theorem New.mono {kept kept' : Nat → Prop} {inodes : Nat} (h : New g kept image n inode image' blocks inodes)
    (hkept : ∀ id, kept' id → kept id) :
    New g kept' image n inode image' blocks inodes := ⟨h.toKeeps.mono hkept, h.pos, h.lt, h.new, h.read⟩

/-- There are no other buffers before. -/
theorem New.trans_of_lt {image'' : Image} {blocks' inodes inodes' : Nat}
    (h : New g (fun _ => True) image n inode image' blocks inodes)
    (h' : Keeps g (fun id => id < image.buffers.length) image' image'' blocks' inodes') :
    New g (fun _ => True) image n inode image'' (blocks + blocks') (inodes + inodes') := by
  have hold : New g (fun id => id < image.buffers.length) image n inode image' blocks inodes :=
    h.mono fun _ _ => trivial
  have hall := hold.trans h'
  exact ⟨⟨hall.ok, hall.others, hall.takes, hall.chunks,
    fun id bytes _ hbytes => hall.buffers id bytes (List.getElem?_eq_some_iff.mp hbytes).1 hbytes, hall.length,
    hall.total, hall.totalInodes⟩,
    hall.pos, hall.lt, hall.new, hall.read⟩

/-- Buffers that are added. -/
theorem getElem?_of_append {α : Type} {l l' : List α} {k : Nat} {a : α} (h : ∃ more, l' = l ++ more)
    (hk : l[k]? = some a) : l'[k]? = some a := by
  obtain ⟨more, rfl⟩ := h
  exact (List.getElem?_append_left (List.getElem?_eq_some_iff.mp hk).1).trans hk

/-- **A new inode**, as long as one is free. -/
theorem newInode_ok (hok : ImageOk g image) (hinodes : 0 < totalFreeInodes image.bgs) :
    ∃ n bgs, allocateInode g.info image.bgs = some (n, bgs) ∧ ImageOk g { image with bgs } ∧ Fresh g bgs n ∧
      n < 2 ^ 32 ∧
      totalFree bgs = totalFree image.bgs ∧
      ∀ inode image' blocks, Makes g { image with bgs } n inode image' blocks →
        (∃ more, image'.buffers = image.buffers ++ more) →
        New g (fun _ => True) image n inode image' blocks 1 := by
  obtain ⟨n, bgs, halloc⟩ := allocateInode_ok (g := g) hinodes
  obtain ⟨i, first, hreserves, hnone, hfresh, hlt⟩ := reserves_of_allocateInode hok.inodes halloc
  have hblocks := hreserves.blockParts_eq
  have htotal := totalFree_of_blockParts hblocks
  refine ⟨n, bgs, halloc, hok.withInodes hblocks (hreserves.inodesOk hok.inodes), hfresh, hlt, htotal,
    fun inode image' blocks h hbuffers => ?_⟩
  refine ⟨⟨h.ok, fun m i hm hi => h.others m i hm ?_ (hreserves.readInode hi), ?_,
    h.chunks.congr (freeIn_of_blockParts hblocks) rfl rfl, fun _ _ _ => getElem?_of_append hbuffers, ?_, ?_, ?_⟩,
    h.pos, hlt, hnone, h.read⟩
  · rintro rfl
    rw [hnone] at hi
    cases hi
  · obtain ⟨taken, htaken⟩ := h.takes
    dsimp only at htaken
    rw [freeIn_of_blockParts hblocks] at htaken
    exact ⟨taken, htaken⟩
  · obtain ⟨more, hmore⟩ := hbuffers
    rw [hmore, List.length_append]
    exact Nat.le_add_right _ _
  · rw [← htotal]
    exact h.total
  · rw [h.totalInodes]
    exact Nat.le_of_eq hreserves.totalFreeInodes_eq

/-! ### Fields of an inode -/

theorem Attached.size_eq {len : Nat} {content : Content} (h : Attached g image inode len content inode' image')
    (hlt : len < 2 ^ 64) :
    inode'.size = len := by
  obtain ⟨blockLen, iBlock, rfl⟩ := h.inode
  simp only [Inode.size, setBlocks]
  omega

theorem Inode.size_zero : Inode.zero.size = 0 := by decide

theorem or_noatime (flags : BitVec 32) :
    (flags ||| EXT4_NOATIME_FL) &&& EXT4_EXTENTS_FL = flags &&& EXT4_EXTENTS_FL := by
  have hzero : EXT4_NOATIME_FL &&& EXT4_EXTENTS_FL = 0#32 := by decide
  rw [BitVec.and_or_distrib_right, hzero, BitVec.or_zero]

theorem zero_or_noatime : (Inode.zero.iFlags ||| EXT4_NOATIME_FL) &&& EXT4_EXTENTS_FL = 0 := by decide

/-- What a file holds depends on two fields of its inode. -/
theorem HoldsParts.congr {blockSize len : Nat} {chunks : List Chunk} {content : Content}
    (hflags : inode'.iFlags &&& EXT4_EXTENTS_FL = inode.iFlags &&& EXT4_EXTENTS_FL)
    (hblock : inode'.iBlock = inode.iBlock) (h : HoldsParts blockSize chunks inode len content) :
    HoldsParts blockSize chunks inode' len content := by
  intro k hk
  obtain ⟨b, hb, hpart⟩ := h k hk
  exact ⟨b, (findBlock_congr hflags hblock k).trans hb, hpart⟩

theorem lt_of_divRoundUp_lt {len : Nat} (hmax : divRoundUp len g.info.blockSize + 1 < 2 ^ 32) : len < 2 ^ 64 := by
  have hle := le_divRoundUp_mul len g.blockSize_pos
  have hmul : divRoundUp len g.info.blockSize * g.info.blockSize ≤ 2 ^ 32 * 2 ^ 16 :=
    Nat.mul_le_mul (by omega) (Nat.le_of_lt g.blockSize_lt)
  omega

/-! ### A file -/

/-- **Making a file.** -/
theorem makeFile_ok (hok : ImageOk g image) (hextents : g.ExtentsFit) (filename : FileName) {len : Nat}
    (hmax : divRoundUp len g.info.blockSize + 1 < 2 ^ 32)
    (hroom : g.aux.groups + (divRoundUp len g.info.blockSize + 1) ≤ totalFree image.bgs)
    (hinodes : 0 < totalFreeInodes image.bgs) :
    ∃ n inode image', makeFile g.info g.aux image filename len = .ok (n, image') ∧
      New g (fun _ => True) image n inode image' (divRoundUp len g.info.blockSize + 1) 1 ∧ inode.iMode = S_IFREG ∧
      inode.iLinksCount = 1 ∧ inode.size = len ∧
      HoldsParts g.info.blockSize image'.chunks inode len (.file filename) := by
  obtain ⟨n, bgs, halloc, hok₁, hfresh, -, htotal, hnew⟩ := newInode_ok hok hinodes
  obtain ⟨hzero, hgot⟩ := hfresh.got hok₁
  rw [makeFile, halloc]
  dsimp only
  rw [hzero]
  by_cases hlen : len > 0
  · have htotal' := totalFree_of_blockParts hgot.blocks
    have hlt := lt_of_divRoundUp_lt hmax
    have hroomy : Roomy g { image with bgs := (getInode g.info g.aux bgs n).2 }
      (divRoundUp len g.info.blockSize + 1) :=
      .of_spare hgot.ok.groups hgot.ok.owned (Nat.succ_pos _) (by dsimp only at htotal' ⊢; omega)
    obtain ⟨inode₁, image₁, hattach, hbuffers, hattached⟩ :=
      inodeAllocateFileExtents_ok hroomy hextents hlen hmax Inode.zero filename
    rw [if_pos hlen, hattach, ok_bind]
    refine ⟨_, _, _, rfl, hnew _ _ _ (hgot.makes hattached.queued _ _) ⟨[], ?_⟩, rfl, rfl, ?_, ?_⟩
    · rw [List.append_nil]
      exact hbuffers
    · exact hattached.size_eq hlt
    · exact hattached.parts.congr (or_noatime _) rfl
  · rw [if_neg hlen, ok_bind]
    obtain rfl : len = 0 := by omega
    refine ⟨_, _, _, rfl, hnew _ _ _ (hgot.makes (Queued.refl hgot.ok _) _ _) ⟨[], (List.append_nil _).symm⟩, rfl, rfl,
      ?_, ?_⟩
    · exact Inode.size_zero
    · exact fun k hk => absurd hk (Nat.not_lt_zero _)

/-! ### A directory -/

theorem Makes.of_addDirectory (h : Makes g { image with bgs := addDirectory g.info image.bgs m }
    n inode image' blocks) :
    Makes g image n inode image' blocks := by
  have hblocks := blockParts_addDirectory g.info image.bgs m
  refine ⟨h.ok, h.pos, h.read, fun k i hk hne hi => h.others k i hk hne (readInode_addDirectory.trans hi), ?_,
    h.chunks.congr (freeIn_of_blockParts hblocks) rfl rfl, ?_, ?_,
    fun k hne hfresh => h.fresh k hne hfresh.of_addDirectory⟩
  · obtain ⟨taken, htaken⟩ := h.takes
    dsimp only at htaken
    rw [freeIn_of_blockParts hblocks] at htaken
    exact ⟨taken, htaken⟩
  · rw [← totalFree_of_blockParts hblocks]
    exact h.total
  · rw [h.totalInodes]
    exact totalFreeInodes_addDirectory _ _ _

/-- How many blocks a directory with these names has. -/
def dirBlocks (blockSize : Nat) (names : List Name) : Nat := divRoundUp (dirLength blockSize names) blockSize

/-- A directory that is not too large. -/
structure DirOk (blockSize : Nat) (entries : List (Name × Nat)) : Prop where
  names : NamesOk entries
  size : dirLength blockSize (entries.map Prod.fst) + blockSize < 2 ^ 32

/-- A directory: what is before the entries, and the entries. -/
structure HoldsDir (blockSize : Nat) (image : Image) (inode : Inode) (n parent data : Nat)
    (before entries : List DirEntry) : Prop where
  head : before.map DirEntry.key = [(n, dot, EXT4_FT_DIR), (parent, dotDot, EXT4_FT_DIR)]
  buffer : image.buffers[data]? = some (chainBytes (before ++ entries))
  chain : Chain blockSize 0 (before ++ entries)
  size : inode.size = (chainBytes (before ++ entries)).length
  parts : HoldsParts blockSize image.chunks inode (chainBytes (before ++ entries)).length (.buffer data)

/-- **Making a directory**, at a number that is new or reserved. -/
theorem makeDirectoryAt_ok (hok : ImageOk g image) (hextents : g.ExtentsFit) (hfresh : Fresh g image.bgs n)
    (hn : n < 2 ^ 32) (dirs : Nat) {dirInodeNum : Nat} (hdir : dirInodeNum < 2 ^ 32) {entries : List (Name × Nat)}
    (hentries : DirOk g.info.blockSize entries)
    (hroom : g.aux.groups + (dirBlocks g.info.blockSize (entries.map Prod.fst) + 1) ≤ totalFree image.bgs) :
    ∃ before news inode image',
      makeDirectoryAt g.info g.aux image n dirInodeNum entries dirs =
        .ok (image.buffers.length, starts (chainBytes before).length news, image') ∧
      Makes g image n inode image' (dirBlocks g.info.blockSize (entries.map Prod.fst) + 1) ∧
      image'.buffers = image.buffers ++ [chainBytes (before ++ news)] ∧
      HoldsDir g.info.blockSize image' inode n dirInodeNum image.buffers.length before news ∧
      news.map DirEntry.key = entries.map (fun e => (0, e.1, e.2)) ∧
      inode.iMode = S_IFDIR ∧ inode.iLinksCount = BitVec.ofNat 16 (dirs + 2) := by
  have hbs := g.blockSize_pos
  obtain ⟨hnames, hsize⟩ := hentries
  have hcover := le_divRoundUp_mul (dirLength g.info.blockSize (entries.map Prod.fst)) hbs
  have hmin : 24 ≤ dirLength g.info.blockSize (entries.map Prod.fst) := le_foldl_nextLen _ _ _
  rw [dirBlocks] at hroom ⊢
  have hup : divRoundUp (dirLength g.info.blockSize (entries.map Prod.fst)) g.info.blockSize * g.info.blockSize ≤
      dirLength g.info.blockSize (entries.map Prod.fst) + g.info.blockSize - 1 := Nat.div_mul_le_self _ _
  have hlast : (dirLength g.info.blockSize (entries.map Prod.fst) - 1) / g.info.blockSize =
      (divRoundUp (dirLength g.info.blockSize (entries.map Prod.fst)) g.info.blockSize * g.info.blockSize - 1) /
        g.info.blockSize :=
    pred_div_eq (by omega) hbs
  obtain ⟨self, parent, news, hfill, hchain, hlength, hself, hparent, hkeys⟩ :=
    fillDirectory_ok g.blockSize_ge g.blockSize_lt hn hdir hnames hcover (by omega) hlast
  have hdiv := divRoundUp_mul_self (divRoundUp (dirLength g.info.blockSize (entries.map Prod.fst)) g.info.blockSize)
    hbs
  have hok₀ : ImageOk g { image with bgs := addDirectory g.info image.bgs n } :=
    hok.withInodes (blockParts_addDirectory _ _ _) (hok.inodes.addDirectory n)
  obtain ⟨hzero, hgot⟩ := hfresh.of_addDirectory.got hok₀
  have htotal := totalFree_of_blockParts hgot.blocks
  have htotal₀ := totalFree_of_blockParts (blockParts_addDirectory g.info image.bgs n)
  rw [makeDirectoryAt]
  dsimp only at hzero htotal ⊢
  rw [directoryLen_eq hbs g.blockSize_lt hnames.names hsize, hzero]
  generalize hblocks : divRoundUp (dirLength g.info.blockSize (entries.map Prod.fst)) g.info.blockSize = blocks at *
  have hroomy : Roomy g { image with bgs := (getInode g.info g.aux (addDirectory g.info image.bgs n) n).2 }
      (divRoundUp (blocks * g.info.blockSize) g.info.blockSize + 1) :=
    .of_spare hgot.ok.groups hgot.ok.owned (Nat.succ_pos _) (by dsimp only; omega)
  have hblocksLt : blocks ≤ blocks * g.info.blockSize := Nat.le_mul_of_pos_right _ hbs
  have hge := g.blockSize_ge
  obtain ⟨inode₁, image₁, hattach, hbuffers, hattached⟩ :=
    inodeAllocateDataExtents_ok hroomy hextents (by omega) (by omega) Inode.zero
  have hqueued := hattached.queued
  rw [hdiv] at hqueued
  rw [hattach, ok_bind]
  dsimp only
  rw [hfill, ok_bind]
  have hset : image₁.buffers.set image.buffers.length (chainBytes (self :: parent :: news)) =
      image.buffers ++ [chainBytes (self :: parent :: news)] := by
    dsimp only at hbuffers
    rw [hbuffers, List.set_append_right _ _ (Nat.le_refl _), Nat.sub_self]
    rfl
  rw [hset]
  refine ⟨[self, parent], news, _, _, rfl, (hgot.makes hqueued _ _).of_addDirectory, rfl,
    ⟨by rw [List.map_cons, List.map_cons, hself, hparent]; rfl, List.getElem?_concat_length, hchain, ?_, ?_⟩, hkeys,
    rfl, rfl⟩
  · have hlt : blocks * g.info.blockSize < 2 ^ 64 := by omega
    change _ = (chainBytes (self :: parent :: news)).length
    rw [hlength]
    exact hattached.size_eq hlt
  · change HoldsParts _ _ _ (chainBytes (self :: parent :: news)).length _
    rw [hlength]
    exact hattached.parts.congr (or_noatime _) rfl

/-- **A directory in a directory.** -/
theorem makeDirectory_ok (hok : ImageOk g image) (hextents : g.ExtentsFit) (dirs : Nat) {dirInodeNum : Nat}
    (hpos : dirInodeNum ≠ 0) (hdir : dirInodeNum < 2 ^ 32) {entries : List (Name × Nat)}
    (hentries : DirOk g.info.blockSize entries)
    (hroom : g.aux.groups + (dirBlocks g.info.blockSize (entries.map Prod.fst) + 1) ≤ totalFree image.bgs)
    (hinodes : 0 < totalFreeInodes image.bgs) :
    ∃ n before news inode image',
      makeDirectory g.info g.aux image dirInodeNum entries dirs =
        .ok (n, image.buffers.length, starts (chainBytes before).length news, image') ∧
      New g (fun _ => True) image n inode image' (dirBlocks g.info.blockSize (entries.map Prod.fst) + 1) 1 ∧
      image.buffers.length < image'.buffers.length ∧
      HoldsDir g.info.blockSize image' inode n dirInodeNum image.buffers.length before news ∧
      news.map DirEntry.key = entries.map (fun e => (0, e.1, e.2)) ∧
      inode.iMode = S_IFDIR ∧ inode.iLinksCount = BitVec.ofNat 16 (dirs + 2) := by
  obtain ⟨n, bgs, halloc, hok₁, hfresh, hn, htotal, hnew⟩ := newInode_ok hok hinodes
  obtain ⟨before, news, inode, image', hmake, hmakes, hbuffers, hdirectory, hkeys, hmode, hlinks⟩ :=
    makeDirectoryAt_ok hok₁ hextents hfresh hn dirs hdir hentries (by rw [htotal]; exact hroom)
  rw [makeDirectory, if_pos hpos, halloc]
  dsimp only
  rw [hmake, ok_bind]
  refine ⟨_, before, news, _, _, rfl, hnew _ _ _ hmakes ⟨_, hbuffers⟩, ?_, hdirectory, hkeys, hmode, hlinks⟩
  rw [hbuffers, List.length_append]
  exact Nat.lt_add_one _

/-! ### A symbolic link -/

theorem regionBlocks_singleton {reg : Region} (hlen : reg.len = 1) : regionBlocks [reg] = [reg.block] := by
  rw [regionBlocks, List.flatMap_cons, List.flatMap_nil, List.append_nil, Region.blocks, hlen]
  rfl

theorem findBlock_direct {blockSize : Nat} {chunks : List Chunk} {directs : List Nat}
    (hflags : inode.iFlags &&& EXT4_EXTENTS_FL = 0) (hblock : inode.iBlock = .direct directs) {k : Nat}
    (hk : k < EXT4_NDIR_BLOCKS) : findBlock blockSize chunks inode k = directs[k]? := by
  rw [findBlock, if_neg (not_not.mpr hflags), hblock]
  exact if_pos hk

/-- **A single block.** -/
theorem allocateBestFit_one (hok : GroupsOk g bgs) (hroom : 1 ≤ totalFree bgs) :
    ∃ reg bgs', allocateBestFit bgs 1 = .ok ([reg], bgs') ∧ reg.len = 1 ∧ GroupsOk g bgs' ∧
      Takes (FreeIn g bgs) (FreeIn g bgs') [reg.block] ∧ totalFree bgs = totalFree bgs' + 1 ∧
      inodeParts bgs' = inodeParts bgs := by
  obtain ⟨regs, bgs', hfit, hbest⟩ := allocateBestFit_ok hok hroom
  have hlens := hbest.regionsLen_eq
  have hpos := hbest.pos
  obtain ⟨reg, rfl, hlen⟩ : ∃ reg, regs = [reg] ∧ reg.len = 1 := by
    match regs with
    | [] => exact absurd hlens (by simp [regionsLen])
    | [reg] => exact ⟨reg, rfl, by simpa [regionsLen] using hlens⟩
    | reg :: reg' :: regs =>
      have hreg := hpos reg (by simp)
      have hreg' := hpos reg' (by simp)
      rw [regionsLen, List.map_cons, List.map_cons, List.sum_cons, List.sum_cons] at hlens
      omega
  have htakes := hbest.takes hok
  rw [regionBlocks_singleton hlen] at htakes
  exact ⟨reg, bgs', hfit, hlen, hbest.groupsOk hok, htakes, hbest.totalFree_eq, hbest.inodeParts_eq⟩

/-- **One block**, which is attached to the inode directly. -/
theorem inodeAllocateDataIndirect_one (hok : ImageOk g image) (hroom : 1 ≤ totalFree image.bgs) (inode : Inode) :
    ∃ b image', inodeAllocateDataIndirect g.info image inode g.info.blockSize g.info.blockSize =
        .ok (some image.buffers.length, { inode with iBlock := .direct [b] }, image') ∧
      image'.buffers = image.buffers ++ [List.replicate g.info.blockSize 0] ∧ Queued g image image' 1 ∧
      partAt g.info.blockSize image'.chunks b = some ⟨.buffer image.buffers.length, 0, g.info.blockSize⟩ := by
  have hbs := g.blockSize_pos
  have hone := divRoundUp_mul_self 1 hbs
  rw [Nat.one_mul] at hone
  obtain ⟨reg, bgs, hfit, hlen, hok', htakes, htotal, hinodes⟩ := allocateBestFit_one hok.groups hroom
  have hfree := htakes.wasFree reg.block (List.mem_singleton_self _)
  have hregions : remainingRegions { createAllocation with list := .fresh [reg] } = [(reg.block, 1)] := by
    rw [remainingRegions]
    simp [RegionList.fresh, hlen]
  have hblocks : rangeBlocks [(reg.block, 1)] = [reg.block] := rfl
  have hnodup : (rangeBlocks [(reg.block, 1)]).Nodup := List.nodup_singleton _
  have hget : getBlock { createAllocation with list := .fresh [reg] } 0 = some reg.block := by
    rw [getBlock, RegionList.getBlock_fresh, regionBlocks_singleton hlen]
    rfl
  have hadvance : ∃ alloc, advanceBlocks { createAllocation with list := .fresh [reg] } 1 = some alloc := by
    simp [advanceBlocks, advanceListPtr, RegionList.fresh, advanceLoop, hlen]
  obtain ⟨alloc, hadvance⟩ := hadvance
  have hmod : 1 % 2 ^ 32 = 1 := by decide
  rw [inodeAllocateDataIndirect, hone]
  dsimp only
  rw [hmod]
  rw [if_neg (by decide), allocateBlocks, hfit, ok_bind]
  dsimp only
  rw [if_neg (by simp), pure_def, ok_bind]
  dsimp only
  have henough : backingRunsOut g.info.blockSize [(reg.block, 1)] g.info.blockSize = false := by
    refine backingRunsOut_eq_false ?_
    rw [hblocks, List.length_singleton, Nat.one_mul]
  rw [RegionList.fresh] at hget hadvance hregions
  rw [if_pos (by omega), if_neg (by decide), extentCreateBacking, hregions, henough, if_neg Bool.false_ne_true,
    ok_bind, pure_def, ok_bind]
  dsimp only
  refine ⟨reg.block, ⟨bgs,
    image.chunks ++ backingChunks g.info.blockSize (.buffer image.buffers.length) [(reg.block, 1)] 0 g.info.blockSize,
    image.buffers ++ [List.replicate g.info.blockSize 0]⟩, ?_, rfl, ?_, ?_⟩
  · rw [hadvance, List.range_one, List.map_singleton, hget, Option.getD_some]
    rfl
  · have hcovers : ∀ c ∈ backingChunks g.info.blockSize (.buffer image.buffers.length) [(reg.block, 1)]
        0 g.info.blockSize, ∀ b, c.covers g.info.blockSize b = true → b ∈ [reg.block] := by
      intro c hc b hb
      rw [← hblocks]
      exact mem_rangeBlocks_of_covers hbs hc hb
    exact ⟨hok', hok.owned.append htakes hcovers (apart_backingChunks hbs hnodup _ _), ⟨_, htakes⟩,
      ⟨_, rfl, fun c hc b hb => htakes.wasFree b (hcovers c hc b hb)⟩, Nat.le_of_eq htotal, hinodes⟩
  · dsimp only
    have hfirst : (rangeBlocks [(reg.block, 1)])[0]? = some reg.block := rfl
    have hlt : 0 * g.info.blockSize < g.info.blockSize := by omega
    rw [partAt_new hok.owned hfree, partAt_backingChunks hbs hnodup hfirst hlt]
    simp

/-- The target of a link: in the inode, or at the start of a buffer. -/
def HoldsLink (blockSize : Nat) (image : Image) (inode : Inode) (lo : Nat) (link : List UInt8) : Prop :=
  inode.size = link.length ∧
    ((inode.iBlocksLo = 0 ∧ inode.iBlock = .text link) ∨
      (inode.iBlocksLo ≠ 0 ∧ ∃ id bytes, lo ≤ id ∧ image.buffers[id]? = some bytes ∧ link <+: bytes ∧
        HoldsParts blockSize image.chunks inode bytes.length (.buffer id)))

/-- **Making a symbolic link.** -/
theorem makeLink_ok (hok : ImageOk g image) {link : List UInt8} (hlen : link.length ≤ g.info.blockSize)
    (hroom : 1 ≤ totalFree image.bgs) (hinodes : 0 < totalFreeInodes image.bgs) :
    ∃ n inode image', makeLink g.info g.aux image link = .ok (n, image') ∧
      New g (fun _ => True) image n inode image' 1 1 ∧
      inode.iMode = S_IFLNK ∧ inode.iLinksCount = 1 ∧
      HoldsLink g.info.blockSize image' inode image.buffers.length link := by
  have hge := g.blockSize_ge
  have hlt := g.blockSize_lt
  obtain ⟨n, bgs, halloc, hok₁, hfresh, -, htotal, hnew⟩ := newInode_ok hok hinodes
  obtain ⟨hzero, hgot⟩ := hfresh.got hok₁
  rw [makeLink, halloc]
  dsimp only
  dsimp only at hzero hgot
  rw [hzero, Nat.mod_eq_of_lt (by omega)]
  by_cases hfast : link.length + 1 ≤ sizeofIBlock
  · rw [if_pos hfast]
    refine ⟨_, _, _, rfl, hnew _ _ _ (hgot.makes (Queued.refl hgot.ok 1) _ _) ⟨[], (List.append_nil _).symm⟩, rfl, rfl,
      ?_, Or.inl ⟨rfl, rfl⟩⟩
    simp [Inode.size, Inode.zero]
  · have htotal' := totalFree_of_blockParts hgot.blocks
    obtain ⟨b, image₁, hattach, hbuffers, hqueued, hpart⟩ :=
      inodeAllocateDataIndirect_one hgot.ok (by dsimp only at htotal' ⊢; omega)
      { Inode.zero with
        iMode := S_IFLNK, iLinksCount := 1, iFlags := Inode.zero.iFlags ||| EXT4_NOATIME_FL, iSizeLo := link.length }
    rw [if_neg hfast, hattach, ok_bind]
    dsimp only
    have hover : overwrite (List.replicate g.info.blockSize 0) 0 link =
        link ++ List.replicate (g.info.blockSize - link.length) (0 : UInt8) := by
      rw [overwrite, List.take_zero, List.nil_append, List.drop_replicate, Nat.zero_add]
    have hmodify : image₁.buffers.modify image.buffers.length (fun bytes => overwrite bytes 0 link) =
        image.buffers ++ [link ++ List.replicate (g.info.blockSize - link.length) 0] := by
      rw [hbuffers, modify_length_append, hover]
    rw [hmodify]
    have hbytes : (link ++ List.replicate (g.info.blockSize - link.length) (0 : UInt8)).length = g.info.blockSize := by
      rw [List.length_append, List.length_replicate]
      omega
    refine ⟨_, _, _, rfl, hnew _ _ _ (hgot.makes hqueued _ _) ⟨_, rfl⟩, rfl, rfl, ?_, Or.inr ⟨?_, image.buffers.length,
      link ++ List.replicate (g.info.blockSize - link.length) 0, Nat.le_refl _, List.getElem?_concat_length,
      List.prefix_append _ _, ?_⟩⟩
    · simp [Inode.size, Inode.zero]
    · exact Nat.ne_of_gt (Nat.div_pos (by omega) (by decide))
    · rw [hbytes]
      intro k hk
      obtain rfl : k = 0 := by
        rcases Nat.eq_zero_or_pos k with hzero | hpos
        · exact hzero
        · have hmul := Nat.mul_le_mul_right g.info.blockSize hpos
          omega
      refine ⟨b, (findBlock_direct zero_or_noatime rfl (by decide)).trans List.getElem?_cons_zero, ?_⟩
      rw [hpart, Nat.zero_mul, Nat.sub_zero, Nat.min_self]

/-! ### Permissions -/

/-- An inode whose permissions have been set. -/
def Inode.withPermissions (inode : Inode) (mode uid gid : BitVec 16) (mtime : Nat) : Inode :=
  { inode with
    iMode := inode.iMode ||| mode, iUid := uid, iGid := gid, iMtime := mtime, iAtime := mtime, iCtime := mtime }

/-- **Setting the permissions** of an inode that has been made. -/
theorem inodeSetPermissions_ok (hok : ImageOk g image) (hn : 0 < n) (hread : readInode g.info image.bgs n = some inode)
    (mode uid gid : BitVec 16) (mtime : Nat) :
    Makes g image n (inode.withPermissions mode uid gid mtime)
      (inodeSetPermissions g.info g.aux image n mode uid gid mtime) 0 ∧
      (inodeSetPermissions g.info g.aux image n mode uid gid mtime).chunks = image.chunks ∧
      (inodeSetPermissions g.info g.aux image n mode uid gid mtime).buffers = image.buffers := by
  have hgot := got_of_readInode hok hn hread
  have hmakes := hgot.makes (Queued.refl hgot.ok 0) (inode.withPermissions mode uid gid mtime) image.buffers
  rw [inodeSetPermissions]
  dsimp only
  rw [getInode_eq_of_readInode hread]
  exact ⟨hmakes, rfl, rfl⟩

/-- What has just been made is changed once more. -/
theorem New.makes {kept : Nat → Prop} {image'' : Image} {inodes : Nat}
    (h : New g kept image n inode image' blocks inodes) (hmakes : Makes g image' n inode' image'' 0)
    (hbuffers : ∀ id bytes, kept id → image'.buffers[id]? = some bytes → image''.buffers[id]? = some bytes)
    (hlength : image''.buffers.length = image'.buffers.length) : New g kept image n inode' image'' blocks inodes := by
  refine ⟨⟨hmakes.ok, fun m i hm hi => hmakes.others m i hm ?_ (h.others m i hm hi), ?_,
    h.chunks.trans h.takes hmakes.chunks,
    fun id bytes hid hbytes => hbuffers id bytes hid (h.buffers id bytes hid hbytes), ?_, ?_, ?_⟩, h.pos, h.lt, h.new,
    hmakes.read⟩
  · rintro rfl
    rw [h.new] at hi
    cases hi
  · obtain ⟨taken, htaken⟩ := h.takes
    obtain ⟨taken', htaken'⟩ := hmakes.takes
    exact ⟨_, htaken.append htaken'⟩
  · rw [hlength]
    exact h.length
  · exact Nat.le_trans h.total (Nat.add_le_add_right hmakes.total blocks)
  · rw [hmakes.totalInodes]
    exact h.totalInodes

end Goldfish.Ext4

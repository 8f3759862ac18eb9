/-!
# Goldfish.Ext4.Layout

What an inode looks like (`ext4.h`, `ext4_extents.h`), as far as the image builder fills it
in. `i_block` is a union in the source: `IBlock` says which of its readings was written.
-/

namespace Goldfish.Ext4

/-- The magic number of an extent header. -/
def EXT4_EXT_MAGIC : Nat := 0xf30a

/-- The largest length of an extent that is initialized. -/
def EXT_INIT_MAX_LEN : Nat := 1 <<< 15

/-- The direct blocks of an inode. -/
def EXT4_NDIR_BLOCKS : Nat := 12

/-- The time of access is not kept. -/
def EXT4_NOATIME_FL : BitVec 32 := 0x00000080#32

/-- The inode has extents. -/
def EXT4_EXTENTS_FL : BitVec 32 := 0x00080000#32

/-- The inode of the root directory. -/
def EXT4_ROOT_INO : Nat := 2

/-- The inode of the blocks that are kept for resizing. -/
def EXT4_RESIZE_INO : Nat := 7

/-- The inode of the journal. -/
def EXT4_JOURNAL_INO : Nat := 8

/-- The group has no inode table. -/
def EXT4_BG_INODE_UNINIT : BitVec 16 := 0x0001#16

/-- The type of a directory, in a mode. -/
def S_IFDIR : BitVec 16 := 0x4000#16

/-- The type of a regular file, in a mode. -/
def S_IFREG : BitVec 16 := 0x8000#16

/-- The type of a symbolic link, in a mode. -/
def S_IFLNK : BitVec 16 := 0xa000#16

/-- A regular file, in a directory entry. -/
def EXT4_FT_REG_FILE : Nat := 1

/-- A directory, in a directory entry. -/
def EXT4_FT_DIR : Nat := 2

/-- A symbolic link, in a directory entry. -/
def EXT4_FT_SYMLINK : Nat := 7

/-- `sizeof(inode->i_block)`. -/
def sizeofIBlock : Nat := 60

/-- The sizes of a header, of an extent and of an index: each takes 12 bytes. -/
def sizeofExtent : Nat := 12

/-- `ext4_extent_header`. -/
structure ExtentHeader where
  ehMagic : Nat
  ehEntries : Nat
  ehMax : Nat
  ehDepth : Nat
  ehGeneration : Nat
  deriving DecidableEq, Repr

/-- `ext4_extent`. The block is in two parts. -/
structure Extent where
  eeBlock : Nat
  eeLen : Nat
  eeStartHi : Nat
  eeStartLo : Nat
  deriving DecidableEq, Repr

/-- `ext4_extent_idx`. The block is in two parts. -/
structure ExtentIdx where
  eiBlock : Nat
  eiLeafLo : Nat
  eiLeafHi : Nat
  deriving DecidableEq, Repr

/-- What `i_block` holds. -/
inductive IBlock where
  | zeros
  /-- A header, and the extents behind it. -/
  | extents (hdr : ExtentHeader) (entries : List Extent)
  /-- A header, and the indices behind it. -/
  | indices (hdr : ExtentHeader) (entries : List ExtentIdx)
  /-- Direct blocks. -/
  | direct (blocks : List Nat)
  /-- The target of a fast symlink. -/
  | text (bytes : List UInt8)
  deriving DecidableEq, Repr

/-- `ext4_inode`, with the fields that are written. -/
structure Inode where
  iMode : BitVec 16
  iUid : BitVec 16
  iSizeLo : Nat
  iAtime : Nat
  iCtime : Nat
  iMtime : Nat
  iGid : BitVec 16
  iLinksCount : BitVec 16
  iBlocksLo : Nat
  iFlags : BitVec 32
  iBlock : IBlock
  iSizeHigh : Nat
  lIBlocksHigh : Nat
  deriving DecidableEq, Repr

/-- What `calloc` leaves. -/
def Inode.zero : Inode where
  iMode := 0
  iUid := 0
  iSizeLo := 0
  iAtime := 0
  iCtime := 0
  iMtime := 0
  iGid := 0
  iLinksCount := 0
  iBlocksLo := 0
  iFlags := 0
  iBlock := .zeros
  iSizeHigh := 0
  lIBlocksHigh := 0

end Goldfish.Ext4

import Goldfish.Ext4.Dentries
import Goldfish.Ext4.Extents
import Goldfish.Ext4.Inodes

/-!
# Goldfish.Ext4.Reader

Reading an image that has been built: the content of an inode, and from an inode a whole
tree.

A reader knows the image only by its blocks and inodes. What is not written does not
count as zeros: a block of a file that no chunk lies on is an error. `host` says what the
files on the host contain.
-/

namespace Goldfish.Ext4

open Goldfish.Lib

/-- `mode & S_IFMT`. -/
def S_IFMT : BitVec 16 := 0xf000#16

/-- The bytes of a source; a leaf is no content. -/
def sourceBytes (host : FileName → List UInt8) (image : Image) : Content → Option (List UInt8)
  | .leaf _ _ => none
  | .buffer id => image.buffers[id]?
  | .file filename => some (host filename)

/-- A block, with zeros behind what is written to it. -/
def blockBytes (host : FileName → List UInt8) (blockSize : Nat) (image : Image) (b : Nat) : Option (List UInt8) := do
  let part ← partAt blockSize image.chunks b
  let source ← sourceBytes host image part.content
  let bytes := (source.drop part.offset).take part.len
  pure (bytes ++ List.replicate (blockSize - bytes.length) 0)

/-- The first blocks of a file. -/
def readBlocks (host : FileName → List UInt8) (blockSize : Nat) (image : Image) (inode : Inode) :
    (n : Nat) → Option (List UInt8)
  | 0 => some []
  | n + 1 => do
    let before ← readBlocks host blockSize image inode n
    let b ← findBlock blockSize image.chunks inode n
    let bytes ← blockBytes host blockSize image b
    pure (before ++ bytes)

/-- The size, from its two halves. -/
def Inode.size (inode : Inode) : Nat := inode.iSizeHigh * 2 ^ 32 + inode.iSizeLo

/-- What is read of an inode, cut to its size. -/
def readContent (host : FileName → List UInt8) (blockSize : Nat) (image : Image) (inode : Inode) :
    Option (List UInt8) :=
  (readBlocks host blockSize image inode (divRoundUp inode.size blockSize)).map fun bytes => bytes.take inode.size

/-- The target of a symbolic link: a short one is in the inode itself. -/
def readLink (host : FileName → List UInt8) (blockSize : Nat) (image : Image) (inode : Inode) : Option (List UInt8) :=
  if inode.iBlocksLo = 0 then
    match inode.iBlock with
    | .text bytes => some (bytes.take inode.size)
    | _ => none
  else readContent host blockSize image inode

/-- What there is to know about an entry, besides what is in it. -/
structure Attributes where
  name : Name
  mode : BitVec 16
  uid : BitVec 16
  gid : BitVec 16
  links : BitVec 16
  mtime : Nat
  atime : Nat
  ctime : Nat
  deriving DecidableEq, Repr

/-- The attributes that a reader finds. -/
def attributes (name : Name) (inode : Inode) : Attributes :=
  ⟨name, inode.iMode, inode.iUid, inode.iGid, inode.iLinksCount, inode.iMtime, inode.iAtime, inode.iCtime⟩

/-- What a reader finds in a directory, in the order of its entries. -/
inductive Listing where
  | nil
  | file (attributes : Attributes) (bytes : List UInt8) (rest : Listing)
  | dir (attributes : Attributes) (entries : Listing) (rest : Listing)
  | link (attributes : Attributes) (target : List UInt8) (rest : Listing)
  deriving DecidableEq, Repr

/-- The entries of a directory behind `.` and `..`, which are checked. -/
def readEntriesOf (host : FileName → List UInt8) (info : Info) (image : Image) (inode : Inode) (num parent : Nat) :
    Option (List DirEntry) := do
  let bytes ← readContent host info.blockSize image inode
  match ← readDirectory info.blockSize bytes with
  | self :: up :: entries =>
    if self.key = (num, dot, EXT4_FT_DIR) ∧ up.key = (parent, dotDot, EXT4_FT_DIR) then pure entries else none
  | _ => none

/-- Everything under some entries of the directory with the number `dirInodeNum`. -/
def readTree (host : FileName → List UInt8) (info : Info) (image : Image) :
    (fuel : Nat) → (dirInodeNum : Nat) → List DirEntry → Option Listing
  | 0, _, _ => none
  | _ + 1, _, [] => some .nil
  | fuel + 1, dirInodeNum, e :: entries =>
    -- an entry without an inode is not in use
    if e.inode = 0 then readTree host info image fuel dirInodeNum entries
    else do
      let inode ← readInode info image.bgs e.inode
      let rest ← readTree host info image fuel dirInodeNum entries
      if e.fileType = EXT4_FT_REG_FILE ∧ inode.iMode &&& S_IFMT = S_IFREG then do
        let bytes ← readContent host info.blockSize image inode
        pure (.file (attributes e.name inode) bytes rest)
      else if e.fileType = EXT4_FT_DIR ∧ inode.iMode &&& S_IFMT = S_IFDIR then do
        let sub ← readEntriesOf host info image inode e.inode dirInodeNum
        let listing ← readTree host info image fuel e.inode sub
        pure (.dir (attributes e.name inode) listing rest)
      else if e.fileType = EXT4_FT_SYMLINK ∧ inode.iMode &&& S_IFMT = S_IFLNK then do
        let target ← readLink host info.blockSize image inode
        pure (.link (attributes e.name inode) target rest)
      else none

/-! ### The content of an inode -/

variable {host : FileName → List UInt8} {image : Image} {inode : Inode} {blockSize len : Nat} {content : Content}
  {bytes : List UInt8}

/-- A list, cut into blocks that are filled up with zeros. -/
theorem padded_block (bytes : List UInt8) {k n : Nat} (hlen : bytes.length ≤ n * blockSize) (hk : k < n) :
    ((bytes.drop (k * blockSize)).take (min blockSize (bytes.length - k * blockSize))) ++
        List.replicate
          (blockSize - ((bytes.drop (k * blockSize)).take (min blockSize (bytes.length - k * blockSize))).length) 0 =
      ((bytes ++ List.replicate (n * blockSize - bytes.length) 0).drop (k * blockSize)).take blockSize := by
  have hmul : (k + 1) * blockSize ≤ n * blockSize := Nat.mul_le_mul_right _ hk
  rw [Nat.succ_mul] at hmul
  have htake : (bytes.drop (k * blockSize)).take (min blockSize (bytes.length - k * blockSize)) =
      (bytes.drop (k * blockSize)).take blockSize := by
    rw [← List.length_drop, ← List.take_take, List.take_length]
  rw [htake, List.drop_append, List.take_append, List.length_take, List.length_drop, List.drop_replicate,
    List.take_replicate]
  congr 2
  omega

/-- **All the blocks of a file, one after another**, have its content. -/
theorem readBlocks_of_parts (h : HoldsParts blockSize image.chunks inode bytes.length content)
    (hsource : sourceBytes host image content = some bytes) {n : Nat} (hlen : bytes.length ≤ n * blockSize) {k : Nat}
    (hk : k ≤ n) (hinside : ∀ j, j < k → j * blockSize < bytes.length) :
    readBlocks host blockSize image inode k =
      some ((bytes ++ List.replicate (n * blockSize - bytes.length) 0).take (k * blockSize)) := by
  induction k with
  | zero => rw [readBlocks, Nat.zero_mul, List.take_zero]
  | succ k ih =>
    obtain ⟨b, hfind, hpart⟩ := h k (hinside k (Nat.lt_succ_self k))
    have hblock : blockBytes host blockSize image b =
        some (((bytes ++ List.replicate (n * blockSize - bytes.length) 0).drop (k * blockSize)).take blockSize) := by
      rw [← padded_block bytes hlen hk]
      simp only [blockBytes, hpart, hsource, Option.bind_eq_bind, Option.bind_some]
      rfl
    rw [readBlocks, ih (Nat.le_of_succ_le hk) fun j hj => hinside j (Nat.lt_succ_of_lt hj), hfind]
    simp only [hblock, Option.bind_eq_bind, Option.bind_some]
    rw [Nat.succ_mul, List.take_add]
    rfl

/-- **What is read is what was copied**, as far as the size of the inode says. -/
theorem readContent_of_parts (host : FileName → List UInt8) (hpos : 0 < blockSize)
    (h : HoldsParts blockSize image.chunks inode bytes.length content) (hsize : inode.size ≤ bytes.length)
    (hsource : sourceBytes host image content = some bytes) :
    readContent host blockSize image inode = some (bytes.take inode.size) := by
  have hblocks := readBlocks_of_parts h hsource (le_divRoundUp_mul bytes.length hpos)
    (divRoundUp_le_divRoundUp hsize) fun j hj => Nat.lt_of_lt_of_le ((lt_divRoundUp hpos).mp hj) hsize
  have hle := le_divRoundUp_mul inode.size hpos
  rw [readContent, hblocks, Option.map_some, List.take_take, Nat.min_eq_left hle, List.take_append_of_le_length hsize]

end Goldfish.Ext4

import Goldfish.Ext4.Allocator

/-!
# Goldfish.Ext4.Inodes

Handing out inodes, and the tables they are in (`allocate.c`).

A group has no table until one of its inodes is asked for. `readInode` is what a reader does:
it looks at the flag of the group and at the bitmap before it looks at the table. An inode
that has been allocated is new and all zeros (`reserves_of_allocateInode`), and every
operation keeps what can be read of the other inodes (`readInode_getInode`,
`readInode_putInode_ne`).
-/

namespace Goldfish.Ext4

open Goldfish.Lib Bitmap

/-- The group that an inode is in, and its place in the table. -/
def inodeGroup (info : Info) (n : Nat) : Nat := (n - 1) / info.inodesPerGroup

/-- The position of an inode in the table of its group. -/
def inodeSlot (info : Info) (n : Nat) : Nat := (n - 1) % info.inodesPerGroup

/-- `allocate_bg_inode_table`: a table is made when it is needed. -/
def allocateBgInodeTable (info : Info) (aux : AuxInfo) (bg : BlockGroup) : BlockGroup :=
  match bg.inodeTable with
  | some _ => bg
  | none => { bg with
      inodeTable := some (List.replicate (aux.inodeTableBlocks * info.blockSize / info.inodeSize) Inode.zero)
      flags := bg.flags &&& ~~~EXT4_BG_INODE_UNINIT }

/-- The first of the inodes and the group, or nothing for `EXT4_ALLOCATE_FAILED`. -/
def reserveInodes (bg : BlockGroup) (num : Nat) : Option (Nat × BlockGroup) :=
  if bg.freeInodes < num then none
  else some (bg.firstFreeInode, { bg with
    inodeBitmap := marked num (bg.firstFreeInode - 1) bg.inodeBitmap
    firstFreeInode := bg.firstFreeInode + num
    freeInodes := bg.freeInodes - num })

/-- The loop of `allocate_inode`, over the groups that are left. -/
def allocateInodeFrom (info : Info) (bgs : List BlockGroup) : List Nat → Option (Nat × List BlockGroup)
  | [] => none
  | i :: is =>
    match (bgs[i]?).bind fun bg => reserveInodes bg 1 with
    | some (inode, bg) => some (i * info.inodesPerGroup + inode, bgs.set i bg)
    | none => allocateInodeFrom info bgs is

/-- `allocate_inode`: an inode of the first group that has one. -/
def allocateInode (info : Info) (bgs : List BlockGroup) : Option (Nat × List BlockGroup) :=
  allocateInodeFrom info bgs (List.range bgs.length)

/-- The group of an inode. -/
def partOf (info : Info) (bgs : List BlockGroup) (n : Nat) : Option InodePart := (inodeParts bgs)[inodeGroup info n]?

/-- What the pointer that `get_inode` returns points to, and the groups. -/
def getInode (info : Info) (aux : AuxInfo) (bgs : List BlockGroup) (n : Nat) : Inode × List BlockGroup :=
  let bgs := bgs.modify (inodeGroup info n) (allocateBgInodeTable info aux)
  ((((partOf info bgs n).bind InodePart.inodeTable).bind fun table => table[inodeSlot info n]?).getD Inode.zero, bgs)

/-- What is written through that pointer. -/
def putInode (info : Info) (bgs : List BlockGroup) (n : Nat) (inode : Inode) : List BlockGroup :=
  bgs.modify (inodeGroup info n) fun bg =>
    { bg with inodeTable := bg.inodeTable.map fun table => table.set (inodeSlot info n) inode }

/-- `add_directory`. -/
def addDirectory (info : Info) (bgs : List BlockGroup) (n : Nat) : List BlockGroup :=
  bgs.modify (inodeGroup info n) fun bg => { bg with usedDirs := bg.usedDirs + 1 }

/-- What a reader sees of a place in a group. -/
def InodePart.read (p : InodePart) (slot : Nat) : Option Inode :=
  if p.flags &&& EXT4_BG_INODE_UNINIT = 0 ∧ bitAt p.inodeBitmap slot = true then
    p.inodeTable.bind fun table => table[slot]?
  else none

/-- What a reader sees of an inode. -/
def readInode (info : Info) (bgs : List BlockGroup) (n : Nat) : Option Inode :=
  (partOf info bgs n).bind fun p => p.read (inodeSlot info n)

/-! ### What the blocks of a group depend on -/

/-- The fields of a group that allocating blocks changes. -/
structure BlockPart where
  firstBlock : Nat
  blockBitmap : Bitmap
  freeBlocks : Nat
  firstFreeBlock : Nat
  deriving DecidableEq, Repr

/-- What allocating blocks touches. -/
def BlockGroup.blockPart (bg : BlockGroup) : BlockPart :=
  ⟨bg.firstBlock, bg.blockBitmap, bg.freeBlocks, bg.firstFreeBlock⟩

/-- The same of all groups. -/
def blockParts (bgs : List BlockGroup) : List BlockPart := bgs.map BlockGroup.blockPart

variable {g : Geometry} {bgs bgs' : List BlockGroup} {bg : BlockGroup} {i m n : Nat} {inode inode' : Inode}

theorem exists_of_blockParts (h : blockParts bgs' = blockParts bgs) (hbg : bgs'[i]? = some bg) :
    ∃ bg', bgs[i]? = some bg' ∧ bg'.blockPart = bg.blockPart := by
  have hpart : (blockParts bgs)[i]? = some bg.blockPart := by
    rw [← h, blockParts, List.getElem?_map, hbg, Option.map_some]
  rw [blockParts, List.getElem?_map, Option.map_eq_some_iff] at hpart
  exact hpart

theorem GroupOk.of_blockPart {bg' : BlockGroup} (h : bg'.blockPart = bg.blockPart) (hok : GroupOk g i bg') :
    GroupOk g i bg := by
  obtain ⟨hfirst, hbitmap, hfree, hfirstFree⟩ := BlockPart.mk.inj h
  refine ⟨?_, ?_, ?_, ?_, ?_⟩
  · rw [← hfirst, hok.firstBlock]
  · rw [← hbitmap, hok.length]
  · rw [← hfirstFree]
    exact hok.header
  · rw [← hfirstFree, ← hbitmap]
    exact hok.clear
  · rw [← hfirstFree, ← hfree]
    exact hok.free

theorem GroupsOk.of_blockParts (h : blockParts bgs' = blockParts bgs) (hok : GroupsOk g bgs) : GroupsOk g bgs' := by
  refine ⟨?_, fun i bg hbg => ?_⟩
  · have hlength := congrArg List.length h
    rw [blockParts, blockParts, List.length_map, List.length_map] at hlength
    rw [hlength, hok.length]
  · obtain ⟨bg', hbg', hpart⟩ := exists_of_blockParts h hbg
    exact (hok.groups i bg' hbg').of_blockPart hpart

theorem FreeIn.of_blockParts {b : Nat} (h : blockParts bgs' = blockParts bgs) (hfree : FreeIn g bgs' b) :
    FreeIn g bgs b := by
  obtain ⟨i, bg, hbg, hmem, hbit⟩ := hfree
  obtain ⟨bg', hbg', hpart⟩ := exists_of_blockParts h hbg
  exact ⟨i, bg', hbg', hmem, by rw [(BlockPart.mk.inj hpart).2.1, hbit]⟩

theorem freeIn_of_blockParts (h : blockParts bgs' = blockParts bgs) : FreeIn g bgs' = FreeIn g bgs :=
  funext fun _ => propext ⟨FreeIn.of_blockParts h, FreeIn.of_blockParts h.symm⟩

theorem blockParts_modify {f : BlockGroup → BlockGroup} (hf : ∀ bg, (f bg).blockPart = bg.blockPart)
    (bgs : List BlockGroup) (i : Nat) :
    blockParts (bgs.modify i f) = blockParts bgs := by
  refine List.ext_getElem? fun j => ?_
  rw [blockParts, blockParts, List.getElem?_map, List.getElem?_map, List.getElem?_modify]
  cases bgs[j]? with
  | none => rfl
  | some bg =>
    by_cases hj : i = j
    · simp [hj, hf]
    · simp [hj]

theorem allocateBgInodeTable_blockPart (info : Info) (aux : AuxInfo) (bg : BlockGroup) :
    (allocateBgInodeTable info aux bg).blockPart = bg.blockPart := by
  rw [allocateBgInodeTable]
  split <;> rfl

theorem blockParts_getInode (info : Info) (aux : AuxInfo) (bgs : List BlockGroup) (n : Nat) :
    blockParts (getInode info aux bgs n).2 = blockParts bgs :=
  blockParts_modify (allocateBgInodeTable_blockPart info aux) _ _

theorem blockParts_putInode (info : Info) (bgs : List BlockGroup) (n : Nat) (inode : Inode) :
    blockParts (putInode info bgs n inode) = blockParts bgs := by
  refine blockParts_modify ?_ _ _
  exact fun bg => rfl

theorem blockParts_addDirectory (info : Info) (bgs : List BlockGroup) (n : Nat) :
    blockParts (addDirectory info bgs n) = blockParts bgs := by
  refine blockParts_modify ?_ _ _
  exact fun bg => rfl

/-! ### What is true of the inodes of a group -/

/-- What holds of a group's inode bitmap and table: the free inodes are the last ones. -/
structure InodePartOk (g : Geometry) (p : InodePart) : Prop where
  length : p.inodeBitmap.length = g.info.blockSize
  first_pos : 0 < p.firstFreeInode
  first_le : p.firstFreeInode ≤ g.info.inodesPerGroup + 1
  used : ∀ j, j < g.info.inodesPerGroup → bitAt p.inodeBitmap j = decide (j + 1 < p.firstFreeInode)
  free : p.freeInodes = g.info.inodesPerGroup + 1 - p.firstFreeInode
  table : ∀ table, p.inodeTable = some table → p.flags &&& EXT4_BG_INODE_UNINIT = 0 ∧
    g.info.inodesPerGroup ≤ table.length ∧
    ∀ j, p.firstFreeInode ≤ j + 1 → j < g.info.inodesPerGroup → table[j]? = some Inode.zero

/-- **The number of free inodes is the number of clear bits.** -/
theorem InodePartOk.freeInodes_eq {p : InodePart} (h : InodePartOk g p) :
    p.freeInodes = clearBits p.inodeBitmap g.info.inodesPerGroup := by
  have hfirst := h.first_pos
  have hle := h.first_le
  rw [h.free, clearBits_eq_sub (a := p.firstFreeInode - 1) (Nat.le_refl _)
    fun j hj => by rw [h.used j hj, decide_eq_false_iff_not]; omega]
  omega

/-- The groups are all there, and the inodes of each are as they should be. -/
structure InodesOk (g : Geometry) (bgs : List BlockGroup) : Prop where
  length : bgs.length = g.aux.groups
  parts : ∀ p ∈ inodeParts bgs, InodePartOk g p

/-- An inode that has been allocated and that nothing has been written to. -/
structure Fresh (g : Geometry) (bgs : List BlockGroup) (n : Nat) : Prop where
  pos : 0 < n
  used : ∃ p, partOf g.info bgs n = some p ∧ inodeSlot g.info n + 1 < p.firstFreeInode ∧
    ∀ table, p.inodeTable = some table → table[inodeSlot g.info n]? = some Inode.zero

theorem inodeSlot_lt (g : Geometry) (n : Nat) : inodeSlot g.info n < g.info.inodesPerGroup :=
  Nat.mod_lt _ g.inodesPerGroup_pos

/-- An inode is in one place only. -/
theorem eq_of_slot (hm : 0 < m) (hn : 0 < n) (hgroup : inodeGroup g.info m = inodeGroup g.info n)
    (hslot : inodeSlot g.info m = inodeSlot g.info n) : m = n := by
  have hdivm := Nat.div_add_mod (m - 1) g.info.inodesPerGroup
  have hdivn := Nat.div_add_mod (n - 1) g.info.inodesPerGroup
  rw [inodeGroup, inodeGroup] at hgroup
  rw [inodeSlot, inodeSlot] at hslot
  rw [hgroup, hslot] at hdivm
  omega

theorem inodeGroup_add {inode : Nat} (hpos : 0 < inode) (hle : inode ≤ g.info.inodesPerGroup) :
    inodeGroup g.info (i * g.info.inodesPerGroup + inode) = i ∧
    inodeSlot g.info (i * g.info.inodesPerGroup + inode) = inode - 1 := by
  rw [inodeGroup, inodeSlot, Nat.add_sub_assoc hpos, Nat.mul_comm, Nat.mul_add_div g.inodesPerGroup_pos,
    Nat.mul_add_mod]
  exact ⟨by rw [Nat.div_eq_of_lt (by omega), Nat.add_zero], Nat.mod_eq_of_lt (by omega)⟩

/-- A change of one group. -/
theorem inodeParts_modify {f : BlockGroup → BlockGroup} {f' : InodePart → InodePart}
    (hf : ∀ bg, (f bg).inodePart = f' bg.inodePart) (bgs : List BlockGroup) (i : Nat) :
    inodeParts (bgs.modify i f) = (inodeParts bgs).modify i f' := by
  refine List.ext_getElem? fun j => ?_
  rw [inodeParts, inodeParts, List.getElem?_modify, List.getElem?_map, List.getElem?_map, List.getElem?_modify]
  cases bgs[j]? with
  | none => rfl
  | some bg =>
    by_cases hj : i = j
    · simp [hj, hf]
    · simp [hj]

theorem InodesOk.modify {f : BlockGroup → BlockGroup} (f' : InodePart → InodePart) (h : InodesOk g bgs)
    (hf : ∀ bg, (f bg).inodePart = f' bg.inodePart) (hok : ∀ p, (inodeParts bgs)[i]? = some p → InodePartOk g (f' p)) :
    InodesOk g (bgs.modify i f) := by
  refine ⟨by rw [List.length_modify, h.length], fun p hp => ?_⟩
  rw [inodeParts_modify hf] at hp
  obtain ⟨j, hj⟩ := List.mem_iff_getElem?.mp hp
  rw [List.getElem?_modify] at hj
  cases hpart : (inodeParts bgs)[j]? with
  | none =>
    rw [hpart] at hj
    cases hj
  | some p' =>
    rw [hpart] at hj
    by_cases heq : i = j
    · subst heq
      obtain rfl : f' p' = p := by simpa using hj
      exact hok p' hpart
    · obtain rfl : p' = p := by simpa [heq] using hj
      exact h.parts p' (List.mem_of_getElem? hpart)

/-- What is in another group stays. -/
theorem partOf_modify {f : BlockGroup → BlockGroup} {f' : InodePart → InodePart}
    (hf : ∀ bg, (f bg).inodePart = f' bg.inodePart) (bgs : List BlockGroup) (i m : Nat) :
    partOf g.info (bgs.modify i f) m = (partOf g.info bgs m).map fun p => if i = inodeGroup g.info m then f' p
      else p := by
  rw [partOf, inodeParts_modify hf, List.getElem?_modify]
  rfl

/-! ### Getting an inode -/

/-- What `allocate_bg_inode_table` does to the inodes of a group. -/
def InodePart.withTable (info : Info) (aux : AuxInfo) (p : InodePart) : InodePart :=
  match p.inodeTable with
  | some _ => p
  | none => { p with
      inodeTable := some (List.replicate (aux.inodeTableBlocks * info.blockSize / info.inodeSize) Inode.zero)
      flags := p.flags &&& ~~~EXT4_BG_INODE_UNINIT }

theorem allocateBgInodeTable_inodePart (info : Info) (aux : AuxInfo) (bg : BlockGroup) :
    (allocateBgInodeTable info aux bg).inodePart = bg.inodePart.withTable info aux := by
  rw [allocateBgInodeTable, InodePart.withTable]
  cases h : bg.inodeTable with
  | none => simp [BlockGroup.inodePart, h]
  | some table => simp [BlockGroup.inodePart, h]

theorem and_not_and_self (flags flag : BitVec 16) : flags &&& ~~~flag &&& flag = 0 := by
  ext i
  simp +contextual

theorem InodePartOk.withTable {p : InodePart} (h : InodePartOk g p) : InodePartOk g (p.withTable g.info g.aux) := by
  rw [InodePart.withTable]
  split
  · exact h
  · refine ⟨h.length, h.first_pos, h.first_le, h.used, h.free, fun table htable => ?_⟩
    obtain rfl := Option.some.inj htable
    refine ⟨and_not_and_self _ _, by rw [List.length_replicate]; exact g.inodeTable_ge, fun j _ hj => ?_⟩
    exact List.getElem?_replicate_of_lt (Nat.lt_of_lt_of_le hj g.inodeTable_ge)

theorem InodesOk.getInode (h : InodesOk g bgs) (n : Nat) : InodesOk g (getInode g.info g.aux bgs n).2 :=
  h.modify _ (allocateBgInodeTable_inodePart g.info g.aux) fun p hp => (h.parts p (List.mem_of_getElem? hp)).withTable

theorem partOf_getInode (bgs : List BlockGroup) (n m : Nat) :
    partOf g.info (getInode g.info g.aux bgs n).2 m =
      (partOf g.info bgs m).map fun p => if inodeGroup g.info n = inodeGroup g.info m then p.withTable g.info g.aux
        else p :=
  partOf_modify (allocateBgInodeTable_inodePart g.info g.aux) _ _ _

/-- **What can be read is not changed.** -/
theorem readInode_getInode (h : readInode g.info bgs m = some inode) :
    readInode g.info (getInode g.info g.aux bgs n).2 m = some inode := by
  rw [readInode, Option.bind_eq_some_iff] at h
  obtain ⟨p, hp, hread⟩ := h
  rw [readInode, partOf_getInode, hp, Option.map_some, Option.bind_some]
  rw [InodePart.read] at hread
  have hsame : p.withTable g.info g.aux = p := by
    rw [InodePart.withTable]
    cases htable : p.inodeTable with
    | some table => rfl
    | none =>
      rw [htable] at hread
      simp at hread
  rw [hsame, ite_self]
  exact hread

theorem Fresh.of_getInode (h : Fresh g bgs m) : Fresh g (getInode g.info g.aux bgs n).2 m := by
  obtain ⟨hpos, p, hp, hused, hzero⟩ := h
  refine ⟨hpos, _, by rw [partOf_getInode, hp, Option.map_some], ?_⟩
  split
  · rw [InodePart.withTable]
    split
    · exact ⟨hused, hzero⟩
    · refine ⟨hused, fun table htable => ?_⟩
      obtain rfl := Option.some.inj htable
      exact List.getElem?_replicate_of_lt (Nat.lt_of_lt_of_le (inodeSlot_lt g m) g.inodeTable_ge)
  · exact ⟨hused, hzero⟩

/-- **An inode to which nothing has been written is all zeros.** -/
theorem Fresh.getInode_eq (hok : InodesOk g bgs) (h : Fresh g bgs n) :
    (getInode g.info g.aux bgs n).1 = Inode.zero ∧
    readInode g.info (getInode g.info g.aux bgs n).2 n = some Inode.zero := by
  have hok' := hok.getInode n
  obtain ⟨hpos, p, hp, hused, hzero⟩ := h.of_getInode (n := n)
  have htable : ∃ table, p.inodeTable = some table := by
    obtain ⟨-, p', hp', -, -⟩ := h
    rw [partOf_getInode, hp', Option.map_some, if_pos rfl] at hp
    obtain rfl := Option.some.inj hp
    rw [InodePart.withTable]
    cases htable : p'.inodeTable with
    | some table => exact ⟨table, htable⟩
    | none => exact ⟨_, rfl⟩
  obtain ⟨table, htable⟩ := htable
  have hpart := hok'.parts p (List.mem_of_getElem? hp)
  have hbit : bitAt p.inodeBitmap (inodeSlot g.info n) = true := by
    rw [hpart.used _ (inodeSlot_lt g n), decide_eq_true hused]
  constructor
  · change ((((partOf g.info (Ext4.getInode g.info g.aux bgs n).2 n).bind _).bind _).getD _) = _
    rw [hp, Option.bind_some, htable, Option.bind_some, hzero table htable, Option.getD_some]
  · rw [readInode, hp, Option.bind_some, InodePart.read, if_pos ⟨(hpart.table table htable).1, hbit⟩, htable,
      Option.bind_some, hzero table htable]

/-- The pointer is to what a reader sees. -/
theorem getInode_eq_of_readInode (h : readInode g.info bgs n = some inode) :
    (getInode g.info g.aux bgs n).1 = inode := by
  have hread := readInode_getInode (n := n) h
  obtain ⟨p, hp, hslot⟩ := Option.bind_eq_some_iff.mp hread
  rw [InodePart.read] at hslot
  split at hslot
  · change (((partOf g.info (Ext4.getInode g.info g.aux bgs n).2 n).bind _).bind _).getD _ = _
    rw [hp, Option.bind_some, hslot, Option.getD_some]
  · cases hslot

/-! ### Writing to an inode -/

/-- An inode is written to its slot. -/
def InodePart.put (p : InodePart) (slot : Nat) (inode : Inode) : InodePart :=
  { p with inodeTable := p.inodeTable.map fun table => table.set slot inode }

theorem partOf_putInode (bgs : List BlockGroup) (n m : Nat) (inode : Inode) :
    partOf g.info (putInode g.info bgs n inode) m =
      (partOf g.info bgs m).map fun p => if inodeGroup g.info n = inodeGroup g.info m then
        p.put (inodeSlot g.info n) inode else p := by
  refine partOf_modify ?_ _ _ _
  exact fun bg => rfl

theorem InodePart.read_put (p : InodePart) (slot : Nat) (inode : Inode) :
    (p.put slot inode).read slot = (p.read slot).map fun _ => inode := by
  rw [InodePart.read, InodePart.read, InodePart.put]
  dsimp only
  split
  · cases p.inodeTable with
    | none => rfl
    | some table =>
      rw [Option.map_some, Option.bind_some, Option.bind_some, List.getElem?_set, if_pos rfl]
      split
      · rename_i hlt
        rw [List.getElem?_eq_getElem hlt, Option.map_some]
      · rename_i hge
        rw [List.getElem?_eq_none (Nat.le_of_not_lt hge), Option.map_none]
  · rfl

theorem InodePart.read_put_ne (p : InodePart) {slot slot' : Nat} (hne : slot ≠ slot') (inode : Inode) :
    (p.put slot inode).read slot' = p.read slot' := by
  rw [InodePart.read, InodePart.read, InodePart.put]
  dsimp only
  cases p.inodeTable with
  | none => rfl
  | some table => rw [Option.map_some, Option.bind_some, Option.bind_some, List.getElem?_set, if_neg hne]

/-- **What is written is what is read.** -/
theorem readInode_putInode_self (h : readInode g.info bgs n = some inode) :
    readInode g.info (putInode g.info bgs n inode') n = some inode' := by
  obtain ⟨p, hp, hread⟩ := Option.bind_eq_some_iff.mp h
  rw [readInode, partOf_putInode, hp, Option.map_some, Option.bind_some, if_pos rfl, InodePart.read_put, hread,
    Option.map_some]

/-- **The other inodes are not changed.** -/
theorem readInode_putInode_ne (hm : 0 < m) (hn : 0 < n) (hne : m ≠ n) (h : readInode g.info bgs m = some inode) :
    readInode g.info (putInode g.info bgs n inode') m = some inode := by
  obtain ⟨p, hp, hread⟩ := Option.bind_eq_some_iff.mp h
  rw [readInode, partOf_putInode, hp, Option.map_some, Option.bind_some]
  split
  · rename_i hgroup
    rw [InodePart.read_put_ne p (fun hslot => hne (eq_of_slot hm hn hgroup.symm hslot.symm)), hread]
  · exact hread

theorem InodesOk.putInode {inode : Inode} (h : InodesOk g bgs) (hread : readInode g.info bgs n = some inode') :
    InodesOk g (putInode g.info bgs n inode) := by
  refine h.modify (fun p => p.put (inodeSlot g.info n) inode) (fun bg => rfl) fun p hp => ?_
  have hpart := h.parts p (List.mem_of_getElem? hp)
  refine ⟨hpart.length, hpart.first_pos, hpart.first_le, hpart.used, hpart.free, fun table htable => ?_⟩
  obtain ⟨table', htable', rfl⟩ := Option.map_eq_some_iff.mp htable
  obtain ⟨hflags, hlength, hzero⟩ := hpart.table table' htable'
  refine ⟨hflags, by rwa [List.length_set], fun j hj hlt => ?_⟩
  rw [List.getElem?_set, if_neg ?_, hzero j hj hlt]
  rintro rfl
  obtain ⟨p', hp', hread⟩ := Option.bind_eq_some_iff.mp hread
  obtain rfl : p = p' := Option.some.inj (hp.symm.trans hp')
  have hunused : ¬ inodeSlot g.info n + 1 < p.firstFreeInode := Nat.not_lt.mpr hj
  rw [InodePart.read, hpart.used _ hlt, decide_eq_false hunused] at hread
  simp at hread

theorem Fresh.of_putInode (hn : 0 < n) (hne : m ≠ n) (h : Fresh g bgs m) :
    Fresh g (putInode g.info bgs n inode) m := by
  obtain ⟨hpos, p, hp, hused, hzero⟩ := h
  refine ⟨hpos, _, by rw [partOf_putInode, hp, Option.map_some], ?_⟩
  split
  · rename_i hgroup
    refine ⟨hused, fun table htable => ?_⟩
    obtain ⟨table', htable', rfl⟩ := Option.map_eq_some_iff.mp htable
    rw [List.getElem?_set, if_neg fun hslot => hne (eq_of_slot hpos hn hgroup.symm hslot.symm)]
    exact hzero table' htable'
  · exact ⟨hused, hzero⟩

/-! ### Counting directories -/

theorem partOf_addDirectory (bgs : List BlockGroup) (n m : Nat) :
    partOf g.info (addDirectory g.info bgs n) m =
      (partOf g.info bgs m).map fun p => if inodeGroup g.info n = inodeGroup g.info m then
        { p with usedDirs := p.usedDirs + 1 } else p := by
  refine partOf_modify ?_ _ _ _
  exact fun bg => rfl

theorem readInode_addDirectory : readInode g.info (addDirectory g.info bgs n) m = readInode g.info bgs m := by
  rw [readInode, readInode, partOf_addDirectory]
  cases partOf g.info bgs m with
  | none => rfl
  | some p =>
    rw [Option.map_some, Option.bind_some, Option.bind_some]
    split <;> rfl

theorem InodesOk.addDirectory (h : InodesOk g bgs) (n : Nat) : InodesOk g (addDirectory g.info bgs n) := by
  refine h.modify (fun p => { p with usedDirs := p.usedDirs + 1 }) (fun bg => rfl) fun p hp => ?_
  have hpart := h.parts p (List.mem_of_getElem? hp)
  exact ⟨hpart.length, hpart.first_pos, hpart.first_le, hpart.used, hpart.free, hpart.table⟩

theorem Fresh.of_addDirectory (h : Fresh g bgs m) : Fresh g (addDirectory g.info bgs n) m := by
  obtain ⟨hpos, p, hp, hused⟩ := h
  refine ⟨hpos, _, by rw [partOf_addDirectory, hp, Option.map_some], ?_⟩
  split
  · exact hused
  · exact hused

/-! ### Allocating an inode -/

/-- Inodes are taken from a group. -/
def InodePart.reserve (p : InodePart) (num : Nat) : InodePart :=
  { p with
    inodeBitmap := marked num (p.firstFreeInode - 1) p.inodeBitmap
    firstFreeInode := p.firstFreeInode + num
    freeInodes := p.freeInodes - num }

theorem InodePartOk.reserve {p : InodePart} {num : Nat} (h : InodePartOk g p) (hnum : num ≤ p.freeInodes) :
    InodePartOk g (p.reserve num) := by
  have hfirst := h.first_pos
  have hle := h.first_le
  have hfree := h.free
  have hbits := g.inodesPerGroup_le
  refine ⟨?_, ?_, ?_, fun j hj => ?_, ?_, fun table htable => ?_⟩
  · rw [InodePart.reserve, length_marked, h.length]
  · exact Nat.lt_of_lt_of_le hfirst (Nat.le_add_right _ _)
  · simp only [InodePart.reserve]
    omega
  · simp only [InodePart.reserve]
    rw [bitAt_marked, h.used j hj, h.length, ← Bool.decide_or]
    exact decide_eq_decide.mpr (by omega)
  · simp only [InodePart.reserve]
    omega
  · obtain ⟨hflags, hlength, hzero⟩ := h.table table htable
    refine ⟨hflags, hlength, fun j hj hlt => hzero j ?_ hlt⟩
    simp only [InodePart.reserve] at hj
    omega

/-- What `reserve_inodes` does to a group that has enough inodes. -/
def BlockGroup.reserveInodes (bg : BlockGroup) (num : Nat) : BlockGroup :=
  { bg with
    inodeBitmap := marked num (bg.firstFreeInode - 1) bg.inodeBitmap
    firstFreeInode := bg.firstFreeInode + num
    freeInodes := bg.freeInodes - num }

/-- A step that reserves inodes of a group. -/
structure Reserves (g : Geometry) (bgs : List BlockGroup) (i num first : Nat) (bgs' : List BlockGroup) : Prop where
  some_part : ∃ p, (inodeParts bgs)[i]? = some p ∧ num ≤ p.freeInodes ∧ first = p.firstFreeInode
  groups : bgs' = bgs.modify i fun bg => bg.reserveInodes num

section Reserves

variable {num first : Nat}

theorem reserves_of_reserveInodes {bg' : BlockGroup} (hbg : bgs[i]? = some bg)
    (h : reserveInodes bg num = some (first, bg')) :
    Reserves g bgs i num first (bgs.set i bg') := by
  rw [reserveInodes] at h
  split at h
  · cases h
  · rename_i hfree
    cases h
    refine ⟨⟨bg.inodePart, by rw [inodeParts, List.getElem?_map, hbg, Option.map_some], Nat.le_of_not_lt hfree, rfl⟩,
      ?_⟩
    have hmodify : (bgs.modify i fun bg => bg.reserveInodes num) = bgs.set i (bg.reserveInodes num) :=
      modify_eq_set_of_getElem? hbg
    exact hmodify.symm

theorem Reserves.partOf_eq (h : Reserves g bgs i num first bgs') (m : Nat) :
    partOf g.info bgs' m = (partOf g.info bgs m).map fun p => if i = inodeGroup g.info m then p.reserve num
      else p := by
  rw [h.groups]
  refine partOf_modify ?_ _ _ _
  exact fun bg => rfl

theorem Reserves.inodesOk (h : Reserves g bgs i num first bgs') (hok : InodesOk g bgs) : InodesOk g bgs' := by
  obtain ⟨p, hp, hnum, -⟩ := h.some_part
  rw [h.groups]
  refine hok.modify (fun p => p.reserve num) (fun bg => rfl) fun p' hp' => ?_
  obtain rfl : p = p' := Option.some.inj (hp.symm.trans hp')
  exact (hok.parts p (List.mem_of_getElem? hp)).reserve hnum

theorem Reserves.blockParts_eq (h : Reserves g bgs i num first bgs') : blockParts bgs' = blockParts bgs := by
  rw [h.groups]
  refine blockParts_modify ?_ _ _
  exact fun bg => rfl

/-- **What can be read is not changed.** -/
theorem Reserves.readInode (h : Reserves g bgs i num first bgs') (hread : readInode g.info bgs m = some inode) :
    readInode g.info bgs' m = some inode := by
  obtain ⟨p, hp, hslot⟩ := Option.bind_eq_some_iff.mp hread
  rw [Ext4.readInode, h.partOf_eq, hp, Option.map_some, Option.bind_some]
  split
  · rw [InodePart.read] at hslot ⊢
    split at hslot
    · rename_i hset
      have hbit : bitAt (p.reserve num).inodeBitmap (inodeSlot g.info m) = true := by
        rw [InodePart.reserve, bitAt_marked, hset.2, Bool.or_true]
      rw [if_pos ⟨hset.1, hbit⟩]
      exact hslot
    · cases hslot
  · exact hslot

/-- **The inodes that are reserved were not in use, and are all zeros.** -/
theorem Reserves.fresh (h : Reserves g bgs i num first bgs') (hok : InodesOk g bgs) {k : Nat} (hk : k < num) :
    Ext4.readInode g.info bgs (i * g.info.inodesPerGroup + (first + k)) = none ∧
      Fresh g bgs' (i * g.info.inodesPerGroup + (first + k)) := by
  obtain ⟨p, hp, hnum, rfl⟩ := h.some_part
  have hpart := hok.parts p (List.mem_of_getElem? hp)
  have hfree := hpart.free
  have hfirst := hpart.first_pos
  have hpos : 0 < p.firstFreeInode + k := by omega
  obtain ⟨hgroup, hslot⟩ := inodeGroup_add (g := g) (i := i) hpos (by omega)
  have hpart_of : partOf g.info bgs (i * g.info.inodesPerGroup + (p.firstFreeInode + k)) = some p := by
    rw [partOf, hgroup, hp]
  have hlt : p.firstFreeInode + k - 1 < g.info.inodesPerGroup := by omega
  constructor
  · rw [Ext4.readInode, hpart_of, Option.bind_some, hslot, InodePart.read, hpart.used _ hlt,
      decide_eq_false (by omega), if_neg (by simp)]
  · refine ⟨by omega, _, by rw [h.partOf_eq, hpart_of, Option.map_some, hgroup, if_pos rfl], ?_,
      fun table htable => ?_⟩
    · rw [hslot, InodePart.reserve]
      dsimp only
      omega
    · rw [hslot]
      exact (hpart.table table htable).2.2 _ (by omega) hlt

end Reserves

/-- The number fits in 32 bits. -/
theorem inode_lt {first : Nat} (hi : i < g.aux.groups) (hle : first ≤ g.info.inodesPerGroup) :
    i * g.info.inodesPerGroup + first < 2 ^ 32 := by
  have hmul : (i + 1) * g.info.inodesPerGroup ≤ g.aux.groups * g.info.inodesPerGroup := Nat.mul_le_mul_right _ hi
  have hlt := g.inodes_lt
  rw [Nat.succ_mul] at hmul
  omega

theorem reserves_of_allocateInodeFrom {is : List Nat} (h : allocateInodeFrom g.info bgs is = some (n, bgs')) :
    ∃ i first, Reserves g bgs i 1 first bgs' ∧ n = i * g.info.inodesPerGroup + first := by
  induction is with
  | nil => cases h
  | cons i is ih =>
    rw [allocateInodeFrom] at h
    split at h
    · rename_i inode bg hsome
      obtain ⟨bg', hbg', hreserve⟩ := Option.bind_eq_some_iff.mp hsome
      obtain ⟨rfl, rfl⟩ : i * g.info.inodesPerGroup + inode = n ∧ bgs.set i bg = bgs' := by simpa using h
      exact ⟨i, inode, reserves_of_reserveInodes hbg' hreserve, rfl⟩
    · exact ih h

/-- **An inode that is allocated was not in use**, and nothing else is changed. -/
theorem reserves_of_allocateInode (hok : InodesOk g bgs) (h : allocateInode g.info bgs = some (n, bgs')) :
    ∃ i first, Reserves g bgs i 1 first bgs' ∧ readInode g.info bgs n = none ∧ Fresh g bgs' n ∧ n < 2 ^ 32 := by
  obtain ⟨i, first, hreserves, rfl⟩ := reserves_of_allocateInodeFrom h
  obtain ⟨hnone, hfresh⟩ := hreserves.fresh hok (k := 0) (by decide)
  obtain ⟨p, hp, hfree, rfl⟩ := hreserves.some_part
  have hpart := hok.parts p (List.mem_of_getElem? hp)
  have hi : i < g.aux.groups := by
    have hlt := (List.getElem?_eq_some_iff.mp hp).1
    rwa [inodeParts, List.length_map, hok.length] at hlt
  have hle : p.firstFreeInode ≤ g.info.inodesPerGroup := by
    have heq := hpart.free
    omega
  exact ⟨i, p.firstFreeInode, hreserves, hnone, hfresh, inode_lt hi hle⟩

/-- **An inode is found as long as one is free.** -/
theorem allocateInode_eq_none_iff : allocateInode g.info bgs = none ↔ ∀ bg ∈ bgs, bg.freeInodes = 0 := by
  have hall : ∀ is, allocateInodeFrom g.info bgs is = none ↔ ∀ i ∈ is, ∀ bg, bgs[i]? = some bg →
      bg.freeInodes = 0 := by
    intro is
    induction is with
    | nil => exact ⟨fun _ => nofun, fun _ => rfl⟩
    | cons i is ih =>
      rw [allocateInodeFrom, List.forall_mem_cons]
      cases hbg : bgs[i]? with
      | none => simpa using ih
      | some bg =>
        rw [Option.bind_some, reserveInodes]
        by_cases hfree : bg.freeInodes < 1
        · rw [if_pos hfree]
          dsimp only
          rw [ih]
          exact ⟨fun h => ⟨fun bg' hbg' => by cases hbg'; omega, h⟩, fun h => h.2⟩
        · rw [if_neg hfree]
          exact ⟨nofun, fun h => absurd (h.1 bg rfl) (by omega)⟩
  rw [allocateInode, hall]
  constructor
  · intro h bg hbg
    obtain ⟨i, hi⟩ := List.mem_iff_getElem?.mp hbg
    exact h i (List.mem_range.mpr (List.getElem?_eq_some_iff.mp hi).1) bg hi
  · intro h i _ bg hbg
    exact h bg (List.mem_of_getElem? hbg)

/-! ### How many inodes are free -/

/-- The free inodes of all groups. -/
def totalFreeInodes (bgs : List BlockGroup) : Nat := ((inodeParts bgs).map InodePart.freeInodes).sum

theorem totalFreeInodes_modify {f : BlockGroup → BlockGroup} (f' : InodePart → InodePart)
    (hf : ∀ bg, (f bg).inodePart = f' bg.inodePart) (hfree : ∀ p, (f' p).freeInodes = p.freeInodes)
    (bgs : List BlockGroup) (i : Nat) :
    totalFreeInodes (bgs.modify i f) = totalFreeInodes bgs := by
  rw [totalFreeInodes, totalFreeInodes, inodeParts_modify hf]
  congr 1
  refine List.ext_getElem? fun j => ?_
  rw [List.getElem?_map, List.getElem?_map, List.getElem?_modify]
  cases (inodeParts bgs)[j]? with
  | none => rfl
  | some p =>
    by_cases hj : i = j
    · simp [hj, hfree]
    · simp [hj]

theorem totalFreeInodes_getInode (bgs : List BlockGroup) (n : Nat) :
    totalFreeInodes (getInode g.info g.aux bgs n).2 = totalFreeInodes bgs := by
  refine totalFreeInodes_modify _ (allocateBgInodeTable_inodePart g.info g.aux) (fun p => ?_) _ _
  rw [InodePart.withTable]
  split <;> rfl

theorem totalFreeInodes_putInode (info : Info) (bgs : List BlockGroup) (n : Nat) (inode : Inode) :
    totalFreeInodes (putInode info bgs n inode) = totalFreeInodes bgs := by
  refine totalFreeInodes_modify (fun p => p.put (inodeSlot info n) inode) ?_ (fun p => rfl) _ _
  exact fun bg => rfl

theorem totalFreeInodes_addDirectory (info : Info) (bgs : List BlockGroup) (n : Nat) :
    totalFreeInodes (addDirectory info bgs n) = totalFreeInodes bgs := by
  refine totalFreeInodes_modify (fun p => { p with usedDirs := p.usedDirs + 1 }) ?_ (fun p => rfl) _ _
  exact fun bg => rfl

theorem Reserves.totalFreeInodes_eq {num first : Nat} (h : Reserves g bgs i num first bgs') :
    totalFreeInodes bgs = totalFreeInodes bgs' + num := by
  obtain ⟨p, hp, hnum, -⟩ := h.some_part
  have hparts : inodeParts (bgs.modify i fun bg => bg.reserveInodes num) = (inodeParts bgs).modify i fun p =>
    p.reserve num := by
    refine inodeParts_modify ?_ _ _
    exact fun bg => rfl
  have hcounts : (inodeParts bgs').map InodePart.freeInodes =
      ((inodeParts bgs).map InodePart.freeInodes).set i (p.freeInodes - num) := by
    rw [h.groups, hparts]
    refine List.ext_getElem? fun j => ?_
    rw [List.getElem?_map, List.getElem?_modify, List.getElem?_set, List.length_map, List.getElem?_map]
    by_cases hj : i = j
    · subst hj
      rw [if_pos rfl, if_pos (List.getElem?_eq_some_iff.mp hp).1, hp]
      simp [InodePart.reserve]
    · rw [if_neg hj]
      simp [hj]
  have hsome : ((inodeParts bgs).map InodePart.freeInodes)[i]? = some p.freeInodes := by
    rw [List.getElem?_map, hp, Option.map_some]
  rw [totalFreeInodes, totalFreeInodes, hcounts]
  exact sum_eq_sum_set_sub hsome hnum

theorem allocateInode_ok (h : 0 < totalFreeInodes bgs) : ∃ n bgs', allocateInode g.info bgs = some (n, bgs') := by
  cases hnone : allocateInode g.info bgs with
  | some r => exact ⟨r.1, r.2, rfl⟩
  | none =>
    have hzero : totalFreeInodes bgs = 0 := by
      refine List.sum_eq_zero fun k hk => ?_
      rw [inodeParts, List.map_map] at hk
      obtain ⟨bg, hbg, rfl⟩ := List.mem_map.mp hk
      exact allocateInode_eq_none_iff.mp hnone bg hbg
    omega

end Goldfish.Ext4

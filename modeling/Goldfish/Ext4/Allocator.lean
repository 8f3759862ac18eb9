import Goldfish.Ext4.BlockGroup
import Goldfish.Ext4.Geometry
import Goldfish.Lib.Ownership
import Mathlib.Algebra.BigOperators.Group.List.Basic

/-!
# Goldfish.Ext4.Allocator

Handing out the blocks of a filesystem image (`allocate.c`): one block, the blocks of one
group, and the best fit over all groups.

`GroupOk` is what is true of a group all the time: in its bitmap the blocks are clear from
the first free one to its end, and as many are free. `allocateBlocksFromBlockGroup_eq` says
what taking blocks from a group does; the rest of the file uses nothing else of it. What
`allocateBestFit` returns was free before, each block once, and is free no more
(`BestFits.takes`).
-/

namespace Goldfish.Ext4

open Goldfish.Lib Bitmap

/-- `struct region`, without its links. -/
structure Region where
  block : Nat
  len : Nat
  bg : Nat
  deriving DecidableEq, Repr

/-- The blocks of a region. -/
def Region.blocks (r : Region) : List Nat := List.range' r.block r.len

/-- The blocks of some regions, in their order. -/
def regionBlocks (regions : List Region) : List Nat := regions.flatMap Region.blocks

/-! ### The beginning -/

/-- A group of which nothing is reserved. -/
def emptyGroup (info : Info) (aux : AuxInfo) (i : Nat) : BlockGroup where
  firstBlock := groupStart info aux i
  headerBlocks := headerBlocks info aux i
  dataBlocksUsed := 0
  hasSuperblock := bgHasSuperBlock info i
  blockBitmap := List.replicate info.blockSize 0#8
  inodeBitmap := List.replicate info.blockSize 0#8
  inodeTable := none
  freeBlocks := info.blocksPerGroup
  firstFreeBlock := 0
  freeInodes := info.inodesPerGroup
  firstFreeInode := 1
  flags := EXT4_BG_INODE_UNINIT
  usedDirs := 0

/-- The header is reserved, and in the last group what is behind the end of the image. -/
def initBg (info : Info) (aux : AuxInfo) (i : Nat) : Except String BlockGroup := do
  let empty := emptyGroup info aux i
  match ← reserveBlocks empty empty.firstFreeBlock empty.headerBlocks with
  | none => .error s!"failed to reserve {empty.headerBlocks} blocks in block group {i}\n"
  | some bg =>
    if bg.firstBlock + info.blocksPerGroup > aux.lenBlocks then
      let overrun := bg.firstBlock + info.blocksPerGroup - aux.lenBlocks
      match ← reserveBlocks bg (info.blocksPerGroup - overrun) overrun with
      | none => pure bg
      | some bg => pure bg
    else pure bg

/-- `block_allocator_init`: all the groups, with their headers. -/
def blockAllocatorInit (info : Info) (aux : AuxInfo) : Except String (List BlockGroup) :=
  (List.range aux.groups).mapM (initBg info aux)

/-! ### Allocating -/

/-- The first block and the groups afterwards, or nothing for `EXT4_ALLOCATE_FAILED`. No caller asks for a
group that is not there. -/
def allocateBlocksFromBlockGroup (bgs : List BlockGroup) (len bgNum : Nat) :
    Except String (Option (Nat × List BlockGroup)) :=
  match bgs[bgNum]? with
  | none => .ok none
  | some bg =>
    if bg.freeBlocks < len then .ok none
    else do
      match ← reserveBlocks bg bg.firstFreeBlock len with
      | none => .error s!"failed to reserve {len} blocks in block group {bgNum}\n"
      | some bg' =>
        pure (some (bg.firstBlock + bg.firstFreeBlock,
          bgs.set bgNum { bg' with dataBlocksUsed := bg'.dataBlocksUsed + len }))

/-- The loop of `allocate_block`, over the groups that are left. -/
def allocateBlockFrom (bgs : List BlockGroup) : List Nat → Except String (Option (Nat × List BlockGroup))
  | [] => .ok none
  | i :: is => do
    match ← allocateBlocksFromBlockGroup bgs 1 i with
    | some allocated => pure (some allocated)
    | none => allocateBlockFrom bgs is

/-- `allocate_block`: a block of the first group that has one. -/
def allocateBlock (bgs : List BlockGroup) : Except String (Option (Nat × List BlockGroup)) :=
  allocateBlockFrom bgs (List.range bgs.length)

/-- The condition under which the loop prefers a group to the one it has found. -/
def fitsBetter (len foundLen bgLen : Nat) : Bool :=
  (decide (len ≤ bgLen) && (foundLen == 0 || decide (bgLen < foundLen))) ||
    (decide (len > foundLen) && decide (bgLen > foundLen))

/-- The loop of `ext4_allocate_best_fit_partial`: the group that is found, and how much of it is free. -/
def findBestFit (len : Nat) : List BlockGroup → (i foundBg foundBgLen : Nat) → Nat × Nat
  | [], _, foundBg, foundBgLen => (foundBg, foundBgLen)
  | bg :: bgs, i, foundBg, foundBgLen =>
    if fitsBetter len foundBgLen bg.freeBlocks then findBestFit len bgs (i + 1) i bg.freeBlocks
    else findBestFit len bgs (i + 1) foundBg foundBgLen

/-- `allocate_best_fit_partial`: as much as possible from the group that fits best. -/
def allocateBestFitPartial (bgs : List BlockGroup) (len : Nat) : Except String (Region × List BlockGroup) :=
  match findBestFit len bgs 0 0 0 with
  | (foundBg, foundBgLen) =>
    if foundBgLen ≠ 0 then do
      match ← allocateBlocksFromBlockGroup bgs (min len foundBgLen) foundBg with
      | none => .error s!"failed to allocate {min len foundBgLen} blocks in block group {foundBg}"
      | some (block, bgs') => pure (⟨block, min len foundBgLen, foundBg⟩, bgs')
    else .error s!"failed to allocate {len} blocks, out of space?"

/-- The loop of `ext4_allocate_best_fit`. Every round takes a block, so `len` rounds are enough. -/
def allocateBestFitLoop : (fuel : Nat) → List BlockGroup → (len : Nat) → Except String (List Region × List BlockGroup)
  | 0, bgs, _ => .ok ([], bgs)
  | fuel + 1, bgs, len =>
    if len > 0 then do
      let (reg, bgs) ← allocateBestFitPartial bgs len
      let (regs, bgs) ← allocateBestFitLoop fuel bgs (len - reg.len)
      pure (reg :: regs, bgs)
    else .ok ([], bgs)

/-- `ext4_allocate_best_fit`. Each round takes at least one block. -/
def allocateBestFit (bgs : List BlockGroup) (len : Nat) : Except String (List Region × List BlockGroup) :=
  allocateBestFitLoop len bgs len

/-! ### What is true of a group -/

variable {g : Geometry} {bgs bgs' : List BlockGroup} {bg : BlockGroup} {i len : Nat}

/-- What holds of a group's block bitmap: the free blocks are the last ones. -/
structure GroupOk (g : Geometry) (i : Nat) (bg : BlockGroup) : Prop where
  firstBlock : bg.firstBlock = groupStart g.info g.aux i
  length : bg.blockBitmap.length = g.info.blockSize
  header : headerBlocks g.info g.aux i ≤ bg.firstFreeBlock
  clear : ∀ j, j < g.info.blocksPerGroup →
    (bitAt bg.blockBitmap j = false ↔ bg.firstFreeBlock ≤ j ∧ j < groupSize g.info g.aux i)
  free : bg.freeBlocks = groupSize g.info g.aux i - bg.firstFreeBlock

/-- **The number of free blocks is the number of clear bits.** -/
theorem GroupOk.freeBlocks_eq (h : GroupOk g i bg) :
    bg.freeBlocks = clearBits bg.blockBitmap g.info.blocksPerGroup := by
  rw [h.free, clearBits_eq_sub (g.groupSize_le i) h.clear]

/-- The groups are all there, and each is as it should be. -/
structure GroupsOk (g : Geometry) (bgs : List BlockGroup) : Prop where
  length : bgs.length = g.aux.groups
  groups : ∀ i bg, bgs[i]? = some bg → GroupOk g i bg

/-- A group after some blocks have been taken. -/
def BlockGroup.take (bg : BlockGroup) (len : Nat) : BlockGroup :=
  { bg with
    blockBitmap := marked len bg.firstFreeBlock bg.blockBitmap
    freeBlocks := bg.freeBlocks - len
    firstFreeBlock := bg.firstFreeBlock + len
    dataBlocksUsed := bg.dataBlocksUsed + len }

theorem GroupOk.take (h : GroupOk g i bg) (hlen : len ≤ bg.freeBlocks) : GroupOk g i (bg.take len) := by
  have hsize := g.groupSize_le i
  have hper := g.blocksPerGroup_le
  have hfree := h.free
  refine ⟨h.firstBlock, ?_, ?_, fun j hj => ?_, ?_⟩
  · rw [BlockGroup.take, length_marked, h.length]
  · exact Nat.le_trans h.header (Nat.le_add_right _ _)
  · simp only [BlockGroup.take]
    rw [bitAt_marked, Bool.or_eq_false_iff, decide_eq_false_iff_not, h.clear j hj, h.length]
    omega
  · simp only [BlockGroup.take]
    omega

/-- **Taking blocks from a group.** -/
theorem allocateBlocksFromBlockGroup_eq (h : GroupsOk g bgs) (hbg : bgs[i]? = some bg) :
    allocateBlocksFromBlockGroup bgs len i =
      .ok (if bg.freeBlocks < len then none
        else some (groupStart g.info g.aux i + bg.firstFreeBlock, bgs.set i (bg.take len))) := by
  have hok := h.groups i bg hbg
  have hsize := g.groupSize_le i
  rw [allocateBlocksFromBlockGroup, hbg]
  dsimp only
  by_cases hlen : bg.freeBlocks < len
  · rw [if_pos hlen, if_pos hlen]
  · rw [if_neg hlen, if_neg hlen]
    have hfree := hok.free
    have hclear : Clear bg.blockBitmap bg.firstFreeBlock len := by
      intro j hj hlt
      exact (hok.clear j (by omega)).mpr ⟨hj, by omega⟩
    rw [reserveBlocks_ok (Nat.le_of_not_lt hlen) hclear, if_pos rfl, ok_bind, ← hok.firstBlock]
    rfl

theorem GroupsOk.set (h : GroupsOk g bgs) {bg' : BlockGroup} (hbg : GroupOk g i bg') : GroupsOk g (bgs.set i bg') := by
  refine ⟨List.length_set.trans h.length, fun j bg hj => ?_⟩
  rw [List.getElem?_set] at hj
  split at hj
  · rename_i heq
    split at hj
    · cases hj
      exact heq ▸ hbg
    · cases hj
  · exact h.groups j bg hj

/-! ### The groups at the beginning -/

/-- The header is reserved. -/
theorem reserve_header (g : Geometry) (i : Nat) (hheader : headerBlocks g.info g.aux i ≤ g.info.blocksPerGroup) :
    reserveBlocks (emptyGroup g.info g.aux i) 0 (headerBlocks g.info g.aux i) =
      .ok (some { emptyGroup g.info g.aux i with
        blockBitmap := marked (headerBlocks g.info g.aux i) 0 (List.replicate g.info.blockSize 0#8)
        freeBlocks := g.info.blocksPerGroup - headerBlocks g.info g.aux i
        firstFreeBlock := headerBlocks g.info g.aux i }) := by
  have hnum : headerBlocks g.info g.aux i ≤ (emptyGroup g.info g.aux i).freeBlocks := hheader
  have hclear : Clear (emptyGroup g.info g.aux i).blockBitmap 0 (headerBlocks g.info g.aux i) :=
    fun j _ _ => bitAt_zeros g.info.blockSize j
  rw [reserveBlocks_ok hnum hclear]
  simp [emptyGroup]

/-- A group as `init_bg` leaves it. -/
structure InitialGroup (g : Geometry) (i : Nat) (bg : BlockGroup) : Prop extends GroupOk g i bg where
  free_all : bg.freeBlocks = groupSize g.info g.aux i - headerBlocks g.info g.aux i
  freeInodes : bg.freeInodes = g.info.inodesPerGroup
  firstFreeInode : bg.firstFreeInode = 1
  inodeBitmap : bg.inodeBitmap = List.replicate g.info.blockSize 0#8
  inodeTable : bg.inodeTable = none
  usedDirs : bg.usedDirs = 0

theorem initBg_ok (hi : i < g.aux.groups) : ∃ bg, initBg g.info g.aux i = .ok bg ∧ InitialGroup g i bg := by
  have hheader := g.header_le i hi
  have hsize := g.groupSize_le i
  have hper := g.blocksPerGroup_le
  have hsize_eq : groupSize g.info g.aux i = min g.info.blocksPerGroup (g.aux.lenBlocks - groupStart g.info g.aux i) :=
    rfl
  have hpos : 2 ≤ headerBlocks g.info g.aux i := by
    rw [headerBlocks]
    omega
  have hbits : ∀ j, bitAt (marked (headerBlocks g.info g.aux i) 0 (List.replicate g.info.blockSize 0#8)) j =
      decide (j < headerBlocks g.info g.aux i) := by
    intro j
    rw [bitAt_marked, bitAt_zeros, Bool.or_false, List.length_replicate]
    exact decide_eq_decide.mpr (by omega)
  rw [initBg]
  dsimp only
  rw [show (emptyGroup g.info g.aux i).firstFreeBlock = 0 from rfl,
    show (emptyGroup g.info g.aux i).headerBlocks = headerBlocks g.info g.aux i from rfl,
    reserve_header g i (Nat.le_trans hheader hsize), ok_bind]
  dsimp only
  rw [show (emptyGroup g.info g.aux i).firstBlock = groupStart g.info g.aux i from rfl]
  by_cases hover : groupStart g.info g.aux i + g.info.blocksPerGroup > g.aux.lenBlocks
  · rw [if_pos hover, reserveBlocks_ok (by dsimp only; omega) (fun j hj hlt => by
      dsimp only
      rw [hbits]
      exact decide_eq_false (by omega)), ok_bind]
    refine ⟨_, rfl, ⟨rfl, ?_, ?_, fun j hj => ?_, ?_⟩, ?_, rfl, rfl, rfl, rfl, rfl⟩
    · rw [length_marked, length_marked, List.length_replicate]
    · dsimp only
      split <;> omega
    · dsimp only
      rw [bitAt_marked, hbits, length_marked, List.length_replicate, ← Bool.decide_or, decide_eq_false_iff_not]
      split <;> omega
    · dsimp only
      split <;> omega
    · dsimp only
      omega
  · rw [if_neg hover]
    refine ⟨_, rfl, ⟨rfl, ?_, Nat.le_refl _, fun j hj => ?_, ?_⟩, ?_, rfl, rfl, rfl, rfl, rfl⟩
    · rw [length_marked, List.length_replicate]
    · dsimp only
      rw [hbits, decide_eq_false_iff_not]
      omega
    · dsimp only
      omega
    · dsimp only
      omega

/-- **The allocator can always be set up.** -/
theorem blockAllocatorInit_ok (g : Geometry) :
    ∃ bgs, blockAllocatorInit g.info g.aux = .ok bgs ∧ bgs.length = g.aux.groups ∧
      ∀ i bg, bgs[i]? = some bg → InitialGroup g i bg := by
  suffices h : ∀ n, n ≤ g.aux.groups → ∃ bgs, (List.range n).mapM (initBg g.info g.aux) = .ok bgs ∧ bgs.length = n ∧
      ∀ i bg, bgs[i]? = some bg → InitialGroup g i bg from h _ (Nat.le_refl _)
  intro n hn
  induction n with
  | zero => exact ⟨[], rfl, rfl, nofun⟩
  | succ n ih =>
    obtain ⟨bgs, hbgs, hlength, hall⟩ := ih (Nat.le_of_succ_le hn)
    obtain ⟨bg, hbg, hok⟩ := initBg_ok hn
    refine ⟨bgs ++ [bg], ?_, by rw [List.length_append, hlength]; rfl, fun i bg' hi => ?_⟩
    · rw [List.range_succ, List.mapM_append, hbgs, ok_bind, List.mapM_cons, hbg, ok_bind]
      rfl
    · rcases Nat.lt_or_ge i n with hlt | hge
      · rw [List.getElem?_append_left (hlength ▸ hlt)] at hi
        exact hall i bg' hi
      · rw [List.getElem?_append_right (hlength ▸ hge), hlength, List.getElem?_singleton] at hi
        split at hi
        · obtain rfl : i = n := by omega
          obtain rfl : bg = bg' := Option.some.inj hi
          exact hok
        · cases hi

/-! ### Which blocks are free -/

/-- A block behind the header of its group, whose bit is clear. -/
def FreeIn (g : Geometry) (bgs : List BlockGroup) (b : Nat) : Prop :=
  ∃ i bg, bgs[i]? = some bg ∧ b ∈ g.dataBlocks i ∧ bitAt bg.blockBitmap (b - groupStart g.info g.aux i) = false

theorem freeIn_iff (h : GroupsOk g bgs) {b : Nat} :
    FreeIn g bgs b ↔ ∃ i bg, bgs[i]? = some bg ∧ groupStart g.info g.aux i + bg.firstFreeBlock ≤ b ∧
      b < groupStart g.info g.aux i + groupSize g.info g.aux i := by
  refine exists_congr fun i => exists_congr fun bg => and_congr_right fun hbg => ?_
  have hok := h.groups i bg hbg
  have hsize := g.groupSize_le i
  have hheader := hok.header
  rw [Geometry.dataBlocks, List.mem_range'_1]
  constructor
  · intro ⟨hmem, hbit⟩
    have hclear := (hok.clear _ (by omega)).mp hbit
    omega
  · intro hmem
    exact ⟨by omega, (hok.clear _ (by omega)).mpr ⟨by omega, by omega⟩⟩

/-- A block is in one group. -/
theorem group_unique {i j b : Nat} (hi : groupStart g.info g.aux i ≤ b)
    (hi' : b < groupStart g.info g.aux i + groupSize g.info g.aux i) (hj : groupStart g.info g.aux j ≤ b)
    (hj' : b < groupStart g.info g.aux j + groupSize g.info g.aux j) : i = j := by
  have hsize := g.groupSize_le i
  have hsize' := g.groupSize_le j
  rcases Nat.lt_trichotomy i j with hlt | heq | hlt
  · have hle := g.groupStart_add_le hlt
    omega
  · exact heq
  · have hle := g.groupStart_add_le hlt
    omega

/-- **What is taken from a group was free, and is free no more.** -/
theorem takes_take (h : GroupsOk g bgs) (hbg : bgs[i]? = some bg) (hlen : len ≤ bg.freeBlocks) :
    Takes (FreeIn g bgs) (FreeIn g (bgs.set i (bg.take len)))
      (List.range' (groupStart g.info g.aux i + bg.firstFreeBlock) len) := by
  have hok := h.groups i bg hbg
  have hok' := h.set (hok.take hlen)
  have hi : i < bgs.length := (List.getElem?_eq_some_iff.mp hbg).1
  have hfree := hok.free
  refine ⟨List.nodup_range', fun b hb => (freeIn_iff h).mpr ⟨i, bg, hbg, ?_⟩, fun b => ?_⟩
  · rw [List.mem_range'_1] at hb
    omega
  · rw [freeIn_iff h, freeIn_iff hok', List.mem_range'_1]
    constructor
    · intro ⟨j, bg', hj, hge, hlt⟩
      rw [List.getElem?_set] at hj
      by_cases heq : i = j
      · subst heq
        rw [if_pos rfl, if_pos hi] at hj
        cases hj
        have htake : (bg.take len).firstFreeBlock = bg.firstFreeBlock + len := rfl
        exact ⟨⟨i, bg, hbg, by omega, hlt⟩, by omega⟩
      · rw [if_neg heq] at hj
        exact ⟨⟨j, bg', hj, hge, hlt⟩, fun hmem => heq (group_unique (by omega) (by omega) (by omega) hlt)⟩
    · intro ⟨⟨j, bg', hj, hge, hlt⟩, hnot⟩
      by_cases heq : i = j
      · subst heq
        rw [hbg] at hj
        cases hj
        have htake : (bg.take len).firstFreeBlock = bg.firstFreeBlock + len := rfl
        exact ⟨i, bg.take len, by rw [List.getElem?_set, if_pos rfl, if_pos hi], by omega, hlt⟩
      · exact ⟨j, bg', by rw [List.getElem?_set, if_neg heq, hj], hge, hlt⟩

/-! ### The best fit -/

/-- How many blocks of each group are free. -/
def frees (bgs : List BlockGroup) : List Nat := bgs.map BlockGroup.freeBlocks

/-- What `found` is among the groups that have been looked at: the smallest one that is large enough, or the
largest one. -/
structure BestFit (len : Nat) (seen : List Nat) (found foundLen : Nat) : Prop where
  mem : foundLen = 0 ∨ seen[found]? = some foundLen
  smallest : len ≤ foundLen → ∀ f ∈ seen, len ≤ f → foundLen ≤ f
  largest : foundLen < len → ∀ f ∈ seen, f ≤ foundLen

theorem fitsBetter_iff {len foundLen bgLen : Nat} :
    fitsBetter len foundLen bgLen = true ↔
      (len ≤ bgLen ∧ (foundLen = 0 ∨ bgLen < foundLen)) ∨ (foundLen < len ∧ foundLen < bgLen) := by
  simp [fitsBetter]

theorem bestFit_concat_found {seen : List Nat} {found foundLen bgLen : Nat} (hlen : 0 < len)
    (h : BestFit len seen found foundLen) (hbetter : fitsBetter len foundLen bgLen = true) :
    BestFit len (seen ++ [bgLen]) seen.length bgLen := by
  rw [fitsBetter_iff] at hbetter
  refine ⟨Or.inr (by simp), fun hfits f hf hle => ?_, fun hsmall f hf => ?_⟩
  · rcases List.mem_append.mp hf with hf | hf
    · by_cases hfound : len ≤ foundLen
      · have hmin := h.smallest hfound f hf hle
        omega
      · have hmax := h.largest (by omega) f hf
        omega
    · rw [List.mem_singleton.mp hf]
  · rcases List.mem_append.mp hf with hf | hf
    · have hmax := h.largest (by omega) f hf
      omega
    · rw [List.mem_singleton.mp hf]

theorem bestFit_concat_kept {seen : List Nat} {found foundLen bgLen : Nat} (h : BestFit len seen found foundLen)
    (hbetter : ¬ fitsBetter len foundLen bgLen = true) :
    BestFit len (seen ++ [bgLen]) found foundLen := by
  rw [fitsBetter_iff] at hbetter
  refine ⟨h.mem.imp_right fun hfound => ?_, fun hfits f hf hle => ?_, fun hsmall f hf => ?_⟩
  · rw [List.getElem?_append_left (List.getElem?_eq_some_iff.mp hfound).1, hfound]
  · rcases List.mem_append.mp hf with hf | hf
    · exact h.smallest hfits f hf hle
    · rw [List.mem_singleton.mp hf] at hle ⊢
      omega
  · rcases List.mem_append.mp hf with hf | hf
    · exact h.largest hsmall f hf
    · rw [List.mem_singleton.mp hf]
      omega

/-- **The loop finds the best fit.** -/
theorem bestFit_findBestFit (hlen : 0 < len) (bgs : List BlockGroup) {seen : List Nat} {found foundLen : Nat}
    (h : BestFit len seen found foundLen) :
    BestFit len (seen ++ frees bgs) (findBestFit len bgs seen.length found foundLen).1
      (findBestFit len bgs seen.length found foundLen).2 := by
  induction bgs generalizing seen found foundLen with
  | nil => simpa [frees, findBestFit] using h
  | cons bg bgs ih =>
    have hnext : seen ++ frees (bg :: bgs) = (seen ++ [bg.freeBlocks]) ++ frees bgs := by simp [frees]
    have hlength : seen.length + 1 = (seen ++ [bg.freeBlocks]).length := by simp
    rw [findBestFit, hnext, hlength]
    split
    · rename_i hbetter
      exact ih (bestFit_concat_found hlen h hbetter)
    · rename_i hbetter
      exact ih (bestFit_concat_kept h hbetter)

theorem bestFit_all (hlen : 0 < len) (bgs : List BlockGroup) :
    BestFit len (frees bgs) (findBestFit len bgs 0 0 0).1 (findBestFit len bgs 0 0 0).2 := by
  have hnone : BestFit len [] 0 0 := ⟨Or.inl rfl, fun _ => nofun, fun _ => nofun⟩
  exact bestFit_findBestFit hlen bgs hnone

/-- What one round of `ext4_allocate_best_fit` does. -/
structure TakesBestFit (g : Geometry) (bgs : List BlockGroup) (len : Nat) (reg : Region) (bgs' : List BlockGroup) :
    Prop where
  some_group : ∃ bg, bgs[reg.bg]? = some bg ∧
    reg = ⟨groupStart g.info g.aux reg.bg + bg.firstFreeBlock, reg.len, reg.bg⟩ ∧
    reg.len = min len bg.freeBlocks ∧ 0 < bg.freeBlocks ∧ bgs' = bgs.set reg.bg (bg.take reg.len) ∧
    BestFit len (frees bgs) reg.bg bg.freeBlocks

/-- **One round**: the best fit is taken, unless nothing is free. -/
theorem allocateBestFitPartial_cases (h : GroupsOk g bgs) (hlen : 0 < len) :
    (∃ reg bgs', allocateBestFitPartial bgs len = .ok (reg, bgs') ∧ TakesBestFit g bgs len reg bgs') ∨
      ((∀ f ∈ frees bgs, f = 0) ∧
        allocateBestFitPartial bgs len = .error s!"failed to allocate {len} blocks, out of space?") := by
  have hbest := bestFit_all hlen bgs
  rw [allocateBestFitPartial]
  revert hbest
  rcases findBestFit len bgs 0 0 0 with ⟨found, foundLen⟩
  intro hbest
  dsimp only at hbest ⊢
  by_cases hfound : foundLen = 0
  · refine Or.inr ⟨fun f hf => ?_, ?_⟩
    · have hmax := hbest.largest (by omega) f hf
      omega
    · rw [if_neg (not_not_intro hfound)]
  · have hsome := hbest.mem.resolve_left hfound
    rw [frees, List.getElem?_map, Option.map_eq_some_iff] at hsome
    obtain ⟨bg, hbg, rfl⟩ := hsome
    refine Or.inl ⟨⟨groupStart g.info g.aux found + bg.firstFreeBlock, min len bg.freeBlocks, found⟩,
      bgs.set found (bg.take (min len bg.freeBlocks)), ?_, ⟨bg, hbg, rfl, rfl, by omega, rfl, hbest⟩⟩
    rw [if_pos hfound, allocateBlocksFromBlockGroup_eq h hbg, if_neg (by omega)]
    rfl

/-- How many blocks are free in all. -/
def totalFree (bgs : List BlockGroup) : Nat := (frees bgs).sum

theorem frees_set_take (bgs : List BlockGroup) (i len : Nat) (bg : BlockGroup) :
    frees (bgs.set i (bg.take len)) = (frees bgs).set i (bg.freeBlocks - len) := List.map_set

theorem totalFree_take (hbg : bgs[i]? = some bg) (hlen : len ≤ bg.freeBlocks) :
    totalFree bgs = totalFree (bgs.set i (bg.take len)) + len := by
  have hfrees : (frees bgs)[i]? = some bg.freeBlocks := by rw [frees, List.getElem?_map, hbg, Option.map_some]
  rw [totalFree, totalFree, frees_set_take]
  exact sum_eq_sum_set_sub hfrees hlen

/-- **One block**: the first one that is free in the first group that has any. -/
theorem allocateBlock_cases (hok : GroupsOk g bgs) :
    (∃ i bg, bgs[i]? = some bg ∧ 0 < bg.freeBlocks ∧
        allocateBlock bgs = .ok (some (groupStart g.info g.aux i + bg.firstFreeBlock, bgs.set i (bg.take 1)))) ∨
      (totalFree bgs = 0 ∧ allocateBlock bgs = .ok none) := by
  have hall : ∀ is, (∀ i ∈ is, i < bgs.length) →
      (∃ i bg, bgs[i]? = some bg ∧ 0 < bg.freeBlocks ∧
          allocateBlockFrom bgs is =
            .ok (some (groupStart g.info g.aux i + bg.firstFreeBlock, bgs.set i (bg.take 1)))) ∨
        ((∀ i ∈ is, ∀ bg, bgs[i]? = some bg → bg.freeBlocks = 0) ∧ allocateBlockFrom bgs is = .ok none) := by
    intro is
    induction is with
    | nil => exact fun _ => Or.inr ⟨fun i hi => absurd hi List.not_mem_nil, rfl⟩
    | cons i is ih =>
      intro hlt
      obtain ⟨hi, hrest⟩ := List.forall_mem_cons.mp hlt
      obtain ⟨bg, hbg⟩ : ∃ bg, bgs[i]? = some bg := ⟨_, List.getElem?_eq_getElem hi⟩
      rw [allocateBlockFrom, allocateBlocksFromBlockGroup_eq hok hbg, ok_bind]
      by_cases hfree : bg.freeBlocks < 1
      · rw [if_pos hfree]
        dsimp only
        rcases ih hrest with hsome | ⟨hnone, hrun⟩
        · exact Or.inl hsome
        · refine Or.inr ⟨List.forall_mem_cons.mpr ⟨fun bg' hbg' => ?_, hnone⟩, hrun⟩
          obtain rfl : bg = bg' := Option.some.inj (hbg.symm.trans hbg')
          omega
      · rw [if_neg hfree]
        exact Or.inl ⟨i, bg, hbg, by omega, rfl⟩
  rcases hall (List.range bgs.length) fun i hi => List.mem_range.mp hi with hsome | ⟨hnone, hrun⟩
  · exact Or.inl hsome
  · refine Or.inr ⟨List.sum_eq_zero fun k hk => ?_, hrun⟩
    obtain ⟨bg, hbg, rfl⟩ := List.mem_map.mp hk
    obtain ⟨i, hi⟩ := List.mem_iff_getElem?.mp hbg
    exact hnone i (List.mem_range.mpr (List.getElem?_eq_some_iff.mp hi).1) bg hi

section Round

variable {reg : Region}

theorem TakesBestFit.pos (h : TakesBestFit g bgs len reg bgs') (hlen : 0 < len) : 0 < reg.len := by
  obtain ⟨bg, -, -, hreg, hfree, -, -⟩ := h.some_group
  omega

theorem TakesBestFit.le (h : TakesBestFit g bgs len reg bgs') : reg.len ≤ len := by
  obtain ⟨bg, -, -, hreg, -, -, -⟩ := h.some_group
  omega

theorem TakesBestFit.groupsOk (h : TakesBestFit g bgs len reg bgs') (hok : GroupsOk g bgs) : GroupsOk g bgs' := by
  obtain ⟨bg, hbg, -, hreg, -, rfl, -⟩ := h.some_group
  exact hok.set ((hok.groups _ bg hbg).take (by omega))

theorem TakesBestFit.takes (h : TakesBestFit g bgs len reg bgs') (hok : GroupsOk g bgs) :
    Takes (FreeIn g bgs) (FreeIn g bgs') reg.blocks := by
  obtain ⟨bg, hbg, hreg, hlen, -, rfl, -⟩ := h.some_group
  have hfits : reg.len ≤ bg.freeBlocks := by omega
  have htakes := takes_take hok hbg hfits
  rwa [show reg.blocks = List.range' (groupStart g.info g.aux reg.bg + bg.firstFreeBlock) reg.len by
    rw [Region.blocks, hreg]]

theorem TakesBestFit.totalFree_eq (h : TakesBestFit g bgs len reg bgs') :
    totalFree bgs = totalFree bgs' + reg.len := by
  obtain ⟨bg, hbg, -, hlen, -, rfl, -⟩ := h.some_group
  exact totalFree_take hbg (by omega)

end Round

/-- Rounds until everything is allocated. -/
inductive BestFits (g : Geometry) : List BlockGroup → (len : Nat) → List Region → List BlockGroup → Prop where
  | done (bgs : List BlockGroup) : BestFits g bgs 0 [] bgs
  | round {bgs bgs₁ bgs' : List BlockGroup} {len : Nat} {reg : Region} {regs : List Region} (hlen : 0 < len)
      (h : TakesBestFit g bgs len reg bgs₁) (hrest : BestFits g bgs₁ (len - reg.len) regs bgs') :
      BestFits g bgs len (reg :: regs) bgs'

/-- How many blocks some regions have. -/
def regionsLen (regs : List Region) : Nat := (regs.map Region.len).sum

section Rounds

variable {regs : List Region}

theorem BestFits.groupsOk (h : BestFits g bgs len regs bgs') (hok : GroupsOk g bgs) : GroupsOk g bgs' := by
  induction h with
  | done => exact hok
  | round hlen h _ ih => exact ih (h.groupsOk hok)

/-- **Nothing is allocated twice.** -/
theorem BestFits.takes (h : BestFits g bgs len regs bgs') (hok : GroupsOk g bgs) :
    Takes (FreeIn g bgs) (FreeIn g bgs') (regionBlocks regs) := by
  induction h with
  | done => exact Takes.nil
  | round hlen h _ ih => exact (h.takes hok).append (ih (h.groupsOk hok))

theorem BestFits.regionsLen_eq (h : BestFits g bgs len regs bgs') : regionsLen regs = len := by
  induction h with
  | done => rfl
  | round hlen h _ ih =>
    have hle := h.le
    rw [regionsLen, List.map_cons, List.sum_cons, ← regionsLen, ih]
    omega

theorem BestFits.pos (h : BestFits g bgs len regs bgs') : ∀ reg ∈ regs, 0 < reg.len := by
  induction h with
  | done => nofun
  | round hlen h _ ih =>
    intro reg hreg
    rcases List.mem_cons.mp hreg with rfl | hreg
    · exact h.pos hlen
    · exact ih reg hreg

theorem BestFits.totalFree_eq (h : BestFits g bgs len regs bgs') : totalFree bgs = totalFree bgs' + len := by
  induction h with
  | done => rfl
  | round hlen h _ ih =>
    have hround := h.totalFree_eq
    have hle := h.le
    omega

theorem allocateBestFitLoop_cases {fuel : Nat} (hok : GroupsOk g bgs) (hfuel : len ≤ fuel) :
    (∃ regs bgs', allocateBestFitLoop fuel bgs len = .ok (regs, bgs') ∧ BestFits g bgs len regs bgs') ∨
      (totalFree bgs < len ∧ ∃ e, allocateBestFitLoop fuel bgs len = .error e) := by
  induction fuel generalizing bgs len with
  | zero =>
    obtain rfl : len = 0 := by omega
    exact Or.inl ⟨[], bgs, rfl, .done bgs⟩
  | succ fuel ih =>
    rw [allocateBestFitLoop]
    rcases Nat.eq_zero_or_pos len with rfl | hlen
    · exact Or.inl ⟨[], bgs, rfl, .done bgs⟩
    · rw [if_pos hlen]
      rcases allocateBestFitPartial_cases hok hlen with ⟨reg, bgs₁, hreg, h⟩ | ⟨hzero, herror⟩
      · have hpos := h.pos hlen
        have hle := h.le
        have htotal := h.totalFree_eq
        have hfuel' : len - reg.len ≤ fuel := by omega
        rcases ih (h.groupsOk hok) hfuel' with ⟨regs, bgs', hrun, hrest⟩ | ⟨hfull, e, hrun⟩
        · refine Or.inl ⟨reg :: regs, bgs', ?_, .round hlen h hrest⟩
          rw [hreg, ok_bind]
          dsimp only
          rw [hrun]
          rfl
        · refine Or.inr ⟨by omega, e, ?_⟩
          rw [hreg, ok_bind]
          dsimp only
          rw [hrun]
          rfl
      · have htotal : totalFree bgs = 0 := List.sum_eq_zero hzero
        refine Or.inr ⟨by omega, s!"failed to allocate {len} blocks, out of space?", ?_⟩
        rw [herror]
        rfl

/-- **The best fit is found as long as enough is free.** -/
theorem allocateBestFit_ok (hok : GroupsOk g bgs) (hlen : len ≤ totalFree bgs) :
    ∃ regs bgs', allocateBestFit bgs len = .ok (regs, bgs') ∧ BestFits g bgs len regs bgs' :=
  (allocateBestFitLoop_cases hok (Nat.le_refl len)).resolve_right fun h => absurd h.1 (by omega)

theorem allocateBestFit_error (hok : GroupsOk g bgs) (hlen : totalFree bgs < len) :
    ∃ e, allocateBestFit bgs len = .error e := by
  rcases allocateBestFitLoop_cases hok (Nat.le_refl len) with ⟨regs, bgs', -, hrun⟩ | ⟨-, herror⟩
  · have htotal := hrun.totalFree_eq
    omega
  · exact herror

end Rounds

/-! ### How few regions there are -/

/-- How many blocks of a group are free, if there is such a group. -/
def freeOf (bgs : List BlockGroup) (i : Nat) : Nat := ((frees bgs)[i]?).getD 0

theorem freeOf_eq (hbg : bgs[i]? = some bg) : freeOf bgs i = bg.freeBlocks := by
  rw [freeOf, frees, List.getElem?_map, hbg]
  rfl

theorem BestFit.freeOf_le {found foundLen : Nat} (h : BestFit len (frees bgs) found foundLen) (hlt : foundLen < len) :
    freeOf bgs i ≤ foundLen := by
  rw [freeOf]
  cases hi : (frees bgs)[i]? with
  | none => exact Nat.zero_le _
  | some f => exact h.largest hlt f (List.mem_of_getElem? hi)

/-- All regions but the last one are the whole of groups that no other group is larger than, and are not
enough. -/
theorem BestFits.whole_groups {regs : List Region} (h : BestFits g bgs len regs bgs') (hne : regs ≠ []) :
    ∃ groups : Finset Nat, groups.card + 1 = regs.length ∧ ∑ i ∈ groups, freeOf bgs i < len ∧
      (∀ i ∈ groups, 0 < freeOf bgs i) ∧ ∀ i ∈ groups, ∀ j, j ∉ groups → freeOf bgs j ≤ freeOf bgs i := by
  induction h with
  | done => exact absurd rfl hne
  | @round bgs bgs₁ bgs' len reg regs hlen h hrest ih =>
    cases regs with
    | nil => exact ⟨∅, rfl, by simpa using hlen, nofun, nofun⟩
    | cons reg' regs =>
      obtain ⟨groups, hcard, hsum, hpos, hlarge⟩ := ih (List.cons_ne_nil _ _)
      obtain ⟨bg, hbg, -, hreg, hbgpos, rfl, hbest⟩ := h.some_group
      have hsmall : bg.freeBlocks < len := by
        by_contra hfits
        have hdone : len - reg.len = 0 := by omega
        rw [hdone] at hrest
        cases hrest with
        | round hlen' => exact absurd hlen' (Nat.lt_irrefl 0)
      have hall : reg.len = bg.freeBlocks := by omega
      have hfree : ∀ i, freeOf (bgs.set reg.bg (bg.take reg.len)) i = if i = reg.bg then 0 else freeOf bgs i := by
        intro i
        have hlt : reg.bg < (frees bgs).length := by
          rw [frees, List.length_map]
          exact (List.getElem?_eq_some_iff.mp hbg).1
        rw [freeOf, frees_set_take, List.getElem?_set]
        by_cases hi : reg.bg = i
        · rw [if_pos hi, if_pos hlt, if_pos hi.symm, hall]
          exact Nat.sub_self _
        · rw [if_neg hi, if_neg (Ne.symm hi)]
          rfl
      have hnew : reg.bg ∉ groups := by
        intro hmem
        have := hpos _ hmem
        rw [hfree, if_pos rfl] at this
        exact absurd this (Nat.lt_irrefl 0)
      have hsame : ∀ i ∈ groups, freeOf (bgs.set reg.bg (bg.take reg.len)) i = freeOf bgs i := by
        intro i hi
        rw [hfree, if_neg fun heq : i = reg.bg => hnew (heq ▸ hi)]
      refine ⟨insert reg.bg groups, ?_, ?_, fun i hi => ?_, fun i hi j hj => ?_⟩
      · rw [Finset.card_insert_of_notMem hnew, hcard]
        rfl
      · have hsum' : ∑ i ∈ groups, freeOf bgs i < len - reg.len := (Finset.sum_congr rfl hsame).symm.trans_lt hsum
        rw [Finset.sum_insert hnew, freeOf_eq hbg]
        omega
      · rcases Finset.mem_insert.mp hi with rfl | hi
        · rwa [freeOf_eq hbg]
        · rw [← hsame i hi]
          exact hpos i hi
      · rw [Finset.mem_insert, not_or] at hj
        rcases Finset.mem_insert.mp hi with rfl | hi
        · rw [freeOf_eq hbg]
          exact hbest.freeOf_le hsmall
        · have hle := hlarge i hi j hj.2
          rwa [hsame i hi, hfree, if_neg hj.1] at hle

/-- **No set of groups has enough room with fewer of them than there are regions.** -/
theorem BestFits.fewest {regs : List Region} (h : BestFits g bgs len regs bgs') {groups : Finset Nat}
    (henough : len ≤ ∑ i ∈ groups, freeOf bgs i) : regs.length ≤ groups.card := by
  rcases eq_or_ne regs [] with rfl | hne
  · exact Nat.zero_le _
  · obtain ⟨whole, hcard, hsum, -, hlarge⟩ := h.whole_groups hne
    by_contra hfew
    have hle : ∑ i ∈ groups, freeOf bgs i ≤ ∑ i ∈ whole, freeOf bgs i :=
      sum_le_sum_of_card_le (by omega) fun p hp o _ ho => hlarge p hp o ho
    omega

theorem totalFree_eq_sum (bgs : List BlockGroup) : totalFree bgs = ∑ i ∈ Finset.range bgs.length, freeOf bgs i := by
  rw [totalFree, frees, sum_eq_sum_range, List.length_map]
  rfl

/-- There are no more regions than groups. -/
theorem BestFits.length_le {regs : List Region} (h : BestFits g bgs len regs bgs') : regs.length ≤ bgs.length := by
  have htotal := h.totalFree_eq
  have hall := totalFree_eq_sum bgs
  have hfew : regs.length ≤ (Finset.range bgs.length).card := h.fewest (by omega)
  rwa [Finset.card_range] at hfew

/-- If more blocks are free than there are groups, two of them are in one group. -/
theorem exists_two_le_freeOf (h : bgs.length < totalFree bgs) : ∃ i, 2 ≤ freeOf bgs i := by
  by_contra hnone
  have hone : ∀ i ∈ Finset.range bgs.length, freeOf bgs i ≤ 1 :=
    fun i _ => Nat.le_of_lt_succ (not_le.mp fun hi => hnone ⟨i, hi⟩)
  have hsum := Finset.sum_le_card_nsmul (Finset.range bgs.length) (freeOf bgs) 1 hone
  rw [← totalFree_eq_sum, Finset.card_range, nsmul_eq_mul, Nat.mul_one] at hsum
  exact absurd h (Nat.not_lt.mpr hsum)

/-! ### The first region -/

section First

variable {reg : Region} {regs : List Region}

/-- Nothing is taken from a full group. -/
theorem BestFits.group_of_full (h : BestFits g bgs len regs bgs') (hbg : bgs[i]? = some bg)
    (hfull : bg.freeBlocks = 0) :
    bgs'[i]? = some bg := by
  induction h with
  | done => exact hbg
  | round hlen h _ ih =>
    obtain ⟨bg', hbg', -, -, hpos, rfl, -⟩ := h.some_group
    refine ih ?_
    rw [List.getElem?_set, if_neg ?_, hbg]
    rintro rfl
    rw [hbg] at hbg'
    cases hbg'
    omega

/-- If there is another region, the first one is all of its group that was free. -/
theorem BestFits.first (h : BestFits g bgs len (reg :: regs) bgs') :
    ∃ bg, bgs[reg.bg]? = some bg ∧ reg.block = groupStart g.info g.aux reg.bg + bg.firstFreeBlock ∧
      reg.len = min len bg.freeBlocks ∧ bgs'[reg.bg]? = some (bg.take reg.len) ∧
      BestFit len (frees bgs) reg.bg bg.freeBlocks := by
  cases h with
  | round hlen h hrest =>
    obtain ⟨bg, hbg, hreg, hmin, -, rfl, hbest⟩ := h.some_group
    have hi : reg.bg < bgs.length := (List.getElem?_eq_some_iff.mp hbg).1
    have hset : (bgs.set reg.bg (bg.take reg.len))[reg.bg]? = some (bg.take reg.len) := by
      rw [List.getElem?_set, if_pos rfl, if_pos hi]
    refine ⟨bg, hbg, by rw [hreg], hmin, ?_, hbest⟩
    by_cases hall : bg.freeBlocks ≤ reg.len
    · exact hrest.group_of_full hset (Nat.sub_eq_zero_of_le hall)
    · have hdone : len - reg.len = 0 := by omega
      rw [hdone] at hrest
      cases hrest with
      | done => exact hset
      | round hlen' => exact absurd hlen' (Nat.lt_irrefl 0)

/-- The first region has two blocks, if that many are asked for and some group has as many. -/
theorem BestFits.one_lt_first (h : BestFits g bgs len (reg :: regs) bgs') (hlen : 2 ≤ len) (hroom : 2 ≤ freeOf bgs i) :
    1 < reg.len := by
  obtain ⟨bg, -, -, hmin, -, hbest⟩ := h.first
  by_cases hfits : len ≤ bg.freeBlocks
  · omega
  · have hle := hbest.freeOf_le (i := i) (by omega)
    omega

theorem BestFits.inodeParts_eq (h : BestFits g bgs len regs bgs') : inodeParts bgs' = inodeParts bgs := by
  induction h with
  | done => rfl
  | round _ h _ ih =>
    obtain ⟨bg, hbg, -, -, -, rfl, -⟩ := h.some_group
    exact ih.trans (inodeParts_set hbg rfl)

/-- A region is in one group. -/
theorem BestFits.len_le (h : BestFits g bgs len regs bgs') (hok : GroupsOk g bgs) :
    ∀ reg ∈ regs, reg.len ≤ g.info.blocksPerGroup := by
  induction h with
  | done => nofun
  | round hlen h _ ih =>
    intro reg hreg
    rcases List.mem_cons.mp hreg with rfl | hreg
    · obtain ⟨bg, hbg, -, hmin, -⟩ := h.some_group
      have hfree := (hok.groups _ bg hbg).free
      have hsize := g.groupSize_le reg.bg
      omega
    · exact ih (h.groupsOk hok) reg hreg

end First

/-! ### Giving a block back -/

theorem modify_eq_set_of_getElem? {f : BlockGroup → BlockGroup} (hbg : bgs[i]? = some bg) :
    bgs.modify i f = bgs.set i (f bg) := by
  refine List.ext_getElem? fun j => ?_
  rw [List.getElem?_modify, List.getElem?_set]
  by_cases hj : i = j
  · subst hj
    rw [if_pos rfl, if_pos (List.getElem?_eq_some_iff.mp hbg).1, hbg]
    simp
  · rw [if_neg hj]
    simp [hj]

/-- The last block that was taken from a group. -/
theorem GroupOk.giveBack (h : GroupOk g i bg) (hlen : 0 < len) (hle : len ≤ bg.freeBlocks) :
    GroupOk g i (freeBlocks (bg.take len) 1) := by
  have hok := h.take hle
  have hfree := h.free
  have hsize := g.groupSize_le i
  have hper := g.blocksPerGroup_le
  have hfirst : (bg.take len).firstFreeBlock = bg.firstFreeBlock + len := rfl
  have hheader := h.header
  refine ⟨hok.firstBlock, ?_, ?_, fun j hj => ?_, ?_⟩
  · rw [freeBlocks, length_clearBlocks, hok.length]
  · simp only [freeBlocks]
    omega
  · simp only [freeBlocks]
    rw [bitAt_clearBlocks (by omega) (by rw [hok.length]; omega), Bool.and_eq_false_iff, decide_eq_false_iff_not,
      hok.clear j hj]
    omega
  · have htake := hok.free
    simp only [freeBlocks]
    omega

/-- **A block that is given back is free again**, and nothing else changes. -/
theorem freeIn_giveBack (h : GroupsOk g bgs) {reg : Nat} (hbg : bgs[reg]? = some (bg.take len))
    (hok : GroupOk g reg bg) (hlen : 0 < len) (hle : len ≤ bg.freeBlocks) (b : Nat) :
    FreeIn g (bgs.set reg (freeBlocks (bg.take len) 1)) b ↔
      FreeIn g bgs b ∨ b = groupStart g.info g.aux reg + bg.firstFreeBlock + (len - 1) := by
  have hi : reg < bgs.length := (List.getElem?_eq_some_iff.mp hbg).1
  have hfree := hok.free
  have htake : (bg.take len).firstFreeBlock = bg.firstFreeBlock + len := rfl
  have hback : (freeBlocks (bg.take len) 1).firstFreeBlock = bg.firstFreeBlock + len - 1 := rfl
  rw [freeIn_iff h, freeIn_iff (h.set (hok.giveBack hlen hle))]
  constructor
  · intro ⟨j, bg', hj, hge, hlt⟩
    rw [List.getElem?_set] at hj
    by_cases heq : reg = j
    · subst heq
      rw [if_pos rfl, if_pos hi] at hj
      cases hj
      by_cases hlast : b = groupStart g.info g.aux reg + bg.firstFreeBlock + (len - 1)
      · exact Or.inr hlast
      · exact Or.inl ⟨reg, bg.take len, hbg, by omega, hlt⟩
    · rw [if_neg heq] at hj
      exact Or.inl ⟨j, bg', hj, hge, hlt⟩
  · rintro (⟨j, bg', hj, hge, hlt⟩ | rfl)
    · by_cases heq : reg = j
      · subst heq
        rw [hbg] at hj
        cases hj
        exact ⟨reg, freeBlocks (bg.take len) 1, by rw [List.getElem?_set, if_pos rfl, if_pos hi], by omega, hlt⟩
      · exact ⟨j, bg', by rw [List.getElem?_set, if_neg heq, hj], hge, hlt⟩
    · exact ⟨reg, freeBlocks (bg.take len) 1, by rw [List.getElem?_set, if_pos rfl, if_pos hi], by omega, by omega⟩

end Goldfish.Ext4

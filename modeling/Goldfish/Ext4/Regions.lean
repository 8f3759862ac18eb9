import Goldfish.Ext4.Allocator

/-!
# Goldfish.Ext4.Regions

The regions of an allocation, as a list with a pointer into it (`allocate.c`).

Pointers into the list are positions here, and the position behind the last region is
`NULL`. `allocate_blocks` leaves `list.last` at the first region: `last` is kept as the
source has it.

Giving the last block back, or setting the first one aside, leaves the other blocks in
their order (`reduceAllocation_one`, `reserveOobBlocks_one`), if the first region has more
than one. If it has one, giving it back drops the whole list (`reduceAllocation_whole`), and setting it
aside takes all the others instead (`reserveOobBlocks_whole`).
-/

namespace Goldfish.Ext4

open Goldfish.Lib

/-- `struct region_list`. -/
structure RegionList where
  regions : List Region
  last : Option Nat
  iter : Nat
  partialIter : Nat
  deriving DecidableEq, Repr

/-- No regions. -/
def RegionList.empty : RegionList := ⟨[], none, 0, 0⟩

/-- `struct block_allocation`. -/
structure BlockAllocation where
  list : RegionList
  oobList : RegionList
  deriving DecidableEq, Repr

/-- `create_allocation`. -/
def createAllocation : BlockAllocation := ⟨.empty, .empty⟩

/-- A region is taken out of the list: what is behind it moves up. -/
def regionListRemove (list : RegionList) (reg : Nat) : RegionList :=
  { list with
    regions := list.regions.eraseIdx reg
    last := list.last.bind fun last =>
      if last = reg then (if reg = 0 then none else some (reg - 1)) else some (if reg < last then last - 1 else last)
    iter := if reg < list.iter then list.iter - 1 else list.iter }

/-- `region_list_append`. -/
def regionListAppend (list : RegionList) (reg : Region) : RegionList :=
  if list.regions.isEmpty then { regions := [reg], last := some 0, iter := 0, partialIter := 0 }
  else { list with regions := list.regions ++ [reg], last := some list.regions.length }

/-- `append_region`. -/
def appendRegion (alloc : BlockAllocation) (block len bgNum : Nat) : BlockAllocation :=
  { alloc with list := regionListAppend alloc.list ⟨block, len, bgNum⟩ }

/-- Nothing stands for `NULL`: no blocks were asked for. -/
def allocateBlocks (bgs : List BlockGroup) (len : Nat) :
    Except String (Option (BlockAllocation × List BlockGroup)) := do
  let (regs, bgs) ← allocateBestFit bgs len
  if regs.isEmpty then pure none
  else pure (some ({ createAllocation with list := { regions := regs, last := some 0, iter := 0, partialIter := 0 } },
    bgs))

/-- `block_allocation_num_regions`. -/
def blockAllocationNumRegions (alloc : BlockAllocation) : Nat := alloc.list.regions.length

/-- `block_allocation_len`. -/
def blockAllocationLen (alloc : BlockAllocation) : Nat := regionsLen alloc.list.regions

/-! ### Looking at blocks -/

/-- The loop of `get_block`. Nothing stands for `EXT4_ALLOCATE_FAILED`. -/
def nthBlock : List Region → (block : Nat) → Option Nat
  | [], _ => none
  | reg :: regs, block => if block < reg.len then some (reg.block + block) else nthBlock regs (block - reg.len)

/-- `get_block`, from where the pointer stands. -/
def RegionList.getBlock (list : RegionList) (block : Nat) : Option Nat :=
  nthBlock (list.regions.drop list.iter) (block + list.partialIter)

/-- `get_block`, of the regions themselves. -/
def getBlock (alloc : BlockAllocation) (block : Nat) : Option Nat := alloc.list.getBlock block

/-- `get_oob_block`. -/
def getOobBlock (alloc : BlockAllocation) (block : Nat) : Option Nat := alloc.oobList.getBlock block

/-- `rewind_alloc`. -/
def rewindAlloc (alloc : BlockAllocation) : BlockAllocation :=
  { alloc with list := { alloc.list with iter := 0, partialIter := 0 } }

/-- What `get_region` and `get_next_region` go through: starts and lengths. -/
def remainingRegions (alloc : BlockAllocation) : List (Nat × Nat) :=
  match alloc.list.regions.drop alloc.list.iter with
  | [] => []
  | reg :: regs => (reg.block, reg.len - alloc.list.partialIter) :: regs.map fun reg => (reg.block, reg.len)

/-! ### Moving on -/

/-- The loop of `advance_list_ptr`: nothing if the result is `-1`. The pointer itself never moves. -/
def advanceLoop : List Region → (partialIter blocks : Nat) → Option Nat
  | [], partialIter, blocks => if blocks > 0 then none else some partialIter
  | reg :: regs, partialIter, blocks =>
    if blocks > 0 then
      if reg.len > partialIter + blocks then some (partialIter + blocks)
      else advanceLoop regs 0 (blocks - (reg.len - partialIter))
    else some partialIter

/-- `advance_list_ptr`. -/
def advanceListPtr (list : RegionList) (blocks : Nat) : Option RegionList :=
  (advanceLoop (list.regions.drop list.iter) list.partialIter blocks).map fun partialIter => { list with partialIter }

/-- `advance_blocks`. -/
def advanceBlocks (alloc : BlockAllocation) (blocks : Nat) : Option BlockAllocation :=
  (advanceListPtr alloc.list blocks).map fun list => { alloc with list }

/-! ### Giving blocks back -/

/-- The loop of `reduce_allocation`. `list.last` is not moved when its region is freed, so another round would
read freed memory. -/
def reduceAllocation : (fuel : Nat) → BlockAllocation → List BlockGroup → (len : Nat) →
    Except String (BlockAllocation × List BlockGroup)
  | 0, alloc, bgs, _ => .ok (alloc, bgs)
  | fuel + 1, alloc, bgs, len =>
    if len = 0 then .ok (alloc, bgs)
    else
      match alloc.list.last with
      | none => .error "reduce_allocation: list.last does not point to a region"
      | some last =>
        match alloc.list.regions[last]? with
        | none => .error "reduce_allocation: list.last does not point to a region"
        | some lastReg =>
          if lastReg.len > len then
            .ok ({ alloc with list := { alloc.list with
                regions := alloc.list.regions.set last { lastReg with len := lastReg.len - len } } },
              bgs.modify lastReg.bg fun bg => freeBlocks bg len)
          else
            let list : RegionList :=
              if last = 0 then .empty
              else { alloc.list with regions := alloc.list.regions.take last, last := none }
            reduceAllocation fuel { alloc with list } (bgs.modify lastReg.bg fun bg => freeBlocks bg lastReg.len)
              (len - lastReg.len)

/-! ### Setting blocks aside -/

/-- The loop of `do_split_allocation`: where it ends, and how many blocks are left. -/
def splitPoint : List Region → (reg len : Nat) → Nat × Nat
  | [], reg, len => (reg, len)
  | r :: regs, reg, len => if len ≥ r.len then splitPoint regs (reg + 1) (len - r.len) else (reg, len)

/-- The region that is returned, if there is one, and the list. -/
def doSplitAllocation (list : RegionList) (len : Nat) : Option Nat × RegionList :=
  match splitPoint (list.regions.drop list.iter) list.iter len with
  | (reg, len) =>
    match list.regions[reg]? with
    | none => (none, list)
    | some r =>
      if len > 0 then
        (some list.iter, { list with
          regions := list.regions.take reg ++
            { r with len } :: { r with block := r.block + len, len := r.len - len } ::
            list.regions.drop (reg + 1)
          last := list.last.map fun last => if reg < last then last + 1 else last
          iter := reg + 1 })
      else (some reg, list)

/-- `split_allocation`: what is before the pointer, and the next `len` blocks. -/
def splitAllocation (list : RegionList) (len : Nat) : Option Nat × RegionList :=
  let list := (doSplitAllocation list list.partialIter).2
  let (middle, list) := doSplitAllocation list len
  (middle, { list with partialIter := 0 })

/-- The loop of `reserve_oob_blocks`: the regions from `oob` on move to the other list, up to the pointer. -/
def moveToOob : (fuel : Nat) → BlockAllocation → (oob : Nat) → BlockAllocation
  | 0, alloc, _ => alloc
  | fuel + 1, alloc, oob =>
    match alloc.list.regions[oob]? with
    | none => alloc
    | some reg =>
      if oob = alloc.list.iter then alloc
      else moveToOob fuel ⟨regionListRemove alloc.list oob, regionListAppend alloc.oobList reg⟩ oob

/-- Whether it succeeds, and the allocation. -/
def reserveOobBlocks (alloc : BlockAllocation) (blocks : Nat) : Bool × BlockAllocation :=
  match splitAllocation alloc.list blocks with
  | (none, list) => (false, { alloc with list })
  | (some oob, list) => (true, moveToOob list.regions.length { alloc with list } oob)

/-! ### The blocks of some regions, in order -/

variable {regs : List Region} {reg : Region}

theorem length_regionBlocks (regs : List Region) : (regionBlocks regs).length = regionsLen regs := by
  induction regs with
  | nil => rfl
  | cons reg regs ih =>
    rw [regionBlocks, List.flatMap_cons, List.length_append, ← regionBlocks, ih, Region.blocks, List.length_range',
      regionsLen, regionsLen, List.map_cons, List.sum_cons]

theorem regionBlocks_cons (reg : Region) (regs : List Region) :
    regionBlocks (reg :: regs) = reg.blocks ++ regionBlocks regs :=
  List.flatMap_cons

/-- **A block is found by its number.** -/
theorem nthBlock_eq (regs : List Region) (block : Nat) : nthBlock regs block = (regionBlocks regs)[block]? := by
  induction regs generalizing block with
  | nil => rfl
  | cons reg regs ih =>
    rw [nthBlock, regionBlocks_cons]
    split
    · rename_i hlt
      rw [List.getElem?_append_left (by rwa [Region.blocks, List.length_range']), Region.blocks,
        List.getElem?_range' hlt, Nat.one_mul]
    · rename_i hge
      have hlength : reg.blocks.length = reg.len := List.length_range'
      rw [List.getElem?_append_right (by omega), ih, hlength]

/-- A list of regions to which no pointer has been moved. -/
def RegionList.fresh (regs : List Region) : RegionList := ⟨regs, some 0, 0, 0⟩

theorem RegionList.getBlock_fresh (regs : List Region) (block : Nat) :
    (RegionList.fresh regs).getBlock block = (regionBlocks regs)[block]? := by
  rw [RegionList.getBlock, RegionList.fresh, List.drop_zero, Nat.add_zero, nthBlock_eq]

/-- **One block is given back**: the last one of the first region, which is the last one of its group. -/
theorem reduceAllocation_one {bgs : List BlockGroup} (hlen : 1 < reg.len) :
    reduceAllocation 1 { createAllocation with list := .fresh (reg :: regs) } bgs 1 =
      .ok ({ createAllocation with list := .fresh ({ reg with len := reg.len - 1 } :: regs) },
        bgs.modify reg.bg fun bg => freeBlocks bg 1) := by
  rw [reduceAllocation, if_neg (by decide)]
  exact if_pos hlen

/-- **One block is set aside**, the first one. -/
theorem reserveOobBlocks_one (hlen : 1 < reg.len) :
    reserveOobBlocks { createAllocation with list := .fresh (reg :: regs) } 1 =
      (true, ⟨⟨{ reg with block := reg.block + 1, len := reg.len - 1 } :: regs, none, 0, 0⟩,
        .fresh [{ reg with len := 1 }]⟩) := by
  have hzero : doSplitAllocation (.fresh (reg :: regs)) 0 = (some 0, .fresh (reg :: regs)) := by
    rw [doSplitAllocation]
    simp [RegionList.fresh, splitPoint, show reg.len ≠ 0 by omega]
  have hone : doSplitAllocation (.fresh (reg :: regs)) 1 =
      (some 0,
        ⟨{ reg with len := 1 } :: { reg with block := reg.block + 1, len := reg.len - 1 } :: regs, some 0, 1, 0⟩) := by
    rw [doSplitAllocation]
    simp [RegionList.fresh, splitPoint, show ¬ reg.len ≤ 1 by omega]
  have hsplit : splitAllocation (.fresh (reg :: regs)) 1 =
      (some 0,
        ⟨{ reg with len := 1 } :: { reg with block := reg.block + 1, len := reg.len - 1 } :: regs, some 0, 1, 0⟩) := by
    rw [splitAllocation, show (RegionList.fresh (reg :: regs)).partialIter = 0 from rfl]
    simp only [hzero, hone]
  rw [reserveOobBlocks]
  dsimp only
  rw [hsplit]
  dsimp only [List.length_cons]
  rw [moveToOob]
  simp only [List.getElem?_cons_zero, Nat.zero_ne_one, if_false]
  rw [moveToOob]
  rfl

/-- **A first region of one block** is freed as a whole, and there is nothing before it: the list is empty, although
the other regions are still taken. -/
theorem reduceAllocation_whole (bgs : List BlockGroup) (hlen : reg.len = 1) :
    reduceAllocation 1 { createAllocation with list := .fresh (reg :: regs) } bgs 1 =
      .ok (createAllocation, bgs.modify reg.bg fun bg => freeBlocks bg 1) := by
  rw [reduceAllocation, if_neg (by decide), ← hlen]
  exact if_neg (Nat.lt_irrefl _)

/-- All the regions behind the pointer move to the other list. -/
theorem moveToOob_behind (reg : Region) (regs : List Region) (oobList : RegionList) {fuel : Nat}
    (hfuel : regs.length ≤ fuel) :
    ∃ oobList', moveToOob fuel ⟨.fresh (reg :: regs), oobList⟩ 1 = ⟨.fresh [reg], oobList'⟩ := by
  induction regs generalizing oobList fuel with
  | nil => cases fuel <;> exact ⟨oobList, rfl⟩
  | cons reg' regs ih =>
    obtain ⟨fuel, rfl⟩ : ∃ fuel', fuel = fuel' + 1 := ⟨fuel - 1, by rw [List.length_cons] at hfuel; omega⟩
    obtain ⟨oobList', hmove⟩ := ih (regionListAppend oobList reg') (Nat.le_of_succ_le_succ hfuel)
    have hremove : regionListRemove (.fresh (reg :: reg' :: regs)) 1 = .fresh (reg :: regs) := rfl
    refine ⟨oobList', ?_⟩
    rw [moveToOob]
    simp only [RegionList.fresh, List.getElem?_cons_succ, List.getElem?_cons_zero, Nat.one_ne_zero, if_false]
    rw [RegionList.fresh] at hremove
    rw [hremove, hmove]
    rfl

/-- **A first region of one block** is not set aside: the split is behind it, and the other regions are. -/
theorem reserveOobBlocks_whole (regs : List Region) {reg' : Region} (hlen : reg.len = 1) (hpos : 0 < reg'.len) :
    ∃ oobList, reserveOobBlocks { createAllocation with list := .fresh (reg :: reg' :: regs) } 1 =
      (true, ⟨.fresh [reg], oobList⟩) := by
  have hzero : doSplitAllocation (.fresh (reg :: reg' :: regs)) 0 = (some 0, .fresh (reg :: reg' :: regs)) := by
    rw [doSplitAllocation]
    simp [RegionList.fresh, splitPoint, hlen]
  have hone : doSplitAllocation (.fresh (reg :: reg' :: regs)) 1 = (some 1, .fresh (reg :: reg' :: regs)) := by
    rw [doSplitAllocation]
    simp [RegionList.fresh, splitPoint, hlen, show reg'.len ≠ 0 by omega]
  have hsplit : splitAllocation (.fresh (reg :: reg' :: regs)) 1 = (some 1, .fresh (reg :: reg' :: regs)) := by
    rw [splitAllocation, show (RegionList.fresh (reg :: reg' :: regs)).partialIter = 0 from rfl]
    simp only [hzero, hone]
    rfl
  obtain ⟨oobList, hmove⟩ := moveToOob_behind reg (reg' :: regs) .empty
    (show (reg' :: regs).length ≤ (reg :: reg' :: regs).length by simp)
  refine ⟨oobList, ?_⟩
  rw [reserveOobBlocks]
  dsimp only
  rw [hsplit]
  exact congrArg (Prod.mk true) hmove

end Goldfish.Ext4

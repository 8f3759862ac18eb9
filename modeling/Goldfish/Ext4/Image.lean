import Goldfish.Ext4.Regions

/-!
# Goldfish.Ext4.Image

The image while it is being built: the block groups, and the chunks that wait in the sparse
file (`sparse_file_add_data`, `sparse_file_add_file`) until they are written.

A chunk of a buffer is written as the buffer is in the end, so buffers have numbers and
their bytes are kept apart from the chunks. What has been queued stays where it is
(`partAt_append`), and as long as every chunk lies on blocks that are not free
(`ChunksOwned`) a chunk on new blocks is the only one there (`partAt_new`).
-/

namespace Goldfish.Ext4

open Goldfish.Lib

/-- The name of a file on the host. -/
abbrev FileName := List UInt8

/-- What a chunk is copied from. -/
inductive Content where
  | leaf (hdr : ExtentHeader) (entries : List Extent)
  | buffer (id : Nat)
  | file (filename : FileName)
  deriving DecidableEq, Repr

/-- What is queued for writing: from `offset` on so many bytes of a source, at a block. -/
structure Chunk where
  content : Content
  offset : Nat
  len : Nat
  block : Nat
  deriving DecidableEq, Repr

/-- The groups, what is queued so far, and the buffers that are queued. -/
structure Image where
  bgs : List BlockGroup
  chunks : List Chunk
  buffers : List (List UInt8)
  deriving DecidableEq, Repr

/-- `block_allocator_init`. -/
def Image.init (info : Info) (aux : AuxInfo) : Except String Image := do
  let bgs ← blockAllocatorInit info aux
  pure ⟨bgs, [], []⟩

/-- The loop of `extent_create_backing` and of `extent_create_backing_file`, over the regions that are left. -/
def backingChunks (blockSize : Nat) (content : Content) : List (Nat × Nat) → (offset backingLen : Nat) → List Chunk
  | [], _, _ => []
  | (regionBlock, regionLen) :: regions, offset, backingLen =>
    if backingLen > 0 then
      let len := min (regionLen * blockSize) backingLen
      ⟨content, offset, len, regionBlock⟩ :: backingChunks blockSize content regions (offset + len) (backingLen - len)
    else []

/-- The regions end before the bytes do. The loop asks whether there is an allocation, not whether it has a
region left, and `get_region` reads through the null pointer behind the last one. -/
def backingRunsOut (blockSize : Nat) : List (Nat × Nat) → (backingLen : Nat) → Bool
  | [], backingLen => decide (backingLen > 0)
  | (_, regionLen) :: regions, backingLen =>
    decide (backingLen > 0) && backingRunsOut blockSize regions (backingLen - min (regionLen * blockSize) backingLen)

/-- `extent_create_backing`: the number of the new buffer, which is all zeros, and the image. -/
def extentCreateBacking (info : Info) (image : Image) (alloc : BlockAllocation) (backingLen : Nat) :
    Except String (Nat × Image) :=
  let regions := remainingRegions alloc
  if backingRunsOut info.blockSize regions backingLen then .error "get_region: list.iter does not point to a region"
  else
    .ok (image.buffers.length, { image with
      chunks := image.chunks ++ backingChunks info.blockSize (.buffer image.buffers.length) regions 0 backingLen
      buffers := image.buffers ++ [List.replicate backingLen 0] })

/-- `extent_create_backing_file`. -/
def extentCreateBackingFile (info : Info) (image : Image) (alloc : BlockAllocation) (backingLen : Nat)
    (filename : FileName) : Except String Image :=
  let regions := remainingRegions alloc
  if backingRunsOut info.blockSize regions backingLen then .error "get_region: list.iter does not point to a region"
  else
    .ok { image with
      chunks := image.chunks ++ backingChunks info.blockSize (.file filename) regions 0 backingLen }

/-! ### What a block holds -/

/-- The chunk covers the block, if only in part. -/
def Chunk.covers (blockSize : Nat) (c : Chunk) (b : Nat) : Bool :=
  decide (c.block ≤ b) && decide (b < c.block + divRoundUp c.len blockSize)

/-- The chunk that is written to a block. -/
def chunkAt (blockSize : Nat) (chunks : List Chunk) (b : Nat) : Option Chunk :=
  chunks.find? fun c => c.covers blockSize b

/-- A part of what is copied: at most one block. -/
structure Part where
  content : Content
  offset : Nat
  len : Nat
  deriving DecidableEq, Repr

/-- The part of a chunk that is written to a block. -/
def Chunk.part (blockSize : Nat) (c : Chunk) (b : Nat) : Part where
  content := c.content
  offset := c.offset + (b - c.block) * blockSize
  len := min blockSize (c.len - (b - c.block) * blockSize)

/-- What is written to a block. -/
def partAt (blockSize : Nat) (chunks : List Chunk) (b : Nat) : Option Part :=
  (chunkAt blockSize chunks b).map fun c => c.part blockSize b

variable {g : Geometry} {bgs bgs' : List BlockGroup} {blockSize b : Nat} {chunks more : List Chunk} {c : Chunk}
  {p : Part}

theorem covers_iff : c.covers blockSize b = true ↔ c.block ≤ b ∧ b < c.block + divRoundUp c.len blockSize := by
  simp [Chunk.covers]

theorem partAt_cons (c : Chunk) (chunks : List Chunk) (b : Nat) :
    partAt blockSize (c :: chunks) b = if c.covers blockSize b then some (c.part blockSize b)
      else partAt blockSize chunks b := by
  rw [partAt, chunkAt, List.find?_cons]
  cases c.covers blockSize b with
  | true => rfl
  | false => rfl

/-- What is queued later does not hide what is there. -/
theorem chunkAt_append (h : chunkAt blockSize chunks b = some c) : chunkAt blockSize (chunks ++ more) b = some c := by
  rw [chunkAt, List.find?_append, show chunks.find? _ = some c from h, Option.some_or]

theorem partAt_append (h : partAt blockSize chunks b = some p) : partAt blockSize (chunks ++ more) b = some p := by
  rw [partAt, Option.map_eq_some_iff] at h ⊢
  obtain ⟨c, hc, hp⟩ := h
  exact ⟨c, chunkAt_append hc, hp⟩

/-- No block is in both. -/
def Chunk.Apart (blockSize : Nat) (c c' : Chunk) : Prop :=
  ∀ b, c.covers blockSize b = true → ¬ c'.covers blockSize b = true

/-- Every chunk lies on blocks that are not free, and no two lie on the same block. -/
structure ChunksOwned (g : Geometry) (bgs : List BlockGroup) (chunks : List Chunk) : Prop where
  owned : ∀ c ∈ chunks, ∀ b, c.covers g.info.blockSize b = true → ¬ FreeIn g bgs b
  apart : chunks.Pairwise (Chunk.Apart g.info.blockSize)

/-- **Chunks that are queued on blocks that have just been taken.** -/
theorem ChunksOwned.append {taken : List Nat} (h : ChunksOwned g bgs chunks)
    (ht : Takes (FreeIn g bgs) (FreeIn g bgs') taken)
    (hmore : ∀ c ∈ more, ∀ b, c.covers g.info.blockSize b = true → b ∈ taken)
    (hapart : more.Pairwise (Chunk.Apart g.info.blockSize)) :
    ChunksOwned g bgs' (chunks ++ more) := by
  refine ⟨fun c hc b hb hfree => ?_, List.pairwise_append.mpr ⟨h.apart, hapart, fun c hc c' hc' b hb hb' => ?_⟩⟩
  · have hold := (ht.after b).mp hfree
    rcases List.mem_append.mp hc with hc | hc
    · exact h.owned c hc b hb hold.1
    · exact hold.2 (hmore c hc b hb)
  · exact h.owned c hc b hb (ht.wasFree b (hmore c' hc' b hb'))

/-- Chunks are queued on blocks that were free. -/
def Queues (g : Geometry) (image image' : Image) : Prop :=
  ∃ more, image'.chunks = image.chunks ++ more ∧ ∀ c ∈ more, ∀ b, c.covers g.info.blockSize b = true →
    FreeIn g image.bgs b

namespace Queues

variable {image image' image'' : Image}

theorem refl (g : Geometry) (image : Image) : Queues g image image := ⟨[], (List.append_nil _).symm, nofun⟩

theorem trans (h : Queues g image image') (htakes : ∃ taken, Takes (FreeIn g image.bgs) (FreeIn g image'.bgs) taken)
    (h' : Queues g image' image'') : Queues g image image'' := by
  obtain ⟨more, hmore, hfree⟩ := h
  obtain ⟨more', hmore', hfree'⟩ := h'
  obtain ⟨taken, htaken⟩ := htakes
  refine ⟨more ++ more', by rw [hmore', hmore, List.append_assoc], fun c hc b hb => ?_⟩
  rcases List.mem_append.mp hc with hc | hc
  · exact hfree c hc b hb
  · exact ((htaken.after b).mp (hfree' c hc b hb)).1

theorem exists_chunks (h : Queues g image image') : ∃ more, image'.chunks = image.chunks ++ more := by
  obtain ⟨more, hmore, -⟩ := h
  exact ⟨more, hmore⟩

/-- It depends on the chunks and on what was free. -/
theorem congr {start : Image} (h : Queues g start image') (hfree : FreeIn g start.bgs = FreeIn g image.bgs)
    (hstart : start.chunks = image.chunks) (hchunks : image''.chunks = image'.chunks) : Queues g image image'' := by
  obtain ⟨more, hmore, hcovers⟩ := h
  rw [hfree] at hcovers
  exact ⟨more, by rw [hchunks, hmore, hstart], hcovers⟩

end Queues

theorem partAt_append_of_not_covers (h : ∀ c ∈ chunks, ¬ c.covers blockSize b = true) :
    partAt blockSize (chunks ++ more) b = partAt blockSize more b := by
  rw [partAt, chunkAt, List.find?_append, List.find?_eq_none.mpr h, Option.none_or, partAt, chunkAt]

/-- No other chunk is on a block that was free. -/
theorem partAt_new (h : ChunksOwned g bgs chunks) (hfree : FreeIn g bgs b) :
    partAt g.info.blockSize (chunks ++ more) b = partAt g.info.blockSize more b :=
  partAt_append_of_not_covers fun c hc hcovers => h.owned c hc b hcovers hfree

/-! ### The chunks of some regions -/

/-- Starts and lengths, one block after another. -/
def rangeBlocks (regions : List (Nat × Nat)) : List Nat := regions.flatMap fun r => List.range' r.1 r.2

theorem rangeBlocks_cons (block len : Nat) (regions : List (Nat × Nat)) :
    rangeBlocks ((block, len) :: regions) = List.range' block len ++ rangeBlocks regions := List.flatMap_cons

theorem divRoundUp_mul_self (n : Nat) {y : Nat} (hy : 0 < y) : divRoundUp (n * y) y = n := by
  rw [divRoundUp, Nat.add_sub_assoc hy, Nat.mul_comm, Nat.mul_add_div hy, Nat.div_eq_of_lt (by omega), Nat.add_zero]

theorem divRoundUp_le_divRoundUp {x y n : Nat} (h : x ≤ y) : divRoundUp x n ≤ divRoundUp y n :=
  Nat.div_le_div_right (by omega)

theorem lt_divRoundUp {k x y : Nat} (hy : 0 < y) : k < divRoundUp x y ↔ k * y < x := by
  rw [divRoundUp, ← Nat.succ_le_iff, Nat.le_div_iff_mul_le hy, Nat.succ_mul]
  omega

/-- The regions are enough exactly if they have as many bytes. -/
theorem backingRunsOut_iff (blockSize : Nat) (regions : List (Nat × Nat)) (len : Nat) :
    backingRunsOut blockSize regions len = true ↔ (rangeBlocks regions).length * blockSize < len := by
  induction regions generalizing len with
  | nil => simp [backingRunsOut, rangeBlocks]
  | cons r regions ih =>
    obtain ⟨block, regionLen⟩ := r
    rw [backingRunsOut, Bool.and_eq_true, decide_eq_true_eq, ih, rangeBlocks_cons, List.length_append,
      List.length_range', Nat.add_mul]
    omega

theorem backingRunsOut_eq_false {regions : List (Nat × Nat)} {len : Nat}
    (h : len ≤ (rangeBlocks regions).length * blockSize) : backingRunsOut blockSize regions len = false := by
  rw [Bool.eq_false_iff, Ne, backingRunsOut_iff]
  omega

/-- A chunk lies on blocks of its region. -/
theorem mem_rangeBlocks_of_covers {content : Content} {regions : List (Nat × Nat)} {offset len : Nat}
    (hpos : 0 < blockSize) (hc : c ∈ backingChunks blockSize content regions offset len)
    (hb : c.covers blockSize b = true) :
    b ∈ rangeBlocks regions := by
  induction regions generalizing offset len with
  | nil => cases hc
  | cons r regions ih =>
    obtain ⟨block, regionLen⟩ := r
    rw [rangeBlocks_cons, List.mem_append]
    rw [backingChunks] at hc
    split at hc
    · rcases List.mem_cons.mp hc with rfl | hc
      · rw [covers_iff] at hb
        dsimp only at hb
        have hle : divRoundUp (min (regionLen * blockSize) len) blockSize ≤ regionLen := by
          calc divRoundUp (min (regionLen * blockSize) len) blockSize
              ≤ divRoundUp (regionLen * blockSize) blockSize := divRoundUp_le_divRoundUp (Nat.min_le_left _ _)
            _ = regionLen := divRoundUp_mul_self regionLen hpos
        exact Or.inl (List.mem_range'_1.mpr (by omega))
      · exact Or.inr (ih hc)
    · cases hc

/-- The chunks of regions that have no block in common. -/
theorem apart_backingChunks {content : Content} {regions : List (Nat × Nat)} (hpos : 0 < blockSize)
    (hnodup : (rangeBlocks regions).Nodup) (offset len : Nat) :
    (backingChunks blockSize content regions offset len).Pairwise (Chunk.Apart blockSize) := by
  induction regions generalizing offset len with
  | nil => exact List.Pairwise.nil
  | cons r regions ih =>
    obtain ⟨block, regionLen⟩ := r
    rw [rangeBlocks_cons] at hnodup
    obtain ⟨-, hrest, hdisjoint⟩ := List.nodup_append'.mp hnodup
    rw [backingChunks]
    split
    · refine List.pairwise_cons.mpr ⟨fun c hc b hb hb' => ?_, ih hrest _ _⟩
      have hmem : ⟨content, offset, min (regionLen * blockSize) len, block⟩ ∈
          backingChunks blockSize content [(block, regionLen)] offset len := by
        rw [backingChunks, if_pos ‹_›]
        exact List.mem_cons_self
      have hfirst := mem_rangeBlocks_of_covers hpos hmem hb
      rw [rangeBlocks_cons, rangeBlocks, List.flatMap_nil, List.append_nil] at hfirst
      exact hdisjoint hfirst (mem_rangeBlocks_of_covers hpos hc hb')
    · exact List.Pairwise.nil

/-- **The n-th block has the n-th part of what is copied.** -/
theorem partAt_backingChunks {content : Content} {regions : List (Nat × Nat)} (hpos : 0 < blockSize)
    (hnodup : (rangeBlocks regions).Nodup) {k offset len : Nat} (hb : (rangeBlocks regions)[k]? = some b)
    (hk : k * blockSize < len) :
    partAt blockSize (backingChunks blockSize content regions offset len) b =
      some ⟨content, offset + k * blockSize, min blockSize (len - k * blockSize)⟩ := by
  induction regions generalizing k offset len with
  | nil => cases hb
  | cons r regions ih =>
    obtain ⟨block, regionLen⟩ := r
    rw [rangeBlocks_cons] at hb hnodup
    have hlen : 0 < len := Nat.lt_of_le_of_lt (Nat.zero_le _) hk
    rw [backingChunks, if_pos hlen]
    dsimp only
    rcases Nat.lt_or_ge k regionLen with hlt | hge
    · rw [List.getElem?_append_left (by rwa [List.length_range']), List.getElem?_range' hlt, Nat.one_mul] at hb
      obtain rfl : block + k = b := Option.some.inj hb
      have hmul : (k + 1) * blockSize ≤ regionLen * blockSize := Nat.mul_le_mul_right _ hlt
      rw [Nat.succ_mul] at hmul
      have hcovers : Chunk.covers blockSize ⟨content, offset, min (regionLen * blockSize) len, block⟩ (block + k) =
          true := by
        rw [covers_iff]
        refine ⟨Nat.le_add_right _ _, Nat.add_lt_add_left ((lt_divRoundUp hpos).mpr ?_) _⟩
        dsimp only
        omega
      rw [partAt_cons, if_pos hcovers, Chunk.part]
      dsimp only
      rw [Nat.add_sub_cancel_left, Option.some_inj, Part.mk.injEq]
      exact ⟨rfl, rfl, by omega⟩
    · have hmul : regionLen * blockSize ≤ k * blockSize := Nat.mul_le_mul_right _ hge
      have hmin : min (regionLen * blockSize) len = regionLen * blockSize := by omega
      rw [List.getElem?_append_right (by rwa [List.length_range']), List.length_range'] at hb
      obtain ⟨-, hrest, hdisjoint⟩ := List.nodup_append'.mp hnodup
      have hnot : ¬ Chunk.covers blockSize ⟨content, offset, min (regionLen * blockSize) len, block⟩ b = true := by
        rw [covers_iff]
        dsimp only
        rw [hmin, divRoundUp_mul_self regionLen hpos]
        intro hin
        exact hdisjoint (List.mem_range'_1.mpr hin) (List.mem_of_getElem? hb)
      have hsub : (k - regionLen) * blockSize = k * blockSize - regionLen * blockSize := Nat.sub_mul _ _ _
      rw [partAt_cons, if_neg hnot, hmin, ih hrest hb (by omega), Option.some_inj, Part.mk.injEq]
      exact ⟨rfl, by omega, by omega⟩

end Goldfish.Ext4

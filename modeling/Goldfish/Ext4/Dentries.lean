import Goldfish.Ext4.Geometry
import Goldfish.Ext4.Layout
import Goldfish.Lib.LittleEndian
import Goldfish.Lib.Overwrite
import Goldfish.Lib.Trace

/-!
# Goldfish.Ext4.Dentries

The entries of a directory as bytes (`contents.c`), and reading them again.

`add_dentry` begins a new block where an entry would not fit, and makes the entry before
longer for that. `dentry_size` counts what that will take, in 32 bits; `dirLength` is what it really
takes, and up to there (`dentrySize_eq`) the two agree on every offset
(`addDentries_ok`), so the check in `make_directory` is never met, and the bytes are those
of a chain of entries of which none crosses the end of a block (`fillDirectory_ok`). A
reader goes along the chain and finds them again (`readDirectory_bytes`).
-/

namespace Goldfish.Ext4

open Goldfish.Lib

/-- A name in a directory. -/
abbrev Name := List UInt8

/-- The length of an entry with this name. -/
def dentryLen (name : Name) : Nat := 8 + align name.length 4

/-- The body of the loop of `dentry_size`, with its `u32 len`. -/
def addDentrySize (blockSize len : Nat) (name : Name) : Nat :=
  let dentryLen := dentryLen name % 2 ^ 32
  let len :=
    if (len % blockSize + dentryLen) % 2 ^ 32 > blockSize then (len + (blockSize - len % blockSize)) % 2 ^ 32 else len
  (len + dentryLen) % 2 ^ 32

/-- `dentry_size`. -/
def dentrySize (blockSize : Nat) (names : List Name) : Nat := names.foldl (addDentrySize blockSize) 24

/-- `DIV_ROUND_UP(dentry_size(entries, dentries), info.block_size)`. -/
def directoryBlocks (blockSize : Nat) (names : List Name) : Nat :=
  (dentrySize blockSize names + blockSize - 1) % 2 ^ 32 / blockSize

/-- The `len` of `make_directory`. -/
def directoryLen (blockSize : Nat) (names : List Name) : Nat :=
  directoryBlocks blockSize names * blockSize % 2 ^ 32

/-- A difference of two `u32`. -/
def sub32 (a b : Nat) : Nat := (a + (2 ^ 32 - b)) % 2 ^ 32

/-- `prev->rec_len += more`. -/
def addRecLen (data : List UInt8) (prev more : Nat) : List UInt8 :=
  overwrite data (prev + 4) (toLE 2 (ofLE ((data.drop (prev + 4)).take 2) + more))

/-- `add_dentry`: the bytes, the next offset and where the entry is. -/
def addDentry (blockSize : Nat) (data : List UInt8) (offset : Nat) (prev : Option Nat) (inode : Nat)
    (name : Name) (fileType : Nat) : Except String (List UInt8 × Nat × Nat) := do
  let nameLen := name.length % 2 ^ 8
  let recLen := 8 + align nameLen 4
  let startBlock := offset / blockSize
  let endBlock := (offset + recLen - 1) % 2 ^ 32 / blockSize
  let (data, offset) ←
    if startBlock ≠ endBlock then
      match prev with
      | none => .error "no prev"
      | some prev => .ok (addRecLen data prev (sub32 (endBlock * blockSize) offset), endBlock * blockSize)
    else .ok (data, offset)
  let fields := toLE 4 inode ++ (toLE 2 recLen ++ (toLE 1 nameLen ++ (toLE 1 fileType ++ name.take nameLen)))
  pure (overwrite data offset fields, (offset + recLen) % 2 ^ 32, offset)

/-- A name as it is printed. -/
def printName (name : Name) : String := String.ofList (name.map fun b => Char.ofNat b.toNat)

/-- A `u32` as `%d` prints it. -/
def printInt (n : Nat) : Int := (BitVec.ofNat 32 n).toInt

/-- The loop of `make_directory` over the entries: the bytes, the next offset, the last entry and where the
entries are. -/
def addDentries (blockSize len : Nat) : List (Name × Nat) → (data : List UInt8) → (offset prev : Nat) →
    Except String (List UInt8 × Nat × Nat × List Nat)
  | [], data, offset, prev => .ok (data, offset, prev, [])
  | (name, fileType) :: entries, data, offset, prev => do
    let (data, offset, dentry) ← addDentry blockSize data offset (some prev) 0 name fileType
    if offset > len ∨ (offset = len ∧ ¬ entries.isEmpty) then
      .error s!"internal error: dentry for {printName name} ends at {printInt offset}, past {printInt len}\n"
    else do
      let (data, offset, prev, places) ← addDentries blockSize len entries data offset dentry
      pure (data, offset, prev, dentry :: places)

/-- The name of the directory itself. -/
def dot : Name := [46]

/-- The name of its parent. -/
def dotDot : Name := [46, 46]

/-- What `make_directory` writes to its data, and where the entries are. -/
def fillDirectory (blockSize len inodeNum dirInodeNum : Nat) (entries : List (Name × Nat)) :
    Except String (List UInt8 × List Nat) := do
  let (data, offset, dentry) ← addDentry blockSize (List.replicate len 0) 0 none inodeNum dot EXT4_FT_DIR
  let (data, offset, dentry) ← addDentry blockSize data offset (some dentry) dirInodeNum dotDot EXT4_FT_DIR
  let (data, offset, dentry, places) ← addDentries blockSize len entries data offset dentry
  pure (addRecLen data dentry (sub32 len offset), places)

/-! ### Where the entries end -/

/-- Where the next entry ends, in numbers that do not wrap. -/
def nextLen (blockSize len : Nat) (name : Name) : Nat :=
  (if len % blockSize + dentryLen name > blockSize then len + (blockSize - len % blockSize) else len) + dentryLen name

/-- What the entries of a directory take. -/
def dirLength (blockSize : Nat) (names : List Name) : Nat := names.foldl (nextLen blockSize) 24

theorem dentryLen_bounds {name : Name} (hname : name.length < 2 ^ 8) :
    8 + name.length ≤ dentryLen name ∧ dentryLen name ≤ 264 := by
  rw [dentryLen, align, divRoundUp]
  omega

theorem lt_nextLen (blockSize len : Nat) (name : Name) : len < nextLen blockSize len name := by
  have hpos : 0 < dentryLen name := by
    rw [dentryLen]
    omega
  rw [nextLen]
  split <;> omega

theorem le_foldl_nextLen (blockSize len : Nat) (names : List Name) : len ≤ names.foldl (nextLen blockSize) len := by
  induction names generalizing len with
  | nil => exact Nat.le_refl _
  | cons name names ih => exact Nat.le_trans (Nat.le_of_lt (lt_nextLen blockSize len name)) (ih _)

theorem addDentrySize_eq {blockSize len : Nat} (hpos : 0 < blockSize) (hlt : blockSize < 2 ^ 16) {name : Name}
    (hname : name.length < 2 ^ 8) (hnext : nextLen blockSize len name < 2 ^ 32) :
    addDentrySize blockSize len name = nextLen blockSize len name := by
  obtain ⟨-, hhi⟩ := dentryLen_bounds hname
  have hmod := Nat.mod_lt len hpos
  have hsum : (len % blockSize + dentryLen name) % 2 ^ 32 = len % blockSize + dentryLen name :=
    Nat.mod_eq_of_lt (by omega)
  rw [nextLen] at hnext
  rw [addDentrySize, nextLen, Nat.mod_eq_of_lt (show dentryLen name < 2 ^ 32 by omega), hsum]
  by_cases hcross : len % blockSize + dentryLen name > blockSize
  · rw [if_pos hcross] at hnext ⊢
    rw [if_pos hcross, Nat.mod_eq_of_lt (show len + (blockSize - len % blockSize) < 2 ^ 32 by omega),
      Nat.mod_eq_of_lt hnext]
  · rw [if_neg hcross] at hnext ⊢
    rw [if_neg hcross, Nat.mod_eq_of_lt hnext]

/-- **`dentry_size` counts right below 4 GiB.** -/
theorem dentrySize_eq {blockSize : Nat} (hpos : 0 < blockSize) (hlt : blockSize < 2 ^ 16) {names : List Name}
    (hnames : ∀ name ∈ names, name.length < 2 ^ 8) (hsize : dirLength blockSize names < 2 ^ 32) :
    dentrySize blockSize names = dirLength blockSize names := by
  rw [dentrySize, dirLength]
  rw [dirLength] at hsize
  generalize 24 = len at *
  induction names generalizing len with
  | nil => rfl
  | cons name names ih =>
    rw [List.foldl_cons] at hsize ⊢
    have hnext := Nat.lt_of_le_of_lt (le_foldl_nextLen blockSize (nextLen blockSize len name) names) hsize
    rw [addDentrySize_eq hpos hlt (hnames name List.mem_cons_self) hnext]
    exact ih (fun name h => hnames name (List.mem_cons_of_mem _ h)) _ hsize

/-- So `make_directory` takes as many blocks as are needed. -/
theorem directoryLen_eq {blockSize : Nat} (hpos : 0 < blockSize) (hlt : blockSize < 2 ^ 16) {names : List Name}
    (hnames : ∀ name ∈ names, name.length < 2 ^ 8) (hsize : dirLength blockSize names + blockSize < 2 ^ 32) :
    directoryLen blockSize names = divRoundUp (dirLength blockSize names) blockSize * blockSize := by
  have hblocks : directoryBlocks blockSize names = divRoundUp (dirLength blockSize names) blockSize := by
    rw [directoryBlocks, dentrySize_eq hpos hlt hnames (by omega), Nat.mod_eq_of_lt (by omega), divRoundUp]
  have hup : divRoundUp (dirLength blockSize names) blockSize * blockSize ≤
      dirLength blockSize names + blockSize - 1 :=
    Nat.div_mul_le_self _ _
  rw [directoryLen, hblocks, Nat.mod_eq_of_lt (by omega)]

theorem sub32_of_le {a b : Nat} (h : b ≤ a) (ha : a < 2 ^ 32) : sub32 a b = a - b := by
  rw [sub32, show a + (2 ^ 32 - b) = a - b + 2 ^ 32 by omega, Nat.add_mod_right, Nat.mod_eq_of_lt (by omega)]

/-! ### Entries as they are on the disk -/

/-- `struct ext4_dir_entry_2`. -/
structure DirEntry where
  inode : Nat
  recLen : Nat
  fileType : Nat
  name : Name
  deriving DecidableEq, Repr

namespace DirEntry

/-- The name is followed by zeros. -/
def bytes (e : DirEntry) : List UInt8 :=
  toLE 4 e.inode ++ (toLE 2 e.recLen ++ (toLE 1 e.name.length ++ (toLE 1 e.fileType ++
    (e.name ++ List.replicate (e.recLen - (8 + e.name.length)) 0))))

/-- An entry whose fields fit. -/
structure Valid (e : DirEntry) : Prop where
  inode : e.inode < 2 ^ 32
  name : e.name.length < 2 ^ 8
  fileType : e.fileType < 2 ^ 8
  recLen : 8 + e.name.length ≤ e.recLen

/-- What does not depend on where the entry is. -/
def key (e : DirEntry) : Nat × Name × Nat := (e.inode, e.name, e.fileType)

variable {e : DirEntry}

theorem Valid.length_bytes (h : e.Valid) : e.bytes.length = e.recLen := by
  have hrec := h.recLen
  simp only [bytes, List.length_append, length_toLE, List.length_replicate]
  omega

end DirEntry

/-- The bytes of some entries, one after another. -/
def chainBytes (entries : List DirEntry) : List UInt8 := entries.flatMap DirEntry.bytes

/-- No entry of a chain crosses the end of a block. -/
def Chain (blockSize : Nat) : (start : Nat) → List DirEntry → Prop
  | _, [] => True
  | start, e :: entries =>
    e.Valid ∧ start / blockSize = (start + e.recLen - 1) / blockSize ∧ Chain blockSize (start + e.recLen) entries

/-- Where the entries of a chain are. -/
def starts : (start : Nat) → List DirEntry → List Nat
  | _, [] => []
  | start, e :: entries => start :: starts (start + e.bytes.length) entries

/-- A reader: it looks at the next entry and goes on behind it. -/
def readEntriesFrom (blockSize : Nat) : (fuel : Nat) → (offset : Nat) → List UInt8 → Option (List DirEntry)
  | _, _, [] => some []
  | 0, _, _ :: _ => none
  | fuel + 1, offset, b :: data =>
    let recLen := ofLE (((b :: data).drop 4).take 2)
    let nameLen := ofLE (((b :: data).drop 6).take 1)
    if 8 + nameLen ≤ recLen ∧ recLen ≤ (b :: data).length ∧
      offset / blockSize = (offset + recLen - 1) / blockSize then do
      let entries ← readEntriesFrom blockSize fuel (offset + recLen) ((b :: data).drop recLen)
      pure (⟨ofLE ((b :: data).take 4), recLen, ofLE (((b :: data).drop 7).take 1),
        ((b :: data).drop 8).take nameLen⟩ :: entries)
    else none

/-- The entries of all the blocks of a directory. -/
def readDirectory (blockSize : Nat) (data : List UInt8) : Option (List DirEntry) :=
  readEntriesFrom blockSize data.length 0 data

variable {blockSize len start offset prev : Nat} {data : List UInt8} {e last : DirEntry} {entries done : List DirEntry}
  {name : Name}

theorem chainBytes_cons (e : DirEntry) (entries : List DirEntry) :
    chainBytes (e :: entries) = e.bytes ++ chainBytes entries :=
  List.flatMap_cons

theorem chainBytes_append (done entries : List DirEntry) :
    chainBytes (done ++ entries) = chainBytes done ++ chainBytes entries :=
  List.flatMap_append

theorem chain_append {entries' : List DirEntry} :
    Chain blockSize start (entries ++ entries') ↔
      Chain blockSize start entries ∧ Chain blockSize (start + (chainBytes entries).length) entries' := by
  induction entries generalizing start with
  | nil => simp [Chain, chainBytes]
  | cons e entries ih =>
    rw [List.cons_append, Chain, ih, Chain, chainBytes_cons, List.length_append]
    constructor
    · intro ⟨hvalid, hblock, hrest, hrest'⟩
      rw [hvalid.length_bytes, ← Nat.add_assoc]
      exact ⟨⟨hvalid, hblock, hrest⟩, hrest'⟩
    · intro ⟨⟨hvalid, hblock, hrest⟩, hrest'⟩
      rw [hvalid.length_bytes, ← Nat.add_assoc] at hrest'
      exact ⟨hvalid, hblock, hrest, hrest'⟩

/-- An entry is not longer than a block. -/
theorem recLen_le (hpos : 0 < blockSize) (h : start / blockSize = (start + e.recLen - 1) / blockSize) :
    e.recLen ≤ blockSize := by
  have hstart := Nat.div_add_mod start blockSize
  have hend := Nat.div_add_mod (start + e.recLen - 1) blockSize
  have hlt := Nat.mod_lt (start + e.recLen - 1) hpos
  rw [← h] at hend
  omega

/-! ### Reading -/

theorem take_toLE_append (width n : Nat) (rest : List UInt8) : (toLE width n ++ rest).take width = toLE width n :=
  List.take_left' (length_toLE width n)

theorem drop_toLE_append (width more n : Nat) (rest : List UInt8) :
    (toLE width n ++ rest).drop (width + more) = rest.drop more := by
  rw [List.drop_append, length_toLE, Nat.add_sub_cancel_left, List.drop_eq_nil_of_le (by rw [length_toLE]; omega),
    List.nil_append]

/-- **The next entry is found.** -/
theorem readEntriesFrom_bytes (hpos : 0 < blockSize) (hlt : blockSize < 2 ^ 16) {fuel : Nat}
    (h : Chain blockSize start entries) (hfuel : (chainBytes entries).length ≤ fuel) :
    readEntriesFrom blockSize fuel start (chainBytes entries) = some entries := by
  induction entries generalizing start fuel with
  | nil =>
    cases fuel <;> rfl
  | cons e entries ih =>
    obtain ⟨hvalid, hblock, hrest⟩ := h
    have hlength := hvalid.length_bytes
    have hle := recLen_le hpos hblock
    have hrec := hvalid.recLen
    have hinode : ofLE (toLE 4 e.inode) = e.inode := ofLE_toLE_of_lt hvalid.inode
    have hrecLen : ofLE (toLE 2 e.recLen) = e.recLen := ofLE_toLE_of_lt (by omega)
    have hnameLen : ofLE (toLE 1 e.name.length) = e.name.length := ofLE_toLE_of_lt hvalid.name
    have hfileType : ofLE (toLE 1 e.fileType) = e.fileType := ofLE_toLE_of_lt hvalid.fileType
    rw [chainBytes_cons, List.length_append, hlength] at hfuel
    obtain ⟨fuel, rfl⟩ : ∃ fuel', fuel = fuel' + 1 := ⟨fuel - 1, by omega⟩
    have hdata : chainBytes (e :: entries) =
        toLE 4 e.inode ++ (toLE 2 e.recLen ++ (toLE 1 e.name.length ++ (toLE 1 e.fileType ++
        (e.name ++ (List.replicate (e.recLen - (8 + e.name.length)) 0 ++ chainBytes entries))))) := by
      rw [chainBytes_cons, DirEntry.bytes]
      simp only [List.append_assoc]
    have hdrop : (chainBytes (e :: entries)).drop e.recLen = chainBytes entries := by
      rw [chainBytes_cons]
      exact List.drop_left' hlength
    have htotal : (chainBytes (e :: entries)).length = e.recLen + (chainBytes entries).length := by
      rw [chainBytes_cons, List.length_append, hlength]
    have h₀ : (chainBytes (e :: entries)).take 4 = toLE 4 e.inode := by rw [hdata, take_toLE_append]
    have h₄ : ((chainBytes (e :: entries)).drop 4).take 2 = toLE 2 e.recLen := by
      rw [hdata, drop_toLE_append 4 0, List.drop_zero, take_toLE_append]
    have h₆ : ((chainBytes (e :: entries)).drop 6).take 1 = toLE 1 e.name.length := by
      rw [hdata, drop_toLE_append 4 2, drop_toLE_append 2 0, List.drop_zero, take_toLE_append]
    have h₇ : ((chainBytes (e :: entries)).drop 7).take 1 = toLE 1 e.fileType := by
      rw [hdata, drop_toLE_append 4 3, drop_toLE_append 2 1, drop_toLE_append 1 0, List.drop_zero, take_toLE_append]
    have h₈ : ((chainBytes (e :: entries)).drop 8).take e.name.length = e.name := by
      rw [hdata, drop_toLE_append 4 4, drop_toLE_append 2 2, drop_toLE_append 1 1, drop_toLE_append 1 0,
        List.drop_zero, List.take_left]
    have hcons : ∃ b rest, chainBytes (e :: entries) = b :: rest := by
      cases hbytes : chainBytes (e :: entries) with
      | nil =>
        rw [hbytes, List.length_nil] at htotal
        omega
      | cons b rest => exact ⟨b, rest, rfl⟩
    obtain ⟨b, rest, hbytes⟩ := hcons
    rw [hbytes] at h₀ h₄ h₆ h₇ h₈ hdrop htotal ⊢
    rw [readEntriesFrom, h₀, h₄, h₆, h₇, hrecLen, hnameLen, hinode, hfileType, h₈,
      if_pos ⟨hrec, by omega, hblock⟩, hdrop, ih hrest (by omega)]
    rfl

/-- **What has been written to a directory is read again.** -/
theorem readDirectory_bytes (hpos : 0 < blockSize) (hlt : blockSize < 2 ^ 16) (h : Chain blockSize 0 entries) :
    readDirectory blockSize (chainBytes entries) = some entries := readEntriesFrom_bytes hpos hlt h (Nat.le_refl _)

/-! ### Writing -/

/-- An entry that is made longer. -/
def DirEntry.pad (e : DirEntry) (more : Nat) : DirEntry := { e with recLen := e.recLen + more }

theorem bytes_pad_append (h : e.Valid) (more rest : Nat) :
    (e.pad more).bytes ++ List.replicate rest 0 =
      toLE 4 e.inode ++ (toLE 2 (e.recLen + more) ++ (toLE 1 e.name.length ++ (toLE 1 e.fileType ++
        (e.name ++ List.replicate (e.recLen - (8 + e.name.length) + (more + rest)) 0)))) := by
  have hrec := h.recLen
  simp only [DirEntry.bytes, DirEntry.pad, List.append_assoc, List.replicate_append_replicate]
  rw [show e.recLen + more - (8 + e.name.length) + rest = e.recLen - (8 + e.name.length) + (more + rest) by omega]

/-- **Making an entry longer** takes zeros that are behind it. -/
theorem addRecLen_append (h : e.Valid) (before : List UInt8) {more : Nat} (rest : Nat)
    (hlt : e.recLen + more < 2 ^ 16) :
    addRecLen (before ++ (e.bytes ++ List.replicate (more + rest) 0)) before.length more =
      before ++ ((e.pad more).bytes ++ List.replicate rest 0) := by
  have hsame : e.bytes ++ List.replicate (more + rest) 0 = (e.pad 0).bytes ++ List.replicate (more + rest) 0 := rfl
  rw [hsame, bytes_pad_append h, bytes_pad_append h, Nat.zero_add, Nat.add_zero]
  generalize (toLE 1 e.name.length ++ (toLE 1 e.fileType ++
    (e.name ++ List.replicate (e.recLen - (8 + e.name.length) + (more + rest)) 0))) = behind
  have hplace : before.length + 4 = (before ++ toLE 4 e.inode).length := by rw [List.length_append, length_toLE]
  have hold : ((before ++ (toLE 4 e.inode ++ (toLE 2 e.recLen ++ behind))).drop (before.length + 4)).take 2 =
      toLE 2 e.recLen := by
    rw [← List.append_assoc, hplace, List.drop_left, take_toLE_append]
  have hrecLen : ofLE (toLE 2 e.recLen) = e.recLen := ofLE_toLE_of_lt (by omega)
  rw [addRecLen, hold, hrecLen, ← List.append_assoc before,
    overwrite_at (before ++ toLE 4 e.inode) (toLE 2 e.recLen) behind rfl hplace (by rw [length_toLE, length_toLE]),
    List.append_assoc]

/-- What has been written so far: some entries, the last one and zeros. -/
structure Written (blockSize len : Nat) (data : List UInt8) (offset prev : Nat) (done : List DirEntry)
    (last : DirEntry) : Prop where
  data_eq : data = chainBytes done ++ (last.bytes ++ List.replicate (len - offset) 0)
  prev_eq : prev = (chainBytes done).length
  offset_eq : offset = prev + last.recLen
  le : offset ≤ len
  chain : Chain blockSize 0 (done ++ [last])

theorem Written.last_ok (h : Written blockSize len data offset prev done last) :
    last.Valid ∧ prev / blockSize = (prev + last.recLen - 1) / blockSize := by
  obtain ⟨hvalid, hblock, -⟩ := (chain_append.mp h.chain).2
  rw [Nat.zero_add, ← h.prev_eq] at hblock
  exact ⟨hvalid, hblock⟩

/-- The last entry can be made longer, up to the end of its block. -/
theorem Written.pad (hpos : 0 < blockSize) (hlt : blockSize < 2 ^ 16)
    (h : Written blockSize len data offset prev done last) {more : Nat} (hmore : offset + more ≤ len)
    (hblock : prev / blockSize = (offset + more - 1) / blockSize) :
    Written blockSize len (addRecLen data prev more) (offset + more) prev done (last.pad more) := by
  obtain ⟨hvalid, -⟩ := h.last_ok
  have hoffset := h.offset_eq
  have hblock' : prev / blockSize = (prev + (last.recLen + more) - 1) / blockSize := by
    rw [hblock, hoffset, Nat.add_assoc]
  have hle : last.recLen + more ≤ blockSize := recLen_le (e := last.pad more) hpos hblock'
  have hrest : len - offset = more + (len - (offset + more)) := by omega
  refine ⟨?_, h.prev_eq, by rw [DirEntry.pad, hoffset, Nat.add_assoc], hmore, ?_⟩
  · rw [h.data_eq, h.prev_eq, hrest, addRecLen_append hvalid _ _ (by omega)]
  · obtain ⟨hdone, -, -, -⟩ := chain_append.mp h.chain
    refine chain_append.mpr ⟨hdone, ⟨hvalid.inode, hvalid.name, hvalid.fileType, ?_⟩, ?_, trivial⟩
    · exact Nat.le_trans hvalid.recLen (Nat.le_add_right _ _)
    · rw [Nat.zero_add, ← h.prev_eq]
      exact hblock'

/-- Where an entry would cross the end of a block, and where the next block begins. -/
theorem endBlock_cases (hpos : 0 < blockSize) {recLen : Nat} (hrec : 0 < recLen) (hle : recLen ≤ blockSize)
    (offset : Nat) :
    (offset % blockSize + recLen ≤ blockSize ∧ offset / blockSize = (offset + recLen - 1) / blockSize) ∨
      (blockSize < offset % blockSize + recLen ∧ (offset + recLen - 1) / blockSize = offset / blockSize + 1 ∧
        (offset / blockSize + 1) * blockSize = offset + (blockSize - offset % blockSize)) := by
  have hdiv := Nat.div_add_mod' offset blockSize
  have hmod := Nat.mod_lt offset hpos
  rcases Nat.lt_or_ge blockSize (offset % blockSize + recLen) with hcross | hfits
  · refine Or.inr ⟨hcross, Nat.div_eq_of_lt_le ?_ ?_, ?_⟩
    · rw [Nat.succ_mul]
      omega
    · rw [Nat.succ_mul, Nat.succ_mul]
      omega
    · rw [Nat.succ_mul]
      omega
  · refine Or.inl ⟨hfits, (Nat.div_eq_of_lt_le ?_ ?_).symm⟩
    · omega
    · rw [Nat.succ_mul]
      omega

/-- The new entry is written to the zeros that are left. -/
theorem Written.push (h : Written blockSize len data offset prev done last) (hvalid : e.Valid)
    (hle : offset + e.recLen ≤ len) (hblock : offset / blockSize = (offset + e.recLen - 1) / blockSize) :
    Written blockSize len
      (overwrite data offset
        (toLE 4 e.inode ++ (toLE 2 e.recLen ++ (toLE 1 e.name.length ++ (toLE 1 e.fileType ++ e.name)))))
      (offset + e.recLen) offset (done ++ [last]) e := by
  obtain ⟨hlast, -⟩ := h.last_ok
  have hplace : offset = (chainBytes (done ++ [last])).length := by
    rw [chainBytes_append, List.length_append, ← h.prev_eq, chainBytes_cons, List.length_append, hlast.length_bytes,
      h.offset_eq]
    rfl
  have hrec := hvalid.recLen
  have hdata : data = chainBytes (done ++ [last]) ++ (List.replicate (8 + e.name.length) 0 ++
      List.replicate (len - offset - (8 + e.name.length)) 0) := by
    rw [List.replicate_append_replicate, show 8 + e.name.length + (len - offset - (8 + e.name.length)) =
      len - offset by omega, h.data_eq, chainBytes_append, chainBytes_cons, List.append_assoc, List.append_assoc]
    rfl
  refine ⟨?_, hplace, rfl, hle, chain_append.mpr ⟨h.chain, ?_⟩⟩
  · rw [overwrite_at _ _ _ hdata hplace (by simp only [List.length_replicate, List.length_append, length_toLE]; omega),
      DirEntry.bytes]
    simp only [List.append_assoc, List.replicate_append_replicate]
    rw [show e.recLen - (8 + e.name.length) + (len - (offset + e.recLen)) =
      len - offset - (8 + e.name.length) by omega]
  · rw [Nat.zero_add, ← hplace]
    exact ⟨hvalid, hblock, trivial⟩

/-- The entry that `add_dentry` writes. -/
def newEntry (inode : Nat) (name : Name) (fileType : Nat) : DirEntry := ⟨inode, dentryLen name, fileType, name⟩

theorem newEntry_valid {inode fileType : Nat} (hname : name.length < 2 ^ 8) (hinode : inode < 2 ^ 32)
    (htype : fileType < 2 ^ 8) :
    (newEntry inode name fileType).Valid := ⟨hinode, hname, htype, (dentryLen_bounds hname).1⟩

/-- **Adding an entry.** It ends where `dentry_size` says. -/
theorem addDentry_ok (hbs : 1024 ≤ blockSize) (hlt : blockSize < 2 ^ 16)
    (h : Written blockSize len data offset prev done last) (inode : Nat) {fileType : Nat} (hname : name.length < 2 ^ 8)
    (hinode : inode < 2 ^ 32) (htype : fileType < 2 ^ 8) (hle : nextLen blockSize offset name ≤ len)
    (hlen : len < 2 ^ 32) :
    ∃ data' dentry more, addDentry blockSize data offset (some prev) inode name fileType =
      .ok (data', nextLen blockSize offset name, dentry) ∧
      Written blockSize len data' (nextLen blockSize offset name) dentry (done ++ [last.pad more])
        (newEntry inode name fileType) := by
  have hpos : 0 < blockSize := by omega
  obtain ⟨hlo, hhi⟩ := dentryLen_bounds hname
  have hvalid := newEntry_valid hname hinode htype
  have hmod : name.length % 2 ^ 8 = name.length := Nat.mod_eq_of_lt hname
  have hrecLen : 8 + align name.length 4 = dentryLen name := rfl
  rw [addDentry]
  dsimp only
  rw [hmod, List.take_length, hrecLen]
  rw [nextLen] at hle ⊢
  have hpositive : 0 < dentryLen name := by omega
  rcases endBlock_cases hpos hpositive (by omega) offset with ⟨hfits, hblock⟩ | ⟨hcross, hend, hnext⟩
  · rw [if_neg (Nat.not_lt.mpr hfits)] at hle ⊢
    rw [Nat.mod_eq_of_lt (show offset + dentryLen name - 1 < 2 ^ 32 by omega), if_neg (not_not_intro hblock), ok_bind,
      Nat.mod_eq_of_lt (show offset + dentryLen name < 2 ^ 32 by omega)]
    exact ⟨_, _, 0, rfl, h.push hvalid hle hblock⟩
  · rw [if_pos hcross] at hle ⊢
    rw [Nat.mod_eq_of_lt (show offset + dentryLen name - 1 < 2 ^ 32 by omega), if_pos (by omega), hend, hnext, ok_bind,
      sub32_of_le (by omega) (by omega), Nat.add_sub_cancel_left,
      Nat.mod_eq_of_lt (show offset + (blockSize - offset % blockSize) + dentryLen name < 2 ^ 32 by omega)]
    have hdiv := Nat.div_add_mod' offset blockSize
    have hmod := Nat.mod_lt offset hpos
    -- what has been written does not end at the end of a block
    have hinside : 0 < offset % blockSize := by omega
    have hlast : prev / blockSize = (offset + (blockSize - offset % blockSize) - 1) / blockSize := by
      obtain ⟨-, hblock⟩ := h.last_ok
      rw [hblock, ← h.offset_eq]
      refine Eq.trans (Nat.div_eq_of_lt_le (k := offset / blockSize) ?_ ?_)
        (Nat.div_eq_of_lt_le (k := offset / blockSize) ?_ ?_).symm
      · omega
      · rw [Nat.succ_mul]
        omega
      · omega
      · rw [Nat.succ_mul]
        omega
    have hroom : offset + (blockSize - offset % blockSize) ≤ len := by omega
    have hpadded := h.pad hpos hlt hroom hlast
    refine ⟨_, _, _, rfl, hpadded.push hvalid hle ?_⟩
    rw [← hnext, Nat.mul_div_cancel _ hpos]
    refine (Nat.div_eq_of_lt_le ?_ ?_).symm
    · change _ ≤ (offset / blockSize + 1) * blockSize + dentryLen name - 1
      omega
    · change (offset / blockSize + 1) * blockSize + dentryLen name - 1 < _
      rw [Nat.succ_mul (offset / blockSize + 1)]
      omega

theorem chainBytes_singleton (e : DirEntry) : chainBytes [e] = e.bytes := by
  rw [chainBytes_cons, chainBytes, List.flatMap_nil, List.append_nil]

/-- What a directory can have for its entries. -/
def NamesOk (entries : List (Name × Nat)) : Prop := ∀ e ∈ entries, e.1.length < 2 ^ 8 ∧ e.2 < 2 ^ 8

theorem NamesOk.names {entries : List (Name × Nat)} (h : NamesOk entries) :
    ∀ name ∈ entries.map Prod.fst, name.length < 2 ^ 8 := by
  intro name hname
  obtain ⟨e, he, rfl⟩ := List.mem_map.mp hname
  exact (h e he).1

/-- **Adding all the entries**: they end where `dentry_size` says, so the check is never met. The last one may be made
longer in the end. -/
theorem addDentries_ok (hbs : 1024 ≤ blockSize) (hlt : blockSize < 2 ^ 16) {entries : List (Name × Nat)}
    (h : Written blockSize len data offset prev done last) (hnames : NamesOk entries)
    (hle : (entries.map Prod.fst).foldl (nextLen blockSize) offset ≤ len) (hlen : len < 2 ^ 32) :
    ∃ data' prev' places done' last',
      addDentries blockSize len entries data offset prev =
        .ok (data', (entries.map Prod.fst).foldl (nextLen blockSize) offset, prev', places) ∧
      Written blockSize len data' ((entries.map Prod.fst).foldl (nextLen blockSize) offset) prev' done' last' ∧
      ∀ extra, ∃ more news, done' ++ [last'.pad extra] = done ++ last.pad more :: news ∧
        news.map DirEntry.key = entries.map (fun e => (0, e.1, e.2)) ∧
        places = starts (chainBytes (done ++ [last.pad more])).length news := by
  induction entries generalizing data offset prev done last with
  | nil => exact ⟨data, prev, [], done, last, rfl, h, fun extra => ⟨extra, [], rfl, rfl, rfl⟩⟩
  | cons entry entries ih =>
    obtain ⟨name, fileType⟩ := entry
    rw [List.map_cons, List.foldl_cons] at hle ⊢
    dsimp only at hle ⊢
    obtain ⟨hname, htype⟩ : name.length < 2 ^ 8 ∧ fileType < 2 ^ 8 := hnames (name, fileType) List.mem_cons_self
    have hnext := le_foldl_nextLen blockSize (nextLen blockSize offset name) (entries.map Prod.fst)
    obtain ⟨data₁, dentry, more₁, hadd, hwritten⟩ := addDentry_ok hbs hlt h 0 hname (by decide) htype (by omega) hlen
    obtain ⟨data', prev', places, done', last', hall, hwritten', hlast⟩ :=
      ih hwritten (fun e he => hnames e (List.mem_cons_of_mem _ he)) hle
    have hcheck : ¬ (nextLen blockSize offset name > len ∨
        (nextLen blockSize offset name = len ∧ ¬ entries.isEmpty)) := by
      rintro (hpast | ⟨hend, hmore⟩)
      · omega
      · cases entries with
        | nil => exact hmore rfl
        | cons entry entries =>
          rw [List.map_cons, List.foldl_cons] at hle hnext
          have hlt' := lt_nextLen blockSize (nextLen blockSize offset name) entry.1
          have hle' := le_foldl_nextLen blockSize (nextLen blockSize (nextLen blockSize offset name) entry.1)
            (entries.map Prod.fst)
          omega
    refine ⟨data', prev', dentry :: places, done', last', ?_, hwritten', fun extra => ?_⟩
    · rw [addDentries, hadd, ok_bind]
      dsimp only
      rw [if_neg hcheck, hall]
      rfl
    · obtain ⟨more, news, heq, hkeys, rfl⟩ := hlast extra
      refine ⟨more₁, (newEntry 0 name fileType).pad more :: news, ?_, ?_, ?_⟩
      · rw [heq, List.append_assoc]
        rfl
      · rw [List.map_cons, List.map_cons, hkeys]
        rfl
      · rw [starts, ← hwritten.prev_eq, chainBytes_append, List.length_append, ← hwritten.prev_eq,
          chainBytes_singleton]

/-- The entry `.` at the beginning. -/
theorem addDentry_dot (hbs : 1024 ≤ blockSize) {inodeNum : Nat} (hinode : inodeNum < 2 ^ 32) (hlen : 12 ≤ len) :
    ∃ data', addDentry blockSize (List.replicate len 0) 0 none inodeNum dot EXT4_FT_DIR = .ok (data', 12, 0) ∧
      Written blockSize len data' 12 0 [] (newEntry inodeNum dot EXT4_FT_DIR) := by
  have hzero : 0 / blockSize = (0 + 12 - 1) / blockSize := by
    rw [Nat.div_eq_of_lt (by omega), Nat.div_eq_of_lt (by omega)]
  have hvalid : (newEntry inodeNum dot EXT4_FT_DIR).Valid := newEntry_valid (by decide) hinode (by decide)
  refine ⟨(newEntry inodeNum dot EXT4_FT_DIR).bytes ++ List.replicate (len - 12) 0, ?_,
    ⟨rfl, rfl, rfl, hlen, ⟨hvalid, hzero, trivial⟩⟩⟩
  have hzeros : List.replicate len (0 : UInt8) = [] ++ (List.replicate 9 0 ++ List.replicate (len - 9) 0) := by
    rw [List.nil_append, List.replicate_append_replicate, Nat.add_sub_cancel' (by omega)]
  have hrest : List.replicate (len - 9) (0 : UInt8) = List.replicate 3 0 ++ List.replicate (len - 12) 0 := by
    rw [List.replicate_append_replicate, show 3 + (len - 12) = len - 9 by omega]
  have hrecLen : 8 + align (dot.length % 2 ^ 8) 4 = 12 := rfl
  rw [addDentry]
  dsimp only
  rw [hrecLen, Nat.mod_eq_of_lt (show 0 + 12 - 1 < 2 ^ 32 by decide), if_neg (not_not_intro hzero), ok_bind]
  dsimp only
  have hplace : ∀ new : List UInt8, (List.replicate 9 (0 : UInt8)).length = new.length →
      overwrite (List.replicate len 0) 0 new = [] ++ (new ++ List.replicate (len - 9) 0) :=
    fun new hnew => overwrite_at [] _ _ hzeros rfl hnew
  rw [hplace, hrest]
  · rfl
  · rfl

/-- **Filling a directory.** What is written is a chain of the entries, from the beginning to the end. -/
theorem fillDirectory_ok (hbs : 1024 ≤ blockSize) (hlt : blockSize < 2 ^ 16) {inodeNum dirInodeNum : Nat}
    {entries : List (Name × Nat)} (hinode : inodeNum < 2 ^ 32) (hdir : dirInodeNum < 2 ^ 32) (hnames : NamesOk entries)
    (hle : dirLength blockSize (entries.map Prod.fst) ≤ len) (hlen : len < 2 ^ 32)
    (hend : (dirLength blockSize (entries.map Prod.fst) - 1) / blockSize = (len - 1) / blockSize) :
    ∃ self parent news, fillDirectory blockSize len inodeNum dirInodeNum entries =
        .ok (chainBytes (self :: parent :: news), starts (chainBytes [self, parent]).length news) ∧
      Chain blockSize 0 (self :: parent :: news) ∧ (chainBytes (self :: parent :: news)).length = len ∧
      self.key = (inodeNum, dot, EXT4_FT_DIR) ∧ parent.key = (dirInodeNum, dotDot, EXT4_FT_DIR) ∧
      news.map DirEntry.key = entries.map (fun e => (0, e.1, e.2)) := by
  have hpos : 0 < blockSize := by omega
  have hsize := le_foldl_nextLen blockSize 24 (entries.map Prod.fst)
  rw [dirLength] at hle hend
  have htwelve' : 12 ≤ len := by omega
  obtain ⟨data₁, hdot, hwritten₁⟩ := addDentry_dot hbs hinode htwelve'
  have htwelve : nextLen blockSize 12 dotDot = 24 := by
    have hlen : dentryLen dotDot = 12 := rfl
    rw [nextLen, hlen, Nat.mod_eq_of_lt (by omega), if_neg (by omega)]
  have hdotDotLen : dotDot.length < 2 ^ 8 := by decide
  have hdirType : EXT4_FT_DIR < 2 ^ 8 := by decide
  obtain ⟨data₂, dentry, more₂, hdotDot, hwritten₂⟩ :=
    addDentry_ok hbs hlt hwritten₁ dirInodeNum hdotDotLen hdir hdirType (by omega) hlen
  rw [htwelve] at hdotDot hwritten₂
  obtain ⟨data₃, prev, places, done, last, hall, hwritten₃, hlast⟩ := addDentries_ok hbs hlt hwritten₂ hnames hle hlen
  generalize (entries.map Prod.fst).foldl (nextLen blockSize) 24 = offset at *
  obtain ⟨more, news, heq, hkeys, rfl⟩ := hlast (len - offset)
  have hblock : prev / blockSize = (offset + (len - offset) - 1) / blockSize := by
    obtain ⟨-, hlastBlock⟩ := hwritten₃.last_ok
    rw [hlastBlock, ← hwritten₃.offset_eq, hend, Nat.add_sub_cancel' hle]
  have hroom : offset + (len - offset) ≤ len := by omega
  have hpadded := hwritten₃.pad hpos hlt hroom hblock
  have hdata := hpadded.data_eq
  rw [Nat.add_sub_cancel' hle, Nat.sub_self, List.replicate_zero, List.append_nil] at hdata
  have hchain : chainBytes done ++ (last.pad (len - offset)).bytes =
      chainBytes (done ++ [last.pad (len - offset)]) := by
    rw [chainBytes_append, chainBytes_singleton]
  rw [hchain, heq] at hdata
  have hwhole : Chain blockSize 0 (done ++ [last.pad (len - offset)]) := hpadded.chain
  have hlength : (chainBytes (done ++ [last.pad (len - offset)])).length = len := by
    obtain ⟨hvalid, -⟩ := hpadded.last_ok
    rw [← hchain, List.length_append, hvalid.length_bytes, ← hpadded.prev_eq, ← hpadded.offset_eq,
      Nat.add_sub_cancel' hle]
  rw [heq] at hwhole hlength
  refine ⟨_, _, news, ?_, hwhole, hlength, rfl, rfl, hkeys⟩
  rw [fillDirectory, hdot, ok_bind]
  dsimp only
  rw [hdotDot, ok_bind]
  dsimp only
  rw [hall, ok_bind]
  dsimp only
  rw [sub32_of_le hle hlen, hdata]
  rfl

/-! ### Writing the number of an inode -/

/-- An entry whose inode is known. -/
def DirEntry.withInode (e : DirEntry) (inode : Nat) : DirEntry := { e with inode }

theorem length_bytes_withInode (e : DirEntry) (inode : Nat) : (e.withInode inode).bytes.length = e.bytes.length := by
  simp [DirEntry.bytes, DirEntry.withInode, length_toLE]

/-- **The number of the inode is the first field of an entry.** -/
theorem overwrite_inode (before : List DirEntry) (e : DirEntry) (behind : List DirEntry) (inode : Nat) :
    overwrite (chainBytes (before ++ e :: behind)) (chainBytes before).length (toLE 4 inode) =
      chainBytes (before ++ e.withInode inode :: behind) := by
  rw [chainBytes_append, chainBytes_cons, DirEntry.bytes, List.append_assoc,
    overwrite_append (by rw [length_toLE, length_toLE]), chainBytes_append, chainBytes_cons, DirEntry.bytes,
    List.append_assoc]
  rfl

theorem chain_withInode {before behind : List DirEntry} {inode : Nat} (hinode : inode < 2 ^ 32)
    (h : Chain blockSize 0 (before ++ e :: behind)) : Chain blockSize 0 (before ++ e.withInode inode :: behind) := by
  obtain ⟨hbefore, hvalid, hblock, hbehind⟩ := chain_append.mp h
  exact chain_append.mpr ⟨hbefore, ⟨hinode, hvalid.name, hvalid.fileType, hvalid.recLen⟩, hblock, hbehind⟩

/-- **A directory is read back**: itself, its parent and the entries, in as many blocks as `dentry_size` asks for. That
is so below 4 GiB, where `dentry_size` and the offsets do not wrap. -/
theorem readDirectory_fillDirectory (hbs : 1024 ≤ blockSize) (hlt : blockSize < 2 ^ 16) {inodeNum dirInodeNum : Nat}
    {entries : List (Name × Nat)} (hinode : inodeNum < 2 ^ 32) (hdir : dirInodeNum < 2 ^ 32) (hnames : NamesOk entries)
    (hsize : dirLength blockSize (entries.map Prod.fst) + blockSize < 2 ^ 32) :
    ∃ data places es,
      fillDirectory blockSize (directoryLen blockSize (entries.map Prod.fst)) inodeNum dirInodeNum entries =
        .ok (data, places) ∧
      data.length = directoryLen blockSize (entries.map Prod.fst) ∧
      readDirectory blockSize data = some es ∧
      es.map DirEntry.key =
        (inodeNum, dot, EXT4_FT_DIR) :: (dirInodeNum, dotDot, EXT4_FT_DIR) :: entries.map fun e => (0, e.1, e.2) := by
  have hpos : 0 < blockSize := by omega
  have hmin : 24 ≤ dirLength blockSize (entries.map Prod.fst) := le_foldl_nextLen _ _ _
  have hup : divRoundUp (dirLength blockSize (entries.map Prod.fst)) blockSize * blockSize ≤
      dirLength blockSize (entries.map Prod.fst) + blockSize - 1 := Nat.div_mul_le_self _ _
  rw [directoryLen_eq hpos hlt hnames.names hsize]
  obtain ⟨self, parent, news, hfill, hchain, hlength, hself, hparent, hkeys⟩ :=
    fillDirectory_ok hbs hlt hinode hdir hnames (le_divRoundUp_mul _ hpos) (by omega) (pred_div_eq (by omega) hpos)
  refine ⟨_, _, self :: parent :: news, hfill, hlength, readDirectory_bytes hpos hlt hchain, ?_⟩
  rw [List.map_cons, List.map_cons, hself, hparent, hkeys]

/-- Four files whose names have 255 bytes. -/
def longNames : List (Name × Nat) := [97, 98, 99, 100].map fun b => (List.replicate 255 b, EXT4_FT_REG_FILE)

/-- In blocks of 1 KiB the fourth entry would cross the end of the first block: the third is made longer and
the directory takes two blocks. -/
theorem readDirectory_small :
    directoryLen 1024 (longNames.map Prod.fst) = 2048 ∧
    ∃ data places es, fillDirectory 1024 2048 11 2 longNames = .ok (data, places) ∧ data.length = 2048 ∧
      readDirectory 1024 data = some es ∧
      es.map DirEntry.key =
        (11, dot, EXT4_FT_DIR) :: (2, dotDot, EXT4_FT_DIR) :: longNames.map fun e => (0, e.1, e.2) := by
  have hnames : NamesOk longNames := by
    unfold NamesOk
    decide +kernel
  have hlen : directoryLen 1024 (longNames.map Prod.fst) = 2048 := by decide +kernel
  have hsize : dirLength 1024 (longNames.map Prod.fst) + 1024 < 2 ^ 32 := by decide +kernel
  have hself : 11 < 2 ^ 32 := by decide
  have hparent : 2 < 2 ^ 32 := by decide
  have hread := readDirectory_fillDirectory (by decide) (by decide) hself hparent hnames hsize
  rw [hlen] at hread
  exact ⟨hlen, hread⟩

end Goldfish.Ext4

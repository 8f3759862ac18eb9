import Goldfish.Ext4.Contents

/-!
# Goldfish.Ext4.Tree

The loop over a directory and everything below it (`build_directory_structure` of
`make_ext4fs.c`).

`Dentries` is what the source finds out with `scandir`, `lstat`, `readlink` and the
configuration of the file system, before the image is touched. An entry is made, the number
of its inode is written to the buffer of the directory it is in, and its permissions are
set: what has been made so far stays as it is (`Keeps`).

The attributes of an entry are data here. The path in the image, which begins at the mount
point, is what the source asks the configuration with; it is kept for the text of an error.
There are no labels (`sehnd` is null) and no capabilities: `inode_set_selinux` and
`inode_set_capabilities` return 0 at once then, and nothing stands for them.
-/

namespace Goldfish.Ext4

open Goldfish.Lib

/-- `struct dentry`, without what depends on the kind of the entry. -/
structure Dentry where
  filename : Name
  mode : BitVec 16
  uid : BitVec 16
  gid : BitVec 16
  mtime : Nat
  deriving DecidableEq, Repr

/-- The entries of a directory and everything below them. -/
inductive Dentries where
  | nil
  | file (d : Dentry) (size : Nat) (rest : Dentries)
  | dir (d : Dentry) (entries rest : Dentries)
  | link (d : Dentry) (link : List UInt8) (rest : Dentries)
  | special (d : Dentry) (fileType : Nat) (rest : Dentries)
  deriving Repr

namespace Dentries

/-- The names and the types, as `make_directory` gets them. -/
def names : Dentries → List (Name × Nat)
  | nil => []
  | file d _ rest => (d.filename, EXT4_FT_REG_FILE) :: rest.names
  | dir d _ rest => (d.filename, EXT4_FT_DIR) :: rest.names
  | link d _ rest => (d.filename, EXT4_FT_SYMLINK) :: rest.names
  | special d fileType rest => (d.filename, fileType) :: rest.names

/-- How many of the entries are directories. -/
def dirs : Dentries → Nat
  | nil => 0
  | file _ _ rest => rest.dirs
  | dir _ _ rest => rest.dirs + 1
  | link _ _ rest => rest.dirs
  | special _ _ rest => rest.dirs

end Dentries

/-- `lost+found`. -/
def lostAndFound : Dentry where
  filename := [108, 111, 115, 116, 43, 102, 111, 117, 110, 100]
  mode := 0o700#16
  uid := 0
  gid := 0
  mtime := 0

/-- The root directory gets a `lost+found`, unless there is one. -/
def Dentries.withLostAndFound (entries : Dentries) : Dentries :=
  if entries.names.any fun e => e.1 == lostAndFound.filename then entries else .dir lostAndFound .nil entries

/-- What stands between a directory and an entry. -/
def slash : FileName := [47]

/-- The end of the loop: the number of the inode goes to its place in the directory, and the permissions are set. -/
def finishEntry (info : Info) (aux : AuxInfo) (image : Image) (data place entryInode : Nat) (d : Dentry) : Image :=
  inodeSetPermissions info aux
    { image with buffers := image.buffers.modify data fun bytes => overwrite bytes place (toLE 4 entryInode) }
    entryInode d.mode d.uid d.gid d.mtime

/-- The loop of `build_directory_structure`. There are as many places as entries. -/
def buildEntries (info : Info) (aux : AuxInfo) : Dentries → (fullPath dirPath : FileName) → (inode data : Nat) →
    (places : List Nat) → Image → Except String Image
  | .nil, _, _, _, _, _, image => .ok image
  | .file d size rest, fullPath, dirPath, inode, data, place :: places, image => do
    let (entryInode, image) ← makeFile info aux image (fullPath ++ d.filename) size
    buildEntries info aux rest fullPath dirPath inode data places (finishEntry info aux image data place entryInode d)
  | .dir d entries rest, fullPath, dirPath, inode, data, place :: places, image => do
    let (entryInode, subdirData, subdirPlaces, image) ← makeDirectory info aux image inode entries.names entries.dirs
    let image ← buildEntries info aux entries (fullPath ++ d.filename ++ slash) (dirPath ++ d.filename ++ slash)
      entryInode subdirData subdirPlaces image
    buildEntries info aux rest fullPath dirPath inode data places (finishEntry info aux image data place entryInode d)
  | .link d link rest, fullPath, dirPath, inode, data, place :: places, image => do
    let (entryInode, image) ← makeLink info aux image (link.take (info.blockSize - 1))
    buildEntries info aux rest fullPath dirPath inode data places (finishEntry info aux image data place entryInode d)
  | .special d _ _, _, dirPath, _, _, _ :: _, _ => .error s!"unknown file type on {printName (dirPath ++ d.filename)}"
  | _, _, _, _, _, [], image => .ok image

/-- The number of the directory, and the image. -/
def buildDirectoryStructure (info : Info) (aux : AuxInfo) (image : Image) (fullPath dirPath : FileName)
    (dirInode : Nat) (entries : Dentries) : Except String (Nat × Image) := do
  let entries := if dirInode = 0 then entries.withLostAndFound else entries
  let (inode, data, places, image) ← makeDirectory info aux image dirInode entries.names entries.dirs
  let image ← buildEntries info aux entries fullPath dirPath inode data places image
  pure (inode, image)

/-- `build_default_directory_structure`: a root directory with a `lost+found`. -/
def buildDefaultDirectoryStructure (info : Info) (aux : AuxInfo) (image : Image) : Except String (Nat × Image) := do
  let (rootInode, data, places, image) ← makeDirectory info aux image 0 [(lostAndFound.filename, EXT4_FT_DIR)] 1
  let (inode, _, _, image) ← makeDirectory info aux image rootInode [] 0
  pure (rootInode, finishEntry info aux image data (places.headD 0) inode lostAndFound)

variable {g : Geometry} {image image' : Image} {inode : Inode} {n data lo : Nat}

/-- A directory in a directory is built like any other. -/
theorem buildEntries_dir (info : Info) (aux : AuxInfo) (d : Dentry) (entries rest : Dentries)
    (fullPath dirPath : FileName) (hn : n ≠ 0) (place : Nat) (places : List Nat) (image : Image) :
    buildEntries info aux (.dir d entries rest) fullPath dirPath n data (place :: places) image = (do
      let (entryInode, image) ← buildDirectoryStructure info aux image (fullPath ++ d.filename ++ slash)
        (dirPath ++ d.filename ++ slash) n entries
      buildEntries info aux rest fullPath dirPath n data places
        (finishEntry info aux image data place entryInode d)) := by
  rw [buildEntries, buildDirectoryStructure, if_neg hn]
  cases makeDirectory info aux image n entries.names entries.dirs with
  | error e => rfl
  | ok made =>
    obtain ⟨entryInode, subdirData, subdirPlaces, image⟩ := made
    dsimp only [Bind.bind, Except.bind]
    cases buildEntries info aux entries (fullPath ++ d.filename ++ slash) (dirPath ++ d.filename ++ slash)
      entryInode subdirData subdirPlaces
        image with
    | error e => rfl
    | ok image => rfl

/-! ### What a tree needs -/

namespace Dentries

variable (blockSize : Nat)

/-- At most so many blocks. -/
def blocks : Dentries → Nat
  | nil => 0
  | file _ size rest => divRoundUp size blockSize + 1 + rest.blocks
  | dir _ entries rest => dirBlocks blockSize (entries.names.map Prod.fst) + 1 + entries.blocks + rest.blocks
  | link _ _ rest => 1 + rest.blocks
  | special _ _ rest => rest.blocks

/-- How many inodes there will be. -/
def inodes : Dentries → Nat
  | nil => 0
  | file _ _ rest => 1 + rest.inodes
  | dir _ entries rest => 1 + entries.inodes + rest.inodes
  | link _ _ rest => 1 + rest.inodes
  | special _ _ rest => rest.inodes

/-- What the source takes for granted: the mode has no bits for the type, the lengths fit, and there are only
files, directories and links. -/
def Ok : Dentries → Prop
  | nil => True
  | file d size rest => d.mode &&& S_IFMT = 0 ∧ divRoundUp size blockSize + 1 < 2 ^ 32 ∧ rest.Ok
  | dir d entries rest => d.mode &&& S_IFMT = 0 ∧ DirOk blockSize entries.names ∧ entries.Ok ∧ rest.Ok
  | link d _ rest => d.mode &&& S_IFMT = 0 ∧ rest.Ok
  | special _ _ _ => False

end Dentries

/-! ### What has been made -/

/-- The attributes of what is made for an entry. -/
def Dentry.attributes (d : Dentry) (kind links : BitVec 16) : Attributes :=
  ⟨d.filename, kind ||| d.mode, d.uid, d.gid, links, d.mtime, d.mtime, d.mtime⟩

/-- An entry of a directory, with its inode, which is none of the `old` ones. -/
def HoldsEntry (g : Geometry) (image : Image) (old : Nat → Prop) (e : DirEntry) (fileType : Nat) (attr : Attributes)
    (content : Inode → Prop) : Prop :=
  e.fileType = fileType ∧ 0 < e.inode ∧ ¬ old e.inode ∧
    ∃ inode, readInode g.info image.bgs e.inode = some inode ∧ attributes e.name inode = attr ∧ content inode

/-- The entries of the directory `parent`, with everything below them. All the buffers that they use have at least
the number `lo`. -/
def HoldsEntries (g : Geometry) (image : Image) (old : Nat → Prop) (lo : Nat) :
    Dentries → (fullPath : FileName) → (parent : Nat) →
    List DirEntry → Prop
  | .nil, _, _, [] => True
  | .file d size rest, fullPath, parent, e :: es =>
    HoldsEntry g image old e EXT4_FT_REG_FILE (d.attributes S_IFREG 1) (fun inode =>
      inode.size = size ∧ HoldsParts g.info.blockSize image.chunks inode size (.file (fullPath ++ d.filename))) ∧
    HoldsEntries g image old lo rest fullPath parent es
  | .dir d entries rest, fullPath, parent, e :: es =>
    HoldsEntry g image old e EXT4_FT_DIR (d.attributes S_IFDIR (BitVec.ofNat 16 (entries.dirs + 2))) (fun inode =>
      ∃ data before subs, lo ≤ data ∧ HoldsDir g.info.blockSize image inode e.inode parent data before subs ∧
        HoldsEntries g image old lo entries (fullPath ++ d.filename ++ slash) e.inode subs) ∧
    HoldsEntries g image old lo rest fullPath parent es
  | .link d link rest, fullPath, parent, e :: es =>
    HoldsEntry g image old e EXT4_FT_SYMLINK (d.attributes S_IFLNK 1) (fun inode =>
      HoldsLink g.info.blockSize image inode lo (link.take (g.info.blockSize - 1))) ∧
    HoldsEntries g image old lo rest fullPath parent es
  | _, _, _, _ => False

/-- The inodes that can be read. -/
def Used (g : Geometry) (image : Image) (m : Nat) : Prop := 0 < m ∧ ∃ i, readInode g.info image.bgs m = some i

/-- From one image to another, some of the inodes and some of the buffers stay as they are. -/
structure Carries (g : Geometry) (carried kept : Nat → Prop) (image image' : Image) : Prop where
  inodes : ∀ m i, 0 < m → carried m → readInode g.info image.bgs m = some i → readInode g.info image'.bgs m = some i
  chunks : ∃ more, image'.chunks = image.chunks ++ more
  buffers : ∀ id bytes, kept id → image.buffers[id]? = some bytes → image'.buffers[id]? = some bytes

section Carrying

variable {carried kept old old' : Nat → Prop} {blocks inodes lo' : Nat} {e : DirEntry} {fileType : Nat}
  {attr : Attributes} {content content' : Inode → Prop}

theorem Keeps.carries (h : Keeps g kept image image' blocks inodes) : Carries g (fun _ => True) kept image image' :=
  ⟨fun m i hm _ => h.others m i hm, h.chunks.exists_chunks, h.buffers⟩

theorem Keeps.used (h : Keeps g kept image image' blocks inodes) {m : Nat} (hm : Used g image m) :
    Used g image' m := by
  obtain ⟨hpos, i, hi⟩ := hm
  exact ⟨hpos, i, h.others m i hpos hi⟩

theorem HoldsEntry.carry (h : Carries g carried kept image image') (hcarried : ∀ m, ¬ old m → carried m)
    (hold : ∀ m, old' m → old m) (hcontent : ∀ inode, content inode → content' inode)
    (he : HoldsEntry g image old e fileType attr content) :
    HoldsEntry g image' old' e fileType attr content' := by
  obtain ⟨htype, hpos, hnew, inode, hread, hattr, hinode⟩ := he
  exact ⟨htype, hpos, fun ho => hnew (hold _ ho), inode, h.inodes _ _ hpos (hcarried _ hnew) hread, hattr,
    hcontent inode hinode⟩

theorem HoldsParts.carry {len : Nat} {content : Content} (h : Carries g carried kept image image')
    (hparts : HoldsParts g.info.blockSize image.chunks inode len content) :
    HoldsParts g.info.blockSize image'.chunks inode len content := by
  obtain ⟨more, hmore⟩ := h.chunks
  rw [hmore]
  exact hparts.append

theorem HoldsDir.carry {parent : Nat} {before entries : List DirEntry} (h : Carries g carried kept image image')
    (hkept : kept data) (hdir : HoldsDir g.info.blockSize image inode n parent data before entries) :
    HoldsDir g.info.blockSize image' inode n parent data before entries :=
  ⟨hdir.head, h.buffers data _ hkept hdir.buffer, hdir.chain, hdir.size, hdir.parts.carry h⟩

theorem HoldsLink.carry {link : List UInt8} (h : Carries g carried kept image image') (hkept : ∀ id, lo ≤ id → kept id)
    (hlo : lo' ≤ lo) (hlink : HoldsLink g.info.blockSize image inode lo link) :
    HoldsLink g.info.blockSize image' inode lo' link := by
  obtain ⟨hsize, hfast | ⟨hslow, id, bytes, hid, hbuffer, hprefix, hparts⟩⟩ := hlink
  · exact ⟨hsize, Or.inl hfast⟩
  · exact ⟨hsize,
      Or.inr ⟨hslow, id, bytes, Nat.le_trans hlo hid, h.buffers id bytes (hkept id hid) hbuffer, hprefix,
        hparts.carry h⟩⟩

/-- **What has been made stays as it is**, as long as its inodes and its buffers do. -/
theorem HoldsEntries.carry (h : Carries g carried kept image image') (hcarried : ∀ m, ¬ old m → carried m)
    (hkept : ∀ id, lo ≤ id → kept id) (hold : ∀ m, old' m → old m) (hlo : lo' ≤ lo) {entries : Dentries}
    {fullPath : FileName} {parent : Nat} {es : List DirEntry}
    (hentries : HoldsEntries g image old lo entries fullPath parent es) :
    HoldsEntries g image' old' lo' entries fullPath parent es := by
  induction entries generalizing fullPath parent es with
  | nil =>
    cases es with
    | nil => trivial
    | cons e es => exact hentries.elim
  | file d size rest ih =>
    cases es with
    | nil => exact hentries.elim
    | cons e es =>
      exact ⟨hentries.1.carry h hcarried hold fun inode hinode => ⟨hinode.1, hinode.2.carry h⟩, ih hentries.2⟩
  | dir d entries rest ihentries ihrest =>
    cases es with
    | nil => exact hentries.elim
    | cons e es =>
      refine ⟨hentries.1.carry h hcarried hold fun inode hinode => ?_, ihrest hentries.2⟩
      obtain ⟨data, before, subs, hdata, hdir, hsubs⟩ := hinode
      exact ⟨data, before, subs, Nat.le_trans hlo hdata, hdir.carry h (hkept data hdata), ihentries hsubs⟩
  | link d link rest ih =>
    cases es with
    | nil => exact hentries.elim
    | cons e es => exact ⟨hentries.1.carry h hcarried hold fun inode hinode => hinode.carry h hkept hlo, ih hentries.2⟩
  | special d fileType rest ih => exact hentries.elim

theorem HoldsLink.withPermissions {blockSize : Nat} {link : List UInt8} {mode uid gid : BitVec 16} {mtime : Nat}
    (h : HoldsLink blockSize image inode lo link) :
    HoldsLink blockSize image (inode.withPermissions mode uid gid mtime) lo link := by
  obtain ⟨hsize, hfast | ⟨hslow, id, bytes, hid, hbuffer, hprefix, hparts⟩⟩ := h
  · exact ⟨hsize, Or.inl hfast⟩
  · exact ⟨hsize, Or.inr ⟨hslow, id, bytes, hid, hbuffer, hprefix, hparts.congr rfl rfl⟩⟩

theorem HoldsDir.withPermissions {blockSize parent : Nat} {before entries : List DirEntry} {mode uid gid : BitVec 16}
    {mtime : Nat} (h : HoldsDir blockSize image inode n parent data before entries) :
    HoldsDir blockSize image (inode.withPermissions mode uid gid mtime) n parent data before entries :=
  ⟨h.head, h.buffer, h.chain, h.size, h.parts.congr rfl rfl⟩

end Carrying

/-! ### The end of the loop -/

theorem chainBytes_append_singleton (before : List DirEntry) (e : DirEntry) (inode : Nat) :
    (chainBytes (before ++ [e.withInode inode])).length = (chainBytes before).length + e.bytes.length := by
  rw [chainBytes_append, List.length_append, chainBytes_cons, List.length_append, length_bytes_withInode]
  rfl

/-- **The number of the inode and the permissions.** -/
theorem finishEntry_ok {blocks inodes : Nat} {before news : List DirEntry} {e : DirEntry} (d : Dentry)
    (hnew : New g (fun id => id ≠ data) image n inode image' blocks inodes)
    (hbuffer : image'.buffers[data]? = some (chainBytes (before ++ e :: news))) :
    ∃ image'', finishEntry g.info g.aux image' data (chainBytes before).length n d = image'' ∧
      New g (fun id => id ≠ data) image n (inode.withPermissions d.mode d.uid d.gid d.mtime) image'' blocks inodes ∧
      Carries g (fun m => m ≠ n) (fun id => id ≠ data) image' image'' ∧
      image''.buffers[data]? = some (chainBytes (before ++ e.withInode n :: news)) := by
  have hok : ImageOk g { image' with
      buffers := image'.buffers.modify data fun bytes => overwrite bytes (chainBytes before).length (toLE 4 n) } :=
    hnew.ok.withInodes rfl hnew.ok.inodes
  obtain ⟨hmakes, hchunks, hbuffers⟩ := inodeSetPermissions_ok hok hnew.pos hnew.read d.mode d.uid d.gid d.mtime
  have hothers : ∀ id bytes, id ≠ data → image'.buffers[id]? = some bytes →
      (finishEntry g.info g.aux image' data (chainBytes before).length n d).buffers[id]? = some bytes := by
    intro id bytes hid hbytes
    rw [finishEntry, hbuffers, List.getElem?_modify_ne _ _ hid.symm, hbytes]
  refine ⟨_, rfl, hnew.makes ⟨hmakes.ok, hmakes.pos, hmakes.read, hmakes.others, hmakes.takes, hmakes.chunks,
    hmakes.total, hmakes.totalInodes, hmakes.fresh⟩ hothers ?_, ⟨hmakes.others, ⟨[], ?_⟩, hothers⟩, ?_⟩
  · rw [finishEntry, hbuffers, List.length_modify]
  · rw [List.append_nil]
    exact hchunks
  · rw [finishEntry, hbuffers, List.getElem?_modify_eq, hbuffer, Option.map_eq_map, Option.map_some, overwrite_inode]

/-- The image when the loop is done with an entry. -/
structure Finished (g : Geometry) (image : Image) (data : Nat) (before news : List DirEntry) (e : DirEntry)
    (fileType : Nat) (attr : Attributes) (made : Image) (inode : Inode) (image' : Image) (blocks inodes : Nat) :
    Prop where
  keeps : Keeps g (fun id => id ≠ data) image image' blocks inodes
  carries : Carries g (fun m => m ≠ e.inode) (fun id => id ≠ data) made image'
  buffer : image'.buffers[data]? = some (chainBytes (before ++ [e] ++ news))
  chain : Chain g.info.blockSize 0 (before ++ [e] ++ news)
  holds : HoldsEntry g image' (Used g image) e fileType attr fun i => i = inode

theorem finished {blocks inodes : Nat} {before news : List DirEntry} {e : DirEntry} {d : Dentry} {fileType : Nat}
    {kind links : BitVec 16} (hnew : New g (fun id => id ≠ data) image n inode image' blocks inodes)
    (hbuffer : image'.buffers[data]? = some (chainBytes (before ++ e :: news)))
    (hchain : Chain g.info.blockSize 0 (before ++ e :: news)) (hkey : e.key = (0, d.filename, fileType))
    (hmode : inode.iMode = kind) (hlinks : inode.iLinksCount = links) :
    Finished g image data before news (e.withInode n) fileType (d.attributes kind links) image'
      (inode.withPermissions d.mode d.uid d.gid d.mtime)
      (finishEntry g.info g.aux image' data (chainBytes before).length n d) blocks inodes := by
  obtain ⟨_, rfl, hnew', hcarries, hbuffer'⟩ := finishEntry_ok d hnew hbuffer
  obtain ⟨-, hname, htype⟩ : e.inode = 0 ∧ e.name = d.filename ∧ e.fileType = fileType := by
    simpa only [DirEntry.key, Prod.mk.injEq] using hkey
  refine ⟨hnew'.toKeeps, hcarries, ?_, ?_, htype, hnew'.pos, ?_, _, hnew'.read, ?_, rfl⟩
  · rw [List.append_assoc]
    exact hbuffer'
  · rw [List.append_assoc]
    exact chain_withInode hnew.lt hchain
  · rintro ⟨-, i, hi⟩
    have hnone : readInode g.info image.bgs n = some i := hi
    rw [hnew.new] at hnone
    cases hnone
  · subst hmode hlinks
    rw [attributes, Dentry.attributes, ← hname]
    rfl

/-- What the loop starts with. -/
structure Begins (g : Geometry) (image : Image) (lo data n : Nat) (entries : Dentries) (before news : List DirEntry) :
    Prop where
  ok : ImageOk g image
  lo_le : lo ≤ image.buffers.length
  pos : 0 < n
  lt : n < 2 ^ 32
  buffer : image.buffers[data]? = some (chainBytes (before ++ news))
  chain : Chain g.info.blockSize 0 (before ++ news)
  keys : news.map DirEntry.key = entries.names.map fun e => (0, e.1, e.2)
  entriesOk : entries.Ok g.info.blockSize
  room : g.aux.groups + entries.blocks g.info.blockSize ≤ totalFree image.bgs
  inodes : entries.inodes ≤ totalFreeInodes image.bgs

/-- What the loop leaves. -/
structure Built (g : Geometry) (image : Image) (lo data n : Nat) (entries : Dentries) (fullPath : FileName)
    (before news news' : List DirEntry) (image' : Image) : Prop where
  keeps : Keeps g (fun id => id ≠ data) image image' (entries.blocks g.info.blockSize) entries.inodes
  buffer : image'.buffers[data]? = some (chainBytes (before ++ news'))
  chain : Chain g.info.blockSize 0 (before ++ news')
  length : (chainBytes (before ++ news')).length = (chainBytes (before ++ news)).length
  holds : HoldsEntries g image' (Used g image) lo entries fullPath n news'

/-- The places of the entries behind the first. -/
theorem starts_cons (before : List DirEntry) (e : DirEntry) (news : List DirEntry) (inode : Nat) :
    starts (chainBytes before).length (e :: news) =
      (chainBytes before).length :: starts (chainBytes (before ++ [e.withInode inode])).length news := by
  rw [starts, chainBytes_append_singleton]

theorem length_cons_withInode {before news news' : List DirEntry} {e : DirEntry} {inode : Nat}
    (h : (chainBytes (before ++ [e.withInode inode] ++ news')).length =
      (chainBytes (before ++ [e.withInode inode] ++ news)).length) :
    (chainBytes (before ++ e.withInode inode :: news')).length = (chainBytes (before ++ e :: news)).length := by
  simp only [chainBytes_append, chainBytes_cons, List.length_append, length_bytes_withInode] at h ⊢
  omega

/-- An entry is done, and the loop goes on behind it. -/
theorem Finished.begins {blocks inodes : Nat} {before news : List DirEntry} {e : DirEntry} {entries rest : Dentries}
    {fileType : Nat} {attr : Attributes} {made : Image}
    (hfinished : Finished g image data before news e fileType attr made inode image' blocks inodes)
    {old : DirEntry} (hbegins : Begins g image lo data n entries before (old :: news))
    (hkeys : news.map DirEntry.key = rest.names.map fun e => (0, e.1, e.2)) (hok : rest.Ok g.info.blockSize)
    (hblocks : entries.blocks g.info.blockSize = blocks + rest.blocks g.info.blockSize)
    (hinodes : entries.inodes = inodes + rest.inodes) :
    Begins g image' lo data n rest (before ++ [e]) news := by
  have htotal := hfinished.keeps.total
  have htotalInodes := hfinished.keeps.totalInodes
  have hroom := hbegins.room
  have hroomInodes := hbegins.inodes
  exact ⟨hfinished.keeps.ok, Nat.le_trans hbegins.lo_le hfinished.keeps.length, hbegins.pos, hbegins.lt,
    hfinished.buffer, hfinished.chain, hkeys, hok, by omega, by omega⟩

/-- The entry and those behind it. -/
theorem Built.cons {blocks inodes : Nat} {before news news' : List DirEntry} {e : DirEntry} {entries rest : Dentries}
    {fullPath : FileName} {fileType num : Nat} {attr : Attributes} {made image'' : Image}
    (hfinished : Finished g image data before news (e.withInode num) fileType attr made inode image' blocks inodes)
    (hbuilt : Built g image' lo data n rest fullPath (before ++ [e.withInode num]) news news' image'')
    (hblocks : entries.blocks g.info.blockSize = blocks + rest.blocks g.info.blockSize)
    (hinodes : entries.inodes = inodes + rest.inodes)
    (hholds : HoldsEntries g image'' (Used g image) lo entries fullPath n (e.withInode num :: news')) :
    Built g image lo data n entries fullPath before (e :: news) (e.withInode num :: news') image'' := by
  have hassoc : before ++ [e.withInode num] ++ news' = before ++ e.withInode num :: news' := List.append_assoc _ _ _
  have hbuffer := hbuilt.buffer
  have hchain := hbuilt.chain
  rw [hassoc] at hbuffer hchain
  refine ⟨?_, hbuffer, hchain, length_cons_withInode hbuilt.length, hholds⟩
  rw [hblocks, hinodes]
  exact hfinished.keeps.trans hbuilt.keeps

theorem exists_cons_of_map {α β : Type} {f : α → β} {l : List α} {b : β} {bs : List β} (h : l.map f = b :: bs) :
    ∃ a as, l = a :: as ∧ f a = b ∧ as.map f = bs := by
  cases l with
  | nil => cases h
  | cons a as => exact ⟨a, as, rfl, List.cons.inj h⟩

/-- What is behind an entry, once the entry is there. -/
theorem Built.holds_rest {blocks inodes : Nat} {before news news' : List DirEntry} {rest : Dentries}
    {fullPath : FileName} {image'' : Image} (hkeeps : Keeps g (fun id => id ≠ data) image image' blocks inodes)
    (hbuilt : Built g image' lo data n rest fullPath before news news' image'') :
    HoldsEntries g image'' (Used g image) lo rest fullPath n news' :=
  hbuilt.holds.carry ⟨fun _ _ _ _ h => h, ⟨[], (List.append_nil _).symm⟩, fun _ _ _ h => h⟩ (fun _ _ => trivial)
    (fun _ _ => trivial) (fun _ => hkeeps.used) (Nat.le_refl lo)

/-- The directory has the same length as before. -/
theorem HoldsDir.built {parent num : Nat} {entries : Dentries} {fullPath : FileName}
    {before news news' : List DirEntry} (hdir : HoldsDir g.info.blockSize image inode num parent data before news)
    (h : Built g image lo data num entries fullPath before news news' image') :
    HoldsDir g.info.blockSize image' inode num parent data before news' := by
  refine ⟨hdir.head, h.buffer, h.chain, ?_, ?_⟩
  · rw [h.length, hdir.size]
  · rw [h.length]
    exact hdir.parts.carry h.keeps.carries

/-- **The loop**, from any of the entries on. -/
theorem buildEntries_ok (hextents : g.ExtentsFit) {entries : Dentries} {before news : List DirEntry} (hlo : data < lo)
    (h : Begins g image lo data n entries before news) (fullPath dirPath : FileName) :
    ∃ image' news',
      buildEntries g.info g.aux entries fullPath dirPath n data (starts (chainBytes before).length news) image =
        .ok image' ∧
      Built g image lo data n entries fullPath before news news' image' := by
  have hkept : ∀ id, lo ≤ id → id ≠ data := fun id hid => by omega
  induction entries generalizing image n data lo before news fullPath dirPath with
  | nil =>
    obtain rfl : news = [] := List.map_eq_nil_iff.mp h.keys
    exact ⟨image, [], rfl, Keeps.refl h.ok _, h.buffer, h.chain, rfl, trivial⟩
  | file d size rest ih =>
    obtain ⟨e, news, rfl, hkey, hkeys⟩ := exists_cons_of_map h.keys
    obtain ⟨-, hsize, hrest⟩ := h.entriesOk
    have hroom := h.room
    have hinodes := h.inodes
    rw [Dentries.blocks] at hroom
    rw [Dentries.inodes] at hinodes
    obtain ⟨num, inode, made, hmake, hnew, hmode, hlinks, hlen, hparts⟩ :=
      makeFile_ok h.ok hextents (fullPath ++ d.filename) hsize (by omega) (by omega)
    have hfinished :=
      finished (hnew.mono fun _ _ => trivial) (hnew.buffers data _ trivial h.buffer) h.chain hkey hmode hlinks
    obtain ⟨image', news', hbuild, hbuilt⟩ := ih hlo (hfinished.begins h hkeys hrest rfl rfl) fullPath dirPath hkept
    refine ⟨image', e.withInode num :: news', ?_,
      hbuilt.cons hfinished rfl rfl ⟨?_, hbuilt.holds_rest hfinished.keeps⟩⟩
    · rw [starts_cons before e news num, buildEntries, hmake, ok_bind]
      exact hbuild
    · refine hfinished.holds.carry hbuilt.keeps.carries (fun _ _ => trivial) (fun _ => id) ?_
      rintro _ rfl
      have hparts' : HoldsParts g.info.blockSize made.chunks (inode.withPermissions d.mode d.uid d.gid d.mtime) size
        (.file (fullPath ++ d.filename)) := hparts.congr rfl rfl
      exact ⟨hlen, (hparts'.carry hfinished.carries).carry hbuilt.keeps.carries⟩
  | dir d entries rest ihentries ihrest =>
    obtain ⟨e, news, rfl, hkey, hkeys⟩ := exists_cons_of_map h.keys
    obtain ⟨-, hdirOk, hentries, hrest⟩ := h.entriesOk
    have hpos := h.pos
    have hlo' := h.lo_le
    have hroom := h.room
    have hinodes := h.inodes
    rw [Dentries.blocks] at hroom
    rw [Dentries.inodes] at hinodes
    obtain ⟨num, before', news', inode, made, hmake, hnew, hlength, hdir, hkeys', hmode, hlinks⟩ :=
      makeDirectory_ok h.ok hextents entries.dirs (by omega) h.lt hdirOk (by omega) (by omega)
    have htotal := hnew.total
    have htotalInodes := hnew.totalInodes
    obtain ⟨made', subs, hbuildSubs, hsubs⟩ := ihentries (Nat.lt_succ_self _)
      ⟨hnew.ok, hlength, hnew.pos, hnew.lt, hdir.buffer, hdir.chain, hkeys', hentries, by omega, by omega⟩
      (fullPath ++ d.filename ++ slash) (dirPath ++ d.filename ++ slash) fun id hid => by omega
    have hnew' := hnew.trans_of_lt (hsubs.keeps.mono fun id hid => Nat.ne_of_lt hid)
    have hfinished :=
      finished (hnew'.mono fun _ _ => trivial) (hnew'.buffers data _ trivial h.buffer) h.chain hkey hmode hlinks
    obtain ⟨image', news'', hbuild, hbuilt⟩ := ihrest hlo
      (hfinished.begins h hkeys hrest rfl rfl) fullPath dirPath hkept
    refine ⟨image', e.withInode num :: news'', ?_,
      hbuilt.cons hfinished rfl rfl ⟨?_, hbuilt.holds_rest hfinished.keeps⟩⟩
    · have hsub : buildDirectoryStructure g.info g.aux image (fullPath ++ d.filename ++ slash)
          (dirPath ++ d.filename ++ slash) n entries = .ok (num, made') := by
        rw [buildDirectoryStructure, if_neg (Nat.ne_of_gt hpos), hmake, ok_bind]
        dsimp only
        rw [hbuildSubs]
        rfl
      rw [starts_cons before e news num, buildEntries_dir _ _ _ _ _ _ _ (Nat.ne_of_gt hpos), hsub, ok_bind]
      exact hbuild
    · refine hfinished.holds.carry hbuilt.keeps.carries (fun _ _ => trivial) (fun _ => id) ?_
      rintro _ rfl
      have hdata : data ≠ image.buffers.length := by omega
      refine ⟨image.buffers.length, before', subs, hlo', ?_, ?_⟩
      · exact ((hdir.built hsubs).withPermissions.carry hfinished.carries hdata.symm).carry hbuilt.keeps.carries
          hdata.symm
      · have hcarried : ∀ m, ¬ Used g made m → m ≠ num := by
          rintro m hm rfl
          exact hm ⟨hnew.pos, inode, hnew.read⟩
        have hholds := hsubs.holds.carry hfinished.carries hcarried (fun id hid => by omega)
          (fun _ => hnew.toKeeps.used) (Nat.le_succ_of_le hlo')
        exact hholds.carry hbuilt.keeps.carries (fun _ _ => trivial) hkept (fun _ => id) (Nat.le_refl lo)
  | link d link rest ih =>
    obtain ⟨e, news, rfl, hkey, hkeys⟩ := exists_cons_of_map h.keys
    obtain ⟨-, hrest⟩ := h.entriesOk
    have hroom := h.room
    have hinodes := h.inodes
    rw [Dentries.blocks] at hroom
    rw [Dentries.inodes] at hinodes
    have hlen : (link.take (g.info.blockSize - 1)).length ≤ g.info.blockSize := by
      rw [List.length_take]
      omega
    obtain ⟨num, inode, made, hmake, hnew, hmode, hlinks, hlink⟩ := makeLink_ok h.ok hlen (by omega) (by omega)
    have hfinished :=
      finished (hnew.mono fun _ _ => trivial) (hnew.buffers data _ trivial h.buffer) h.chain hkey hmode hlinks
    obtain ⟨image', news', hbuild, hbuilt⟩ := ih hlo (hfinished.begins h hkeys hrest rfl rfl) fullPath dirPath hkept
    refine ⟨image', e.withInode num :: news', ?_,
      hbuilt.cons hfinished rfl rfl ⟨?_, hbuilt.holds_rest hfinished.keeps⟩⟩
    · rw [starts_cons before e news num, buildEntries, hmake, ok_bind]
      exact hbuild
    · refine hfinished.holds.carry hbuilt.keeps.carries (fun _ _ => trivial) (fun _ => id) ?_
      rintro _ rfl
      exact (hlink.withPermissions.carry hfinished.carries (fun id hid => hkept id (Nat.le_trans h.lo_le hid))
        h.lo_le).carry
        hbuilt.keeps.carries hkept (Nat.le_refl lo)
  | special d fileType rest ih => exact h.entriesOk.elim

end Goldfish.Ext4

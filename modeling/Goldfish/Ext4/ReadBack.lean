import Goldfish.Ext4.Tree

/-!
# Goldfish.Ext4.ReadBack

Reading a tree that has been built: what a reader of the blocks and inodes finds is what the
host has.
-/

namespace Goldfish.Ext4

open Goldfish.Lib

variable {host : FileName → List UInt8} {g : Geometry} {image image' : Image} {inode : Inode} {n parent data lo : Nat}
  {old : Nat → Prop} {before entries es : List DirEntry} {e : DirEntry}

namespace Dentries

/-- The files of the host are as long as `lstat` said. -/
def Sizes (host : FileName → List UInt8) : Dentries → (fullPath : FileName) → Prop
  | nil, _ => True
  | file d size rest, fullPath => (host (fullPath ++ d.filename)).length = size ∧ rest.Sizes host fullPath
  | dir d entries rest, fullPath => entries.Sizes host (fullPath ++ d.filename ++ slash) ∧ rest.Sizes host fullPath
  | link _ _ rest, fullPath => rest.Sizes host fullPath
  | special _ _ rest, fullPath => rest.Sizes host fullPath

/-- What a reader is to find. -/
def listing (host : FileName → List UInt8) (blockSize : Nat) : Dentries → (fullPath : FileName) → Listing
  | nil, _ => .nil
  | file d _ rest, fullPath => .file (d.attributes S_IFREG 1) (host (fullPath ++ d.filename))
    (rest.listing host blockSize fullPath)
  | dir d entries rest, fullPath =>
    .dir (d.attributes S_IFDIR (BitVec.ofNat 16 (entries.dirs + 2)))
      (entries.listing host blockSize (fullPath ++ d.filename ++ slash)) (rest.listing host blockSize fullPath)
  | link d target rest, fullPath => .link (d.attributes S_IFLNK 1) (target.take (blockSize - 1))
    (rest.listing host blockSize fullPath)
  | special _ _ rest, fullPath => rest.listing host blockSize fullPath

/-- How deep a reader has to go. -/
def height : Dentries → Nat
  | nil => 1
  | file _ _ rest => rest.height + 1
  | dir _ entries rest => max entries.height rest.height + 1
  | link _ _ rest => rest.height + 1
  | special _ _ rest => rest.height

end Dentries

theorem kind_of_or {kind mode : BitVec 16} (hkind : kind &&& S_IFMT = kind) (hmode : mode &&& S_IFMT = 0#16) :
    (kind ||| mode) &&& S_IFMT = kind := by
  rw [BitVec.and_or_distrib_right, hkind, hmode, BitVec.or_zero]

/-- The mode of an inode that has these attributes. -/
theorem mode_of_attributes {d : Dentry} {kind links : BitVec 16} (hkind : kind &&& S_IFMT = kind)
    (hmode : d.mode &&& S_IFMT = 0) (h : attributes e.name inode = d.attributes kind links) :
    inode.iMode &&& S_IFMT = kind := by
  have hiMode : inode.iMode = kind ||| d.mode := congrArg Attributes.mode h
  rw [hiMode, kind_of_or hkind hmode]

/-- **The entries of a directory.** -/
theorem readEntriesOf_of_holdsDir (h : HoldsDir g.info.blockSize image inode n parent data before entries) :
    readEntriesOf host g.info image inode n parent = some entries := by
  obtain ⟨hhead, hbuffer, hchain, hsize, hparts⟩ := h
  obtain ⟨self, ups, rfl, hself, hups⟩ := exists_cons_of_map hhead
  obtain ⟨up, nils, rfl, hup, hnil⟩ := exists_cons_of_map hups
  obtain rfl := List.map_eq_nil_iff.mp hnil
  have hcontent := readContent_of_parts host g.blockSize_pos hparts (Nat.le_of_eq hsize) hbuffer
  rw [hsize, List.take_length] at hcontent
  have hread := readDirectory_bytes g.blockSize_pos g.blockSize_lt hchain
  rw [readEntriesOf, hcontent]
  simp only [Option.bind_eq_bind, Option.bind_some]
  rw [hread]
  exact if_pos ⟨hself, hup⟩

/-- **The target of a link.** -/
theorem readLink_of_holdsLink {link : List UInt8} (h : HoldsLink g.info.blockSize image inode lo link) :
    readLink host g.info.blockSize image inode = some link := by
  obtain ⟨hsize, ⟨hfast, hblock⟩ | ⟨hslow, id, bytes, -, hbuffer, hprefix, hparts⟩⟩ := h
  · rw [readLink, if_pos hfast, hblock]
    dsimp only
    rw [hsize, List.take_length]
  · have hcontent := readContent_of_parts host g.blockSize_pos hparts (by rw [hsize]; exact hprefix.length_le) hbuffer
    rw [readLink, if_neg hslow, hcontent, hsize, ← List.prefix_iff_eq_take.mp hprefix]

/-- **What is read is what was made.** -/
theorem readTree_of_holds {tree : Dentries} {fullPath : FileName} (h : HoldsEntries g image old lo tree fullPath n es)
    (hok : tree.Ok g.info.blockSize) (hsizes : tree.Sizes host fullPath) {fuel : Nat} (hfuel : tree.height ≤ fuel) :
    readTree host g.info image fuel n es = some (tree.listing host g.info.blockSize fullPath) := by
  induction tree generalizing n es fullPath fuel with
  | nil =>
    cases es with
    | nil =>
      obtain ⟨fuel, rfl⟩ := Nat.exists_eq_add_of_lt (Nat.lt_of_lt_of_le Nat.zero_lt_one hfuel)
      rw [readTree, Dentries.listing]
    | cons e es => exact h.elim
  | file d size rest ih =>
    cases es with
    | nil => exact h.elim
    | cons e es =>
      obtain ⟨⟨htype, hpos, -, inode, hread, hattr, hsize, hparts⟩, hrest⟩ := h
      obtain ⟨hmode, -, hrestOk⟩ := hok
      obtain ⟨hlength, hrestSizes⟩ := hsizes
      rw [Dentries.height] at hfuel
      obtain ⟨fuel, rfl⟩ : ∃ k, fuel = k + 1 := ⟨fuel - 1, by omega⟩
      rw [← hlength] at hsize hparts
      have hcontent := readContent_of_parts host g.blockSize_pos hparts (Nat.le_of_eq hsize) rfl
      rw [hsize, List.take_length] at hcontent
      rw [readTree, if_neg (Nat.ne_of_gt hpos), hread, ih hrest hrestOk hrestSizes (by omega)]
      simp only [Option.bind_eq_bind, Option.bind_some]
      rw [if_pos ⟨htype, mode_of_attributes (by decide) hmode hattr⟩, hcontent, Option.bind_some, hattr,
        Dentries.listing]
      rfl
  | dir d entries rest ihentries ihrest =>
    cases es with
    | nil => exact h.elim
    | cons e es =>
      obtain ⟨⟨htype, hpos, -, inode, hread, hattr, data, before, subs, -, hdir, hsubs⟩, hrest⟩ := h
      obtain ⟨hmode, -, hentriesOk, hrestOk⟩ := hok
      obtain ⟨hentriesSizes, hrestSizes⟩ := hsizes
      rw [Dentries.height] at hfuel
      obtain ⟨fuel, rfl⟩ : ∃ k, fuel = k + 1 := ⟨fuel - 1, by omega⟩
      have hkind := mode_of_attributes (by decide) hmode hattr
      have hnotFile : ¬ (e.fileType = EXT4_FT_REG_FILE ∧ inode.iMode &&& S_IFMT = S_IFREG) := fun hfile => by
        rw [htype] at hfile
        exact absurd hfile.1 (by decide)
      rw [readTree, if_neg (Nat.ne_of_gt hpos), hread, ihrest hrest hrestOk hrestSizes (by omega)]
      simp only [Option.bind_eq_bind, Option.bind_some]
      rw [if_neg hnotFile, if_pos ⟨htype, hkind⟩, readEntriesOf_of_holdsDir hdir, Option.bind_some,
        ihentries hsubs hentriesOk hentriesSizes (by omega), Option.bind_some, hattr, Dentries.listing]
      rfl
  | link d link rest ih =>
    cases es with
    | nil => exact h.elim
    | cons e es =>
      obtain ⟨⟨htype, hpos, -, inode, hread, hattr, hlink⟩, hrest⟩ := h
      obtain ⟨hmode, hrestOk⟩ := hok
      rw [Dentries.height] at hfuel
      obtain ⟨fuel, rfl⟩ : ∃ k, fuel = k + 1 := ⟨fuel - 1, by omega⟩
      have hkind := mode_of_attributes (by decide) hmode hattr
      have hnotFile : ¬ (e.fileType = EXT4_FT_REG_FILE ∧ inode.iMode &&& S_IFMT = S_IFREG) := fun hfile => by
        rw [htype] at hfile
        exact absurd hfile.1 (by decide)
      have hnotDir : ¬ (e.fileType = EXT4_FT_DIR ∧ inode.iMode &&& S_IFMT = S_IFDIR) := fun hdir => by
        rw [htype] at hdir
        exact absurd hdir.1 (by decide)
      rw [readTree, if_neg (Nat.ne_of_gt hpos), hread, ih hrest hrestOk hsizes (by omega)]
      simp only [Option.bind_eq_bind, Option.bind_some]
      rw [if_neg hnotFile, if_neg hnotDir, if_pos ⟨htype, hkind⟩, readLink_of_holdsLink hlink,
        Option.bind_some, hattr, Dentries.listing]
      rfl
  | special d fileType rest ih => exact hok.elim

end Goldfish.Ext4

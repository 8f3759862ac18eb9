import Goldfish.Cmdline.ParseOptions
import Mathlib.Data.List.Basic

/-!
# Goldfish.Cmdline.CommandLine

What `android_parse_options` makes of a command line.

A command line begins with items: forms of one argument, and forms with the parameter behind them.
The parser recognizes an item by its first argument (`readArg_item`), and stops at what is no form
(`readArg_stop`). It compares a copy of 63 characters, which is enough for every name
(`buffer_translate_char_eq_iff`), and a length of 32 bits.
-/

namespace Goldfish.Cmdline

open Goldfish.Lib

/-- The name as an option is written. -/
def dashed (name : Arg) : Arg := string_translate_char name '_'.toUInt8 '-'.toUInt8

/-- The parser compares as many characters as the length says, which it has narrowed to 32 bits. -/
structure Spells (spelling name : Arg) : Prop where
  no_underscore : '_'.toUInt8 ∉ spelling
  narrowed : spelling.take (spelling.length % 4294967296) = dashed name

/-- What is consumed at once. -/
inductive Item where
  | atName (name : Arg)
  | verbose
  | debug (tags : Arg)
  | debugTag (tag : Arg)
  | flag (spelling name : Arg)
  | param (spelling name value : Arg)
  | listed (spelling name value : Arg)
  deriving DecidableEq, Repr

namespace Item

/-- The arguments that an item is written with. -/
def args : Item → List Arg
  | atName name => ['@'.toUInt8 :: name]
  | verbose => [literal "-verbose"]
  | debug tags => [literal "-debug", tags]
  | debugTag tag => [literal "-debug-" ++ tag]
  | flag spelling _ => ['-'.toUInt8 :: spelling]
  | param spelling _ value => ['-'.toUInt8 :: spelling, value]
  | listed spelling _ value => ['-'.toUInt8 :: spelling, value]

theorem args_eq_cons (item : Item) : ∃ arg params, item.args = arg :: params := by
  cases item <;> exact ⟨_, _, rfl⟩

/-- An item that the parser knows. -/
def Valid (keys : List OptionInfo) : Item → Prop
  | atName _ | verbose | debug _ => True
  | debugTag tag => '_'.toUInt8 ∉ tag
  | flag spelling name => Spells spelling name ∧ ⟨name, .OPTION_IS_FLAG⟩ ∈ keys
  | param spelling name _ => Spells spelling name ∧ ⟨name, .OPTION_IS_PARAM⟩ ∈ keys
  | listed spelling name _ => Spells spelling name ∧ ⟨name, .OPTION_IS_LIST⟩ ∈ keys

/-- What the item gives the parameter with this name. -/
def value (name : Arg) : Item → Option Arg
  | atName avd => if literal "avd" = name then some avd else none
  | param _ key value => if key = name then some value else none
  | _ => none

/-- What the item adds to the list with this name. -/
def element (name : Arg) : Item → Option Arg
  | listed _ key value => if key = name then some value else none
  | _ => none

/-- What the parser takes its first argument for. -/
def reading : Item → Reading
  | atName name => .atName name
  | verbose => .verbose
  | debug _ => .debug
  | debugTag tag => .debugTag tag
  | flag _ name => .option ⟨name, .OPTION_IS_FLAG⟩
  | param _ name _ => .option ⟨name, .OPTION_IS_PARAM⟩
  | listed _ name _ => .option ⟨name, .OPTION_IS_LIST⟩

/-- What the loop does to the options. -/
def apply (opt : AndroidOptions) : Item → AndroidOptions
  | atName name => opt.setParam (literal "avd") name
  | verbose => { opt with verbose := true }
  | debug _ | debugTag _ => opt
  | flag _ name => opt.setFlag name
  | param _ name value => opt.setParam name value
  | listed _ name value => opt.setList name (value :: opt.lists name)

end Item

/-- An item can begin like this. -/
def IsForm (keys : List OptionInfo) (arg : Arg) : Prop :=
  ∃ item : Item, item.Valid keys ∧ item.args.head? = some arg

theorem isForm_option {keys : List OptionInfo} {spelling : Arg} {oo : OptionInfo} (h : Spells spelling oo.name)
    (hoo : oo ∈ keys) : IsForm keys ('-'.toUInt8 :: spelling) := by
  obtain ⟨name, var_type⟩ := oo
  cases var_type with
  | OPTION_IS_FLAG => exact ⟨.flag spelling name, ⟨h, hoo⟩, rfl⟩
  | OPTION_IS_PARAM => exact ⟨.param spelling name [], ⟨h, hoo⟩, rfl⟩
  | OPTION_IS_LIST => exact ⟨.listed spelling name [], ⟨h, hoo⟩, rfl⟩

/-- The options are those of the items. -/
structure OptionsOf (keys : List OptionInfo) (items : List Item) (opt : AndroidOptions) : Prop where
  flags (name : Arg) : opt.flags name = true ↔ ∃ spelling, Item.flag spelling name ∈ items
  verbose : opt.verbose = true ↔ Item.verbose ∈ items
  params (name : Arg) : opt.params name = (items.filterMap (Item.value name)).getLast?
  lists (oo : OptionInfo) (h : oo ∈ keys) (hlist : oo.var_type = .OPTION_IS_LIST) :
    opt.lists oo.name = items.filterMap (Item.element oo.name)

/-! ### Names -/

theorem string_translate_char_back {str : Arg} {a b : UInt8} (h : b ∉ str) :
    string_translate_char (string_translate_char str a b) b a = str := by
  rw [string_translate_char, string_translate_char, List.map_map]
  conv => rhs; rw [← List.map_id str]
  apply List.map_congr_left
  intro c hc
  have hcb : c ≠ b := fun hcb => h (hcb ▸ hc)
  by_cases hca : c = a
  · simp [hca]
  · simp [hca, hcb]

theorem string_translate_char_eq_iff {str name : Arg} {a b : UInt8} (hstr : b ∉ str) (hname : a ∉ name) :
    string_translate_char str a b = name ↔ str = string_translate_char name b a := by
  constructor
  · intro h
    rw [← h, string_translate_char_back hstr]
  · intro h
    rw [h, string_translate_char_back hname]

theorem length_dashed (name : Arg) : (dashed name).length = name.length := List.length_map _

/-- The buffer holds the name exactly when the option is spelled like it. -/
theorem buffer_translate_char_eq_iff {spelling name : Arg} (hspelling : '_'.toUInt8 ∉ spelling)
    (hname : WellNamed name) :
    buffer_translate_char 64 spelling '-'.toUInt8 '_'.toUInt8 = name ↔ Spells spelling name := by
  have htake : ∀ n, '_'.toUInt8 ∉ spelling.take n := fun n h => hspelling (List.mem_of_mem_take h)
  have hshort := hname.short
  have hle : spelling.length % 4294967296 ≤ spelling.length := Nat.mod_le _ _
  rw [buffer_translate_char, buffer_translate_char_with_len,
    string_translate_char_eq_iff (htake _) hname.undashed]
  change _ = dashed name ↔ _
  by_cases hlong : spelling.length % 4294967296 ≥ 64
  · -- the name is shorter than what the buffer keeps
    rw [if_pos hlong]
    constructor
    · intro h
      have hlen := congrArg List.length h
      rw [List.length_take, length_dashed] at hlen
      omega
    · intro h
      have hlen := congrArg List.length h.narrowed
      rw [List.length_take, length_dashed] at hlen
      omega
  · rw [if_neg hlong]
    exact ⟨fun h => ⟨hspelling, h⟩, fun h => h.narrowed⟩

/-- A string that a length counts is an option exactly when it is the name with dashes. -/
theorem spells_iff {spelling name : Arg} (hlen : spelling.length < 4294967296) :
    Spells spelling name ↔ spelling = dashed name := by
  have htake : spelling.take (spelling.length % 4294967296) = spelling := by
    rw [Nat.mod_eq_of_lt hlen, List.take_length]
  constructor
  · intro h
    rw [← htake, h.narrowed]
  · rintro rfl
    refine ⟨?_, htake⟩
    intro h
    obtain ⟨c, hc, hcu⟩ := List.mem_map.mp h
    by_cases hcd : c = '_'.toUInt8
    · rw [if_pos hcd] at hcu
      exact absurd hcu (by decide)
    · rw [if_neg hcd] at hcu
      exact hcd hcu

/-- As many characters more as the narrowed length does not count. -/
theorem spells_append_replicate {name : Arg} (hname : name.length < 4294967296) {c : UInt8} (hc : c ≠ '_'.toUInt8)
    {n : Nat} (hn : n % 4294967296 = 0) : Spells (dashed name ++ List.replicate n c) name where
  no_underscore h := by
    rcases List.mem_append.mp h with h | h
    · exact ((spells_iff ((length_dashed name).symm ▸ hname)).mpr rfl).no_underscore h
    · exact hc (List.eq_of_mem_replicate h).symm
  narrowed := by
    have hlen : (dashed name ++ List.replicate n c).length % 4294967296 = (dashed name).length := by
      rw [List.length_append, List.length_replicate, length_dashed]
      omega
    rw [hlen, List.take_left]

/-- What is compared gives the name back. -/
theorem Spells.translated {spelling name : Arg} (h : Spells spelling name) (hname : WellNamed name) :
    string_translate_char (spelling.take (spelling.length % 4294967296)) '-'.toUInt8 '_'.toUInt8 = name := by
  rw [h.narrowed, dashed, string_translate_char_back hname.undashed]

/-- No option is taken for one of the special forms. -/
theorem Spells.not_special {spelling name : Arg} (h : Spells spelling name) (hname : WellNamed name) :
    spelling ≠ literal "verbose" ∧ spelling ≠ literal "debug" ∧ ¬ literal "debug-" <+: spelling := by
  have htranslated := h.translated hname
  refine ⟨?_, ?_, ?_⟩
  · rintro rfl
    exact hname.unlike_verbose htranslated.symm
  · rintro rfl
    exact hname.not_in_debug (htranslated ▸ by decide)
  · intro hdebug
    have hname_debug : string_translate_char (literal "debug-") '-'.toUInt8 '_'.toUInt8 = literal "debug_" := by
      decide
    -- of two prefixes of the spelling, one is a prefix of the other
    rcases List.prefix_or_prefix_of_prefix hdebug (List.take_prefix (spelling.length % 4294967296) spelling) with
      hle | hle
    · apply hname.not_debug
      rw [← htranslated, ← hname_debug]
      exact hle.map _
    · apply hname.not_in_debug
      rw [← htranslated, ← hname_debug]
      exact hle.map _

/-! ### Forms -/

theorem not_isForm_of_first {keys : List OptionInfo} {c : UInt8} {arg : Arg} (hat : c ≠ '@'.toUInt8)
    (hdash : c ≠ '-'.toUInt8) : ¬ IsForm keys (c :: arg) := by
  rintro ⟨item, -, hhead⟩
  cases item with
  | atName name => exact hat (List.cons.inj (Option.some.inj hhead)).1.symm
  | _ => exact hdash (List.cons.inj (Option.some.inj hhead)).1.symm

theorem not_isForm_of_underscore {keys : List OptionInfo} (arg : Arg) (h : '_'.toUInt8 ∈ arg) :
    ¬ IsForm keys ('-'.toUInt8 :: arg) := by
  rintro ⟨item, hvalid, hhead⟩
  cases item with
  | atName name => exact absurd (List.cons.inj (Option.some.inj hhead)).1 (by decide)
  | verbose =>
    obtain rfl := (List.cons.inj (Option.some.inj hhead)).2
    exact absurd h (by decide)
  | debug tags =>
    obtain rfl := (List.cons.inj (Option.some.inj hhead)).2
    exact absurd h (by decide)
  | debugTag tag =>
    obtain rfl := (List.cons.inj (Option.some.inj hhead)).2
    rcases List.mem_append.mp (show '_'.toUInt8 ∈ literal "debug-" ++ tag from h) with hdebug | htag
    · exact absurd hdebug (by decide)
    · exact hvalid htag
  | flag spelling name | param spelling name value | listed spelling name value =>
    obtain rfl := (List.cons.inj (Option.some.inj hhead)).2
    exact hvalid.1.no_underscore h

/-! ### Reading an argument -/

section Reading

variable {table : OptionTable}

theorem find?_of_mem {keys : List OptionInfo} (hnodup : (keys.map OptionInfo.name).Nodup) {oo : OptionInfo}
    (hoo : oo ∈ keys) : (keys.find? fun key => key.name == oo.name) = some oo := by
  cases hfind : keys.find? fun key => key.name == oo.name with
  | none =>
    have := List.find?_eq_none.mp hfind oo hoo
    simp at this
  | some found =>
    have hname : found.name = oo.name := by simpa using List.find?_some hfind
    rw [List.inj_on_of_nodup_map hnodup (List.mem_of_find?_eq_some hfind) hoo hname]

theorem readArg_option {spelling : Arg} {oo : OptionInfo} (h : Spells spelling oo.name) (hoo : oo ∈ table.keys) :
    readArg table.keys ('-'.toUInt8 :: spelling) = .option oo := by
  have hname := table.wellNamed oo hoo
  obtain ⟨hverbose, hdebug, htag⟩ := h.not_special hname
  rw [readArg, if_neg (by decide), if_neg (by simp), if_neg h.no_underscore, if_neg hverbose, if_neg hdebug,
    if_neg htag, (buffer_translate_char_eq_iff h.no_underscore hname).mpr h, find?_of_mem table.nodup hoo]

theorem readArg_debugTag {keys : List OptionInfo} {tag : Arg} (h : '_'.toUInt8 ∉ tag) :
    readArg keys (literal "-debug-" ++ tag) = .debugTag tag := by
  have hunderscore : '_'.toUInt8 ∉ literal "debug-" ++ tag := by
    rw [List.mem_append, not_or]
    exact ⟨by decide, h⟩
  have hprefix : literal "debug-" <+: literal "debug-" ++ tag := List.prefix_append _ _
  have hverbose : literal "debug-" ++ tag ≠ literal "verbose" := by
    intro heq
    exact absurd (heq ▸ hprefix) (by decide)
  have hdebug : literal "debug-" ++ tag ≠ literal "debug" := by
    intro heq
    exact absurd (heq ▸ hprefix) (by decide)
  change readArg keys ('-'.toUInt8 :: (literal "debug-" ++ tag)) = _
  rw [readArg, if_neg (by decide), if_neg (by simp), if_neg hunderscore, if_neg hverbose, if_neg hdebug,
    if_pos hprefix]
  rfl

/-- An argument that is no form stops the loop. -/
theorem readArg_stop {arg : Arg} (h : ¬ IsForm table.keys arg) : readArg table.keys arg = .stop := by
  cases arg with
  | nil => rfl
  | cons c arg =>
    rw [readArg]
    split_ifs with hat hdash hunderscore hverbose hdebug htag
    · exact absurd ⟨.atName arg, trivial, by rw [hat]; rfl⟩ h
    · rfl
    · rfl
    · exact absurd ⟨.verbose, trivial, by rw [not_not.mp hdash, hverbose]; rfl⟩ h
    · exact absurd ⟨.debug [], trivial, by rw [not_not.mp hdash, hdebug]; rfl⟩ h
    · obtain ⟨tag, rfl⟩ := htag
      have hvalid : '_'.toUInt8 ∉ tag := fun hmem => hunderscore (List.mem_append_right _ hmem)
      exact absurd ⟨.debugTag tag, hvalid, by rw [not_not.mp hdash]; rfl⟩ h
    · cases hfind : table.keys.find? fun oo =>
          oo.name == buffer_translate_char 64 arg '-'.toUInt8 '_'.toUInt8 with
      | none => rfl
      | some oo =>
        have hoo := List.mem_of_find?_eq_some hfind
        have hname : oo.name = buffer_translate_char 64 arg '-'.toUInt8 '_'.toUInt8 := by
          simpa using List.find?_some hfind
        have hspells := (buffer_translate_char_eq_iff hunderscore (table.wellNamed oo hoo)).mp hname.symm
        rw [not_not.mp hdash] at h
        exact absurd (isForm_option hspells hoo) h

/-- The parser recognizes an item by its first argument. -/
theorem readArg_item {item : Item} (hvalid : item.Valid table.keys) {arg : Arg} (harg : item.args.head? = some arg) :
    readArg table.keys arg = item.reading := by
  cases item with
  | atName name | verbose | debug tags =>
    obtain rfl := Option.some.inj harg
    rfl
  | debugTag tag =>
    obtain rfl := Option.some.inj harg
    exact readArg_debugTag hvalid
  | flag spelling name | param spelling name value | listed spelling name value =>
    obtain rfl := Option.some.inj harg
    exact readArg_option hvalid.1 hvalid.2

/-- No two items begin a command line. -/
theorem eq_of_args_append {item item' : Item} (hvalid : item.Valid table.keys) (hvalid' : item'.Valid table.keys)
    {rest rest' : List Arg} (h : item.args ++ rest = item'.args ++ rest') : item = item' ∧ rest = rest' := by
  have hread : item.reading = item'.reading := by
    obtain ⟨arg, tail, hargs⟩ := item.args_eq_cons
    obtain ⟨arg', tail', hargs'⟩ := item'.args_eq_cons
    rw [hargs, hargs'] at h
    obtain rfl := (List.cons.inj h).1
    rw [← readArg_item hvalid (by rw [hargs, List.head?_cons]), readArg_item hvalid' (by rw [hargs', List.head?_cons])]
  -- what they are taken for is the same, so they are of one kind
  cases item <;> cases item' <;> cases hread
  case atName.atName | verbose.verbose | debugTag.debugTag => exact ⟨rfl, (List.cons.inj h).2⟩
  case debug.debug =>
    obtain ⟨rfl, hrest⟩ := List.cons.inj (List.cons.inj h).2
    exact ⟨rfl, hrest⟩
  case flag.flag =>
    obtain ⟨hspelling, hrest⟩ := List.cons.inj h
    obtain rfl := (List.cons.inj hspelling).2
    exact ⟨rfl, hrest⟩
  case param.param | listed.listed =>
    obtain ⟨hspelling, hbehind⟩ := List.cons.inj h
    obtain rfl := (List.cons.inj hspelling).2
    obtain ⟨rfl, hrest⟩ := List.cons.inj hbehind
    exact ⟨rfl, hrest⟩

end Reading

end Goldfish.Cmdline

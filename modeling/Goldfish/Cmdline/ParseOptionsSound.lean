import Goldfish.Cmdline.CommandLine

/-!
# Goldfish.Cmdline.ParseOptionsSound

`android_parse_options` consumes a prefix of the command line: the items at its beginning
(`android_parse_options_items`), which are determined (`items_unique`). It fails behind a last `-debug`,
and ends the process behind an option without its parameter, and there is nothing else it can do
(`exists_items`). What it copies may overlap with where it goes (`copyArgs_append`), and the
lists are reversed once because the names in the table are different (`reverseLists_lists`).
-/

namespace Goldfish.Cmdline

open Goldfish.Lib

/-- The cells of a command line. -/
def argVector (argv0 : Arg) (args : List Arg) : ArgVector := (argv0 :: args).map some ++ [none]

/-! ### Cells -/

section Cells

variable {argv more : ArgVector} {i : Nat}

theorem drop_succ_of_drop {cell : Option Arg} (h : argv.drop i = cell :: more) : argv.drop (i + 1) = more := by
  rw [← List.tail_drop, h, List.tail_cons]

theorem cellAt_of_drop {cell : Option Arg} (h : argv.drop i = cell :: more) : cellAt argv i = .ok cell := by
  have hcell : argv[i]? = some cell := by
    rw [← List.head?_drop, h, List.head?_cons]
  rw [cellAt, hcell]

theorem argAt_of_drop {arg : Arg} (h : argv.drop i = some arg :: more) : argAt argv i = .ok arg := by
  rw [argAt, cellAt_of_drop h]

end Cells

/-! ### Items -/

section Loop

variable {table : OptionTable} {argv more : ArgVector}

/-- The loop takes one item. -/
theorem parseLoop_item {item : Item} (hvalid : item.Valid table.keys) {aread : Nat}
    (hat : argv.drop aread = item.args.map some ++ more) (nargs : Nat) (opt : AndroidOptions) :
    parseLoop table.keys argv (nargs + item.args.length) aread opt =
      parseLoop table.keys argv nargs (aread + item.args.length) (item.apply opt) := by
  have hread : ∀ arg, item.args.head? = some arg → readArg table.keys arg = item.reading := fun _ =>
    readArg_item hvalid
  cases item with
  | atName name | verbose | debugTag tag | flag spelling name =>
    simp only [Item.args, List.length_singleton, parseLoop.eq_def _ _ (nargs + 1), argAt_of_drop hat, hread _ rfl,
      Item.reading, Item.apply]
  | debug tags =>
    have htags : cellAt argv (aread + 1) = .ok (some tags) := cellAt_of_drop (drop_succ_of_drop hat)
    change parseLoop table.keys argv (nargs + 1 + 1) aread opt = _
    simp only [parseLoop.eq_def _ _ (nargs + 1 + 1), argAt_of_drop hat, hread _ rfl, Item.reading, htags]
    rfl
  | param spelling name value | listed spelling name value =>
    have hvalue : argAt argv (aread + 1) = .ok value := argAt_of_drop (drop_succ_of_drop hat)
    change parseLoop table.keys argv (nargs + 1 + 1) aread opt = _
    simp only [parseLoop.eq_def _ _ (nargs + 1 + 1), argAt_of_drop hat, hread _ rfl, Item.reading, hvalue]
    rfl

/-- The loop takes the items one after another. -/
theorem parseLoop_items {items : List Item} (hvalid : ∀ item ∈ items, item.Valid table.keys) {aread : Nat}
    (hat : argv.drop aread = (items.flatMap Item.args).map some ++ more) (nargs : Nat) (opt : AndroidOptions) :
    parseLoop table.keys argv (nargs + (items.flatMap Item.args).length) aread opt =
      parseLoop table.keys argv nargs (aread + (items.flatMap Item.args).length) (items.foldl Item.apply opt) := by
  induction items generalizing aread opt with
  | nil => rfl
  | cons item items ih =>
    rw [List.flatMap_cons, List.map_append, List.append_assoc] at hat
    have hat' : argv.drop (aread + item.args.length) = (items.flatMap Item.args).map some ++ more := by
      rw [← List.drop_drop, hat, List.drop_left' (by rw [List.length_map])]
    rw [List.flatMap_cons, List.length_append, Nat.add_comm item.args.length, ← Nat.add_assoc,
      parseLoop_item (hvalid item List.mem_cons_self) hat,
      ih (fun i hi => hvalid i (List.mem_cons_of_mem item hi)) hat', Nat.add_assoc,
      Nat.add_comm item.args.length, List.foldl_cons]

/-- It ends in front of what is no form. -/
theorem parseLoop_stop {rest : List Arg} (hstop : ∀ arg ∈ rest.head?, ¬ IsForm table.keys arg) {aread : Nat}
    (hat : argv.drop aread = rest.map some ++ more) (opt : AndroidOptions) :
    parseLoop table.keys argv rest.length aread opt = .ok (.left rest.length aread opt) := by
  cases rest with
  | nil => rfl
  | cons arg rest =>
    simp only [List.length_cons, parseLoop.eq_def _ _ (rest.length + 1), argAt_of_drop hat,
      readArg_stop (hstop arg rfl)]

/-- There must be something behind `-debug`. -/
theorem parseLoop_debug {aread : Nat} (hat : argv.drop aread = some (literal "-debug") :: more)
    (opt : AndroidOptions) : parseLoop table.keys argv 1 aread opt = .ok (.failed opt) := by
  have hread : readArg table.keys (literal "-debug") = .debug := rfl
  simp only [parseLoop.eq_def _ _ 1, argAt_of_drop hat, hread]

/-- The process ends when a parameter is missing. -/
theorem parseLoop_missing {spelling : Arg} {oo : OptionInfo} (h : Spells spelling oo.name) (hoo : oo ∈ table.keys)
    (hparam : oo.var_type ≠ .OPTION_IS_FLAG) {aread : Nat}
    (hat : argv.drop aread = some ('-'.toUInt8 :: spelling) :: more) (opt : AndroidOptions) :
    parseLoop table.keys argv 1 aread opt = .ok (.exited 1) := by
  simp only [parseLoop.eq_def _ _ 1, argAt_of_drop hat, readArg_option h hoo]

end Loop

/-! ### The rest of the cells -/

theorem cellAt_append {front back : ArgVector} {cell : Option Arg} :
    cellAt (front ++ cell :: back) front.length = .ok cell :=
  cellAt_of_drop (List.drop_left' rfl)

theorem writeAt_append (front back : ArgVector) (old cell : Option Arg) :
    writeAt (front ++ old :: back) front.length cell = .ok (front ++ cell :: back) := by
  have hlt : front.length < (front ++ old :: back).length := by
    rw [List.length_append, List.length_cons]
    omega
  rw [writeAt, if_pos hlt, List.set_append_right _ _ (le_refl _), Nat.sub_self, List.set_cons_zero]

/-- What is to be copied may overlap with where it goes. -/
theorem copyArgs_append (done skipped todo back : ArgVector) :
    copyArgs (done ++ (skipped ++ (todo ++ back))) todo.length (done.length + skipped.length) done.length =
      .ok (done ++ (todo ++ (skipped ++ (todo ++ back)).drop todo.length), done.length + todo.length) := by
  induction todo generalizing done skipped with
  | nil => rfl
  | cons cell todo ih =>
    have hread : cellAt (done ++ (skipped ++ (cell :: todo ++ back))) (done.length + skipped.length) = .ok cell := by
      rw [← List.append_assoc, ← List.length_append]
      exact cellAt_append
    rw [List.length_cons, copyArgs, hread]
    cases skipped with
    | nil =>
      have h := ih (done ++ [cell]) []
      simp only [List.nil_append, List.append_assoc, List.cons_append, List.length_append, List.length_singleton,
        List.length_nil, Nat.add_zero] at h ⊢
      change (writeAt (done ++ cell :: (todo ++ back)) done.length cell >>= _) = _
      rw [writeAt_append]
      change copyArgs _ _ _ _ = _
      rw [h, List.drop_succ_cons, Nat.add_assoc, Nat.add_comm 1]
    | cons old skipped =>
      have h := ih (done ++ [cell]) (skipped ++ [cell])
      simp only [List.append_assoc, List.cons_append, List.nil_append, List.length_append, List.length_cons,
        List.length_nil, Nat.zero_add] at h ⊢
      change (writeAt (done ++ old :: (skipped ++ cell :: (todo ++ back))) done.length cell >>= _) = _
      rw [writeAt_append]
      change copyArgs _ _ _ _ = _
      rw [Nat.add_right_comm, h, List.drop_succ_cons, Nat.add_assoc, Nat.add_comm 1]

/-- The rest goes behind `argv[0]`, with a `NULL` at its end. The cells behind it stay as they are. -/
theorem leave_eq (keys : List OptionInfo) (argv0 : Arg) (skipped rest : List Arg) (pargc : Nat)
    (opt : AndroidOptions) :
    leave keys (argVector argv0 (skipped ++ rest)) pargc rest.length (skipped.length + 1) opt =
      .ok (.returned 0 pargc
        (argVector argv0 rest ++ (argVector argv0 (skipped ++ rest)).drop (rest.length + 2))
        (reverseLists keys opt)) := by
  have hcells : argVector argv0 (skipped ++ rest) =
      [some argv0] ++ (skipped.map some ++ (rest.map some ++ [none])) := by
    simp [argVector]
  have hcopy := copyArgs_append [some argv0] (skipped.map some) (rest.map some) [none]
  rw [List.length_map, List.length_map, List.length_singleton, Nat.add_comm 1, Nat.add_comm 1, ← hcells] at hcopy
  obtain ⟨old, back, hback⟩ : ∃ old back,
      (skipped.map some ++ (rest.map some ++ [none])).drop rest.length = old :: back := by
    apply List.exists_cons_of_length_pos
    simp
    omega
  rw [hback, ← List.append_assoc] at hcopy
  have hwrite := writeAt_append ([some argv0] ++ rest.map some) back old none
  rw [List.length_append, List.length_singleton, List.length_map, Nat.add_comm 1] at hwrite
  have hdrop : (argVector argv0 (skipped ++ rest)).drop (rest.length + 2) = back := by
    rw [hcells, List.singleton_append, List.drop_succ_cons, ← List.tail_drop, hback, List.tail_cons]
  rw [leave, hcopy]
  change (writeAt _ _ _ >>= _) = _
  rw [hwrite, hdrop]
  simp only [argVector, List.map_cons, List.append_assoc, List.cons_append, List.nil_append]
  rfl

/-! ### The options -/

theorem reverseLoop_eq (prev cur : List Arg) : reverseLoop prev cur = cur.reverse ++ prev := by
  induction cur generalizing prev with
  | nil => rfl
  | cons param next ih => rw [reverseLoop, ih, List.reverse_cons, List.append_assoc, List.singleton_append]

section Reverse

variable {keys : List OptionInfo} (opt : AndroidOptions)

theorem reverseLists_cons {oo : OptionInfo} :
    reverseLists (oo :: keys) opt = reverseLists keys (reverseList opt oo) := rfl

theorem reverseList_frame (oo : OptionInfo) : (reverseList opt oo).flags = opt.flags ∧
    (reverseList opt oo).params = opt.params ∧ (reverseList opt oo).verbose = opt.verbose := by
  rw [reverseList]
  split <;> exact ⟨rfl, rfl, rfl⟩

theorem reverseLists_frame : (reverseLists keys opt).flags = opt.flags ∧
    (reverseLists keys opt).params = opt.params ∧ (reverseLists keys opt).verbose = opt.verbose := by
  induction keys generalizing opt with
  | nil => exact ⟨rfl, rfl, rfl⟩
  | cons oo keys ih =>
    obtain ⟨hflags, hparams, hverbose⟩ := ih (reverseList opt oo)
    obtain ⟨hflags', hparams', hverbose'⟩ := reverseList_frame opt oo
    rw [reverseLists_cons]
    exact ⟨hflags.trans hflags', hparams.trans hparams', hverbose.trans hverbose'⟩

theorem reverseList_lists_ne {oo : OptionInfo} {name : Arg} (h : name ≠ oo.name) :
    (reverseList opt oo).lists name = opt.lists name := by
  rw [reverseList]
  split
  · exact Function.update_of_ne h _ _
  · rfl

theorem reverseLists_lists_ne {name : Arg} (h : name ∉ keys.map OptionInfo.name) :
    (reverseLists keys opt).lists name = opt.lists name := by
  induction keys generalizing opt with
  | nil => rfl
  | cons oo keys ih =>
    rw [List.map_cons, List.mem_cons, not_or] at h
    rw [reverseLists_cons, ih _ h.2, reverseList_lists_ne _ h.1]

/-- Every list is reversed once. -/
theorem reverseLists_lists (hnodup : (keys.map OptionInfo.name).Nodup) {oo : OptionInfo} (hoo : oo ∈ keys)
    (hlist : oo.var_type = .OPTION_IS_LIST) :
    (reverseLists keys opt).lists oo.name = (opt.lists oo.name).reverse := by
  induction keys generalizing opt with
  | nil => exact absurd hoo List.not_mem_nil
  | cons key keys ih =>
    rw [List.map_cons, List.nodup_cons] at hnodup
    rw [reverseLists_cons]
    rcases List.mem_cons.mp hoo with rfl | hoo
    · rw [reverseLists_lists_ne _ hnodup.1, reverseList, if_pos hlist, AndroidOptions.setList_lists,
        Function.update_self, reverseLoop_eq, List.append_nil]
    · have hne : oo.name ≠ key.name := by
        intro heq
        exact hnodup.1 (heq ▸ List.mem_map_of_mem hoo)
      rw [ih _ hnodup.2 hoo, reverseList_lists_ne _ hne]

end Reverse

section Items

variable {items : List Item} {opt : AndroidOptions}

theorem flags_apply {item : Item} (name : Arg) : (item.apply opt).flags name = true ↔
    opt.flags name = true ∨ ∃ spelling, Item.flag spelling name = item := by
  cases item with
  | flag spelling key =>
    rw [Item.apply, AndroidOptions.setFlag_flags, Function.update_apply]
    by_cases h : name = key <;> simp [h]
  | _ => simp [Item.apply]

theorem flags_foldl (name : Arg) : (items.foldl Item.apply opt).flags name = true ↔
    opt.flags name = true ∨ ∃ spelling, Item.flag spelling name ∈ items := by
  induction items generalizing opt with
  | nil => simp
  | cons item items ih =>
    simp only [List.foldl_cons, ih, flags_apply, List.mem_cons, exists_or, or_assoc]

theorem verbose_foldl : (items.foldl Item.apply opt).verbose = true ↔ opt.verbose = true ∨ Item.verbose ∈ items := by
  induction items generalizing opt with
  | nil => simp
  | cons item items ih =>
    rw [List.foldl_cons, ih, List.mem_cons, ← or_assoc]
    refine or_congr_left ?_
    cases item <;> simp [Item.apply]

/-- The last one counts. -/
theorem params_foldl (name : Arg) : (items.foldl Item.apply opt).params name =
    ((items.filterMap (Item.value name)).getLast?).or (opt.params name) := by
  have happly : ∀ (item : Item) (opt : AndroidOptions),
      (item.apply opt).params name = (item.value name).or (opt.params name) := by
    intro item opt
    cases item with
    | atName avd =>
      rw [Item.apply, AndroidOptions.setParam_params, Function.update_apply, Item.value]
      by_cases h : name = literal "avd" <;> simp [h, eq_comm]
    | param spelling key value =>
      rw [Item.apply, AndroidOptions.setParam_params, Function.update_apply, Item.value]
      by_cases h : name = key <;> simp [h, eq_comm]
    | _ => rfl
  induction items generalizing opt with
  | nil => rfl
  | cons item items ih =>
    rw [List.foldl_cons, ih, happly, List.filterMap_cons]
    cases item.value name with
    | none => rfl
    | some value =>
      rw [List.getLast?_cons]
      cases (items.filterMap (Item.value name)).getLast? <;> rfl

/-- A list is built from the back. -/
theorem lists_foldl (name : Arg) : (items.foldl Item.apply opt).lists name =
    (items.filterMap (Item.element name)).reverse ++ opt.lists name := by
  have happly : ∀ (item : Item) (opt : AndroidOptions),
      (item.apply opt).lists name = (item.element name).toList ++ opt.lists name := by
    intro item opt
    cases item with
    | listed spelling key value =>
      rw [Item.apply, AndroidOptions.setList_lists, Function.update_apply, Item.element]
      by_cases h : name = key <;> simp [h, eq_comm]
    | _ => rfl
  induction items generalizing opt with
  | nil => rfl
  | cons item items ih =>
    rw [List.foldl_cons, ih, happly, List.filterMap_cons]
    cases item.element name with
    | none => rfl
    | some value => simp

end Items

/-- What the options are in the end. -/
theorem optionsOf_reverseLists (table : OptionTable) (items : List Item) :
    OptionsOf table.keys items (reverseLists table.keys (items.foldl Item.apply .zero)) where
  flags name := by
    rw [(reverseLists_frame _).1, flags_foldl]
    exact or_iff_right Bool.false_ne_true
  verbose := by
    rw [(reverseLists_frame _).2.2, verbose_foldl]
    exact or_iff_right Bool.false_ne_true
  params name := by
    rw [(reverseLists_frame _).2.1, params_foldl]
    exact Option.or_none
  lists oo hoo hlist := by
    rw [reverseLists_lists _ table.nodup hoo hlist, lists_foldl, List.reverse_append, List.reverse_reverse]
    exact List.nil_append _

/-! ### Command lines -/

/-- What is behind the items. -/
inductive Ending (keys : List OptionInfo) : List Arg → Prop
  | stop {rest : List Arg} (h : ∀ arg ∈ rest.head?, ¬ IsForm keys arg) : Ending keys rest
  | debug : Ending keys [literal "-debug"]
  | missing {spelling : Arg} {oo : OptionInfo} (h : Spells spelling oo.name) (hoo : oo ∈ keys)
      (hparam : oo.var_type ≠ .OPTION_IS_FLAG) : Ending keys ['-'.toUInt8 :: spelling]

/-- Items, and an ending. -/
def Splits (keys : List OptionInfo) (args : List Arg) : Prop :=
  ∃ (items : List Item) (rest : List Arg), args = items.flatMap Item.args ++ rest ∧
    (∀ item ∈ items, item.Valid keys) ∧ Ending keys rest

theorem Splits.cons {keys : List OptionInfo} {item : Item} {args : List Arg} (hitem : item.Valid keys)
    (h : Splits keys args) : Splits keys (item.args ++ args) := by
  obtain ⟨items, rest, rfl, hvalid, hending⟩ := h
  refine ⟨item :: items, rest, ?_, List.forall_mem_cons.mpr ⟨hitem, hvalid⟩, hending⟩
  rw [List.flatMap_cons, List.append_assoc]

/-- Every command line begins with items. -/
theorem exists_items (keys : List OptionInfo) (args : List Arg) : Splits keys args := by
  induction hlen : args.length using Nat.strong_induction_on generalizing args with
  | _ n ih =>
    have ending : ∀ {rest : List Arg}, Ending keys rest → Splits keys rest := fun h =>
      ⟨[], _, rfl, fun _ hi => absurd hi List.not_mem_nil, h⟩
    have shorter : ∀ rest : List Arg, rest.length < n → Splits keys rest := fun rest hlt => ih _ hlt rest rfl
    cases args with
    | nil => exact ending (.stop (by simp))
    | cons arg args =>
      rw [List.length_cons] at hlen
      have single : ∀ item : Item, item.Valid keys → item.args = [arg] → Splits keys (arg :: args) := by
        intro item hvalid hargs
        rw [← List.singleton_append, ← hargs]
        exact .cons hvalid (shorter args (by omega))
      have double : ∀ item : Arg → Item, (∀ param, (item param).Valid keys) →
          (∀ param, (item param).args = [arg, param]) → Ending keys [arg] → Splits keys (arg :: args) := by
        intro item hvalid hargs hending
        cases args with
        | nil => exact ending hending
        | cons param args =>
          have h := Splits.cons (hvalid param) (shorter args (by rw [List.length_cons] at hlen; omega))
          rwa [hargs] at h
      by_cases hform : IsForm keys arg
      case neg => exact ending (.stop (by simpa using hform))
      obtain ⟨item, hvalid, hhead⟩ := hform
      cases item with
      | atName name =>
        obtain rfl := Option.some.inj hhead
        exact single (.atName name) hvalid rfl
      | verbose =>
        obtain rfl := Option.some.inj hhead
        exact single .verbose hvalid rfl
      | debugTag tag =>
        obtain rfl := Option.some.inj hhead
        exact single (.debugTag tag) hvalid rfl
      | flag spelling name =>
        obtain rfl := Option.some.inj hhead
        exact single (.flag spelling name) hvalid rfl
      | debug tags =>
        obtain rfl := Option.some.inj hhead
        exact double .debug (fun _ => trivial) (fun _ => rfl) .debug
      | param spelling name value =>
        obtain rfl := Option.some.inj hhead
        exact double (.param spelling name) (fun _ => hvalid) (fun _ => rfl) (.missing hvalid.1 hvalid.2 (by simp))
      | listed spelling name value =>
        obtain rfl := Option.some.inj hhead
        exact double (.listed spelling name) (fun _ => hvalid) (fun _ => rfl) (.missing hvalid.1 hvalid.2 (by simp))

/-- A command line splits in one way. -/
theorem items_unique {table : OptionTable} {items items' : List Item} {rest rest' : List Arg}
    (hvalid : ∀ item ∈ items, item.Valid table.keys) (hvalid' : ∀ item ∈ items', item.Valid table.keys)
    (hstop : ∀ arg ∈ rest.head?, ¬ IsForm table.keys arg) (hstop' : ∀ arg ∈ rest'.head?, ¬ IsForm table.keys arg)
    (h : items.flatMap Item.args ++ rest = items'.flatMap Item.args ++ rest') : items = items' ∧ rest = rest' := by
  -- what begins with an item does not stop the parser
  have stuck : ∀ {item : Item} {more rest : List Arg}, item.Valid table.keys →
      (∀ arg ∈ rest.head?, ¬ IsForm table.keys arg) → rest ≠ item.args ++ more := by
    intro item more rest hitem hstop heq
    obtain ⟨arg, params, hargs⟩ := item.args_eq_cons
    have hhead : item.args.head? = some arg := by rw [hargs, List.head?_cons]
    exact hstop arg (by rw [heq, hargs]; rfl) ⟨item, hitem, hhead⟩
  induction items generalizing items' with
  | nil =>
    cases items' with
    | nil => exact ⟨rfl, h⟩
    | cons item' items' =>
      rw [List.flatMap_cons, List.append_assoc] at h
      exact absurd h (stuck (hvalid' item' List.mem_cons_self) hstop)
  | cons item items ih =>
    rw [List.flatMap_cons, List.append_assoc] at h
    obtain ⟨hitem, hitems⟩ := List.forall_mem_cons.mp hvalid
    cases items' with
    | nil => exact absurd h.symm (stuck hitem hstop')
    | cons item' items' =>
      obtain ⟨hitem', hitems'⟩ := List.forall_mem_cons.mp hvalid'
      rw [List.flatMap_cons, List.append_assoc] at h
      obtain ⟨rfl, htail⟩ := eq_of_args_append hitem hitem' h
      obtain ⟨rfl, hrest⟩ := ih hitems hitems' htail
      exact ⟨rfl, hrest⟩

/-! ### The parser -/

section Parser

variable (table : OptionTable) (argv0 : Arg) {items : List Item} {rest : List Arg}

theorem drop_argVector (args : List Arg) : (argVector argv0 (args ++ rest)).drop (1 + args.length) =
    rest.map some ++ [none] := by
  rw [argVector, List.map_cons, List.cons_append, Nat.add_comm 1, List.drop_succ_cons, List.map_append,
    List.append_assoc, List.drop_left' (List.length_map _)]

/-- The loop comes to what is behind the items. -/
theorem parseLoop_argVector (hvalid : ∀ item ∈ items, item.Valid table.keys) :
    parseLoop table.keys (argVector argv0 (items.flatMap Item.args ++ rest)) (items.flatMap Item.args ++ rest).length 1
        .zero =
      parseLoop table.keys (argVector argv0 (items.flatMap Item.args ++ rest)) rest.length
        (1 + (items.flatMap Item.args).length) (items.foldl Item.apply .zero) := by
  have hat : (argVector argv0 (items.flatMap Item.args ++ rest)).drop 1 =
      (items.flatMap Item.args).map some ++ (rest.map some ++ [none]) := by
    rw [← List.append_assoc, ← List.map_append]
    rfl
  rw [List.length_append, Nat.add_comm]
  exact parseLoop_items hvalid hat rest.length .zero

theorem android_parse_options_items (hvalid : ∀ item ∈ items, item.Valid table.keys)
    (hstop : ∀ arg ∈ rest.head?, ¬ IsForm table.keys arg) :
    android_parse_options table.keys ((items.flatMap Item.args ++ rest).length + 1)
        (argVector argv0 (items.flatMap Item.args ++ rest)) =
      .ok (.returned 0 (rest.length + 1)
        (argVector argv0 rest ++ (argVector argv0 (items.flatMap Item.args ++ rest)).drop (rest.length + 2))
        (reverseLists table.keys (items.foldl Item.apply .zero))) := by
  rw [android_parse_options, parseLoop_argVector table argv0 hvalid, parseLoop_stop hstop (drop_argVector argv0 _)]
  change leave _ _ _ _ _ _ = _
  rw [Nat.add_comm 1, leave_eq]

theorem android_parse_options_debug (hvalid : ∀ item ∈ items, item.Valid table.keys) :
    ∃ pargc argv opt, android_parse_options table.keys ((items.flatMap Item.args ++ [literal "-debug"]).length + 1)
        (argVector argv0 (items.flatMap Item.args ++ [literal "-debug"])) = .ok (.returned (-1) pargc argv opt) := by
  rw [android_parse_options, parseLoop_argVector table argv0 hvalid, List.length_singleton,
    parseLoop_debug (drop_argVector argv0 _)]
  exact ⟨_, _, _, rfl⟩

theorem android_parse_options_missing (hvalid : ∀ item ∈ items, item.Valid table.keys) {spelling : Arg}
    {oo : OptionInfo} (h : Spells spelling oo.name) (hoo : oo ∈ table.keys) (hparam : oo.var_type ≠ .OPTION_IS_FLAG) :
    android_parse_options table.keys ((items.flatMap Item.args ++ ['-'.toUInt8 :: spelling]).length + 1)
        (argVector argv0 (items.flatMap Item.args ++ ['-'.toUInt8 :: spelling])) = .ok (.exited 1) := by
  rw [android_parse_options, parseLoop_argVector table argv0 hvalid, List.length_singleton,
    parseLoop_missing h hoo hparam (drop_argVector argv0 _)]

/-- No cell outside the vector is touched, whatever the command line is. -/
theorem android_parse_options_total (table : OptionTable) (argv0 : Arg) (args : List Arg) :
    ∃ outcome, android_parse_options table.keys (args.length + 1) (argVector argv0 args) = .ok outcome := by
  obtain ⟨items, rest, rfl, hvalid, hending⟩ := exists_items table.keys args
  cases hending with
  | stop hstop => exact ⟨_, android_parse_options_items table argv0 hvalid hstop⟩
  | debug =>
    obtain ⟨_, _, _, h⟩ := android_parse_options_debug table argv0 hvalid
    exact ⟨_, h⟩
  | missing h hoo hparam => exact ⟨_, android_parse_options_missing table argv0 hvalid h hoo hparam⟩

end Parser

/-- **When the parser returns 0, it has consumed the items at the beginning, and the options are theirs.** -/
theorem options_parsed (b : Build) (argv0 : Arg) (args : List Arg) (pargc : Nat) (argv : ArgVector)
    (opt : AndroidOptions)
    (h : android_parse_options (option_keys b) (args.length + 1) (argVector argv0 args) =
      .ok (.returned 0 pargc argv opt)) :
    ∃ (items : List Item) (rest : List Arg), args = items.flatMap Item.args ++ rest ∧
      (∀ item ∈ items, item.Valid (option_keys b)) ∧ (∀ arg ∈ rest.head?, ¬ IsForm (option_keys b) arg) ∧
      pargc = rest.length + 1 ∧ argVector argv0 rest <+: argv ∧ OptionsOf (option_keys b) items opt := by
  obtain ⟨items, rest, rfl, hvalid, hending⟩ := exists_items (option_keys b) args
  cases hending with
  | stop hstop =>
    change android_parse_options (optionTable b).keys _ _ = _ at h
    rw [android_parse_options_items (optionTable b) argv0 hvalid hstop] at h
    injection h with h
    injection h with _ hpargc hargv hopt
    refine ⟨items, rest, rfl, hvalid, hstop, hpargc.symm, ?_, ?_⟩
    · exact hargv ▸ List.prefix_append _ _
    · exact hopt ▸ optionsOf_reverseLists (optionTable b) items
  | debug =>
    obtain ⟨_, _, _, hdebug⟩ := android_parse_options_debug (optionTable b) argv0 hvalid
    cases hdebug.symm.trans h
  | missing hspells hoo hparam =>
    cases (android_parse_options_missing (optionTable b) argv0 hvalid hspells hoo hparam).symm.trans h

/-- The emulator for Linux. -/
def linuxBuild : Build := ⟨true, false, false, false⟩

/-- A command line with an argument that is no option. -/
def phone : List Arg :=
  [literal "@old", literal "-no-snapshot", literal "-prop", literal "a=1", literal "-verbose", literal "-avd",
    literal "phone", literal "-prop", literal "b=2", literal "boot.img"]

theorem options_parsed_phone : ∃ pargc argv opt,
    android_parse_options (option_keys linuxBuild) (phone.length + 1) (argVector (literal "emulator") phone) =
      .ok (.returned 0 pargc argv opt) ∧
    ∃ (items : List Item) (rest : List Arg), phone = items.flatMap Item.args ++ rest ∧
      (∀ item ∈ items, item.Valid (option_keys linuxBuild)) ∧
      (∀ arg ∈ rest.head?, ¬ IsForm (option_keys linuxBuild) arg) ∧
      pargc = rest.length + 1 ∧ argVector (literal "emulator") rest <+: argv ∧
      OptionsOf (option_keys linuxBuild) items opt := by
  have hsnapshot : OPT_FLAG "no_snapshot" ∈ option_keys linuxBuild := List.mem_of_getElem? (i := 26) rfl
  have havd : CFG_PARAM "avd" ∈ option_keys linuxBuild := List.mem_of_getElem? (i := 34) rfl
  have hprop : OPT_LIST "prop" ∈ option_keys linuxBuild := List.mem_of_getElem? (i := 107) rfl
  have spells : ∀ {spelling name : Arg}, spelling.length < 4294967296 → spelling = dashed name →
      Spells spelling name := fun hlen h => (spells_iff hlen).mpr h
  have hvalid : ∀ item ∈ [Item.atName (literal "old"), .flag (literal "no-snapshot") (literal "no_snapshot"),
      .listed (literal "prop") (literal "prop") (literal "a=1"), .verbose,
      .param (literal "avd") (literal "avd") (literal "phone"),
      .listed (literal "prop") (literal "prop") (literal "b=2")], item.Valid (optionTable linuxBuild).keys := by
    simp only [List.forall_mem_cons]
    exact ⟨trivial, ⟨spells (by decide) (by decide), hsnapshot⟩, ⟨spells (by decide) (by decide), hprop⟩, trivial,
      ⟨spells (by decide) (by decide), havd⟩, ⟨spells (by decide) (by decide), hprop⟩,
      fun _ h => absurd h List.not_mem_nil⟩
  have hstop : ∀ arg ∈ [literal "boot.img"].head?, ¬ IsForm (optionTable linuxBuild).keys arg := by
    intro arg harg
    obtain rfl := Option.some.inj harg
    exact not_isForm_of_first (by decide) (by decide)
  have h := android_parse_options_items (optionTable linuxBuild) (literal "emulator") hvalid hstop
  exact ⟨_, _, _, h, options_parsed linuxBuild (literal "emulator") phone _ _ _ h⟩

/-- An argument whose length does not fit in 32 bits. -/
def longAvd : Arg := dashed (literal "avd") ++ List.replicate 4294967296 'x'.toUInt8

theorem spells_longAvd : Spells longAvd (literal "avd") := by
  rw [longAvd]
  exact spells_append_replicate (by decide) (by decide) (Nat.mod_self _)

/-- A tag with an underscore is not consumed, and `-avdxxx…` is when it is long enough. -/
theorem underscore_and_long_option :
    (∃ argv opt, android_parse_options (option_keys linuxBuild) 2
        (argVector (literal "emulator") [literal "-debug-a_b"]) = .ok (.returned 0 2 argv opt) ∧
      argVector (literal "emulator") [literal "-debug-a_b"] <+: argv) ∧
    ∃ argv opt, android_parse_options (option_keys linuxBuild) 3
        (argVector (literal "emulator") ['-'.toUInt8 :: longAvd, literal "phone"]) = .ok (.returned 0 1 argv opt) ∧
      opt.params (literal "avd") = some (literal "phone") ∧
      ∀ oo ∈ option_keys linuxBuild, longAvd ≠ dashed oo.name := by
  constructor
  · have hstop : ∀ arg ∈ [literal "-debug-a_b"].head?, ¬ IsForm (optionTable linuxBuild).keys arg := by
      intro arg harg
      obtain rfl := Option.some.inj harg
      exact not_isForm_of_underscore (literal "debug-a_b") (by decide)
    exact ⟨_, _, android_parse_options_items (optionTable linuxBuild) (literal "emulator")
      (fun _ h => absurd h List.not_mem_nil) hstop, List.prefix_append _ _⟩
  · have havd : CFG_PARAM "avd" ∈ option_keys linuxBuild := List.mem_of_getElem? (i := 34) rfl
    have hvalid : ∀ item ∈ [Item.param longAvd (literal "avd") (literal "phone")],
        item.Valid (optionTable linuxBuild).keys := by
      intro item hitem
      obtain rfl := List.mem_singleton.mp hitem
      exact ⟨spells_longAvd, havd⟩
    have hstop : ∀ arg ∈ ([] : List Arg).head?, ¬ IsForm (optionTable linuxBuild).keys arg := by simp
    have h := android_parse_options_items (optionTable linuxBuild) (literal "emulator") hvalid hstop
    rw [List.flatMap_singleton, List.append_nil] at h
    refine ⟨_, _, h, ?_, ?_⟩
    · exact (optionsOf_reverseLists (optionTable linuxBuild) _).params (literal "avd")
    · intro oo hoo heq
      have hshort := ((optionTable linuxBuild).wellNamed oo hoo).short
      have hlen := congrArg List.length heq
      rw [longAvd, List.length_append, List.length_replicate, length_dashed, length_dashed] at hlen
      omega

end Goldfish.Cmdline

import Goldfish.Files.EnvSubst
import Goldfish.Files.RoundTrip

/-!
# Goldfish.Files.Advertisement

Emulators that find each other by the files they write (`emulator_advertisement.cpp`),
and **which properties survive it**. The file is written without the escapes that
`getString` undoes and without anything that would keep the spaces around a value.

What `scanDirEntries` finds and who is alive are parts of the advertisement. The
properties are the entries of the map in the order the map has them. A query may have
any keys: `hasKey` looks a key up as a C string, so a key with a NUL in it can be found
where it is not.
-/

namespace Goldfish.Files

open Goldfish.Lib

/-- An `unordered_map` of texts. -/
structure EmulatorProperties where
  elems : List (Text × Text)
  nodup : (elems.map Prod.fst).Nodup

namespace EmulatorProperties

/-- The keys, in the order of the map. -/
def keys (props : EmulatorProperties) : List Text := props.elems.map Prod.fst

/-- A sub-map: each key has the same value there. -/
def SubMap (query props : EmulatorProperties) : Prop := ∀ e ∈ query.elems, e ∈ props.elems

instance (query props : EmulatorProperties) : Decidable (query.SubMap props) :=
  inferInstanceAs (Decidable (∀ e ∈ query.elems, e ∈ props.elems))

/-- The line of a property, without its end. -/
def line (e : Text × Text) : Text := e.1 ++ '='.toUInt8 :: e.2

/-- What `write` puts into the file. -/
def print (props : EmulatorProperties) : Text := unlines newline (props.elems.map line)

end EmulatorProperties

/-- An `EmulatorAdvertisement`, with what it finds on the disk. -/
structure EmulatorAdvertisement where
  /-- `location()` -/
  location : Text
  /-- What `scanDirEntries` finds in `mSharedDirectory`. -/
  entries : List Text
  /-- `mLivenessChecker->isAlive` -/
  isAlive : Text → Text → Bool

namespace EmulatorAdvertisement

/-- `write` of an emulator at this location. -/
def write (location : Text) (mStudioConfig : EmulatorProperties) (dir : Directory) : Directory :=
  Function.update dir location (some mStudioConfig.print)

/-- `discoverRunningEmulators`: the others that are alive. -/
def discoverRunningEmulators (ad : EmulatorAdvertisement) : List Text :=
  ad.entries.filter fun entry => entry ≠ ad.location && ad.isAlive ad.location entry

/-- The inner loop of `discoverEmulatorWithProperties`. -/
def matchAll (env : Text → Text) (ini : IniFile) (props : EmulatorProperties) : Bool :=
  props.elems.foldl (fun found e => found && ini.hasKey e.1 && ini.getString env e.1 [] = e.2) true

/-- The loop of `discoverEmulatorWithProperties`. -/
def firstMatch (env : Text → Text) (dir : Directory) (props : EmulatorProperties) : List Text → Text
  | [] => []
  | discoveryFile :: files =>
    let (opened, ini) := (IniFile.new discoveryFile).read true dir
    if !opened then firstMatch env dir props files
    else if matchAll env ini props then discoveryFile
    else firstMatch env dir props files

/-- `discoverEmulatorWithProperties`. Nothing found is the empty text. -/
def discoverEmulatorWithProperties (ad : EmulatorAdvertisement) (env : Text → Text) (dir : Directory)
    (props : EmulatorProperties) : Text :=
  firstMatch env dir props ad.discoverRunningEmulators

end EmulatorAdvertisement

/-! ### What the file is read as -/

/-- A value without the spaces around it. -/
def trimmed (value : Text) : Text := (value.dropWhile isSpaceChar).rdropWhile isSpaceChar

theorem trimmed_eq_of_length {value : Text} (h : value.length ≤ (trimmed value).length) :
    trimmed value = value := by
  have hdrop := (List.dropWhile_suffix (l := value) isSpaceChar)
  have hrdrop := List.rdropWhile_prefix isSpaceChar (value.dropWhile isSpaceChar)
  have heq := hdrop.eq_of_length_le (h.trans hrdrop.length_le)
  rw [trimmed, heq] at h ⊢
  exact (List.rdropWhile_prefix isSpaceChar value).eq_of_length_le h

/-- The line of a property, as `write` writes it. -/
theorem parseLine_line {key value : Text} (hkey : ValidKey key) (hvalue : ∀ c ∈ value, isValueChar c = true) :
    parseLine (EmulatorProperties.line (key, value)) = .entry key (trimmed value) := by
  cases key with
  | nil => exact hkey.elim
  | cons c cs =>
    obtain ⟨hc, hcs⟩ := hkey
    have hrest : Starts isKeyChar ('='.toUInt8 :: value) := by
      rw [starts_cons]
      decide
    have hequal : ('='.toUInt8 :: value).dropWhile isSpaceChar = '='.toUInt8 :: value :=
      List.dropWhile_cons_of_neg (by decide)
    rw [EmulatorProperties.line, List.cons_append, parseLine,
      List.dropWhile_cons_of_neg (by simp [isKeyStartChar_not_space hc])]
    dsimp only
    rw [if_neg (isKeyStartChar_not_mark hc), hc, takeWhile_append_starts hcs hrest,
      dropWhile_append_starts hcs hrest, hequal]
    have hchars : ∀ d ∈ value.dropWhile isSpaceChar, isValueChar d = true :=
      fun d hd => hvalue d ((List.dropWhile_suffix _).subset hd)
    simp [parseValue, List.takeWhile_eq_self_iff.mpr hchars, List.dropWhile_eq_nil_iff.mpr hchars, trimmed]

theorem newline_not_mem_line {key value : Text} (hkey : ValidKey key)
    (hvalue : ∀ c ∈ value, isValueChar c = true) : newline ∉ EmulatorProperties.line (key, value) := by
  intro hmem
  rcases List.mem_append.mp hmem with hmem | hmem
  · exact absurd (hkey.isKeyChar _ hmem) (by decide)
  · rcases List.mem_cons.mp hmem with heq | hmem
    · exact absurd heq (by decide)
    · exact absurd (hvalue _ hmem) (by decide)

/-- Properties an emulator may advertise: keys of the right form, values without line ends and NUL. -/
structure EmulatorProperties.Advertisable (props : EmulatorProperties) : Prop where
  keys : ∀ e ∈ props.elems, ProperKey e.1
  values : ∀ e ∈ props.elems, ∀ c ∈ e.2, c ≠ '\r'.toUInt8 ∧ c ≠ '\n'.toUInt8 ∧ c ≠ 0
  size : props.print.length ≤ kMaxIniFileSize

theorem isValueChar_of_ne {c : UInt8} (h : c ≠ '\r'.toUInt8 ∧ c ≠ '\n'.toUInt8 ∧ c ≠ 0) : isValueChar c = true := by
  simp [isValueChar, h.1, h.2.1]

theorem trimmed_eq_iff {value : Text} (hchars : ∀ c ∈ value, c ≠ '\r'.toUInt8 ∧ c ≠ '\n'.toUInt8 ∧ c ≠ 0) :
    trimmed value = value ↔ ProperValue value := by
  have hnotSpace : ∀ c, isSpaceChar c = false → c ≠ ' '.toUInt8 ∧ c ≠ '\t'.toUInt8 := by
    intro c hc
    constructor <;> rintro rfl <;> simp [isSpaceChar] at hc
  constructor
  · intro h
    have hdrop : value.dropWhile isSpaceChar = value := by
      have hlength : value.length ≤ (value.dropWhile isSpaceChar).length :=
        (congrArg List.length h).ge.trans (List.rdropWhile_prefix isSpaceChar _).length_le
      exact (List.dropWhile_suffix isSpaceChar).eq_of_length_le hlength
    refine ⟨hchars, fun c hc => hnotSpace c ?_, fun c hc => hnotSpace c ?_⟩
    · exact starts_dropWhile isSpaceChar value c (hdrop.symm ▸ hc)
    · rw [trimmed, hdrop, List.rdropWhile_eq_self_iff] at h
      have hne : value ≠ [] := by
        rintro rfl
        simp at hc
      rw [List.getLast?_eq_some_getLast hne, Option.some.injEq] at hc
      simpa [hc] using h hne
  · intro h
    have hstored := h.stored
    rw [trimmed, hstored.head.dropWhile_eq, hstored.last]

/-- What `read` makes of the file of some properties. -/
structure Reading (props : EmulatorProperties) (ini : IniFile) : Prop where
  found : ∀ e ∈ props.elems, ini.mData e.1 = some (trimmed e.2)
  missing : ∀ key ∉ props.keys, ini.mData key = none

theorem EmulatorProperties.Advertisable.reading {props : EmulatorProperties} (h : props.Advertisable)
    {file : Text} (hfile : file ≠ []) (dir : Directory) :
    ∃ ini, (IniFile.new file).read true (EmulatorAdvertisement.write file props dir) = (true, ini) ∧
      Reading props ini := by
  have hvalue : ∀ e ∈ props.elems, ∀ c ∈ e.2, isValueChar c = true := fun e he c hc =>
    isValueChar_of_ne (h.values e he c hc)
  have hlines : lines newline props.print = props.elems.map EmulatorProperties.line := by
    refine lines_unlines fun l hl => ?_
    obtain ⟨e, he, rfl⟩ := List.mem_map.mp hl
    exact newline_not_mem_line (h.keys e he).valid (hvalue e he)
  have hentries : entries (lines newline props.print) = props.elems.map fun e => (e.1, trimmed e.2) := by
    rw [hlines, entries, List.filterMap_map]
    rw [← List.filterMap_eq_map]
    refine List.filterMap_congr fun e he => ?_
    show lineEntry (EmulatorProperties.line (e.1, e.2)) = some (e.1, trimmed e.2)
    rw [lineEntry, parseLine_line (h.keys e he).valid (hvalue e he)]
  have hkeys : (props.elems.map fun e => (e.1, trimmed e.2)).map Prod.fst = props.elems.map Prod.fst := by
    simp [Function.comp_def]
  refine ⟨_, read_of_contents hfile ?_ h.size true, ?_, ?_⟩
  · simp [EmulatorAdvertisement.write, IniFile.new]
  · intro e he
    rw [IniFile.parseStream, parseLines_eq, hentries]
    exact emplaceAll_mem _ (hkeys ▸ props.nodup) (e := (e.1, trimmed e.2)) (List.mem_map_of_mem he)
  · intro key hkey
    rw [IniFile.parseStream, parseLines_eq, hentries]
    exact emplaceAll_not_mem _ (hkeys ▸ hkey)

/-! ### Queries -/

namespace EmulatorAdvertisement

theorem matchAll_iff {env : Text → Text} {ini : IniFile} {query : EmulatorProperties} :
    matchAll env ini query = true ↔
      ∀ e ∈ query.elems, ini.hasKey e.1 = true ∧ ini.getString env e.1 [] = e.2 := by
  have hfold : ∀ (es : List (Text × Text)) (found : Bool),
      es.foldl (fun found e => found && ini.hasKey e.1 && ini.getString env e.1 [] = e.2) found = true ↔
        found = true ∧ ∀ e ∈ es, ini.hasKey e.1 = true ∧ ini.getString env e.1 [] = e.2 := by
    intro es
    induction es with
    | nil => simp
    | cons e es ih =>
      intro found
      rw [List.foldl_cons, ih]
      simp [and_assoc]
  rw [matchAll, hfold]
  simp

/-- What a query finds in the file of the only other emulator. -/
theorem discover_eq {ad : EmulatorAdvertisement} {file : Text} {props : EmulatorProperties}
    (hlive : ad.discoverRunningEmulators = [file]) (hfile : file ≠ []) (hprops : props.Advertisable)
    (env : Text → Text) (dir : Directory) (query : EmulatorProperties) :
    ∃ ini, Reading props ini ∧ ad.discoverEmulatorWithProperties env (write file props dir) query =
      if matchAll env ini query then file else [] := by
  obtain ⟨ini, hread, hreading⟩ := hprops.reading hfile dir
  refine ⟨ini, hreading, ?_⟩
  rw [discoverEmulatorWithProperties, hlive, firstMatch, hread]
  simp [firstMatch]

end EmulatorAdvertisement

namespace Reading

variable {props : EmulatorProperties} {ini : IniFile} (h : Reading props ini)

include h

theorem hasKey_iff {key : Text} : ini.hasKey key = true ↔ cString key ∈ props.keys := by
  rw [IniFile.hasKey]
  constructor
  · intro hsome
    by_contra hmissing
    rw [h.missing _ hmissing] at hsome
    cases hsome
  · intro hmem
    obtain ⟨e, he, heq⟩ := List.mem_map.mp hmem
    rw [← heq, h.found e he]
    rfl

theorem getString_found {e : Text × Text} (he : e ∈ props.elems) (env : Text → Text) :
    ini.getString env e.1 [] = envSubst env (trimmed e.2) := by
  rw [IniFile.getString, h.found e he, Option.getD_some]

theorem getString_missing {key : Text} (hkey : key ∉ props.keys) (env : Text → Text) :
    ini.getString env key [] = [] := by
  rw [IniFile.getString, h.missing key hkey]
  rfl

end Reading

theorem cString_eq_self {key : Text} (h : ∀ c ∈ key, isKeyChar c = true) : cString key = key :=
  cString_of_not_mem fun hnul => absurd (h 0 hnul) (by decide)

/-- **Advertisements.** Queries with keys of some set find the file of the only other emulator exactly for
the sub-maps of what it has advertised, in every environment, if and only if each advertised value neither
starts nor ends with a space or tab and has at most one percent sign, and no key of the set is an advertised
key up to a NUL in it. -/
theorem discovered_iff_plain (ad : EmulatorAdvertisement) (dir : Directory) {file : Text}
    {props : EmulatorProperties} (hlive : ad.discoverRunningEmulators = [file]) (hfile : file ≠ [])
    (hprops : props.Advertisable) (queried : Text → Prop) (hqueried : ∀ key ∈ props.keys, queried key) :
    (∀ (env : Text → Text) (query : EmulatorProperties), (∀ key ∈ query.keys, queried key) →
      ad.discoverEmulatorWithProperties env (EmulatorAdvertisement.write file props dir) query =
        if query.SubMap props then file else []) ↔
      (∀ e ∈ props.elems, ProperValue e.2 ∧ e.2.count percent ≤ 1) ∧
        ∀ key, queried key → cString key ∈ props.keys → key ∈ props.keys := by
  constructor
  · intro hfinds
    refine ⟨fun e he => ?_, fun key hkey hcut => ?_⟩
    · -- the query for this entry alone
      have hsub : EmulatorProperties.SubMap ⟨[e], by simp⟩ props := fun e' he' =>
        List.mem_singleton.mp he' ▸ he
      have hsubst : ∀ env, envSubst env (trimmed e.2) = e.2 := by
        intro env
        obtain ⟨ini, hreading, heq⟩ :=
          EmulatorAdvertisement.discover_eq hlive hfile hprops env dir ⟨[e], by simp⟩
        rw [hfinds env ⟨[e], by simp⟩ fun key hkey => hqueried key ?_, if_pos hsub] at heq
        · have hmatch : EmulatorAdvertisement.matchAll env ini ⟨[e], by simp⟩ = true := by
            by_contra hno
            rw [if_neg hno] at heq
            exact hfile heq
          rw [← hreading.getString_found he]
          exact (EmulatorAdvertisement.matchAll_iff.mp hmatch e (List.mem_singleton_self e)).2
        · obtain rfl : key = e.1 := by simpa [EmulatorProperties.keys] using hkey
          exact List.mem_map_of_mem he
      have htrimmed : trimmed e.2 = e.2 :=
        trimmed_eq_of_length ((congrArg List.length (hsubst _)).ge.trans (length_envSubst_le _))
      refine ⟨(trimmed_eq_iff (hprops.values e he)).mp htrimmed, (envSubst_eq_self_iff e.2).mp fun env => ?_⟩
      rw [← htrimmed, hsubst, htrimmed]
    · -- a key that is cut is found, with the default value
      by_contra hmissing
      obtain ⟨ini, hreading, heq⟩ := EmulatorAdvertisement.discover_eq hlive hfile hprops
        (fun _ => []) dir ⟨[(key, [])], by simp⟩
      have hmatch : EmulatorAdvertisement.matchAll (fun _ => []) ini ⟨[(key, [])], by simp⟩ = true := by
        refine EmulatorAdvertisement.matchAll_iff.mpr fun e he => ?_
        obtain rfl := List.mem_singleton.mp he
        exact ⟨hreading.hasKey_iff.mpr hcut, hreading.getString_missing hmissing _⟩
      have hsub : ¬ EmulatorProperties.SubMap ⟨[(key, [])], by simp⟩ props := fun hsub =>
        hmissing (List.mem_map_of_mem (hsub _ (List.mem_singleton_self _)))
      rw [hfinds _ ⟨[(key, [])], by simp⟩ ?_, if_neg hsub, if_pos hmatch] at heq
      · exact hfile heq.symm
      · intro key' hkey'
        obtain rfl : key' = key := by simpa [EmulatorProperties.keys] using hkey'
        exact hkey
  · rintro ⟨hplain, hsafe⟩ env query hquery
    obtain ⟨ini, hreading, heq⟩ := EmulatorAdvertisement.discover_eq hlive hfile hprops env dir query
    have hvalue : ∀ e ∈ props.elems, ini.getString env e.1 [] = e.2 := by
      intro e he
      rw [hreading.getString_found he, (trimmed_eq_iff (hprops.values e he)).mpr (hplain e he).1,
        envSubst_eq_self (hplain e he).2]
    rw [heq]
    refine if_congr ?_ rfl rfl
    rw [EmulatorAdvertisement.matchAll_iff]
    constructor
    · intro hmatch e he
      obtain ⟨hkey, hval⟩ := hmatch e he
      have hmem := hsafe e.1 (hquery e.1 (List.mem_map_of_mem he)) (hreading.hasKey_iff.mp hkey)
      obtain ⟨e', he', heq'⟩ := List.mem_map.mp hmem
      have hsame : e' = e := Prod.ext heq' (by rw [← hval, ← heq', hvalue e' he'])
      exact hsame ▸ he'
    · intro hsub e he
      have hmem := hsub e he
      have hkey : cString e.1 = e.1 := cString_eq_self (hprops.keys e hmem).valid.isKeyChar
      refine ⟨hreading.hasKey_iff.mpr ?_, hvalue e hmem⟩
      rw [hkey]
      exact List.mem_map_of_mem hmem

/-- The directory of two emulators that are alive, `m` and `f`, seen from `m`. -/
def twoEmulators : EmulatorAdvertisement :=
  ⟨['m'.toUInt8], [['m'.toUInt8], ['f'.toUInt8]], fun _ _ => true⟩

/-- One property. -/
def oneProperty (key value : Text) : EmulatorProperties := ⟨[(key, value)], by simp⟩

theorem oneProperty_advertisable {key value : Text} (hkey : ProperKey key)
    (hvalue : ∀ c ∈ value, c ≠ '\r'.toUInt8 ∧ c ≠ '\n'.toUInt8 ∧ c ≠ 0)
    (hsize : (oneProperty key value).print.length ≤ kMaxIniFileSize) : (oneProperty key value).Advertisable := by
  refine ⟨fun e he => ?_, fun e he => ?_, hsize⟩
  · obtain rfl := List.mem_singleton.mp he
    exact hkey
  · obtain rfl := List.mem_singleton.mp he
    exact hvalue

/-- A value with one percent sign, and queries without NUL. -/
theorem discovered_one :
    twoEmulators.discoverRunningEmulators = [['f'.toUInt8]] ∧
      ∀ (env : Text → Text) (query : EmulatorProperties), (∀ key ∈ query.keys, (0 : UInt8) ∉ key) →
        twoEmulators.discoverEmulatorWithProperties env
            (EmulatorAdvertisement.write ['f'.toUInt8]
              (oneProperty ['k'.toUInt8] ['1'.toUInt8, '0'.toUInt8, percent]) fun _ => none) query =
          if query.SubMap (oneProperty ['k'.toUInt8] ['1'.toUInt8, '0'.toUInt8, percent]) then ['f'.toUInt8]
          else [] := by
  have hchars : ∀ c ∈ ['1'.toUInt8, '0'.toUInt8, percent],
      c ≠ '\r'.toUInt8 ∧ c ≠ '\n'.toUInt8 ∧ c ≠ 0 := by
    rw [List.forall_mem_cons, List.forall_mem_cons, List.forall_mem_singleton]
    decide
  have hprops : (oneProperty ['k'.toUInt8] ['1'.toUInt8, '0'.toUInt8, percent]).Advertisable :=
    oneProperty_advertisable ⟨by decide, by simp⟩ hchars (by decide)
  refine ⟨by decide, (discovered_iff_plain twoEmulators (fun _ => none) (by decide) (by decide) hprops
    (fun key => 0 ∉ key) (by decide)).mpr ⟨?_, ?_⟩⟩
  · intro e he
    obtain rfl := List.mem_singleton.mp he
    refine ⟨⟨hchars, fun c hc => ?_, fun c hc => ?_⟩, by decide⟩
    · obtain rfl := Option.some.inj hc
      decide
    · obtain rfl := Option.some.inj hc
      decide
  · intro key hkey hcut
    exact cString_of_not_mem hkey ▸ hcut

/-- A value with two percent signs is not found again. -/
theorem percents_are_lost :
    (oneProperty ['k'.toUInt8] [percent, percent]).Advertisable ∧
      twoEmulators.discoverRunningEmulators = [['f'.toUInt8]] ∧
      twoEmulators.discoverEmulatorWithProperties (fun _ => [])
        (EmulatorAdvertisement.write ['f'.toUInt8] (oneProperty ['k'.toUInt8] [percent, percent]) fun _ => none)
        (oneProperty ['k'.toUInt8] [percent, percent]) = [] := by
  refine ⟨oneProperty_advertisable ⟨by decide, by simp⟩ ?_ (by decide), by decide, by decide⟩
  rw [List.forall_mem_cons, List.forall_mem_singleton]
  decide

end Goldfish.Files

import Goldfish.Files.EnvSubst
import Goldfish.Lib.CStrings
import Goldfish.Lib.FirstMatch
import Mathlib.Data.List.Infix

/-!
# Goldfish.Config.Avd

What a virtual device is classified as (`avd.cpp`): the API level that its target names,
and the kind of device that its build properties tell.

Both look for the first match in a hash map, whose order is an argument here. A table that
has a name or an initial for several levels makes the result depend on the order, and so
do labels of several kinds in one property (`classification_iff`).

`SimpleAtoi` is a parameter: `none` where the text is no number that fits.
-/

namespace Goldfish.Config

open Goldfish.Lib Goldfish.Files

/-- The bytes of an ASCII string. -/
def ascii (s : String) : Text := s.toList.map Char.toUInt8

/-- `absl::ascii_toupper`. -/
def ascii_toupper (c : UInt8) : UInt8 := if 'a'.toUInt8 ≤ c ∧ c ≤ 'z'.toUInt8 then c - 32 else c

/-- `absl::ascii_isalpha`. -/
def ascii_isalpha (c : UInt8) : Bool :=
  ('a'.toUInt8 ≤ c && c ≤ 'z'.toUInt8) || ('A'.toUInt8 ≤ c && c ≤ 'Z'.toUInt8)

/-! ### The API level -/

/-- The level of what is not known. -/
def kUnknownApiLevel : Int := 1000

/-- A line of the table of the levels, without the full name. -/
structure ApiLevelInfo where
  apiLevel : Int
  dessertName : Text
  deriving DecidableEq, Repr

/-- The table of the levels, in its order. -/
def kApiLevelInfo : List ApiLevelInfo :=
  [⟨10, ascii "Gingerbread"⟩,
   ⟨14, ascii "Ice Cream Sandwich"⟩,
   ⟨15, ascii "Ice Cream Sandwich"⟩,
   ⟨16, ascii "Jelly Bean"⟩,
   ⟨17, ascii "Jelly Bean"⟩,
   ⟨18, ascii "Jelly Bean"⟩,
   ⟨19, ascii "KitKat"⟩,
   ⟨20, ascii "KitKat"⟩,
   ⟨21, ascii "Lollipop"⟩,
   ⟨22, ascii "Lollipop"⟩,
   ⟨23, ascii "Marshmallow"⟩,
   ⟨24, ascii "Nougat"⟩,
   ⟨25, ascii "Nougat"⟩,
   ⟨26, ascii "Oreo"⟩,
   ⟨27, ascii "Oreo"⟩,
   ⟨28, ascii "Pie"⟩,
   ⟨29, ascii "Q"⟩,
   ⟨30, ascii "R"⟩,
   ⟨31, ascii "S"⟩,
   ⟨32, ascii "Sv2"⟩,
   ⟨33, ascii "Tiramisu"⟩,
   ⟨34, ascii "UpsideDownCake"⟩,
   ⟨35, ascii "VanillaIceCream"⟩]

/-- The loops over the map have this in common. -/
def levelOf (order : List ApiLevelInfo) (isMatch : ApiLevelInfo → Bool) : Int :=
  ((order.find? isMatch).map ApiLevelInfo.apiLevel).getD kUnknownApiLevel

/-- `getApiLevelFromDessertName`. -/
def getApiLevelFromDessertName (order : List ApiLevelInfo) (dessertName : Text) : Int :=
  levelOf order fun info => info.dessertName = dessertName

/-- The capital letter that the name begins with. -/
def ApiLevelInfo.initial (info : ApiLevelInfo) : UInt8 := ascii_toupper (info.dessertName.headD 0)

/-- `getApiLevelFromLetter`. -/
def getApiLevelFromLetter (order : List ApiLevelInfo) (letter : UInt8) : Int :=
  let letterUpper := ascii_toupper letter
  levelOf order fun info => info.initial = letterUpper

/-- The part of a target that names the level. -/
def levelStr (target : Text) : Text :=
  if ascii "android-" <+: target then target.drop 8
  else
    match target.splitOn ':'.toUInt8 with
    | [_, _, level] => level
    | _ => []

/-- `getApiLevel`: a number, a letter, or the name of a dessert. -/
def getApiLevel (SimpleAtoi : Text → Option Int) (order : List ApiLevelInfo) (target : Text) : Int :=
  if target = [] then kUnknownApiLevel
  else
    match levelStr target with
    | [] => kUnknownApiLevel
    | c :: rest =>
      if isdigit c then
        match SimpleAtoi (c :: rest) with
        | some level => max level 3
        | none => kUnknownApiLevel
      else if ascii_isalpha c then
        if rest = [] then getApiLevelFromLetter order c else getApiLevelFromDessertName order (c :: rest)
      else kUnknownApiLevel

/-! ### The kind of device -/

/-- `DeviceType`. -/
inductive DeviceType where
  | kPhone
  | kTv
  | kWear
  | kAndroidAuto
  | kDesktop
  | kUnknown
  deriving DecidableEq, Repr

/-- A `Label` of the table. -/
structure Label where
  key : Text
  val : DeviceType
  deriving DecidableEq, Repr

/-- The labels, in the order of the table. -/
def labelMap : List Label :=
  [⟨ascii "phone", .kPhone⟩, ⟨ascii "atv", .kTv⟩, ⟨ascii "wear", .kWear⟩, ⟨ascii "aw", .kWear⟩,
   ⟨ascii "car", .kAndroidAuto⟩, ⟨ascii "pc", .kDesktop⟩]

/-- The properties that are asked, in this order. -/
def props : List Text :=
  [ascii "ro.product.name", ascii "ro.product.system.name", ascii "ro.build.flavor"]

/-- The label is in the value of the property. -/
def Label.isIn (build : Text) (label : Label) : Bool := label.key <:+: build

/-- The loop over the properties. -/
def searchProps (env : Text → Text) (order : List Label) (buildIni : IniFile) : List Text → DeviceType
  | [] => .kUnknown
  | prop :: props =>
    if !buildIni.hasKey prop then searchProps env order buildIni props
    else
      let build := buildIni.getString env prop (ascii "_unused")
      match (order.find? (Label.isIn build)).map Label.val with
      | some val => val
      | none => searchProps env order buildIni props

/-- `buildprop` is what `getSystemImageFilePath` finds. -/
def getDeviceType (env : Text → Text) (order : List Label) (buildprop : Option Text) (canRead : Bool)
    (dir : Directory) : DeviceType :=
  match buildprop with
  | none => .kUnknown
  | some path =>
    if dir path = none ∨ canRead = false then .kUnknown
    else searchProps env order ((IniFile.new path).read true dir).2 props

/-! ### What the order decides -/

/-- The initials of several levels. -/
def ambiguousLetters : Text := ascii "IJKLNOS"

/-- The names of several levels. -/
def ambiguousNames : List Text :=
  [ascii "Ice Cream Sandwich", ascii "Jelly Bean", ascii "KitKat", ascii "Lollipop", ascii "Nougat",
   ascii "Oreo"]

/-- A target that names several levels. -/
def AmbiguousTarget (target : Text) : Prop :=
  (∃ c, levelStr target = [c] ∧ ascii_toupper c ∈ ambiguousLetters) ∨ levelStr target ∈ ambiguousNames

/-- Labels of several kinds in one property. -/
def AmbiguousBuild (build : Text) : Prop :=
  ∃ a ∈ labelMap, ∃ b ∈ labelMap, a.isIn build = true ∧ b.isIn build = true ∧ a.val ≠ b.val

/-- The first property with a label in it has labels of several kinds. -/
def AmbiguousProps (env : Text → Text) (buildIni : IniFile) (props : List Text) : Prop :=
  ∃ prop, props.find? (fun prop => buildIni.hasKey prop &&
      labelMap.any (Label.isIn (buildIni.getString env prop (ascii "_unused")))) = some prop ∧
    AmbiguousBuild (buildIni.getString env prop (ascii "_unused"))

/-- All matches have one level. -/
theorem levelOf_iff (isMatch : ApiLevelInfo → Bool) :
    SameInEveryOrder kApiLevelInfo (fun order => levelOf order isMatch) ↔
      ∀ a ∈ kApiLevelInfo, ∀ b ∈ kApiLevelInfo, isMatch a = true → isMatch b = true →
        a.apiLevel = b.apiLevel :=
  sameInEveryOrder_find_iff (g := fun level => level.getD kUnknownApiLevel) fun _ _ h => h

/-- Entries of different levels with the same initial, or the same name. -/
theorem kApiLevelInfo_shared : (kApiLevelInfo.all fun a => kApiLevelInfo.all fun b =>
    a.apiLevel = b.apiLevel ||
      (a.initial ≠ b.initial || decide (a.initial ∈ ambiguousLetters)) &&
        (a.dessertName ≠ b.dessertName || decide (a.dessertName ∈ ambiguousNames))) = true := by
  decide

/-- Each of the initials and names is shared. -/
theorem ambiguous_shared :
    (ambiguousLetters.all fun c => kApiLevelInfo.any fun a => kApiLevelInfo.any fun b =>
        decide (a.initial = c) && decide (b.initial = c) && decide (a.apiLevel ≠ b.apiLevel)) = true ∧
      (ambiguousNames.all fun name => kApiLevelInfo.any fun a => kApiLevelInfo.any fun b =>
        decide (a.dessertName = name) && decide (b.dessertName = name) &&
          decide (a.apiLevel ≠ b.apiLevel)) = true := by
  decide

/-- Names are longer than initials, and begin with a letter. -/
theorem ambiguousNames_long :
    (ambiguousNames.all fun name => match name with
      | c :: _ :: _ => ascii_isalpha c && !isdigit c
      | _ => false) = true := by
  decide

/-- The ambiguous initials are letters. -/
theorem letter_of_ambiguous {c : UInt8} (h : ascii_toupper c ∈ ambiguousLetters) :
    ascii_isalpha c = true ∧ isdigit c = false := by
  unfold ascii_toupper at h
  split at h
  · next hlower =>
    have hrange : 97 ≤ c.toNat ∧ c.toNat ≤ 122 := hlower
    refine ⟨by simp [ascii_isalpha, hlower], ?_⟩
    rw [Bool.eq_false_iff, Ne, isdigit_iff]
    omega
  · have hletters : (ambiguousLetters.all fun c => ascii_isalpha c && !isdigit c) = true := by decide
    simpa using List.all_eq_true.mp hletters c h

theorem getApiLevelFromLetter_iff (letter : UInt8) :
    SameInEveryOrder kApiLevelInfo (fun order => getApiLevelFromLetter order letter) ↔
      ascii_toupper letter ∉ ambiguousLetters := by
  unfold getApiLevelFromLetter
  rw [levelOf_iff]
  constructor
  · intro h hmem
    obtain ⟨a, ha, b, hb, hab⟩ : ∃ a ∈ kApiLevelInfo, ∃ b ∈ kApiLevelInfo,
        (a.initial = ascii_toupper letter ∧ b.initial = ascii_toupper letter) ∧ a.apiLevel ≠ b.apiLevel := by
      simpa using List.all_eq_true.mp ambiguous_shared.1 _ hmem
    exact hab.2 (h a ha b hb (by simpa using hab.1.1) (by simpa using hab.1.2))
  · intro h a ha b hb hpa hpb
    have hshared := List.all_eq_true.mp (List.all_eq_true.mp kApiLevelInfo_shared a ha) b hb
    simp only [decide_eq_true_eq] at hpa hpb
    simpa [hpa, hpb, h] using hshared

theorem getApiLevelFromDessertName_iff (dessertName : Text) :
    SameInEveryOrder kApiLevelInfo (fun order => getApiLevelFromDessertName order dessertName) ↔
      dessertName ∉ ambiguousNames := by
  unfold getApiLevelFromDessertName
  rw [levelOf_iff]
  constructor
  · intro h hmem
    obtain ⟨a, ha, b, hb, hab⟩ : ∃ a ∈ kApiLevelInfo, ∃ b ∈ kApiLevelInfo,
        (a.dessertName = dessertName ∧ b.dessertName = dessertName) ∧ a.apiLevel ≠ b.apiLevel := by
      simpa using List.all_eq_true.mp ambiguous_shared.2 _ hmem
    exact hab.2 (h a ha b hb (by simpa using hab.1.1) (by simpa using hab.1.2))
  · intro h a ha b hb hpa hpb
    have hshared := List.all_eq_true.mp (List.all_eq_true.mp kApiLevelInfo_shared a ha) b hb
    simp only [decide_eq_true_eq] at hpa hpb
    rcases Bool.or_eq_true_iff.mp hshared with heq | hne
    · simpa using heq
    · simp [hpa, hpb, h] at hne

/-- A target without a level that it names. -/
theorem getApiLevel_of_levelStr_nil {target : Text} (h : levelStr target = [])
    (SimpleAtoi : Text → Option Int) (order : List ApiLevelInfo) :
    getApiLevel SimpleAtoi order target = kUnknownApiLevel := by
  unfold getApiLevel
  rw [h]
  split <;> rfl

/-- The first character of the level decides how it is read. -/
theorem getApiLevel_of_levelStr_cons {target rest : Text} {c : UInt8} (hlevel : levelStr target = c :: rest)
    (SimpleAtoi : Text → Option Int) (order : List ApiLevelInfo) : getApiLevel SimpleAtoi order target =
      if isdigit c then (match SimpleAtoi (c :: rest) with
        | some level => max level 3
        | none => kUnknownApiLevel)
      else if ascii_isalpha c then
        if rest = [] then getApiLevelFromLetter order c else getApiLevelFromDessertName order (c :: rest)
      else kUnknownApiLevel := by
  have hne : target ≠ [] := by
    rintro rfl
    have hempty : levelStr [] = [] := by decide
    rw [hempty] at hlevel
    cases hlevel
  unfold getApiLevel
  rw [if_neg hne, hlevel]

/-- A level that is ambiguous is letters. -/
theorem letter_of_ambiguous_level {c : UInt8} {rest : Text}
    (h : (∃ d, c :: rest = [d] ∧ ascii_toupper d ∈ ambiguousLetters) ∨ c :: rest ∈ ambiguousNames) :
    ascii_isalpha c = true ∧ isdigit c = false := by
  rcases h with ⟨d, heq, hd⟩ | hname
  · obtain ⟨rfl, -⟩ := List.cons.inj heq
    exact letter_of_ambiguous hd
  · have hlong := List.all_eq_true.mp ambiguousNames_long _ hname
    cases rest with
    | nil => cases hlong
    | cons d rest => simpa using hlong

/-- **The API level in any order.** -/
theorem getApiLevel_iff (SimpleAtoi : Text → Option Int) (target : Text) :
    SameInEveryOrder kApiLevelInfo (fun order => getApiLevel SimpleAtoi order target) ↔
      ¬ AmbiguousTarget target := by
  unfold AmbiguousTarget
  cases hlevel : levelStr target with
  | nil =>
    have hsame := getApiLevel_of_levelStr_nil hlevel SimpleAtoi
    refine iff_of_true (fun l₁ l₂ _ _ => (hsame l₁).trans (hsame l₂).symm) ?_
    have hnames : ([] : Text) ∉ ambiguousNames := by decide
    simpa using hnames
  | cons c rest =>
    have hrun := getApiLevel_of_levelStr_cons hlevel SimpleAtoi
    by_cases hdigit : isdigit c = true
    · refine iff_of_true (fun l₁ l₂ _ _ => ?_) fun h => ?_
      · dsimp only
        rw [hrun, hrun, if_pos hdigit, if_pos hdigit]
      · rw [(letter_of_ambiguous_level h).2] at hdigit
        cases hdigit
    · by_cases halpha : ascii_isalpha c = true
      · cases rest with
        | nil =>
          have hsingle : ∀ order, getApiLevel SimpleAtoi order target = getApiLevelFromLetter order c := by
            intro order
            rw [hrun, if_neg hdigit, if_pos halpha, if_pos rfl]
          have hshort : [c] ∉ ambiguousNames := by
            intro hname
            have hlong := List.all_eq_true.mp ambiguousNames_long _ hname
            cases hlong
          simp only [hsingle]
          rw [getApiLevelFromLetter_iff]
          simp [hshort]
        | cons d rest =>
          have hname : ∀ order,
              getApiLevel SimpleAtoi order target = getApiLevelFromDessertName order (c :: d :: rest) := by
            intro order
            rw [hrun, if_neg hdigit, if_pos halpha, if_neg (List.cons_ne_nil d rest)]
          simp only [hname]
          rw [getApiLevelFromDessertName_iff]
          simp
      · refine iff_of_true (fun l₁ l₂ _ _ => ?_) fun h => halpha (letter_of_ambiguous_level h).1
        dsimp only
        rw [hrun, hrun, if_neg hdigit, if_neg hdigit, if_neg halpha, if_neg halpha]

/-! ### The kind of device in any order -/

/-- The labels in one property. -/
theorem ambiguousBuild_iff {build : Text} :
    (∀ a ∈ labelMap, ∀ b ∈ labelMap, a.isIn build = true → b.isIn build = true → a.val = b.val) ↔
      ¬ AmbiguousBuild build := by
  constructor
  · intro h ⟨a, ha, b, hb, hpa, hpb, hne⟩
    exact hne (h a ha b hb hpa hpb)
  · intro h a ha b hb hpa hpb
    by_contra hne
    exact h ⟨a, ha, b, hb, hpa, hpb, hne⟩

/-- **The kind of device in any order**: the first property with a label in it decides. -/
theorem searchProps_iff (env : Text → Text) (buildIni : IniFile) (props : List Text) :
    SameInEveryOrder labelMap (fun order => searchProps env order buildIni props) ↔
      ¬ AmbiguousProps env buildIni props := by
  unfold AmbiguousProps
  induction props with
  | nil =>
    refine iff_of_true (fun _ _ _ _ => rfl) ?_
    rintro ⟨prop, hprop, -⟩
    cases hprop
  | cons prop props ih =>
    cases hkey : buildIni.hasKey prop with
    | false =>
      simp only [searchProps, hkey, Bool.not_false, if_true]
      rw [ih]
      simp [hkey]
    | true =>
      have hsearch : ∀ order, searchProps env order buildIni (prop :: props) =
          match (order.find? (Label.isIn (buildIni.getString env prop (ascii "_unused")))).map Label.val with
          | some val => val
          | none => searchProps env order buildIni props := by
        intro order
        rw [searchProps, hkey]
        rfl
      cases hany : labelMap.any (Label.isIn (buildIni.getString env prop (ascii "_unused"))) with
      | true =>
        -- the search ends here, whatever is found
        rw [sameInEveryOrder_congr (s := fun order =>
            ((order.find? (Label.isIn (buildIni.getString env prop (ascii "_unused")))).map Label.val).getD
              .kUnknown),
          sameInEveryOrder_find_iff (g := fun found => found.getD DeviceType.kUnknown) fun _ _ h => h,
          ambiguousBuild_iff]
        · simp [hkey, hany]
        · intro order horder
          obtain ⟨label, hlabel⟩ := Option.isSome_iff_exists.mp ((isSome_find_of_perm horder).trans hany)
          rw [hsearch, hlabel]
          rfl
      | false =>
        rw [sameInEveryOrder_congr (s := fun order => searchProps env order buildIni props), ih]
        · simp [hkey, hany]
        · intro order horder
          have hnone := Option.isSome_eq_false_iff.mp ((isSome_find_of_perm horder).trans hany)
          rw [hsearch, Option.isNone_iff_eq_none.mp hnone]
          rfl

/-- The search in a file of build properties. -/
theorem getDeviceType_iff (env : Text → Text) (buildprop : Option Text) (canRead : Bool) (dir : Directory) :
    SameInEveryOrder labelMap (fun order => getDeviceType env order buildprop canRead dir) ↔
      ∀ path, buildprop = some path → dir path ≠ none → canRead = true →
        ¬ AmbiguousProps env ((IniFile.new path).read true dir).2 props := by
  unfold getDeviceType
  cases buildprop with
  | none => exact iff_of_true (fun _ _ _ _ => rfl) fun path hpath => by cases hpath
  | some path =>
    dsimp only
    by_cases hread : dir path = none ∨ canRead = false
    · simp only [if_pos hread]
      refine iff_of_true (fun _ _ _ _ => rfl) fun path' hpath hdir hcan => ?_
      obtain rfl := Option.some.inj hpath
      rcases hread with hnone | hcan'
      · exact absurd hnone hdir
      · rw [hcan] at hcan'
        cases hcan'
    · simp only [if_neg hread]
      rw [searchProps_iff]
      rw [not_or, Bool.not_eq_false] at hread
      constructor
      · rintro h path' hpath - -
        obtain rfl := Option.some.inj hpath
        exact h
      · exact fun h => h path rfl hread.1 hread.2

/-- **Classification in any order.** The API level of a target and the kind of device that a file of build
properties tells are the same in every order of the hash maps exactly if the target does not name several
levels, and the first property with a label in it has labels of one kind. -/
theorem classification_iff (SimpleAtoi : Text → Option Int) (target : Text) (env : Text → Text)
    (buildprop : Option Text) (canRead : Bool) (dir : Directory) :
    (SameInEveryOrder kApiLevelInfo (fun order => getApiLevel SimpleAtoi order target) ↔
        ¬ AmbiguousTarget target) ∧
      (SameInEveryOrder labelMap (fun order => getDeviceType env order buildprop canRead dir) ↔
        ∀ path, buildprop = some path → dir path ≠ none → canRead = true →
          ¬ AmbiguousProps env ((IniFile.new path).read true dir).2 props) :=
  ⟨getApiLevel_iff SimpleAtoi target, getDeviceType_iff env buildprop canRead dir⟩

/-- A target for a preview release, and a phone whose product name has a second label in it. -/
theorem order_decides :
    (∃ order, order.Perm kApiLevelInfo ∧
        getApiLevel (fun _ => none) kApiLevelInfo (ascii "android-S") = 31 ∧
        getApiLevel (fun _ => none) order (ascii "android-S") = 32) ∧
      ∃ order, order.Perm labelMap ∧
        getDeviceType (fun _ => []) labelMap (some (ascii "b")) true
          (fun _ => some (ascii "ro.product.name=phone_pc")) = .kPhone ∧
        getDeviceType (fun _ => []) order (some (ascii "b")) true
          (fun _ => some (ascii "ro.product.name=phone_pc")) = .kDesktop :=
  ⟨⟨kApiLevelInfo.reverse, List.reverse_perm _, by decide, by decide⟩,
    ⟨labelMap.reverse, List.reverse_perm _, by decide +kernel, by decide +kernel⟩⟩

end Goldfish.Config

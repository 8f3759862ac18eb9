import Goldfish.Files.Getters
import Mathlib.Data.Nat.Bitwise

/-!
# Goldfish.Files.DiskSize

Disk sizes: a number, and a letter for a power of 1024.

`DiskSizeText` is the format the header describes. What `parseDiskSize` takes is what
`strtoll` leaves in front of such a letter, whatever is behind the letter
(`parseDiskSize_iff`), and it multiplies without looking; `DiskSizeSafe` is what that
comes to for one text (`getDiskSize_iff`). A size that `setDiskSize` prints reads back
unless it needs all 64 bits (`diskSize_round_trip_iff`).
-/

namespace Goldfish.Files

open Goldfish.Lib

/-- The letters for the powers of 1024, as the `switch` looks at them. -/
def suffixFactor : Text → Option Nat
  | [] => some 1
  | c :: _ =>
    if c = 'k'.toUInt8 ∨ c = 'K'.toUInt8 then some 1024
    else if c = 'm'.toUInt8 ∨ c = 'M'.toUInt8 then some (1024 * 1024)
    else if c = 'g'.toUInt8 ∨ c = 'G'.toUInt8 then some (1024 * 1024 * 1024)
    else none

/-- `none`: malformed. -/
def parseDiskSize (einval : Bool) (valueStr : Text) : Option UInt64 :=
  let result := strtoll einval (cString valueStr)
  if result.errno then none
  else (suffixFactor result.rest).map fun factor => UInt64.ofInt result.value * UInt64.ofNat factor

/-- `getDiskSize`. -/
def IniFile.getDiskSize (ini : IniFile) (env : Text → Text) (einval : Bool) (key : Text) (defaultValue : UInt64)
    (fuel : Nat) : Option UInt64 :=
  ini.getValue env (parseDiskSize einval) (ini.hasKey key) key defaultValue fuel

/-! ### The format -/

/-- A letter, or none, and the power of 1024 that it stands for. -/
inductive SizeUnit : Text → Nat → Prop where
  | none : SizeUnit [] 0
  | kilo {c : UInt8} (h : c = 'k'.toUInt8 ∨ c = 'K'.toUInt8) : SizeUnit [c] 1
  | mega {c : UInt8} (h : c = 'm'.toUInt8 ∨ c = 'M'.toUInt8) : SizeUnit [c] 2
  | giga {c : UInt8} (h : c = 'g'.toUInt8 ∨ c = 'G'.toUInt8) : SizeUnit [c] 3

/-- The size that a text denotes. -/
def DenotesSize (s : Text) (v : UInt64) : Prop :=
  ∃ digits unit e, s = digits ++ unit ∧ digits ≠ [] ∧ (∀ c ∈ digits, isdigit c = true) ∧ SizeUnit unit e ∧
    v.toNat = decimal digits * 1024 ^ e

theorem SizeUnit.spec {unit : Text} {e : Nat} (h : SizeUnit unit e) :
    suffixFactor unit = some (1024 ^ e) ∧ unit.length ≤ 1 ∧ Starts isdigit unit ∧ 0 ∉ unit ∧ percent ∉ unit := by
  cases h with
  | none => exact ⟨rfl, by simp, by simp, by simp, by simp⟩
  | kilo h | mega h | giga h =>
    rcases h with rfl | rfl <;> exact ⟨by decide, by simp, by rw [starts_cons]; decide, by decide, by decide⟩

/-- Every letter that the parser knows. -/
theorem sizeUnit_of_suffixFactor {suffix : Text} {factor : Nat} (h : suffixFactor suffix = some factor)
    (hlength : suffix.length ≤ 1) : ∃ e, SizeUnit suffix e ∧ factor = 1024 ^ e := by
  cases suffix with
  | nil => exact ⟨0, .none, (Option.some.inj h).symm⟩
  | cons c rest =>
    obtain rfl : rest = [] := List.length_eq_zero_iff.mp (by simpa using hlength)
    rw [suffixFactor] at h
    split at h
    · exact ⟨1, .kilo ‹_›, (Option.some.inj h).symm⟩
    · split at h
      · exact ⟨2, .mega ‹_›, (Option.some.inj h).symm⟩
      · split at h
        · exact ⟨3, .giga ‹_›, (Option.some.inj h).symm⟩
        · cases h

/-- How a text that denotes a size is scanned. -/
theorem scan_of_denotesSize {digits unit : Text} {e : Nat} (hne : digits ≠ [])
    (hdigits : ∀ c ∈ digits, isdigit c = true) (hunit : SizeUnit unit e) :
    scan (digits ++ unit) = ⟨[], [], digits, unit⟩ ∧ cString (digits ++ unit) = digits ++ unit := by
  obtain ⟨-, -, hstart, hnul, -⟩ := hunit.spec
  constructor
  · have hspace : ∀ c ∈ ([] : Text), isspace c = true := fun c hc => by cases hc
    simpa using scan_eq hspace (.inl rfl) hne hdigits hstart
  · refine cString_of_not_mem fun hmem => ?_
    rcases List.mem_append.mp hmem with hmem | hmem
    · exact absurd (hdigits 0 hmem) (by decide)
    · exact hnul hmem

/-! ### What is parsed -/

/-- What the parser takes: in front of a NUL, a number that fits and a letter with anything behind it; and a
letter alone, or nothing, for a zero. -/
theorem parseDiskSize_iff {einval : Bool} {s : Text} {v : UInt64} :
    parseDiskSize einval s = some v ↔
      ((scan (cString s)).digits = [] ∧ einval = false ∧ suffixFactor (cString s) ≠ none ∧ v = 0) ∨
      ((scan (cString s)).digits ≠ [] ∧
        (LLONG_MIN ≤ (scan (cString s)).value ∧ (scan (cString s)).value ≤ LLONG_MAX) ∧
        ∃ factor, suffixFactor (scan (cString s)).rest = some factor ∧
          v = UInt64.ofInt (scan (cString s)).value * UInt64.ofNat factor) := by
  have hzero : ∀ factor : Nat, UInt64.ofInt 0 * UInt64.ofNat factor = 0 := fun _ => UInt64.zero_mul
  unfold parseDiskSize
  dsimp only
  rcases strtoll_cases einval (cString s) with ⟨hdigits, h⟩ | ⟨hdigits, hrange, h⟩ | ⟨hdigits, hrange, h⟩
  · rw [h]
    simp only [hdigits, ne_eq, not_true_eq_false, false_and, or_false, true_and, hzero]
    cases einval with
    | true => simp
    | false =>
      cases suffixFactor (cString s) with
      | none => simp
      | some factor => simp [eq_comm]
  · rw [h]
    simp only [hdigits, ne_eq, not_false_eq_true, false_and, false_or, true_and, hrange, and_self,
      Bool.false_eq_true, if_false, Option.map_eq_some_iff]
    exact exists_congr fun factor => and_congr_right fun _ => eq_comm
  · rw [h]
    simp [hdigits, hrange]

/-- **The condition on a text.** -/
structure DiskSizeSafe (einval : Bool) (s : Text) : Prop where
  /-- Nothing, or a letter, is not taken for a zero. -/
  digitless : (scan (cString s)).digits = [] → einval = true ∨ suffixFactor (cString s) = none
  /-- A number that is taken is the whole text, without white space and sign, and it fits. -/
  taken : (scan (cString s)).digits ≠ [] →
    LLONG_MIN ≤ (scan (cString s)).value ∧ (scan (cString s)).value ≤ LLONG_MAX →
    ∀ factor, suffixFactor (scan (cString s)).rest = some factor →
      0 ∉ s ∧ (scan s).space = [] ∧ (scan s).sign = [] ∧ (scan s).rest.length ≤ 1 ∧
        decimal (scan s).digits * factor < 18446744073709551616
  /-- A number alone is not too large for a signed integer. -/
  plain : s ≠ [] → (∀ c ∈ s, isdigit c = true) → decimal s < 18446744073709551616 → decimal s ≤ LLONG_MAX

/-- The product of the parser, where it fits. -/
theorem ofInt_mul (n factor : Nat) : UInt64.ofInt n * UInt64.ofNat factor = UInt64.ofNat (n * factor) := by
  have hn : UInt64.ofInt n = UInt64.ofNat n := by
    have hmod : ((n : Int) % 2 ^ 64).toNat = n % 2 ^ 64 := rfl
    rw [UInt64.ofInt, hmod, UInt64.ofNat_mod_size]
  rw [UInt64.ofNat_mul, hn]

section Denotes

variable {einval : Bool} {s : Text} {v : UInt64}

/-- A text that denotes a size is taken for it, unless it is a number that is too large. -/
theorem parseDiskSize_of_denotes (h : DenotesSize s v)
    (hplain : s ≠ [] → (∀ c ∈ s, isdigit c = true) → decimal s < 18446744073709551616 →
      decimal s ≤ LLONG_MAX) : parseDiskSize einval s = some v := by
  obtain ⟨digits, unit, e, rfl, hne, hdigits, hunit, hv⟩ := h
  obtain ⟨hscan, hwhole⟩ := scan_of_denotesSize hne hdigits hunit
  have hfits : decimal digits * 1024 ^ e < 18446744073709551616 := hv ▸ v.toNat_lt
  have hmax : (decimal digits : Int) ≤ LLONG_MAX := by
    cases hunit with
    | none =>
      rw [List.append_nil] at hplain
      exact hplain hne hdigits (by omega)
    | kilo _ | mega _ | giga _ =>
      unfold LLONG_MAX
      omega
  have hmin : LLONG_MIN ≤ (decimal digits : Int) := by
    unfold LLONG_MIN
    omega
  rw [parseDiskSize_iff, hwhole, hscan]
  refine .inr ⟨hne, ⟨hmin, hmax⟩, 1024 ^ e, hunit.spec.1, ?_⟩
  rw [← UInt64.toNat_inj, hv]
  change _ = (UInt64.ofInt (decimal digits : Int) * UInt64.ofNat (1024 ^ e)).toNat
  rw [ofInt_mul, UInt64.toNat_ofNat_of_lt' hfits]

/-- What is taken from a safe text is denoted by it. -/
theorem DiskSizeSafe.denotes (h : DiskSizeSafe einval s) (hv : parseDiskSize einval s = some v) :
    DenotesSize s v := by
  rcases parseDiskSize_iff.mp hv with ⟨hdigits, heinval, hfactor, -⟩ | ⟨hdigits, hrange, factor, hfactor, hv⟩
  · rcases h.digitless hdigits with hnot | hnot
    · rw [heinval] at hnot
      cases hnot
    · exact absurd hnot hfactor
  · obtain ⟨hnul, hspace, hsign, hlength, hfits⟩ := h.taken hdigits hrange factor hfactor
    have htext := scan_append s
    rw [cString_of_not_mem hnul] at hdigits hfactor hv
    rw [hspace, hsign, List.nil_append, List.nil_append] at htext
    obtain ⟨e, hunit, rfl⟩ := sizeUnit_of_suffixFactor hfactor hlength
    have hvalue : (scan s).value = (decimal (scan s).digits : Int) := by
      rw [Scan.value, hsign, signed, if_neg (by simp)]
    refine ⟨_, _, e, htext.symm, hdigits, scan_digits s, hunit, ?_⟩
    rw [hv, hvalue, ofInt_mul, UInt64.toNat_ofNat_of_lt' hfits]

/-- **Exactly the sizes.** -/
theorem parseDiskSize_exact_iff :
    (∀ v, parseDiskSize einval s = some v ↔ DenotesSize s v) ↔ DiskSizeSafe einval s := by
  constructor
  · intro h
    refine ⟨fun hdigits => ?_, fun hdigits hrange factor hfactor => ?_, fun hne hdigits hfits => ?_⟩
    · by_contra hnot
      rw [not_or, Bool.not_eq_true] at hnot
      obtain ⟨digits, unit, e, rfl, hne, hall, hunit, -⟩ :=
        (h 0).mp (parseDiskSize_iff.mpr (.inl ⟨hdigits, hnot.1, hnot.2, rfl⟩))
      obtain ⟨hscan, hwhole⟩ := scan_of_denotesSize hne hall hunit
      rw [hwhole, hscan] at hdigits
      exact hne hdigits
    · obtain ⟨digits, unit, e, rfl, hne, hall, hunit, hv⟩ :=
        (h _).mp (parseDiskSize_iff.mpr (.inr ⟨hdigits, hrange, factor, hfactor, rfl⟩))
      obtain ⟨hscan, hwhole⟩ := scan_of_denotesSize hne hall hunit
      have hnul := not_mem_cString (digits ++ unit)
      rw [hwhole] at hnul hfactor
      rw [hscan] at hfactor ⊢
      have hsame : 1024 ^ e = factor := Option.some.inj (hunit.spec.1.symm.trans hfactor)
      refine ⟨hnul, rfl, rfl, hunit.spec.2.1, ?_⟩
      rw [← hsame, ← hv]
      exact UInt64.toNat_lt _
    · obtain ⟨hscan, hwhole⟩ := scan_of_denotesSize hne hdigits .none
      rw [List.append_nil] at hscan hwhole
      have hdenotes : DenotesSize s (UInt64.ofNat (decimal s)) :=
        ⟨s, [], 0, (List.append_nil s).symm, hne, hdigits, .none, by
          rw [UInt64.toNat_ofNat_of_lt' hfits]
          omega⟩
      have hparsed := parseDiskSize_iff.mp ((h _).mpr hdenotes)
      rw [hwhole, hscan] at hparsed
      rcases hparsed with hparsed | hparsed
      · exact absurd hparsed.1 hne
      · exact hparsed.2.1.2
  · intro h v
    exact ⟨h.denotes, fun hv => parseDiskSize_of_denotes hv h.plain⟩

end Denotes

/-! ### Reading sizes -/

/-- **Disk sizes.** `getDiskSize` is exact on a text without percent signs exactly if the text is short and
safe, or its key has a NUL in it and is not found, and the text denotes no size. -/
theorem getDiskSize_iff (ini : IniFile) (env : Text → Text) (einval : Bool) {key s : Text}
    (hkey : ini.mData key = some s) (hs : percent ∉ s) :
    Exact (ini.getDiskSize env einval key) (DenotesSize s) ↔
      if ini.hasKey key = true then s.length < 4294967296 ∧ DiskSizeSafe einval s
      else ∀ v, ¬ DenotesSize s v := by
  unfold IniFile.getDiskSize
  cases ini.hasKey key with
  | true =>
    rw [if_pos rfl, exact_iff (show (0 : UInt64) ≠ 1 by decide) hkey hs, parseDiskSize_exact_iff]
  | false =>
    rw [if_neg Bool.false_ne_true]
    simp only [Exact, getValue_missing_iff]
    constructor
    · intro h v hv
      exact absurd (((h 0).1 v hv).trans ((h 1).1 v hv).symm) (by decide)
    · intro h defaultValue
      exact ⟨fun v hv => absurd hv (h v), fun _ => trivial⟩

theorem five_megabytes_are_exact :
    let s := ['5', 'M'].map Char.toUInt8
    Exact (((IniFile.new []).set [] (.setString s)).getDiskSize (fun _ => []) false []) (DenotesSize s) := by
  refine (getDiskSize_iff _ _ false (set_mData _ _ _) (by decide)).mpr ?_
  rw [if_pos (by decide)]
  refine ⟨by decide, fun h => absurd h (by decide), fun _ _ factor hfactor => ?_,
    fun _ h => absurd (h 'M'.toUInt8 (by decide)) (by decide)⟩
  have hmega : factor = 1048576 := Option.some.inj (hfactor.symm.trans (by decide))
  rw [hmega]
  decide

/-- The only size that a text can denote. -/
theorem DenotesSize.toNat_eq {s : Text} {v : UInt64} (h : DenotesSize s v) :
    v.toNat = decimal (scan s).digits * (suffixFactor (scan s).rest).getD 0 := by
  obtain ⟨digits, unit, e, rfl, hne, hdigits, hunit, hv⟩ := h
  rw [(scan_of_denotesSize hne hdigits hunit).1, hunit.spec.1]
  exact hv

/-- A size of `2 ^ 64` bytes, that is none. -/
theorem size_wraps_to_zero : ¬ ∀ (ini : IniFile) (env : Text → Text) (einval : Bool) (key s : Text),
    ini.mData key = some s → percent ∉ s → Exact (ini.getDiskSize env einval key) (DenotesSize s) := by
  intro h
  let s := ['1', '7', '1', '7', '9', '8', '6', '9', '1', '8', '4', 'g'].map Char.toUInt8
  have hset := set_mData (IniFile.new []) [] (.setString s)
  have hpercent : percent ∉ (Setter.setString s).text := by decide
  have hkey : ((IniFile.new []).set [] (.setString s)).hasKey [] = true := by decide
  have hsize : decimal (scan (Setter.setString s).text).digits *
      (suffixFactor (scan (Setter.setString s).text).rest).getD 0 = 18446744073709551616 := by decide
  have hdefault := (h _ (fun _ => []) true [] _ hset hpercent 7).2 fun v hv => by
    have hv' := hv.toNat_eq
    have := v.toNat_lt
    omega
  unfold IniFile.getDiskSize at hdefault
  rw [hkey, getValue_returns_iff hset hpercent] at hdefault
  exact absurd hdefault.2 (by decide)

/-! ### Printing sizes -/

/-- What is printed: a number with a letter, or one that no letter could shorten. -/
theorem diskSizeText_cases (v : UInt64) :
    (∃ (n e : Nat) (c : UInt8), SizeUnit [c] e ∧ v.toNat = n * 1024 ^ e ∧ 1024 ∣ v.toNat ∧
        diskSizeText v = to_string n ++ [c]) ∨
      (¬ (1024 ≤ v.toNat ∧ 1024 ∣ v.toNat) ∧ diskSizeText v = to_string v.toNat) := by
  have hletter : ∀ (unit : UInt64) (c : UInt8) (e : Nat), SizeUnit [c] (e + 1) → unit.toNat = 1024 ^ (e + 1) →
      v % unit = 0 → ∃ (n e : Nat) (d : UInt8), SizeUnit [d] e ∧ v.toNat = n * 1024 ^ e ∧ 1024 ∣ v.toNat ∧
        to_string (v / unit).toNat ++ [c] = to_string n ++ [d] := by
    intro unit c e hunit hsize hmod
    have hdvd : unit.toNat ∣ v.toNat := by
      have hzero := congrArg UInt64.toNat hmod
      rw [UInt64.toNat_mod] at hzero
      exact Nat.dvd_of_mod_eq_zero hzero
    refine ⟨(v / unit).toNat, e + 1, c, hunit, ?_, ?_, rfl⟩
    · rw [UInt64.toNat_div, ← hsize]
      exact (Nat.div_mul_cancel hdvd).symm
    · rw [hsize] at hdvd
      exact (dvd_pow_self 1024 (Nat.succ_ne_zero e)).trans hdvd
  unfold diskSizeText
  split
  · rename_i h
    exact .inl (hletter kGiga _ 2 (.giga (.inl rfl)) (by decide) h.2)
  · split
    · rename_i h
      exact .inl (hletter kMega _ 1 (.mega (.inl rfl)) (by decide) h.2)
    · split
      · rename_i h
        exact .inl (hletter kKilo _ 0 (.kilo (.inl rfl)) (by decide) h.2)
      · rename_i h
        refine .inr ⟨fun hboth => h ⟨UInt64.le_iff_toNat_le.mpr hboth.1, ?_⟩, rfl⟩
        rw [← UInt64.toNat_inj, UInt64.toNat_mod]
        exact Nat.mod_eq_zero_of_dvd hboth.2

/-- The digits of a size. -/
theorem to_string_natCast (n : Nat) : to_string n = (Nat.toDigits 10 n).map Char.toUInt8 := by
  rw [to_string, if_neg (by omega)]
  rfl

theorem decimal_to_string (n : Nat) : decimal (to_string n) = n := by
  rw [to_string_natCast, decimal_toDigits]

/-- What is printed denotes the size. -/
theorem denotesSize_diskSizeText (v : UInt64) : DenotesSize (diskSizeText v) v := by
  have hdigits : ∀ (n : Nat) (c : UInt8), c ∈ to_string n → isdigit c = true := by
    intro n c hc
    rw [to_string_natCast] at hc
    exact isdigit_toDigits hc
  have hne : ∀ n : Nat, to_string n ≠ [] := by
    intro n
    simp [to_string_natCast]
  rcases diskSizeText_cases v with ⟨n, e, c, hunit, hv, -, htext⟩ | ⟨-, htext⟩
  · exact ⟨to_string n, [c], e, htext, hne n, hdigits n, hunit, by rw [decimal_to_string, hv]⟩
  · exact ⟨to_string v.toNat, [], 0, by rw [htext, List.append_nil], hne _, hdigits _, .none, by
      rw [decimal_to_string]
      omega⟩

/-- Which sizes are parsed as they were printed. -/
theorem parseDiskSize_diskSizeText_iff (einval : Bool) (v : UInt64) :
    parseDiskSize einval (diskSizeText v) = some v ↔ v.toNat < 9223372036854775808 ∨ 1024 ∣ v.toNat := by
  have hdenotes := denotesSize_diskSizeText v
  rcases diskSizeText_cases v with ⟨n, e, c, hunit, -, hdvd, htext⟩ | ⟨hplain, htext⟩
  · refine iff_of_true (parseDiskSize_of_denotes hdenotes fun _ hdigits => ?_) (.inr hdvd)
    -- the letter is no digit
    have hc := hdigits c (by simp [htext])
    rw [starts_cons.mp hunit.spec.2.2.1] at hc
    cases hc
  · have hnumeral := numeral_to_string v.toNat
    constructor
    · intro hparsed
      rw [parseDiskSize_iff, htext, cString_of_not_mem hnumeral.nul_not_mem] at hparsed
      obtain ⟨hne, -, hvalue⟩ := numeral_iff.mp hnumeral
      rcases hparsed with ⟨hnil, -⟩ | ⟨-, hrange, -⟩
      · exact absurd hnil hne
      · rw [← hvalue] at hrange
        unfold LLONG_MAX at hrange
        exact .inl (by omega)
    · intro hv
      refine parseDiskSize_of_denotes hdenotes fun _ _ _ => ?_
      rw [htext, decimal_to_string]
      unfold LLONG_MAX
      by_cases hdvd : 1024 ∣ v.toNat
      · have := fun hle => hplain ⟨hle, hdvd⟩
        omega
      · have := hv.resolve_right hdvd
        omega

/-- A printed size is short, and has nothing in it that is substituted. -/
theorem diskSizeText_plain (v : UInt64) : percent ∉ diskSizeText v ∧ (diskSizeText v).length < 4294967296 := by
  have hlength : ∀ n : Nat, n ≤ v.toNat → (to_string n).length ≤ 21 :=
    fun n hn => length_to_string (by have := v.toNat_lt; omega)
  rcases diskSizeText_cases v with ⟨n, e, c, hunit, hv, -, htext⟩ | ⟨-, htext⟩
  · have hn : n ≤ v.toNat := hv ▸ Nat.le_mul_of_pos_right n (Nat.pow_pos (by decide))
    have := hlength n hn
    rw [htext, List.mem_append, not_or, List.length_append]
    exact ⟨⟨percent_not_mem_to_string n, hunit.spec.2.2.2.2⟩, by simp; omega⟩
  · have := hlength v.toNat (Nat.le_refl _)
    rw [htext]
    exact ⟨percent_not_mem_to_string _, by omega⟩

/-- The key of a value that was set is found, unless it has a NUL in it and no key ends there. -/
theorem hasKey_set_iff (ini : IniFile) (key : Text) (setter : Setter) :
    (ini.set key setter).hasKey key = true ↔ (0 ∈ key → (ini.mData (cString key)).isSome = true) := by
  by_cases hnul : 0 ∈ key
  · have hne : cString key ≠ key := fun heq => not_mem_cString key (heq.symm ▸ hnul)
    rw [IniFile.hasKey, IniFile.set, IniFile.updateData, IniFile.emplace]
    dsimp only
    rw [Function.update_of_ne hne]
    exact ⟨fun h _ => h, fun h => h hnul⟩
  · rw [IniFile.hasKey, cString_of_not_mem hnul, set_mData]
    exact iff_of_true rfl fun h => absurd h hnul

/-- **Sizes that were set.** They read back, whatever the default is, exactly if they do not need all 64 bits
or are printed with a letter, and the key is found. -/
theorem diskSize_round_trip_iff (ini : IniFile) (env : Text → Text) (einval : Bool) (key : Text) (v : UInt64) :
    (∀ d, Returns ((ini.set key (.setDiskSize v)).getDiskSize env einval key d) v) ↔
      (v.toNat < 9223372036854775808 ∨ 1024 ∣ v.toNat) ∧ (0 ∈ key → (ini.mData (cString key)).isSome = true) := by
  have hset := set_mData ini key (.setDiskSize v)
  obtain ⟨hpercent, hlength⟩ := diskSizeText_plain v
  rw [← hasKey_set_iff ini key (.setDiskSize v), ← parseDiskSize_diskSizeText_iff einval]
  unfold IniFile.getDiskSize
  rw [getValue_always_iff (show (0 : UInt64) ≠ 1 by decide) hset hpercent]
  constructor
  · intro h
    exact ⟨h.2.2, h.1⟩
  · intro ⟨hparsed, hfound⟩
    exact ⟨hfound, hlength, hparsed⟩

/-- Nine quintillion and an odd byte. -/
theorem odd_size_is_lost : ¬ ∀ (ini : IniFile) (env : Text → Text) (einval : Bool) (key : Text) (v d : UInt64),
    Returns ((ini.set key (.setDiskSize v)).getDiskSize env einval key d) v := by
  intro h
  have hset := set_mData (IniFile.new []) [] (.setDiskSize 9223372036854775809)
  have hread := h (IniFile.new []) (fun _ => []) true [] 9223372036854775809
  unfold IniFile.getDiskSize at hread
  rw [getValue_always_iff (show (0 : UInt64) ≠ 1 by decide) hset (by decide)] at hread
  exact absurd hread.2.2 (by decide)

end Goldfish.Files

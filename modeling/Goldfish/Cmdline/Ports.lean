import Goldfish.Lib.Strtol

/-!
# Goldfish.Cmdline.Ports

The options that take port numbers (`cmdline-option.cpp`): `-port`, `-ports` and the port of
the modem simulator.

`strtol` gives 64 bits and the parsers look at 32 of them, so a numeral may be taken as a
port that it does not denote (`TakenAs`). `portOf_iff` and `android_parse_ports_option_iff`
say what is accepted; it is what has been asked for exactly if no such numeral is in the
string, and for `-port`, from which the port of adb follows, it is not 65535
(`port_options_exact_iff`).
-/

namespace Goldfish.Cmdline

open Goldfish.Lib

/-- A C string without its NUL. -/
abbrev Text := List UInt8

/-- The largest `uint16_t`. -/
def UINT16_MAX : Int32 := 65535

/-- A port that is parsed alone, as `-port` and `modem_simulator_parse_port_option` do it. -/
def portOf (einval : Bool) (port_string : Text) : Option Int32 :=
  let conversion := strtol0 einval port_string
  let port := Int32.ofInt conversion.value
  if conversion.rest.headD 0 ≠ 0 ∨ conversion.errno ∨ port < 1 ∨ port > UINT16_MAX then none else some port

/-- What is returned, and the two variables behind the pointers. -/
def android_parse_port_option (einval : Bool) (port_string : Option Text) (console_port adb_port : Int32) :
    Bool × Int32 × Int32 :=
  match port_string.bind (portOf einval) with
  | none => (false, console_port, adb_port)
  | some port => (true, port, port + 1)

/-- `modem_simulator_parse_port_option`: success, and the port. -/
def modem_simulator_parse_port_option (einval : Bool) (port_string : Option Text) (modem_simulator_port : Int32) :
    Bool × Int32 :=
  match port_string.bind (portOf einval) with
  | none => (false, modem_simulator_port)
  | some port => (true, port)

/-- `android_parse_ports_option`: success, and the two ports. -/
def android_parse_ports_option (einval : Bool) (ports_string : Option Text) (console_port adb_port : Int32) :
    Bool × Int32 × Int32 :=
  match ports_string with
  | none => (false, console_port, adb_port)
  | some text =>
    let first := strtol0 einval text
    let first_port := Int32.ofInt first.value
    if first.rest.headD 0 ≠ ','.toUInt8 ∨ first_port < 1 ∨ first_port > UINT16_MAX then
      (false, console_port, adb_port)
    else
      let second := strtol0 einval first.rest.tail
      let second_port := Int32.ofInt second.value
      if second.rest.headD 0 ≠ 0 ∨ second_port < 1 ∨ second_port > UINT16_MAX then (false, console_port, adb_port)
      else if first_port = second_port then (false, console_port, adb_port)
      else (true, first_port, second_port)

/-! ### Narrowing -/

/-- The number fits in 64 bits, and 32 of them are the port. -/
structure TakenAs (v p : Int) : Prop where
  fits : LLONG_MIN ≤ v ∧ v ≤ LLONG_MAX
  low : p = v.bmod 4294967296
  range : 1 ≤ p ∧ p ≤ 65535

/-- A number that a port may have. -/
def InRange (p : Int) : Prop := 1 ≤ p ∧ p ≤ 65535

theorem takenAs_self {p : Int} (h : InRange p) : TakenAs p p where
  fits := ⟨Int.le_trans (by decide) h.1, Int.le_trans h.2 (by decide)⟩
  low := (Int.bmod_eq_of_le (Int.le_trans (by decide) h.1) (Int.lt_of_le_of_lt h.2 (by decide))).symm
  range := h

theorem not_out_of_range_iff {port : Int32} : ¬ (port < 1 ∨ port > UINT16_MAX) ↔ InRange port.toInt := by
  rw [not_or, gt_iff_lt, Int32.lt_iff_toInt_lt, Int32.lt_iff_toInt_lt, Int.not_lt, Int.not_lt]
  exact Iff.rfl

section Strtol

variable {einval : Bool} {text rest : Text} {v p : Int}

theorem strtol0_of_scan0 (hscan : scan0 text = some (v, rest)) (hfits : LLONG_MIN ≤ v ∧ v ≤ LLONG_MAX) :
    strtol0 einval text = ⟨v, rest, false⟩ := by
  rw [strtol0, hscan]
  dsimp only
  rw [if_neg (by omega), if_neg (by omega)]

/-- **What is taken as a port**: nothing that does not fit, as the limits are no ports. -/
theorem exists_scan0_of_inRange (h : InRange (Int32.ofInt (strtol0 einval text).value).toInt) :
    ∃ v rest, scan0 text = some (v, rest) ∧ TakenAs v (Int32.ofInt (strtol0 einval text).value).toInt := by
  unfold strtol0 at h ⊢
  split at h
  · have hzero : 1 ≤ (Int32.ofInt 0).toInt := h.1
    exact absurd hzero (by decide)
  · rename_i v rest hscan
    split at h
    · have hmin : 1 ≤ (Int32.ofInt LLONG_MIN).toInt := h.1
      exact absurd hmin (by decide)
    split at h
    · have hmax : 1 ≤ (Int32.ofInt LLONG_MAX).toInt := h.1
      exact absurd hmax (by decide)
    · rename_i hlow hhigh
      refine ⟨v, rest, hscan, ?_⟩
      rw [if_neg hlow, if_neg hhigh]
      exact ⟨⟨by omega, by omega⟩, Int32.toInt_ofInt, h⟩

theorem TakenAs.inRange (h : TakenAs v p) : InRange (Int32.ofInt v).toInt := by
  have hlow := h.low
  rw [Int32.toInt_ofInt]
  exact hlow ▸ h.range

theorem TakenAs.ofInt_eq {port : Int32} (h : TakenAs v port.toInt) : Int32.ofInt v = port := by
  rw [← Int32.toInt_inj, Int32.toInt_ofInt]
  exact h.low.symm

theorem toInt_ofInt_of_inRange (h : InRange p) : (Int32.ofInt p).toInt = p := by
  have hlow := (takenAs_self h).low
  rw [Int32.toInt_ofInt]
  exact hlow.symm

/-- The port is a number of 32 bits. -/
theorem TakenAs.ofInt (h : TakenAs v p) : TakenAs v (Int32.ofInt p).toInt := by
  rwa [toInt_ofInt_of_inRange h.range]

theorem ofInt_ne {q : Int} (hp : InRange p) (hq : InRange q) (hne : p ≠ q) : Int32.ofInt p ≠ Int32.ofInt q := by
  intro heq
  apply hne
  rw [← toInt_ofInt_of_inRange hp, ← toInt_ofInt_of_inRange hq, heq]

/-- A character behind which nothing is left in a string. -/
theorem eq_nil_of_headD {rest : Text} (hnul : 0 ∉ rest) (h : rest.headD 0 = 0) : rest = [] := by
  cases rest with
  | nil => rfl
  | cons c rest => exact absurd (h ▸ List.mem_cons_self) hnul

theorem nul_not_mem_rest (hnul : 0 ∉ text) (hscan : scan0 text = some (v, rest)) : 0 ∉ rest := by
  obtain ⟨number, rfl, -⟩ := exists_numeral0_of_scan0 hscan
  exact fun h => hnul (List.mem_append_right number h)

/-! ### What is accepted -/

/-- **A port**: the whole string is a numeral that is taken as this port. -/
theorem portOf_iff (hnul : 0 ∉ text) {port : Int32} :
    portOf einval text = some port ↔ ∃ v, Numeral0 text v ∧ TakenAs v port.toInt := by
  have hcases : portOf einval text = some port ↔ (strtol0 einval text).rest.headD 0 = 0 ∧
      (strtol0 einval text).errno = false ∧ InRange (Int32.ofInt (strtol0 einval text).value).toInt ∧
        Int32.ofInt (strtol0 einval text).value = port := by
    rw [portOf, ← not_out_of_range_iff]
    split
    · rename_i h
      refine iff_of_false (by simp) fun hport => ?_
      rcases h with h | h | h
      · exact h hport.1
      · rw [hport.2.1] at h
        cases h
      · exact hport.2.2.1 h
    · rename_i h
      rw [not_or, not_or, not_not, Bool.not_eq_true] at h
      rw [Option.some_inj]
      exact ⟨fun hport => ⟨h.1, h.2.1, h.2.2, hport⟩, fun hport => hport.2.2.2⟩
  rw [hcases]
  constructor
  · rintro ⟨hrest, -, hrange, hport⟩
    obtain ⟨v, rest, hscan, htaken⟩ := exists_scan0_of_inRange hrange
    rw [strtol0_of_scan0 hscan htaken.fits] at hrest
    obtain rfl := eq_nil_of_headD (nul_not_mem_rest hnul hscan) hrest
    exact ⟨v, numeral0_iff.mpr hscan, hport ▸ htaken⟩
  · rintro ⟨v, hnumeral, htaken⟩
    rw [strtol0_of_scan0 (numeral0_iff.mp hnumeral) htaken.fits]
    exact ⟨rfl, rfl, htaken.inRange, htaken.ofInt_eq⟩

theorem stops_comma (rest : Text) : Stops (','.toUInt8 :: rest) := by
  intro c hc
  obtain rfl : ','.toUInt8 = c := Option.some.inj hc
  exact ⟨by decide, by decide, by decide⟩

/-- Both checks, and the two numbers. -/
theorem android_parse_ports_option_eq_true (console_port adb_port : Int32) {x y : Int32} :
    android_parse_ports_option einval (some text) console_port adb_port = (true, x, y) ↔
      ((strtol0 einval text).rest.headD 0 = ','.toUInt8 ∧ InRange (Int32.ofInt (strtol0 einval text).value).toInt) ∧
      ((strtol0 einval (strtol0 einval text).rest.tail).rest.headD 0 = 0 ∧
        InRange (Int32.ofInt (strtol0 einval (strtol0 einval text).rest.tail).value).toInt) ∧
      Int32.ofInt (strtol0 einval text).value = x ∧
      Int32.ofInt (strtol0 einval (strtol0 einval text).rest.tail).value = y ∧ x ≠ y := by
  rw [android_parse_ports_option]
  dsimp only
  rw [← not_out_of_range_iff, ← not_out_of_range_iff]
  split
  · rename_i h
    refine iff_of_false (by simp) fun hports => ?_
    exact h.elim (fun h => h hports.1.1) hports.1.2
  rename_i hfirst
  rw [not_or, not_not] at hfirst
  split
  · rename_i h
    refine iff_of_false (by simp) fun hports => ?_
    exact h.elim (fun h => h hports.2.1.1) hports.2.1.2
  rename_i hsecond
  rw [not_or, not_not] at hsecond
  split
  · rename_i h
    refine iff_of_false (by simp) fun hports => ?_
    exact hports.2.2.2.2 (hports.2.2.1.symm.trans (h.trans hports.2.2.2.1))
  · rename_i h
    rw [Prod.mk.injEq, Prod.mk.injEq, eq_self, true_and]
    constructor
    · rintro ⟨rfl, rfl⟩
      exact ⟨hfirst, hsecond, rfl, rfl, h⟩
    · rintro ⟨-, -, hx, hy, -⟩
      exact ⟨hx, hy⟩

/-- **Two ports**: numerals that are taken as these ports, with a comma between them. -/
theorem android_parse_ports_option_iff (hnul : 0 ∉ text) (console_port adb_port : Int32) {x y : Int32} :
    android_parse_ports_option einval (some text) console_port adb_port = (true, x, y) ↔
      ∃ first second v w, text = first ++ ','.toUInt8 :: second ∧ Numeral0 first v ∧ Numeral0 second w ∧
        TakenAs v x.toInt ∧ TakenAs w y.toInt ∧ x ≠ y := by
  rw [android_parse_ports_option_eq_true]
  constructor
  · rintro ⟨⟨hcomma, hfirst⟩, ⟨hend, hsecond⟩, rfl, rfl, hne⟩
    obtain ⟨v, rest, hscan, htaken⟩ := exists_scan0_of_inRange hfirst
    obtain ⟨first, rfl, hnumeral⟩ := exists_numeral0_of_scan0 hscan
    rw [strtol0_of_scan0 hscan htaken.fits] at hcomma hend hsecond htaken hne ⊢
    dsimp only at hcomma hend hsecond htaken hne ⊢
    obtain ⟨second, rfl⟩ : ∃ second, rest = ','.toUInt8 :: second := by
      cases rest with
      | nil =>
        have hzero : (0 : UInt8) = ','.toUInt8 := hcomma
        exact absurd hzero (by decide)
      | cons c second => exact ⟨second, congrArg (· :: second) hcomma⟩
    rw [List.tail_cons] at hend hsecond hne ⊢
    obtain ⟨w, rest, hscan', htaken'⟩ := exists_scan0_of_inRange hsecond
    have hnul' : 0 ∉ second := fun h => hnul (List.mem_append_right _ (List.mem_cons_of_mem _ h))
    rw [strtol0_of_scan0 hscan' htaken'.fits] at hend
    obtain rfl := eq_nil_of_headD (nul_not_mem_rest hnul' hscan') hend
    exact ⟨first, second, v, w, rfl, hnumeral, numeral0_iff.mpr hscan', htaken, htaken', hne⟩
  · rintro ⟨first, second, v, w, rfl, hv, hw, hx, hy, hne⟩
    have hscan := scan0_append hv (stops_comma second)
    rw [strtol0_of_scan0 hscan hx.fits, List.tail_cons, strtol0_of_scan0 (numeral0_iff.mp hw) hy.fits]
    exact ⟨⟨rfl, hx.inRange⟩, ⟨rfl, hy.inRange⟩, hx.ofInt_eq, hy.ofInt_eq, hne⟩

/-- The variables are not touched where nothing is accepted. -/
theorem android_parse_ports_option_false {console_port adb_port : Int32}
    (h : (android_parse_ports_option einval (some text) console_port adb_port).1 = false) :
    android_parse_ports_option einval (some text) console_port adb_port = (false, console_port, adb_port) := by
  unfold android_parse_ports_option at h ⊢
  dsimp only at h ⊢
  split
  · rfl
  split
  · rfl
  split
  · rfl
  · rename_i h₁ h₂ h₃
    rw [if_neg h₁, if_neg h₂, if_neg h₃] at h
    cases h

end Strtol

/-! ### What has been asked for -/

/-- `-port` is exact: a numeral of a port with a port behind it, and nothing else, and untouched variables for
anything else. -/
def PortExact (text : Text) : Prop :=
  ∀ einval console_port adb_port,
    (∀ p, Numeral0 text p → InRange p → InRange (p + 1) →
      ∃ x y, android_parse_port_option einval (some text) console_port adb_port = (true, x, y) ∧
        x.toInt = p ∧ y.toInt = p + 1) ∧
    ((¬ ∃ p, Numeral0 text p ∧ InRange p ∧ InRange (p + 1)) →
      android_parse_port_option einval (some text) console_port adb_port = (false, console_port, adb_port))

/-- `-ports` is exact: numerals of two different ports, with a comma between them. -/
def PortsExact (text : Text) : Prop :=
  ∀ einval console_port adb_port,
    (∀ first second p q, text = first ++ ','.toUInt8 :: second → Numeral0 first p → Numeral0 second q →
      InRange p → InRange q → p ≠ q →
        ∃ x y, android_parse_ports_option einval (some text) console_port adb_port = (true, x, y) ∧
          x.toInt = p ∧ y.toInt = q) ∧
    ((¬ ∃ first second p q, text = first ++ ','.toUInt8 :: second ∧ Numeral0 first p ∧ Numeral0 second q ∧
        InRange p ∧ InRange q ∧ p ≠ q) →
      android_parse_ports_option einval (some text) console_port adb_port = (false, console_port, adb_port))

/-- A numeral that is taken as a port denotes it, and there is a port behind it. -/
def PortDenoted (text : Text) : Prop := ∀ v p, Numeral0 text v → TakenAs v p → v = p ∧ p ≠ 65535

/-- Numerals that are taken as two different ports denote them. -/
def PortsDenoted (text : Text) : Prop :=
  ∀ first second v w p q, text = first ++ ','.toUInt8 :: second → Numeral0 first v → Numeral0 second w →
    TakenAs v p → TakenAs w q → p ≠ q → v = p ∧ w = q

theorem android_parse_port_option_some (einval : Bool) (text : Text) (console_port adb_port : Int32) :
    android_parse_port_option einval (some text) console_port adb_port =
      match portOf einval text with
      | none => (false, console_port, adb_port)
      | some port => (true, port, port + 1) := rfl

theorem toInt_add_one {port : Int32} (h : InRange port.toInt) : (port + 1).toInt = port.toInt + 1 := by
  have hone : (1 : Int32).toInt = 1 := rfl
  rw [Int32.toInt_add, hone]
  exact Int.bmod_eq_of_le (by have := h.1; omega) (by have := h.2; omega)

theorem portExact_iff {text : Text} (hnul : 0 ∉ text) : PortExact text ↔ PortDenoted text := by
  constructor
  · intro h v p hnumeral htaken
    have hport : portOf true text = some (Int32.ofInt p) :=
      (portOf_iff hnul).mpr ⟨v, hnumeral, htaken.ofInt⟩
    obtain ⟨hyes, hno⟩ := h true 0 0
    rw [android_parse_port_option_some, hport] at hyes hno
    -- the numeral is accepted, so it had to be
    obtain ⟨p', hnumeral', hrange, hnext⟩ : ∃ p, Numeral0 text p ∧ InRange p ∧ InRange (p + 1) := by
      by_contra hnone
      cases hno hnone
    obtain ⟨x, y, heq, hx, -⟩ := hyes p' hnumeral' hrange hnext
    obtain ⟨rfl, -⟩ := Prod.mk.inj (Prod.mk.inj heq).2
    rw [toInt_ofInt_of_inRange htaken.range] at hx
    have hlt := hnext.2
    exact ⟨(hnumeral.unique hnumeral').trans hx.symm, by omega⟩
  · intro h einval console_port adb_port
    rw [android_parse_port_option_some]
    constructor
    · intro p hnumeral hrange hnext
      have hport : portOf einval text = some (Int32.ofInt p) :=
        (portOf_iff hnul).mpr ⟨p, hnumeral, (takenAs_self hrange).ofInt⟩
      rw [hport]
      have hp := toInt_ofInt_of_inRange hrange
      exact ⟨_, _, rfl, hp, by rw [toInt_add_one (hp.symm ▸ hrange), hp]⟩
    · intro hnone
      cases hport : portOf einval text with
      | none => rfl
      | some port =>
        obtain ⟨v, hnumeral, htaken⟩ := (portOf_iff hnul).mp hport
        obtain ⟨rfl, hne⟩ := h v port.toInt hnumeral htaken
        have hrange := htaken.range
        exact absurd ⟨_, hnumeral, hrange, by omega, by omega⟩ hnone

theorem portsExact_iff {text : Text} (hnul : 0 ∉ text) : PortsExact text ↔ PortsDenoted text := by
  constructor
  · intro h first second v w p q htext hv hw hp hq hne
    obtain ⟨hyes, hno⟩ := h true 0 0
    have hx := toInt_ofInt_of_inRange hp.range
    have hy := toInt_ofInt_of_inRange hq.range
    have htrue : android_parse_ports_option true (some text) 0 0 = (true, Int32.ofInt p, Int32.ofInt q) :=
      (android_parse_ports_option_iff hnul 0 0).mpr
        ⟨first, second, v, w, htext, hv, hw, hp.ofInt, hq.ofInt, ofInt_ne hp.range hq.range hne⟩
    rw [htrue] at hyes hno
    -- the numerals are accepted, so they had to be
    obtain ⟨first', second', p', q', htext', hv', hw', hrange, hrange', hdiff⟩ : ∃ first second p q,
        text = first ++ ','.toUInt8 :: second ∧ Numeral0 first p ∧ Numeral0 second q ∧
          InRange p ∧ InRange q ∧ p ≠ q := by
      by_contra hnone
      cases hno hnone
    obtain ⟨x, y, heq, hxp, hyq⟩ := hyes first' second' p' q' htext' hv' hw' hrange hrange' hdiff
    obtain ⟨rfl, rfl⟩ := Prod.mk.inj (Prod.mk.inj heq).2
    have hscan := scan0_append hv (stops_comma second)
    have hscan' := scan0_append hv' (stops_comma second')
    rw [← htext] at hscan
    rw [← htext'] at hscan'
    obtain ⟨rfl, hrest⟩ := Prod.mk.inj (Option.some.inj (hscan.symm.trans hscan'))
    obtain rfl := (List.cons.inj hrest).2
    exact ⟨hxp.symm.trans hx, (hw.unique hw').trans (hyq.symm.trans hy)⟩
  · intro h einval console_port adb_port
    constructor
    · intro first second p q htext hp hq hrange hrange' hne
      refine ⟨_, _,
        (android_parse_ports_option_iff hnul console_port adb_port).mpr ⟨first, second, p, q, htext, hp, hq,
        (takenAs_self hrange).ofInt, (takenAs_self hrange').ofInt, ofInt_ne hrange hrange' hne⟩, ?_, ?_⟩
      · exact toInt_ofInt_of_inRange hrange
      · exact toInt_ofInt_of_inRange hrange'
    · intro hnone
      refine android_parse_ports_option_false ?_
      by_contra htrue
      obtain ⟨x, y, heq⟩ : ∃ x y,
          android_parse_ports_option einval (some text) console_port adb_port = (true, x, y) :=
        ⟨_, _, Prod.ext (Bool.not_eq_false _ ▸ htrue) rfl⟩
      obtain ⟨first, second, v, w, htext, hv, hw, hx, hy, hne⟩ :=
        (android_parse_ports_option_iff hnul console_port adb_port).mp heq
      have hdiff : x.toInt ≠ y.toInt := fun h => hne (Int32.toInt_inj.mp h)
      obtain ⟨rfl, rfl⟩ := h first second v w x.toInt y.toInt htext hv hw hx hy hdiff
      exact hnone ⟨first, second, _, _, htext, hv, hw, hx.range, hy.range, hdiff⟩

/-- **Port options are exact** exactly if no numeral is taken as a port that it does not denote and, for
`-port`, none as the last one. -/
theorem port_options_exact_iff (text : Text) (hnul : 0 ∉ text) :
    (PortExact text ↔ PortDenoted text) ∧ (PortsExact text ↔ PortsDenoted text) :=
  ⟨portExact_iff hnul, portsExact_iff hnul⟩

theorem port_options_exact_default : 0 ∉ literal " 0x15B2" ∧ PortExact (literal " 0x15B2") ∧
    android_parse_port_option true (some (literal " 0x15B2")) 0 0 = (true, 5554, 5555) := by
  have hnul : 0 ∉ literal " 0x15B2" := by decide
  refine ⟨hnul, (port_options_exact_iff _ hnul).1.mpr ?_, by decide⟩
  intro v p hnumeral htaken
  obtain rfl : v = 5554 := hnumeral.unique (numeral0_iff.mpr (by decide))
  have hlow : p = 5554 := htaken.low
  omega

/-- 2^32 + 1 is taken for 1, and there is no port behind 65535. -/
theorem narrowed_ports :
    (android_parse_port_option true (some (literal "4294967297")) 0 0 = (true, 1, 2) ∧
        ¬ PortExact (literal "4294967297")) ∧
      (android_parse_port_option true (some (literal "65535")) 0 0 = (true, 65535, 65536) ∧
        ¬ PortExact (literal "65535")) ∧
      android_parse_ports_option true (some (literal "4294967297,2")) 0 0 = (true, 1, 2) ∧
        ¬ PortsExact (literal "4294967297,2") := by
  have hwide : Numeral0 (literal "4294967297") 4294967297 := numeral0_iff.mpr (by decide)
  have htaken : TakenAs 4294967297 1 := ⟨by decide, by decide, by decide⟩
  have htwo : Numeral0 (literal "2") 2 := numeral0_iff.mpr (by decide)
  refine ⟨⟨by decide, ?_⟩, ⟨by decide, ?_⟩, by decide, ?_⟩
  · intro h
    exact absurd ((portExact_iff (by decide)).mp h _ _ hwide htaken).1 (by decide)
  · intro h
    have hlast : Numeral0 (literal "65535") 65535 := numeral0_iff.mpr (by decide)
    exact ((portExact_iff (by decide)).mp h _ _ hlast (takenAs_self ⟨by decide, by decide⟩)).2 rfl
  · intro h
    have hports := (portsExact_iff (by decide)).mp h (literal "4294967297") (literal "2") _ _ 1 2 rfl hwide htwo
      htaken (takenAs_self ⟨by decide, by decide⟩) (by decide)
    exact absurd hports.1 (by decide)

end Goldfish.Cmdline

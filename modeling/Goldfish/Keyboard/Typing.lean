import Goldfish.Keyboard.KeyConversion
import Goldfish.Lib.CStrings
import Goldfish.Lib.Utf8

/-!
# Goldfish.Keyboard.Typing

Typing a text (`sendUtf8String` of `KeyEventSender.cpp`). The loop takes the first byte of
what it takes for a character as soon as the next character begins, and where that character
begins is known only by its lead byte: behind a character of several bytes it is a
continuation byte that is looked up, and the next character is not (`sendUtf8String_eq`).

So a text is typed completely if nothing behind the table is read, or answers, and no
character with a key comes behind one of several bytes (`typed_iff`).
-/

namespace Goldfish.Keyboard

open Goldfish.Lib

/-! ### The loop -/

/-- How a call can go wrong. -/
inductive Fault where
  | outOfBounds
  | assertion
  deriving DecidableEq, Repr

/-- The conversion of a `char`, which is signed. -/
def toUnsignedShort (c : UInt8) : UInt16 := c.toInt8.toInt16.toUInt16

/-- The keys of one character, down and up. -/
def sendCharacter (behind : Behind) (c : UInt8) : Except Fault (List QemuKeyEvent) :=
  match asciiToQcode behind (toUnsignedShort c) true, asciiToQcode behind (toUnsignedShort c) false with
  | some down, some up => .ok (down ++ up)
  | _, _ => .error .outOfBounds

/-- The loop of `sendUtf8String`, with its two pointers as positions, over what it sends for a character. -/
def sendFrom (send : UInt8 → Except Fault (List QemuKeyEvent)) (utf8 : List UInt8) (start stop : Nat) :
    Except Fault (List QemuKeyEvent) :=
  match _h : charAt utf8 stop with
  | none => .error .outOfBounds
  | some ch =>
    if ch = 0 then .ok []
    else if ch &&& 0xC0 ≠ 0x80 then
      if ¬ start < stop + 1 then .error .assertion
      else if ¬ stop + 1 - start ≤ 4 then .error .assertion
      else
        match charAt utf8 start with
        | none => .error .outOfBounds
        | some c =>
          match send c with
          | .error fault => .error fault
          | .ok events => (sendFrom send utf8 (stop + 1) (stop + 1)).map (events ++ ·)
    else sendFrom send utf8 start (stop + 1)
termination_by utf8.length + 1 - stop
decreasing_by
  all_goals
    have := lt_of_charAt _h
    omega

/-- `sendUtf8String`. -/
def sendUtf8String (behind : Behind) (utf8 : List UInt8) : Except Fault (List QemuKeyEvent) :=
  sendFrom (sendCharacter behind) utf8 0 0

/-! ### Character by character -/

/-- The first byte of a character. -/
def leadByte (c : Char) : UInt8 := (String.utf8EncodeChar c).headD 0

/-- The byte that is left over behind a character. -/
def leftOver (c : Char) : Option UInt8 := (String.utf8EncodeChar c)[1]?

/-- What is sent for a text, by its characters: a byte that is left over is sent in place of the next one. -/
def sendCharacters (send : UInt8 → Except Fault (List QemuKeyEvent)) :
    Option UInt8 → List Char → Except Fault (List QemuKeyEvent)
  | _, [] => .ok []
  | stale, c :: text =>
      match send (stale.getD (leadByte c)) with
      | .error fault => .error fault
      | .ok events => (sendCharacters send (leftOver c) text).map (events ++ ·)

section Loop

variable {send : UInt8 → Except Fault (List QemuKeyEvent)} {before rest : List UInt8} {start : Nat}

/-- Continuation bytes are passed by. -/
theorem sendFrom_continuation (conts : List UInt8) (hconts : ∀ b ∈ conts, b &&& 0xC0 = 0x80) :
    sendFrom send (before ++ conts ++ rest) start before.length =
      sendFrom send (before ++ conts ++ rest) start (before ++ conts).length := by
  induction conts generalizing before with
  | nil => rw [List.append_nil]
  | cons b conts ih =>
    obtain ⟨hb, hconts⟩ := List.forall_mem_cons.mp hconts
    have hread : charAt (before ++ b :: conts ++ rest) before.length = some b := by
      rw [List.append_assoc, List.cons_append]
      exact charAt_append before b _
    have hne : b ≠ 0 := by
      rintro rfl
      exact absurd hb (by decide)
    have hstep : sendFrom send (before ++ b :: conts ++ rest) start before.length =
        sendFrom send (before ++ b :: conts ++ rest) start (before.length + 1) := by
      rw [sendFrom, hread]
      simp only [if_neg hne, ne_eq, hb, not_true_eq_false, if_false]
    have hmove : before ++ b :: conts = before ++ [b] ++ conts := by simp
    rw [hstep, hmove, ← ih hconts]
    simp

/-- Where `start` points to: the next character, or the byte that the last one has left over. -/
def PointsTo (before : List UInt8) (start : Nat) : Option UInt8 → Prop
  | none => start = before.length
  | some b => before[start]? = some b ∧ before.length ≤ start + 3

/-- At a lead byte, what `start` points to is sent. -/
theorem sendFrom_lead {stale : Option UInt8} {lead : UInt8} (hstart : PointsTo before start stale)
    (hne : lead ≠ 0) (hlead : lead &&& 0xC0 ≠ 0x80) :
    sendFrom send (before ++ lead :: rest) start before.length =
      match send (stale.getD lead) with
      | .error fault => .error fault
      | .ok events =>
          (sendFrom send (before ++ lead :: rest) (before.length + 1) (before.length + 1)).map (events ++ ·) := by
  have hfacts : start < before.length + 1 ∧ before.length + 1 - start ≤ 4 ∧
      charAt (before ++ lead :: rest) start = some (stale.getD lead) := by
    cases stale with
    | none =>
      obtain rfl : start = before.length := hstart
      exact ⟨by omega, by omega, charAt_append before lead rest⟩
    | some b =>
      obtain ⟨hb, hnear⟩ := hstart
      obtain ⟨hlt, hget⟩ := List.getElem?_eq_some_iff.mp hb
      refine ⟨by omega, by omega, ?_⟩
      rw [charAt, List.append_assoc, List.getElem?_append_left hlt, hb]
      rfl
  obtain ⟨hbefore, hlength, hread⟩ := hfacts
  rw [sendFrom, charAt_append before lead rest]
  simp only [if_neg hne, ne_eq, hlead, not_false_eq_true, if_true, hbefore, hlength, not_true_eq_false, if_false,
    hread]

/-- **The loop, character by character.** -/
theorem sendFrom_eq {stale : Option UInt8} {text : List Char} (hnul : ∀ c ∈ text, c.toNat ≠ 0)
    (hstart : PointsTo before start stale) :
    sendFrom send (before ++ utf8 text) start before.length = sendCharacters send stale text := by
  induction text generalizing before start stale with
  | nil =>
    have hread : charAt (before ++ []) before.length = some 0 := by
      rw [List.append_nil]
      exact charAt_length before
    rw [utf8_nil, sendFrom, hread]
    rfl
  | cons c text ih =>
    obtain ⟨hc, hnul⟩ := List.forall_mem_cons.mp hnul
    rcases utf8EncodeChar_cases c with ⟨hlt, hone⟩ | ⟨-, lead, cont, conts, hmore, hlead, hcont, hconts, hlength⟩
    · have hval : c.val.toUInt8.toNat = c.toNat := by
        rw [UInt32.toNat_toUInt8]
        exact Nat.mod_eq_of_lt (Nat.lt_trans hlt (by decide))
      have hne : c.val.toUInt8 ≠ 0 := by
        intro h
        rw [h] at hval
        exact hc hval.symm
      have hlead : c.val.toUInt8 &&& 0xC0 ≠ 0x80 := by
        intro h
        have hle : 128 ≤ c.val.toUInt8.toNat := toNat_of_and_high h
        omega
      have hbehind : sendFrom send (before ++ [c.val.toUInt8] ++ utf8 text) (before ++ [c.val.toUInt8]).length
          (before ++ [c.val.toUInt8]).length = sendCharacters send none text := ih hnul rfl
      rw [List.append_assoc, List.singleton_append, List.length_append, List.length_singleton] at hbehind
      rw [utf8_cons, hone, List.singleton_append, sendFrom_lead hstart hne hlead, hbehind, sendCharacters, leadByte,
        leftOver, hone]
      rfl
    · have hne : lead ≠ 0 := by
        rintro rfl
        exact absurd hlead (by decide)
      have hstart' : PointsTo (before ++ [lead] ++ (cont :: conts)) (before.length + 1) (some cont) := by
        refine ⟨?_, ?_⟩
        · rw [List.getElem?_append_right (by simp)]
          simp
        · simp only [List.length_append, List.length_cons, List.length_nil]
          omega
      have hskip : sendFrom send (before ++ [lead] ++ (cont :: conts) ++ utf8 text) (before.length + 1)
          (before ++ [lead]).length = sendFrom send (before ++ [lead] ++ (cont :: conts) ++ utf8 text)
            (before.length + 1) (before ++ [lead] ++ (cont :: conts)).length :=
        sendFrom_continuation _ (List.forall_mem_cons.mpr ⟨hcont, hconts⟩)
      have hbehind := hskip.trans (ih hnul hstart')
      have hbytes : before ++ [lead] ++ (cont :: conts) ++ utf8 text =
          before ++ lead :: (cont :: conts ++ utf8 text) := by simp
      rw [hbytes, List.length_append, List.length_singleton] at hbehind
      rw [utf8_cons, hmore, List.cons_append, sendFrom_lead hstart hne (by rw [hlead]; decide), hbehind,
        sendCharacters, leadByte, leftOver, hmore]
      rfl

end Loop

theorem sendUtf8String_eq (behind : Behind) {text : List Char} (hnul : ∀ c ∈ text, c.toNat ≠ 0) :
    sendUtf8String behind (utf8 text) = sendCharacters (sendCharacter behind) none text := by
  have hstart : PointsTo [] 0 none := rfl
  exact sendFrom_eq hnul hstart

/-! ### What is typed -/

/-- A character pressed and released. -/
def keystroke (unicode : UInt16) : List QemuKeyEvent :=
  strokes (keysFor unicode) true ++ strokes (keysFor unicode) false

/-- What is to be sent for a character. -/
def typed (c : Char) : List QemuKeyEvent := if c.toNat < 128 then keystroke c.toNat.toUInt16 else []

/-- The character is on a key by itself. -/
def HasKey (c : Char) : Prop := ∃ key ∈ cmap, key.base.toNat = c.toNat

/-- What can be read behind the table is no entry for any byte but NUL. -/
def Quiet (behind : Behind) : Prop := ∀ c, c ≠ 0 → Silent behind (toUnsignedShort c)

section Bytes

theorem toNat_toUnsignedShort (c : UInt8) :
    (toUnsignedShort c).toNat = c.toNat + if 128 ≤ c.toNat then 0xFF00 else 0 := by
  have hc := c.toNat_lt
  show (c.toBitVec.signExtend 16).toNat = _
  rw [BitVec.toNat_signExtend, BitVec.msb_eq_decide, BitVec.toNat_setWidth, UInt8.toNat_toBitVec]
  simp only [decide_eq_true_eq]
  congr 1
  omega

theorem cmap_lt : ∀ key ∈ cmap, key.base.toNat < 128 ∧ key.caps.toNat < 0xFF80 ∧ key.fn.toNat < 0xFF80 ∧
    key.capsFn.toNat < 0xFF80 := by decide

/-- A byte beyond ASCII is not in the table. -/
theorem keysFor_of_le {unicode : UInt16} (h : 0xFF80 ≤ unicode.toNat) : keysFor unicode = [] := by
  have hnone : ∀ column : SkinKeyEntry → UInt16, (∀ key ∈ cmap, (column key).toNat < 0xFF80) →
      cmap.find? (column · = unicode) = none := by
    intro column hcolumn
    rw [List.find?_eq_none]
    intro key hkey
    rw [decide_eq_true_eq]
    rintro rfl
    exact absurd h (Nat.not_le.mpr (hcolumn key hkey))
  rw [keysFor, hnone SkinKeyEntry.base fun key hkey => Nat.lt_trans (cmap_lt key hkey).1 (by decide),
    hnone SkinKeyEntry.caps fun key hkey => (cmap_lt key hkey).2.1,
    hnone SkinKeyEntry.fn fun key hkey => (cmap_lt key hkey).2.2.1,
    hnone SkinKeyEntry.capsFn fun key hkey => (cmap_lt key hkey).2.2.2]

theorem le_toUnsignedShort {c : UInt8} (hc : 128 ≤ c.toNat) : 0xFF80 ≤ (toUnsignedShort c).toNat := by
  rw [toNat_toUnsignedShort, if_pos hc]
  omega

theorem not_isBase_of_le {c : UInt8} (hc : 128 ≤ c.toNat) : ¬ IsBase (toUnsignedShort c) := by
  rintro ⟨key, hkey, hbase⟩
  have hlt := (cmap_lt key hkey).1
  have hle := le_toUnsignedShort hc
  rw [hbase] at hlt
  omega

/-- The bytes of a character as the loop reads them. -/
theorem bytes_cases (c : Char) :
    (c.toNat < 128 ∧ toUnsignedShort (leadByte c) = c.toNat.toUInt16 ∧ leftOver c = none) ∨
      (128 ≤ c.toNat ∧ 128 ≤ (leadByte c).toNat ∧ ∃ b, leftOver c = some b ∧ 128 ≤ b.toNat) := by
  rw [leadByte, leftOver]
  rcases utf8EncodeChar_cases c with ⟨hlt, hone⟩ | ⟨hle, lead, cont, conts, hmore, hlead, hcont, -⟩
  · refine .inl ⟨hlt, ?_, by rw [hone]; rfl⟩
    have hval : c.val.toUInt8.toNat = c.toNat := by
      rw [UInt32.toNat_toUInt8]
      exact Nat.mod_eq_of_lt (Nat.lt_trans hlt (by decide))
    rw [hone, List.headD_cons, ← UInt16.toNat_inj, toNat_toUnsignedShort, hval, if_neg (by omega)]
    exact (Nat.mod_eq_of_lt (Nat.lt_trans hlt (by decide))).symm
  · have hfirst : 0xC0 ≤ lead.toNat := toNat_of_and_high hlead
    refine .inr ⟨hle, ?_, cont, by rw [hmore]; rfl, toNat_of_and_high hcont⟩
    rw [hmore, List.headD_cons]
    omega

theorem leadByte_ne_zero {c : Char} (h : c.toNat ≠ 0) : leadByte c ≠ 0 := by
  intro hzero
  rcases bytes_cases c with ⟨hlt, hlead, -⟩ | ⟨-, hlead, -⟩
  · have hnat : c.toNat.toUInt16.toNat = c.toNat := Nat.mod_eq_of_lt (Nat.lt_trans hlt (by decide))
    rw [hzero] at hlead
    rw [← hlead] at hnat
    exact h hnat.symm
  · rw [hzero] at hlead
    exact absurd hlead (by decide)

theorem typed_eq (c : Char) : typed c = keystroke (toUnsignedShort (leadByte c)) := by
  rcases bytes_cases c with ⟨hlt, hlead, -⟩ | ⟨hle, hlead, -⟩
  · rw [typed, if_pos hlt, hlead]
  · rw [typed, if_neg (by omega), keystroke, keysFor_of_le (le_toUnsignedShort hlead)]
    rfl

end Bytes

/-! ### Nothing behind the table -/

theorem sendCharacter_of_keys {behind : Behind} {c : UInt8} {keys : List QKeyCode}
    (h : ∀ down, asciiToQcode behind (toUnsignedShort c) down = some (strokes keys down)) :
    sendCharacter behind c = .ok (strokes keys true ++ strokes keys false) := by
  rw [sendCharacter, h true, h false]

theorem sendCharacter_trap {c : UInt8} (h : ¬ IsBase (toUnsignedShort c)) :
    sendCharacter trap c = .error .outOfBounds := by
  rw [sendCharacter, asciiToQcode_trap h]

theorem hasKey_iff (c : Char) : HasKey c ↔ IsBase (toUnsignedShort (leadByte c)) := by
  rcases bytes_cases c with ⟨hlt, hlead, -⟩ | ⟨hle, hlead, -⟩
  · have hnat : c.toNat.toUInt16.toNat = c.toNat := Nat.mod_eq_of_lt (Nat.lt_trans hlt (by decide))
    rw [HasKey, IsBase, hlead]
    simp only [← UInt16.toNat_inj, hnat]
  · constructor
    · rintro ⟨key, hkey, hbase⟩
      have hlt := (cmap_lt key hkey).1
      omega
    · intro h
      exact absurd h (not_isBase_of_le hlead)

theorem leftOver_of_hasKey {c : Char} (h : HasKey c) : leftOver c = none := by
  rcases bytes_cases c with ⟨-, -, hnone⟩ | ⟨-, hlead, -⟩
  · exact hnone
  · exact absurd ((hasKey_iff c).mp h) (not_isBase_of_le hlead)

/-- Characters with a key of their own are typed, whatever is behind the table. -/
theorem sendCharacters_of_hasKey (behind : Behind) {text : List Char} (h : ∀ c ∈ text, HasKey c) :
    sendCharacters (sendCharacter behind) none text = .ok (text.flatMap typed) := by
  induction text with
  | nil => rfl
  | cons c text ih =>
    obtain ⟨hc, htext⟩ := List.forall_mem_cons.mp h
    have hsend : sendCharacter behind (leadByte c) = .ok (typed c) := by
      rw [typed_eq]
      exact sendCharacter_of_keys (asciiToQcode_of_isBase ((hasKey_iff c).mp hc) behind)
    rw [sendCharacters, Option.getD_none, hsend, leftOver_of_hasKey hc, ih htext]
    rfl

/-- Any other character reads what is behind the table. -/
theorem hasKey_of_sendCharacters {text : List Char} {events : List QemuKeyEvent}
    (h : sendCharacters (sendCharacter trap) none text = .ok events) : ∀ c ∈ text, HasKey c := by
  induction text generalizing events with
  | nil => simp
  | cons c text ih =>
    rw [sendCharacters, Option.getD_none] at h
    have hc : HasKey c := by
      by_contra hc
      rw [sendCharacter_trap fun hbase => hc ((hasKey_iff c).mpr hbase)] at h
      cases h
    rw [sendCharacter_of_keys (asciiToQcode_of_isBase ((hasKey_iff c).mp hc) trap), leftOver_of_hasKey hc] at h
    cases hrest : sendCharacters (sendCharacter trap) none text with
    | error fault =>
      rw [hrest] at h
      cases h
    | ok events' => exact List.forall_mem_cons.mpr ⟨hc, ih hrest⟩

/-! ### Harmless memory behind the table -/

/-- What is typed where `after` says whether the last character had several bytes. -/
def typedAfter : (after : Bool) → List Char → List QemuKeyEvent
  | _, [] => []
  | after, c :: text => (if after then [] else typed c) ++ typedAfter (128 ≤ c.toNat) text

theorem sendCharacter_quiet {behind : Behind} (h : Quiet behind) {c : UInt8} (hc : c ≠ 0) :
    sendCharacter behind c = .ok (keystroke (toUnsignedShort c)) :=
  sendCharacter_of_keys (asciiToQcode_of_silent (h c hc))

theorem sendCharacters_quiet {behind : Behind} (h : Quiet behind) {text : List Char} (hnul : ∀ c ∈ text, c.toNat ≠ 0)
    (stale : Option UInt8) (hstale : ∀ b, stale = some b → 128 ≤ b.toNat) :
    sendCharacters (sendCharacter behind) stale text = .ok (typedAfter stale.isSome text) := by
  induction text generalizing stale with
  | nil => rfl
  | cons c text ih =>
    obtain ⟨hc, hnul⟩ := List.forall_mem_cons.mp hnul
    have hsend : sendCharacter behind (stale.getD (leadByte c)) = .ok (if stale.isSome then [] else typed c) := by
      cases stale with
      | none =>
        rw [Option.getD_none, sendCharacter_quiet h (leadByte_ne_zero hc), ← typed_eq]
        rfl
      | some b =>
        have hb := hstale b rfl
        have hne : b ≠ 0 := by
          rintro rfl
          exact absurd hb (by decide)
        rw [Option.getD_some, sendCharacter_quiet h hne, keystroke, keysFor_of_le (le_toUnsignedShort hb)]
        rfl
    rcases bytes_cases c with ⟨hlt, -, hnone⟩ | ⟨hle, -, b, hsome, hb⟩
    · have hrest := ih hnul none (by simp)
      rw [sendCharacters, hsend, hnone, hrest, typedAfter, decide_eq_false (by omega)]
      rfl
    · have hrest := ih hnul (some b) (by simpa using hb)
      rw [sendCharacters, hsend, hsome, hrest, typedAfter, decide_eq_true hle]
      rfl

theorem typedAfter_length_le (after : Bool) (text : List Char) :
    (typedAfter after text).length ≤ (text.flatMap typed).length := by
  induction text generalizing after with
  | nil => exact Nat.le_refl 0
  | cons c text ih =>
    have hrest := ih (128 ≤ c.toNat)
    rw [typedAfter, List.flatMap_cons, List.length_append, List.length_append]
    split
    · rw [List.length_nil]
      omega
    · omega

/-- Behind a character of several bytes, no character with a key comes. -/
def NoneDropped (c d : Char) : Prop := c.toNat < 128 ∨ typed d = []

/-- Nothing is lost if no character that types something is dropped. -/
theorem typedAfter_eq_iff (after : Bool) (text : List Char) :
    typedAfter after text = text.flatMap typed ↔
      (after = true → ∀ d ∈ text.head?, typed d = []) ∧ text.IsChain NoneDropped := by
  induction text generalizing after with
  | nil => simp [typedAfter, List.IsChain.nil]
  | cons c text ih =>
    have hchain : (c :: text).IsChain NoneDropped ↔ typedAfter (128 ≤ c.toNat) text = text.flatMap typed := by
      rw [ih, List.isChain_cons, decide_eq_true_eq]
      refine and_congr_left fun _ => ⟨fun h hle d hd => (h d hd).resolve_left (by omega), fun h d hd => ?_⟩
      by_cases hle : 128 ≤ c.toNat
      · exact .inr (h hle d hd)
      · exact .inl (by omega)
    rw [hchain, typedAfter, List.flatMap_cons]
    cases after with
    | false => simp
    | true =>
      rw [if_pos rfl, List.nil_append]
      constructor
      · intro h
        have hlength := typedAfter_length_le (128 ≤ c.toNat) text
        have hc : typed c = [] := by
          rw [← List.length_eq_zero_iff]
          rw [h, List.length_append] at hlength
          omega
        exact ⟨by simpa using hc, by rw [h, hc, List.nil_append]⟩
      · intro ⟨hc, h⟩
        have hc : typed c = [] := by simpa using hc
        rw [hc, List.nil_append, h]

/-! ### Typing a text -/

/-- The asserts hold, whatever is behind the table. -/
theorem sendUtf8String_ne_assertion (behind : Behind) {text : List Char} (hnul : ∀ c ∈ text, c.toNat ≠ 0) :
    sendUtf8String behind (utf8 text) ≠ .error .assertion := by
  have hsend : ∀ c, sendCharacter behind c ≠ .error .assertion := by
    intro c
    obtain ⟨keys, hkeys⟩ := asciiToQcode_strokes behind (toUnsignedShort c)
    rw [sendCharacter, hkeys, hkeys]
    cases keys <;> exact fun h => by cases h
  rw [sendUtf8String_eq behind hnul]
  generalize none = stale
  induction text generalizing stale with
  | nil => exact fun h => by cases h
  | cons c text ih =>
    have hrest := ih (fun d hd => hnul d (List.mem_cons_of_mem c hd)) (leftOver c)
    rw [sendCharacters]
    cases hc : sendCharacter behind (stale.getD (leadByte c)) with
    | error fault => exact fun h => hsend _ (hc.trans (by cases h; rfl))
    | ok events =>
      cases hrest' : sendCharacters (sendCharacter behind) (leftOver c) text with
      | error fault => exact fun h => hrest (hrest'.trans (by cases h; rfl))
      | ok events' => exact fun h => by cases h

/-- **Typing a text.** Whatever is behind the table, the keys of the text are sent if and only if each of its
characters is on a key by itself. Where reading behind the table does no harm, they are sent if and only if no
character with a key comes behind one of several bytes. -/
theorem typed_completely_iff {text : List Char} (hnul : ∀ c ∈ text, c.toNat ≠ 0) :
    ((∀ behind, sendUtf8String behind (utf8 text) = .ok (text.flatMap typed)) ↔ ∀ c ∈ text, HasKey c) ∧
      ∀ behind, Quiet behind →
        (sendUtf8String behind (utf8 text) = .ok (text.flatMap typed) ↔ text.IsChain NoneDropped) := by
  refine ⟨⟨fun h => ?_, fun h behind => ?_⟩, fun behind hquiet => ?_⟩
  · have htrap := h trap
    rw [sendUtf8String_eq trap hnul] at htrap
    exact hasKey_of_sendCharacters htrap
  · rw [sendUtf8String_eq behind hnul, sendCharacters_of_hasKey behind h]
  · rw [sendUtf8String_eq behind hnul, sendCharacters_quiet hquiet hnul none (by simp), Except.ok.injEq,
      typedAfter_eq_iff]
    simp

/-- Zeros behind the table. -/
def zeroed : Behind := fun _ => some ⟨.other 0, 0, 0, 0, 0, 0⟩

theorem quiet_zeroed : Quiet zeroed := by
  intro c hc n
  have hne : (0 : UInt16) ≠ toUnsignedShort c := by
    intro h
    have hnat := toNat_toUnsignedShort c
    rw [← h] at hnat
    refine hc (UInt8.toNat_inj.mp ?_)
    show c.toNat = 0
    have hzero : (0 : UInt16).toNat = 0 := rfl
    omega
  exact ⟨_, rfl, hne, hne, hne, hne⟩

/-- An `e` with an accent. -/
def accented : Char := Char.ofNat 0xE9

theorem plain_text_typed :
    sendUtf8String trap (utf8 ['h', 'i']) =
        .ok [⟨.h, true⟩, ⟨.h, false⟩, ⟨.i, true⟩, ⟨.i, false⟩] ∧
      sendUtf8String zeroed (utf8 ['I', accented]) =
        .ok [⟨.shift, true⟩, ⟨.i, true⟩, ⟨.i, false⟩, ⟨.shift, false⟩] := by
  have hnul : ∀ c ∈ ['h', 'i'], c.toNat ≠ 0 :=
    List.forall_mem_cons.mpr ⟨by decide, List.forall_mem_singleton.mpr (by decide)⟩
  have hkeys : ∀ c ∈ ['h', 'i'], HasKey c :=
    List.forall_mem_cons.mpr ⟨(hasKey_iff 'h').mpr (by decide),
      List.forall_mem_singleton.mpr ((hasKey_iff 'i').mpr (by decide))⟩
  have hnul' : ∀ c ∈ ['I', accented], c.toNat ≠ 0 :=
    List.forall_mem_cons.mpr ⟨by decide, List.forall_mem_singleton.mpr (by decide)⟩
  have hchain : ['I', accented].IsChain NoneDropped := .cons_cons (.inl (by decide)) (.singleton _)
  have hplain := (typed_completely_iff hnul).1.mpr hkeys trap
  have hmixed := ((typed_completely_iff hnul').2 zeroed quiet_zeroed).mpr hchain
  exact ⟨hplain.trans (by decide), hmixed.trans (by decide)⟩

/-- The letter behind an accented one is lost, or the table is left already for the accented one. -/
theorem letter_behind_accented_dropped :
    utf8 [accented, 'a'] = [0xC3, 0xA9, 0x61] ∧
      sendUtf8String zeroed [0xC3, 0xA9, 0x61] = .ok [] ∧
      sendUtf8String trap [0xC3, 0xA9, 0x61] = .error .outOfBounds ∧
      [accented, 'a'].flatMap typed = [⟨.a, true⟩, ⟨.a, false⟩] := by
  have hbytes : utf8 [accented, 'a'] = [0xC3, 0xA9, 0x61] := by decide
  have hnul : ∀ c ∈ [accented, 'a'], c.toNat ≠ 0 :=
    List.forall_mem_cons.mpr ⟨by decide, List.forall_mem_singleton.mpr (by decide)⟩
  refine ⟨hbytes, ?_, ?_, by decide⟩
  · rw [← hbytes, sendUtf8String_eq zeroed hnul, sendCharacters_quiet quiet_zeroed hnul none (by simp)]
    decide
  · rw [← hbytes, sendUtf8String_eq trap hnul, sendCharacters, Option.getD_none, sendCharacter_trap]
    exact not_isBase_of_le (by decide)

end Goldfish.Keyboard

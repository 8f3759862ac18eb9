import Goldfish.Lib.CStrings

/-!
# Goldfish.Filesystems.Fstab

The format of a partition in an fstab (`fstab_parser.cpp`). The parser goes through the
text with pointers; here they are positions, and what is behind the NUL at the end of the
text cannot be read.

`fstabFormat` says what is looked up: the third word of the first line that is about the
partition. Every part of the parser is described by the bytes between two positions
(`segment`), so that one line is a matter of its words (`parseLine_eq`).
-/

namespace Goldfish.Filesystems

open Goldfish.Lib

/-- The end of a line. -/
def lineFeed : UInt8 := '\n'.toUInt8

/-- What a comment begins with. -/
def commentMark : UInt8 := '#'.toUInt8

/-! ### Reading -/

/-- The `n` bytes at `p`, for `memcmp` and `memcpy`. -/
def bytesAt (text : List UInt8) (p n : Nat) : Option (List UInt8) :=
  if p + n ≤ text.length + 1 then some (((text ++ [0]).drop p).take n) else none

/-- The first `c` from `p` on, unless the text ends before. -/
def strchr (text : List UInt8) (c : UInt8) (p : Nat) : Option (Option Nat) :=
  match _h : charAt text p with
  | none => none
  | some b => if b = c then some (some p) else if b = 0 then some none else strchr text c (p + 1)
termination_by text.length + 1 - p
decreasing_by
  have := lt_of_charAt _h
  omega

/-- The loop of `skipWhitespace` and `skipNonWhitespace`. -/
def skipWhile (kind : UInt8 → Bool) (text : List UInt8) (p stop : Nat) : Option Nat :=
  if p < stop then
    match charAt text p with
    | none => none
    | some c => if kind c then skipWhile kind text (p + 1) stop else some p
  else some p
termination_by stop - p

/-- `skipWhitespace`. -/
def skipWhitespace : List UInt8 → (p stop : Nat) → Option Nat := skipWhile isspace

/-- `skipNonWhitespace`. -/
def skipNonWhitespace : List UInt8 → (p stop : Nat) → Option Nat := skipWhile fun c => !isspace c

/-- The inner `none` is the null pointer. -/
def skipExpectedToken (text : List UInt8) (p stop : Nat) : Option (Option Nat) := do
  let p ← skipWhitespace text p stop
  if p = stop then return none
  return some (← skipNonWhitespace text p stop)

/-- `getTokenLen`. -/
def getTokenLen (text : List UInt8) (p stop : Nat) : Option Nat := do
  let q ← skipNonWhitespace text p stop
  return q - p

/-! ### The parser -/

/-- What a line comes to: the next one, or an answer. The answer `some` is what is behind the pointer `out`. -/
inductive LineResult where
  | next
  | answer (out : Option (List UInt8))
  deriving DecidableEq, Repr

/-- The body of the loop of `parseFstabPartitionFormat`. -/
def parseLine (fstabData partitionName : List UInt8) (line lineEnd : Nat) : Option LineResult := do
  -- empty lines and comments
  let line ← skipWhitespace fstabData line lineEnd
  if line = lineEnd then return .next
  if (← charAt fstabData line) = commentMark then return .next
  -- <device><ws><partition><ws><format><ws><options>
  let some line ← skipExpectedToken fstabData line lineEnd | return .next
  let line ← skipWhitespace fstabData line lineEnd
  let tokenLen ← getTokenLen fstabData line lineEnd
  if tokenLen ≠ partitionName.length then return .next
  if (← bytesAt fstabData line tokenLen) ≠ (← bytesAt partitionName 0 tokenLen) then return .next
  let line ← skipWhitespace fstabData (line + tokenLen) lineEnd
  let formatLen ← getTokenLen fstabData line lineEnd
  if formatLen = 0 then return .answer none
  let format ← bytesAt fstabData line formatLen
  return .answer (some (format ++ [0]))

theorem le_of_strchr {text : List UInt8} {c : UInt8} {p q : Nat} (h : strchr text c p = some (some q)) : p ≤ q := by
  induction p using strchr.induct text c with
  | case1 p hp =>
    rw [strchr, hp] at h
    cases h
  | case2 p hp =>
    rw [strchr, hp] at h
    simp only [if_pos, Option.some.injEq] at h
    exact h.le
  | case3 p hp hne =>
    rw [strchr, hp] at h
    simp only [if_neg hne, if_pos, Option.some.injEq] at h
    cases h
  | case4 p b hp hne hzero ih =>
    rw [strchr, hp] at h
    simp only [if_neg hne, if_neg hzero] at h
    exact Nat.le_of_succ_le (ih h)

/-- The loop, from `p` on. -/
def parseLines (fstabData : List UInt8) (fstabSize : Nat) (partitionName : List UInt8) (p : Nat) :
    Option (Option (List UInt8)) :=
  if p < fstabSize then
    match _h : strchr fstabData lineFeed p with
    | none => none
    | some newline =>
      -- the last line ends with the text
      let lineEnd := newline.getD fstabSize
      match parseLine fstabData partitionName p lineEnd with
      | none => none
      | some (.answer out) => some out
      | some .next => parseLines fstabData fstabSize partitionName ((newline.map (· + 1)).getD fstabSize)
  else some none
termination_by fstabSize - p
decreasing_by
  cases newline with
  | none => simp only [Option.map_none, Option.getD_none]; omega
  | some q =>
    have := le_of_strchr _h
    simp only [Option.map_some, Option.getD_some]
    omega

/-- The inner `none` is the answer `false`. -/
def parseFstabPartitionFormat (fstabData : List UInt8) (fstabSize : Nat) (partitionName : List UInt8) :
    Option (Option (List UInt8)) :=
  parseLines fstabData fstabSize partitionName 0

/-! ### What is read -/

/-- The bytes from `p` to `q`. -/
def segment (text : List UInt8) (p q : Nat) : List UInt8 := (text.drop p).take (q - p)

section Segments

variable {text : List UInt8} {p q r : Nat}

@[simp] theorem segment_self (text : List UInt8) (p : Nat) : segment text p p = [] := by simp [segment]

theorem segment_length (hqr : p ≤ q) (hr : q ≤ text.length) : (segment text p q).length = q - p := by
  rw [segment, List.length_take, List.length_drop]
  omega

theorem segment_cons (hp : p < q) (hq : q ≤ text.length) :
    segment text p q = text[p] :: segment text (p + 1) q := by
  have hsum : q - p = (q - (p + 1)) + 1 := by omega
  rw [segment, segment, List.drop_eq_getElem_cons (by omega), hsum, List.take_succ_cons]

theorem segment_ne_nil (hp : p < q) (hq : q ≤ text.length) : segment text p q ≠ [] := by
  rw [segment_cons hp hq]
  exact List.cons_ne_nil _ _

theorem segment_eq_nil_iff (hpq : p ≤ q) (hq : q ≤ text.length) : segment text p q = [] ↔ p = q := by
  rw [← List.length_eq_zero_iff, segment_length hpq hq]
  omega

theorem bytesAt_segment (hpq : p ≤ q) (hq : q ≤ text.length) :
    bytesAt text p (q - p) = some (segment text p q) := by
  rw [bytesAt, if_pos (by omega), segment, List.drop_append_of_le_length (by omega),
    List.take_append_of_le_length (by rw [List.length_drop]; omega)]

/-- **A span.** What is skipped is the longest span of the kind, and it does not leave the bytes up to `r`. -/
theorem skipWhile_eq (kind : UInt8 → Bool) (hpr : p ≤ r) (hr : r ≤ text.length) :
    ∃ q, skipWhile kind text p r = some q ∧ p ≤ q ∧ q ≤ r ∧
      segment text p q = (segment text p r).takeWhile kind ∧
      segment text q r = (segment text p r).dropWhile kind := by
  induction p using skipWhile.induct kind text r with
  | case1 p hp hread =>
    rw [charAt_of_lt (Nat.lt_of_lt_of_le hp hr)] at hread
    cases hread
  | case2 p hp c hread hkind ih =>
    obtain ⟨q, hskip, hpq, hqr, htake, hdrop⟩ := ih hp
    have hc := Option.some.inj ((charAt_of_lt (Nat.lt_of_lt_of_le hp hr)).symm.trans hread)
    refine ⟨q, ?_, Nat.le_of_succ_le hpq, hqr, ?_, ?_⟩
    · rw [skipWhile, if_pos hp, hread]
      simp only [if_pos hkind, hskip]
    · rw [segment_cons hpq (Nat.le_trans hqr hr), segment_cons hp hr, hc, List.takeWhile_cons_of_pos hkind, htake]
    · rw [segment_cons hp hr, hc, List.dropWhile_cons_of_pos hkind, hdrop]
  | case3 p hp c hread hkind =>
    have hc := Option.some.inj ((charAt_of_lt (Nat.lt_of_lt_of_le hp hr)).symm.trans hread)
    refine ⟨p, ?_, Nat.le_refl p, hpr, ?_, ?_⟩
    · rw [skipWhile, if_pos hp, hread]
      simp only [if_neg hkind]
    · rw [segment_self, segment_cons hp hr, hc, List.takeWhile_cons_of_neg hkind]
    · rw [segment_cons hp hr, hc, List.dropWhile_cons_of_neg hkind]
  | case4 p hp =>
    obtain rfl : p = r := by omega
    refine ⟨p, ?_, Nat.le_refl p, Nat.le_refl p, ?_, ?_⟩
    · rw [skipWhile, if_neg hp]
    · simp
    · simp

/-- In a text without NUL, `strchr` finds the end of the line. -/
theorem strchr_eq {c : UInt8} (hc : c ≠ 0) (htext : 0 ∉ text) (hp : p ≤ text.length) :
    (strchr text c p = some none ∧ c ∉ text.drop p) ∨
      ∃ q, strchr text c p = some (some q) ∧ p ≤ q ∧ q < text.length ∧ c ∉ segment text p q ∧
        text.drop p = segment text p q ++ c :: text.drop (q + 1) := by
  induction p using strchr.induct text c with
  | case1 p hread =>
    have hlt : p < (text ++ [0]).length := by
      rw [List.length_append]
      exact Nat.lt_succ_of_le hp
    rw [charAt, List.getElem?_eq_getElem hlt] at hread
    cases hread
  | case2 p hread =>
    obtain ⟨hlt, hget⟩ | ⟨-, hzero⟩ := charAt_cases hread
    · refine .inr ⟨p, ?_, Nat.le_refl p, hlt, ?_, ?_⟩
      · rw [strchr, hread]
        exact if_pos rfl
      · simp
      · rw [segment_self, List.drop_eq_getElem_cons hlt, hget, List.nil_append]
    · exact absurd hzero hc
  | case3 p hread hne =>
    obtain ⟨hlt, hget⟩ | ⟨rfl, -⟩ := charAt_cases hread
    · exact absurd (hget ▸ List.getElem_mem hlt) htext
    · refine .inl ⟨?_, by simp⟩
      rw [strchr, hread]
      simp only [if_neg hne, if_pos]
  | case4 p b hread hne hzero ih =>
    obtain ⟨hlt, hget⟩ | ⟨-, hnul⟩ := charAt_cases hread
    · have hstep : strchr text c p = strchr text c (p + 1) := by
        rw [strchr, hread]
        simp only [if_neg hne, if_neg hzero]
      have hdrop : text.drop p = b :: text.drop (p + 1) := by rw [List.drop_eq_getElem_cons hlt, hget]
      rw [hstep, hdrop]
      obtain ⟨hnone, hmem⟩ | ⟨q, hsome, hpq, hq, hmem, hrest⟩ := ih hlt
      · exact .inl ⟨hnone, List.not_mem_cons_of_ne_of_not_mem (Ne.symm hne) hmem⟩
      · have hcons : segment text p q = b :: segment text (p + 1) q := by rw [segment_cons hpq hq.le, hget]
        refine .inr ⟨q, hsome, Nat.le_of_succ_le hpq, hq, ?_, ?_⟩
        · rw [hcons]
          exact List.not_mem_cons_of_ne_of_not_mem (Ne.symm hne) hmem
        · rw [hcons, hrest, List.cons_append]
    · exact absurd hnul hzero

theorem skipWhitespace_of_starts (hpr : p ≤ r) (hr : r ≤ text.length) (h : Starts isspace (segment text p r)) :
    skipWhitespace text p r = some p := by
  obtain ⟨q, hskip, hpq, hqr, htake, -⟩ := skipWhile_eq isspace hpr hr
  rw [h.takeWhile_eq, segment_eq_nil_iff hpq (Nat.le_trans hqr hr)] at htake
  exact htake ▸ hskip

/-- **A word.** Skipping white space and then anything else passes the first word, if there is one. -/
theorem skip_word (hpr : p ≤ r) (hr : r ≤ text.length) :
    ∃ q s, skipWhitespace text p r = some q ∧ skipWhitespace text q r = some q ∧
      skipNonWhitespace text q r = some s ∧ p ≤ q ∧ q ≤ s ∧ s ≤ r ∧
      ((q = r ∧ words isspace (segment text p r) = []) ∨
        (q < s ∧ words isspace (segment text p r) = segment text q s :: words isspace (segment text s r))) := by
  obtain ⟨q, hspace, hpq, hqr, -, hrest⟩ := skipWhile_eq isspace hpr hr
  obtain ⟨s, hword, hqs, hsr, htake, hdrop⟩ := skipWhile_eq (fun c => !isspace c) hqr hr
  have hstarts : Starts isspace (segment text q r) := hrest ▸ starts_dropWhile _ _
  refine ⟨q, s, hspace, skipWhitespace_of_starts hqr hr hstarts, hword, hpq, hqs, hsr, ?_⟩
  by_cases hq : q = r
  · have hnil : (segment text p r).dropWhile isspace = [] := by rw [← hrest, hq, segment_self]
    exact .inl ⟨hq, words_of_dropWhile_nil hnil⟩
  · have hlt : q < r := by omega
    have hne : (segment text p r).dropWhile isspace ≠ [] := hrest ▸ segment_ne_nil hlt hr
    have hwords := words_of_dropWhile_ne_nil hne
    rw [← hrest, ← htake, ← hdrop] at hwords
    refine .inr ⟨Nat.lt_of_le_of_ne hqs ?_, hwords⟩
    rintro rfl
    rw [segment_self] at htake
    have hhead := starts_cons.mp (segment_cons hlt hr ▸ hstarts)
    rw [segment_cons hlt hr, List.takeWhile_cons_of_pos (by rw [hhead]; rfl)] at htake
    cases htake

end Segments

/-! ### One line -/

/-- What the parser makes of the fields behind the device. An empty name is found behind the last one. -/
def fieldsResult (partitionName : List UInt8) : List (List UInt8) → LineResult
  | [] => if partitionName = [] then .answer none else .next
  | partition :: fields =>
      if partition = partitionName then .answer (fields.head?.map (· ++ [0])) else .next

/-- What the parser makes of the words of a line. -/
def lineResult (partitionName : List UInt8) : List (List UInt8) → LineResult
  | [] => .next
  | device :: fields => if device.head? = some commentMark then .next else fieldsResult partitionName fields

section Line

variable {text partitionName : List UInt8} {p q r s : Nat}

theorem getTokenLen_eq (h : skipNonWhitespace text q r = some s) : getTokenLen text q r = some (s - q) := by
  rw [getTokenLen, h]
  rfl

theorem skipExpectedToken_eq (hspace : skipWhitespace text p r = some q) (hq : q ≠ r)
    (hword : skipNonWhitespace text q r = some s) : skipExpectedToken text p r = some (some s) := by
  rw [skipExpectedToken, hspace, Option.bind_eq_bind, Option.bind_some, if_neg hq, hword]
  rfl

/-- The fields, by the one that is compared. -/
theorem fieldsResult_eq (hpr : p ≤ r) (hqs : q ≤ s) (hsr : s ≤ r)
    (hwords : (q = r ∧ words isspace (segment text p r) = []) ∨
      (q < s ∧ words isspace (segment text p r) = segment text q s :: words isspace (segment text s r))) :
    fieldsResult partitionName (words isspace (segment text p r)) =
      if segment text q s = partitionName then .answer ((words isspace (segment text s r)).head?.map (· ++ [0]))
      else .next := by
  obtain ⟨rfl, hnone⟩ | ⟨-, hsome⟩ := hwords
  · obtain rfl : q = s := by omega
    rw [hnone, segment_self]
    simp only [fieldsResult, eq_comm (a := partitionName), words_nil, List.head?_nil, Option.map_none]
  · rw [hsome]
    rfl

/-- What `out` points to is the next field. -/
theorem format_eq (hsr : s ≤ r) (hr : r ≤ text.length) :
    ∃ q e, skipWhitespace text s r = some q ∧ getTokenLen text q r = some (e - q) ∧
      (if e - q = 0 then some (LineResult.answer none)
        else (bytesAt text q (e - q)).bind fun format => some (.answer (some (format ++ [0])))) =
        some (.answer ((words isspace (segment text s r)).head?.map (· ++ [0]))) := by
  obtain ⟨q, e, hspace, -, hword, hsq, hqe, her, hwords⟩ := skip_word hsr hr
  refine ⟨q, e, hspace, getTokenLen_eq hword, ?_⟩
  obtain ⟨rfl, hnone⟩ | ⟨hlt, hsome⟩ := hwords
  · rw [if_pos (by omega), hnone]
    rfl
  · rw [if_neg (by omega), bytesAt_segment hqe (Nat.le_trans her hr), hsome]
    rfl

theorem parseLine_eq (hpr : p ≤ r) (hr : r ≤ text.length) :
    parseLine text partitionName p r = some (lineResult partitionName (words isspace (segment text p r))) := by
  obtain ⟨q, s, hspace, hagain, hdevice, -, -, hsr, hwords⟩ := skip_word hpr hr
  simp only [parseLine, hspace, Option.bind_eq_bind, Option.bind_some]
  obtain ⟨hq, hnone⟩ | ⟨hqs, hsome⟩ := hwords
  · rw [if_pos hq, hnone]
    rfl
  have hne : q ≠ r := by omega
  have hq : q < text.length := by omega
  have hhead : (segment text q s).head? = some text[q] := by
    rw [segment_cons hqs (Nat.le_trans hsr hr)]
    rfl
  rw [hsome, if_neg hne, charAt_of_lt hq]
  simp only [lineResult, hhead, Option.bind_some, Option.some.injEq, skipExpectedToken_eq hagain hne hdevice]
  by_cases hcomment : text[q] = commentMark
  · rw [if_pos hcomment, if_pos hcomment]
    rfl
  rw [if_neg hcomment, if_neg hcomment]
  -- the field that is compared
  obtain ⟨q', s', hspace', -, hpartition, -, hqs', hsr', hwords'⟩ := skip_word hsr hr
  have hlength : (segment text q' s').length = s' - q' := segment_length hqs' (Nat.le_trans hsr' hr)
  have hname : bytesAt partitionName 0 partitionName.length = some partitionName := by
    simpa [segment] using bytesAt_segment (Nat.zero_le _) (Nat.le_refl partitionName.length)
  rw [fieldsResult_eq hsr hqs' hsr' hwords', hspace', Option.bind_some, getTokenLen_eq hpartition, Option.bind_some,
    bytesAt_segment hqs' (Nat.le_trans hsr' hr), ← hlength]
  by_cases hsize : (segment text q' s').length = partitionName.length
  · rw [if_neg (not_not.mpr hsize), hsize, hname]
    simp only [Option.bind_some]
    by_cases hmatch : segment text q' s' = partitionName
    · obtain ⟨q'', e, hspace'', hformat, hanswer⟩ := format_eq hsr' hr
      have hend : q' + partitionName.length = s' := by omega
      rw [if_neg (not_not.mpr hmatch), if_pos hmatch, hend, hspace'', Option.bind_some, hformat, Option.bind_some]
      exact hanswer
    · rw [if_pos hmatch, if_neg hmatch]
      rfl
  · have hmatch : segment text q' s' ≠ partitionName := fun h => hsize (h ▸ rfl)
    rw [if_pos hsize, if_neg hmatch]
    rfl

end Line

/-! ### The format -/

/-- A line that is not blank, no comment, and has the name as its second word. -/
def describes (partitionName line : List UInt8) : Bool :=
  !line.all isspace && (line.dropWhile isspace).head? ≠ some commentMark &&
    (words isspace line)[1]? = some partitionName

/-- The third word of the first line about the partition. -/
def fstabFormat (partitionName : List UInt8) (fstab : List (List UInt8)) : Option (List UInt8) :=
  (fstab.find? (describes partitionName)).bind fun line => (words isspace line)[2]?

section Format

variable {partitionName line : List UInt8}

theorem describes_iff : describes partitionName line = true ↔
    ∃ device fields, words isspace line = device :: partitionName :: fields ∧ device.head? ≠ some commentMark := by
  rw [describes, Bool.and_eq_true, Bool.and_eq_true, Bool.not_eq_true', decide_eq_true_eq, decide_eq_true_eq]
  constructor
  · rintro ⟨⟨-, hcomment⟩, hsecond⟩
    match hwords : words isspace line with
    | [] => simp [hwords] at hsecond
    | [device] => simp [hwords] at hsecond
    | device :: partition :: fields =>
      obtain rfl : partition = partitionName := by simpa [hwords] using hsecond
      exact ⟨device, fields, rfl, head?_of_words hwords ▸ hcomment⟩
  · rintro ⟨device, fields, hwords, hcomment⟩
    refine ⟨⟨?_, head?_of_words hwords ▸ hcomment⟩, by rw [hwords]; rfl⟩
    rw [Bool.eq_false_iff]
    intro hall
    have hnil : line.dropWhile isspace = [] := List.dropWhile_eq_nil_iff.mpr (List.all_eq_true.mp hall)
    rw [words_of_dropWhile_nil hnil] at hwords
    cases hwords

theorem lineResult_of_describes (h : describes partitionName line = true) :
    lineResult partitionName (words isspace line) = .answer ((words isspace line)[2]?.map (· ++ [0])) := by
  obtain ⟨device, fields, hwords, hcomment⟩ := describes_iff.mp h
  rw [hwords, List.getElem?_cons_succ, List.getElem?_cons_succ, ← List.head?_eq_getElem?]
  simp only [lineResult, fieldsResult, if_neg hcomment, if_pos]

/-- On another line the parser goes on, unless it takes the missing field for an empty name. -/
theorem lineResult_of_not_describes (h : describes partitionName line = false) :
    lineResult partitionName (words isspace line) = .next ∨
      partitionName = [] ∧ lineResult partitionName (words isspace line) = .answer none := by
  cases hwords : words isspace line with
  | nil => exact .inl rfl
  | cons device fields =>
    by_cases hcomment : device.head? = some commentMark
    · exact .inl (if_pos hcomment)
    rw [lineResult, if_neg hcomment]
    cases fields with
    | nil =>
      by_cases hname : partitionName = []
      · exact .inr ⟨hname, if_pos hname⟩
      · exact .inl (if_neg hname)
    | cons partition fields =>
      refine .inl (if_neg ?_)
      rintro rfl
      exact absurd (describes_iff.mpr ⟨device, fields, hwords, hcomment⟩) (by rw [h]; decide)

/-- No line is about a partition without a name. -/
theorem describes_nil (line : List UInt8) : describes [] line = false := by
  rw [Bool.eq_false_iff]
  intro h
  obtain ⟨device, fields, hwords, -⟩ := describes_iff.mp h
  exact ne_nil_of_mem_words (hwords ▸ List.mem_cons_of_mem device List.mem_cons_self) rfl

theorem fstabFormat_cons (fstab : List (List UInt8)) :
    fstabFormat partitionName (line :: fstab) =
      if describes partitionName line then (words isspace line)[2]? else fstabFormat partitionName fstab := by
  rw [fstabFormat, List.find?_cons]
  cases describes partitionName line <;> rfl

theorem fstabFormat_nil (fstab : List (List UInt8)) : fstabFormat [] fstab = none := by
  rw [fstabFormat, List.find?_eq_none.mpr fun line _ => by rw [describes_nil]; exact Bool.false_ne_true]
  rfl

end Format

section Parse

variable {text : List UInt8}

/-- The line at `p`, and where the next one begins. -/
theorem line_at (htext : 0 ∉ text) {p : Nat} (hp : p < text.length) :
    ∃ newline, strchr text lineFeed p = some newline ∧
      p ≤ newline.getD text.length ∧ newline.getD text.length ≤ text.length ∧
      (newline.map (· + 1)).getD text.length ≤ text.length ∧
      lines lineFeed (text.drop p) = segment text p (newline.getD text.length) ::
        lines lineFeed (text.drop ((newline.map (· + 1)).getD text.length)) := by
  have hfeed : lineFeed ≠ 0 := by decide
  obtain ⟨hnone, hlast⟩ | ⟨q, hsome, hpq, hq, hline, hrest⟩ := strchr_eq hfeed htext hp.le
  · refine ⟨none, hnone, hp.le, Nat.le_refl _, Nat.le_refl _, ?_⟩
    have hne : text.drop p ≠ [] := by
      rw [Ne, List.drop_eq_nil_iff]
      omega
    have hall : segment text p text.length = text.drop p := by
      rw [segment, ← List.length_drop, List.take_length]
    rw [lines_of_not_mem hlast hne, Option.map_none, Option.getD_none, hall, List.drop_length, lines_nil]
  · refine ⟨some q, hsome, hpq, hq.le, hq, ?_⟩
    rw [hrest, lines_append hline]
    rfl

/-- **The loop.** It finds the format in the lines that are left. -/
theorem parseLines_eq (htext : 0 ∉ text) (partitionName : List UInt8) {p : Nat} (hp : p ≤ text.length) :
    parseLines text text.length partitionName p =
      some ((fstabFormat partitionName (lines lineFeed (text.drop p))).map (· ++ [0])) := by
  induction hleft : text.length - p using Nat.strong_induction_on generalizing p with
  | _ left ih =>
    by_cases hlt : p < text.length
    · obtain ⟨newline, hfound, hstart, hend, hnext, hlines⟩ := line_at htext hlt
      have hprogress : p < (newline.map (· + 1)).getD text.length := by
        cases newline with
        | none => exact hlt
        | some q => exact Nat.lt_succ_of_le hstart
      rw [parseLines, if_pos hlt, hfound, hlines, fstabFormat_cons]
      simp only [parseLine_eq hstart hend]
      cases hdescribes : describes partitionName (segment text p (newline.getD text.length)) with
      | true =>
        rw [lineResult_of_describes hdescribes]
        rfl
      | false =>
        obtain hgo | ⟨rfl, hstop⟩ := lineResult_of_not_describes hdescribes
        · rw [hgo]
          exact ih _ (by omega) hnext rfl
        · rw [hstop, fstabFormat_nil]
          rfl
    · have hend : text.drop p = [] := List.drop_eq_nil_of_le (Nat.le_of_not_lt hlt)
      rw [parseLines, if_neg hlt, hend]
      rfl

/-- **Looking up the format of a partition.** The parser answers without reading outside of the text, and its answer
is the third word of the first line about the partition. -/
theorem fstab_lookup {fstabData : List UInt8} (htext : 0 ∉ fstabData) (partitionName : List UInt8) :
    parseFstabPartitionFormat fstabData fstabData.length partitionName =
      some ((fstabFormat partitionName (lines lineFeed fstabData)).map (· ++ [0])) :=
  parseLines_eq htext partitionName (Nat.zero_le _)

/-- A comment, a blank line, and a last line with a carriage return behind it and no line feed. -/
def exampleFstab : List UInt8 :=
  ['#', ' ', '/', 's', ' ', 'a', '\n', '\r', '\n', ' ', 'd', '\t', '/', 's', ' ', 'e', '4', '\r'].map Char.toUInt8

theorem example_fstab_lookup :
    parseFstabPartitionFormat exampleFstab exampleFstab.length (['/', 's'].map Char.toUInt8) =
      some (some (['e', '4', '\x00'].map Char.toUInt8)) := by
  have htext : 0 ∉ exampleFstab := by decide
  rw [fstab_lookup htext]
  decide

/-- `parsePartitionFormat` of the default backend, which takes over the bytes up to the NUL. -/
def parsePartitionFormat (fstab mountPath : List UInt8) : Option (Option (List UInt8)) :=
  (parseFstabPartitionFormat fstab fstab.length mountPath).map (Option.map (List.takeWhile (· ≠ 0)))

theorem parsePartitionFormat_eq {fstab : List UInt8} (htext : 0 ∉ fstab) (mountPath : List UInt8) :
    parsePartitionFormat fstab mountPath = some (fstabFormat mountPath (lines lineFeed fstab)) := by
  rw [parsePartitionFormat, parseFstabPartitionFormat, parseLines_eq htext mountPath (Nat.zero_le _), List.drop_zero,
    Option.map_some, Option.map_map]
  cases hformat : fstabFormat mountPath (lines lineFeed fstab) with
  | none => rfl
  | some format =>
    obtain ⟨line, hline, hword⟩ := Option.bind_eq_some_iff.mp hformat
    have hformat : format ⊆ fstab := by
      intro c hc
      have hmem := subset_of_mem_words (List.mem_of_getElem? hword) hc
      exact subset_of_mem_lines (List.mem_of_find?_eq_some hline) hmem
    have hplain : ∀ c ∈ format, decide (c ≠ 0) = true := by
      intro c hc
      rw [decide_eq_true_eq]
      rintro rfl
      exact htext (hformat hc)
    rw [Option.map_some, Function.comp_apply, List.takeWhile_append_of_pos hplain]
    simp

end Parse

end Goldfish.Filesystems

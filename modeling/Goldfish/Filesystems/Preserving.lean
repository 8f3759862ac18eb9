import Goldfish.Filesystems.Locking

/-!
# Goldfish.Filesystems.Preserving

**What is in a partition image stays there** unless one of the rules of `addNandImage`
says otherwise, and `setup_func` is called once for a partition that was set up and not
at all for one that was not (`image_preserved`).

A call starts with an empty history here: what the host has seen before is part of its
behaviour, which is arbitrary.

With `MUST_EXIST`, an image is neither created nor converted, but the call may still
succeed without one: where the image cannot be locked, or none is named, it works on an
empty temporary image, whether or not the image exists (`temp_image_for_missing`).
-/

namespace Goldfish.Filesystems

open Goldfish.Lib Goldfish.Lib.Prog

/-! ### What the history tells of a file -/

/-- The temporary image of this call. -/
def Temp (log : List Event) (path : Option String) : Prop :=
  ∃ file, path = some file ∧ .pathCreateTempFile (some file) ∈ log

/-- The answer when the host was asked last whether the file exists. -/
def LastLook (log : List Event) (path : Option String) (answer : Bool) : Prop :=
  ∃ before after, log = before ++ .pathExists path answer :: after ∧
    ∀ other, .pathExists path other ∉ after

/-- The file was probed, and its type and the requested one are known and differ. -/
def Mismatch (log : List Event) (part_type : AndroidPartitionType) (path : Option String) : Prop :=
  ∃ file probed, path = some file ∧ .probePartitionFileType file probed ∈ log ∧
    probed ≠ .unknown ∧ part_type ≠ .unknown ∧ probed ≠ part_type

/-- No file was probed to be of another type than the requested one, if that is known. -/
def Matching (log : List Event) (part_type : AndroidPartitionType) : Prop :=
  ∀ file probed, .probePartitionFileType file probed ∈ log → part_type ≠ .unknown → probed = part_type

/-- The call neither looks for a file nor probes one. -/
def Event.Blind : Event → Prop
  | .pathExists _ _ => False
  | .probePartitionFileType _ _ => False
  | _ => True

section History

variable {log : List Event} {path : Option String} {part_type : AndroidPartitionType} {answer : Bool}

theorem Temp.append (h : Temp log path) (es : List Event) : Temp (log ++ es) path := by
  obtain ⟨file, hpath, hmem⟩ := h
  exact ⟨file, hpath, List.mem_append_left es hmem⟩

theorem Mismatch.append (h : Mismatch log part_type path) (es : List Event) :
    Mismatch (log ++ es) part_type path := by
  obtain ⟨file, probed, hpath, hmem, hprobed⟩ := h
  exact ⟨file, probed, hpath, List.mem_append_left es hmem, hprobed⟩

theorem matching_nil : Matching [] part_type := by
  intro _ _ h
  cases h

theorem lastLook_concat : LastLook (log ++ [.pathExists path answer]) path answer :=
  ⟨log, [], rfl, fun _ => List.not_mem_nil⟩

/-- A call that does not look leaves the last answer as it was. -/
theorem LastLook.concat (h : LastLook log path answer) {e : Event} (he : e.Blind) :
    LastLook (log ++ [e]) path answer := by
  obtain ⟨before, after, hlog, hafter⟩ := h
  refine ⟨before, after ++ [e], by simp [hlog], fun other hother => ?_⟩
  rcases List.mem_append.mp hother with hother | hother
  · exact hafter other hother
  · obtain rfl := List.mem_singleton.mp hother
    exact he

theorem Matching.concat (h : Matching log part_type) {e : Event}
    (he : ∀ file probed, e ≠ .probePartitionFileType file probed) : Matching (log ++ [e]) part_type := by
  intro file probed hmem
  rcases List.mem_append.mp hmem with hmem | hmem
  · exact h file probed hmem
  · exact absurd (List.mem_singleton.mp hmem).symm (he file probed)

theorem Matching.blind (h : Matching log part_type) {e : Event} (he : e.Blind) :
    Matching (log ++ [e]) part_type := by
  refine h.concat fun file probed heq => ?_
  rw [heq] at he
  exact he

end History

/-! ### The rules -/

section Rules

variable (part_type : AndroidPartitionType) (part_mode : AndroidPartitionOpenMode)
  (part_init_file : Option String) (readonly : Bool)

/-- A reason to replace what is in the file. -/
def Replaceable (log : List Event) (path : Option String) : Prop :=
  Temp log path ∨ LastLook log path false ∨ part_mode = .mustWipe ∨ part_init_file.isSome ∨
    part_mode ≠ .mustExist ∧ Mismatch log part_type path

/-- What a call may do to a file: not in read-only mode, for a reason, and with `MUST_EXIST` only to a
temporary image, or as a copy of the initial file. -/
def Justified (log : List Event) (e : Event) : Prop :=
  (∀ path, e.Writes path → readonly = false ∧ Replaceable part_type part_mode part_init_file log path ∧
    (part_mode = .mustExist → Temp log path ∨ ∃ dest source answer, e = .pathCopyFile dest source answer)) ∧
  ∀ name size path type ro, e ≠ .setup name size path type ro

/-- The image that `MUST_EXIST` is satisfied with: it exists, or is a temporary one since the named one
is none or cannot be locked. -/
def Acceptable (part_file : Option String) (log : List Event) (path : Option String) : Prop :=
  LastLook log path true ∨
    Temp log path ∧ ∀ file, part_file = some file → .pathLockFile file false ∈ log

end Rules

variable {part_type : AndroidPartitionType} {part_mode : AndroidPartitionOpenMode}
  {part_init_file : Option String} {readonly : Bool} {log : List Event}

theorem Replaceable.concat {path : Option String}
    (h : Replaceable part_type part_mode part_init_file log path) {e : Event} (he : e.Blind) :
    Replaceable part_type part_mode part_init_file (log ++ [e]) path := by
  rcases h with h | h | h | h | ⟨hmode, h⟩
  · exact .inl (h.append _)
  · exact .inr (.inl (h.concat he))
  · exact .inr (.inr (.inl h))
  · exact .inr (.inr (.inr (.inl h)))
  · exact .inr (.inr (.inr (.inr ⟨hmode, h.append _⟩)))

theorem Acceptable.concat {part_file path : Option String} (h : Acceptable part_file log path) {e : Event}
    (he : e.Blind) : Acceptable part_file (log ++ [e]) path := by
  rcases h with h | ⟨htemp, hlock⟩
  · exact .inl (h.concat he)
  · exact .inr ⟨htemp.append _, fun file hfile => List.mem_append_left _ (hlock file hfile)⟩

/-- A question is always justified. -/
theorem justified_question {e : Event} (h : ∀ path, ¬ e.Writes path)
    (hsetup : ∀ name size path type ro, e ≠ .setup name size path type ro) :
    Justified part_type part_mode part_init_file readonly log e :=
  ⟨fun path hpath => absurd hpath (h path), hsetup⟩

/-! ### The stages -/

section Stages

variable (backend : Backend) (part_name : String) {part_file : Option String}

/-- What is known once the type is verified: the mode is the requested one, or the image is to be wiped. -/
structure Checked (part_type : AndroidPartitionType) (part_mode : AndroidPartitionOpenMode)
    (part_file part_init_file : Option String) (mode : AndroidPartitionOpenMode) (log : List Event) : Prop where
  matching : part_mode = .mustExist → Matching log part_type
  mode : mode = part_mode ∨ mode = .mustWipe ∧ part_mode ≠ .mustExist ∧
    (part_init_file.isSome ∨ Mismatch log part_type part_file)

/-- What is known of the image once it is open. -/
structure Opened (part_type : AndroidPartitionType) (part_mode : AndroidPartitionOpenMode)
    (part_init_file : Option String) (readonly : Bool) (part_file : Option String)
    (image : Option String × Bool) (log : List Event) : Prop where
  empties : image.2 = true → readonly = false ∧ Replaceable part_type part_mode part_init_file log image.1 ∧
    (part_mode = .mustExist → Temp log image.1)
  found : part_mode = .mustExist → Acceptable part_file log image.1 ∧ Matching log part_type

theorem justified_checkParameters (part_size : UInt64) (init : Option String) (h : Matching log part_type) :
    Safe (Justified part_type part_mode part_init_file readonly)
      (checkParameters backend part_name part_size init) log fun _ log' => Matching log' part_type := by
  unfold checkParameters
  refine safe_ite (fun _ => safe_fail) fun _ => ?_
  cases init with
  | none => exact safe_pure h
  | some init =>
    refine safe_ask_bind (fun _ => justified_question (fun _ => id) (by simp)) fun there => ?_
    exact safe_ite (fun _ => safe_pure (h.concat (by simp))) fun _ => safe_fail

theorem justified_imageFile {init : Option String} (h : Matching log part_type) :
    Safe (Justified part_type part_mode part_init_file readonly) (imageFile backend part_file init) log
      fun image log' => Matching log' part_type ∧ (image = part_file ∨ image = init) := by
  unfold imageFile
  cases part_file with
  | none => exact safe_pure ⟨h, .inr rfl⟩
  | some file =>
    refine safe_ask_bind (fun _ => justified_question (fun _ => id) (by simp)) fun there => ?_
    replace h := h.concat (e := .pathExists (some file) there) (by simp)
    exact safe_ite (fun _ => safe_pure ⟨h, .inl rfl⟩) fun _ => safe_pure ⟨h, .inr rfl⟩

theorem justified_checkType {init : Option String} (h : Matching log part_type) :
    Safe (Justified part_type part_mode part_init_file readonly)
      (checkType backend part_name part_type part_mode part_file init) log
      fun checked log' => Checked part_type part_mode part_file init checked.2 log' := by
  unfold checkType
  refine safe_bind (justified_imageFile backend h) ?_
  intro image log₁ ⟨h, himage⟩
  cases image with
  | none => exact safe_ite (fun _ => safe_fail) fun _ => safe_pure ⟨fun _ => h, .inl rfl⟩
  | some image_file =>
    refine safe_ite (fun hunknown => ?_) fun hknown => ?_
    · -- nothing is requested, so nothing can differ
      refine safe_ask_bind (fun _ => justified_question (fun _ => id) (by simp)) fun _ => ?_
      exact safe_pure ⟨fun _ _ _ _ hne => absurd hunknown hne, .inl rfl⟩
    · refine safe_ask_bind (fun _ => justified_question (fun _ => id) (by simp)) fun image_type => ?_
      refine safe_ite (fun _ => safe_fail) fun hprobed => safe_ite (fun hne => ?_) fun heq => ?_
      · refine safe_ite (fun _ => safe_fail) fun hmode => safe_pure ⟨fun h => absurd h hmode, ?_⟩
        refine .inr ⟨rfl, hmode, ?_⟩
        rcases himage with himage | himage
        · exact .inr ⟨image_file, image_type, himage.symm, by simp, hprobed, hknown, hne⟩
        · exact .inl (by rw [← himage]; rfl)
      · refine safe_pure ⟨fun _ => ?_, .inl rfl⟩
        intro file probed hmem _
        rcases List.mem_append.mp hmem with hmem | hmem
        · exact h file probed hmem hknown
        · obtain ⟨-, rfl⟩ := Event.probePartitionFileType.inj (List.mem_singleton.mp hmem)
          exact not_not.mp heq

theorem justified_openReadonly (h : part_mode = .mustExist → Matching log part_type) :
    Safe (Justified part_type part_mode part_init_file readonly) (openReadonly backend part_name part_file) log
      (Opened part_type part_mode part_init_file readonly part_file) := by
  unfold openReadonly
  refine safe_ask_bind (fun _ => justified_question (fun _ => id) (by simp)) fun there => ?_
  refine safe_ite (fun hthere => safe_pure ⟨by simp, fun hmode => ?_⟩) fun _ => safe_fail
  rw [hthere]
  exact ⟨.inl lastLook_concat, (h hmode).concat (by simp)⟩

/-- What is known of the image once it was tried to lock it. -/
structure Locked (part_type : AndroidPartitionType) (part_mode : AndroidPartitionOpenMode)
    (part_init_file part_file : Option String) (locked : Option (String × Bool)) (log : List Event) : Prop where
  matching : part_mode = .mustExist → Matching log part_type
  refused : locked = none → ∀ file, part_file = some file → .pathLockFile file false ∈ log
  image : ∀ image, locked = some image →
    (image.2 = true → Replaceable part_type part_mode part_init_file log (some image.1)) ∧
      (part_mode = .mustExist → LastLook log (some image.1) true ∧ (image.2 = true → part_init_file.isSome))

/-- A reason to make the image empty, before it is locked. -/
theorem Checked.replaceable {mode : AndroidPartitionOpenMode}
    (h : Checked part_type part_mode part_file part_init_file mode log)
    (hneed : (decide (mode = .mustWipe) || part_init_file.isSome) = true) :
    Replaceable part_type part_mode part_init_file log part_file := by
  rw [Bool.or_eq_true, decide_eq_true_eq] at hneed
  rcases hneed with hwipe | hinit
  · rcases h.mode with hmode | ⟨-, hmode, hinit | hmismatch⟩
    · exact .inr (.inr (.inl (hmode ▸ hwipe)))
    · exact .inr (.inr (.inr (.inl hinit)))
    · exact .inr (.inr (.inr (.inr ⟨hmode, hmismatch⟩)))
  · exact .inr (.inr (.inr (.inl hinit)))

theorem Checked.mustExist {mode : AndroidPartitionOpenMode}
    (h : Checked part_type part_mode part_file part_init_file mode log) (hmode : part_mode = .mustExist) :
    mode = .mustExist := by
  rcases h.mode with heq | ⟨-, hne, -⟩
  · exact heq.trans hmode
  · exact absurd hmode hne

/-- What was verified stays verified. -/
theorem Checked.concat {mode : AndroidPartitionOpenMode}
    (h : Checked part_type part_mode part_file part_init_file mode log) {e : Event}
    (he : ∀ file probed, e ≠ .probePartitionFileType file probed) :
    Checked part_type part_mode part_file part_init_file mode (log ++ [e]) := by
  refine ⟨fun hmode => (h.matching hmode).concat he, ?_⟩
  rcases h.mode with heq | ⟨hwipe, hmode, hinit | hmismatch⟩
  · exact .inl heq
  · exact .inr ⟨hwipe, hmode, .inl hinit⟩
  · exact .inr ⟨hwipe, hmode, .inr (hmismatch.append _)⟩

theorem justified_lockImage {mode : AndroidPartitionOpenMode} (hro : readonly = false)
    (h : Checked part_type part_mode part_file part_init_file mode log) :
    Safe (Justified part_type part_mode part_init_file readonly)
      (lockImage backend part_name mode part_file (decide (mode = .mustWipe) || part_init_file.isSome)) log
      (Locked part_type part_mode part_init_file part_file) := by
  unfold lockImage
  cases part_file with
  | none => exact safe_pure ⟨h.matching, by simp, by simp⟩
  | some file =>
    refine safe_ask_bind (fun _ => justified_question (fun _ => id) (by simp)) fun locked => ?_
    replace h := h.concat (e := .pathLockFile file locked) (by simp)
    refine safe_ite (fun _ => ?_) fun hrefused => safe_pure ⟨h.matching, ?_, by simp⟩
    · refine safe_ask_bind (fun _ => justified_question (fun _ => id) (by simp)) fun there => ?_
      replace h := h.concat (e := .pathExists (some file) there) (by simp)
      refine safe_ite (fun hthere => safe_pure ⟨h.matching, by simp, ?_⟩) fun hmissing => ?_
      · intro image himage
        obtain rfl := Option.some.inj himage
        refine ⟨h.replaceable, fun hmode => ⟨hthere ▸ lastLook_concat, fun hneed => ?_⟩⟩
        simpa [h.mustExist hmode] using hneed
      · refine safe_ite (fun _ => safe_fail) fun hmode => ?_
        have hnot : part_mode ≠ .mustExist := fun hmust => hmode (h.mustExist hmust)
        have hlook : LastLook (log ++ [.pathLockFile file locked] ++ [.pathExists (some file) there])
            (some file) false := by
          rw [Bool.not_eq_true] at hmissing
          exact hmissing ▸ lastLook_concat
        refine safe_ask_bind (fun _ => ?_) fun created => ?_
        · refine ⟨fun path hpath => ?_, by simp⟩
          rw [show path = some file from hpath]
          exact ⟨hro, .inr (.inl hlook), fun hmust => absurd hmust hnot⟩
        · refine safe_ite (fun _ => safe_pure ⟨fun hmust => absurd hmust hnot, by simp, ?_⟩)
            fun _ => ⟨hist_nil, fun _ h => nomatch h⟩
          intro image himage
          obtain rfl := Option.some.inj himage
          exact ⟨fun _ => .inr (.inl (hlook.concat trivial)), fun hmust => absurd hmust hnot⟩
    · intro _ other hother
      obtain rfl := Option.some.inj hother
      rw [Bool.not_eq_true] at hrefused
      simp [hrefused]

/-- What is known of the file that will be the image. -/
structure Chosen (part_type : AndroidPartitionType) (part_mode : AndroidPartitionOpenMode)
    (part_init_file part_file : Option String) (image : String × Bool) (log : List Event) : Prop where
  empties : image.2 = true → Replaceable part_type part_mode part_init_file log (some image.1)
  found : part_mode = .mustExist → Acceptable part_file log (some image.1) ∧ Matching log part_type
  kept : part_mode = .mustExist → image.2 = true → Temp log (some image.1) ∨ part_init_file.isSome

theorem justified_orTempImage {locked : Option (String × Bool)}
    (h : Locked part_type part_mode part_init_file part_file locked log) :
    Safe (Justified part_type part_mode part_init_file readonly) (orTempImage backend part_name locked) log
      (Chosen part_type part_mode part_init_file part_file) := by
  unfold orTempImage
  cases locked with
  | some image =>
    obtain ⟨hempties, hmust⟩ := h.image image rfl
    exact safe_pure ⟨hempties, fun hmode => ⟨.inl (hmust hmode).1, h.matching hmode⟩,
      fun hmode hempty => .inr ((hmust hmode).2 hempty)⟩
  | none =>
    refine safe_ask_bind (fun _ => justified_question (fun _ => id) (by simp)) fun temp => ?_
    cases temp with
    | none => exact ⟨hist_nil, fun _ h => nomatch h⟩
    | some file =>
      have htemp : Temp (log ++ [.pathCreateTempFile (some file)]) (some file) := ⟨file, rfl, by simp⟩
      refine safe_pure ⟨fun _ => .inl htemp, fun hmode => ⟨.inr ⟨htemp, ?_⟩, ?_⟩, fun _ _ => .inl htemp⟩
      · exact fun other hother => List.mem_append_left _ (h.refused rfl other hother)
      · exact (h.matching hmode).blind trivial

theorem justified_copyInit {image : String × Bool} (hro : readonly = false)
    (h : Chosen part_type part_mode part_init_file part_file image log) :
    Safe (Justified part_type part_mode part_init_file readonly)
      (copyInit backend part_name part_init_file image) log
      (Opened part_type part_mode part_init_file readonly part_file) := by
  unfold copyInit
  cases hinit : part_init_file with
  | none =>
    subst hinit
    refine safe_pure ⟨fun hempty => ⟨hro, h.empties hempty, fun hmode => ?_⟩, h.found⟩
    exact (h.kept hmode hempty).resolve_right (by simp)
  | some init =>
    refine safe_ask_bind (fun _ => ?_) fun copied => ?_
    · refine ⟨fun path _ => ⟨hro, .inr (.inr (.inr (.inl rfl))), fun _ => .inr ⟨_, _, _, rfl⟩⟩, by simp⟩
    · refine safe_ite (fun _ => safe_pure ⟨by simp, fun hmode => ?_⟩) fun _ => ⟨hist_nil, fun _ h => nomatch h⟩
      exact ⟨(h.found hmode).1.concat trivial, (h.found hmode).2.blind trivial⟩

theorem justified_openImage {mode : AndroidPartitionOpenMode} {init : Option String}
    (h : Checked part_type part_mode part_file init mode log)
    (hinit : readonly = false → init = part_init_file) :
    Safe (Justified part_type part_mode part_init_file readonly)
      (openImage backend part_name mode part_file init readonly) log
      (Opened part_type part_mode part_init_file readonly part_file) := by
  unfold openImage
  refine safe_ite (fun _ => justified_openReadonly backend part_name h.matching) fun hwritable => ?_
  have hro : readonly = false := by simpa using hwritable
  obtain rfl := hinit hro
  unfold openWritable
  refine safe_bind (justified_lockImage backend part_name hro h) fun locked _ hlocked => ?_
  refine safe_bind (justified_orTempImage backend part_name hlocked) fun image _ hchosen => ?_
  exact justified_copyInit backend part_name hro hchosen

theorem justified_finishImage {image : Option String × Bool} (type : AndroidPartitionType) (part_size : UInt64)
    (h : Opened part_type part_mode part_init_file readonly part_file image log) :
    Safe (Justified part_type part_mode part_init_file readonly)
      (finishImage backend part_name type part_size image) log
      fun done log' => part_mode = .mustExist → Acceptable part_file log' done.1 ∧ Matching log' part_type := by
  unfold finishImage
  refine safe_ite (fun hempty => ?_) fun _ => safe_pure h.found
  obtain ⟨hro, hreplace, htemp⟩ := h.empties hempty
  unfold makeEmpty
  refine safe_bind (Q := fun _ log' => part_mode = .mustExist →
    Acceptable part_file log' image.1 ∧ Matching log' part_type) ?_ fun _ _ hfound => safe_pure hfound
  refine safe_ask_bind (fun _ => ?_) fun emptied => ?_
  · refine ⟨fun path hpath => ?_, by simp⟩
    rw [show path = image.1 from hpath]
    exact ⟨hro, hreplace, fun hmode => .inl (htemp hmode)⟩
  · refine safe_ite (fun _ => ⟨hist_nil, fun _ h => nomatch h⟩) fun _ => safe_pure fun hmode => ?_
    exact ⟨(h.found hmode).1.concat trivial, (h.found hmode).2.blind trivial⟩

theorem initFile_of_writable (part_file init : Option String) : initFile part_file init false = init := by
  simp [initFile]

theorem justified_prepareImage (part_size : UInt64) (file : Option String) (h : Matching log part_type) :
    Safe (Justified part_type part_mode part_init_file readonly)
      (prepareImage backend part_name part_type part_mode part_size (mainFile file part_init_file readonly)
        (initFile file part_init_file readonly) readonly) log
      fun done log' => part_mode = .mustExist →
        Acceptable (mainFile file part_init_file readonly) log' done.1 ∧ Matching log' part_type := by
  unfold prepareImage
  refine safe_bind (justified_checkType backend part_name h) fun checked _ hchecked => ?_
  refine safe_bind (justified_openImage backend part_name hchecked ?_) fun image _ hopened => ?_
  · intro hro
    rw [hro, initFile_of_writable]
  · exact justified_finishImage backend part_name checked.1 part_size hopened

end Stages

/-! ### One call -/

section Call

variable (backend : Backend) (part_name : String) (part_type : AndroidPartitionType)
  (part_mode : AndroidPartitionOpenMode) (part_size : UInt64) (part_file part_init_file : Option String)
  (readonly : Bool)

/-- The part of `addNandImage` before the callback. -/
def prepare : Program (Option String × AndroidPartitionType) := do
  checkParameters backend part_name part_size (sanitize part_init_file)
  prepareImage backend part_name part_type part_mode part_size
    (mainFile (sanitize part_file) (sanitize part_init_file) readonly)
    (initFile (sanitize part_file) (sanitize part_init_file) readonly) readonly

theorem addNandImage_eq :
    addNandImage backend part_name part_type part_mode part_size part_file part_init_file readonly =
      (prepare backend part_name part_type part_mode part_size part_file part_init_file readonly >>=
        fun image => callSetup part_name part_size image.1 image.2 readonly) := by
  unfold addNandImage prepare
  rw [Prog.bind_assoc]

theorem justified_prepare :
    Safe (Justified part_type part_mode (sanitize part_init_file) readonly)
      (prepare backend part_name part_type part_mode part_size part_file part_init_file readonly) []
      fun done log => part_mode = .mustExist →
        Acceptable (mainFile (sanitize part_file) (sanitize part_init_file) readonly) log done.1 ∧
          Matching log part_type := by
  unfold prepare
  refine safe_bind (justified_checkParameters backend part_name part_size _ matching_nil) fun _ _ h => ?_
  exact justified_prepareImage backend part_name part_size _ h

/-- No callback among the calls. -/
def NoSetup (es : List Event) : Prop := ∀ name size path type ro, .setup name size path type ro ∉ es

theorem noSetup_of_justified {init : Option String} {es : List Event}
    (h : Hist (fun pre e => Justified part_type part_mode init readonly pre e) es) : NoSetup es := by
  intro name size path type ro hmem
  obtain ⟨pre, post, hes⟩ := List.append_of_mem hmem
  exact (h pre _ post hes).2 name size path type ro rfl

/-- **What is in an image stays there** unless there is a reason (`Replaceable`), and always in read-only
mode. With `MUST_EXIST`, only a temporary image is emptied, and the call succeeds only with images of the
right type, and with one that exists or that takes the place of one that is none or cannot be locked.
`setup_func` is the last call if `addNandImage` returns true, and there is no other one. -/
theorem image_preserved :
    let run := addNandImage backend part_name part_type part_mode part_size part_file part_init_file readonly []
    (∀ pre e post, run.2 = pre ++ e :: post → ∀ path, e.Writes path → readonly = false ∧
      Replaceable part_type part_mode (sanitize part_init_file) pre path ∧
        (part_mode = .mustExist → Temp pre path ∨ ∃ dest source answer, e = .pathCopyFile dest source answer)) ∧
    (run.1 = .ok () → ∃ es path type, run.2 = es ++ [.setup part_name part_size path type readonly] ∧
      NoSetup es ∧ (part_mode = .mustExist →
        Acceptable (mainFile (sanitize part_file) (sanitize part_init_file) readonly) es path ∧
          Matching es part_type)) ∧
    (run.1 ≠ .ok () → NoSetup run.2) := by
  obtain ⟨hhist, hpost⟩ := justified_prepare backend part_name part_type part_mode part_size part_file
    part_init_file readonly
  simp only [List.nil_append] at hhist hpost
  dsimp only
  rw [addNandImage_eq]
  cases hrun : prepare backend part_name part_type part_mode part_size part_file part_init_file readonly [] with
  | mk outcome es =>
    rw [hrun] at hhist hpost
    have hquiet : NoSetup es := noSetup_of_justified part_type part_mode readonly hhist
    cases outcome with
    | error e =>
      rw [bind_run_error hrun]
      exact ⟨fun pre e post hes => (hhist pre e post hes).1, nofun, fun _ => hquiet⟩
    | ok done =>
      rw [bind_run_ok hrun]
      refine ⟨?_, fun _ => ⟨es, done.1, done.2, rfl, hquiet, hpost done rfl⟩, fun h => absurd rfl h⟩
      intro pre e post hes path hpath
      have hwhole : Hist (fun pre e => ∀ path, e.Writes path → readonly = false ∧
          Replaceable part_type part_mode (sanitize part_init_file) pre path ∧
            (part_mode = .mustExist → Temp pre path ∨ ∃ dest source answer, e = .pathCopyFile dest source answer))
          (es ++ [.setup part_name part_size done.1 done.2 readonly]) := by
        rw [hist_concat]
        exact ⟨fun pre e post hes => (hhist pre e post hes).1, fun _ h => h.elim⟩
      exact hwhole pre e post hes path hpath

end Call

/-! ### A missing image -/

/-- A host without any file, on which nothing can be locked. -/
def emptyBackend : Backend where
  pathExists := fun _ _ => false
  pathEmptyFile := fun _ _ => true
  pathCopyFile := fun _ _ _ => false
  pathLockFile := fun _ _ => false
  pathCreateTempFile := fun _ => some "/tmp/emulator"
  probePartitionFileType := fun _ _ => .unknown
  extractRamdiskFile := fun _ _ _ => none
  parsePartitionFormat := fun _ _ _ => none
  makeEmptyPartition := fun _ _ _ _ => true
  pathFileSize := fun _ _ => none
  pathIsQcow2 := fun _ _ => false
  strerror := fun _ => "read-only file system"

/-- The image has to exist and does not, but it cannot be locked either, so an empty temporary one is set
up and the call succeeds. -/
theorem temp_image_for_missing :
    ¬ ((∀ log, emptyBackend.pathExists log (some "system.img") = false) →
        (addNandImage emptyBackend "system" .ext4 .mustExist 1024 (some "system.img") none false []).1 ≠
          .ok ()) := by
  intro h
  refine h (fun _ => rfl) ?_
  decide +kernel

end Goldfish.Filesystems

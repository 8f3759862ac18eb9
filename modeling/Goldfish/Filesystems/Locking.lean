import Goldfish.Filesystems.PartitionConfig

/-!
# Goldfish.Filesystems.Locking

**An image in use is not written.** Every call that changes a file does so to a file
the run has locked or to a temporary one it has created (`InUseSafe`), with one
exception: the resize at the end goes to the configured path of the userdata image,
whether or not that is the file in use for it. `in_use_iff` says exactly when this makes
a difference.

`Secured` only grows along a run, so each stage needs one rule: `lockImage` and
`orTempImage` establish it for the image, the others use it.
-/

namespace Goldfish.Filesystems

open Goldfish.Lib Goldfish.Lib.Prog

/-! ### Events that change a file -/

/-- The call changes the file at the path. -/
def Event.Writes : Event → Option String → Prop
  | .pathEmptyFile file _, path => path = some file
  | .pathCopyFile dest _ _, path => path = some dest
  | .makeEmptyPartition _ _ file _, path => path = file
  | .resizeExt4Partition file _, path => path = some file
  | _, _ => False

/-- The file was locked, or created as a temporary one. -/
def Secured (log : List Event) (path : Option String) : Prop :=
  ∃ file, path = some file ∧ (.pathLockFile file true ∈ log ∨ .pathCreateTempFile (some file) ∈ log)

/-- The event changes secured files only. -/
def InUseSafe (log : List Event) (e : Event) : Prop := ∀ path, e.Writes path → Secured log path

theorem Secured.append {log : List Event} {path : Option String} (h : Secured log path) (es : List Event) :
    Secured (log ++ es) path := by
  obtain ⟨file, hpath, hfile⟩ := h
  refine ⟨file, hpath, ?_⟩
  rcases hfile with hlock | htemp
  · exact .inl (List.mem_append_left es hlock)
  · exact .inr (List.mem_append_left es htemp)

theorem inUseSafe_of_not_writes {log : List Event} {e : Event} (h : ∀ path, ¬ e.Writes path) :
    InUseSafe log e := fun path hpath => absurd hpath (h path)

theorem inUseSafe_of_secured {log : List Event} {e : Event} {file : Option String} (h : Secured log file)
    (he : ∀ path, e.Writes path → path = file) : InUseSafe log e := by
  intro path hpath
  rwa [he path hpath]

section Stages

variable (backend : Backend) (part_name : String) (part_type : AndroidPartitionType)
  (part_mode : AndroidPartitionOpenMode) (part_size : UInt64) (part_file part_init_file : Option String)
  (readonly : Bool) (log : List Event)

/-- Nothing is asked of the result. -/
abbrev SafeRun {α : Type} (m : Program α) (log : List Event) : Prop := Safe InUseSafe m log fun _ _ => True

/-- A question changes nothing. -/
theorem safe_question {α : Type} {answer : List Event → α} {event : α → Event}
    (h : ∀ a path, ¬ (event a).Writes path) : SafeRun (.ask answer event) log :=
  safe_ask (fun a => inUseSafe_of_not_writes (h a)) fun _ => trivial

theorem safe_errno {α : Type} {Q : α → List Event → Prop} (message stop : String) :
    Safe InUseSafe (partition_config_errno backend message stop : Program α) log Q :=
  ⟨hist_nil, fun _ h => nomatch h⟩

theorem safe_checkParameters : SafeRun (checkParameters backend part_name part_size part_init_file) log := by
  unfold checkParameters
  refine safe_ite (fun _ => safe_fail) fun _ => ?_
  cases part_init_file with
  | none => exact safe_pure trivial
  | some init =>
    refine safe_bind (safe_question log fun _ _ => id) ?_
    intro _ _ _
    exact safe_ite (fun _ => safe_pure trivial) fun _ => safe_fail

theorem safe_imageFile : SafeRun (imageFile backend part_file part_init_file) log := by
  unfold imageFile
  cases part_file with
  | none => exact safe_pure trivial
  | some file =>
    refine safe_bind (safe_question log fun _ _ => id) ?_
    intro _ _ _
    exact safe_ite (fun _ => safe_pure trivial) fun _ => safe_pure trivial

theorem safe_probe (file : String) : SafeRun (callProbePartitionFileType backend file) log :=
  safe_question log fun _ _ => id

theorem safe_checkType :
    SafeRun (checkType backend part_name part_type part_mode part_file part_init_file) log := by
  unfold checkType
  refine safe_bind (safe_imageFile backend part_file part_init_file log) ?_
  intro image log' _
  cases image with
  | none => exact safe_ite (fun _ => safe_fail) fun _ => safe_pure trivial
  | some image_file =>
    refine safe_ite (fun _ => ?_) fun _ => ?_
    · exact safe_bind (safe_probe backend log' image_file) fun _ _ _ => safe_pure trivial
    · refine safe_bind (safe_probe backend log' image_file) fun _ _ _ => ?_
      refine safe_ite (fun _ => safe_fail) fun _ => safe_ite (fun _ => ?_) fun _ => safe_pure trivial
      exact safe_ite (fun _ => safe_fail) fun _ => safe_pure trivial

theorem safe_openReadonly :
    Safe InUseSafe (openReadonly backend part_name part_file) log fun image _ => image.2 = false := by
  unfold openReadonly
  refine safe_bind (safe_question log fun _ _ => id) ?_
  intro _ _ _
  exact safe_ite (fun _ => safe_pure rfl) fun _ => safe_fail

theorem safe_lockImage (need_make_empty : Bool) :
    Safe InUseSafe (lockImage backend part_name part_mode part_file need_make_empty) log
      fun locked log' => ∀ image, locked = some image → Secured log' (some image.1) := by
  unfold lockImage
  cases part_file with
  | none => exact safe_pure (by simp)
  | some file =>
    refine safe_ask_bind (fun _ => inUseSafe_of_not_writes fun _ => id) fun locked => ?_
    refine safe_ite (fun hlocked => ?_) fun _ => safe_pure (by simp)
    have hsecured : Secured (log ++ [.pathLockFile file locked]) (some file) := by
      rw [hlocked]
      exact ⟨file, rfl, .inl (by simp)⟩
    refine safe_ask_bind (fun _ => inUseSafe_of_not_writes fun _ => id) fun there => ?_
    replace hsecured := hsecured.append [.pathExists (some file) there]
    refine safe_ite (fun _ => safe_pure ?_) fun _ => safe_ite (fun _ => safe_fail) fun _ => ?_
    · intro image himage
      obtain rfl := Option.some.inj himage
      exact hsecured
    · -- the missing image is created at the locked path
      refine safe_ask_bind (fun _ => inUseSafe_of_secured hsecured fun _ => id) fun created => ?_
      refine safe_ite (fun _ => safe_pure ?_) fun _ => safe_errno ..
      intro image himage
      obtain rfl := Option.some.inj himage
      exact hsecured.append _

theorem safe_orTempImage {locked : Option (String × Bool)}
    (h : ∀ image, locked = some image → Secured log (some image.1)) :
    Safe InUseSafe (orTempImage backend part_name locked) log
      fun image log' => Secured log' (some image.1) := by
  unfold orTempImage
  cases locked with
  | some image => exact safe_pure (h image rfl)
  | none =>
    refine safe_ask_bind (fun _ => inUseSafe_of_not_writes fun _ => id) fun temp => ?_
    cases temp with
    | none => exact safe_errno ..
    | some file => exact safe_pure ⟨file, rfl, .inr (by simp)⟩

theorem safe_copyInit {image : String × Bool} (h : Secured log (some image.1)) :
    Safe InUseSafe (copyInit backend part_name part_init_file image) log
      fun opened log' => Secured log' opened.1 := by
  unfold copyInit
  cases part_init_file with
  | none => exact safe_pure h
  | some init =>
    refine safe_ask_bind (fun _ => inUseSafe_of_secured h fun _ => id) fun copied => ?_
    exact safe_ite (fun _ => safe_pure (h.append _)) fun _ => safe_errno ..

/-- An image that is to be made empty is secured. -/
theorem safe_openImage :
    Safe InUseSafe (openImage backend part_name part_mode part_file part_init_file readonly) log
      fun opened log' => opened.2 = true → Secured log' opened.1 := by
  unfold openImage
  refine safe_ite (fun _ => ?_) fun _ => ?_
  · refine (safe_openReadonly backend part_name part_file log).mono fun opened _ hopened => ?_
    simp [hopened]
  · unfold openWritable
    refine safe_bind (safe_lockImage backend part_name part_mode part_file log _) ?_
    intro locked log' hlocked
    refine safe_bind (safe_orTempImage backend part_name log' hlocked) ?_
    intro image log'' himage
    exact (safe_copyInit backend part_name part_init_file log'' himage).mono fun _ _ h _ => h

theorem safe_makeEmpty {file : Option String} (h : Secured log file) :
    SafeRun (makeEmpty backend part_name part_type part_size file) log := by
  unfold makeEmpty
  refine safe_ask_bind (fun _ => inUseSafe_of_secured h fun _ => id) fun emptied => ?_
  exact safe_ite (fun _ => safe_errno ..) fun _ => safe_pure trivial

/-- **One partition**: every file that is changed is secured. -/
theorem safe_addNandImage :
    SafeRun (addNandImage backend part_name part_type part_mode part_size part_file part_init_file readonly)
      log := by
  unfold addNandImage prepareImage
  refine safe_bind (safe_checkParameters backend part_name part_size (sanitize part_init_file) log) ?_
  intro _ log₁ _
  refine safe_bind (Q := fun _ _ => True) ?_ fun _ log' _ =>
    safe_question log' fun _ _ => id
  refine safe_bind (safe_checkType backend part_name part_type part_mode _ _ log₁) ?_
  intro checked log₂ _
  refine safe_bind (safe_openImage backend part_name checked.2 _ _ readonly log₂) ?_
  intro image log₃ himage
  unfold finishImage
  refine safe_ite (fun hempty => ?_) fun _ => safe_pure trivial
  exact safe_bind (safe_makeEmpty backend part_name checked.1 part_size log₃ (himage hempty))
    fun _ _ _ => safe_pure trivial

end Stages

/-! ### The whole configuration -/

section Setup

variable (backend : Backend) (config : AndroidPartitionConfiguration) (log : List Event)

theorem safe_extractPartitionFormat (fstab partitionPath : String) :
    SafeRun (extractPartitionFormat backend fstab partitionPath) log := by
  unfold extractPartitionFormat
  refine safe_bind (safe_question log fun _ _ => id) ?_
  intro format _ _
  cases format with
  | none => exact safe_pure trivial
  | some partFormat => exact safe_pure trivial

theorem safe_partitionTypes : SafeRun (partitionTypes backend config) log := by
  unfold partitionTypes
  refine safe_bind (safe_question log fun _ _ => id) ?_
  intro fstab log' _
  cases fstab with
  | none => exact safe_pure trivial
  | some fstab =>
    refine safe_bind (safe_extractPartitionFormat backend log' fstab "/system") fun _ log₁ _ => ?_
    refine safe_bind (safe_extractPartitionFormat backend log₁ fstab "/vendor") fun _ log₂ _ => ?_
    refine safe_bind (safe_extractPartitionFormat backend log₂ fstab "/data") fun _ log₃ _ => ?_
    exact safe_bind (safe_extractPartitionFormat backend log₃ fstab "/cache") fun _ _ _ => safe_pure trivial

theorem safe_addImages (types : PartitionTypes) : SafeRun (addImages backend config types) log := by
  unfold addImages addVendor
  refine safe_bind (safe_addNandImage ..) fun _ log₁ _ => ?_
  refine safe_bind (safe_ite (fun _ => safe_addNandImage ..) fun _ => safe_pure trivial) fun _ log₂ _ => ?_
  exact safe_addNandImage ..

/-- The path that is to be resized is the configured one. -/
theorem safe_resizeDue (type : AndroidPartitionType) :
    Safe InUseSafe (resizeDue backend config type) log
      fun due _ => ∀ path, due = some path → config.data_partition.path = some path := by
  unfold resizeDue fsPath
  cases hpath : config.data_partition.path with
  | none => exact safe_bind (Q := fun _ _ => False) safe_fail fun _ _ h => h.elim
  | some path =>
    refine safe_bind (Q := fun chosen _ => chosen = path) (safe_pure rfl) fun chosen log₁ hchosen => ?_
    subst hchosen
    refine safe_bind (safe_question log₁ fun _ _ => id) fun _ log₂ _ => ?_
    refine safe_ite (fun _ => ?_) fun _ => safe_pure (by simp)
    refine safe_bind (safe_question log₂ fun _ _ => id) fun _ log₃ _ => ?_
    refine safe_ite (fun _ => safe_pure (by simp)) fun _ => ?_
    exact safe_ite (fun _ => safe_pure fun _ h => h) fun _ => safe_pure (by simp)

theorem safe_setupToResize :
    Safe InUseSafe (setupToResize backend config) log
      fun found _ => ∀ path, found.2 = some path → config.data_partition.path = some path := by
  unfold setupToResize
  refine safe_bind (safe_partitionTypes backend config log) fun types log₁ _ => ?_
  refine safe_bind (safe_addImages backend config log₁ types) fun _ log₂ _ => ?_
  exact safe_bind (safe_resizeDue backend config log₂ types.userdata) fun due _ hdue => safe_pure hdue

theorem safe_addCache (type : AndroidPartitionType) : SafeRun (addCache backend config type) log := by
  unfold addCache
  exact safe_ite (fun _ => safe_addNandImage ..) fun _ => safe_pure trivial

theorem safe_resize {due : Option String} (h : ∀ path, due = some path → Secured log (some path)) :
    SafeRun (resize config due) log := by
  unfold resize
  cases due with
  | none => exact safe_pure trivial
  | some path =>
    exact safe_ask (fun _ => inUseSafe_of_secured (h path rfl) fun _ => id) fun _ => trivial

/-- The run comes to the resize of the userdata image, having done `es` so far. -/
def ReachesResize (es : List Event) : Prop :=
  ∃ types path, setupToResize backend config [] = (.ok (types, some path), es)

/-- The first part has one outcome. -/
theorem outcome_of_reachesResize {outcome : Except Failure (PartitionTypes × Option String)}
    {es es' : List Event} (hrun : setupToResize backend config [] = (outcome, es))
    (h : ReachesResize backend config es') :
    ∃ types path, outcome = .ok (types, some path) ∧ es' = es := by
  obtain ⟨types, path, hes'⟩ := h
  rw [hrun] at hes'
  exact ⟨types, path, congrArg Prod.fst hes', (congrArg Prod.snd hes').symm⟩

/-- The second part changes secured files only, if the one that is resized is. -/
theorem safe_resizeAndCache {due : Option String} (h : ∀ path, due = some path → Secured log (some path))
    (type : AndroidPartitionType) :
    SafeRun (resize config due >>= fun _ => addCache backend config type) log :=
  safe_bind (safe_resize config log h) fun _ log' _ => safe_addCache backend config log' type

/-- What follows the events of the first part. -/
theorem setup_run {types : PartitionTypes} {due : Option String} {es : List Event}
    (hrun : setupToResize backend config [] = (.ok (types, due), es)) :
    (android_partition_configuration_setup backend config []).2 =
      es ++ ((resize config due >>= fun _ => addCache backend config types.cache) es).2 := by
  unfold android_partition_configuration_setup
  rw [bind_run_ok hrun]
  rfl

/-- **Images in use.** In a run from the start, every file that is changed was locked or created as a
temporary one before, exactly if that holds of the configured userdata path whenever the run comes to the
resize. -/
theorem in_use_iff :
    Hist InUseSafe (android_partition_configuration_setup backend config []).2 ↔
      ∀ es, ReachesResize backend config es → Secured es config.data_partition.path := by
  have hfirst := safe_setupToResize backend config []
  rw [Safe] at hfirst
  simp only [List.nil_append] at hfirst
  obtain ⟨hhist, hpost⟩ := hfirst
  cases hrun : setupToResize backend config [] with
  | mk outcome es =>
    rw [hrun] at hhist hpost
    cases outcome with
    | error e =>
      unfold android_partition_configuration_setup
      rw [bind_run_error hrun]
      refine iff_of_true hhist fun es' hes' => ?_
      obtain ⟨_, _, h, -⟩ := outcome_of_reachesResize backend config hrun hes'
      cases h
    | ok found =>
      obtain ⟨types, due⟩ := found
      rw [setup_run backend config hrun, hist_append]
      cases due with
      | none =>
        have hdue : ∀ path, (none : Option String) = some path → Secured es (some path) := by simp
        have hrest := safe_resizeAndCache backend config es hdue types.cache
        refine iff_of_true ⟨hhist, hrest.1⟩ fun es' hes' => ?_
        obtain ⟨_, _, h, -⟩ := outcome_of_reachesResize backend config hrun hes'
        cases h
      | some path =>
        have hpath := hpost _ rfl path rfl
        rw [hpath]
        constructor
        · intro hall es' hes'
          obtain ⟨_, _, -, rfl⟩ := outcome_of_reachesResize backend config hrun hes'
          have hsafe := (hist_cons.mp hall.2).1 (some path) rfl
          rwa [List.append_nil] at hsafe
        · intro hsecured
          have hes := hsecured es ⟨types, path, hrun⟩
          have hdue : ∀ file, some path = some file → Secured es (some file) := by
            intro file hfile
            rw [← hfile]
            exact hes
          exact ⟨hhist, (safe_resizeAndCache backend config es hdue types.cache).1⟩

end Setup

/-! ### Two emulators -/

/-- A host on which the images exist, are in the ext4 format and cannot be locked. -/
def inUseBackend : Backend where
  pathExists := fun _ _ => true
  pathEmptyFile := fun _ _ => true
  pathCopyFile := fun _ _ _ => true
  pathLockFile := fun _ _ => false
  pathCreateTempFile := fun _ => some "/tmp/emulator"
  probePartitionFileType := fun _ _ => .ext4
  extractRamdiskFile := fun _ _ _ => some "fstab"
  parsePartitionFormat := fun _ _ _ => some "ext4"
  makeEmptyPartition := fun _ _ _ _ => true
  pathFileSize := fun _ _ => some 1024
  pathIsQcow2 := fun _ _ => false
  strerror := fun _ => "busy"

/-- The second emulator of an AVD, started with its data to be wiped. -/
def wipeConfig : AndroidPartitionConfiguration where
  ramdisk_path := some "ramdisk.img"
  fstab_name := some "fstab.goldfish"
  system_partition := ⟨1024, some "system.img", none⟩
  vendor_partition := ⟨0, none, none⟩
  data_partition := ⟨1024, some "userdata-qemu.img", none⟩
  cache_partition := ⟨0, none, none⟩
  kernel_supports_yaffs2 := false
  wipe_data := true
  writable_system := false

/-- The second emulator works on a temporary image and resizes the one that the first has in use. -/
theorem resize_of_image_in_use :
    ¬ Hist InUseSafe (android_partition_configuration_setup inUseBackend wipeConfig []).2 := by
  intro h
  have hrun : (android_partition_configuration_setup inUseBackend wipeConfig []).2 =
      ((android_partition_configuration_setup inUseBackend wipeConfig []).2.take 17) ++
        .resizeExt4Partition "userdata-qemu.img" 1024 :: [] := by
    decide +kernel
  obtain ⟨file, hfile, hsecured⟩ := h _ _ _ hrun (some "userdata-qemu.img") rfl
  obtain rfl := Option.some.inj hfile
  revert hsecured
  decide +kernel

end Goldfish.Filesystems

import Goldfish.Filesystems.PartitionConfig

/-!
# Goldfish.Filesystems.EmptyPartition

What comes of an image that **could not be made empty**. The answer of the backend is a
`bool`, and is taken for a negative error number: it never is one, so the callback gets
the image whatever the answer was (`Followed`). No failure is ever reported
(`failed_creation_iff`).

`logs_addNandImage` is the one stage with something to show: the calls of the others
make nothing empty.
-/

namespace Goldfish.Filesystems

open Goldfish.Lib Goldfish.Lib.Prog

/-- A failure to make an image empty ends the run with a message, and the callback does not get the image. -/
def FailuresReported (run : Except Failure Unit × List Event) : Prop :=
  ∀ pre type size path post, run.2 = pre ++ .makeEmptyPartition type size path false :: post →
    (∃ message, run.1 = .error (.error message)) ∧
      ∀ name readonly, .setup name size path type readonly ∉ post

/-- Right behind each image that is made empty, or is not, the callback gets it. -/
def Followed (es : List Event) : Prop :=
  ∀ pre type size path answer post, es = pre ++ .makeEmptyPartition type size path answer :: post →
    ∃ name readonly rest, post = .setup name size path type readonly :: rest

theorem followed_additive : Additive Followed where
  nil := by
    intro pre type size path answer post h
    simp at h
  append := by
    intro es es' hes hes' pre type size path answer post h
    rcases List.append_eq_append_iff.mp h with ⟨between, -, htail⟩ | ⟨between, hhead, htail⟩
    · exact hes' between type size path answer post htail
    · cases between with
      | nil => exact hes' [] type size path answer post htail.symm
      | cons e between =>
        obtain ⟨rfl, rfl⟩ := List.cons.inj htail
        obtain ⟨name, readonly, rest, hrest⟩ := hes pre type size path answer between hhead
        exact ⟨name, readonly, rest ++ es', by rw [hrest]; rfl⟩

/-- Any other event. -/
theorem followed_single {e : Event} (h : ∀ type size path answer, e ≠ .makeEmptyPartition type size path answer) :
    Followed [e] := by
  intro pre type size path answer post heq
  cases pre with
  | nil => exact absurd (List.cons.inj heq).1 (h type size path answer)
  | cons _ pre => simp at heq

/-- The event and the call of the callback. -/
theorem followed_pair (type : AndroidPartitionType) (size : UInt64) (path : Option String) (answer : Bool)
    (name : String) (readonly : Bool) :
    Followed [.makeEmptyPartition type size path answer, .setup name size path type readonly] := by
  intro pre type' size' path' answer' post heq
  cases pre with
  | nil =>
    obtain ⟨hevent, hpost⟩ := List.cons.inj heq
    obtain ⟨rfl, rfl, rfl, rfl⟩ := Event.makeEmptyPartition.inj hevent
    exact ⟨name, readonly, [], hpost.symm⟩
  | cons e pre =>
    have hrest := (List.cons.inj heq).2
    exact followed_single (by simp) pre type' size' path' answer' post hrest

section Stages

variable {backend : Backend} {part_name : String} {part_type : AndroidPartitionType}
  {part_mode : AndroidPartitionOpenMode} {part_size : UInt64} {part_file part_init_file : Option String}
  {readonly : Bool}

/-- A call of anything else. -/
theorem logs_call {α : Type} {answer : List Event → α} {event : α → Event}
    (h : ∀ a type size path made, event a ≠ .makeEmptyPartition type size path made) :
    Logs Followed (.ask answer event : Program α) := logs_ask fun a => followed_single (h a)

theorem logs_error {α : Type} {message : String} :
    Logs Followed (partition_config_error message : Program α) := logs_fail followed_additive _

theorem logs_errno {α : Type} {message stop : String} :
    Logs Followed (partition_config_errno backend message stop : Program α) :=
  fun _ => followed_additive.nil

theorem logs_value {α : Type} {a : α} : Logs Followed (pure a : Program α) := logs_pure followed_additive a

theorem logs_checkParameters : Logs Followed (checkParameters backend part_name part_size part_init_file) := by
  unfold checkParameters
  refine logs_ite logs_error ?_
  cases part_init_file with
  | none => exact logs_value
  | some init =>
    refine logs_bind followed_additive (logs_call (by simp)) ?_
    intro _
    exact logs_ite logs_value logs_error

theorem logs_imageFile : Logs Followed (imageFile backend part_file part_init_file) := by
  unfold imageFile
  cases part_file with
  | none => exact logs_value
  | some file =>
    refine logs_bind followed_additive (logs_call (by simp)) ?_
    intro _
    exact logs_ite logs_value logs_value

theorem logs_checkType :
    Logs Followed (checkType backend part_name part_type part_mode part_file part_init_file) := by
  have hprobe : ∀ file, Logs Followed (callProbePartitionFileType backend file) :=
    fun _ => logs_call (by simp)
  unfold checkType
  refine logs_bind followed_additive logs_imageFile ?_
  intro image
  cases image with
  | none => exact logs_ite logs_error logs_value
  | some image_file =>
    refine logs_ite (logs_bind followed_additive (hprobe image_file) fun _ => logs_value) ?_
    refine logs_bind followed_additive (hprobe image_file) fun _ => logs_ite logs_error ?_
    exact logs_ite (logs_ite logs_error logs_value) logs_value

theorem logs_openReadonly : Logs Followed (openReadonly backend part_name part_file) := by
  unfold openReadonly
  refine logs_bind followed_additive (logs_call (by simp)) ?_
  intro _
  exact logs_ite logs_value logs_error

theorem logs_lockImage {need_make_empty : Bool} :
    Logs Followed (lockImage backend part_name part_mode part_file need_make_empty) := by
  unfold lockImage
  cases part_file with
  | none => exact logs_value
  | some file =>
    refine logs_bind followed_additive (logs_call (by simp)) fun _ => logs_ite ?_ logs_value
    refine logs_bind followed_additive (logs_call (by simp)) fun _ => logs_ite logs_value ?_
    refine logs_ite logs_error (logs_bind followed_additive (logs_call (by simp)) fun _ => ?_)
    exact logs_ite logs_value logs_errno

theorem logs_orTempImage {locked : Option (String × Bool)} :
    Logs Followed (orTempImage backend part_name locked) := by
  unfold orTempImage
  cases locked with
  | some image => exact logs_value
  | none =>
    refine logs_bind followed_additive (logs_call (by simp)) ?_
    intro temp
    cases temp with
    | none => exact logs_errno
    | some file => exact logs_value

theorem logs_copyInit {image : String × Bool} :
    Logs Followed (copyInit backend part_name part_init_file image) := by
  unfold copyInit
  cases part_init_file with
  | none => exact logs_value
  | some init =>
    refine logs_bind followed_additive (logs_call (by simp)) ?_
    intro _
    exact logs_ite logs_value logs_errno

theorem logs_openImage :
    Logs Followed (openImage backend part_name part_mode part_file part_init_file readonly) := by
  unfold openImage
  refine logs_ite logs_openReadonly ?_
  unfold openWritable
  refine logs_bind followed_additive logs_lockImage fun locked => ?_
  exact logs_bind followed_additive logs_orTempImage fun image => logs_copyInit

/-- Making an image empty never fails. -/
theorem makeEmpty_run (log : List Event) :
    makeEmpty backend part_name part_type part_size part_file log =
      (.ok (), [.makeEmptyPartition part_type part_size part_file
        (backend.makeEmptyPartition log part_type part_size part_file)]) := by
  unfold makeEmpty
  have hnever : ∀ answer : Bool, ¬ (if answer then (1 : Int) else 0) < 0 := by decide
  rw [bind_run_ok (show callMakeEmptyPartition backend part_type part_size part_file log = (.ok _, [_]) from rfl)]
  dsimp only
  rw [if_neg (hnever _)]
  rfl

/-- **The last two calls for an image.** -/
theorem logs_finishImage {image : Option String × Bool} :
    Logs Followed (finishImage backend part_name part_type part_size image >>= fun finished =>
      callSetup part_name part_size finished.1 finished.2 readonly) := by
  unfold finishImage
  cases image.2 with
  | false => exact logs_bind followed_additive logs_value fun _ => logs_call (by simp)
  | true =>
    intro log
    rw [if_pos rfl, bind_run_ok (bind_run_ok (makeEmpty_run log))]
    exact followed_pair part_type part_size image.1 _ part_name readonly

/-- **One partition.** -/
theorem logs_addNandImage :
    Logs Followed (addNandImage backend part_name part_type part_mode part_size part_file part_init_file
      readonly) := by
  unfold addNandImage prepareImage
  refine logs_bind followed_additive logs_checkParameters fun _ => ?_
  rw [bind_assoc]
  refine logs_bind followed_additive logs_checkType fun checked => ?_
  rw [bind_assoc]
  exact logs_bind followed_additive logs_openImage fun image => logs_finishImage

end Stages

section Setup

variable {backend : Backend} {config : AndroidPartitionConfiguration}

theorem logs_partitionTypes : Logs Followed (partitionTypes backend config) := by
  have hformat : ∀ fstab partitionPath, Logs Followed (extractPartitionFormat backend fstab partitionPath) := by
    intro fstab partitionPath
    unfold extractPartitionFormat
    refine logs_bind followed_additive (logs_call (by simp)) ?_
    intro format
    cases format with
    | none => exact logs_value
    | some partFormat => exact logs_value
  unfold partitionTypes
  refine logs_bind followed_additive (logs_call (by simp)) ?_
  intro fstab
  cases fstab with
  | none => exact logs_value
  | some fstab =>
    refine logs_bind followed_additive (hformat fstab "/system") fun _ => ?_
    refine logs_bind followed_additive (hformat fstab "/vendor") fun _ => ?_
    refine logs_bind followed_additive (hformat fstab "/data") fun _ => ?_
    exact logs_bind followed_additive (hformat fstab "/cache") fun _ => logs_value

theorem logs_addImages {types : PartitionTypes} : Logs Followed (addImages backend config types) := by
  unfold addImages addVendor
  refine logs_bind followed_additive logs_addNandImage fun _ => ?_
  refine logs_bind followed_additive (logs_ite logs_addNandImage logs_value) fun _ => ?_
  exact logs_addNandImage

theorem logs_resizeDue {type : AndroidPartitionType} : Logs Followed (resizeDue backend config type) := by
  unfold resizeDue fsPath
  refine logs_bind followed_additive ?_ fun path => ?_
  · split
    · exact logs_value
    · exact logs_fail followed_additive _
  · refine logs_bind followed_additive (logs_call (by simp)) fun _ => logs_ite ?_ logs_value
    refine logs_bind followed_additive (logs_call (by simp)) fun _ => logs_ite logs_value ?_
    exact logs_ite logs_value logs_value

theorem logs_addCache {type : AndroidPartitionType} : Logs Followed (addCache backend config type) := by
  unfold addCache
  exact logs_ite logs_addNandImage logs_value

/-- **Every run.** -/
theorem logs_setup : Logs Followed (android_partition_configuration_setup backend config) := by
  unfold android_partition_configuration_setup setupToResize
  refine logs_bind followed_additive ?_ fun found => logs_bind followed_additive ?_ fun _ => logs_addCache
  · refine logs_bind followed_additive logs_partitionTypes fun types => ?_
    refine logs_bind followed_additive logs_addImages fun _ => ?_
    exact logs_bind followed_additive logs_resizeDue fun due => logs_value
  · unfold resize
    split
    · exact logs_call (by simp)
    · exact logs_value

end Setup

/-- **Failed creations.** For every host and configuration, what could not be made empty is reported, and
kept from the callback, exactly if nothing fails to be made empty. -/
theorem failed_creation_iff (backend : Backend) (config : AndroidPartitionConfiguration) :
    FailuresReported (android_partition_configuration_setup backend config []) ↔
      ∀ type size path, .makeEmptyPartition type size path false ∉
        (android_partition_configuration_setup backend config []).2 := by
  constructor
  · intro h type size path hmem
    obtain ⟨pre, post, hrun⟩ := List.append_of_mem hmem
    obtain ⟨name, readonly, rest, hpost⟩ := logs_setup [] pre type size path false post hrun
    refine (h pre type size path post hrun).2 name readonly ?_
    rw [hpost]
    exact List.mem_cons_self
  · intro h pre type size path post hrun
    refine absurd ?_ (h type size path)
    rw [hrun]
    simp

/-! ### A full disk -/

/-- A host without any image, on which nothing can be made empty. -/
def fullBackend : Backend where
  pathExists := fun _ path => path = some "system.img"
  pathEmptyFile := fun _ _ => true
  pathCopyFile := fun _ _ _ => true
  pathLockFile := fun _ _ => true
  pathCreateTempFile := fun _ => some "/tmp/emulator"
  probePartitionFileType := fun _ _ => .ext4
  extractRamdiskFile := fun _ _ _ => some "fstab"
  parsePartitionFormat := fun _ _ _ => some "ext4"
  makeEmptyPartition := fun _ _ _ _ => false
  pathFileSize := fun _ _ => some 1024
  pathIsQcow2 := fun _ _ => false
  strerror := fun _ => "No space left on device"

/-- A new AVD. -/
def newConfig : AndroidPartitionConfiguration where
  ramdisk_path := some "ramdisk.img"
  fstab_name := some "fstab.goldfish"
  system_partition := ⟨1024, some "system.img", none⟩
  vendor_partition := ⟨0, none, none⟩
  data_partition := ⟨1024, some "userdata-qemu.img", none⟩
  cache_partition := ⟨0, none, none⟩
  kernel_supports_yaffs2 := false
  wipe_data := false
  writable_system := false

/-- The callback gets an image that is not there, and the run succeeds. -/
theorem full_disk_unnoticed : ¬ ∀ backend config,
    FailuresReported (android_partition_configuration_setup backend config []) := by
  intro h
  have hrun : (android_partition_configuration_setup fullBackend newConfig []).2 =
      ((android_partition_configuration_setup fullBackend newConfig []).2.take 13) ++
        .makeEmptyPartition .ext4 1024 (some "userdata-qemu.img") false ::
          [.setup "userdata" 1024 (some "userdata-qemu.img") .ext4 false,
            .pathFileSize "userdata-qemu.img" (some 1024)] := by
    decide
  obtain ⟨message, hmessage⟩ := (h fullBackend newConfig _ _ _ _ _ hrun).1
  have hok : (android_partition_configuration_setup fullBackend newConfig []).1 = .ok () := by decide
  rw [hok] at hmessage
  cases hmessage

end Goldfish.Filesystems

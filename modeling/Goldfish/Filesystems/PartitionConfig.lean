import Goldfish.Lib.Effects
import Mathlib.Tactic.Common

/-!
# Goldfish.Filesystems.PartitionConfig

How the partition images of an emulator are set up (`partition_config.cpp`).

The program calls on a `Backend`, whose answers are arbitrary: each is a function of
everything that has happened in the run so far. `Event` records the calls with their
answers, `setup_func` included. A `nullptr` path is `none`.

`addNandImage` is cut at its comments: the sanity checks, the type of the image, the
image in read-only mode or the one that is written, an empty partition, the callback.
-/

namespace Goldfish.Filesystems

open Goldfish.Lib

/-! ### Types -/

/-- `AndroidPartitionType`. -/
inductive AndroidPartitionType where
  | unknown
  | yaffs2
  | ext4
  deriving DecidableEq, Repr

/-- `androidPartitionType_toString`. -/
def AndroidPartitionType.toString : AndroidPartitionType → String
  | .unknown => "unknown"
  | .yaffs2 => "yaffs2"
  | .ext4 => "ext4"

/-- `androidPartitionType_fromString`. -/
def AndroidPartitionType.fromString (part_type : String) : AndroidPartitionType :=
  if part_type = "unknown" then .unknown
  else if part_type = "yaffs2" then .yaffs2
  else if part_type = "ext4" then .ext4
  else .unknown

/-- What is done about an image that is missing. -/
inductive AndroidPartitionOpenMode where
  | mustExist
  | createIfNeeded
  | mustWipe
  deriving DecidableEq, Repr

/-- `AndroidPartitionInfo`. Nothing stands for a null pointer. -/
structure AndroidPartitionInfo where
  size : UInt64
  path : Option String
  init_path : Option String
  deriving DecidableEq, Repr

/-- `AndroidPartitionConfiguration`. -/
structure AndroidPartitionConfiguration where
  ramdisk_path : Option String
  fstab_name : Option String
  system_partition : AndroidPartitionInfo
  vendor_partition : AndroidPartitionInfo
  data_partition : AndroidPartitionInfo
  cache_partition : AndroidPartitionInfo
  kernel_supports_yaffs2 : Bool
  wipe_data : Bool
  writable_system : Bool
  deriving DecidableEq, Repr

/-- A call of the backend, of `System` or of `setup_func`, with its answer. -/
inductive Event where
  | pathExists (path : Option String) (answer : Bool)
  | pathEmptyFile (path : String) (answer : Bool)
  | pathCopyFile (dest source : String) (answer : Bool)
  | pathLockFile (path : String) (answer : Bool)
  | pathCreateTempFile (answer : Option String)
  | probePartitionFileType (path : String) (answer : AndroidPartitionType)
  | extractRamdiskFile (ramdisk_path file_path answer : Option String)
  | parsePartitionFormat (fstab mountPath : String) (answer : Option String)
  | makeEmptyPartition (type : AndroidPartitionType) (size : UInt64) (path : Option String) (answer : Bool)
  | resizeExt4Partition (path : String) (size : UInt64)
  | pathFileSize (path : String) (answer : Option UInt64)
  | pathIsQcow2 (path : String) (answer : Bool)
  | setup (name : String) (size : UInt64) (path : Option String) (type : AndroidPartitionType) (readonly : Bool)
  deriving DecidableEq, Repr

/-- Any behaviour of the host: the answers, each after what happened before. -/
structure Backend where
  pathExists : List Event → Option String → Bool
  pathEmptyFile : List Event → String → Bool
  pathCopyFile : List Event → String → String → Bool
  pathLockFile : List Event → String → Bool
  pathCreateTempFile : List Event → Option String
  probePartitionFileType : List Event → String → AndroidPartitionType
  extractRamdiskFile : List Event → Option String → Option String → Option String
  parsePartitionFormat : List Event → String → String → Option String
  makeEmptyPartition : List Event → AndroidPartitionType → UInt64 → Option String → Bool
  pathFileSize : List Event → String → Option UInt64
  pathIsQcow2 : List Event → String → Bool
  /-- The text of `errno`. -/
  strerror : List Event → String

/-- How a run ends early. -/
inductive Failure where
  /-- The function returns false with a message. -/
  | error (message : String)
  /-- A `std::filesystem::path` is made of `nullptr`. -/
  | nullPath
  deriving DecidableEq, Repr

/-- A computation that asks the backend and may fail. -/
abbrev Program := Prog Event Failure

/-! ### Calls -/

variable (backend : Backend)

/-- `pathExists` of the backend. -/
def callPathExists (path : Option String) : Program Bool :=
  .ask (backend.pathExists · path) (.pathExists path)

/-- `pathEmptyFile` of the backend. -/
def callPathEmptyFile (path : String) : Program Bool :=
  .ask (backend.pathEmptyFile · path) (.pathEmptyFile path)

/-- `pathCopyFile` of the backend. -/
def callPathCopyFile (dest source : String) : Program Bool :=
  .ask (backend.pathCopyFile · dest source) (.pathCopyFile dest source)

/-- `pathLockFile` of the backend. -/
def callPathLockFile (path : String) : Program Bool :=
  .ask (backend.pathLockFile · path) (.pathLockFile path)

/-- `pathCreateTempFile` of the backend. -/
def callPathCreateTempFile : Program (Option String) :=
  .ask backend.pathCreateTempFile .pathCreateTempFile

/-- `probePartitionFileType` of the backend. -/
def callProbePartitionFileType (path : String) : Program AndroidPartitionType :=
  .ask (backend.probePartitionFileType · path) (.probePartitionFileType path)

/-- `extractRamdiskFile` of the backend. -/
def callExtractRamdiskFile (ramdisk_path file_path : Option String) : Program (Option String) :=
  .ask (backend.extractRamdiskFile · ramdisk_path file_path) (.extractRamdiskFile ramdisk_path file_path)

/-- `parsePartitionFormat` of the backend. -/
def callParsePartitionFormat (fstab mountPath : String) : Program (Option String) :=
  .ask (backend.parsePartitionFormat · fstab mountPath) (.parsePartitionFormat fstab mountPath)

/-- `makeEmptyPartition` of the backend. -/
def callMakeEmptyPartition (type : AndroidPartitionType) (size : UInt64) (path : Option String) : Program Bool :=
  .ask (backend.makeEmptyPartition · type size path) (.makeEmptyPartition type size path)

/-- `pathFileSize` of the backend. -/
def callPathFileSize (path : String) : Program (Option UInt64) :=
  .ask (backend.pathFileSize · path) (.pathFileSize path)

/-- `pathIsQcow2` of the backend. -/
def callPathIsQcow2 (path : String) : Program Bool :=
  .ask (backend.pathIsQcow2 · path) (.pathIsQcow2 path)

/-- `resizeExt4Partition` of the backend, whose answer is not looked at. -/
def callResizeExt4Partition (path : String) (size : UInt64) : Program Unit :=
  .ask (fun _ => ()) fun _ => .resizeExt4Partition path size

/-- The callback that gets a partition. -/
def callSetup (name : String) (size : UInt64) (path : Option String) (type : AndroidPartitionType)
    (readonly : Bool) : Program Unit :=
  .ask (fun _ => ()) fun _ => .setup name size path type readonly

/-- `partition_config_error`: the message, and false. -/
def partition_config_error {α : Type} (message : String) : Program α := .fail (.error message)

/-- The same where the message ends with the text of `errno`. -/
def partition_config_errno {α : Type} (message : String) (stop : String) : Program α := fun log =>
  (.error (.error (message ++ backend.strerror log ++ stop)), [])

/-- How `printf` shows a path. -/
def shown (path : Option String) : String := path.getD "(null)"

/-! ### One partition -/

/-- An empty string is the same as `nullptr`. -/
def sanitize (path : Option String) : Option String := if path = some "" then none else path

/-- The image that is there to be probed. -/
def imageFile (part_file part_init_file : Option String) : Program (Option String) := do
  match part_file with
  | some file => if ← callPathExists backend (some file) then pure (some file) else pure part_init_file
  | none => pure part_init_file

/-- Verifies the type of the image, or probes it. An image in the wrong format is to be wiped. -/
def checkType (part_name : String) (part_type : AndroidPartitionType) (part_mode : AndroidPartitionOpenMode)
    (part_file part_init_file : Option String) :
    Program (AndroidPartitionType × AndroidPartitionOpenMode) := do
  match ← imageFile backend part_file part_init_file with
  | none =>
    if part_type = .unknown then
      partition_config_error s!"Cannot determine type of {part_name} partition: no image files!"
    else pure (part_type, part_mode)
  | some image_file =>
    if part_type = .unknown then do
      let probed ← callProbePartitionFileType backend image_file
      pure (probed, part_mode)
    else do
      let image_type ← callProbePartitionFileType backend image_file
      if image_type = .unknown then
        partition_config_error s!"Cannot determine {part_name} partition type of: {image_file}"
      else if image_type ≠ part_type then
        if part_mode = .mustExist then
          partition_config_error
            s!"Invalid {part_name} partition image type: {image_type.toString} (expected {part_type.toString})"
        else pure (part_type, .mustWipe)
      else pure (part_type, part_mode)

/-- Read-only mode: the image has to be there and is not made empty. -/
def openReadonly (part_name : String) (part_file : Option String) : Program (Option String × Bool) := do
  if ← callPathExists backend part_file then pure (part_file, false)
  else partition_config_error s!"Missing read-only {part_name} partition image: {shown part_file}"

/-- Locks the image and creates it if it is missing. The result is the image with `need_make_empty`, or
`none` if a temporary image is needed. -/
def lockImage (part_name : String) (part_mode : AndroidPartitionOpenMode) (part_file : Option String)
    (need_make_empty : Bool) : Program (Option (String × Bool)) := do
  match part_file with
  | none => pure none
  | some file =>
    if ← callPathLockFile backend file then
      if ← callPathExists backend (some file) then pure (some (file, need_make_empty))
      else if part_mode = .mustExist then
        partition_config_error s!"Missing {part_name} partition image: {file}"
      else if ← callPathEmptyFile backend file then pure (some (file, true))
      else partition_config_errno backend s!"Cannot create {part_name} image file at {file}: " ""
    -- the image is already in use: changes will not persist
    else pure none

/-- A temporary image where there is no other. It is to be made empty. -/
def orTempImage (part_name : String) : Option (String × Bool) → Program (String × Bool)
  | some image => pure image
  | none => do
    match ← callPathCreateTempFile backend with
    | some tempFile => pure (tempFile, true)
    | none =>
      partition_config_errno backend s!"Could not create temp file for {part_name} partition image: " "\n"

/-- Copies the initial partition file into the real one, which then is not made empty. -/
def copyInit (part_name : String) (part_init_file : Option String) (image : String × Bool) :
    Program (Option String × Bool) := do
  match part_init_file with
  | none => pure (some image.1, image.2)
  | some init =>
    if ← callPathCopyFile backend image.1 init then pure (some image.1, false)
    else
      partition_config_errno backend
        s!"Could not copy initial {part_name} partition image to real one: " "\n"

/-- An image that is written: the locked file or a temporary one. -/
def openWritable (part_name : String) (part_mode : AndroidPartitionOpenMode)
    (part_file part_init_file : Option String) : Program (Option String × Bool) := do
  let need_make_empty := decide (part_mode = .mustWipe) || part_init_file.isSome
  let locked ← lockImage backend part_name part_mode part_file need_make_empty
  let image ← orTempImage backend part_name locked
  copyInit backend part_name part_init_file image

/-- Makes the image empty. The answer of the backend, a `bool`, is taken for a negative error number, which
it never is. -/
def makeEmpty (part_name : String) (part_type : AndroidPartitionType) (part_size : UInt64)
    (part_file : Option String) : Program Unit := do
  let answer ← callMakeEmptyPartition backend part_type part_size part_file
  let ret : Int := if answer then 1 else 0
  if ret < 0 then
    partition_config_errno backend s!"Could not create {part_name} image file at {shown part_file}: " ""
  else pure ()

/-- The image with `need_make_empty`. -/
def openImage (part_name : String) (part_mode : AndroidPartitionOpenMode)
    (part_file part_init_file : Option String) (readonly : Bool) : Program (Option String × Bool) :=
  if readonly then openReadonly backend part_name part_file
  else openWritable backend part_name part_mode part_file part_init_file

/-- Makes the image empty if that is needed. -/
def finishImage (part_name : String) (part_type : AndroidPartitionType) (part_size : UInt64)
    (image : Option String × Bool) : Program (Option String × AndroidPartitionType) :=
  if image.2 then do
    makeEmpty backend part_name part_type part_size image.1
    pure (image.1, part_type)
  else pure (image.1, part_type)

/-- `addNandImage` behind the checks of its parameters and up to the callback: the image and its type. -/
def prepareImage (part_name : String) (part_type : AndroidPartitionType) (part_mode : AndroidPartitionOpenMode)
    (part_size : UInt64) (part_file part_init_file : Option String) (readonly : Bool) :
    Program (Option String × AndroidPartitionType) := do
  let checked ← checkType backend part_name part_type part_mode part_file part_init_file
  let image ← openImage backend part_name checked.2 part_file part_init_file readonly
  finishImage backend part_name checked.1 part_size image

/-- The file that is used as the image: in read-only mode the initial one may take its place, and `<temp>`
stands for none. -/
def mainFile (part_file part_init_file : Option String) (readonly : Bool) : Option String :=
  let part_file := if readonly && part_file.isNone && part_init_file.isSome then part_init_file else part_file
  if part_file = some "<temp>" then none else part_file

/-- The initial file that is left. -/
def initFile (part_file part_init_file : Option String) (readonly : Bool) : Option String :=
  if readonly && part_file.isNone && part_init_file.isSome then none else part_init_file

/-- The checks of the parameters. -/
def checkParameters (part_name : String) (part_size : UInt64) (part_init_file : Option String) :
    Program Unit := do
  if part_size = 0 then
    partition_config_error
      s!"Invalid {part_name} partition size 0x{String.ofList (Nat.toDigits 16 part_size.toNat)}"
  else
    match part_init_file with
    | none => pure ()
    | some init =>
      if ← callPathExists backend (some init) then pure ()
      else partition_config_error s!"Missing initial {part_name} image: {init}"

/-- `addNandImage`. -/
def addNandImage (part_name : String) (part_type : AndroidPartitionType) (part_mode : AndroidPartitionOpenMode)
    (part_size : UInt64) (part_file part_init_file : Option String) (readonly : Bool) : Program Unit := do
  let part_file := sanitize part_file
  let part_init_file := sanitize part_init_file
  checkParameters backend part_name part_size part_init_file
  let image ← prepareImage backend part_name part_type part_mode part_size
    (mainFile part_file part_init_file readonly) (initFile part_file part_init_file readonly) readonly
  callSetup part_name part_size image.1 image.2 readonly

/-! ### The configuration -/

/-- The types of the partitions as the fstab has them. -/
structure PartitionTypes where
  system : AndroidPartitionType
  vendor : AndroidPartitionType
  userdata : AndroidPartitionType
  cache : AndroidPartitionType
  deriving DecidableEq, Repr

/-- `extractPartitionFormat`, for a type that is unknown so far. -/
def extractPartitionFormat (fstab partitionPath : String) : Program AndroidPartitionType := do
  match ← callParsePartitionFormat backend fstab partitionPath with
  | none => pure .unknown
  | some partFormat => pure (.fromString partFormat)

/-- The types that the fstab in the ramdisk gives. -/
def partitionTypes (config : AndroidPartitionConfiguration) : Program PartitionTypes := do
  match ← callExtractRamdiskFile backend config.ramdisk_path config.fstab_name with
  | none => pure ⟨.unknown, .unknown, .unknown, .unknown⟩
  | some fstab => do
    let system ← extractPartitionFormat backend fstab "/system"
    let vendor ← extractPartitionFormat backend fstab "/vendor"
    let userdata ← extractPartitionFormat backend fstab "/data"
    let cache ← extractPartitionFormat backend fstab "/cache"
    pure ⟨system, vendor, userdata, cache⟩

/-- How the images of user data are opened. -/
def userdataMode (config : AndroidPartitionConfiguration) : AndroidPartitionOpenMode :=
  if config.wipe_data then .mustWipe else .createIfNeeded

/-- The vendor image, if there is one. -/
def addVendor (config : AndroidPartitionConfiguration) (vendor_partition_type : AndroidPartitionType) :
    Program Unit :=
  if config.vendor_partition.path.isSome || config.vendor_partition.init_path.isSome then
    addNandImage backend "vendor" vendor_partition_type .mustExist config.vendor_partition.size
      config.vendor_partition.path config.vendor_partition.init_path (!config.writable_system)
  else pure ()

/-- The system, vendor and userdata images. -/
def addImages (config : AndroidPartitionConfiguration) (types : PartitionTypes) : Program Unit := do
  addNandImage backend "system" types.system .mustExist config.system_partition.size
    config.system_partition.path config.system_partition.init_path (!config.writable_system)
  addVendor backend config types.vendor
  addNandImage backend "userdata" types.userdata (userdataMode config) config.data_partition.size
    config.data_partition.path config.data_partition.init_path false

/-- A path handed to `System`, which takes a `std::filesystem::path`. -/
def fsPath (path : Option String) : Program String :=
  match path with
  | some path => pure path
  | none => .fail .nullPath

/-- Whether the userdata image is to be resized, and the configured path of it. -/
def resizeDue (config : AndroidPartitionConfiguration) (userdata_partition_type : AndroidPartitionType) :
    Program (Option String) := do
  let path ← fsPath config.data_partition.path
  let current_data_size := (← callPathFileSize backend path).getD config.data_partition.size
  if config.wipe_data || current_data_size < config.data_partition.size then
    if ← callPathIsQcow2 backend path then pure none
    else if userdata_partition_type = .ext4 then pure (some path)
    else pure none
  else pure none

/-- The cache image, if any. -/
def addCache (config : AndroidPartitionConfiguration) (cache_partition_type : AndroidPartitionType) :
    Program Unit := do
  if config.cache_partition.path.isSome then
    let cache_partition_type :=
      if cache_partition_type = .unknown then
        if config.kernel_supports_yaffs2 then .yaffs2 else .ext4
      else cache_partition_type
    addNandImage backend "cache" cache_partition_type (userdataMode config) config.cache_partition.size
      config.cache_partition.path none false
  else pure ()

/-- `android_partition_configuration_setup` up to the resize: the types, and the path to resize. -/
def setupToResize (config : AndroidPartitionConfiguration) : Program (PartitionTypes × Option String) := do
  let types ← partitionTypes backend config
  addImages backend config types
  let due ← resizeDue backend config types.userdata
  pure (types, due)

/-- The resize, if it is due. -/
def resize (config : AndroidPartitionConfiguration) (due : Option String) : Program Unit :=
  match due with
  | some path => callResizeExt4Partition path config.data_partition.size
  | none => pure ()

/-- `android_partition_configuration_setup`. -/
def android_partition_configuration_setup (config : AndroidPartitionConfiguration) : Program Unit := do
  let found ← setupToResize backend config
  resize config found.2
  addCache backend config found.1.cache

end Goldfish.Filesystems

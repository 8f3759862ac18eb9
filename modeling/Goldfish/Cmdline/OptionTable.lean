import Goldfish.Lib.CStrings
import Mathlib.Data.List.Nodup
import Mathlib.Tactic.MkIffOfInductiveProp

/-!
# Goldfish.Cmdline.OptionTable

The options of the emulator's command line (`cmdline-options.h`), in the order of the header.

An `OptionTable` is a list of options that the parser can rely on: the names are different, shorter
than its buffer, have no dash, and are not taken for one of the `-debug` forms. The header is one in
every build (`optionTable`).
-/

namespace Goldfish.Cmdline

open Goldfish.Lib

/-- A string of the command line, without the NUL. -/
abbrev Arg := List UInt8

/-- The three kinds of options. -/
inductive VarType where
  | OPTION_IS_FLAG
  | OPTION_IS_PARAM
  | OPTION_IS_LIST
  deriving DecidableEq, Repr

/-- `OptionInfo`, without the place in the struct. -/
structure OptionInfo where
  name : Arg
  var_type : VarType
  deriving DecidableEq, Repr

/-- An option without an argument. -/
def OPT_FLAG (name : String) : OptionInfo := ⟨literal name, .OPTION_IS_FLAG⟩

/-- An option with an argument. -/
def OPT_PARAM (name : String) : OptionInfo := ⟨literal name, .OPTION_IS_PARAM⟩

/-- An option that may be given several times. -/
def OPT_LIST (name : String) : OptionInfo := ⟨literal name, .OPTION_IS_LIST⟩

/-- `CFG_FLAG`, which says no more to the parser. -/
def CFG_FLAG (name : String) : OptionInfo := OPT_FLAG name

/-- `CFG_PARAM`, which says no more to the parser. -/
def CFG_PARAM (name : String) : OptionInfo := OPT_PARAM name

/-- What the preprocessor asks about the build. -/
structure Build where
  linux : Bool
  win32 : Bool
  webrtc : Bool
  apple_arm64 : Bool
  deriving DecidableEq, Repr

/-- The table of the options, in the order of `cmdline-options.h`. -/
def option_keys (b : Build) : List OptionInfo :=
  [OPT_FLAG "list_avds", CFG_PARAM "sysdir", CFG_PARAM "system", CFG_PARAM "vendor", CFG_FLAG "writable_system",
    CFG_FLAG "delay_adb", CFG_PARAM "datadir", CFG_PARAM "kernel", CFG_PARAM "ramdisk", CFG_PARAM "image",
    CFG_PARAM "initdata", CFG_PARAM "data", CFG_PARAM "encryption_key", CFG_PARAM "logcat_output",
    CFG_PARAM "partition_size", CFG_PARAM "cache", OPT_PARAM "cache_size", CFG_FLAG "no_cache",
    CFG_FLAG "nocache", OPT_PARAM "sdcard", CFG_PARAM "quit_after_boot", CFG_PARAM "qemu_top_dir",
    CFG_PARAM "monitor_adb", OPT_PARAM "snapstorage", OPT_FLAG "no_snapstorage", OPT_PARAM "snapshot",
    OPT_FLAG "no_snapshot", OPT_FLAG "no_snapshot_save", OPT_FLAG "no_snapshot_load",
    OPT_FLAG "force_snapshot_load", OPT_FLAG "qcow2_for_userdata", OPT_FLAG "snapshot_list",
    OPT_FLAG "no_snapshot_update_time", OPT_FLAG "wipe_data", CFG_PARAM "avd", CFG_PARAM "avd_arch",
    CFG_PARAM "skindir", CFG_PARAM "skin", CFG_FLAG "no_skin", CFG_FLAG "noskin", CFG_PARAM "memory",
    OPT_PARAM "ui_only", CFG_PARAM "id", OPT_PARAM "cores", OPT_PARAM "accel", OPT_FLAG "no_accel",
    OPT_FLAG "ranchu", OPT_PARAM "engine", OPT_PARAM "netspeed", OPT_PARAM "netdelay", OPT_FLAG "netfast",
    OPT_PARAM "code_profile", OPT_FLAG "show_kernel", OPT_FLAG "shell", OPT_FLAG "no_jni", OPT_FLAG "nojni",
    OPT_FLAG "dalvik_vm_checkjni", OPT_PARAM "logcat", OPT_FLAG "log_nofilter", OPT_FLAG "log_detailed"] ++
  (if b.linux then [OPT_FLAG "use_system_libs", CFG_PARAM "stdouterr_file", OPT_FLAG "no_qt"] else []) ++
  [OPT_FLAG "no_audio", OPT_FLAG "noaudio", OPT_PARAM "audio", OPT_PARAM "radio", OPT_PARAM "port",
    OPT_PARAM "ports", OPT_PARAM "modem_simulator_port", OPT_PARAM "onion", OPT_PARAM "onion_alpha",
    OPT_PARAM "onion_rotation", OPT_PARAM "dpi_device", OPT_PARAM "scale", OPT_PARAM "wifi_client_port",
    OPT_PARAM "wifi_server_port", OPT_PARAM "http_proxy", OPT_PARAM "timezone", OPT_PARAM "change_language",
    OPT_PARAM "change_country", OPT_PARAM "change_locale", OPT_PARAM "dns_server", OPT_PARAM "net_tap",
    OPT_PARAM "net_socket", OPT_PARAM "net_tap_script_up", OPT_PARAM "net_tap_script_down", OPT_PARAM "cpu_delay",
    OPT_FLAG "no_boot_anim", OPT_FLAG "no_window", OPT_FLAG "qt_hide_window", OPT_FLAG "no_sim",
    OPT_FLAG "lowram", OPT_FLAG "version", OPT_FLAG "no_passive_gps", CFG_PARAM "gnss_file_path",
    CFG_PARAM "gnss_grpc_port", OPT_FLAG "virtio_console", OPT_FLAG "read_only", OPT_PARAM "is_restart",
    OPT_PARAM "report_console", OPT_PARAM "gps", OPT_PARAM "shell_serial", OPT_PARAM "tcpdump",
    OPT_PARAM "bootchart", OPT_PARAM "charmap", OPT_PARAM "studio_params", OPT_LIST "prop",
    OPT_PARAM "shared_net_id"] ++
  (if !b.win32 then [OPT_PARAM "nand_limits"] else []) ++
  [OPT_PARAM "gpu", OPT_FLAG "use_host_vulkan", OPT_PARAM "vsync_rate", OPT_PARAM "camera_back",
    OPT_PARAM "camera_front", OPT_FLAG "webcam_list", OPT_LIST "virtualscene_poster", OPT_PARAM "screen",
    OPT_PARAM "selinux", OPT_LIST "unix_pipe", CFG_FLAG "fixed_scale", OPT_FLAG "wait_for_debugger",
    OPT_FLAG "skip_adb_auth", OPT_FLAG "metrics_to_console", OPT_FLAG "metrics_collection",
    OPT_PARAM "metrics_to_file", OPT_FLAG "no_metrics", OPT_FLAG "detect_image_hang", OPT_LIST "feature",
    OPT_PARAM "icc_profile", OPT_PARAM "sim_access_rules_file", OPT_PARAM "phone_number", CFG_PARAM "acpi_config",
    OPT_FLAG "fuchsia", OPT_PARAM "window_size", OPT_FLAG "allow_host_audio", OPT_FLAG "restart_when_stalled",
    OPT_PARAM "perf_stat", OPT_FLAG "share_vid", OPT_PARAM "grpc", OPT_PARAM "grpc_tls_key",
    OPT_PARAM "grpc_tls_cer", OPT_PARAM "grpc_tls_ca", OPT_FLAG "grpc_use_token", OPT_FLAG "grpc_use_jwt",
    OPT_PARAM "grpc_allowlist", OPT_PARAM "idle_grpc_timeout", OPT_PARAM "waterfall", OPT_FLAG "grpc_ui"] ++
  (if b.webrtc then [OPT_PARAM "turncfg", OPT_PARAM "dump_audio"] else []) ++
  [OPT_PARAM "packet_streamer_endpoint", OPT_PARAM "netsim_args", OPT_PARAM "multidisplay",
    OPT_PARAM "google_maps_key", OPT_FLAG "no_location_ui", OPT_FLAG "use_keycode_forwarding",
    OPT_PARAM "record_session", OPT_FLAG "legacy_fake_camera", OPT_FLAG "camera_hq_edge",
    OPT_FLAG "no_direct_adb", OPT_PARAM "check_snapshot_loadable", OPT_FLAG "no_hidpi_scaling",
    OPT_FLAG "no_mouse_reposition", OPT_FLAG "guest_angle", OPT_LIST "usb_passthrough",
    OPT_LIST "append_userspace_opt", OPT_PARAM "save_path", OPT_FLAG "no_nested_warnings", OPT_PARAM "wifi_tap",
    OPT_PARAM "wifi_tap_script_up", OPT_PARAM "wifi_tap_script_down", OPT_PARAM "wifi_socket"] ++
  (if b.apple_arm64 then [OPT_PARAM "vmnet_bridged", OPT_FLAG "vmnet_shared", OPT_PARAM "vmnet_start_address",
    OPT_PARAM "vmnet_end_address", OPT_PARAM "vmnet_subnet_mask", OPT_FLAG "vmnet_isolated"] else []) ++
  [OPT_PARAM "wifi_user_mode_options", OPT_PARAM "network_user_mode_options", CFG_PARAM "adb_path",
    OPT_FLAG "hotplug_multi_display", OPT_FLAG "xts", OPT_PARAM "wifi_mac_address", OPT_FLAG "no_ethernet",
    OPT_PARAM "android_serialno", OPT_PARAM "vmodule"]

/-- The parser finds the name, and no other form is taken for it. -/
@[mk_iff]
structure WellNamed (name : Arg) : Prop where
  short : name.length < 63
  undashed : '-'.toUInt8 ∉ name
  unlike_verbose : name ≠ literal "verbose"
  not_in_debug : ¬ name <+: literal "debug_"
  not_debug : ¬ literal "debug_" <+: name

instance (name : Arg) : Decidable (WellNamed name) := decidable_of_iff _ (wellNamed_iff name).symm

/-- A table of options as the parser needs it. -/
structure OptionTable where
  keys : List OptionInfo
  nodup : (keys.map OptionInfo.name).Nodup
  wellNamed : ∀ oo ∈ keys, WellNamed oo.name

/-! ### The header -/

/-- A number for a name. -/
def hashOf (name : Arg) : Nat := name.foldl (fun h c => (h * 31 + c.toNat) % 2809) 0

/-- No number is there twice, or in the set with the bits `seen`. -/
def distinct (seen : Nat) : List Nat → Bool
  | [] => true
  | k :: ks => !seen.testBit k && distinct (seen ||| 1 <<< k) ks

theorem distinct_spec {seen : Nat} {ks : List Nat} (h : distinct seen ks = true) :
    ks.Nodup ∧ ∀ k ∈ ks, seen.testBit k = false := by
  induction ks generalizing seen with
  | nil => exact ⟨List.nodup_nil, fun _ hk => absurd hk List.not_mem_nil⟩
  | cons k ks ih =>
    rw [distinct, Bool.and_eq_true, Bool.not_eq_true'] at h
    obtain ⟨hfresh, hrest⟩ := h
    obtain ⟨hnodup, hseen⟩ := ih hrest
    have hunseen : ∀ i ∈ ks, seen.testBit i = false ∧ k ≠ i := by
      intro i hi
      have hbit := hseen i hi
      rw [Nat.testBit_or, Bool.or_eq_false_iff, Nat.one_shiftLeft, Nat.testBit_two_pow] at hbit
      exact ⟨hbit.1, of_decide_eq_false hbit.2⟩
    refine ⟨List.nodup_cons.mpr ⟨fun hk => (hunseen k hk).2 rfl, hnodup⟩, ?_⟩
    intro i hi
    rcases List.mem_cons.mp hi with rfl | hi
    · exact hfresh
    · exact (hunseen i hi).1

/-- The options of the header, whatever the build is. -/
def allKeys : List OptionInfo := option_keys ⟨true, false, true, true⟩

theorem allKeys_checked : distinct 0 (allKeys.map fun oo => hashOf oo.name) = true ∧
    ∀ oo ∈ allKeys, WellNamed oo.name := by
  decide +kernel

theorem option_keys_sublist (b : Build) : (option_keys b).Sublist allKeys := by
  have cond_sublist : ∀ (c : Bool) (keys : List OptionInfo), (if c then keys else []).Sublist keys := by
    intro c keys
    cases c
    · exact List.nil_sublist keys
    · exact List.Sublist.refl keys
  unfold allKeys option_keys
  repeat' refine List.Sublist.append ?_ ?_
  all_goals first | exact List.Sublist.refl _ | exact cond_sublist _ _

theorem option_keys_nodup (b : Build) : ((option_keys b).map OptionInfo.name).Nodup := by
  have hall : ((allKeys.map OptionInfo.name).map hashOf).Nodup := by
    rw [List.map_map]
    exact (distinct_spec allKeys_checked.1).1
  exact hall.of_map.sublist ((option_keys_sublist b).map _)

/-- The table of a build. -/
def optionTable (b : Build) : OptionTable where
  keys := option_keys b
  nodup := option_keys_nodup b
  wellNamed oo h := allKeys_checked.2 oo ((option_keys_sublist b).mem h)

end Goldfish.Cmdline

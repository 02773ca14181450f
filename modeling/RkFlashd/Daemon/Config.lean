import RkFlashd.Text.Numeral
import RkFlashd.Storage.FileSystem

/-! The configuration the daemon is started with, and the paths built from it. -/
namespace RkFlashd

open Text

def no_path : CString := ⟨[], by decide⟩

def default_upload_dir : CString := ⟨str "/tmp/rk_flashd_uploads", by decide⟩

def default_scripts_dir : CString := ⟨str "/sbin", by decide⟩

def default_pid_file : CString := ⟨str "/var/run/rk_firmware_flashd.pid", by decide⟩

/-- `Config`. The strings are command-line arguments or their defaults. -/
structure Config where
  port : UInt16 := 8080
  serial_device : CString := no_path
  baud_rate : Int32 := 115200
  upload_dir : CString := default_upload_dir
  scripts_dir : CString := default_scripts_dir
  log_file : CString := no_path
  pid_file : CString := default_pid_file
  foreground : Bool := false
  help : Bool := false

def Config.use_serial (cfg : Config) : Bool := cfg.serial_device.val != []

/-- `upload_dir + "/" + name`. -/
def Config.in_upload_dir (cfg : Config) (name : Bytes) : Bytes :=
  cfg.upload_dir.val ++ str "/" ++ name

/-- Files are named by the C string that reaches the system call. -/
abbrev FileSystem := Storage.FileSystem Bytes

/-- The file system call sees the directory in full and the name up to a NUL. -/
theorem Config.c_str_in_upload_dir (cfg : Config) (name : Bytes) :
    c_str (cfg.in_upload_dir name) = cfg.in_upload_dir (c_str name) := by
  have hDir : (0 : UInt8) ∉ cfg.upload_dir.val ++ str "/" := by
    simpa using ⟨cfg.upload_dir.property, (by decide : (0 : UInt8) ∉ str "/")⟩
  exact c_str_append hDir

theorem Config.in_upload_dir_inj (cfg : Config) {name other : Bytes}
    (h : cfg.in_upload_dir name = cfg.in_upload_dir other) : name = other :=
  List.append_cancel_left h

/-- How the outside world makes the file calls of one command fail. The defaults
are the outcomes of a command that meets no failure. -/
structure Io where
  fopen : Bool := true
  fwrite : Option Nat := none
  fclose : Nat := 0
  unlink : Bool := true
  rename : Bool := true
  deriving DecidableEq, Repr

end RkFlashd

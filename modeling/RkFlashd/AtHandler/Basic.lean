import RkFlashd.Daemon.Config
import RkFlashd.Daemon.Lock
import RkFlashd.Checksum.MD5

/-! `handler_basic.cpp`: `AT+STATUS`, `AT+RESET`, `AT+FORCERESET`, `AT+HELP` and
`AT+VERIFY`, each as one uninterrupted call. -/
namespace RkFlashd

open Text Checksum

def handle_status (cfg : Config) (uptime : Nat) (is_open : Bool) (owner : Owner) : Bytes :=
  str "OK" ++
    str " uptime=" ++ to_string uptime ++ str "s" ++
    str " serial=" ++ (if is_open then str "open" else str "closed") ++
    str " busy=" ++ (if is_busy owner then str "yes" else str "no") ++
    str " device=" ++ (if cfg.use_serial then cfg.serial_device.val else str "none")

def handle_reset (caller owner : Owner) : Owner × Bytes :=
  if owner ≠ caller then (owner, str "ERROR: only the lock owner can reset")
  else (release owner caller, str "OK")

def handle_forcereset (owner : Owner) : Owner × Bytes := (force_release owner, str "OK")

def handle_help : Bytes :=
  str "OK" ++
    str " AT+STATUS                — daemon status" ++
    str " AT+VERSION               — daemon version" ++
    str " AT+RESET                 — release session, reopen port" ++
    str " AT+FORCERESET            — force-release lock (admin override)" ++
    str " AT+FLASH=f[,FULL|PARTIAL|ASSETS....] — submit flash, returns immediately" ++
    str " AT+TRYFLASHDONE            — poll flash result (60s timeout)" ++
    str " AT+EXEC=cmd              — execute command (ENABLE_RCE only)" ++
    str " AT+REBOOT                — reboot device (ENABLE_REBOOT only)" ++
    str " AT+VERIFY=f              — compute MD5 of file" ++
    str " AT+PREUPLOAD=f,n,md5     — begin upload (size + md5)" ++
    str " AT+UPLOAD=data,crc16,len — send frame with CRC16" ++
    str " AT+UPLOADDONE            — finalize, verify MD5" ++
    str " AT+UPLOADCANCEL          — abort current upload" ++
    str " AT+HELP                  — this help"

/-- How the reads of `handle_verify` fare: whether the file can be opened, and how many
bytes each `fread` delivers. By default every read is as long as it can be. -/
structure Reads where
  fopen : Bool := true
  counts : Option (List Nat) := none
  deriving DecidableEq, Repr

/-- `while (size_t n = fread(buf, 1, sizeof(buf), f))`, with a `buf` of 4096 bytes. The
loop ends at the first read that delivers nothing. -/
def verify_loop (md5 : MD5) (total : UInt64) : Bytes → List Nat → MD5 × UInt64
  | _, [] => (md5, total)
  | rest, count :: counts =>
      let chunk := rest.take (min count 4096)
      if chunk = [] then (md5, total)
      else
        verify_loop (md5.update chunk) (total + UInt64.ofNat chunk.length)
          (rest.drop chunk.length) counts

/-- The reads of a file that meets no error: full ones, then one that finds the end. -/
def full_reads (file : Bytes) : List Nat := List.replicate (file.length / 4096 + 2) 4096

def handle_verify (cfg : Config) (reads : Reads) (arg : Bytes) (fs : FileSystem) : Bytes :=
  if arg = [] then str "ERROR: AT+VERIFY requires a filename"
  else if (find_str arg (str "..")).isSome then str "ERROR: invalid filename"
  else
    let filepath := cfg.in_upload_dir arg
    match reads.fopen, fs.read (c_str filepath) with
    | true, some file =>
        let (md5, total) := verify_loop MD5.reset 0 file (reads.counts.getD (full_reads file))
        str "OK " ++ md5.hex.2 ++ str " " ++ to_string total.toNat
    | _, _ => str "ERROR: cannot open file '" ++ arg ++ str "'"

end RkFlashd

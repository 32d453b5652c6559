import ObsCatalog.Settings.Text
import ObsCatalog.Storage.Disk

/-! Settings in a file.

Where there is no file yet, the standard settings are written to it.
-/

set_option autoImplicit false

namespace ObsCatalog.Settings

variable {δ : Type}

def load (disk : Disk δ) (path : String) : Except SettingsFault Settings :=
  match disk.find path with
  | .error fault => .error (.unopened path fault.message)
  | .ok (_, entry) =>
    match entry.content with
    | .error fault => .error (.unreadable path fault.message)
    | .ok content =>
      match read content with
      | .error fault => .error (.unreadable path (fault.message content))
      | .ok settings => .ok settings

def save (s : Settings) (disk : Disk δ) (path : String) : Except SettingsFault (Disk δ) :=
  match disk.writeText path (Text.symbols s.write) with
  | .error fault => .error (.unwritten path fault.message)
  | .ok disk => .ok disk

/-- The settings in the file at a path, which is written if there is none. -/
def loadOrCreate (disk : Disk δ) (path : String) : Except SettingsFault (Settings × Disk δ) :=
  if disk.hasEntry path then (load disk path).map (·, disk)
  else (standard.save disk path).map (standard, ·)

end ObsCatalog.Settings

import Strand.Settings.Error
import Strand.Files
import Strand.Log

/-! Settings from files. Files that are missing count as empty; a later file is laid over the
earlier ones; the first file that cannot be read, or is not in order by itself, ends the search. -/
namespace Strand.Settings

/-- A result together with the lines logged on the way to it. -/
structure Logged (α : Type) where
  lines : List Log.Line
  result : Except SettingsError α

def content : FileEntry → Except SystemError String
  | .text s => .ok s
  | .bytes bs =>
    match bs.text? with
    | some s => .ok s
    | none => .error .notUtf8
  | .directory => .error .isDirectory
  | .unreadable error => .error error

def loadFile (files : Files) (path : Bytes) : Logged Settings :=
  match files.find? path with
  | none => ⟨[⟨.warn, "Configuration file not found: " ++ path.display⟩], .ok defaults⟩
  | some entry =>
    ⟨[⟨.info, "Loading configuration from " ++ path.display⟩],
      match content entry with
      | .error source => .error (.loadFailed path.display source)
      | .ok text => ofText text⟩

def load (files : Files) : Option Bytes → Logged Settings
  | none => ⟨[⟨.info, "No configuration file specified, using defaults"⟩], .ok defaults⟩
  | some path => loadFile files path

/-- Lays the settings of several files over those so far, in order, and checks what comes out. -/
def loadOver (files : Files) (s : Settings) : List Bytes → Logged Settings
  | [] => ⟨[], s.validated⟩
  | path :: paths =>
    let first := loadFile files path
    match first.result with
    | .error e => ⟨first.lines, .error e⟩
    | .ok upper =>
      let rest := loadOver files (s.merge upper) paths
      ⟨first.lines ++ rest.lines, rest.result⟩

def loadLayered (files : Files) (paths : List Bytes) : Logged Settings :=
  loadOver files defaults paths

/-- Where settings come from: the files, and what the environment variable holds if it is set. -/
structure Source where
  files : Files
  setting : Option Bytes
  deriving Repr

def colon : UInt8 := ':'.toUInt8

/-- The paths that the environment variable names, with colons between them. -/
def pathsOf (setting : Bytes) : List Bytes := setting.splitOn colon

/-- Settings from the files that the environment names, or the defaults. -/
def ofSource (source : Source) : Logged Settings :=
  match source.setting with
  | none => load source.files none
  | some setting => loadLayered source.files (pathsOf setting)

end Strand.Settings

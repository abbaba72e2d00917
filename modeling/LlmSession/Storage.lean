import LlmSession.Settings.Json
import LlmSession.Text.Utf8

/-!
# Where settings are kept

Settings are kept in a file of the data directory.  What a file holds is a value here, and so
is what becomes of an attempt to write one; the file system itself is outside.

A settings file that does not exist stands for the defaults.  One that cannot be read, or
that does not spell settings, is an error for whoever asks for that very file, and stands for
the defaults where only the user's own settings are wanted.

## Main definitions

* `SessionSettings.ofFile`, `SessionSettings.ofFileOrDefault`: the settings in a file.
* `SessionSettings.saveTo`: the text that is written to a file.
* `dataDirectory?`, `settingsPath?`: where the file is.
-/

namespace LlmSession

/-- Why settings could not be read or written. -/
inductive StorageError where
  /-- There is no data directory. -/
  | dataDirectory (detail : String)
  /-- A file could not be read or written. -/
  | read (detail : String)
  /-- A file does not spell settings. -/
  | json
  deriving DecidableEq, Repr

/-- The wording of each cause; what is wrong with a file's spelling is not told. -/
def StorageError.message : StorageError → String
  | .dataDirectory detail => "Failed to access data directory: " ++ detail
  | .read detail => "Failed to read file: " ++ detail
  | .json => "Failed to serialize/deserialize JSON: "

/-- What is found at a path. -/
inductive FileState where
  /-- Nothing. -/
  | missing
  /-- A directory. -/
  | directory
  /-- A file with some bytes. -/
  | file (content : List UInt8)
  deriving DecidableEq, Repr

/-- The system's word for a directory where a file was wanted. -/
def isDirectoryDetail : String := "Is a directory (os error 21)"

/-- The system's word for a file where a directory was wanted. -/
def fileExistsDetail : String := "File exists (os error 17)"

/-- The system's word for nothing. -/
def notFoundDetail : String := "No such file or directory (os error 2)"

/-- The word for bytes that are no text. -/
def notTextDetail : String := "stream did not contain valid UTF-8"

/-- The text at a path. -/
def FileState.text : FileState → Except StorageError String
  | .missing => .error (.read notFoundDetail)
  | .directory => .error (.read isDirectoryDetail)
  | .file content =>
    match Utf8.decode? content with
    | some text => .ok text
    | none => .error (.read notTextDetail)

/-- What a file can be written to. -/
inductive SaveTarget where
  /-- A path at which a file can be made, with all directories that it needs. -/
  | writable
  /-- A directory. -/
  | directory
  /-- A path below a file. -/
  | belowFile
  deriving DecidableEq, Repr

namespace SessionSettings

/-- The settings that a text spells, as they are. -/
def ofText? (text : String) : Option SessionSettings := (Json.read? text).bind ofJson?

/-- The text of settings. -/
def toText (s : SessionSettings) : String := s.toJson.indented

/-- The settings in a file, repaired.  No file stands for the defaults. -/
def ofFile (file : FileState) : Except StorageError SessionSettings :=
  match file with
  | .missing => .ok {}
  | .directory => .error (.read isDirectoryDetail)
  | .file content =>
    match FileState.text (.file content) with
    | .error e => .error e
    | .ok text =>
      match ofText? text with
      | some s => .ok s.validate
      | none => .error .json

/-- The settings in a file, or the defaults if there are none to be had. -/
def ofFileOrDefault (file : FileState) : SessionSettings :=
  match ofFile file with
  | .ok s => s
  | .error _ => {}

/-- Writes settings; the answer is what the file then holds. -/
def saveTo (s : SessionSettings) : SaveTarget → Except StorageError FileState
  | .writable => .ok (.file (Utf8.encode s.toText))
  | .directory => .error (.read isDirectoryDetail)
  | .belowFile => .error (.read fileExistsDetail)

end SessionSettings

/-! ## The data directory -/

/-- A path below another one, with a separator between them where one is missing.  Below the
empty path there is just the other. -/
def joinPath (base name : String) : String :=
  if base = "" ∨ base.toList.getLast? = some '/' then base ++ name else base ++ "/" ++ name

/-- Whether a path begins at the root. -/
def isAbsolutePath (path : String) : Bool := path.toList.head? = some '/'

/-- The name of the program's directory among the data of all programs. -/
def dataDirectoryName : String := "localmbridge"

/-- The user's home directory: the one that the environment names, or, if that is missing or
empty, the one that belongs to the account. -/
def homeDirectory? (named account : Option String) : Option String :=
  named.filter (· ≠ "") <|> account.filter (· ≠ "")

/-- The data directory, from the user's home directory and the directory for the data of all
programs, which counts only if it is absolute. -/
def dataDirectory? (home dataHome : Option String) : Except StorageError String :=
  match home with
  | none => .error (.dataDirectory "Could not determine data directory")
  | some home =>
    let base := match dataHome.filter isAbsolutePath with
      | some path => path
      | none => joinPath home ".local/share"
    .ok (joinPath base dataDirectoryName)

/-- The path of the user's settings. -/
def settingsPath? (home dataHome : Option String) : Except StorageError String :=
  match dataDirectory? home dataHome with
  | .ok directory => .ok (joinPath directory "settings.json")
  | .error e => .error e

end LlmSession

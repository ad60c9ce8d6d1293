/-!
# Files by path

Why a file cannot be loaded, and folders held in memory. Paths lead there as they do on disk,
from the folder on: an empty step and `.` stay where they are, and nothing lies beyond a file.
A step up leads nowhere.
-/

namespace ScriptGrammar

/-- What keeps a path from being read. -/
inductive Fault where
  | missing | denied | notFolder | isFolder
  | other (reason : String)
deriving DecidableEq

def Fault.text : Fault → String
  | .missing => "No such file or directory (os error 2)"
  | .denied => "Permission denied (os error 13)"
  | .notFolder => "Not a directory (os error 20)"
  | .isFolder => "Is a directory (os error 21)"
  | .other reason => reason

inductive LoadError where
  | unreadable (fault : Fault)
  | notUtf8
  | tooLarge (size : Nat)
deriving DecidableEq

def LoadError.text (file : String) : LoadError → String
  | .unreadable fault => s!"cannot read '{file}': " ++ fault.text
  | .notUtf8 => s!"'{file}' is not valid UTF-8"
  | .tooLarge size => s!"'{file}' is {size} bytes; sources must be smaller than 4 GiB"

/-- More bytes than a source may have: an offset has 32 bits. -/
def sizeBound : Nat := UInt32.size

def decodeText (bytes : ByteArray) : Except LoadError String :=
  if sizeBound ≤ bytes.size then .error (.tooLarge bytes.size)
  else match String.fromUTF8? bytes with
    | some text => .ok text
    | none => .error .notUtf8

/-- A text that was loaded is the bytes of the file, and every offset into it has 32 bits. -/
theorem decodeText_ok {bytes : ByteArray} {text : String} (loaded : decodeText bytes = .ok text) :
    text.toByteArray = bytes ∧ text.utf8ByteSize < sizeBound := by
  unfold decodeText at loaded
  split at loaded
  · cases loaded
  next fits =>
    split at loaded
    next found =>
      cases loaded
      have same : text.toByteArray = bytes := by
        unfold String.fromUTF8? at found
        split at found
        · cases found
          rfl
        · cases found
      refine ⟨same, ?_⟩
      rw [← String.size_toByteArray, same]
      exact Nat.lt_of_not_le fits
    · cases loaded

/-- Files under their paths. Of two with one path the later one counts. -/
structure Folder where
  files : List (String × ByteArray)

namespace Folder

/-- The names a path goes through. -/
def steps (path : String) : List String :=
  (path.splitOn "/").filter fun step => step != "" && step != "."

/-- The path can only be that of a folder. -/
def endsOpen (path : String) : Bool := path.endsWith "/" || path.endsWith "/."

variable (f : Folder)

def file? (way : List String) : Option ByteArray :=
  (f.files.reverse.find? (steps ·.1 == way)).map (·.2)

/-- The fault of a path that is no file's. -/
def fault (way : List String) : Fault :=
  let ways := f.files.map (steps ·.1)
  if way.isEmpty || ways.any way.isPrefixOf then .isFolder
  else if ways.any (·.isPrefixOf way) then .notFolder
  else .missing

def read (path : String) : Except Fault ByteArray :=
  let way := steps path
  if path.isEmpty || (path.startsWith "/" && !way.isEmpty) then .error .missing
  else match f.file? way with
    | some bytes => if endsOpen path then .error .notFolder else .ok bytes
    | none => .error (f.fault way)

def load (path : String) : Except LoadError String :=
  match f.read path with
  | .ok bytes => decodeText bytes
  | .error fault => .error (.unreadable fault)

end Folder
end ScriptGrammar

/-! # Reading files

What reading a file may come to, and a folder held in memory that answers as the file system would.
-/

namespace Script

namespace Command

inductive ReadError where
  | system (reason : String) (code : Nat)
  | invalidText
deriving DecidableEq

namespace ReadError

def notFound : ReadError :=
  system "No such file or directory" 2

def notFolder : ReadError :=
  system "Not a directory" 20

def isFolder : ReadError :=
  system "Is a directory" 21

def message : ReadError → String
  | system reason code => reason ++ " (os error " ++ toString code ++ ")"
  | invalidText => "stream did not contain valid UTF-8"

end ReadError

def decode (bytes : ByteArray) : Except ReadError String :=
  match String.fromUTF8? bytes with
  | some text => .ok text
  | none => .error .invalidText

/-- The files of a folder without subfolders, by name. -/
structure Folder where
  files : List (String × ByteArray)

namespace Folder

/-- Outside the folder nothing is known but the folders above it. -/
def readOutside (parts : List String) : ReadError :=
  if parts.all fun part => part = "" ∨ part = "." ∨ part = ".." then .isFolder else .notFound

/-- A path is taken from the folder on, unless it begins with a slash. -/
def read (folder : Folder) (path : String) : Except ReadError String :=
  match path.splitOn "/" with
  | "" :: parts => .error (readOutside parts)
  | parts =>
    match parts.dropWhile fun part => part = "" ∨ part = "." with
    | [] => .error .isFolder
    | ".." :: parts => .error (readOutside parts)
    | name :: parts =>
      match folder.files.lookup name with
      | some bytes => if parts = [] then decode bytes else .error .notFolder
      | none => .error .notFound

end Folder

end Command

end Script

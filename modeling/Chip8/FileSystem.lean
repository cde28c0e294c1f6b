/-
  Chip8.FileSystem

  Where program files come from: anything that answers a path with bytes or with
  the reason why there are none. A directory of named files is one such thing.
-/
import Chip8.Error

namespace Chip8

/-- The contents of the file at a path. -/
abbrev FileSystem := String → Except FileError (List UInt8)

/-- Files by name, each with its bytes. -/
structure Directory where
  files : List (String × List UInt8)

namespace Directory

/-- The directory without files. -/
def empty : Directory := ⟨[]⟩

/-- The directory without the file of that name. -/
def erase (d : Directory) (name : String) : Directory :=
  ⟨d.files.filter fun file => file.1 != name⟩

/-- The directory with a file of that name and contents. -/
def put (d : Directory) (name : String) (contents : List UInt8) : Directory :=
  ⟨(name, contents) :: (d.erase name).files⟩

/-- The files by their names; a dot names the directory itself. -/
def fileSystem (d : Directory) : FileSystem := fun path =>
  if path = "." then .error .isDirectory
  else match d.files.lookup path with
    | some contents => .ok contents
    | none => .error .missing

end Directory

end Chip8

/-
  Kenbak1.Image.File

  Program images in files. A file with the extension `kbk`, in whatever case, holds octal
  text; every other file holds the bytes themselves.
-/
import Kenbak1.FileStore
import Kenbak1.Image.Text

namespace Kenbak1
namespace Image

/-- The extension of octal text, in small letters. -/
def textExtension : List Char := ['k', 'b', 'k']

/-- The path names a file of octal text. -/
def isTextPath (path : String) : Bool :=
  match Path.extension? path with
  | some extension => extension.toList.map Char.toLower = textExtension
  | none => false

/-- A file operation as part of the work on an image. -/
def ofFile {α : Type} (result : Except FileFault α) : Except ImageError α :=
  match result with
  | .ok value => .ok value
  | .error fault => .error (.file fault)

/-- Reads the image in a file. Bytes go to `origin` unless octal text says otherwise. -/
def load (files : Files) (path : String) (origin : UInt8) : Except ImageError Image := do
  if isTextPath path then
    parse (← ofFile (files.text path)) origin
  else
    ofBytes origin (← ofFile (files path))

/-- Writes an image to a file as octal text. -/
def save (image : Image) (store : FileStore) (path : String) : Except ImageError FileStore :=
  ofFile (store.writeText path image.render)

end Image
end Kenbak1

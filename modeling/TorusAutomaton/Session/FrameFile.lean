import TorusAutomaton.Files.Tree
import TorusAutomaton.Text.Quotes
import TorusAutomaton.View.Image

/-!
# Frames in files

A frame is saved under a path, whose ending tells the image format. The directories above it are
made first. Only one format can be written: with the ending of another the file is made but stays
empty, and with an ending of no format there is no file.
-/

namespace TorusAutomaton.Session

open TorusAutomaton Text

/-- The files around a session. An empty file has no image. -/
abbrev FileTree := Files.Tree (Option View.Image)

/-- Why a frame could not be written. -/
inductive FrameFault
  | noEnding
  | unknownEnding (ending : Text)
  | unsupported (format : String)
  | blocked (fault : Files.Fault)
  deriving DecidableEq, Repr

def FrameFault.message : FrameFault → String
  | .noEnding => "The image format could not be determined"
  | .unknownEnding ending =>
    "The file extension \x60." ++ String.ofList (escaped ending)
      ++ "\x60 was not recognized as an image format"
  | .unsupported format => "The image format \x60" ++ format ++ "\x60 is not supported"
  | .blocked fault => fault.message

/-- Image formats and their endings. -/
def imageFormats : List (String × List String) :=
  [("Png", ["png", "apng"]), ("Avif", ["avif"]), ("Jpeg", ["jpg", "jpeg", "jfif"]),
   ("Gif", ["gif"]), ("WebP", ["webp"]), ("Tiff", ["tif", "tiff"]), ("Tga", ["tga"]),
   ("Dds", ["dds"]), ("Bmp", ["bmp"]), ("Ico", ["ico"]), ("Hdr", ["hdr"]), ("OpenExr", ["exr"]),
   ("Pnm", ["pbm", "pam", "ppm", "pgm", "pnm"]), ("Farbfeld", ["ff"]), ("Qoi", ["qoi"])]

/-- The format that can be written. -/
def writtenFormat : String := "Png"

/-- The image format of a path. Upper and lower case do not matter. -/
def formatOf (path : Text) : Except FrameFault String :=
  match (Path.lastName path).bind Path.ending with
  | none => .error .noEnding
  | some ending =>
    let lower := String.ofList (ending.map Char.toLower)
    match imageFormats.find? fun format => format.2.contains lower with
    | some format => .ok format.1
    | none => .error (.unknownEnding ending)

/-- What became of an image that was to be saved. -/
inductive Saving
  | saved
  | spoiled (format : String)
  | noDirectory (path : Text) (fault : Files.Fault)
  | failed (fault : FrameFault)
  deriving DecidableEq, Repr

/-- Makes the file for an image, in a directory that has been made. -/
def writeImage (files : FileTree) (path : Text) (image : View.Image) : FileTree × Saving :=
  match formatOf path with
  | .error fault => (files, .failed fault)
  | .ok format =>
    let content := if format = writtenFormat then some image else none
    match files.write path content with
    | .error fault => (files, .failed (.blocked fault))
    | .ok files => (files, if format = writtenFormat then .saved else .spoiled format)

/-- Saves an image under a path. -/
def saveImage (files : FileTree) (path : Text) (image : View.Image) : FileTree × Saving :=
  match Path.parent path with
  | none => writeImage files path image
  | some above =>
    match files.makeDirectories above with
    | (files, some fault) => (files, .noDirectory above fault)
    | (files, none) => writeImage files path image

end TorusAutomaton.Session

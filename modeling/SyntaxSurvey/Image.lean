import SyntaxSurvey.FileSystem.Operations
import SyntaxSurvey.Graph.Dot
import SyntaxSurvey.Log
import SyntaxSurvey.Record

/-! Images of trees: where they are kept, how they are made and what the record of a source learns
from it. A file is written only when the renderer has made the whole image. -/

namespace SyntaxSurvey.Image

open Number (Binary64 Quantity)

def defaultScale : Binary64 :=
  Binary64.ofDecimal false 12 (-1)

def suffix : String := "_tree.png"

/-- What is added to a root to name the directory of its images. -/
def directorySuffix : String := "_parse_trees"

/-- A text without its given ending. A text that does not end so stays as it is. -/
def withoutSuffix (ending : String) (s : String) : String :=
  let cs := s.toList
  if ending.toList.isSuffixOf cs then String.ofList (cs.take (cs.length - ending.length)) else s

/-- The name of the image of a source, whose name loses the ending that sources have. -/
def nameFor (source : Path) (sourceSuffix : String) : String :=
  withoutSuffix sourceSuffix source.name ++ suffix

/-- The directory for images of sources below a root: the root with something added to its
written form. -/
def directoryFor (root : Path) : Path :=
  Path.ofString (root.text ++ directorySuffix)

def render (renderer : Renderer) (files : FileSystem) (tree : Tree) (path : Path)
    (scale : Quantity) : Except Trouble FileSystem :=
  match Graph.ofTree tree scale with
  | .error reason => .error (.unbounded reason)
  | .ok graph =>
    match renderer graph.text with
    | .error failure => .error (.renderer failure)
    | .ok image =>
      match files.write path image with
      | .error failure => .error (.file failure)
      | .ok files => .ok files

/-- What came of saving an image: the path of its file if it was written, the record of the
source, what was logged, and the directory tree. -/
structure Saving where
  path : Option Path
  record : Record
  log : Log
  files : FileSystem

/-- Draw the tree of a source and write its image to a directory. -/
def save (renderer : Renderer) (files : FileSystem) (record : Record) (tree : Option Tree)
    (directory : Path) (sourceSuffix : String) (scale : Quantity) (took : Duration) : Saving :=
  match tree with
  | none => ⟨none, record, [.treeMissing record.filepath], files⟩
  | some tree =>
    let log : Log :=
      if record.diagnostics.isEmpty then [] else [.treeIncomplete record.filepath]
    let path := directory.child (nameFor (.ofString record.filepath) sourceSuffix)
    match render renderer files tree path scale with
    | .error trouble =>
      ⟨none, record.stoppedBy trouble,
        log ++ [.drawingFailed record.filepath trouble, .drawingFailure trouble], files⟩
    | .ok files =>
      ⟨some path, { record with imagePath := some path.text }, log ++ [.drawn path.name took],
        files⟩

end SyntaxSurvey.Image

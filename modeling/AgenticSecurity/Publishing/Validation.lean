import AgenticSecurity.Library.Git
import AgenticSecurity.Models
import AgenticSecurity.Python.Text
import Mathlib.Data.List.Sort

namespace AgenticSecurity.Publishing

open Library Models Python

abbrev Bytes := List UInt8

/-- The regular files under a directory, by their paths from it. -/
abbrev Directory := Git.Tree Bytes

structure PublicationHash where
  path : String
  sha256 : Sha256
  sizeBytes : ℕ
  deriving DecidableEq

structure PublicationManifest where
  generatedAt : Datetime
  methodologyVersion : String
  taxonomyVersion : String
  sourceLedgerVersion : String
  contentCount : ℕ
  confirmedChangeCount : ℕ
  pendingReviewCount : ℕ
  files : List PublicationHash
  deriving DecidableEq

structure BundleFunctions where
  sha256 : Bytes → Sha256
  parseManifest : Bytes → Except String PublicationManifest
  scanPublicFile : Git.TreePath → Bytes → Except String Unit

variable (functions : BundleFunctions)

/-- `path.relative_to(root).as_posix()`. -/
def asPosix (path : Git.TreePath) : String := "/".intercalate path

def fileHash (file : Git.TreePath × Bytes) : PublicationHash where
  path := asPosix file.1
  sha256 := functions.sha256 file.2
  sizeBytes := file.2.length

def manifestPath : Git.TreePath := ["manifest.json"]

def checkFiles : List ((Git.TreePath × Bytes) × PublicationHash) → Except String Unit
  | [] => .ok ()
  | (file, expectedHash) :: rest => do
    functions.scanPublicFile file.1 file.2
    if fileHash functions file ≠ expectedHash then
      .error ("publication file hash mismatch: " ++ expectedHash.path)
    else checkFiles rest

/-- Paths are sorted by their names from the root, entries by the path as text. -/
def validatePublicationBundle (root : Directory) : Except String PublicationManifest :=
  match root.lookup manifestPath with
  | none => .error "publication/manifest.json is missing"
  | some raw => do
    let manifest ← functions.parseManifest raw
    let expected := manifest.files.insertionSort fun a b ↦ a.path ≤ b.path
    if manifest.files ≠ expected then
      .error "publication manifest file hashes are not sorted"
    else
      let actual := (root.insertionSort fun a b ↦ a.1 ≤ b.1).filter fun file ↦ file.1 ≠ manifestPath
      if expected.map PublicationHash.path ≠ actual.map fun file ↦ asPosix file.1 then
        .error "publication manifest does not exactly enumerate bundle files"
      else
        checkFiles functions (actual.zip expected)
        functions.scanPublicFile manifestPath raw
        .ok manifest

/-- `publication_artifact_hash`. -/
def publicationArtifactHash (manifest : PublicationManifest) : Sha256 :=
  functions.sha256
    (encodeUtf8 ("\n".intercalate
      (manifest.files.map fun item ↦ item.path ++ ":" ++ item.sha256.text)))

end AgenticSecurity.Publishing

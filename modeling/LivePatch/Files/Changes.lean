import LivePatch.Files.Tree
import LivePatch.Text.Number

/-!
# Changes of files

What has become of a tree of files, path by path. Times do not count.
-/

namespace LivePatch

/-- What became of a tree of files. -/
structure FileChanges where
  removed : List String
  /-- New contents by path, none for directories. -/
  written : List (String × Option Bytes)
  deriving DecidableEq, Repr

namespace FileTree

/-- What lies below the working directory, by the names from there on. -/
def below (t : FileTree) : List (Location × FileNode) :=
  (t.nodes.filter fun (l, _) ↦ t.home.isPrefixOf l && t.home != l).map fun (l, n) ↦
    (l.drop t.home.length, n)

/-- Contents of all files below the working directory by path, none for directories, in the order
of the paths' texts. -/
def listing (t : FileTree) : List (String × Option Bytes) :=
  (t.below.map fun (l, n) ↦ (Text.join "/" l, match n with
    | .file data _ => some data
    | .directory _ => none)).mergeSort fun a b ↦ a.1 ≤ b.1

/-- What became of a tree of files. -/
def changes (old new : FileTree) : FileChanges where
  removed := (old.listing.filter fun e ↦ (new.listing.lookup e.1).isNone).map Prod.fst
  written := new.listing.filter fun e ↦ old.listing.lookup e.1 != some e.2

end FileTree
end LivePatch

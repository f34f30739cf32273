/-!
What stands under a path: a file, a directory or nothing.

A tree of files follows the names of a path one by one, from the root or from the working directory; `.` stays
where it is and `..` goes up.
-/
namespace MetricReporting

inductive FileContent
  | missing
  | directory
  | bytes (content : ByteArray)

structure FileTree where
  entries : List (List String × FileContent)
  workingDirectory : List String := []

namespace FileTree

def isDirectory (t : FileTree) (place : List String) : Bool :=
  place.isPrefixOf t.workingDirectory || t.entries.any fun (names, content) =>
    place.isPrefixOf names && (place.length < names.length || content matches .directory)

def contentAt (t : FileTree) (place : List String) : FileContent :=
  if t.isDirectory place then .directory else (t.entries.lookup place).getD .missing

def follow (t : FileTree) : List String → List String → FileContent
  | place, [] => t.contentAt place
  | place, name :: rest =>
    if !t.isDirectory place then .missing
    else if name = "" ∨ name = "." then t.follow place rest
    else if name = ".." then t.follow place.dropLast rest
    else t.follow (place ++ [name]) rest

def longestPath : Nat := 4095

def content (t : FileTree) (path : String) : FileContent :=
  if path.isEmpty || longestPath < path.utf8ByteSize then .missing
  else t.follow (if path.startsWith "/" then [] else t.workingDirectory) (path.splitOn "/")

end FileTree

end MetricReporting

import LivePatch.Failure
import LivePatch.Objects.BigArchive

/-!
# Weak symbols of libraries

A static library comes in two forms, whose members are found in different ways. The weak symbols of
the object files among its members are collected, in the order of the members.
-/

namespace LivePatch.Library

/-- How to get at the contents of a library's members. -/
inductive Members where
  /-- They lie one behind the other from an offset on. -/
  | following (library : Archive.Library) (start : Nat)
  /-- Fields of an index name where they lie. -/
  | indexed (data : Bytes) (index : List (List UInt8))

/-- Reads what a library starts with. -/
def parse? (data : Bytes) : Option Members := do
  let start ← data.slice? 0 BigArchive.magic.length
  if start.toList = BigArchive.magic then
    pure (.indexed data (← BigArchive.index? data))
  else
    let (library, start) ← Archive.parse? data
    pure (.following library start)

/-- The contents of all members. An error of one ends everything. -/
def Members.contents? : Members → Option (List Bytes)
  | .following l start => Archive.contentsFrom l l.data.size start
  | .indexed data index => index.mapM (BigArchive.member? data)

/-- The weak symbols of a static library. -/
def weakSymbols (data : Bytes) : Outcome (List String) := do
  let members ← inContext .parsingLibrary (orFail .malformed (parse? data))
  let contents ← orFail .malformed members.contents?
  let names ← orFail .malformed (contents.mapM Archive.weakSymbols?)
  pure names.flatten

end LivePatch.Library

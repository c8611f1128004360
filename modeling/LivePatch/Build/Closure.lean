import LivePatch.Build.Workshop
import LivePatch.Registry.Basic

/-!
# Needed object files

Which object files go into a patch. Recompiled files always do. Another file is pulled in when a
needed one refers to a symbol that it defines and no loaded image has, or when it created a
precompiled header that a needed one forces to be included.
-/

namespace LivePatch

/-- External symbols and the object files that define them. Of several files the first counts. -/
abbrev SymbolOwners := List (String × Path)

namespace CompilandTable

/-- Whether an object file is what the linker sees for its unit: parts of a unity file only once it
is split, the unity file only until then. -/
def isLinkedUnit (t : CompilandTable) (object : Path) : Bool :=
  match t.amalgamations.find? object with
  | some a => !a.isSplit
  | none =>
    match (t.get? object).bind Compiland.amalgamation with
    | some unity => (t.amalgamations.find? unity).any Amalgamation.isSplit
    | none => true

/-- Object files whose symbols may be pulled in, in order. -/
def candidateOwners (t : CompilandTable) (recompiled : PathSet) : List Path :=
  (PathSet.ofList (t.units.keys.filter t.isLinkedUnit
    ++ recompiled.toList.filter fun p ↦ !t.contains p)).toList

end CompilandTable

namespace Closure

/-- The owners of all symbols that some object files define. -/
def ownersOf (objects : List (Path × ObjectTable)) : SymbolOwners :=
  objects.flatMap fun (path, table) ↦ table.externalDefinitions.map fun name ↦ (name, path)

/-- The owners of all symbols of the module's units and the recompiled files. Files that cannot be
read own nothing. -/
def symbolOwners (t : CompilandTable) (recompiled : PathSet) : WorkshopM SymbolOwners := do
  return ownersOf (← Workshop.readableObjects (t.candidateOwners recompiled))

/-- The object files that an object file needs. -/
def wanted (t : CompilandTable) (registry : Registry) (owners : SymbolOwners)
    (table : ObjectTable) : List Path :=
  (table.undefined.filterMap fun s ↦
      if registry.containsSymbol s.name then none else owners.lookup s.name)
    ++ (table.includedSymbols.filter Names.isPrecompiledHeader).filterMap t.headerOwner?

/-- Adds needed files to the set and to the front of the queue, each once. -/
def enqueue : PathSet × List Path → List Path → PathSet × List Path
  | state, [] => state
  | (needed, queue), path :: rest =>
    if needed.contains path then enqueue (needed, queue) rest
    else enqueue (needed.add path, path :: queue) rest

/-- Follows the needs of the files in a queue. Every file enters the queue once, so `fuel` bounds
the number of files. -/
def follow (t : CompilandTable) (registry : Registry) (owners : SymbolOwners) :
    Nat → PathSet → List Path → WorkshopM PathSet
  | 0, needed, _ => pure needed
  | _, needed, [] => pure needed
  | fuel + 1, needed, path :: queue => do
    let table ← Workshop.object path
    let (needed, queue) := enqueue (needed, queue) (wanted t registry owners table)
    follow t registry owners fuel needed queue

/-- The object files that a patch of recompiled files needs. -/
def needed (t : CompilandTable) (registry : Registry) (owners : SymbolOwners)
    (recompiled : PathSet) : WorkshopM PathSet :=
  follow t registry owners (recompiled.size + owners.length + t.headerOwners.length + 1) recompiled
    recompiled.toList.reverse

end Closure
end LivePatch

import LivePatch.Coff.Editor
import LivePatch.Files.Tree
import LivePatch.Tables.Names
import LivePatch.Text.LowerCase

/-!
# Settings

What a user chooses for a session: tools to use instead of the recorded ones, options for them, and
how units, weak symbols and stripped symbols are treated.
-/

namespace LivePatch

/-- How weak symbols of static libraries are handed to the linker. -/
inductive WeakSymbolPolicy where
  /-- Every one of them is forced to be included, as it was in the module. -/
  | forceInclude
  /-- The linker resolves them. -/
  | linkerDefault
  deriving DecidableEq, Repr

/-- The family of a linker, which decides how symbols are neutralized. -/
inductive LinkerFlavor where
  | msvc
  | lld
  deriving DecidableEq, Repr

namespace LinkerFlavor

/-- The family that the name of a linker's file tells. -/
def detect (linker : Path) : LinkerFlavor :=
  let name := Text.lowerCase ((linker.fileName?.getD "").toList)
  if Names.occurs "lld".toList name then .lld else .msvc

/-- Name of a family. -/
def text : LinkerFlavor → String
  | .msvc => "Msvc"
  | .lld => "Lld"

/-- The removal strategy that a family accepts. -/
def strategy : LinkerFlavor → RemovalStrategy
  | .msvc => .debugSection
  | .lld => .absolute

end LinkerFlavor

/-- The choices of a user. -/
structure Settings where
  compiler : Option Path
  /-- The compiler above is only used when the recorded one is gone. -/
  compilerFallbackOnly : Bool
  compilerOptions : String
  linker : Option Path
  /-- The linker above is only used when the recorded one is gone. -/
  linkerFallbackOnly : Bool
  linkerOptions : String
  /-- Parts of a unity file are compiled one by one as soon as one of them changes. -/
  splitAmalgamations : Bool
  weakSymbols : WeakSymbolPolicy
  linkerFlavor : Option LinkerFlavor
  /-- Patches are not installed into processes attached later. -/
  singleProcess : Bool
  deriving DecidableEq, Repr

namespace Settings

/-- The usual choices. -/
def default : Settings := ⟨none, false, "", none, false, "", false, .forceInclude, none, false⟩

instance : Inhabited Settings := ⟨default⟩

/-- The tool to use: the recorded one, or another one, which may only be meant for when the
recorded one is gone. -/
def tool (files : FileTree) (recorded : Path) (chosen : Option Path) (fallbackOnly : Bool) : Path :=
  match chosen with
  | some path => if !fallbackOnly || !files.contains recorded then path else recorded
  | none => recorded

/-- The compiler to use. -/
def compilerFor (s : Settings) (files : FileTree) (recorded : Path) : Path :=
  tool files recorded s.compiler s.compilerFallbackOnly

/-- The linker to use. -/
def linkerFor (s : Settings) (files : FileTree) (recorded : Path) : Path :=
  tool files recorded s.linker s.linkerFallbackOnly

/-- How symbols are removed for a linker. -/
def strategyFor (s : Settings) (linker : Path) : RemovalStrategy :=
  (s.linkerFlavor.getD (LinkerFlavor.detect linker)).strategy

/-- Whether patches are installed into processes attached later. -/
def installsLater (s : Settings) : Bool := !s.singleProcess

end Settings
end LivePatch

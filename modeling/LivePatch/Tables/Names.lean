import LivePatch.Text.Number

/-!
# Names of symbols

What the name of a symbol says about it. Compilers give symbols of their own telling names; the
identity of such a symbol belongs to the compiler, and references to it are never redirected.
-/

namespace LivePatch.Names

/-- Whether a name starts with a text. -/
def startsWith (name start : String) : Bool := start.toList.isPrefixOf name.toList

/-- Whether a text occurs in the characters. -/
def occurs (needle : List Char) : List Char → Bool
  | [] => needle.isEmpty
  | c :: rest => needle.isPrefixOf (c :: rest) || occurs needle rest

/-- The name under which a symbol local to a unit is known across images: the unit's identifier
keeps apart symbols of one name. -/
def localName (name : String) (unit : UInt32) : String :=
  name ++ "@" ++ Text.paddedHex 8 unit.toNat

/-- A string literal. -/
def isStringLiteral (name : String) : Bool :=
  startsWith name "??_C@" || startsWith name "$SG"

/-- A floating-point or vector constant. -/
def isFloatingPoint (name : String) : Bool :=
  startsWith name "__real@" || startsWith name "__xmm@" || startsWith name "__ymm@"

/-- A symbol that ties users of a precompiled header to it. -/
def isPrecompiledHeader (name : String) : Bool := startsWith name "__@@_PchSym_"

/-- A locator of run-time type information. -/
def isTypeLocator (name : String) : Bool := startsWith name "??_R4"

/-- A function that initializes or destroys an object before or after the program proper. -/
def isDynamicInitializer (name : String) : Bool :=
  startsWith name "??__E" || startsWith name "??__F"
    || occurs "$initializer$".toList name.toList

/-- Beginnings of names that belong to exception handling. -/
def exceptionStarts : List String :=
  ["$unwind$", "$pdata$", "$chain$", "$ip2state$", "$cppxdata$", "$stateUnwindMap$", "$tryMap$",
    "$handlerMap$", "$xdatasym", "__catch$", "__unwindfunclet$", "__CxxFrameHandler",
    "__C_specific_handler", "__GSHandlerCheck", "_CxxThrowException", "__std_terminate", "_TI",
    "_CTA", "_CT??"]

/-- A symbol of exception handling. -/
def isException (name : String) : Bool := exceptionStarts.any fun s ↦ startsWith name s

/-- A function of the run-time checks. -/
def isRuntimeCheck (name : String) : Bool :=
  startsWith name "_RTC_" || startsWith name "__RTC_"

/-- A function of the security checks. -/
def isSecurityCheck (name : String) : Bool :=
  ["__security_check_cookie", "__CheckForDebuggerJustMyCode",
    "__report_rangecheckfailure"].contains name || startsWith name "__sdl_"

/-- A symbol whose identity belongs to the compiler. -/
def isCompilerGenerated (name : String) : Bool :=
  isStringLiteral name || isFloatingPoint name || isPrecompiledHeader name || isTypeLocator name
    || isDynamicInitializer name || isException name

/-- Whether references to a name are ever redirected into an older image. -/
def isRedirectable (name : String) : Bool := !isCompilerGenerated name

end LivePatch.Names

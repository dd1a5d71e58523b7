import Mathlib.Data.List.DropRight

/-!
# Hook definitions

A hook is known by its canonical name, the normalised file name of its module
and the name of the export, joined by an exclamation mark.
-/

namespace ApiScope

/-- A string literal of the source. -/
def narrow (text : String) : List UInt8 := text.toList.map Char.toUInt8

structure HookDefinition where
  moduleName : List UInt8
  exportName : List UInt8
  handlerExport : List UInt8
  trampolineExport : List UInt8
  canonicalName : List UInt8
  deriving DecidableEq, Repr

/-- `std::tolower` of the C locale -/
def toLower (character : UInt8) : UInt8 :=
  if 0x41 ≤ character ∧ character ≤ 0x5A then character + 0x20 else character

/-- The last component of a path, in lower case. -/
def NormalizeModuleName (moduleName : List UInt8) : List UInt8 :=
  (moduleName.rtakeWhile fun character => character != 0x5C && character != 0x2F).map toLower

def FindSupportedHook (hooks : List HookDefinition) (canonicalName : List UInt8) :
    Option HookDefinition :=
  hooks.find? fun hook => hook.canonicalName == canonicalName

end ApiScope

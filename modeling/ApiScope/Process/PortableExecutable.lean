import ApiScope.Trace.Protocol

/-!
# Portable executables

Where the fields of a 64-bit image that the program reads lie in their
structures.
-/

namespace ApiScope

def IMAGE_DOS_SIGNATURE : UInt16 := 0x5A4D
def IMAGE_NT_SIGNATURE : UInt32 := 0x4550
def IMAGE_NT_OPTIONAL_HDR64_MAGIC : UInt16 := 0x20B
def IMAGE_REL_BASED_DIR64 : Nat := 10

/-- `sizeof(IMAGE_DOS_HEADER)` -/
def sizeofImageDosHeader : Nat := 64
/-- `sizeof(IMAGE_NT_HEADERS)` -/
def sizeofImageNtHeaders : Nat := 264
/-- `sizeof(IMAGE_SECTION_HEADER)` -/
def sizeofImageSectionHeader : Nat := 40
/-- `sizeof(IMAGE_BASE_RELOCATION)` -/
def sizeofImageBaseRelocation : Nat := 8
/-- `sizeof(IMAGE_EXPORT_DIRECTORY)` -/
def sizeofImageExportDirectory : Nat := 40

namespace ImageDosHeader

def e_magic : Nat := 0
def e_lfanew : Nat := 60

end ImageDosHeader

-- the file header starts at 4, the optional header at 24
namespace ImageNtHeaders

def Signature : Nat := 0
def NumberOfSections : Nat := 6
def SizeOfOptionalHeader : Nat := 20
def OptionalHeader : Nat := 24
def Magic : Nat := 24
def ImageBase : Nat := 48
def SizeOfImage : Nat := 80
def SizeOfHeaders : Nat := 84

/-- `DataDirectory[IMAGE_DIRECTORY_ENTRY_EXPORT]` -/
def exportDirectory : Nat := 136
/-- `DataDirectory[IMAGE_DIRECTORY_ENTRY_BASERELOC]` -/
def relocationDirectory : Nat := 176

end ImageNtHeaders

namespace ImageSectionHeader

def VirtualSize : Nat := 8
def VirtualAddress : Nat := 12
def SizeOfRawData : Nat := 16
def PointerToRawData : Nat := 20
def Characteristics : Nat := 36

end ImageSectionHeader

namespace ImageExportDirectory

def Name : Nat := 12
def NumberOfFunctions : Nat := 20
def NumberOfNames : Nat := 24
def AddressOfFunctions : Nat := 28
def AddressOfNames : Nat := 32
def AddressOfNameOrdinals : Nat := 36

end ImageExportDirectory

open Bytes in
/-- The bytes from a position on of a file of zeros that holds words (an offset, a
width and a value) in the order of their offsets. -/
def fileOfWords (size : Nat) : Nat → List (Nat × Nat × Nat) → List UInt8
  | position, [] => List.replicate (size - position) 0
  | position, (offset, width, value) :: rest =>
      List.replicate (offset - position) 0 ++
        (littleEndian width value ++ fileOfWords size (offset + width) rest)

end ApiScope

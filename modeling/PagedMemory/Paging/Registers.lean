import PagedMemory.Flag
import PagedMemory.Page

/-!
# Control registers

Two registers steer address lookup: one holds the switches for protection and paging, the other the
frame of the page directory. Bits without a name are kept as they are.
-/

namespace PagedMemory

/-- The switches of the first control register. -/
inductive ControlFlag
  | protectionEnable
  | monitorCoprocessor
  | emulation
  | taskSwitched
  | extensionType
  | numericError
  | writeProtect
  | alignmentMask
  | notWriteThrough
  | cacheDisable
  | paging
deriving DecidableEq, Repr

instance : Flag ControlFlag where
  all := [.protectionEnable, .monitorCoprocessor, .emulation, .taskSwitched, .extensionType,
    .numericError, .writeProtect, .alignmentMask, .notWriteThrough, .cacheDisable, .paging]
  bit
    | .protectionEnable => 0
    | .monitorCoprocessor => 1
    | .emulation => 2
    | .taskSwitched => 3
    | .extensionType => 4
    | .numericError => 5
    | .writeProtect => 16
    | .alignmentMask => 18
    | .notWriteThrough => 29
    | .cacheDisable => 30
    | .paging => 31
  name
    | .protectionEnable => "PROTECTION_ENABLE"
    | .monitorCoprocessor => "MONITOR_COPROCESSOR"
    | .emulation => "EMULATION"
    | .taskSwitched => "TASK_SWITCHED"
    | .extensionType => "EXTENSION_TYPE"
    | .numericError => "NUMERIC_ERROR"
    | .writeProtect => "WRITE_PROTECT"
    | .alignmentMask => "ALIGNMENT_MASK"
    | .notWriteThrough => "NOT_WRITE_THROUGH"
    | .cacheDisable => "CACHE_DISABLE"
    | .paging => "PAGING"

/-- The registers that an address lookup consults. -/
structure Registers where
  /-- The switches. -/
  cr0 : UInt32
  /-- The frame of the page directory, in the upper twenty bits. -/
  cr3 : UInt32
deriving DecidableEq, Repr

namespace Registers

/-- Paging is off: virtual addresses are physical ones. -/
def flat : Registers := ⟨0, 0⟩

/-- Paging is on, with nothing else switched. -/
def paged (cr3 : UInt32) : Registers :=
  ⟨Flag.mask ControlFlag.protectionEnable ||| Flag.mask ControlFlag.paging, cr3⟩

/-- Paging needs both the protection and the paging switch. -/
def pagingEnabled (regs : Registers) : Bool :=
  Flag.isSet regs.cr0 ControlFlag.protectionEnable && Flag.isSet regs.cr0 ControlFlag.paging

/-- The base of the page directory. -/
def directory (regs : Registers) : UInt32 := Page.base regs.cr3

instance : Inhabited Registers := ⟨flat⟩

@[simp] theorem pagingEnabled_paged (cr3 : UInt32) : (paged cr3).pagingEnabled = true := by
  simp only [pagingEnabled, paged]
  decide

end Registers

end PagedMemory

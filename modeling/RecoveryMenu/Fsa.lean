import Mathlib.Data.Int.Notation
import Mathlib.Data.List.Basic

set_option relaxedAutoImplicit false
set_option autoImplicit false

/-!
# The file system interface (`ios_mcp/source/fsa.c`)

The wrappers of `fsa.c` build a request, hand it to the FSA device and return the result of
that call. A modelled function that uses them takes the results as an argument and returns the
calls it made, in order, so that one can say which of them failed and which handles they used.

## Main definitions

* `RecoveryMenu.Fsa.Call`: a call with the result it returned.
* `RecoveryMenu.Fsa.Call.Failed`: the call returned a negative result.

## References

* `ios_mcp/source/fsa.c`: `FSA_OpenFile`, `_FSA_ReadWriteFile`, `FSA_CloseFile`.
-/

namespace RecoveryMenu

namespace Fsa

/-- A call of the file system or of the heap, with its result. -/
inductive Call
  /-- `FSA_OpenFile(fd, path, mode, &handle)`. -/
  | openFile (path mode : String) (res handle : ℤ)
  /-- `FSA_ReadFile(fd, data, 1, cnt, handle, 0)`. -/
  | readFile (cnt : ℕ) (handle res : ℤ)
  /-- `FSA_WriteFile(fd, data, 1, cnt, handle, 0)`. -/
  | writeFile (cnt : ℕ) (handle res : ℤ)
  /-- `FSA_CloseFile(fd, handle)`, whose result no caller looks at. -/
  | closeFile (handle : ℤ)
  /-- `IOS_HeapAllocAligned(CROSS_PROCESS_HEAP_ID, size, 0x40)` and whether it succeeded. -/
  | heapAlloc (size : ℕ) (ok : Bool)
  /-- `IOS_HeapFree(CROSS_PROCESS_HEAP_ID, data)`. -/
  | heapFree
  deriving DecidableEq, Repr

/-- What a read returns at the end of a file. -/
def endOfFile : ℤ := 0

/-- An open, a read or a write that returned a negative result. -/
def Call.Failed : Call → Prop
  | .openFile _ _ res _ => res < 0
  | .readFile _ _ res => res < 0
  | .writeFile _ _ res => res < 0
  | _ => False

end Fsa

end RecoveryMenu

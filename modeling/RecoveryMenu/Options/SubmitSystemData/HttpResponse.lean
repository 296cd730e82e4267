import RecoveryMenu.Foundations.ByteMemory

set_option relaxedAutoImplicit false
set_option autoImplicit false

/-!
# Parsing the response (`ios_mcp/source/options/SubmitSystemData.c`)

`parse_http_response` looks for the response code and the body of an HTTP response. It ends the
status line by a NUL in the buffer.

## Main definitions

* `RecoveryMenu.SubmitSystemData.parseHttpResponse`: the function, with the buffer after it.

## References

* `ios_mcp/source/options/SubmitSystemData.c`, lines 82-153.
-/

namespace RecoveryMenu

namespace SubmitSystemData

open ByteMemory

/-- What `parse_http_response` returns, the buffer after it, and the indices it stores in
`out_resp` and `out_body`. -/
structure Parsed where
  res : ℤ
  buf : Frame
  resp : Option ℕ
  body : Option ℕ

/-- `"HTTP/1."`. -/
def httpPrefix : List UInt8 := [0x48, 0x54, 0x54, 0x50, 0x2F, 0x31, 0x2E]

/-- `"\r\n\r\n"`. -/
def headerEnd : List UInt8 := [0x0D, 0x0A, 0x0D, 0x0A]

/-- The test of a character of the response code, which no character fails. -/
def notDigit (c : UInt8) : Prop := c < 0x30 ∧ c > 0x39

instance (c : UInt8) : Decidable (notDigit c) := inferInstanceAs (Decidable (_ ∧ _))

/-- The first `'\r'` from index 13 on. -/
def findCr (buf : Frame) (len : ℕ) : Option ℕ :=
  (List.range' 13 (len - 13)).find? fun p => buf p = 0x0D

/-- The first `"\r\n\r\n"` from index `start` on. -/
def findHeaderEnd (buf : Frame) (start len : ℕ) : Option ℕ :=
  (List.range' start (len - 3 - start)).find? fun p => buf.load p 4 = headerEnd

/-- The second half of `parse_http_response`: the body, searched from index `start` on. -/
def findBody (buf : Frame) (start len : ℕ) : Option ℕ :=
  match findHeaderEnd buf start len with
  | some p => if p + 4 < len then some (p + 4) else none
  | none => none

/-- `parse_http_response(buf, len, &resp, &body)`. -/
def parseHttpResponse (buf : Frame) (len : ℕ) : Parsed :=
  if len < 64 then ⟨-1, buf, none, none⟩
  else if buf.load 0 7 ≠ httpPrefix then ⟨-1, buf, none, none⟩
  else if buf 7 ≠ 0x30 ∧ buf 7 ≠ 0x31 then ⟨-1, buf, none, none⟩
  else if buf 8 ≠ 0x20 ∨ buf 12 ≠ 0x20 ∨ notDigit (buf 9) ∨ notDigit (buf 10) ∨
      notDigit (buf 11) then
    ⟨-2, buf, none, none⟩
  else
    match findCr buf len with
    | none => ⟨-3, buf, none, none⟩
    | some p =>
      let buf := buf.store p [0]
      if p + 1 = len then ⟨-3, buf, some 9, none⟩
      else ⟨0, buf, some 9, findBody buf (p + 1) len⟩

end SubmitSystemData

end RecoveryMenu

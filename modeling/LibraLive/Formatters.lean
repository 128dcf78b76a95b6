import LibraLive.CInt

/-!
# The formatters

`log` of `Logger.h` and `CC_FORMAT` of `TimeExt.h`, which format a text into a buffer and try again with a larger one if the text
does not fit. A text is the sequence of its characters, and a place of a buffer that nothing was written to yet has any content.
-/

namespace LibraLive

namespace Formatters

/-- `vsnprintf(buf, n, ...)` for this text: what it returns, and the buffer then. It has no value if it writes beyond the buffer. -/
def vsnprintf (buf : List UInt8) (n : Nat) (text : List UInt8) : Option (Int × List UInt8) :=
  let stored := if n = 0 then [] else text.take (n - 1) ++ [0]
  if stored.length ≤ buf.length then
    some (if CInt.Fits text.length then text.length else -1, stored ++ buf.drop stored.length)
  else none

/-- `buf[i] = c`. -/
def put (buf : List UInt8) (i : Int) (c : UInt8) : Option (List UInt8) :=
  if 0 ≤ i ∧ i < buf.length then some (buf.set i.toNat c) else none

/-- The string that `%s` takes from a buffer. -/
def cString (buf : List UInt8) : Option (List UInt8) :=
  if 0 ∈ buf then some (buf.takeWhile (· ≠ 0)) else none

/-! ## `CC_FORMAT` -/

/-- `str.resize(n)`. -/
def resize (str : List UInt8) (n : Nat) : List UInt8 := str.take n ++ List.replicate (n - str.length) 0

/-- The loop of `CC_FORMAT` from pass `j` on, with the passes that are left. -/
def ccFormatLoop (text : List UInt8) : Nat → Int → Int → List UInt8 → Option (List UInt8)
  | 0, _, _, _ => some []
  | passes + 1, j, size, str => do
    let (n, str) ← vsnprintf (resize str size.toNat) size.toNat text
    if 0 ≤ n ∧ n < size then some (resize str n.toNat)
    else if -1 < n then ccFormatLoop text passes (j + 1) (← CInt.result (n + 1)) str
    else ccFormatLoop text passes (j + 1) ((j + 1) * 32 * 1024) str

/-- `CC_FORMAT`. -/
def CC_FORMAT (text : List UInt8) : Option (List UInt8) := ccFormatLoop text 8 0 1024 []

/-! ## `log` -/

abbrev MAX_LOG_LENGTH : Int := 16 * 1024

/-- How a call of `log` ends: without memory, with an operation that has no value, or with a call of `__android_log_print` for a
string. -/
inductive LogEnd where
  | returned
  | undefined
  | printed (buf : List UInt8)
  deriving DecidableEq, Repr

/-- What `log` does once the text has been formatted. -/
def logPrint (buf : List UInt8) (nret : Int) : Option (List UInt8) := do
  let buf ← put buf nret 0x0a
  let buf ← put buf (nret + 1) 0
  cString buf

/-- The loop of `log` from a pass on; `memory` is the content of the block that `new` finds in each pass, if it finds one. The
call has not ended yet when the fuel is used up. -/
def logLoop (text : List UInt8) (memory : Nat → Option (Nat → UInt8)) : Nat → Nat → Int → Option LogEnd
  | 0, _, _ => none
  | fuel + 1, pass, bufferSize =>
    match memory pass with
    | none => some .returned
    | some content =>
      match vsnprintf ((List.range bufferSize.toNat).map content) (bufferSize - 3).toNat text with
      | none => some .undefined
      | some (nret, buf) =>
        if 0 ≤ nret then
          if nret ≤ bufferSize - 3 then some ((logPrint buf nret).elim .undefined .printed)
          else (CInt.result (nret + 3)).elim (some .undefined) (logLoop text memory fuel (pass + 1))
        else (CInt.mul bufferSize 2).elim (some .undefined) (logLoop text memory fuel (pass + 1))

/-- `log`. -/
def log (text : List UInt8) (memory : Nat → Option (Nat → UInt8)) (fuel : Nat) : Option LogEnd :=
  logLoop text memory fuel 0 MAX_LOG_LENGTH

end Formatters

end LibraLive

import Atsha204.Library.Lines
import Atsha204.Model.Tools

/-!
# Reading hexadecimal lines of a text file

`emulation.c` and `init.c` read the configuration file in the same way: `fgets` into a
buffer of 128 characters, then a loop over the buffer that skips delimiters and decodes
pairs of characters. Both the reads and the loop are stated once here.
-/

set_option autoImplicit false

namespace Atsha204.Model

open Atsha204.Library

/-- The line buffer. What `fgets` does not overwrite keeps its former content. -/
abbrev Line := List.Vector UInt8 buffsizeLine

/-- A function that reads a file. -/
abbrev FileProg (α : Type) := EStateM Fault File α

def isNewline (c : UInt8) : Bool := c == 0x0A

/-- `fgets(line, BUFFSIZE_LINE, file)`: at most 127 bytes, up to and with a newline, and a
terminator behind them; NULL at the end of the file. -/
def fgets (line : Line) : FileProg (Option Line) := do
  let file ← get
  match nextChunk isNewline (buffsizeLine - 1) file.rest with
  | none => return none
  | some (chunk, rest) =>
    set { file with rest := rest }
    let line ← orFault .outOfBounds (overwrite line (chunk ++ [0]))
    return some line

def rewind : FileProg Unit := modify fun file => { file with rest := file.content }

/-- The length of the string in a buffer, up to its first terminator. -/
def strlen (line : Line) : ℕ := (line.val.takeWhile (· ≠ 0)).length

/-- Space, tab, `;`, `,` and `:`. -/
def isDelimiter (c : UInt8) : Bool :=
  c == 0x20 || c == 0x09 || c == 0x3B || c == 0x2C || c == 0x3A

/-- The `while (i < count)` loop. The first list is the buffer from `line_p` on, `left` is
`line_end_p - line_p`, and byte `i` is written to `out[base + i]`; `nextIndex` is where the
rounds that only increment `i` lead (nowhere, but for the hole in the serial number). The
inner `none` is the exit for an input that is too short, the outer one a read past the
end of the buffer.
SOURCE: emulation.c:321-343, emulation.c:372-389, emulation.c:423-440, init.c:50-66 -/
def parseHexLoop (nextIndex : ℕ → ℕ) (count base : ℕ) :
    List UInt8 → Int → ℕ → Block → Option (Option Block)
  | line, left, i, out =>
    if nextIndex i < count then
      match line with
      | [] => none
      | high :: line =>
        if isDelimiter high then
          parseHexLoop nextIndex count base line (left - 1) (nextIndex i) out
        else match line with
          | [] => none
          | low :: line => do
            let out ← poke out (base + nextIndex i) (getNumberFromHexChar high low)
            -- `line_p >= line_end_p` behind a pair
            if left - 2 ≤ 0 then return none
            parseHexLoop nextIndex count base line (left - 2) (nextIndex i + 1) out
    else some (some out)

end Atsha204.Model

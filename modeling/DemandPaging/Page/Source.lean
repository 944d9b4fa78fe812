import DemandPaging.File.Handle

/-!
# Where the contents of a page come from

A declared page costs nothing until it is touched. Its *source* says what it holds the first time:
zeros, a stretch of an executable followed by zeros, or one page of a mapped file, padded with
zeros past the end of the file.

## Main definitions

* `PageSource`, `PageSource.describe` — the three sources and their text in the log.
* `PageSource.populate` — fills a frame from a source, whatever the frame held before.
-/

namespace DemandPaging

/-- What a page holds the first time it is touched. -/
inductive PageSource
  /-- A page of zeros: stack, uninitialised data. -/
  | zero
  /-- `read` bytes of an executable at `offset`, zeros after that. -/
  | image (file : Handle) (offset read : Nat)
  /-- One page of a mapped file, filled up with zeros past the end of the file. -/
  | mapped (mapping : Nat) (file : Handle) (offset : Nat)

namespace PageSource

/-- The text of a source in the log: its kind and its numbers, without the file. -/
def describe : PageSource → String
  | zero => "Zero"
  | image _ offset read => s!"ExecImage \x7b offset: {hex offset}, read_bytes: {read} \x7d"
  | mapped mapping _ offset => s!"MappedFile \x7b mapping: {mapping}, offset: {hex offset} \x7d"

/-- The handle a source reads through. -/
def handle? : PageSource → Option Handle
  | zero => none
  | image file _ _ => some file
  | mapped _ file _ => some file

/-- Fills a frame that holds `old` from a source; `view` says how a handle reads now. The bytes
that are read are laid over the frame, and everything behind them is cleared. -/
def populate (source : PageSource) (view : Handle → File) (old : Page) : Except FileError Page :=
  match source with
  | zero => .ok Page.zero
  | image file offset read => do
    let bytes ← (view file).readFull offset read
    if bytes.size ≠ read then throw .shortRead
    return zeroFrom (overlay old 0 bytes) read
  | mapped _ file offset => do
    let bytes ← (view file).readFull offset pageSize
    return zeroFrom (overlay old 0 bytes) bytes.size

end PageSource

end DemandPaging

import KeyRack.Core.Lid

/-!
# Frames of the worker's input

A frame is a line, with its newline. The buffered reader is what its `fill_buf` will return:
chunks, `none` for a failed read; an empty chunk is the end, as no chunk is.
-/
namespace KeyRack.Worker

def maxFrame : Nat := 65536

inductive FrameError where
  | io
  | truncated
  | limit
  deriving DecidableEq, Repr

abbrev BufReader := List (Option Bytes)

/-- A chunk that is used up makes room for the next one. -/
def consume (count : Nat) (bytes : Bytes) (reader : BufReader) : BufReader :=
  if count < bytes.length then some (bytes.drop count) :: reader else reader

/-- What is returned, and the output and the reader after it. -/
def readFrame : BufReader → Bytes → Except FrameError Unit × Bytes × BufReader
  | none :: reader, output => (.error .io, output, reader)
  | [], output | some [] :: _, output =>
    (if output.isEmpty then .ok () else .error .truncated, output, [])
  | some bytes :: reader, output =>
    let stop := (bytes.findIdx? (· == 0x0A)).map (· + 1)
    let count := stop.getD bytes.length
    if output.length + count > maxFrame then (.error .limit, output, some bytes :: reader)
    else
      let output := output ++ bytes.take count
      if stop.isSome then (.ok (), output, consume count bytes reader)
      -- the whole chunk was consumed
      else readFrame reader output

end KeyRack.Worker

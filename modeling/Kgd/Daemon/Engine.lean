import Kgd.Daemon.Cache
import Kgd.Daemon.Placement

/-!
# The placement engine

`internal/engine/engine.go` with `internal/allocator/id.go`: the single goroutine that owns
all placement state. `Engine.receive` is one iteration of `Run`'s select: it takes a
terminal size, terminal colors or an event, and returns the engine afterwards with what it
did to the outside world, in order. It returns `none` where the handler never returns.

What the code leaves to its environment is an `Env`: the results of the `Graphics` calls,
and the order in which each `range` statement visits a map. Only the logging is left out.
-/

namespace Kgd

/-! ## Events and effects -/

/-- `engine.Event`. A request's `Reply` channel is the `Action.reply` it causes. -/
inductive Event
  | helloRequest (clientID : ClientID) (params : HelloParams)
  | placeRequest (clientID : ClientID) (params : PlaceParams)
  | unplaceRequest (clientID : ClientID) (placementID : UInt32)
  | unplaceAllRequest (clientID : ClientID)
  | uploadRequest (clientID : ClientID) (params : UploadParams)
  | freeRequest (clientID : ClientID) (handle : UInt32)
  | scrollUpdate (clientID : ClientID) (winID scrollTop : Int64)
  | registerWin (clientID : ClientID) (params : RegisterWinParams)
  | unregisterWin (clientID : ClientID) (winID : Int64)
  | updatePanes (panes : List PaneGeometry)
  | clientDisconnect (clientID : ClientID)
  | listRequest (clientID : ClientID)
  | statusRequest
  | stopRequest
  deriving DecidableEq, Repr

/-- What one iteration of `Run`'s select receives. -/
inductive Input
  /-- `<-e.writer.Size` -/
  | size (sz : WinSize)
  /-- `<-e.writer.Colors` -/
  | colors (colors : TermColors)
  /-- `<-e.Events` -/
  | event (ev : Event)
  deriving DecidableEq, Repr

/-- `graphics.PlacementInfo`: what a `Graphics` backend can read of a placement. -/
structure GfxPlacementInfo where
  width : Int64
  height : Int64
  srcX : Int64
  srcY : Int64
  srcW : Int64
  srcH : Int64
  zIndex : Int32
  deriving DecidableEq, Repr

/-- The getters of `*Placement`. -/
def Placement.info (p : Placement) : GfxPlacementInfo :=
  { width := p.width, height := p.height, srcX := p.srcX, srcY := p.srcY, srcW := p.srcW,
    srcH := p.srcH, zIndex := p.zIndex }

/-- A call on the `Graphics` interface; `ok` says that it returned a nil error. -/
inductive GfxCall
  | transmit (id : UInt32) (data : Data) (format : String) (width height : Int64) (ok : Bool)
  | place (imageID placementID : UInt32) (row col : Int64) (p : GfxPlacementInfo) (ok : Bool)
  | delete (imageID placementID : UInt32) (free : Bool)
  | beginBatch
  | flushBatch
  deriving DecidableEq, Repr

/-- What a request is answered with. -/
inductive Reply
  | hello (result : HelloResult)
  | place (placementID : Except String UInt32)
  | upload (handle : Except String UInt32)
  | list (placements : List PlacementInfo)
  | status (result : StatusResult)
  deriving DecidableEq, Repr

/-- One effect of the engine on the outside world. -/
inductive Action
  | gfx (call : GfxCall)
  | notifyClient (clientID : ClientID) (n : Notification)
  | notifyAll (n : Notification)
  | reply (r : Reply)
  /-- `e.stopFunc()` -/
  | stop
  deriving DecidableEq, Repr

/-- What the environment decides while one input is handled. Map iteration orders are given
    per range statement; those over handle tables also per evicted image and client. -/
structure Env where
  /-- the error `gfx.Transmit` returns -/
  transmitErr : Option String
  /-- whether `gfx.Place` succeeds for a placement -/
  placeOk : UInt32 → Bool
  placementOrder : RangeOrder UInt32
  clientOrder : UInt32 → RangeOrder ClientID
  handleOrder : UInt32 → ClientID → RangeOrder UInt32
  winOrder : RangeOrder Int64

/-- Every graphics call succeeds and maps are visited in key order. -/
instance : Inhabited Env :=
  ⟨{ transmitErr := none, placeOk := fun _ => true, placementOrder := default,
     clientOrder := fun _ => default, handleOrder := fun _ _ => default, winOrder := default }⟩

/-! ## State -/

/-- `allocator.IDAllocator`. -/
structure IDAllocator where
  next : UInt32
  deriving DecidableEq, Repr

/-- `allocator.New`. -/
def IDAllocator.new : IDAllocator := ⟨1⟩

/-- `(*IDAllocator).Next`: the previous counter value; the addition wraps. -/
def IDAllocator.nextID (a : IDAllocator) : UInt32 × IDAllocator :=
  let next := a.next + 1
  (next - 1, ⟨next⟩)

/-- `engine.Engine`. For `gfx`, `notifier` and `stopFunc` only being non-nil matters;
    `inTmux` is `writer.InTmux()`. -/
structure Engine where
  gfx : Bool
  notifier : Bool
  stopFunc : Bool
  inTmux : Bool
  idAlloc : IDAllocator
  cache : Cache
  placements : GoMap UInt32 Placement
  /-- client → handle → kitty image ID -/
  clientImages : GoMap ClientID (GoMap UInt32 UInt32)
  panes : GoMap String PaneGeometry
  wins : GoMap Int64 WinGeometry
  nextPlacement : UInt32
  termSize : WinSize
  termColors : TermColors

namespace Engine

/-- `New` with an empty cache of capacity `maxSize`, followed by the setters. -/
def new (gfx notifier stopFunc inTmux : Bool) (maxSize : Int) : Engine :=
  { gfx, notifier, stopFunc, inTmux, idAlloc := .new, cache := .new maxSize, placements := ∅,
    clientImages := ∅, panes := ∅, wins := ∅, nextPlacement := 0,
    termSize := ⟨0, 0, 0, 0⟩, termColors := ⟨⟨0, 0, 0⟩, ⟨0, 0, 0⟩⟩ }

/-- The kitty image ID that `clientImages[clientID][handle]` denotes. -/
def handleImage (e : Engine) (clientID : ClientID) (handle : UInt32) : Option UInt32 :=
  e.clientImages[clientID]?.bind fun images => images[handle]?

/-- `p.ScreenPos(e.panes, e.wins, int(e.termSize.Rows), int(e.termSize.Cols))`. -/
def resolve (e : Engine) (p : Placement) : ScreenPos :=
  p.screenPos e.panes e.wins (intOfUInt16 e.termSize.rows) (intOfUInt16 e.termSize.cols)

/-- A call on `e.gfx`, where it is not nil. -/
def gfxCalls (e : Engine) (calls : List GfxCall) : List Action :=
  if e.gfx then calls.map .gfx else []

/-! ## Recomputing positions -/

/-- `cellW, cellH` of a terminal size: pixels per cell, 0 where the cell count is 0. -/
def cellSize (sz : WinSize) : Int64 × Int64 :=
  (if 0 < sz.cols then intOfUInt16 sz.xPixel / intOfUInt16 sz.cols else 0,
   if 0 < sz.rows then intOfUInt16 sz.yPixel / intOfUInt16 sz.rows else 0)

/-- The `gfx` calls for one placement whose position is now `pos`, and whether it is
    rendered afterwards. -/
def rerender (env : Env) (p : Placement) (pos : ScreenPos) : Bool × List GfxCall :=
  let del := GfxCall.delete p.kittyImgID p.id false
  let place := GfxCall.place p.kittyImgID p.id pos.row pos.col p.info (env.placeOk p.id)
  if pos.visible && !p.rendered then (env.placeOk p.id, [place])
  else if !pos.visible && p.rendered then (false, [del])
  else if pos.visible && p.rendered && (pos.row != p.termRow || pos.col != p.termCol) then
    -- position changed: delete and re-place
    (env.placeOk p.id, [del, place])
  else (p.rendered, [])

/-- The body of `recomputePlacements`' loop. -/
def recomputeOne (env : Env) (e : Engine) (p : Placement) : Placement × List Action :=
  let pos := e.resolve p
  let p' := { p with termRow := pos.row, termCol := pos.col, visible := pos.visible }
  -- without a backend the position is stored, and nobody is notified
  if !e.gfx then (p', [])
  else
    let (rendered, calls) := rerender env p pos
    let notes :=
      -- compared with the visibility before this recomputation
      if pos.visible != p.visible && e.notifier then
        [Action.notifyClient p.clientID (.visibilityChanged p.id pos.visible)]
      else []
    ({ p' with rendered }, calls.map .gfx ++ notes)

/-- `recomputePlacements`. -/
def recomputePlacements (env : Env) (e : Engine) : Engine × List Action :=
  let (placements, out) :=
    GoMap.rangeUpdate env.placementOrder
      (fun _ p => (some (e.recomputeOne env p).1, (e.recomputeOne env p).2)) e.placements
  ({ e with placements }, e.gfxCalls [.beginBatch] ++ out ++ e.gfxCalls [.flushBatch])

/-! ## Placement handlers -/

/-- The placement a request creates, before its position is resolved. -/
def newPlacement (id kittyID : UInt32) (clientID : ClientID) (params : PlaceParams) :
    Placement :=
  { id, clientID, imageHandle := params.handle, kittyImgID := kittyID, anchor := params.anchor,
    width := params.width, height := params.height, srcX := params.srcX, srcY := params.srcY,
    srcW := params.srcW, srcH := params.srcH, zIndex := params.zIndex,
    termRow := 0, termCol := 0, visible := false, rendered := false }

/-- `handlePlace`. -/
def handlePlace (env : Env) (e : Engine) (clientID : ClientID) (params : PlaceParams) :
    Engine × List Action :=
  match e.clientImages[clientID]? with
  | none => (e, [.reply (.place (.error "no images for client"))])
  | some images =>
    match images[params.handle]? with
    | none => (e, [.reply (.place (.error s!"unknown handle {params.handle}"))])
    | some kittyID =>
      let id := e.nextPlacement + 1
      let p := newPlacement id kittyID clientID params
      let pos := e.resolve p
      let p := { p with
        termRow := pos.row, termCol := pos.col, visible := pos.visible
        -- the reply is the same when `Place` fails
        rendered := pos.visible && e.gfx && env.placeOk id }
      let calls :=
        if pos.visible then
          e.gfxCalls [.place kittyID id pos.row pos.col p.info (env.placeOk id)]
        else []
      ({ e with nextPlacement := id, placements := e.placements.insert id p },
        calls ++ [.reply (.place (.ok id))])

/-- `if p.Rendered && e.gfx != nil { e.gfx.Delete(p.KittyImgID, p.ID, false) }`. -/
def deleteRendered (e : Engine) (p : Placement) : List Action :=
  if p.rendered then e.gfxCalls [.delete p.kittyImgID p.id false] else []

/-- `handleUnplace`. -/
def handleUnplace (e : Engine) (clientID : ClientID) (placementID : UInt32) :
    Engine × List Action :=
  match e.placements[placementID]? with
  | none => (e, [])
  | some p =>
    -- somebody else's placement is left alone, without an error
    if p.clientID != clientID then (e, [])
    else ({ e with placements := e.placements.erase placementID }, e.deleteRendered p)

/-- The loop of `handleUnplaceAll` and `handleClientDisconnect` over the placements. -/
def removeOwned (env : Env) (e : Engine) (clientID : ClientID) : Engine × List Action :=
  let (placements, out) :=
    GoMap.rangeUpdate env.placementOrder
      (fun _ p => if p.clientID == clientID then (none, e.deleteRendered p) else (some p, []))
      e.placements
  ({ e with placements }, out)

/-- `handleUnplaceAll`. -/
def handleUnplaceAll (env : Env) (e : Engine) (clientID : ClientID) : Engine × List Action :=
  e.removeOwned env clientID

/-! ## Image handlers -/

/-- The search of `assignHandle` for an unused handle, `n` steps from `handle`; the counter
    wraps. -/
def firstFree (images : GoMap UInt32 UInt32) : Nat → UInt32 → Option UInt32
  | 0, _ => none
  | n + 1, handle => if handle ∈ images then firstFree images n (handle + 1) else some handle

/-- `assignHandle`. The search tries every handle once; when all are taken the loop of the
    code never ends, and the result is `none`. -/
def assignHandle (e : Engine) (clientID : ClientID) (kittyID : UInt32) :
    Option (Engine × UInt32) :=
  let images := e.clientImages[clientID]?.getD ∅
  (firstFree images UInt32.size 1).map fun handle =>
    ({ e with clientImages := e.clientImages.insert clientID (images.insert handle kittyID) },
      handle)

/-- `notifyEviction`: drop every handle that denotes `kittyID` and tell its client. -/
def notifyEviction (env : Env) (e : Engine) (kittyID : UInt32) : Engine × List Action :=
  let dropHandle (clientID : ClientID) (handle kid : UInt32) : Option UInt32 × List Action :=
    if kid == kittyID then
      (none, if e.notifier then [.notifyClient clientID (.evicted handle)] else [])
    else (some kid, [])
  let (clientImages, out) :=
    -- two nested ranges, each in an order of its own
    GoMap.rangeUpdate (env.clientOrder kittyID)
      (fun clientID images =>
        let r := GoMap.rangeUpdate (env.handleOrder kittyID clientID) (dropHandle clientID) images
        (some r.1, r.2))
      e.clientImages
  ({ e with clientImages }, out)

/-- `handleUpload`'s loop over the evicted image IDs. -/
def freeEvicted (env : Env) : Engine → List UInt32 → Engine × List Action
  | e, [] => (e, [])
  | e, eid :: evicted =>
    let (e', notes) := e.notifyEviction env eid
    let (e'', out) := freeEvicted env e' evicted
    (e'', e.gfxCalls [.delete eid 0 true] ++ notes ++ out)

/-- `handleUpload`. -/
def handleUpload (hash128 : Data → Hash) (env : Env) (e : Engine) (clientID : ClientID)
    (params : UploadParams) : Option (Engine × List Action) :=
  match e.cache.lookup hash128 params.data with
  -- the content is cached: no transmission, and the stored image's ID
  | some kittyID =>
    (e.assignHandle clientID kittyID).map fun (e', handle) =>
      ({ e' with cache := (e'.cache.store hash128 params.data kittyID).1 },
        [.reply (.upload (.ok handle))])
  | none =>
    let (kittyID, idAlloc) := e.idAlloc.nextID
    let e := { e with idAlloc }
    let transmit :=
      e.gfxCalls [.transmit kittyID params.data params.format params.width params.height
        env.transmitErr.isNone]
    match (if e.gfx then env.transmitErr else none) with
    -- the ID is spent all the same
    | some err => some (e, transmit ++ [.reply (.upload (.error s!"transmit: {err}"))])
    | none =>
      let (cache, evicted) := e.cache.store hash128 params.data kittyID
      let (e', out) := ({ e with cache } : Engine).freeEvicted env evicted
      (e'.assignHandle clientID kittyID).map fun (e'', handle) =>
        (e'', transmit ++ out ++ [.reply (.upload (.ok handle))])

/-- `handleFree`. -/
def handleFree (e : Engine) (clientID : ClientID) (handle : UInt32) : Engine × List Action :=
  match e.clientImages[clientID]? with
  | none => (e, [])
  | some images =>
    match images[handle]? with
    | none => (e, [])
    | some kittyID =>
      ({ e with
        -- the placements of the image stay
        clientImages := e.clientImages.insert clientID (images.erase handle)
        cache := e.cache.release kittyID }, [])

/-! ## Geometry handlers -/

/-- `handleScrollUpdate`. -/
def handleScrollUpdate (env : Env) (e : Engine) (winID scrollTop : Int64) :
    Engine × List Action :=
  match e.wins[winID]? with
  -- any client may scroll any window that is registered
  | none => (e, [])
  | some win =>
    ({ e with wins := e.wins.insert winID { win with scrollTop } } : Engine).recomputePlacements
      env

/-- The window a `RegisterWin` event describes. -/
def winOfParams (clientID : ClientID) (params : RegisterWinParams) : WinGeometry :=
  { winID := params.winID, clientID, paneID := params.paneID, top := params.top,
    left := params.left, width := params.width, height := params.height,
    scrollTop := params.scrollTop }

/-- `handleRegisterWin`. -/
def handleRegisterWin (env : Env) (e : Engine) (clientID : ClientID)
    (params : RegisterWinParams) : Engine × List Action :=
  ({ e with wins := e.wins.insert params.winID (winOfParams clientID params) } :
    Engine).recomputePlacements env

/-- `handleUnregisterWin`. -/
def handleUnregisterWin (env : Env) (e : Engine) (winID : Int64) : Engine × List Action :=
  ({ e with wins := e.wins.erase winID } : Engine).recomputePlacements env

/-- `handleUpdatePanes`. -/
def handleUpdatePanes (env : Env) (e : Engine) (panes : List PaneGeometry) :
    Engine × List Action :=
  ({ e with panes := panes.foldl (fun m p => m.insert p.id p) ∅ } :
    Engine).recomputePlacements env

/-! ## Disconnect -/

/-- The loop `for _, kittyID := range images { e.cache.Release(kittyID) }`. -/
def releaseAll (cache : Cache) (images : List (UInt32 × UInt32)) : Cache :=
  images.foldl (fun cache image => cache.release image.2) cache

/-- `handleClientDisconnect`. -/
def handleClientDisconnect (env : Env) (e : Engine) (clientID : ClientID) :
    Engine × List Action :=
  let (e, out) := e.removeOwned env clientID
  let cache :=
    match e.clientImages[clientID]? with
    | none => e.cache
    | some images => releaseAll e.cache (GoMap.entries (env.handleOrder 0 clientID) images)
  -- the window registrations of this client; the positions are not recomputed
  let (wins, _) :=
    GoMap.rangeUpdate (O := Action) env.winOrder
      (fun _ win => if win.clientID == clientID then (none, []) else (some win, [])) e.wins
  ({ e with cache, clientImages := e.clientImages.erase clientID, wins }, out)

/-! ## Queries and shutdown -/

/-- `handleHello`. -/
def handleHello (e : Engine) (clientID : ClientID) : Engine × List Action :=
  let (cellW, cellH) := cellSize e.termSize
  (e, [.reply (.hello
    { clientID, cols := intOfUInt16 e.termSize.cols, rows := intOfUInt16 e.termSize.rows,
      cellWidth := cellW, cellHeight := cellH, inTmux := e.inTmux,
      fg := e.termColors.fg, bg := e.termColors.bg })])

/-- `handleList`. -/
def handleList (env : Env) (e : Engine) : Engine × List Action :=
  let placements := (GoMap.entries env.placementOrder e.placements).map fun (_, p) =>
    ({ placementID := p.id, clientID := p.clientID, handle := p.imageHandle,
       visible := p.visible, row := p.termRow, col := p.termCol } : PlacementInfo)
  (e, [.reply (.list placements)])

/-- The kitty IDs in all handle tables, in the order two nested range statements visit
    them. -/
def heldImages (env : Env) (e : Engine) : List UInt32 :=
  (GoMap.entries (env.clientOrder 0) e.clientImages).flatMap fun (clientID, images) =>
    (GoMap.entries (env.handleOrder 0 clientID) images).map Prod.snd

/-- `handleStatus`. -/
def handleStatus (env : Env) (e : Engine) : Engine × List Action :=
  -- an image two handles name counts once
  let uniqueImages : GoMap UInt32 Unit :=
    (e.heldImages env).foldl (fun m kittyID => m.insert kittyID ()) ∅
  (e, [.reply (.status
    { clients := Int64.ofNat e.clientImages.size, placements := Int64.ofNat e.placements.size,
      images := Int64.ofNat uniqueImages.size, cols := intOfUInt16 e.termSize.cols,
      rows := intOfUInt16 e.termSize.rows })])

/-- `handleStop`. -/
def handleStop (e : Engine) : Engine × List Action :=
  (e, if e.stopFunc then [.stop] else [])

/-- The loop that frees every held image once; `freed` holds those already freed. -/
def freeOnce : List UInt32 → List UInt32 → List GfxCall
  | _, [] => []
  | freed, kittyID :: rest =>
    if kittyID ∈ freed then freeOnce freed rest
    else .delete kittyID 0 true :: freeOnce (kittyID :: freed) rest

/-- `cleanupRenderedPlacements`, deferred in `Run`. -/
def cleanupRenderedPlacements (env : Env) (e : Engine) : List Action :=
  if !e.gfx then []
  else
    (GoMap.entries env.placementOrder e.placements).flatMap (fun (_, p) => e.deleteRendered p) ++
      e.gfxCalls (freeOnce [] (e.heldImages env))

/-! ## The event loop -/

/-- `handle`. -/
def handle (hash128 : Data → Hash) (env : Env) (e : Engine) :
    Event → Option (Engine × List Action)
  | .helloRequest clientID _ => some (e.handleHello clientID)
  | .placeRequest clientID params => some (e.handlePlace env clientID params)
  | .unplaceRequest clientID placementID => some (e.handleUnplace clientID placementID)
  | .unplaceAllRequest clientID => some (e.handleUnplaceAll env clientID)
  | .uploadRequest clientID params => e.handleUpload hash128 env clientID params
  | .freeRequest clientID handle => some (e.handleFree clientID handle)
  -- the client's ID is not looked at, here and in `unregisterWin`
  | .scrollUpdate _ winID scrollTop => some (e.handleScrollUpdate env winID scrollTop)
  | .registerWin clientID params => some (e.handleRegisterWin env clientID params)
  | .unregisterWin _ winID => some (e.handleUnregisterWin env winID)
  | .updatePanes panes => some (e.handleUpdatePanes env panes)
  | .clientDisconnect clientID => some (e.handleClientDisconnect env clientID)
  | .listRequest _ => some (e.handleList env)
  | .statusRequest => some (e.handleStatus env)
  | .stopRequest => some e.handleStop

/-- The `Size` case of `Run`'s select. -/
def onSize (env : Env) (e : Engine) (sz : WinSize) : Engine × List Action :=
  let (e, out) := ({ e with termSize := sz } : Engine).recomputePlacements env
  let (cellW, cellH) := cellSize sz
  (e, out ++
    if e.notifier then
      [.notifyAll (.topologyChanged (intOfUInt16 sz.cols) (intOfUInt16 sz.rows) cellW cellH)]
    else [])

/-- The `Colors` case of `Run`'s select. -/
def onColors (e : Engine) (colors : TermColors) : Engine × List Action :=
  ({ e with termColors := colors },
    if e.notifier then [.notifyAll (.themeChanged colors.fg colors.bg)] else [])

/-- One iteration of `Run`'s select on a received value. -/
def receive (hash128 : Data → Hash) (env : Env) (e : Engine) :
    Input → Option (Engine × List Action)
  | .size sz => some (e.onSize env sz)
  | .colors colors => some (e.onColors colors)
  | .event ev => e.handle hash128 env ev

end Engine

end Kgd

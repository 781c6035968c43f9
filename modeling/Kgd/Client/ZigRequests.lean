import Kgd.Client.Anchors

/-!
# The Zig client: requests

What the methods of `clients/zig/src/client.zig` encode and send: `doHello`, the requests and the
notifications. A string or slice is shorter than 2^32 bytes: `@intCast` checks its length.
-/

namespace Kgd

namespace ZigClient

open Msgpack

/-- `encodeRequestHeader`. -/
def encodeRequestHeader (msgid : UInt32) (method : String) : List UInt8 :=
  writeArrayHeader 4 ++ writeUint 0 ++ writeUint msgid.toNat ++ writeStr (utf8 method)

/-- `encodeNotificationHeader`. -/
def encodeNotificationHeader (method : String) : List UInt8 :=
  writeArrayHeader 3 ++ writeUint 2 ++ writeStr (utf8 method)

/-- `Options`, as far as `doHello` sends them. -/
structure Options where
  sessionID : List UInt8
  clientType : List UInt8
  label : List UInt8
  pid : Int32
  deriving DecidableEq, Repr

/-- `PlaceOpts`. -/
structure PlaceOpts where
  srcX : Int32
  srcY : Int32
  srcW : Int32
  srcH : Int32
  zIndex : Int32
  deriving DecidableEq, Repr

/-- The request of `doHello`; `getPid` is what it returns. -/
def helloRequest (getPid : Int32) (msgid : UInt32) (opts : Options) : List UInt8 :=
  let mapCount := 3 + if 0 < opts.sessionID.length then 1 else 0
  let pid := if opts.pid ≠ 0 then opts.pid else getPid
  encodeRequestHeader msgid "hello" ++ writeArrayHeader 1 ++ writeMapHeader mapCount ++
    writeStr (utf8 "client_type") ++ writeStr opts.clientType ++
    writeStr (utf8 "pid") ++ writeInt pid.toInt ++
    writeStr (utf8 "label") ++ writeStr opts.label ++
    if 0 < opts.sessionID.length then writeStr (utf8 "session_id") ++ writeStr opts.sessionID
    else []

/-- The request of `upload`. -/
def uploadRequest (msgid : UInt32) (data format : List UInt8) (width height : Int32) :
    List UInt8 :=
  encodeRequestHeader msgid "upload" ++ writeArrayHeader 1 ++ writeMapHeader 4 ++
    writeStr (utf8 "data") ++ writeBin data ++ writeStr (utf8 "format") ++ writeStr format ++
    writeStr (utf8 "width") ++ writeInt width.toInt ++
    writeStr (utf8 "height") ++ writeInt height.toInt

/-- `if (o.field != 0) map_count += 1`. -/
def countOpt (n : Int32) : Nat := if n ≠ 0 then 1 else 0

/-- The request of `place`. -/
def placeRequest (msgid handle : UInt32) (anchor : Anchor) (width height : Int32)
    (opts : Option PlaceOpts) : List UInt8 :=
  -- the count is worked out first, with the same tests the fields are written under
  let mapCount := 4 + match opts with
    | some o => countOpt o.srcX + countOpt o.srcY + countOpt o.srcW + countOpt o.srcH +
      countOpt o.zIndex
    | none => 0
  encodeRequestHeader msgid "place" ++ writeArrayHeader 1 ++ writeMapHeader mapCount ++
    writeStr (utf8 "handle") ++ writeUint handle.toNat ++
    writeStr (utf8 "anchor") ++ encodeAnchor anchor ++
    writeStr (utf8 "width") ++ writeInt width.toInt ++
    writeStr (utf8 "height") ++ writeInt height.toInt ++
    match opts with
    | some o => writeIntField "src_x" o.srcX ++ writeIntField "src_y" o.srcY ++
      writeIntField "src_w" o.srcW ++ writeIntField "src_h" o.srcH ++
      writeIntField "z_index" o.zIndex
    | none => []

/-- The request of `unplace`. -/
def unplaceRequest (msgid placementID : UInt32) : List UInt8 :=
  encodeRequestHeader msgid "unplace" ++ writeArrayHeader 1 ++ writeMapHeader 1 ++
    writeStr (utf8 "placement_id") ++ writeUint placementID.toNat

/-- The notification of `unplaceAll`. -/
def unplaceAllNotification : List UInt8 :=
  encodeNotificationHeader "unplace_all" ++ writeArrayHeader 0

/-- The request of `free`. -/
def freeRequest (msgid handle : UInt32) : List UInt8 :=
  encodeRequestHeader msgid "free" ++ writeArrayHeader 1 ++ writeMapHeader 1 ++
    writeStr (utf8 "handle") ++ writeUint handle.toNat

/-- The notification of `registerWin`. -/
def registerWinNotification (winID : Int32) (paneID : List UInt8)
    (top left width height scrollTop : Int32) : List UInt8 :=
  -- seven fields, zero or not
  encodeNotificationHeader "register_win" ++ writeArrayHeader 1 ++ writeMapHeader 7 ++
    writeStr (utf8 "win_id") ++ writeInt winID.toInt ++
    writeStr (utf8 "pane_id") ++ writeStr paneID ++
    writeStr (utf8 "top") ++ writeInt top.toInt ++
    writeStr (utf8 "left") ++ writeInt left.toInt ++
    writeStr (utf8 "width") ++ writeInt width.toInt ++
    writeStr (utf8 "height") ++ writeInt height.toInt ++
    writeStr (utf8 "scroll_top") ++ writeInt scrollTop.toInt

/-- The notification of `updateScroll`. -/
def updateScrollNotification (winID scrollTop : Int32) : List UInt8 :=
  encodeNotificationHeader "update_scroll" ++ writeArrayHeader 1 ++ writeMapHeader 2 ++
    writeStr (utf8 "win_id") ++ writeInt winID.toInt ++
    writeStr (utf8 "scroll_top") ++ writeInt scrollTop.toInt

/-- The notification of `unregisterWin`. -/
def unregisterWinNotification (winID : Int32) : List UInt8 :=
  encodeNotificationHeader "unregister_win" ++ writeArrayHeader 1 ++ writeMapHeader 1 ++
    writeStr (utf8 "win_id") ++ writeInt winID.toInt

/-- The request of `list`. -/
def listRequest (msgid : UInt32) : List UInt8 :=
  encodeRequestHeader msgid "list" ++ writeArrayHeader 0

/-- The request of `status`. -/
def statusRequest (msgid : UInt32) : List UInt8 :=
  encodeRequestHeader msgid "status" ++ writeArrayHeader 0

/-- The notification of `stop`. -/
def stopNotification : List UInt8 := encodeNotificationHeader "stop" ++ writeArrayHeader 0

/-- A call of a method; `opts` of a hello has its process ID filled in by `getPid`. -/
inductive Call
  | hello (getPid : Int32) (opts : Options)
  | upload (data format : List UInt8) (width height : Int32)
  | place (handle : UInt32) (anchor : Anchor) (width height : Int32) (opts : Option PlaceOpts)
  | unplace (placementID : UInt32)
  | unplaceAll
  | free (handle : UInt32)
  | registerWin (winID : Int32) (paneID : List UInt8) (top left width height scrollTop : Int32)
  | updateScroll (winID scrollTop : Int32)
  | unregisterWin (winID : Int32)
  | list
  | status
  | stop
  deriving DecidableEq, Repr

/-- What the call sends; a request takes the next msgid. -/
def Call.bytes (msgid : UInt32) : Call → List UInt8
  | .hello getPid opts => helloRequest getPid msgid opts
  | .upload data format width height => uploadRequest msgid data format width height
  | .place handle anchor width height opts => placeRequest msgid handle anchor width height opts
  | .unplace placementID => unplaceRequest msgid placementID
  | .unplaceAll => unplaceAllNotification
  | .free handle => freeRequest msgid handle
  | .registerWin winID paneID top left width height scrollTop =>
    registerWinNotification winID paneID top left width height scrollTop
  | .updateScroll winID scrollTop => updateScrollNotification winID scrollTop
  | .unregisterWin winID => unregisterWinNotification winID
  | .list => listRequest msgid
  | .status => statusRequest msgid
  | .stop => stopNotification

end ZigClient

end Kgd

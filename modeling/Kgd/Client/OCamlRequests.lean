import Kgd.Client.Anchors

/-!
# The OCaml client: requests

What the calls of `clients/ocaml/lib/kgd_client.ml` encode and send: `send_request`,
`send_notification` and the params of each method. An OCaml `int` has 63 bits.
-/

namespace Kgd

namespace OCamlClient

/-- `map_of_pairs`. -/
def mapOfPairs (pairs : List (String × T)) : T := .map (pairs.map fun p => (str p.1, p.2))

/-- The params array of a message. -/
def paramsArray : T → T
  | .nil => .array []
  | p => .array [p]

/-- What `send_request` sends. -/
def sendRequest (msgID : Nat) (methodName : String) (params : T) : List UInt8 :=
  encode (.array [.int 0, .int msgID, str methodName, paramsArray params])

/-- What `send_notification` sends. -/
def sendNotification (methodName : String) (params : T) : List UInt8 :=
  encode (.array [.int 2, str methodName, paramsArray params])

/-- `hello_params` of `connect`; `pid` is what `getpid` returns. -/
def helloParams (sessionID clientType label : List UInt8) (pid : Int64) : T :=
  let pairs := [(str "client_type", .str clientType), (str "pid", .int pid.toInt),
    (str "label", .str label)]
  let pairs := addStr pairs "session_id" sessionID
  .map pairs

/-- The params of `upload`. -/
def uploadParams (data format : List UInt8) (width height : Int64) : T :=
  mapOfPairs [("data", .bin data), ("format", .str format), ("width", .int width.toInt),
    ("height", .int height.toInt)]

/-- `place_opts`. -/
structure PlaceOpts where
  srcX : Int64
  srcY : Int64
  srcW : Int64
  srcH : Int64
  zIndex : Int64
  deriving DecidableEq, Repr

/-- `if n <> 0 then pairs @ [ (key, P.Int n) ] else pairs`. -/
def addOpt (pairs : List (String × T)) (key : String) (n : Int64) : List (String × T) :=
  if n ≠ 0 then pairs ++ [(key, .int n.toInt)] else pairs

/-- The params of `place`. -/
def placeParams (handle : Int64) (anchor : Anchor) (width height : Int64) (opts : PlaceOpts) : T :=
  let pairs := [("handle", .int handle.toInt), ("anchor", anchorToMsgpack anchor),
    ("width", .int width.toInt), ("height", .int height.toInt)]
  let pairs := addOpt pairs "src_x" opts.srcX
  let pairs := addOpt pairs "src_y" opts.srcY
  let pairs := addOpt pairs "src_w" opts.srcW
  let pairs := addOpt pairs "src_h" opts.srcH
  let pairs := addOpt pairs "z_index" opts.zIndex
  mapOfPairs pairs

/-- The params of `unplace`. -/
def unplaceParams (placementID : Int64) : T :=
  mapOfPairs [("placement_id", .int placementID.toInt)]

/-- The params of `free`. -/
def freeParams (handle : Int64) : T := mapOfPairs [("handle", .int handle.toInt)]

/-- The params of `register_win`. -/
def registerWinParams (winID : Int64) (paneID : List UInt8)
    (top left width height scrollTop : Int64) : T :=
  mapOfPairs [("win_id", .int winID.toInt), ("pane_id", .str paneID), ("top", .int top.toInt),
    ("left", .int left.toInt), ("width", .int width.toInt), ("height", .int height.toInt),
    ("scroll_top", .int scrollTop.toInt)]

/-- The params of `update_scroll`. -/
def updateScrollParams (winID scrollTop : Int64) : T :=
  mapOfPairs [("win_id", .int winID.toInt), ("scroll_top", .int scrollTop.toInt)]

/-- The params of `unregister_win`. -/
def unregisterWinParams (winID : Int64) : T := mapOfPairs [("win_id", .int winID.toInt)]

/-- A call of a function of the client, with its arguments. -/
inductive Command
  | hello (sessionID clientType label : List UInt8) (pid : Int64)
  | upload (data format : List UInt8) (width height : Int64)
  | place (handle : Int64) (anchor : Anchor) (width height : Int64) (opts : PlaceOpts)
  | unplace (placementID : Int64)
  | unplaceAll
  | free (handle : Int64)
  | registerWin (winID : Int64) (paneID : List UInt8) (top left width height scrollTop : Int64)
  | updateScroll (winID scrollTop : Int64)
  | unregisterWin (winID : Int64)
  | listPlacements
  | status
  | stop

/-- What the function sends; `call` gives a request the next msgid. -/
def Command.bytes (msgID : Nat) : Command → List UInt8
  | .hello sessionID clientType label pid =>
    sendRequest msgID "hello" (helloParams sessionID clientType label pid)
  | .upload data format width height =>
    sendRequest msgID "upload" (uploadParams data format width height)
  | .place handle anchor width height opts =>
    sendRequest msgID "place" (placeParams handle anchor width height opts)
  | .unplace placementID => sendRequest msgID "unplace" (unplaceParams placementID)
  -- what has no reply is a notification and takes no ID
  | .unplaceAll => sendNotification "unplace_all" .nil
  | .free handle => sendRequest msgID "free" (freeParams handle)
  | .registerWin winID paneID top left width height scrollTop =>
    sendNotification "register_win"
      (registerWinParams winID paneID top left width height scrollTop)
  | .updateScroll winID scrollTop =>
    sendNotification "update_scroll" (updateScrollParams winID scrollTop)
  | .unregisterWin winID => sendNotification "unregister_win" (unregisterWinParams winID)
  | .listPlacements => sendRequest msgID "list" .nil
  | .status => sendRequest msgID "status" .nil
  | .stop => sendNotification "stop" .nil

end OCamlClient

end Kgd

import Kgd.Daemon.Engine
import Kgd.Daemon.Kitty
import Kgd.Daemon.Wire

/-!
# Serving a connection

`Serve` and the handlers of `internal/rpc/client.go`, and `dispatch` of
`internal/rpc/dispatch.go`. The msgpack decoder is a parameter: each of its calls takes what is
left of the stream and returns what it leaves. So are the engine, the server and the encoder,
which act on a state that a connection does not look into.
-/

namespace Kgd

/-! ## The decoder -/

/-- An error of a decoder call. -/
structure DecodeError where
  text : String
  /-- the error is `io.EOF` or `net.ErrClosed` -/
  atEnd : Bool
  deriving DecidableEq, Repr

/-- `protocol.UnplaceParams`. -/
structure UnplaceParams where
  placementID : UInt32
  deriving DecidableEq, Repr

/-- `protocol.FreeParams`. -/
structure FreeParams where
  handle : UInt32
  deriving DecidableEq, Repr

/-- `protocol.UpdateScrollParams`. -/
structure UpdateScrollParams where
  winID : Int64
  scrollTop : Int64
  deriving DecidableEq, Repr

/-- `protocol.UnregisterWinParams`. -/
structure UnregisterWinParams where
  winID : Int64
  deriving DecidableEq, Repr

/-- The variables that the handlers decode into. -/
inductive Target
  | hello
  | upload
  | place
  | unplace
  | free
  | registerWin
  | updateScroll
  | unregisterWin
  /-- `var ignored any` in `skipValue` -/
  | ignored
  deriving DecidableEq, Repr

/-- The type of the variable; what is ignored has no value. -/
def Target.Var : Target → Type
  | .hello => HelloParams
  | .upload => UploadParams
  | .place => PlaceParams
  | .unplace => UnplaceParams
  | .free => FreeParams
  | .registerWin => RegisterWinParams
  | .updateScroll => UpdateScrollParams
  | .unregisterWin => UnregisterWinParams
  | .ignored => Unit

/-- Params that were decoded. -/
abbrev Params := Σ t : Target, t.Var

/-- `*msgpack.Decoder`, each call on what is left of the stream. -/
structure Decoder where
  decodeArrayLen : Bytes → Except DecodeError (Int × Bytes)
  decodeInt : Bytes → Except DecodeError (Int × Bytes)
  decodeUint32 : Bytes → Except DecodeError (UInt32 × Bytes)
  decodeString : Bytes → Except DecodeError (String × Bytes)
  /-- `Decode(&v)` -/
  decode (t : Target) : Bytes → Except DecodeError (t.Var × Bytes)

/-- The loop that skips extra params. -/
def Decoder.skipValues (dec : Decoder) : Nat → Bytes → Except DecodeError Bytes
  | 0, bs => .ok bs
  | n + 1, bs =>
    match dec.decode .ignored bs with
    | .error err => .error err
    | .ok (_, rest) => dec.skipValues n rest

/-! ## Methods -/

/-- The method names of the protocol. -/
inductive Method
  | hello
  | upload
  | place
  | unplace
  | unplaceAll
  | free
  | registerWin
  | updateScroll
  | unregisterWin
  | list
  | status
  | stop
  deriving DecidableEq, Repr

def Method.name : Method → String
  | .hello => "hello"
  | .upload => "upload"
  | .place => "place"
  | .unplace => "unplace"
  | .unplaceAll => "unplace_all"
  | .free => "free"
  | .registerWin => "register_win"
  | .updateScroll => "update_scroll"
  | .unregisterWin => "unregister_win"
  | .list => "list"
  | .status => "status"
  | .stop => "stop"

/-- The case of a switch over method names. -/
def Method.ofName? (name : String) : Option Method :=
  [hello, upload, place, unplace, unplaceAll, free, registerWin, updateScroll, unregisterWin, list,
    status, stop].find? (·.name == name)

/-- What `dispatch` decodes the params into. -/
def Method.target : Option Method → Target
  | some .hello => .hello
  | some .upload => .upload
  | some .place => .place
  | some .unplace => .unplace
  | some .free => .free
  | some .registerWin => .registerWin
  | some .updateScroll => .updateScroll
  | some .unregisterWin => .unregisterWin
  | some .unplaceAll | some .list | some .status | some .stop | none => .ignored

/-! ## The rest of the daemon -/

/-- The request types of the engine with a `Reply` channel. -/
inductive ReplyKind
  | hello
  | upload
  | place
  | list
  | status
  deriving DecidableEq, Repr

/-- `engine.HelloReply`, `UploadReply`, `PlaceReply`, `ListReply` and `StatusReply`; an `Err` that
    is not nil stands in place of the result. -/
def ReplyKind.Reply : ReplyKind → Type
  | .hello => Except String HelloResult
  | .upload => Except String UInt32
  | .place => Except String UInt32
  | .list => List PlacementInfo
  | .status => StatusResult

/-- What a connection calls, on a state `ω` of its own. -/
structure Backend (ω : Type) where
  /-- the reply to the event, or "engine stopped" -/
  sendAndWait (k : ReplyKind) : Event → ω → Except String k.Reply × ω
  sendEvent : Event → ω → Option String × ω
  /-- `c.server != nil` -/
  server : Bool
  registerSession : String → ClientID → ω → ClientID × ω
  /-- `updateClientID`, less the assignment to `c.ID` -/
  updateClientID : ClientID → ClientID → ω → ω
  /-- the encoder's calls in `sendResponse` -/
  encode : UInt32 → Except String (Option Sent) → ω → Option String × ω

/-- `rpc.Client` while its connection is served. -/
structure Conn (ω : Type) where
  ID : ClientID
  stateless : Bool
  sessionID : String
  world : ω

namespace Conn

variable {ω : Type}

/-- `sendEvent`, as the result of a handler. -/
def sendEvent (b : Backend ω) (c : Conn ω) (ev : Event) :
    Except String (Option Sent) × Conn ω :=
  let (err, w) := b.sendEvent ev c.world
  (match err with
    | some err => .error err
    | none => .ok none, { c with world := w })

/-- `sendAndWait`, and what the handler makes of the reply. -/
def sendAndWait (b : Backend ω) (c : Conn ω) (k : ReplyKind) (ev : Event)
    (result : k.Reply → Except String (Option Sent)) : Except String (Option Sent) × Conn ω :=
  let (reply, w) := b.sendAndWait k ev c.world
  (reply.bind result, { c with world := w })

/-- `SetStateless`. -/
def setStateless (b : Backend ω) (c : Conn ω) (sessionID : String) (clientID : ClientID) :
    Conn ω :=
  let c := { c with stateless := true, sessionID := sessionID }
  if b.server then { c with ID := clientID, world := b.updateClientID c.ID clientID c.world }
  else { c with ID := clientID }

/-- The hello branch of `dispatch`, after the params are decoded. -/
def hello (b : Backend ω) (c : Conn ω) (params : HelloParams) :
    Except String (Option Sent) × Conn ω :=
  let c :=
    -- the session is registered before the engine is asked, and its ID is the one asked with
    if params.sessionID ≠ "" ∧ b.server then
      let (clientID, w) := b.registerSession params.sessionID c.ID c.world
      setStateless b { c with world := w } params.sessionID clientID
    else c
  c.sendAndWait b .hello (.helloRequest c.ID params) fun r => r.map fun r => some (.hello r)

/-- `ListRequest` and `StatusRequest`, with or without params. -/
def list (b : Backend ω) (c : Conn ω) : Except String (Option Sent) × Conn ω :=
  c.sendAndWait b .list (.listRequest c.ID) fun r => .ok (some (.list r))

def status (b : Backend ω) (c : Conn ω) : Except String (Option Sent) × Conn ω :=
  c.sendAndWait b .status .statusRequest fun r => .ok (some (.status r))

end Conn

/-! ## Dispatching -/

/-- What `dispatch` returns when it does not return a `fatalError`. -/
structure Dispatched (ω : Type) where
  params : Params
  /-- what is left of the stream -/
  rest : Bytes
  result : Except String (Option Sent)
  conn : Conn ω

variable {ω : Type}

/-- A branch of `dispatch`: decode the params and handle them. An error is the text of a
    `fatalError`. -/
def decodeParams (dec : Decoder) (t : Target) (context : String) (bs : Bytes)
    (handle : t.Var → Except String (Option Sent) × Conn ω) : Except String (Dispatched ω) :=
  match dec.decode t bs with
  | .error err => .error (context ++ ": " ++ err.text)
  | .ok (params, rest) =>
    let (result, conn) := handle params
    .ok { params := ⟨t, params⟩, rest, result, conn }

/-- `dispatch`. -/
def dispatch (dec : Decoder) (b : Backend ω) (c : Conn ω) (method : String) (bs : Bytes) :
    Except String (Dispatched ω) :=
  match Method.ofName? method with
  | some .hello => decodeParams dec .hello "decoding hello params" bs fun params => c.hello b params
  | some .upload =>
    decodeParams dec .upload "decoding upload params" bs fun params =>
      c.sendAndWait b .upload (.uploadRequest c.ID params) fun r =>
        r.map fun handle => some (.upload handle)
  | some .place =>
    decodeParams dec .place "decoding place params" bs fun params =>
      c.sendAndWait b .place (.placeRequest c.ID params) fun r =>
        r.map fun placementID => some (.place placementID)
  | some .unplace =>
    decodeParams dec .unplace "decoding unplace params" bs fun params =>
      c.sendEvent b (.unplaceRequest c.ID params.placementID)
  | some .unplaceAll =>
    decodeParams dec .ignored "decoding unplace_all params" bs fun _ =>
      c.sendEvent b (.unplaceAllRequest c.ID)
  | some .free =>
    decodeParams dec .free "decoding free params" bs fun params =>
      c.sendEvent b (.freeRequest c.ID params.handle)
  | some .registerWin =>
    decodeParams dec .registerWin "decoding register_win params" bs fun params =>
      c.sendEvent b (.registerWin c.ID params)
  | some .updateScroll =>
    decodeParams dec .updateScroll "decoding update_scroll params" bs fun params =>
      c.sendEvent b (.scrollUpdate c.ID params.winID params.scrollTop)
  | some .unregisterWin =>
    decodeParams dec .unregisterWin "decoding unregister_win params" bs fun params =>
      c.sendEvent b (.unregisterWin c.ID params.winID)
  | some .list => decodeParams dec .ignored "decoding list params" bs fun _ => c.list b
  | some .status => decodeParams dec .ignored "decoding status params" bs fun _ => c.status b
  | some .stop =>
    decodeParams dec .ignored "decoding stop params" bs fun _ => c.sendEvent b .stopRequest
  -- an unknown method is answered, and its first parameter is skipped
  | none =>
    decodeParams dec .ignored "skipping unknown method params" bs fun _ =>
      (.error ("unknown method: " ++ method), c)

/-- `dispatchNoParams`. -/
def dispatchNoParams (b : Backend ω) (c : Conn ω) (method : String) :
    Except String (Option Sent) × Conn ω :=
  match Method.ofName? method with
  | some .list => c.list b
  | some .status => c.status b
  | some .stop => c.sendEvent b .stopRequest
  | some .unplaceAll => c.sendEvent b (.unplaceAllRequest c.ID)
  -- the methods that need parameters are unknown without them
  | _ => (.error ("unknown method: " ++ method), c)

/-! ## Serving -/

/-- What a connection does, as far as its peers can tell. -/
inductive Entry
  /-- `Serve` starts to decode a message -/
  | start (stream : Bytes)
  /-- `dispatch` has handled the params, or `dispatchNoParams` the message; `rest` is unread -/
  | dispatch (method : String) (params : Option Params) (rest : Bytes)
  /-- `sendResponse` -/
  | response (msgID : UInt32) (result : Except String (Option Sent))

/-- The part of `handleRequest` and `handleNotification` from the params array on. -/
def handleParams (dec : Decoder) (b : Backend ω) (c : Conn ω) (method : String) (bs : Bytes) :
    List Entry × Except String (Except String (Option Sent) × Bytes × Conn ω) :=
  match dec.decodeArrayLen bs with
  | .error err => ([], .error ("decoding params array: " ++ err.text))
  | .ok (paramsLen, bs) =>
    if 0 < paramsLen then
      match dispatch dec b c method bs with
      | .error fatal => ([], .error fatal)
      | .ok d =>
        ([.dispatch method (some d.params) d.rest],
          -- the handler has run by now; an extra parameter that
          -- cannot be skipped ends the connection
          match dec.skipValues (paramsLen.toNat - 1) d.rest with
          | .error err => .error ("skipping extra param: " ++ err.text)
          | .ok rest => .ok (d.result, rest, d.conn))
    else
      let (result, c) := dispatchNoParams b c method
      ([.dispatch method none bs], .ok (result, bs, c))

/-- `sendResponse`. -/
def sendResponse (b : Backend ω) (c : Conn ω) (msgID : UInt32)
    (result : Except String (Option Sent)) : Except String (Conn ω) :=
  match b.encode msgID result c.world with
  | (some err, _) => .error err
  | (none, w) => .ok { c with world := w }

/-- `handleRequest`. -/
def handleRequest (dec : Decoder) (b : Backend ω) (c : Conn ω) (bs : Bytes) :
    List Entry × Except String (Bytes × Conn ω) :=
  match dec.decodeUint32 bs with
  | .error err => ([], .error ("decoding msgid: " ++ err.text))
  | .ok (msgID, bs) =>
    match dec.decodeString bs with
    | .error err => ([], .error ("decoding method: " ++ err.text))
    | .ok (method, bs) =>
      match handleParams dec b c method bs with
      | (log, .error err) => (log, .error err)
      | (log, .ok (result, rest, c)) =>
        (log ++ [.response msgID result], (sendResponse b c msgID result).map fun c => (rest, c))

/-- `handleNotification`. -/
def handleNotification (dec : Decoder) (b : Backend ω) (c : Conn ω) (bs : Bytes) :
    List Entry × Except String (Bytes × Conn ω) :=
  match dec.decodeString bs with
  | .error err => ([], .error ("decoding method: " ++ err.text))
  | .ok (method, bs) =>
    match handleParams dec b c method bs with
    | (log, .error err) => (log, .error err)
    -- the result of a notification is dropped
    | (log, .ok (_, rest, c)) => (log, .ok (rest, c))

/-- How an iteration of `Serve` ends. -/
inductive Iteration (ω : Type)
  /-- `Serve` returns this error, or nil -/
  | returns (err : Option String)
  | continues (rest : Bytes) (c : Conn ω)

/-- An error of a handler ends `Serve`. -/
def Iteration.ofExcept (context : String) : Except String (Bytes × Conn ω) → Iteration ω
  | .error err => .returns (some (context ++ ": " ++ err))
  | .ok (rest, c) => .continues rest c

/-- The body of the loop in `Serve`. -/
def iteration (dec : Decoder) (b : Backend ω) (c : Conn ω) (bs : Bytes) :
    List Entry × Iteration ω :=
  match dec.decodeArrayLen bs with
  | .error err =>
    ([.start bs], .returns (if err.atEnd then none else
      some ("decoding message array: " ++ err.text)))
  | .ok (arrLen, bs₁) =>
    if arrLen < 3 then
      ([.start bs], .returns (some ("invalid message: array length " ++ toString arrLen ++ " < 3")))
    else
      match dec.decodeInt bs₁ with
      | .error err => ([.start bs], .returns (some ("decoding message type: " ++ err.text)))
      | .ok (msgType, bs₂) =>
        -- MsgRequest and MsgNotification
        if msgType = 0 then
          let (log, r) := handleRequest dec b c bs₂
          (.start bs :: log, .ofExcept "handling request" r)
        else if msgType = 2 then
          let (log, r) := handleNotification dec b c bs₂
          (.start bs :: log, .ofExcept "handling notification" r)
        else ([.start bs], .returns (some ("unknown message type: " ++ toString msgType)))

/-- `Serve`, for at most so many iterations: what it does and, if they are enough, the error it
    returns. -/
def serve (dec : Decoder) (b : Backend ω) : Nat → Conn ω → Bytes →
    List Entry × Option (Option String)
  | 0, _, _ => ([], none)
  | fuel + 1, c, bs =>
    match iteration dec b c bs with
    | (log, .returns err) => (log, some err)
    | (log, .continues rest c) =>
      let (log', err) := serve dec b fuel c rest
      (log ++ log', err)

end Kgd

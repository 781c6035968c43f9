import Kgd.ForStd.Run
import Kgd.Client.CResults
import Kgd.Spec.ProcessMessage
import Kgd.Spec.WideMessages

/-!
# Results of the C client

A function that reports success should return all of what the daemon has sent. The functions of
the C client report success whatever happens to their readers, so they do exactly if what was
sent has a place in what they return.

## Key results

- `CClient.answered_eq`: what `do_call` returns for a response of the daemon
- `CClient.exists_run_answered`: that it is what the call returns in a run of the client
- `CClient.reads_hello`, `CClient.reads_list`, `CClient.reads_status`: what fits is read back
- `CClient.complete_iff`: the results that are complete when success is reported
-/

namespace Kgd

namespace CClient

open Mpack Msgpack ByteReader

/-! ## What `do_call` returns -/

/-- What `do_call` returns for an entry that is done. -/
def PendingEntry.callResult (e : PendingEntry) : Except Error Output :=
  if e.hasError then .error .rpc else .ok ⟨e.data, e.len⟩

/-- What `do_call` returns if the daemon's response is all that comes for the call; the copy of
    the result is allocated or not. -/
def answered (msgid : UInt32) (copied : Bool) (sent : Sent) : Except Error Output :=
  ((processMessage (fun _ => .fresh) (fun _ => false) copied
    (DaemonMessage.response msgid (.ok (some sent))).bytes).pending (slot msgid)).callResult

variable {msgid : UInt32} {sent : Sent}

/-- A response is known from its type and its message id, whatever its error and its result. -/
theorem isResponse_array (msgid : UInt32) (err result : Value) :
    IsResponse (Value.array [encodeInt 1, .uint32 msgid, err, result]).bytes 4 msgid
      (err.bytes ++ result.bytes) := by
  have hbytes : (Value.array [encodeInt 1, .uint32 msgid, err, result]).bytes =
      arrayHeader 4 ++ ((encodeInt 1).bytes ++ ((Value.uint32 msgid).bytes ++
        (err.bytes ++ result.bytes))) := by
    simp [Value.bytes, Value.bytesElems]
  rw [hbytes]
  refine ⟨_, ⟨by decide, _, reads_expectArrayMax (by decide) (by decide) _, ?_⟩,
    reads_expectU32 msgid _⟩
  exact reads_expectInt ⟨by decide, by decide⟩ _

/-- The response of the daemon, past its message id. -/
theorem isResponse_bytes :
    IsResponse (DaemonMessage.response msgid (.ok (some sent))).bytes 4 msgid
      (0xc0 :: sent.encode.bytes) :=
  isResponse_array msgid .nil sent.encode

/-- The response to a request has a nil for its error, and the result. -/
theorem hasFields_bytes (h : sent.Sized) :
    HasFields 4 (0xc0 :: sent.encode.bytes) [0xc0] sent.encode.bytes where
  four := Nat.le_refl 4
  errWhole := isValue_bytes (v := .nil) trivial
  resultWhole := isValue_bytes (sent.valid_encode h)
  bytes := ⟨[], by rw [List.append_nil]; rfl⟩

/-- The daemon's response completes the slot of its id, if a call holds that. -/
theorem pending_response (h : sent.Sized) (msgid : UInt32)
    (pending : Fin maxPending → PendingEntry) (cbs : Callbacks) (copied : Bool)
    (hactive : (pending (slot msgid)).active = true) :
    ∃ msg, (processMessage pending cbs copied
        (DaemonMessage.response msgid (.ok (some sent))).bytes).pending =
      Function.update pending (slot msgid)
        ((pending (slot msgid)).receive ⟨msgid, false, msg, sent.encode.bytes⟩ copied) := by
  have hfields := hasFields_bytes h
  -- the error is nil, and a bad one is a map
  have hbad : ¬ IsBadError (0xc0 :: sent.encode.bytes) := by
    intro hbad
    obtain ⟨ecount, rest, hmap, -⟩ := hbad
    exact nomatch (parseTag_nil _).symm.trans hmap
  obtain ⟨tag, rest, htag, hnil, -⟩ := readTag_error hfields
  obtain ⟨msg, rd, hrd, hresponse⟩ := processResponse_active pending copied msgid hbad hactive
  refine ⟨msg, ?_⟩
  rw [processMessage_response _ _ isResponse_bytes, hresponse, resultBytes_of_nil hfields hrd,
    htag, hnil.mpr rfl]
  rfl

/-- `do_call` returns exactly the result, or nothing if it could not be copied. -/
theorem answered_eq (h : sent.Sized) (copied : Bool) :
    answered msgid copied sent =
      .ok (if copied then ⟨some sent.encode.bytes, sent.encode.bytes.length⟩ else ⟨none, 0⟩) := by
  have hpos : 0 < sent.encode.bytes.length :=
    List.length_pos_of_ne_nil (PrefixNotation.ne_nil_of_isValue (hasFields_bytes h).resultWhole)
  obtain ⟨msg, hpending⟩ := pending_response h msgid (fun _ => .fresh) (fun _ => false) copied rfl
  rw [answered, hpending, Function.update_self]
  cases copied <;> simp [PendingEntry.callResult, PendingEntry.receive, PendingEntry.fresh, hpos]

variable {s : State} {c : CallNo}

/-- When the entry is done, the test of the loop lets the call return `callResult`: at once, or
    when it has released its slot. -/
theorem check_of_done (hlt : c < s.calls.length) (hdone : (s.pending (slot msgid)).done = true) :
    (∃ o, (s.pending (slot msgid)).callResult = .ok o ∧
      (s.check c msgid).calls[c]? = some (.returned msgid (.ok o))) ∨
    ∃ err, (s.pending (slot msgid)).callResult = .error err ∧
      (s.check c msgid).calls[c]? = some (.failing msgid err) := by
  have hset : ∀ p, (s.calls.set c p)[c]? = some p := fun _ => List.getElem?_set_self hlt
  cases herr : (s.pending (slot msgid)).hasError with
  | true =>
    refine .inr ⟨.rpc, by simp [PendingEntry.callResult, herr], ?_⟩
    simp [State.check, State.setCall, hdone, herr, hset]
  | false =>
    refine .inl ⟨⟨(s.pending (slot msgid)).data, (s.pending (slot msgid)).len⟩, ?_, ?_⟩
    · simp [PendingEntry.callResult, herr]
    simp [State.check, State.setCall, State.setPending, hdone, herr, hset]

/-- A call whose entry is done can go on to return `callResult`. -/
theorem exists_run_callResult (hc : s.calls[c]? = some (.waiting msgid))
    (hdone : (s.pending (slot msgid)).done = true) :
    ∃ tr s', Run Step s tr s' ∧
      s'.calls[c]? = some (.returned msgid (s.pending (slot msgid)).callResult) := by
  have hlt : c < s.calls.length := (List.getElem?_eq_some_iff.mp hc).1
  -- the look at the entry ends the wait
  have hcheck : Step s (.check c) (s.check c msgid) := by simp [Step, State.next, hc]
  rcases check_of_done hlt hdone with ⟨o, hresult, hreturned⟩ | ⟨err, hresult, hfailing⟩
  · exact ⟨_, _, Run.nil.snoc hcheck, hresult ▸ hreturned⟩
  · have hlt' : c < (s.check c msgid).calls.length := (List.getElem?_eq_some_iff.mp hfailing).1
    -- a failed call has its entry to clear first
    have hrelease : Step (s.check c msgid) (.release c)
        (((s.check c msgid).setPending (slot msgid)
          { (s.check c msgid).pending (slot msgid) with active := false }).setCall c
            (.returned msgid (.error err))) := by
      simp [Step, State.next, hfailing]
    refine ⟨_, _, (Run.nil.snoc hcheck).snoc hrelease, ?_⟩
    rw [hresult]
    exact List.getElem?_set_self hlt'

/-- In a run of the client, the daemon's response lets the call that waits for it return
    `answered`. -/
theorem exists_run_answered (h : sent.Sized) (copied : Bool) (hreader : s.reader = .reading)
    (hc : s.calls[c]? = some (.waiting msgid)) (hfresh : s.pending (slot msgid) = .fresh) :
    ∃ tr s', Run Step s tr s' ∧
      s'.calls[c]? = some (.returned msgid (answered msgid copied sent)) := by
  obtain ⟨msg, hpending⟩ := pending_response h msgid (fun _ => .fresh) (fun _ => false) copied rfl
  let e := PendingEntry.fresh.receive ⟨msgid, false, msg, sent.encode.bytes⟩ copied
  -- the reader puts the response into the slot, and the call wakes up and returns it
  have hreceive : Step s (.receive ⟨msgid, false, msg, sent.encode.bytes⟩ copied)
      (s.setPending (slot msgid) e) := by
    simp only [Step, State.next, hreader, hfresh]
    rfl
  have hentry : (s.setPending (slot msgid) e).pending (slot msgid) = e := Function.update_self ..
  have hdone : e.done = true := by
    show (PendingEntry.receive _ _ _).done = true
    rw [PendingEntry.receive]
    split
    · split <;> rfl
    · rfl
  obtain ⟨tr, s', hrun, hreturned⟩ := exists_run_callResult (s := s.setPending (slot msgid) e) hc
    (by rw [hentry]; exact hdone)
  refine ⟨_, s', (Run.nil.snoc hreceive).append hrun, ?_⟩
  rw [hreturned, hentry, answered, hpending, Function.update_self]

/-! ## What was sent, in what is returned -/

/-- Every field is the daemon's. -/
structure HelloOutput.Is (o : HelloOutput) (r : HelloResult) : Prop where
  clientID : o.clientID.bytes = utf8 r.clientID
  cols : o.cols.toInt = r.cols.toInt
  rows : o.rows.toInt = r.rows.toInt
  cellWidth : o.cellWidth.toInt = r.cellWidth.toInt
  cellHeight : o.cellHeight.toInt = r.cellHeight.toInt
  inTmux : o.inTmux = r.inTmux
  fg : o.fg = r.fg
  bg : o.bg = r.bg

/-- Every field is the daemon's. -/
structure PlacementOutput.Is (o : PlacementOutput) (p : PlacementInfo) : Prop where
  placementID : o.placementID = p.placementID
  clientID : o.clientID.bytes = utf8 p.clientID
  handle : o.handle = p.handle
  visible : o.visible = p.visible
  row : o.row.toInt = p.row.toInt
  col : o.col.toInt = p.col.toInt

/-- Every field is the daemon's. -/
structure StatusOutput.Is (o : StatusOutput) (r : StatusResult) : Prop where
  clients : o.clients.toInt = r.clients.toInt
  placements : o.placements.toInt = r.placements.toInt
  images : o.images.toInt = r.images.toInt
  cols : o.cols.toInt = r.cols.toInt
  rows : o.rows.toInt = r.rows.toInt

/-- If the function for a result reports success, it returns all of the result. An id is left in
    a variable with `unset` in it, and the array of a list is allocated or not. -/
def CompleteOrError (unset : UInt32) (allocated : Bool) (result : Except Error Output) :
    Sent → Prop
  | .hello r => ∀ o, kgdConnect result = .ok o → o.Is r
  | .upload handle => ∀ out, kgdUpload (expectID "handle") unset result = .ok out → out = handle
  | .place placementID =>
    ∀ out, kgdPlace (expectID "placement_id") unset result = .ok out → out = placementID
  | .list placements =>
    ∀ out, kgdList allocated result = .ok out → List.Forall₂ PlacementOutput.Is out placements
  | .status r => ∀ o, kgdStatus result = .ok o → o.Is r
  -- no call has a notification for a result
  | .notification _ => True

/-! ## What fits -/

/-- The string fits a buffer of 64 bytes. -/
def FitsBuffer (s : String) : Prop := (utf8 s).length < 64 ∧ 0 ∉ utf8 s

/-- The fields fit `kgd_hello_result`, and the colors are those it starts with. -/
def HelloFits (r : HelloResult) : Prop :=
  FitsBuffer r.clientID ∧ Narrow r.cols ∧ Narrow r.rows ∧ Narrow r.cellWidth ∧
    Narrow r.cellHeight ∧ r.fg = ⟨0, 0, 0⟩ ∧ r.bg = ⟨0, 0, 0⟩

def PlacementFits (p : PlacementInfo) : Prop :=
  FitsBuffer p.clientID ∧ Narrow p.row ∧ Narrow p.col

def StatusFits (r : StatusResult) : Prop :=
  Narrow r.clients ∧ Narrow r.placements ∧ Narrow r.images ∧ Narrow r.cols ∧ Narrow r.rows

/-- What was sent has a place in what is returned. -/
def Fits (allocated : Bool) : Sent → Prop
  | .hello r => HelloFits r
  | .upload _ | .place _ => True
  | .list placements =>
    placements.length ≤ 4096 ∧ (allocated = true → ∀ p ∈ placements, PlacementFits p)
  | .status r => StatusFits r
  | .notification _ => True

/-- What was sent is what is returned if nothing is read. -/
def IsBlank (unset : UInt32) : Sent → Prop
  | .hello r => HelloOutput.blank.Is r
  | .upload id | .place id => unset = id
  | .list placements => placements = []
  | .status r => StatusOutput.blank.Is r
  | .notification _ => True

/-- A number that an `int32_t` holds has 32 bits. -/
theorem narrow_of_eq {a : Int32} {n : Int64} (h : a.toInt = n.toInt) : Narrow n := by
  have hle := a.le_toInt
  have hlt := a.toInt_lt
  constructor <;> omega

/-- A text that a buffer holds fits it. -/
theorem fitsBuffer_of_eq {a : CString 64} {s : String} (h : a.bytes = utf8 s) : FitsBuffer s := by
  have hfits := a.fits
  rwa [h] at hfits

/-! ## What fits is read back -/

/-- A result of hello that fits is read. -/
theorem reads_hello {r : HelloResult} (h : HelloFits r) :
    ∃ o : HelloOutput, o.Is r ∧
      Reads (readFields 32 helloFields .blank).parse o r.encode.bytes := by
  obtain ⟨hid, hcols, hrows, hwidth, hheight, hfg, hbg⟩ := h
  have hlen : (utf8 r.clientID).length < 4294967296 := by have := hid.1; omega
  refine ⟨⟨⟨utf8 r.clientID, hid⟩, .ofInt r.cols.toInt, .ofInt r.rows.toInt,
    .ofInt r.cellWidth.toInt, .ofInt r.cellHeight.toInt, r.inTmux, ⟨0, 0, 0⟩, ⟨0, 0, 0⟩⟩,
    ⟨rfl, toInt_ofInt hcols, toInt_ofInt hrows, toInt_ofInt hwidth, toInt_ofInt hheight, rfl,
      hfg.symm, hbg.symm⟩, ?_⟩
  refine reads_readFields (r := ([5, 4, 3, 2, 1, 0], _)) (show 8 ≤ 32 by decide)
    (show 8 < 4294967296 by decide) ?_
  -- the colors are discarded
  have hcolor : ∀ c : Color, Mpack.format.IsValue c.encode.bytes :=
    fun c => isValue_bytes c.valid_encode
  apply Mpack.reads_entries (reads_readEntry (by decide) rfl (by decide)
    (reads_return (reads_expectCstr hlen hid) _))
  apply Mpack.reads_entries (reads_readEntry (by decide) rfl (by decide)
    (reads_return (reads_expectInt hcols) _))
  apply Mpack.reads_entries (reads_readEntry (by decide) rfl (by decide)
    (reads_return (reads_expectInt hrows) _))
  apply Mpack.reads_entries (reads_readEntry (by decide) rfl (by decide)
    (reads_return (reads_expectInt hwidth) _))
  apply Mpack.reads_entries (reads_readEntry (by decide) rfl (by decide)
    (reads_return (reads_expectInt hheight) _))
  apply Mpack.reads_entries (reads_readEntry (by decide) rfl (by decide)
    (reads_return (reads_expectBool r.inTmux) _))
  apply Mpack.reads_entries (reads_readEntry_unknown (by decide) rfl (by decide) (hcolor r.fg))
  apply Mpack.reads_entries (reads_readEntry_unknown (by decide) rfl (by decide) (hcolor r.bg))
  exact Reads.pure _

theorem reads_placement {p : PlacementInfo} (h : PlacementFits p) :
    ∃ o : PlacementOutput, o.Is p ∧
      Reads (readFields 32 placementFields .blank).parse o p.encode.bytes := by
  obtain ⟨hid, hrow, hcol⟩ := h
  have hlen : (utf8 p.clientID).length < 4294967296 := by have := hid.1; omega
  refine ⟨⟨p.placementID, ⟨utf8 p.clientID, hid⟩, p.handle, p.visible, .ofInt p.row.toInt,
    .ofInt p.col.toInt⟩, ⟨rfl, rfl, rfl, rfl, toInt_ofInt hrow, toInt_ofInt hcol⟩, ?_⟩
  -- the fields in the order the daemon writes them
  refine reads_readFields (r := ([5, 4, 3, 2, 1, 0], _)) (show 6 ≤ 32 by decide)
    (show 6 < 4294967296 by decide) ?_
  apply Mpack.reads_entries (reads_readEntry (by decide) rfl (by decide)
    (reads_return (reads_expectU32 p.placementID) _))
  apply Mpack.reads_entries (reads_readEntry (by decide) rfl (by decide)
    (reads_return (reads_expectCstr hlen hid) _))
  apply Mpack.reads_entries (reads_readEntry (by decide) rfl (by decide)
    (reads_return (reads_expectU32 p.handle) _))
  apply Mpack.reads_entries (reads_readEntry (by decide) rfl (by decide)
    (reads_return (reads_expectBool p.visible) _))
  apply Mpack.reads_entries (reads_readEntry (by decide) rfl (by decide)
    (reads_return (reads_expectInt hrow) _))
  apply Mpack.reads_entries (reads_readEntry (by decide) rfl (by decide)
    (reads_return (reads_expectInt hcol) _))
  exact Reads.pure _

theorem reads_status {r : StatusResult} (h : StatusFits r) :
    ∃ o : StatusOutput, o.Is r ∧
      Reads (readFields 32 statusFields .blank).parse o r.encode.bytes := by
  obtain ⟨hclients, hplacements, himages, hcols, hrows⟩ := h
  refine ⟨⟨.ofInt r.clients.toInt, .ofInt r.placements.toInt, .ofInt r.images.toInt,
    .ofInt r.cols.toInt, .ofInt r.rows.toInt⟩, ⟨toInt_ofInt hclients, toInt_ofInt hplacements,
      toInt_ofInt himages, toInt_ofInt hcols, toInt_ofInt hrows⟩, ?_⟩
  -- the fields in the order the daemon writes them
  refine reads_readFields (r := ([4, 3, 2, 1, 0], _)) (show 5 ≤ 32 by decide)
    (show 5 < 4294967296 by decide) ?_
  apply Mpack.reads_entries (reads_readEntry (by decide) rfl (by decide)
    (reads_return (reads_expectInt hclients) _))
  apply Mpack.reads_entries (reads_readEntry (by decide) rfl (by decide)
    (reads_return (reads_expectInt hplacements) _))
  apply Mpack.reads_entries (reads_readEntry (by decide) rfl (by decide)
    (reads_return (reads_expectInt himages) _))
  apply Mpack.reads_entries (reads_readEntry (by decide) rfl (by decide)
    (reads_return (reads_expectInt hcols) _))
  apply Mpack.reads_entries (reads_readEntry (by decide) rfl (by decide)
    (reads_return (reads_expectInt hrows) _))
  exact Reads.pure _

/-! ## The elements of a list -/

/-- The loop fills the array from the front. -/
theorem reads_elements {ps : List PlacementInfo} (h : ∀ p ∈ ps, PlacementFits p)
    (filled : List PlacementOutput) :
    ∃ out, List.Forall₂ PlacementOutput.Is out ps ∧
      Reads (StickyReader.repeatOk readElement ps.length
          (filled.length, filled ++ List.replicate ps.length .blank)).parse
        (filled.length + ps.length, filled ++ out)
        (Value.bytesElems (ps.map (·.encode))) := by
  induction ps generalizing filled with
  | nil => exact ⟨[], .nil, Reads.pure _⟩
  | cons p ps ih =>
    obtain ⟨o, ho, hread⟩ := reads_placement (h p List.mem_cons_self)
    obtain ⟨out, hout, hloop⟩ := ih (fun q hq => h q (List.mem_cons_of_mem p hq)) (filled ++ [o])
    refine ⟨o :: out, .cons ho hout, ?_⟩
    -- the element goes to the first place that is still blank
    have hset : (filled ++ List.replicate (ps.length + 1) PlacementOutput.blank).set
        filled.length o = filled ++ [o] ++ List.replicate ps.length .blank := by
      rw [List.set_append_right _ _ (Nat.le_refl _), Nat.sub_self, List.replicate_succ,
        List.set_cons_zero, List.append_assoc]
      rfl
    have helement : Reads (readElement
        (filled.length, filled ++ List.replicate (ps.length + 1) .blank)).parse
        ((filled ++ [o]).length, filled ++ [o] ++ List.replicate ps.length .blank)
        p.encode.bytes := by
      rw [← hset, List.length_append]
      exact reads_return hread _
    have hend : (filled.length + (ps.length + 1), filled ++ o :: out) =
        ((filled ++ [o]).length + ps.length, filled ++ [o] ++ out) := by
      rw [List.length_append, List.append_assoc, Nat.add_right_comm]
      rfl
    rw [List.length_cons, StickyReader.parse_repeatOk_succ, List.map_cons, Value.bytesElems, hend]
    exact helement.bind hloop

/-- What a caller sees of a result that was copied. -/
theorem bytes_copied (bytes : List UInt8) :
    (⟨some bytes, bytes.length⟩ : Output).bytes = bytes := List.take_length

theorem encodeStruct_single (key : String) (v : Value) :
    encodeStruct [(key, v)] = .map [(.str key, v)] := rfl

/-- The field "placements", with or without an error. -/
theorem kgdList_answered (allocated : Bool) (v : Value) :
    kgdList allocated (.ok ⟨some (encodeStruct [("placements", v)]).bytes,
        (encodeStruct [("placements", v)]).bytes.length⟩) =
      ((readPlacements allocated (.ok [])).run (some v.bytes)).1 := by
  show ((readFields 32 (listFields allocated) (.ok [])).run (some (Output.bytes _))).1 = _
  have hmax : 1 ≤ 32 := by decide
  have hkey : (utf8 "placements").length < 4294967296 := by decide
  rw [bytes_copied, encodeStruct_single, listFields]
  exact run_readFields_single hmax hkey (readPlacements allocated) (.ok []) v

/-- An array of at most 4096 elements. -/
theorem run_readPlacements_short (allocated : Bool) {vs : List Value} (hpos : vs ≠ [])
    (h : vs.length ≤ 4096) :
    ((readPlacements allocated (.ok [])).run (some (Value.array vs).bytes)).1 =
      if allocated then .ok ((StickyReader.repeatOk readElement vs.length
        (0, List.replicate vs.length .blank)).run (some (Value.bytesElems vs))).1.2
      else .error .nomem := by
  have hne : vs.length ≠ 0 := mt List.length_eq_zero_iff.mp hpos
  rw [readPlacements, Value.bytes,
    StickyReader.run_bind_of_parse (reads_expectArrayMax h (by omega) _), if_neg hne]
  cases allocated <;> rfl

/-- A longer array is over the maximum, and there is nothing in the list. -/
theorem run_readPlacements_long (allocated : Bool) {vs : List Value} (h : 4096 < vs.length)
    (hlen : vs.length < 4294967296) :
    ((readPlacements allocated (.ok [])).run (some (Value.array vs).bytes)).1 = .ok [] := by
  have hrefused : (expectArrayMax 4096).run (some (Value.array vs).bytes) = (0, none) := by
    rw [Value.bytes]
    exact run_expectTag_of_none (reads_arrayHeader hlen) (if_neg (by omega)) _
  show ((if (((expectArrayMax 4096).run _).1 = 0) then _ else _ : Expect _).run _).1 = _
  rw [hrefused, if_pos rfl]
  rfl

/-- The ID in a result with one field is read. -/
theorem expectID_answered {key : String} (hkey : (utf8 key).length < 4294967296) (id : UInt32) :
    expectID key ⟨some (encodeStruct [(key, .uint32 id)]).bytes,
      (encodeStruct [(key, .uint32 id)]).bytes.length⟩ = some id := by
  have hmax : 1 ≤ 32 := by decide
  rw [expectID, bytes_copied, encodeStruct_single, idFields]
  refine (run_readFields_single hmax hkey _ _ (.uint32 id)).trans ?_
  rw [StickyReader.run_bind_of_parse (reads_expectU32 id).apply_self]
  rfl

/-! ## Complete results -/

/-- What is returned when the whole result is read. -/
theorem run_of_reads {α : Type} {p : Expect α} {a : α} {bytes : List UInt8}
    (h : Reads p.parse a bytes) : (p.run (some bytes)).1 = a := by
  rw [StickyReader.run_of_parse h.apply_self]

/-- Placements that were read fit. -/
theorem forall₂_fits {out : List PlacementOutput} {ps : List PlacementInfo}
    (h : List.Forall₂ PlacementOutput.Is out ps) : ∀ p ∈ ps, PlacementFits p := by
  induction h with
  | nil => exact nofun
  | cons ho _ ih =>
    exact List.forall_mem_cons.mpr
      ⟨⟨fitsBuffer_of_eq ho.clientID, narrow_of_eq ho.row, narrow_of_eq ho.col⟩, ih⟩

/-- A list is complete, or there is an error, exactly if it fits. -/
theorem list_iff {ps : List PlacementInfo} (hlen : ps.length < 4294967296) (allocated : Bool) :
    (∀ out, kgdList allocated (.ok ⟨some (Sent.list ps).encode.bytes,
        (Sent.list ps).encode.bytes.length⟩) = .ok out →
      List.Forall₂ PlacementOutput.Is out ps) ↔ Fits allocated (.list ps) := by
  cases ps with
  | nil =>
    have hlist : kgdList allocated (.ok ⟨some (Sent.list []).encode.bytes,
        (Sent.list []).encode.bytes.length⟩) = .ok [] := kgdList_answered allocated .nil
    rw [hlist]
    apply iff_of_true
    · intro out hout
      rw [← Except.ok.inj hout]
      exact .nil
    · exact ⟨Nat.zero_le _, fun _ => nofun⟩
  | cons p ps =>
    have hmap : ((p :: ps).map (·.encode)).length = (p :: ps).length := List.length_map _
    have hlist : kgdList allocated (.ok ⟨some (Sent.list (p :: ps)).encode.bytes,
        (Sent.list (p :: ps)).encode.bytes.length⟩) =
        ((readPlacements allocated (.ok [])).run
          (some (Value.array ((p :: ps).map (·.encode))).bytes)).1 := kgdList_answered allocated _
    rw [hlist]
    -- a longer list is an error for the reader, and the result that of an empty one
    by_cases hmax : (p :: ps).length ≤ 4096
    · have hne : (p :: ps).map (·.encode) ≠ [] := List.cons_ne_nil _ _
      rw [run_readPlacements_short allocated hne (by rwa [hmap]), hmap]
      -- without memory for the array the call returns an error
      cases allocated with
      | false => exact iff_of_true nofun ⟨hmax, nofun⟩
      | true =>
        constructor
        · intro h
          exact ⟨hmax, fun _ => forall₂_fits (h _ rfl)⟩
        · intro h out hout
          obtain ⟨out', his, hread⟩ := reads_elements (h.2 rfl) []
          rw [← Except.ok.inj hout]
          have hrun := run_of_reads hread
          simp only [List.length_nil, List.nil_append] at hrun
          rwa [hrun]
    · rw [run_readPlacements_long allocated (by rw [hmap]; omega) (by rwa [hmap])]
      apply iff_of_false
      · intro h
        exact nomatch h [] rfl
      · intro h
        exact hmax h.1

/-- The colors of the daemon are never read. -/
theorem ensures_hello : StickyReader.Ensures (readFields 32 helloFields .blank)
    fun o => o.fg = ⟨0, 0, 0⟩ ∧ o.bg = ⟨0, 0, 0⟩ := by
  refine ensures_readFields ?_ ⟨rfl, rfl⟩
  simp only [helloFields, List.forall_mem_cons, List.not_mem_nil, false_imp_iff, implies_true,
    and_true]
  refine ⟨?_, ?_, ?_, ?_, ?_, ?_⟩
  all_goals
    intro h hcolors
    exact (StickyReader.ensures_true _).bind fun _ _ => StickyReader.Ensures.pure hcolors

/-- A result of hello is read as it is exactly if it fits. -/
theorem hello_iff (r : HelloResult) :
    ((readFields 32 helloFields .blank).run (some r.encode.bytes)).1.Is r ↔ HelloFits r := by
  constructor
  · intro h
    obtain ⟨hfg, hbg⟩ := ensures_hello (some r.encode.bytes)
    exact ⟨fitsBuffer_of_eq h.clientID, narrow_of_eq h.cols, narrow_of_eq h.rows,
      narrow_of_eq h.cellWidth, narrow_of_eq h.cellHeight, h.fg.symm.trans hfg,
      h.bg.symm.trans hbg⟩
  · intro h
    obtain ⟨o, ho, hread⟩ := reads_hello h
    rwa [run_of_reads hread]

theorem status_iff (r : StatusResult) :
    ((readFields 32 statusFields .blank).run (some r.encode.bytes)).1.Is r ↔ StatusFits r := by
  constructor
  · intro h
    exact ⟨narrow_of_eq h.clients, narrow_of_eq h.placements, narrow_of_eq h.images,
      narrow_of_eq h.cols, narrow_of_eq h.rows⟩
  · intro h
    obtain ⟨o, ho, hread⟩ := reads_status h
    rwa [run_of_reads hread]

/-- What holds of all values of a success holds of its value. -/
theorem forall_ok_iff {ε α : Type} {P : α → Prop} {a : α} :
    (∀ o, (.ok a : Except ε α) = .ok o → P o) ↔ P a := by
  constructor
  · intro h
    exact h a rfl
  · intro h o ho
    rwa [← Except.ok.inj ho]

/-- Every field of the result of a call that reports success is the daemon's, exactly if the
    result fits, or could not be copied and is what the output holds without it. -/
theorem complete_iff (sent : Sent) (hsized : sent.Sized) (msgid : UInt32) (copied allocated : Bool)
    (unset : UInt32) :
    CompleteOrError unset allocated (answered msgid copied sent) sent ↔
      if copied then Fits allocated sent else IsBlank unset sent := by
  have hhandle : (utf8 "handle").length < 4294967296 := by decide
  have hid : (utf8 "placement_id").length < 4294967296 := by decide
  rw [answered_eq hsized]
  cases copied with
  -- the response was not copied, so every result is that of no data
  | false =>
    rw [if_neg Bool.false_ne_true, if_neg Bool.false_ne_true]
    cases sent with
    | hello r => exact forall_ok_iff (a := HelloOutput.blank)
    | upload handle => exact forall_ok_iff (a := unset)
    | place placementID => exact forall_ok_iff (a := unset)
    | list ps =>
      refine (forall_ok_iff (a := [])).trans ?_
      cases ps with
      | nil => exact iff_of_true .nil rfl
      | cons p ps => exact iff_of_false nofun nofun
    | status r => exact forall_ok_iff (a := StatusOutput.blank)
    | notification n => exact Iff.rfl
  | true =>
    rw [if_pos rfl, if_pos rfl]
    cases sent with
    | hello r =>
      have hiff := hello_iff r
      rw [← bytes_copied r.encode.bytes] at hiff
      rw [show (Sent.hello r).encode = r.encode from rfl]
      exact forall_ok_iff.trans hiff
    | upload handle =>
      have hread := congrArg (·.getD unset) (expectID_answered hhandle handle)
      exact iff_of_true (forall_ok_iff.mpr hread) trivial
    | place placementID =>
      have hread := congrArg (·.getD unset) (expectID_answered hid placementID)
      exact iff_of_true (forall_ok_iff.mpr hread) trivial
    | list ps => exact list_iff hsized.1 allocated
    | status r =>
      have hiff := status_iff r
      rw [← bytes_copied r.encode.bytes] at hiff
      rw [show (Sent.status r).encode = r.encode from rfl]
      exact forall_ok_iff.trans hiff
    | notification n => exact Iff.rfl

/-- A status is complete. -/
theorem complete_iff_status :
    CompleteOrError 0 true (answered 7 true (.status ⟨1, 2, 3, 80, 24⟩))
      (.status ⟨1, 2, 3, 80, 24⟩) := by
  have hfits : StatusFits ⟨1, 2, 3, 80, 24⟩ := by
    unfold StatusFits Narrow
    decide
  exact (complete_iff (.status ⟨1, 2, 3, 80, 24⟩) trivial 7 true true 0).mpr hfits

/-- The colors of a hello are lost, and a status that does not fit is reported as a success. -/
theorem incomplete_success :
    (¬ CompleteOrError 0 true
      (answered 0 true (.hello ⟨"a", 80, 24, 8, 16, false, ⟨65535, 65535, 65535⟩, ⟨0, 0, 0⟩⟩))
      (.hello ⟨"a", 80, 24, 8, 16, false, ⟨65535, 65535, 65535⟩, ⟨0, 0, 0⟩⟩)) ∧
    ¬ CompleteOrError 0 true (answered 0 true (.status ⟨2147483648, 0, 0, 80, 24⟩))
      (.status ⟨2147483648, 0, 0, 80, 24⟩) := by
  constructor
  · intro h
    have hsized : (Sent.hello ⟨"a", 80, 24, 8, 16, false, ⟨65535, 65535, 65535⟩,
        ⟨0, 0, 0⟩⟩).Sized := show (utf8 "a").length < 4294967296 by decide
    rw [answered_eq hsized] at h
    -- the source skips both colors
    have hfg := (h _ rfl).fg
    rw [(ensures_hello _).1] at hfg
    exact absurd hfg (by decide)
  · intro h
    have hsized : (Sent.status ⟨2147483648, 0, 0, 80, 24⟩).Sized := trivial
    rw [answered_eq hsized] at h
    have hnarrow := narrow_of_eq (h _ rfl).clients
    exact absurd hnarrow.2 (by decide)

end CClient

end Kgd

import Kgd.ForStd.Base64
import Kgd.Spec.Apc

/-!
# A transmission in chunks

`SerializeChunks` cuts the base64 form of the data into commands of at most 4096 characters. Each
is read back as one APC (`TransmitCommand.IsChunk` says what it carries), and the payloads
together decode to the data.

## Key results

- `decode?_encodeToString`: base64 there and back
- `TransmitCommand.chunks_decode`
-/

namespace Kgd

/-! ## Base64 -/

/-- A digit is read back as its value. -/
theorem value?_base64Char {n : Nat} (hn : n < 64) : Base64.value? (base64Char n) = some n := by
  have htable : ∀ i : Fin 64, Base64.value? (base64Char i) = some i.val := by decide +kernel
  exact htable ⟨n, hn⟩

/-- A byte put together again from its parts. -/
theorem ofNat_eq {a : UInt8} {n : Nat} (h : n = a.toNat) : UInt8.ofNat n = a := by
  rw [h, UInt8.ofNat_toNat]

/-- What was encoded is decoded again. -/
theorem decode?_encodeToString (data : Data) :
    Base64.decode? (encodeToString data) = some data := by
  fun_induction encodeToString data with
  | case1 a b c rest n ih =>
    have ha := a.toNat_lt
    have hb := b.toNat_lt
    have hc := c.toNat_lt
    rw [Base64.decode?_group (value?_base64Char (by omega)) (value?_base64Char (by omega))
      (value?_base64Char (by omega)) (value?_base64Char (by omega)), ih, Option.map_some,
      ofNat_eq (a := a) (by omega), ofNat_eq (a := b) (by omega), ofNat_eq (a := c) (by omega)]
  -- two bytes over take one padding byte, one byte over takes two
  | case2 a b n =>
    have ha := a.toNat_lt
    have hb := b.toNat_lt
    have htwo := Base64.decode?_two (value?_base64Char (n := n / 262144) (by omega))
      (value?_base64Char (n := n / 4096 % 64) (by omega))
      (value?_base64Char (n := n / 64 % 64) (by omega)) (by omega)
    rw [show base64Pad = Base64.pad from rfl, htwo, ofNat_eq (a := a) (by omega),
      ofNat_eq (a := b) (by omega)]
  | case3 a n =>
    have ha := a.toNat_lt
    have hone := Base64.decode?_one (value?_base64Char (n := n / 262144) (by omega))
      (value?_base64Char (n := n / 4096 % 64) (by omega)) (by omega)
    rw [show base64Pad = Base64.pad from rfl, hone, ofNat_eq (a := a) (by omega)]
  | case4 => rfl

/-- The encoding has neither an escape nor a semicolon in it. -/
theorem mem_encodeToString {data : Data} {b : UInt8} (hb : b ∈ encodeToString data) :
    b ≠ ESC ∧ b ≠ Apc.semicolon := by
  have hpad : base64Pad ≠ ESC ∧ base64Pad ≠ Apc.semicolon := by decide
  have hchar (n : Nat) (hn : n < 64) : base64Char n ≠ ESC ∧ base64Char n ≠ Apc.semicolon := by
    -- the alphabet is small enough to look through
    have htable : ∀ i : Fin 64, base64Char i ≠ ESC ∧ base64Char i ≠ Apc.semicolon := by
      decide +kernel
    exact htable ⟨n, hn⟩
  fun_induction encodeToString data with
  | case1 a b' c rest n ih =>
    have ha := a.toNat_lt
    have hb' := b'.toNat_lt
    have hc := c.toNat_lt
    simp only [List.mem_cons] at hb
    rcases hb with rfl | rfl | rfl | rfl | hb
    · exact hchar _ (by omega)
    · exact hchar _ (by omega)
    · exact hchar _ (by omega)
    · exact hchar _ (by omega)
    · exact ih hb
  | case2 a b' n =>
    have ha := a.toNat_lt
    have hb' := b'.toNat_lt
    simp only [List.mem_cons, List.not_mem_nil, or_false] at hb
    rcases hb with rfl | rfl | rfl | rfl
    · exact hchar _ (by omega)
    · exact hchar _ (by omega)
    · exact hchar _ (by omega)
    · exact hpad
  | case3 a n =>
    have ha := a.toNat_lt
    simp only [List.mem_cons, List.not_mem_nil, or_false] at hb
    rcases hb with rfl | rfl | rfl | rfl
    · exact hchar _ (by omega)
    · exact hchar _ (by omega)
    · exact hpad
    · exact hpad
  | case4 => exact nomatch hb

/-! ## Chunks -/

/-- The chunks of a text are the text, cut after every `size` characters. -/
theorem splitChunks_spec {size : Nat} (hsize : 0 < size) (s : Bytes) :
    (splitChunks s size).flatten = s ∧ (∀ chunk ∈ splitChunks s size, chunk.length ≤ size) ∧
      ∀ chunk ∈ (splitChunks s size).dropLast, chunk.length = size := by
  fun_induction splitChunks s size with
  | case1 s h =>
    have hs : s = [] := h.resolve_right (by omega)
    rw [hs]
    exact ⟨rfl, nofun, nofun⟩
  | case2 s h ih =>
    obtain ⟨hflatten, hle, hfull⟩ := ih
    refine ⟨?_, ?_, ?_⟩
    · rw [List.flatten_cons, hflatten, List.take_append_drop]
    · intro chunk hchunk
      rcases List.mem_cons.mp hchunk with rfl | hchunk
      · exact List.length_take_le _ _
      · exact hle chunk hchunk
    · intro chunk hchunk
      -- the first chunk is full if another one follows
      by_cases hrest : splitChunks (s.drop size) size = []
      · rw [hrest] at hchunk
        exact nomatch hchunk
      · rw [List.dropLast_cons_of_ne_nil hrest] at hchunk
        rcases List.mem_cons.mp hchunk with rfl | hchunk
        · have hlong : size < s.length := by
            by_contra hshort
            have hdrop : s.drop size = [] := List.drop_eq_nil_of_le (by omega)
            rw [hdrop, splitChunks, if_pos (Or.inl rfl)] at hrest
            exact hrest rfl
          rw [List.length_take]
          omega
        · exact hfull chunk hchunk

namespace TransmitCommand

/-- What the command number `i` of `n` carries. -/
structure IsChunk (c : TransmitCommand) (n i : Nat) (apc : Apc) : Prop where
  first : i = 0 → (apc.value? "a" = some (bytes "t") ∧
    apc.int? "f" = some (formatCode c.format : Int) ∧
    apc.int? "i" = some (c.imageID.toNat : Int)) ∧
    if c.format = "rgb" ∨ c.format = "rgba" then
      apc.int? "s" = some c.width.toInt ∧ apc.int? "v" = some c.height.toInt
    else apc.value? "s" = none ∧ apc.value? "v" = none
  later : 0 < i → apc.keys.map Prod.fst = [bytes "m", bytes "q"]
  size : apc.payload.length ≤ 4096
  full : i + 1 < n → apc.payload.length = 4096
  more : i + 1 < n → apc.int? "m" = some 1
  last : i + 1 = n → if n = 1 then apc.value? "m" = none else apc.int? "m" = some 0
  clean : ESC ∉ apc.payload ∧ Apc.semicolon ∉ apc.payload

/-- The keys of the first command with their values; `more` where there are several. -/
def firstPairs (c : TransmitCommand) (more : List (String × String)) : List (String × String) :=
  [("a", "t"), ("f", toString (formatCode c.format)), ("i", toString c.imageID)] ++
    (if formatCode c.format ≠ 100 then [("s", toString c.width), ("v", toString c.height)]
      else []) ++ more ++ [("q", "2")]

/-- The keys of a later command. -/
def nextPairs (more : Nat) : List (String × String) := [("m", toString more), ("q", "2")]

/-- The commands after the first one. -/
def nextApcs : List Bytes → List Apc
  | [] => []
  | [chunk] => [⟨Apc.utf8Pairs (nextPairs 0), chunk⟩]
  | chunk :: rest => ⟨Apc.utf8Pairs (nextPairs 1), chunk⟩ :: nextApcs rest

/-- The commands of a transmission. -/
def apcs (c : TransmitCommand) (data : Data) : List Apc :=
  if (encodeToString data).length ≤ chunkSize then
    [⟨Apc.utf8Pairs (c.firstPairs []), encodeToString data⟩]
  else
    match splitChunks (encodeToString data) chunkSize with
    | [] => []
    | chunk :: rest =>
      ⟨Apc.utf8Pairs (c.firstPairs [("m", toString (if rest.isEmpty then 0 else 1))]), chunk⟩ ::
        nextApcs rest

/-! ## The text of the commands -/

/-- A further chunk is an escape sequence with the key `m`. -/
theorem nextChunk_eq (more : Nat) (chunk : Bytes) :
    nextChunk more chunk = Apc.render ⟨Apc.utf8Pairs (nextPairs more), chunk⟩ := by
  -- the fixed parts of the text, as bytes
  have hstart : bytes "\x1b_Gm=" = [0x1b, 0x5f, 0x47] ++ bytes "m=" := rfl
  have hstop : bytes ",q=2;" = bytes "," ++ bytes "q=2" ++ [Apc.semicolon] := rfl
  have hend : bytes "\x1b\\" = [ESC, 0x5c] := rfl
  have hquiet : Apc.fieldText ("q", "2") = "q=2" := rfl
  have hmore : Apc.fieldText ("m", toString more) = "m=" ++ toString more :=
    PlaceCommand.fieldText_eq rfl
  rw [nextChunk, Apc.render, ← Apc.bytes_control, nextPairs]
  simp only [List.map_cons, List.map_nil, String.intercalate_cons_cons,
    String.intercalate_singleton, hquiet, hmore]
  show bytes ("\x1b_Gm=" ++ toString more ++ ",q=2;") ++ chunk ++ bytes "\x1b\\" = _
  simp only [bytes_append, hstart, hstop, hend, List.append_assoc, List.cons_append,
    List.nil_append]

theorem nextChunks_eq (chunks : List Bytes) :
    nextChunks chunks = (nextApcs chunks).map Apc.render := by
  fun_induction nextApcs chunks with
  | case1 => rfl
  | case2 chunk => rw [nextChunks, nextChunk_eq]; rfl
  | case3 chunk rest hrest ih =>
    rw [nextChunks, nextChunk_eq, ih]
    · rfl
    · exact hrest

/-- The control data of the first command, without the last key. -/
def firstText (c : TransmitCommand) : String :=
  "a=t,f=" ++ toString (formatCode c.format) ++ ",i=" ++ toString c.imageID ++ c.sizeKeys

/-- The bytes of keys are those of their texts. -/
theorem map_field_utf8Pairs (l : List (String × String)) :
    (Apc.utf8Pairs l).map (KeyValue.field Apc.equals) = l.map fun p => bytes (Apc.fieldText p) := by
  rw [Apc.utf8Pairs, List.map_map]
  exact List.map_congr_left fun p _ => (Apc.bytes_fieldText p).symm

/-- The control data of the first command. -/
theorem control_firstPairs (c : TransmitCommand) (more : List (String × String)) :
    [Apc.comma].intercalate ((Apc.utf8Pairs (c.firstPairs more)).map
        (KeyValue.field Apc.equals)) =
      bytes c.firstText ++ more.flatMap (fun p => bytes "," ++ bytes (Apc.fieldText p)) ++
        bytes ",q=2" := by
  have hcomma : bytes "," = [Apc.comma] := rfl
  have hf : bytes (Apc.fieldText ("f", toString (formatCode c.format))) =
      bytes "f=" ++ bytes (toString (formatCode c.format)) := by
    rw [PlaceCommand.fieldText_eq (show "f" ++ "=" = "f=" from rfl), bytes_append]
  have hi : bytes (Apc.fieldText ("i", toString c.imageID)) =
      bytes "i=" ++ bytes (toString c.imageID) := by
    rw [PlaceCommand.fieldText_eq (show "i" ++ "=" = "i=" from rfl), bytes_append]
  have hsizes : (if formatCode c.format ≠ 100 then
        [("s", toString c.width), ("v", toString c.height)] else []).flatMap
        (fun p => bytes "," ++ bytes (Apc.fieldText p)) = bytes c.sizeKeys := by
    have hs : bytes (Apc.fieldText ("s", toString c.width)) =
        bytes "s=" ++ bytes (toString c.width) := by
      rw [PlaceCommand.fieldText_eq (show "s" ++ "=" = "s=" from rfl), bytes_append]
    have hv : bytes (Apc.fieldText ("v", toString c.height)) =
        bytes "v=" ++ bytes (toString c.height) := by
      rw [PlaceCommand.fieldText_eq (show "v" ++ "=" = "v=" from rfl), bytes_append]
    have hwidth : bytes ",s=" = bytes "," ++ bytes "s=" := rfl
    have hheight : bytes ",v=" = bytes "," ++ bytes "v=" := rfl
    unfold sizeKeys
    split
    · show _ = bytes (",s=" ++ toString c.width ++ ",v=" ++ toString c.height)
      simp only [List.flatMap_cons, List.flatMap_nil, hs, hv, bytes_append, hwidth, hheight,
        List.append_assoc, List.append_nil]
    · rfl
  -- the first three keys are always there, the others each come with a comma
  have hstart : bytes "a=t,f=" = bytes "a=t" ++ bytes "," ++ bytes "f=" := rfl
  have himage : bytes ",i=" = bytes "," ++ bytes "i=" := rfl
  have hlast : bytes ",q=2" = bytes "," ++ bytes "q=2" := rfl
  have ha : bytes (Apc.fieldText ("a", "t")) = bytes "a=t" := rfl
  have hq : bytes (Apc.fieldText ("q", "2")) = bytes "q=2" := rfl
  rw [map_field_utf8Pairs, firstPairs]
  simp only [List.append_assoc, List.map_append]
  rw [KeyValue.intercalate_append (by simp), ← List.map_append, ← List.map_append, List.flatMap_map,
    List.flatMap_append, List.flatMap_append, ← hcomma, hsizes]
  simp only [List.map_cons, List.map_nil, List.intercalate_cons_cons, List.intercalate_singleton,
    List.flatMap_cons, List.flatMap_nil, List.append_nil, ha, hf, hi, hq, firstText, bytes_append,
    hstart, himage, hlast, List.append_assoc]

/-- The only chunk is an escape sequence with the keys of the command. -/
theorem firstChunk_eq (c : TransmitCommand) (chunk : Bytes) :
    bytes s!"\x1b_Ga=t,f={formatCode c.format},i={c.imageID}{c.sizeKeys},q=2;" ++ chunk ++
        bytes "\x1b\\" = Apc.render ⟨Apc.utf8Pairs (c.firstPairs []), chunk⟩ := by
  have hstart : bytes "\x1b_Ga=t,f=" = [0x1b, 0x5f, 0x47] ++ bytes "a=t,f=" := rfl
  have hstop : bytes ",q=2;" = bytes ",q=2" ++ [Apc.semicolon] := rfl
  have hend : bytes "\x1b\\" = [ESC, 0x5c] := rfl
  rw [Apc.render, control_firstPairs, firstText]
  show bytes ("\x1b_Ga=t,f=" ++ toString (formatCode c.format) ++ ",i=" ++ toString c.imageID ++
    c.sizeKeys ++ ",q=2;") ++ chunk ++ bytes "\x1b\\" = _
  simp only [bytes_append, hstart, hstop, hend, List.append_assoc, List.cons_append,
    List.nil_append, List.flatMap_nil]

/-- The first of several chunks has the key `m` as well. -/
theorem firstChunk_more_eq (c : TransmitCommand) (more : Nat) (chunk : Bytes) :
    bytes s!"\x1b_Ga=t,f={formatCode c.format},i={c.imageID}{c.sizeKeys},m={more},q=2;" ++ chunk ++
        bytes "\x1b\\" =
      Apc.render ⟨Apc.utf8Pairs (c.firstPairs [("m", toString more)]), chunk⟩ := by
  -- the fixed parts of the text, as bytes
  have hstart : bytes "\x1b_Ga=t,f=" = [0x1b, 0x5f, 0x47] ++ bytes "a=t,f=" := rfl
  have hmore : bytes ",m=" = bytes "," ++ bytes "m=" := rfl
  have hstop : bytes ",q=2;" = bytes ",q=2" ++ [Apc.semicolon] := rfl
  have hend : bytes "\x1b\\" = [ESC, 0x5c] := rfl
  have hfield : Apc.fieldText ("m", toString more) = "m=" ++ toString more :=
    PlaceCommand.fieldText_eq rfl
  rw [Apc.render, control_firstPairs, firstText]
  show bytes ("\x1b_Ga=t,f=" ++ toString (formatCode c.format) ++ ",i=" ++ toString c.imageID ++
    c.sizeKeys ++ ",m=" ++ toString more ++ ",q=2;") ++ chunk ++ bytes "\x1b\\" = _
  simp only [bytes_append, hstart, hmore, hstop, hend, hfield, List.append_assoc,
    List.cons_append, List.nil_append, List.flatMap_cons, List.flatMap_nil, List.append_nil]

/-- The chunks are the commands as text. -/
theorem serializeChunks_eq (c : TransmitCommand) (data : Data) :
    c.serializeChunks data = (c.apcs data).map Apc.render := by
  by_cases hshort : (encodeToString data).length ≤ chunkSize
  · simp only [serializeChunks, apcs, hshort, ↓reduceIte, List.map_cons, List.map_nil]
    rw [firstChunk_eq]
  · simp only [serializeChunks, apcs, hshort, ↓reduceIte]
    cases splitChunks (encodeToString data) chunkSize with
    | nil => rfl
    | cons chunk rest =>
      simp only [List.map_cons]
      rw [firstChunk_more_eq, nextChunks_eq]

/-! ## What the commands carry -/

theorem length_nextApcs (chunks : List Bytes) : (nextApcs chunks).length = chunks.length := by
  fun_induction nextApcs chunks with
  | case1 => rfl
  | case2 chunk => rfl
  | case3 chunk rest hrest ih => rw [List.length_cons, ih, List.length_cons]

/-- The last chunk says that it is the last one, the others that more follow. -/
theorem getElem?_nextApcs {chunks : List Bytes} {j : Nat} {apc : Apc}
    (h : (nextApcs chunks)[j]? = some apc) :
    ∃ chunk, chunks[j]? = some chunk ∧
      apc = ⟨Apc.utf8Pairs (nextPairs (if j + 1 = chunks.length then 0 else 1)), chunk⟩ := by
  fun_induction nextApcs chunks generalizing j with
  | case1 => exact nomatch h
  | case2 chunk =>
    cases j with
    | zero => exact ⟨chunk, rfl, (Option.some.inj h).symm⟩
    | succ j => exact nomatch h
  | case3 chunk rest hrest ih =>
    cases j with
    | zero =>
      -- more chunks follow, so this one is not the last
      have hlength : 0 + 1 ≠ (chunk :: rest).length := by
        cases rest with
        | nil => exact absurd rfl hrest
        | cons => simp
      rw [if_neg hlength]
      exact ⟨chunk, rfl, (Option.some.inj h).symm⟩
    | succ j =>
      obtain ⟨chunk', hchunk, hapc⟩ := ih h
      refine ⟨chunk', hchunk, ?_⟩
      rw [hapc]
      simp

/-- The formats without a code of their own are the two raw ones. -/
theorem raw_iff (format : String) :
    formatCode format ≠ 100 ↔ format = "rgb" ∨ format = "rgba" := by
  unfold formatCode
  split
  · simp
  · simp
  · rename_i hrgb hrgba
    exact iff_of_false (by simp) fun h => h.elim hrgb hrgba

/-- A number among the keys is read back. -/
theorem int?_of_lookup {l : List (String × String)} {key : String} {n : Int} (payload : Bytes)
    (h : l.lookup key = some n.repr) : (Apc.mk (Apc.utf8Pairs l) payload).int? key = some n := by
  rw [Apc.int?, Apc.value?, Apc.lookup_utf8Pairs, h]
  exact KeyValue.parseInt?_repr n

/-- A key that is not there is not found. -/
theorem value?_of_lookup {l : List (String × String)} {key : String} (payload : Bytes)
    (h : l.lookup key = none) : (Apc.mk (Apc.utf8Pairs l) payload).value? key = none := by
  rw [Apc.value?, Apc.lookup_utf8Pairs, h]
  rfl

/-- What the first command says of the image. -/
theorem first_firstPairs (c : TransmitCommand) {more : List (String × String)}
    (hs : more.lookup "s" = none) (hv : more.lookup "v" = none) (payload : Bytes) :
    let apc : Apc := ⟨Apc.utf8Pairs (c.firstPairs more), payload⟩
    (apc.value? "a" = some (bytes "t") ∧ apc.int? "f" = some (formatCode c.format : Int) ∧
      apc.int? "i" = some (c.imageID.toNat : Int)) ∧
      if c.format = "rgb" ∨ c.format = "rgba" then
        apc.int? "s" = some c.width.toInt ∧ apc.int? "v" = some c.height.toInt
      else apc.value? "s" = none ∧ apc.value? "v" = none := by
  have haction : (c.firstPairs more).lookup "a" = some "t" := rfl
  refine ⟨⟨?_, int?_of_lookup payload rfl, int?_of_lookup payload rfl⟩, ?_⟩
  · rw [Apc.value?, Apc.lookup_utf8Pairs, haction]
    rfl
  -- the size goes with the raw formats only
  · by_cases hraw : formatCode c.format ≠ 100
    · rw [if_pos ((raw_iff c.format).mp hraw)]
      constructor
      · apply int?_of_lookup payload
        rw [firstPairs, if_pos hraw]
        rfl
      · apply int?_of_lookup payload
        rw [firstPairs, if_pos hraw]
        rfl
    · rw [if_neg (mt (raw_iff c.format).mpr hraw)]
      constructor
      · apply value?_of_lookup payload
        rw [firstPairs, if_neg hraw]
        simp [PlaceCommand.lookup_cons_if, List.lookup_append, hs]
      · apply value?_of_lookup payload
        rw [firstPairs, if_neg hraw]
        simp [PlaceCommand.lookup_cons_if, List.lookup_append, hv]

/-- The further chunks are the payloads. -/
theorem map_payload_nextApcs (chunks : List Bytes) :
    (nextApcs chunks).map Apc.payload = chunks := by
  fun_induction nextApcs chunks with
  | case1 => rfl
  | case2 chunk => rfl
  | case3 chunk rest hrest ih => rw [List.map_cons, ih]

/-- The payloads are the pieces of the encoding. -/
theorem payloads_apcs (c : TransmitCommand) (data : Data) :
    (c.apcs data).flatMap Apc.payload = encodeToString data := by
  unfold apcs
  split
  · simp
  -- the chunks together are the text that was cut
  · obtain ⟨hflatten, -⟩ := splitChunks_spec (show 0 < chunkSize by decide) (encodeToString data)
    cases hchunks : splitChunks (encodeToString data) chunkSize with
    | nil =>
      rw [hchunks] at hflatten
      exact hflatten
    | cons chunk rest =>
      rw [List.flatMap_cons, List.flatMap_def, map_payload_nextApcs]
      rw [hchunks] at hflatten
      exact hflatten

/-- No payload has an escape or a semicolon in it. -/
theorem clean_of_mem {c : TransmitCommand} {data : Data} {apc : Apc} (hapc : apc ∈ c.apcs data) :
    ESC ∉ apc.payload ∧ Apc.semicolon ∉ apc.payload := by
  have hmem : ∀ b ∈ apc.payload, b ∈ encodeToString data := by
    intro b hb
    rw [← payloads_apcs c]
    exact List.mem_flatMap.mpr ⟨apc, hapc, hb⟩
  exact ⟨fun h => (mem_encodeToString (hmem _ h)).1 rfl,
    fun h => (mem_encodeToString (hmem _ h)).2 rfl⟩

/-- A number as a value has nothing in it that would end it. -/
theorem plainText_nat {key : String}
    (hkey : Apc.equals ∉ bytes key ∧ Apc.comma ∉ bytes key ∧ Apc.semicolon ∉ bytes key) (n : Nat) :
    Apc.PlainText (key, toString n) := Apc.plainText_repr hkey n

/-- The keys of a command have nothing in them that would end them. -/
theorem plainText_firstPairs (c : TransmitCommand) {more : List (String × String)}
    (hmore : ∀ p ∈ more, Apc.PlainText p) : ∀ p ∈ c.firstPairs more, Apc.PlainText p := by
  simp only [firstPairs, List.forall_mem_append, List.forall_mem_cons]
  refine ⟨⟨⟨⟨?_, ?_, ?_, ?_⟩, ?_⟩, hmore⟩, ?_, ?_⟩
  · exact ⟨by decide, by decide⟩
  · exact plainText_nat (by decide) _
  · exact Apc.plainText_repr (by decide) c.imageID.toNat
  · exact nofun
  · split
    · intro p hp
      -- the width and the height are numbers
      rcases List.mem_cons.mp hp with rfl | hp
      · exact Apc.plainText_repr (by decide) c.width.toInt
      · rw [List.mem_singleton.mp hp]
        exact Apc.plainText_repr (by decide) c.height.toInt
    · exact nofun
  · exact ⟨by decide, by decide⟩
  · exact nofun

theorem plainText_nextPairs (more : Nat) : ∀ p ∈ nextPairs more, Apc.PlainText p := by
  simp only [nextPairs, List.forall_mem_cons]
  exact ⟨plainText_nat (by decide) more, ⟨by decide, by decide⟩, nofun⟩

/-- Every command has keys, none with a separator in it. -/
theorem plain_of_mem {c : TransmitCommand} {data : Data} {apc : Apc} (hapc : apc ∈ c.apcs data) :
    apc.keys ≠ [] ∧ Apc.Plain apc.keys := by
  unfold apcs at hapc
  split at hapc
  · rw [List.mem_singleton.mp hapc]
    exact ⟨by simp [Apc.utf8Pairs, firstPairs],
      Apc.plain_utf8Pairs (c.plainText_firstPairs nofun)⟩
  · split at hapc
    · cases hapc
    · rcases List.mem_cons.mp hapc with rfl | hapc
      · refine ⟨by simp [Apc.utf8Pairs, firstPairs],
          Apc.plain_utf8Pairs (c.plainText_firstPairs ?_)⟩
        intro p hp
        rw [List.mem_singleton.mp hp]
        exact plainText_nat (by decide) _
      · obtain ⟨j, hj⟩ := List.mem_iff_getElem?.mp hapc
        -- a later chunk has two keys only
        obtain ⟨chunk, -, rfl⟩ := getElem?_nextApcs hj
        exact ⟨by simp [Apc.utf8Pairs, nextPairs],
          Apc.plain_utf8Pairs (plainText_nextPairs _)⟩

/-- Every command is read back from its text. -/
theorem parse?_apcs (c : TransmitCommand) (data : Data) :
    (c.serializeChunks data).map Apc.parse? = (c.apcs data).map some := by
  rw [serializeChunks_eq, List.map_map]
  refine List.map_congr_left fun apc hapc => ?_
  obtain ⟨hne, hplain⟩ := plain_of_mem hapc
  exact Apc.parse?_render hne hplain (clean_of_mem hapc).1

/-- A transmission in one command. -/
theorem isChunk_single (c : TransmitCommand) {data : Data}
    (hshort : (encodeToString data).length ≤ chunkSize) {i : Nat} {apc : Apc}
    (h : (c.apcs data)[i]? = some apc) : c.IsChunk (c.apcs data).length i apc := by
  have hclean := clean_of_mem (List.mem_of_getElem? h)
  have hapcs : c.apcs data = [⟨Apc.utf8Pairs (c.firstPairs []), encodeToString data⟩] := by
    rw [apcs, if_pos hshort]
  rw [hapcs] at h ⊢
  cases i with
  | succ i => exact nomatch h
  | zero =>
    obtain rfl := Option.some.inj h
    -- a lone chunk has no `m` at all
    have hlookup : (c.firstPairs []).lookup "m" = none := by
      rw [firstPairs]
      split <;> simp [PlaceCommand.lookup_cons_if]
    exact { first := fun _ => c.first_firstPairs rfl rfl _
            later := fun hi => absurd hi (by omega)
            size := hshort
            full := fun hi => absurd hi (by simp)
            more := fun hi => absurd hi (by simp)
            last := fun _ => by
              rw [List.length_singleton, if_pos rfl]
              exact value?_of_lookup _ hlookup
            clean := hclean }

/-- A transmission in several commands. -/
theorem isChunk_several (c : TransmitCommand) {data : Data}
    (hlong : chunkSize < (encodeToString data).length) {i : Nat} {apc : Apc}
    (h : (c.apcs data)[i]? = some apc) : c.IsChunk (c.apcs data).length i apc := by
  have hclean := clean_of_mem (List.mem_of_getElem? h)
  obtain ⟨hflatten, hle, hfull⟩ :=
    splitChunks_spec (show 0 < chunkSize by decide) (encodeToString data)
  obtain ⟨chunk, rest, hchunks, hrest⟩ : ∃ chunk rest,
      splitChunks (encodeToString data) chunkSize = chunk :: rest ∧ rest ≠ [] := by
    cases hchunks : splitChunks (encodeToString data) chunkSize with
    | nil =>
      rw [hchunks] at hflatten
      rw [← hflatten] at hlong
      exact absurd hlong (by decide)
    | cons chunk rest =>
      refine ⟨chunk, rest, rfl, fun hnil => ?_⟩
      -- one chunk would hold all of the text
      have hchunk := hle chunk (hchunks ▸ List.mem_cons_self)
      rw [hchunks, hnil, List.flatten_cons, List.flatten_nil, List.append_nil] at hflatten
      rw [← hflatten] at hlong
      omega
  have hmore : rest.isEmpty = false := by simpa using hrest
  have hapcs : c.apcs data =
      ⟨Apc.utf8Pairs (c.firstPairs [("m", "1")]), chunk⟩ :: nextApcs rest := by
    rw [apcs, if_neg (by omega), hchunks]
    simp only [hmore, Bool.false_eq_true, ↓reduceIte]
    rfl
  have hlength : (c.apcs data).length = rest.length + 1 := by
    rw [hapcs, List.length_cons, length_nextApcs]
  have hpos : 0 < rest.length := List.length_pos_iff.mpr hrest
  rw [hchunks] at hle hfull
  rw [hlength]
  rw [hapcs] at h
  cases i with
  | zero =>
    obtain rfl := Option.some.inj h
    have hlookup : (c.firstPairs [("m", "1")]).lookup "m" = some "1" := by
      rw [firstPairs]
      split <;> simp [PlaceCommand.lookup_cons_if]
    have hchunk : chunk ∈ (chunk :: rest).dropLast := by
      rw [List.dropLast_cons_of_ne_nil hrest]
      exact List.mem_cons_self
    exact { first := fun _ => c.first_firstPairs rfl rfl _
            later := fun hi => absurd hi (by omega)
            size := hle chunk List.mem_cons_self
            full := fun _ => hfull chunk hchunk
            more := fun _ => int?_of_lookup _ hlookup
            last := fun hi => absurd hi (by omega)
            clean := hclean }
  | succ j =>
    obtain ⟨chunk', hchunk', rfl⟩ := getElem?_nextApcs h
    have hmem : chunk' ∈ rest := List.mem_of_getElem? hchunk'
    have hlookup (more : Nat) : (nextPairs more).lookup "m" = some (toString more) := rfl
    exact { first := fun hi => absurd hi (by omega)
            later := fun _ => rfl
            size := hle chunk' (List.mem_cons_of_mem _ hmem)
            full := fun hi => by
              apply hfull
              rw [List.dropLast_cons_of_ne_nil hrest]
              apply List.mem_cons_of_mem
              apply List.mem_of_getElem? (i := j)
              rw [List.getElem?_dropLast, if_pos (by omega)]
              exact hchunk'
            more := fun hi => by
              rw [if_neg (by omega)]
              exact int?_of_lookup _ (hlookup 1)
            last := fun hi => by
              rw [if_neg (by omega), if_pos (by omega)]
              exact int?_of_lookup _ (hlookup 0)
            clean := hclean }

/-- Every transmission is cut into commands that say what `IsChunk` says, and the payloads
    together decode to the data. -/
theorem chunks_decode (c : TransmitCommand) (data : Data) :
    ∃ apcs : List Apc, (c.serializeChunks data).map Apc.parse? = apcs.map some ∧ apcs ≠ [] ∧
      (∀ i apc, apcs[i]? = some apc → c.IsChunk apcs.length i apc) ∧
      Base64.decode? (apcs.flatMap Apc.payload) = some data := by
  refine ⟨c.apcs data, parse?_apcs c data, ?_, ?_, ?_⟩
  · intro hnil
    -- the text would be empty, and then there is one command
    have hempty : encodeToString data = [] := by
      rw [← payloads_apcs c, hnil]
      rfl
    rw [apcs, hempty] at hnil
    exact nomatch hnil
  · intro i apc h
    rcases Nat.lt_or_ge chunkSize (encodeToString data).length with hlong | hshort
    · exact isChunk_several c hlong h
    · exact isChunk_single c hshort h
  · rw [payloads_apcs, decode?_encodeToString]

end TransmitCommand

end Kgd

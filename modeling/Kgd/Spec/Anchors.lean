import Kgd.Daemon.Decode
import Kgd.Client.Anchors
import Kgd.Spec.OCamlCodec
import Kgd.Spec.ZigCodec

/-!
# Anchors mean the same on both sides

What the clients write for an anchor is a msgpack map that the daemon reads as an anchor. It is the
one that was meant unless the client spells its kind in another way than `ScreenPos`, or an integer
of the OCaml client does not fit in the 32 bits that it writes.

## Key results

- `reads_entries_map`: the entries of an anchor are read as that anchor
- `OCamlClient.conveyed_iff`, `LuaClient.conveyed_iff`, `ZigClient.conveyed`: for each client
- `anchors_agree_iff`: all of them
-/

namespace Kgd

open Msgpack ByteReader

/-! ## What an anchor means -/

/-- The kinds of anchors. -/
inductive AnchorKind
  | absolute
  | pane
  | nvimWin
  deriving DecidableEq, Repr

/-- The name that `ScreenPos` compares with. -/
def AnchorKind.name : AnchorKind → String
  | .absolute => "absolute"
  | .pane => "pane"
  | .nvimWin => "nvim_win"

/-- An anchor that is meant; what its kind does not use is zero. -/
structure LogicalAnchor where
  kind : AnchorKind
  paneID : List UInt8
  winID : Int64
  bufLine : Int64
  row : Int64
  col : Int64

namespace LogicalAnchor

/-- The anchor of this kind in the protocol. -/
def anchor (l : LogicalAnchor) : Anchor :=
  ⟨l.kind.name, goString l.paneID, l.winID, l.bufLine, l.row, l.col⟩

/-- Where such an anchor is on the screen. -/
def pos (l : LogicalAnchor) (panes : GoMap String PaneGeometry) (wins : GoMap Int64 WinGeometry)
    (termRows termCols : Int64) : ScreenPos :=
  match l.kind with
  | .absolute => l.anchor.absolutePos termRows termCols
  | .pane => l.anchor.panePos panes
  | .nvimWin => (wins[l.winID]?.map (l.anchor.winPos panes)).getD .hidden

/-- The daemon reads these bytes as the anchor that is meant, and finds it where it is meant to
    be. -/
def Conveyed (l : LogicalAnchor) (bytes : List UInt8) : Prop :=
  ∃ a, Reads Anchor.read a bytes ∧ a = l.anchor ∧
    ∀ panes wins termRows termCols,
      a.screenPos panes wins termRows termCols = l.pos panes wins termRows termCols

/-- An anchor for the daemon is where the logical one is meant to be. -/
theorem screenPos_anchor (l : LogicalAnchor) (panes : GoMap String PaneGeometry)
    (wins : GoMap Int64 WinGeometry) (termRows termCols : Int64) :
    l.anchor.screenPos panes wins termRows termCols = l.pos panes wins termRows termCols := by
  obtain ⟨kind, paneID, winID, bufLine, row, col⟩ := l
  cases kind with
  | absolute => rfl
  | pane => rfl
  | nvimWin => exact Anchor.screenPos_nvimWin rfl panes wins termRows termCols

/-- An anchor is conveyed exactly if what is read is the one that was meant. -/
theorem conveyed_iff {l : LogicalAnchor} {bytes : List UInt8} {a : Anchor}
    (h : Reads Anchor.read a bytes) : l.Conveyed bytes ↔ a = l.anchor := by
  constructor
  · intro ⟨a', ha', heq, _⟩
    rw [h.unique ha', heq]
  · intro heq
    refine ⟨a, h, heq, ?_⟩
    rw [heq]
    exact l.screenPos_anchor

end LogicalAnchor

/-! ## The entries of an anchor -/

/-- An integer field, which is left out if it is zero. -/
def intEntry (key : String) (n : Int) : List Field := if n ≠ 0 then [(utf8 key, .int n)] else []

/-- A string field, which is left out if it is empty. -/
def strEntry (key : String) (s : List UInt8) : List Field :=
  if s ≠ [] then [(utf8 key, .str s)] else []

/-- The entries of an anchor, in the order that all clients keep. -/
def anchorEntries (type : String) (paneID : List UInt8) (winID bufLine row col : Int) :
    List Field :=
  (utf8 "type", .str (utf8 type)) :: (strEntry "pane_id" paneID ++ intEntry "win_id" winID ++
    intEntry "buf_line" bufLine ++ intEntry "row" row ++ intEntry "col" col)

/-- What becomes of a field when `g` becomes of its integer. -/
def Field.mapInt (g : Int → Int) : Field → Field
  | (key, .int n) => (key, .int (g n))
  | (key, .str s) => (key, .str s)

section

variable {g : Int → Int} {a : Anchor}

/-- A number that may be left out sets its field, which is 0 otherwise. -/
theorem foldl_intEntry (hg : g 0 = 0) {key : String} {f : Int64 → Anchor}
    (hset : ∀ n, Anchor.decodeEntry (some a) (utf8 key, .int n) = some (f (.ofInt n)))
    (hzero : f 0 = a) (n : Int) :
    ((intEntry key n).map (Field.mapInt g)).foldl Anchor.decodeEntry (some a) =
      some (f (.ofInt (g n))) := by
  by_cases hn : n = 0
  · rw [intEntry, if_neg (by simp [hn]), hn, hg]
    exact congrArg some hzero.symm
  · rw [intEntry, if_pos hn]
    exact hset (g n)

theorem foldl_strEntry {key : String} {f : String → Anchor}
    (hset : ∀ s, Anchor.decodeEntry (some a) (utf8 key, .str s) = some (f (goString s)))
    (hempty : f "" = a) (s : List UInt8) :
    ((strEntry key s).map (Field.mapInt g)).foldl Anchor.decodeEntry (some a) =
      some (f (goString s)) := by
  by_cases hs : s = []
  · rw [strEntry, if_neg (by simp [hs]), hs]
    exact congrArg some hempty.symm
  · rw [strEntry, if_pos hs]
    exact hset s

/-- The entries of an anchor are read as that anchor. -/
theorem ofFields_anchorEntries (hg : g 0 = 0) {type : String}
    (htype : goString (utf8 type) = type) (paneID : List UInt8) (winID bufLine row col : Int) :
    Anchor.ofFields ((anchorEntries type paneID winID bufLine row col).map (Field.mapInt g)) =
      some ⟨type, goString paneID, .ofInt (g winID), .ofInt (g bufLine), .ofInt (g row),
        .ofInt (g col)⟩ := by
  have hfirst : Anchor.decodeEntry (some ⟨"", "", 0, 0, 0, 0⟩)
      (Field.mapInt g (utf8 "type", .str (utf8 type))) = some ⟨type, "", 0, 0, 0, 0⟩ := by
    show some (Anchor.mk (goString (utf8 type)) "" 0 0 0 0) = _
    rw [htype]
  rw [Anchor.ofFields, anchorEntries, List.map_cons, List.foldl_cons, hfirst]
  simp only [List.map_append, List.foldl_append]
  -- field by field: one that is left out has the zero value already
  rw [foldl_strEntry (f := fun s => ⟨type, s, 0, 0, 0, 0⟩) (fun _ => rfl) rfl,
    foldl_intEntry (f := fun n => ⟨type, _, n, 0, 0, 0⟩) hg (fun _ => rfl) rfl,
    foldl_intEntry (f := fun n => ⟨type, _, _, n, 0, 0⟩) hg (fun _ => rfl) rfl,
    foldl_intEntry (f := fun n => ⟨type, _, _, _, n, 0⟩) hg (fun _ => rfl) rfl,
    foldl_intEntry (f := fun n => ⟨type, _, _, _, _, n⟩) hg (fun _ => rfl) rfl]

/-- An anchor is read where its fields are. -/
theorem reads_anchor {fields : List Field} {bytes : List UInt8}
    (h : Reads readFields fields bytes) (ha : Anchor.ofFields fields = some a) :
    Reads Anchor.read a bytes := by
  rw [← List.append_nil bytes]
  unfold Anchor.read
  apply h.bind
  rw [ha]
  exact Reads.pure a

end

/-! ## Pane ids that are read -/

/-- A Go string has as many characters as bytes. -/
theorem length_goString (bytes : List UInt8) : (goString bytes).length = bytes.length := by
  rw [goString, String.length_ofList, List.length_map]

/-- The only field that changes a pane id is the pane id. -/
theorem setField_paneID {a b : Anchor} {tag : Anchor.Tag} {v : Scalar}
    (h : a.setField tag v = some b) :
    b.paneID = a.paneID ∨ ∃ s, v = .str s ∧ b.paneID = goString s := by
  cases tag with
  | paneID =>
    cases v with
    | int n => exact nomatch h
    | str s =>
      obtain rfl := Option.some.inj h
      exact .inr ⟨s, rfl, rfl⟩
  | type =>
    cases v with
    | int n => exact nomatch h
    | str s =>
      obtain rfl := Option.some.inj h
      exact .inl rfl
  -- the other tags are of numbers, and leave the pane ID
  | winID | bufLine | row | col =>
    cases v with
    | str s => exact nomatch h
    | int n =>
      obtain rfl := Option.some.inj h
      exact .inl rfl

/-- A field with a string that fits keeps the pane ID one that fits. -/
theorem short_decodeEntry {a : Option Anchor} {field : Field}
    (ha : ∀ b ∈ a, b.paneID.length < 4294967296) (hfield : field.2.Short) :
    ∀ b ∈ Anchor.decodeEntry a field, b.paneID.length < 4294967296 := by
  intro b hb
  rw [Anchor.decodeEntry] at hb
  split at hb
  · exact ha b hb
  · obtain ⟨a', ha', hset⟩ := Option.bind_eq_some_iff.mp hb
    -- the pane ID is the old one or the string just read
    rcases setField_paneID hset with heq | ⟨s, hs, heq⟩
    · rw [heq]
      exact ha a' ha'
    · rw [heq, length_goString]
      rw [hs] at hfield
      exact hfield

/-- A pane id that is read is shorter than 2^32 bytes. -/
theorem ensures_read : Ensures Anchor.read (·.paneID.length < 4294967296) := by
  -- for any record to begin with, since the fold changes it
  have hfold : ∀ (fields : List Field) (a : Option Anchor), (∀ field ∈ fields, field.2.Short) →
      (∀ b ∈ a, b.paneID.length < 4294967296) →
      ∀ b ∈ fields.foldl Anchor.decodeEntry a, b.paneID.length < 4294967296 := by
    intro fields
    induction fields with
    | nil => exact fun a _ ha => ha
    | cons field fields ih =>
      intro a hfields ha
      obtain ⟨hfield, hrest⟩ := List.forall_mem_cons.mp hfields
      exact ih _ hrest (short_decodeEntry ha hfield)
  refine ensures_readFields.bind fun fields hfields => ?_
  split
  · rename_i a ha
    apply Ensures.pure
    exact hfold fields _ hfields (by simp) a ha
  · exact Ensures.throw () _

/-! ## OCaml -/

namespace OCamlClient

/-- The number that is left of an integer in the 32 bits that `encode_int` writes. -/
def stored (n : Int) : Int := if 0 ≤ n then n % 4294967296 else Int.bmod n 4294967296

/-- The integer fits in what `encode_int` writes. -/
def FitsInt (n : Int64) : Prop := -2147483648 ≤ n.toInt ∧ n.toInt < 4294967296

/-- A number is stored as it is exactly if 32 bits hold it, signed or unsigned. -/
theorem stored_eq_iff (n : Int) : stored n = n ↔ -2147483648 ≤ n ∧ n < 4294967296 := by
  rw [stored]
  by_cases h0 : 0 ≤ n
  · rw [if_pos h0]
    omega
  · rw [if_neg h0]
    constructor
    · intro heq
      -- what is stored for a negative number is at least half the range below zero
      have hmin := Int.le_bmod (x := n) (m := 4294967296) (by omega)
      omega
    · intro hfits
      exact Int.bmod_eq_of_le (by omega) (by omega)

/-- An int arrives exactly if it fits the wire. -/
theorem ofInt_stored_iff (n : Int64) : Int64.ofInt (stored n.toInt) = n ↔ FitsInt n := by
  rw [FitsInt, ← stored_eq_iff]
  -- what is stored has 33 bits, so the 64-bit integer takes it as it is
  have hbound : -9223372036854775808 ≤ stored n.toInt ∧ stored n.toInt < 9223372036854775808 := by
    rw [stored]
    have hmin := Int.le_bmod (x := n.toInt) (m := 4294967296) (by omega)
    have hmax := Int.bmod_lt (x := n.toInt) (m := 4294967296) (by omega)
    split <;> omega
  constructor
  · intro heq
    have hint := congrArg Int64.toInt heq
    rwa [Int64.toInt_ofInt_of_le hbound.1 hbound.2] at hint
  · intro heq
    rw [heq, Int64.ofInt_toInt]

/-- An int is read as it is stored. -/
theorem reads_encodeInt (n : Int) : Reads readScalar (.int (stored n)) (encodeInt n) := by
  simp only [encodeInt, bufAddUint8_eq, bufAddUint16BE_eq, bufAddUint32BE_eq]
  -- the forms in the order of the source, the last one cut to four bytes
  split_ifs with h0 h7 h8 h16 hfix h8' h16'
  · have hn : stored n = n.toNat := by
      rw [stored, if_pos h0]
      omega
    rw [hn]
    exact reads_fixint (by omega)
  · have hn : stored n = (n.toNat % 256 ^ 1 : Nat) := by
      rw [stored, if_pos h0]
      omega
    rw [hn]
    exact reads_tag 0xcc (reads_nat 1 n.toNat)
  · have hn : stored n = (n.toNat % 256 ^ 2 : Nat) := by
      rw [stored, if_pos h0]
      omega
    rw [hn]
    exact reads_tag 0xcd (reads_nat 2 n.toNat)
  · have hn : stored n = (n.toNat % 256 ^ 4 : Nat) := by
      rw [stored, if_pos h0]
      omega
    rw [hn]
    exact reads_tag 0xce (reads_nat 4 n.toNat)
  · rw [(stored_eq_iff n).mpr (by omega)]
    exact reads_negative hfix (by omega)
  · have hn : stored n = Int.bmod (n % 0x100).toNat (256 ^ 1) := by
      rw [(stored_eq_iff n).mpr (by omega), Int.toNat_of_nonneg (by omega)]
      have hmod : Int.bmod n 256 = n := Int.bmod_eq_of_le (by omega) (by omega)
      exact hmod.symm.trans (Int.emod_bmod n 256).symm
    rw [hn]
    exact reads_tag 0xd0 (reads_int 1 (n % 0x100).toNat)
  · have hn : stored n = Int.bmod (n % 0x10000).toNat (256 ^ 2) := by
      rw [(stored_eq_iff n).mpr (by omega), Int.toNat_of_nonneg (by omega)]
      have hmod : Int.bmod n 65536 = n := Int.bmod_eq_of_le (by omega) (by omega)
      exact hmod.symm.trans (Int.emod_bmod n 65536).symm
    rw [hn]
    exact reads_tag 0xd1 (reads_int 2 (n % 0x10000).toNat)
  · have hn : stored n = Int.bmod (n % 0x100000000).toNat (256 ^ 4) := by
      rw [stored, if_neg h0, Int.toNat_of_nonneg (by omega)]
      exact (Int.emod_bmod n 4294967296).symm
    rw [hn]
    exact reads_tag 0xd2 (reads_int 4 (n % 0x100000000).toNat)

/-- A string is read as it is. -/
theorem reads_encodeStr {s : List UInt8} (h : s.length < 4294967296) :
    Reads readScalar (.str s) (encodeStr s) := by
  simp only [encodeStr, bufAddUint8_eq, bufAddUint16BE_eq, bufAddUint32BE_eq]
  split_ifs with h5 h8 h16
  · rw [fixstr_tag _ (by omega)]
    exact reads_fixstr (by omega)
  · exact reads_tag 0xd9 (reads_sized 1 (by omega))
  · exact reads_tag 0xda (reads_sized 2 (by omega))
  · exact reads_tag 0xdb (reads_sized 4 (by omega))

/-- The value of a field. -/
def scalarT : Scalar → T
  | .int n => .int n
  | .str s => .str s

/-- The pair of a field. -/
def pairT (field : Field) : T × T := (.str field.1, scalarT field.2)

/-- The fields of an anchor are written one after another. -/
theorem encodePairs_pairT (fields : List Field) :
    encodePairs (fields.map pairT) =
      fields.flatMap fun field => encodeStr field.1 ++ encode (scalarT field.2) := by
  induction fields with
  | nil => rfl
  | cons field fields ih => rw [List.map_cons, List.flatMap_cons, ← ih, pairT, encodePairs, encode]

/-- A map of fields is read with what is left of its integers. -/
theorem reads_encode {fields : List Field} (hlen : fields.length < 16)
    (h : ∀ field ∈ fields, field.1.length < 4294967296 ∧ field.2.Short) :
    Reads readFields (fields.map (Field.mapInt stored)) (encode (.map (fields.map pairT))) := by
  rw [encode, encodePairs_pairT, List.length_map]
  apply reads_fields
  · rw [encodeMapHeader, if_pos (by omega), bufAddUint8, fixmap_tag _ hlen]
    exact reads_fixmap hlen
  · rintro ⟨key, v⟩ hfield
    obtain ⟨hkey, hv⟩ := h _ hfield
    cases v with
    | int n => exact reads_field (reads_encodeStr hkey) (reads_encodeInt n)
    | str s => exact reads_field (reads_encodeStr hkey) (reads_encodeStr hv)

/-- The anchor that a value of the client stands for. -/
def Anchor.meant : Anchor → LogicalAnchor
  | .absolute row col => ⟨.absolute, [], 0, 0, row, col⟩
  | .tmuxPane paneID row col => ⟨.pane, paneID, 0, 0, row, col⟩
  | .nvimWin winID paneID bufLine col => ⟨.nvimWin, paneID, winID, bufLine, 0, col⟩

/-- The type that `anchor_to_msgpack` writes. -/
def Anchor.typeName : Anchor → String
  | .absolute .. => "absolute"
  | .tmuxPane .. => "tmux_pane"
  | .nvimWin .. => "nvim_win"

/-- The client writes what it means: it spells the kind as the daemon does, and every field fits in
    its form. -/
def Anchor.Agrees : Anchor → Prop
  | .absolute row col => FitsInt row ∧ FitsInt col
  | .tmuxPane .. => False
  | .nvimWin winID paneID bufLine col =>
    paneID.length < 4294967296 ∧ FitsInt winID ∧ FitsInt bufLine ∧ FitsInt col

/-- A number that is 0 is left out. -/
theorem addInt_eq (fields : List Field) (key : String) (n : Int64) :
    addInt (fields.map pairT) key n = (fields ++ intEntry key n.toInt).map pairT := by
  have hzero : n.toInt = 0 ↔ n = 0 := by
    rw [← Int64.toInt_zero, Int64.toInt_inj]
  by_cases hn : n = 0
  · rw [addInt, if_neg (by simp [hn]), intEntry, if_neg (by simp [hn]), List.append_nil]
  · rw [addInt, if_pos hn, intEntry, if_pos (by rwa [Ne, hzero]), List.map_append]
    rfl

theorem addStr_eq (fields : List Field) (key : String) (s : List UInt8) :
    addStr (fields.map pairT) key s = (fields ++ strEntry key s).map pairT := by
  by_cases hs : s = []
  · rw [addStr, if_neg (by simp [hs]), strEntry, if_neg (by simp [hs]), List.append_nil]
  · rw [addStr, if_pos hs, strEntry, if_pos hs, List.map_append]
    rfl

/-- The entries that a client writes for what it means. -/
def Anchor.entries (a : Anchor) : List Field :=
  anchorEntries a.typeName a.meant.paneID a.meant.winID.toInt a.meant.bufLine.toInt
    a.meant.row.toInt a.meant.col.toInt

/-- An anchor is the map of its entries. -/
theorem anchorToMsgpack_eq (a : Anchor) : anchorToMsgpack a = .map (a.entries.map pairT) := by
  have htype : ∀ type, [(str "type", str type)] =
      [((utf8 "type", .str (utf8 type)) : Field)].map pairT := fun _ => rfl
  -- a field the form does not have is zero, and has no entry
  have hzero : ∀ key, intEntry key (Int64.toInt 0) = [] := fun _ => rfl
  cases a with
  | absolute row col =>
    simp only [anchorToMsgpack, htype, addInt_eq]
    rfl
  | tmuxPane paneID row col =>
    simp only [anchorToMsgpack, htype, addInt_eq, addStr_eq]
    simp only [Anchor.entries, anchorEntries, Anchor.meant, hzero, List.append_nil]
    rfl
  | nvimWin winID paneID bufLine col =>
    simp only [anchorToMsgpack, htype, addInt_eq, addStr_eq]
    simp only [Anchor.entries, anchorEntries, Anchor.meant, hzero, List.append_nil]
    rfl

end OCamlClient

/-! ## Keys -/

/-- An anchor has few entries. -/
theorem length_anchorEntries_lt (type : String) (paneID : List UInt8)
    (winID bufLine row col : Int) :
    (anchorEntries type paneID winID bufLine row col).length < 16 := by
  -- each optional field has one entry at most
  have hint : ∀ key n, (intEntry key n).length ≤ 1 := by
    intro key n
    rw [intEntry]
    split <;> simp
  have hstr : (strEntry "pane_id" paneID).length ≤ 1 := by
    rw [strEntry]
    split <;> simp
  have hwin := hint "win_id" winID
  have hline := hint "buf_line" bufLine
  have hrow := hint "row" row
  have hcol := hint "col" col
  simp only [anchorEntries, List.length_cons, List.length_append]
  omega

/-- The keys are among the tags, and every string but the pane id is short. -/
theorem mem_anchorEntries {type : String} {paneID : List UInt8} {winID bufLine row col : Int}
    (htype : (utf8 type).length < 4294967296) (hpane : paneID.length < 4294967296) :
    ∀ field ∈ anchorEntries type paneID winID bufLine row col,
      field.1.length < 4294967296 ∧ field.2.Short := by
  -- every entry but the first is left out or has one of the known names
  have hint : ∀ key n, (utf8 key).length < 4294967296 →
      ∀ field ∈ intEntry key n, field.1.length < 4294967296 ∧ field.2.Short := by
    intro key n hkey field hfield
    rw [intEntry] at hfield
    split at hfield
    · obtain rfl := List.mem_singleton.mp hfield
      exact ⟨hkey, trivial⟩
    · exact nomatch hfield
  have hstr : ∀ field ∈ strEntry "pane_id" paneID,
      field.1.length < 4294967296 ∧ field.2.Short := by
    intro field hfield
    rw [strEntry] at hfield
    split at hfield
    · obtain rfl := List.mem_singleton.mp hfield
      exact ⟨show (utf8 "pane_id").length < 4294967296 by decide, hpane⟩
    · exact nomatch hfield
  intro field hfield
  simp only [anchorEntries, List.mem_cons, List.mem_append] at hfield
  rcases hfield with rfl | (((hpane | hwin) | hline) | hrow) | hcol
  · exact ⟨show (utf8 "type").length < 4294967296 by decide, htype⟩
  · exact hstr field hpane
  · exact hint _ _ (by decide) field hwin
  · exact hint _ _ (by decide) field hline
  · exact hint _ _ (by decide) field hrow
  · exact hint _ _ (by decide) field hcol

/-- No key is written twice. -/
theorem nodup_anchorEntries (type : String) (paneID : List UInt8)
    (winID bufLine row col : Int) :
    ((anchorEntries type paneID winID bufLine row col).map
      fun field => goString field.1).Nodup := by
  have hint : ∀ key n, ((intEntry key n).map fun field => goString field.1).Sublist
      [goString (utf8 key)] := by
    intro key n
    rw [intEntry]
    split
    · exact List.Sublist.refl _
    · exact List.nil_sublist _
  have hstr : ((strEntry "pane_id" paneID).map fun field => goString field.1).Sublist
      [goString (utf8 "pane_id")] := by
    rw [strEntry]
    split
    · exact List.Sublist.refl _
    · exact List.nil_sublist _
  -- those that are not left out are some of these, in this order
  have hall : ["type", "pane_id", "win_id", "buf_line", "row", "col"].Nodup := by decide
  refine List.Nodup.sublist ?_ hall
  simp only [anchorEntries, List.map_cons, List.map_append]
  apply List.Sublist.cons_cons
  exact (((hstr.append (hint "win_id" winID)).append (hint "buf_line" bufLine)).append
    (hint "row" row)).append (hint "col" col)

/-! ## The OCaml client -/

namespace OCamlClient

/-- 0 fits the wire. -/
theorem fitsInt_zero : FitsInt 0 := ⟨by decide, by decide⟩

/-- What the daemon reads of an anchor. -/
theorem reads_anchorToMsgpack {a : Anchor} (h : a.meant.paneID.length < 4294967296) :
    Reads Kgd.Anchor.read ⟨a.typeName, goString a.meant.paneID, .ofInt (stored a.meant.winID.toInt),
      .ofInt (stored a.meant.bufLine.toInt), .ofInt (stored a.meant.row.toInt),
      .ofInt (stored a.meant.col.toInt)⟩ (encode (anchorToMsgpack a)) := by
  have htype : (utf8 a.typeName).length < 4294967296 ∧
      goString (utf8 a.typeName) = a.typeName := by
    cases a <;> exact ⟨by simp only [Anchor.typeName]; decide, rfl⟩
  rw [anchorToMsgpack_eq]
  apply reads_anchor
  · exact reads_encode (length_anchorEntries_lt _ _ _ _ _ _) (mem_anchorEntries htype.1 h)
  · exact ofFields_anchorEntries rfl htype.2 _ _ _ _ _

/-- The daemon reads the anchor that is meant exactly if the client writes what it means. -/
theorem conveyed_iff (a : Anchor) :
    a.meant.Conveyed (encode (anchorToMsgpack a)) ↔ a.Agrees := by
  by_cases hpane : a.meant.paneID.length < 4294967296
  · rw [LogicalAnchor.conveyed_iff (reads_anchorToMsgpack hpane), LogicalAnchor.anchor,
      Kgd.Anchor.mk.injEq]
    rw [ofInt_stored_iff, ofInt_stored_iff, ofInt_stored_iff, ofInt_stored_iff]
    cases a with
    | absolute row col =>
      exact ⟨fun h => ⟨h.2.2.2.2.1, h.2.2.2.2.2⟩,
        fun h => ⟨rfl, rfl, fitsInt_zero, fitsInt_zero, h.1, h.2⟩⟩
    | tmuxPane paneID row col =>
      -- the daemon knows no such kind
      have hkind : "tmux_pane" ≠ "pane" := by decide
      exact ⟨fun h => absurd h.1 hkind, False.elim⟩
    | nvimWin winID paneID bufLine col =>
      exact ⟨fun h => ⟨hpane, h.2.2.1, h.2.2.2.1, h.2.2.2.2.2⟩,
        fun h => ⟨rfl, rfl, h.2.1, h.2.2.1, fitsInt_zero, h.2.2.2⟩⟩
  · constructor
    · intro ⟨b, hb, heq, _⟩
      -- no pane id that long is ever read
      have hshort := ensures_read (hb [])
      rw [heq, LogicalAnchor.anchor, length_goString] at hshort
      exact absurd hshort hpane
    · intro h
      cases a with
      | absolute row col => exact absurd (show 0 < 4294967296 by decide) hpane
      | tmuxPane paneID row col => exact h.elim
      | nvimWin winID paneID bufLine col => exact absurd h.1 hpane

end OCamlClient

/-! ## The order of the entries -/

/-- A tag that is found by its name has that name. -/
theorem Tag.name_of_ofName? {name : String} {tag : Anchor.Tag}
    (h : Anchor.Tag.ofName? name = some tag) : tag.name = name := by
  have hfound := List.find?_some h
  exact eq_of_beq hfound

/-- Two fields can be set in either order. -/
theorem setField_comm {tag tag' : Anchor.Tag} (h : tag ≠ tag') (a : Anchor) (v v' : Scalar) :
    ((a.setField tag v).bind fun a => a.setField tag' v') =
      (a.setField tag' v').bind fun a => a.setField tag v := by
  cases tag <;> cases tag' <;> cases v <;> cases v' <;> first | rfl | exact absurd rfl h

/-- The order of fields with different names does not matter. -/
theorem decodeEntry_comm {field field' : Field} (h : goString field.1 ≠ goString field'.1)
    (a : Option Anchor) :
    Anchor.decodeEntry (Anchor.decodeEntry a field) field' =
      Anchor.decodeEntry (Anchor.decodeEntry a field') field := by
  simp only [Anchor.decodeEntry]
  cases htag : Anchor.Tag.ofName? (goString field.1) with
  | none => rfl
  | some tag =>
    cases htag' : Anchor.Tag.ofName? (goString field'.1) with
    | none => rfl
    | some tag' =>
      -- different names are those of different fields
      have hne : tag ≠ tag' := by
        intro heq
        apply h
        rw [← Tag.name_of_ofName? htag, ← Tag.name_of_ofName? htag', heq]
      dsimp only
      rw [Option.bind_assoc, Option.bind_assoc]
      exact congrArg a.bind (funext fun b => setField_comm hne b field.2 field'.2)

/-- Entries with different keys are decoded alike in any order. -/
theorem ofFields_perm {fields fields' : List Field} (h : fields.Perm fields')
    (hnodup : (fields'.map fun field => goString field.1).Nodup) :
    Anchor.ofFields fields = Anchor.ofFields fields' := by
  apply (List.Perm.foldl_eq' h.symm _ _).symm
  intro x hx y hy a
  by_cases hkey : goString x.1 = goString y.1
  · rw [List.inj_on_of_nodup_map hnodup hx hy hkey]
  · exact decodeEntry_comm hkey a

/-! ## The Lua client -/

namespace LuaClient

/-- `mp.pack`: what it returns for a table is a map of its fields, in whatever order. -/
def Packs (pack : List Field → Option (List UInt8)) : Prop :=
  ∀ table bytes, pack table = some bytes →
    ∃ fields, fields.Perm table ∧ Reads readFields fields bytes

/-- The anchor that a call of a constructor stands for. -/
def Anchor.meant : Anchor → LogicalAnchor
  | .absolute row col => ⟨.absolute, [], 0, 0, row.getD 0, col.getD 0⟩
  | .pane paneID row col => ⟨.pane, paneID.getD [], 0, 0, row.getD 0, col.getD 0⟩
  | .win winID bufLine col => ⟨.nvimWin, [], winID.getD 0, bufLine.getD 0, 0, col.getD 0⟩

/-- The type that the constructor sets. -/
def Anchor.typeName : Anchor → String
  | .absolute .. => "absolute"
  | .pane .. => "pane"
  | .win .. => "win"

/-- The constructor spells the kind as the daemon does. -/
def Anchor.Agrees : Anchor → Prop
  | .absolute .. | .pane .. => True
  | .win .. => False

/-- A number that is 0, or not given, is left out. -/
theorem setInt_eq (a : List Field) (key : String) (n : Option Int64) :
    setInt a key n = a ++ intEntry key (n.getD 0).toInt := by
  cases n with
  | none => exact (List.append_nil a).symm
  | some n =>
    have hzero : n.toInt = 0 ↔ n = 0 := by
      rw [← Int64.toInt_zero, Int64.toInt_inj]
    by_cases hn : n = 0
    · rw [setInt, if_neg (by simp [hn]), Option.getD_some, intEntry, if_neg (by simp [hn]),
        List.append_nil]
    · rw [setInt, if_pos hn, Option.getD_some, intEntry, if_pos (by rwa [Ne, hzero])]

theorem setStr_eq (a : List Field) (key : String) (s : Option (List UInt8)) :
    setStr a key s = a ++ strEntry key (s.getD []) := by
  cases s with
  | none => exact (List.append_nil a).symm
  | some s =>
    by_cases hs : s = []
    · rw [setStr, if_neg (by simp [hs]), Option.getD_some, strEntry, if_neg (by simp [hs]),
        List.append_nil]
    · rw [setStr, if_pos hs, Option.getD_some, strEntry, if_pos hs]

/-- The table of an anchor is that of the entries it means. -/
theorem table_eq (a : Anchor) :
    a.table = anchorEntries a.typeName a.meant.paneID a.meant.winID.toInt a.meant.bufLine.toInt
      a.meant.row.toInt a.meant.col.toInt := by
  have hzero : ∀ key, intEntry key (Int64.toInt 0) = [] := fun _ => rfl
  cases a with
  | absolute row col =>
    simp only [Anchor.table, setInt_eq, anchorEntries, Anchor.meant, hzero, List.append_nil]
    rfl
  | pane paneID row col =>
    simp only [Anchor.table, setInt_eq, setStr_eq, anchorEntries, Anchor.meant, hzero,
      List.append_nil]
    rfl
  | win winID bufLine col =>
    simp only [Anchor.table, setInt_eq, anchorEntries, Anchor.meant, hzero, List.append_nil]
    rfl

/-- The daemon reads the anchor that is meant exactly if the constructor spells its kind as the
    daemon does. -/
theorem conveyed_iff {pack : List Field → Option (List UInt8)} (hpack : Packs pack) {a : Anchor}
    {bytes : List UInt8} (h : pack a.table = some bytes) :
    a.meant.Conveyed bytes ↔ a.Agrees := by
  obtain ⟨fields, hperm, hreads⟩ := hpack _ _ h
  rw [table_eq] at hperm
  have htype : goString (utf8 a.typeName) = a.typeName := by
    cases a <;> rfl
  have hfields := ofFields_anchorEntries (g := id) rfl htype a.meant.paneID a.meant.winID.toInt
    a.meant.bufLine.toInt a.meant.row.toInt a.meant.col.toInt
  have hid : ∀ fields : List Field, fields.map (Field.mapInt id) = fields := by
    intro fields
    apply List.map_id''
    intro (key, v)
    cases v <;> rfl
  rw [hid, ← ofFields_perm hperm (nodup_anchorEntries _ _ _ _ _ _)] at hfields
  simp only [id, Int64.ofInt_toInt] at hfields
  rw [LogicalAnchor.conveyed_iff (reads_anchor hreads hfields), LogicalAnchor.anchor,
    Kgd.Anchor.mk.injEq]
  cases a with
  | absolute row col => exact ⟨fun _ => trivial, fun _ => ⟨rfl, rfl, rfl, rfl, rfl, rfl⟩⟩
  | pane paneID row col => exact ⟨fun _ => trivial, fun _ => ⟨rfl, rfl, rfl, rfl, rfl, rfl⟩⟩
  | win winID bufLine col =>
    -- the source sends a type that the daemon does not know
    have hkind : "win" ≠ "nvim_win" := by decide
    exact ⟨fun h => absurd h.1 hkind, False.elim⟩

end LuaClient

/-! ## The Zig client -/

namespace ZigClient

def AnchorType.kind : AnchorType → AnchorKind
  | .absolute => .absolute
  | .pane => .pane
  | .nvimWin => .nvimWin

/-- The anchor that a value of the client stands for. -/
def Anchor.meant (a : Anchor) : LogicalAnchor :=
  ⟨a.type.kind, a.paneID, .ofInt a.winID.toInt, .ofInt a.bufLine.toInt, .ofInt a.row.toInt,
    .ofInt a.col.toInt⟩

/-- The bytes of a field. -/
def writeField (field : Field) : List UInt8 :=
  writeStr field.1 ++ match field.2 with
    | .int n => writeInt n
    | .str s => writeStr s

/-- The bytes of a number that may be left out. -/
theorem writeIntField_eq (key : String) (n : Int32) :
    writeIntField key n = (intEntry key n.toInt).flatMap writeField := by
  have hzero : n.toInt = 0 ↔ n = 0 := by
    rw [← Int32.toInt_zero, Int32.toInt_inj]
  by_cases hn : n = 0
  · rw [writeIntField, if_neg (by simp [hn]), intEntry, if_neg (by simp [hn]), List.flatMap_nil]
  · rw [writeIntField, if_pos hn, intEntry, if_pos (by rwa [Ne, hzero]), List.flatMap_singleton]
    rfl

/-- The entries that `encodeAnchor` writes. -/
def Anchor.entries (a : Anchor) : List Field :=
  anchorEntries a.type.toString a.paneID a.winID.toInt a.bufLine.toInt a.row.toInt a.col.toInt

/-- The count of the map is the number of entries. -/
theorem mapCount_eq (a : Anchor) : a.mapCount = a.entries.length := by
  -- the count adds one under the test the field is written under
  have hint : ∀ key (n : Int32), (intEntry key n.toInt).length = if n ≠ 0 then 1 else 0 := by
    intro key n
    have hzero : n.toInt = 0 ↔ n = 0 := by
      rw [← Int32.toInt_zero, Int32.toInt_inj]
    by_cases hn : n = 0
    · rw [intEntry, if_neg (by simp [hn]), if_neg (by simp [hn]), List.length_nil]
    · rw [intEntry, if_pos (by rwa [Ne, hzero]), if_pos hn, List.length_singleton]
  have hstr : (strEntry "pane_id" a.paneID).length = if 0 < a.paneID.length then 1 else 0 := by
    rw [strEntry]
    cases a.paneID <;> rfl
  simp only [Anchor.entries, anchorEntries, List.length_cons, List.length_append, hint, hstr,
    Anchor.mapCount]
  split_ifs <;> rfl

/-- An anchor is written as the map of its entries. -/
theorem encodeAnchor_eq (a : Anchor) :
    encodeAnchor a = writeMapHeader a.entries.length ++ a.entries.flatMap writeField := by
  have hpane : (if 0 < a.paneID.length then writeStr (utf8 "pane_id") ++ writeStr a.paneID
      else []) = (strEntry "pane_id" a.paneID).flatMap writeField := by
    cases hp : a.paneID with
    | nil => rfl
    | cons b s => exact (List.append_nil _).symm
  have htype : ∀ key s, writeField (key, .str s) = writeStr key ++ writeStr s := fun _ _ => rfl
  rw [encodeAnchor, mapCount_eq, hpane]
  simp only [writeIntField_eq, Anchor.entries, anchorEntries, List.flatMap_cons,
    List.flatMap_append, List.append_assoc, htype]

/-- The Zig and the OCaml client write strings alike. -/
theorem writeStr_eq (s : List UInt8) : writeStr s = OCamlClient.encodeStr s := by
  have hfix : ∀ len < 32, (0xa0 ||| UInt8.ofNat len) = UInt8.ofNat (0xa0 ||| len) := by decide
  simp only [writeStr, OCamlClient.encodeStr, OCamlClient.bufAddUint8_eq,
    OCamlClient.bufAddUint16BE_eq, OCamlClient.bufAddUint32BE_eq]
  split_ifs with h5 h8 h16
  · rw [hfix _ (by omega)]
    rfl
  · rfl
  · rfl
  · rfl

/-- The Zig and the OCaml client write numbers alike, if these are not negative. -/
theorem writeUint_eq {n : Int} (h : 0 ≤ n) : writeUint n.toNat = OCamlClient.encodeInt n := by
  have h7 : n.toNat ≤ 0x7f ↔ n ≤ 0x7f := by omega
  have h8 : n.toNat ≤ 0xff ↔ n ≤ 0xff := by omega
  have h16 : n.toNat ≤ 0xffff ↔ n ≤ 0xffff := by omega
  rw [OCamlClient.encodeInt, if_pos h, writeUint]
  simp only [h7, h8, h16, OCamlClient.bufAddUint8_eq, OCamlClient.bufAddUint16BE_eq,
    OCamlClient.bufAddUint32BE_eq]
  rfl

/-- Adding the range of its type to a negative number is taking the residue. -/
theorem toNat_add {n m : Int} (hmin : -m ≤ n) (hneg : n < 0) : (n + m).toNat = (n % m).toNat := by
  rw [← Int.add_emod_right, Int.emod_eq_of_lt (by omega) (by omega)]

/-- In 32 bits, integers are written as in OCaml. -/
theorem writeInt_eq {n : Int} (hmin : -2147483648 ≤ n) :
    writeInt n = OCamlClient.encodeInt n := by
  by_cases h0 : 0 ≤ n
  · rw [writeInt, if_pos h0, writeUint_eq h0]
  rw [writeInt, OCamlClient.encodeInt, if_neg h0, if_neg h0]
  simp only [OCamlClient.bufAddUint8_eq, OCamlClient.bufAddUint16BE_eq,
    OCamlClient.bufAddUint32BE_eq]
  -- both clients test the same bounds, and differ in how they take a two's complement
  by_cases h5 : -32 ≤ n
  · rw [if_pos h5, if_pos h5, toNat_add (by omega) (by omega)]
    rfl
  rw [if_neg h5, if_neg h5]
  by_cases h8 : -128 ≤ n
  · rw [if_pos h8, if_pos h8, toNat_add (by omega) (by omega)]
    rfl
  rw [if_neg h8, if_neg h8]
  by_cases h16 : -32768 ≤ n
  · rw [if_pos h16, if_pos h16, toNat_add (by omega) (by omega)]
    rfl
  · rw [if_neg h16, if_neg h16, toNat_add (by omega) (by omega)]
    rfl

/-- A field is read back. -/
theorem reads_writeField {key : List UInt8} {v : Scalar} (hkey : key.length < 4294967296)
    (hv : v.Short) (hint : ∀ n, v = .int n → -2147483648 ≤ n ∧ n < 2147483648) :
    Reads readField (key, v) (writeField (key, v)) := by
  rw [writeField, writeStr_eq]
  cases v with
  | int n =>
    -- 32 bits, so the Zig and the OCaml encoder write the same bytes
    obtain ⟨hmin, hmax⟩ := hint n rfl
    have hn := OCamlClient.reads_encodeInt n
    rw [(OCamlClient.stored_eq_iff n).mpr ⟨hmin, by omega⟩, ← writeInt_eq hmin] at hn
    exact reads_field (OCamlClient.reads_encodeStr hkey) hn
  | str s =>
    dsimp only
    rw [writeStr_eq]
    exact reads_field (OCamlClient.reads_encodeStr hkey) (OCamlClient.reads_encodeStr hv)

/-- A map of so few fields is read as it was written. -/
theorem reads_writeFields {fields : List Field} (hlen : fields.length < 16)
    (h : ∀ field ∈ fields, field.1.length < 4294967296 ∧ field.2.Short)
    (hint : ∀ field ∈ fields, ∀ n, field.2 = .int n → -2147483648 ≤ n ∧ n < 2147483648) :
    Reads readFields fields (writeMapHeader fields.length ++ fields.flatMap writeField) := by
  have hfix : ∀ len < 16, (0x80 ||| UInt8.ofNat len) = UInt8.ofNat (0x80 + len) := by decide
  have hheader : Reads readMapHeader fields.length (writeMapHeader fields.length) := by
    rw [writeMapHeader, if_pos (by omega), hfix _ hlen]
    exact reads_fixmap hlen
  have hfields : ∀ field ∈ fields, Reads readField (id field) (writeField field) :=
    fun field hfield => reads_writeField (h field hfield).1 (h field hfield).2 (hint field hfield)
  have hread := reads_fields hheader hfields
  rwa [List.map_id] at hread

/-- The numbers in an anchor are of 32 bits. -/
theorem mem_entries_int {a : Anchor} : ∀ field ∈ a.entries, ∀ n, field.2 = .int n →
    -2147483648 ≤ n ∧ n < 2147483648 := by
  -- a number comes from an `i32`, whichever field it is in
  have hint : ∀ key (m : Int32), ∀ field ∈ intEntry key m.toInt, ∀ n, field.2 = .int n →
      -2147483648 ≤ n ∧ n < 2147483648 := by
    intro key m field hfield n hn
    rw [intEntry] at hfield
    split at hfield
    · obtain rfl := List.mem_singleton.mp hfield
      obtain rfl := Scalar.int.inj hn
      exact ⟨m.le_toInt, m.toInt_lt⟩
    · exact nomatch hfield
  intro field hfield n hn
  simp only [Anchor.entries, anchorEntries, List.mem_cons, List.mem_append] at hfield
  rcases hfield with rfl | (((hpane | hwin) | hline) | hrow) | hcol
  · exact nomatch hn
  · rw [strEntry] at hpane
    split at hpane
    · obtain rfl := List.mem_singleton.mp hpane
      exact nomatch hn
    · exact nomatch hpane
  · exact hint _ _ field hwin n hn
  · exact hint _ _ field hline n hn
  · exact hint _ _ field hrow n hn
  · exact hint _ _ field hcol n hn

/-- The daemon reads every anchor as it is meant. -/
theorem conveyed {a : Anchor} (h : a.paneID.length < 4294967296) :
    a.meant.Conveyed (encodeAnchor a) := by
  have htype : (utf8 a.type.toString).length < 4294967296 ∧
      goString (utf8 a.type.toString) = a.type.toString ∧
      a.type.toString = a.type.kind.name := by
    cases a.type <;> exact ⟨by simp only [AnchorType.toString]; decide, rfl, rfl⟩
  have hreads := reads_writeFields (length_anchorEntries_lt _ _ _ _ _ _)
    (mem_anchorEntries htype.1 h) (mem_entries_int (a := a))
  -- nothing is lost on the wire
  have hid : ∀ fields : List Field, fields.map (Field.mapInt id) = fields := by
    intro fields
    apply List.map_id''
    intro (key, v)
    cases v <;> rfl
  have hfields := ofFields_anchorEntries (g := id) rfl htype.2.1 a.paneID a.winID.toInt
    a.bufLine.toInt a.row.toInt a.col.toInt
  rw [hid] at hfields
  rw [encodeAnchor_eq, Anchor.entries,
    LogicalAnchor.conveyed_iff (reads_anchor hreads hfields), htype.2.2]
  rfl

end ZigClient

/-! ## All clients -/

/-- What a client writes for an anchor is read as the anchor that is meant: by the OCaml client
    exactly if it is no tmux pane and each field fits in its form, by the Lua client exactly if it
    is no window, by the Zig client always. -/
theorem anchors_agree_iff {pack : List Field → Option (List UInt8)} (hpack : LuaClient.Packs pack)
    (o : OCamlClient.Anchor) {l : LuaClient.Anchor} {bytes : List UInt8}
    (hl : pack l.table = some bytes) {z : ZigClient.Anchor} (hz : z.paneID.length < 4294967296) :
    (o.meant.Conveyed (OCamlClient.encode (OCamlClient.anchorToMsgpack o)) ↔ o.Agrees) ∧
    (l.meant.Conveyed bytes ↔ l.Agrees) ∧
    z.meant.Conveyed (ZigClient.encodeAnchor z) :=
  ⟨OCamlClient.conveyed_iff o, LuaClient.conveyed_iff hpack hl, ZigClient.conveyed hz⟩

/-- The key is a short string, and the value one of at most 32 bits or a short string. -/
def Field.small (field : Field) : Bool :=
  decide (field.1.length < 32) && match field.2 with
    | .int n => decide (-2147483648 ≤ n) && decide (n < 2147483648)
    | .str s => decide (s.length < 32)

/-- A `mp.pack` for small tables. -/
def LuaClient.packSmall (table : List Field) : Option (List UInt8) :=
  if table.length < 16 ∧ table.all Field.small = true then
    some (ZigClient.writeMapHeader table.length ++ table.flatMap ZigClient.writeField)
  else none

/-- The small packer follows the laws of the library. -/
theorem LuaClient.packs_packSmall : LuaClient.Packs LuaClient.packSmall := by
  intro table bytes h
  rw [packSmall] at h
  split at h
  · rename_i hsmall
    -- what is small enough is written as the Zig client writes it
    obtain ⟨hlen, hfields⟩ := hsmall
    obtain rfl := Option.some.inj h
    rw [List.all_eq_true] at hfields
    refine ⟨table, List.Perm.refl _, ZigClient.reads_writeFields hlen ?_ ?_⟩
    · intro (key, v) hfield
      have hsmall := hfields _ hfield
      cases v with
      | int n =>
        simp only [Field.small, Bool.and_eq_true, decide_eq_true_eq] at hsmall
        exact ⟨show key.length < 4294967296 by omega, trivial⟩
      | str s =>
        simp only [Field.small, Bool.and_eq_true, decide_eq_true_eq] at hsmall
        exact ⟨show key.length < 4294967296 by omega, show s.length < 4294967296 by omega⟩
    · intro (key, v) hfield n hn
      have hsmall := hfields _ hfield
      dsimp only at hn
      rw [hn] at hsmall
      simp only [Field.small, Bool.and_eq_true, decide_eq_true_eq] at hsmall
      exact hsmall.2
  · exact nomatch h

/-- A window in OCaml, a pane in Lua, and a pane in Zig. -/
theorem anchors_agree_panes :
    (OCamlClient.Anchor.nvimWin 1000 [] 12 3).meant.Conveyed
      (OCamlClient.encode (OCamlClient.anchorToMsgpack (.nvimWin 1000 [] 12 3))) ∧
    (∃ bytes, LuaClient.packSmall (LuaClient.Anchor.pane (some (utf8 "%0")) (some 2) none).table =
        some bytes ∧
      (LuaClient.Anchor.pane (some (utf8 "%0")) (some 2) none).meant.Conveyed bytes) ∧
    (ZigClient.Anchor.mk .pane (utf8 "%0") 0 0 2 (-1)).meant.Conveyed
      (ZigClient.encodeAnchor ⟨.pane, utf8 "%0", 0, 0, 2, -1⟩) := by
  have hl : LuaClient.packSmall (LuaClient.Anchor.pane (some (utf8 "%0")) (some 2) none).table =
      some (ZigClient.encodeAnchor ⟨.pane, utf8 "%0", 0, 0, 2, 0⟩) := by decide
  have hz : (ZigClient.Anchor.mk .pane (utf8 "%0") 0 0 2 (-1)).paneID.length < 4294967296 := by
    decide
  have hagree := anchors_agree_iff LuaClient.packs_packSmall (.nvimWin 1000 [] 12 3) hl hz
  have hsmall : (OCamlClient.Anchor.nvimWin 1000 [] 12 3).Agrees :=
    ⟨by decide, ⟨by decide, by decide⟩, ⟨by decide, by decide⟩, by decide, by decide⟩
  exact ⟨hagree.1.mpr hsmall, ⟨_, hl, hagree.2.1.mpr trivial⟩, hagree.2.2⟩

/-- A tmux pane of the OCaml client and a window of the Lua client are never shown; a row from
    2^32 on is another row. -/
theorem anchors_disagree :
    ¬ (OCamlClient.Anchor.tmuxPane (utf8 "%0") 2 0).meant.Conveyed
      (OCamlClient.encode (OCamlClient.anchorToMsgpack (.tmuxPane (utf8 "%0") 2 0))) ∧
    ¬ (OCamlClient.Anchor.absolute 4294967296 0).meant.Conveyed
      (OCamlClient.encode (OCamlClient.anchorToMsgpack (.absolute 4294967296 0))) ∧
    ∃ bytes, LuaClient.packSmall (LuaClient.Anchor.win (some 1000) (some 12) none).table =
        some bytes ∧
      ¬ (LuaClient.Anchor.win (some 1000) (some 12) none).meant.Conveyed bytes := by
  have hl : (LuaClient.packSmall
      (LuaClient.Anchor.win (some 1000) (some 12) none).table).isSome = true := by decide
  obtain ⟨bytes, hbytes⟩ := Option.isSome_iff_exists.mp hl
  -- a type the daemon does not know, a number that does not fit, and a type again
  refine ⟨?_, ?_, bytes, hbytes, ?_⟩
  · rw [OCamlClient.conveyed_iff]
    exact id
  · rw [OCamlClient.conveyed_iff]
    intro h
    exact absurd h.1.2 (by decide)
  · rw [LuaClient.conveyed_iff LuaClient.packs_packSmall hbytes]
    exact id

end Kgd

import DomainLens.Library.Lz
import DomainLens.Python.Text

/-!
# Compressed RTF

The body of a message may be stored as tokens that refer to what was unpacked before, or to a standard
text in front of it.  A window of 4096 bytes stands in for all of that.
-/

namespace DomainLens
namespace MsgFile

open Lz

abbrev Bytes := List UInt8

def ascii (text : String) : Bytes := text.toList.map Char.toUInt8

/-! ## Unpacking -/

/-- `_PREBUF`. -/
def prebuf : Bytes :=
  ascii ("\x7b\\rtf1\\ansi\\mac\\deff0\\deftab720\x7b\\fonttbl;\x7d\x7b\\f0\\fnil \\froman \\fswiss " ++
    "\\fmodern \\fscript \\fdecor MS Sans SerifSymbolArialTimes New RomanCourier\x7b\\colortbl\\red0" ++
    "\\green0\\blue0\r\n\\par \\pard\\plain\\f0\\fs20\\b\\i\\u\\tab\\tx")

/-- A `MsgError`. -/
inductive MsgError where
  | truncated
  | unknownCompression
  | tooLong
deriving DecidableEq

def MsgError.text : MsgError → String
  | .truncated => "The RTF body is truncated"
  | .unknownCompression => "The RTF body is in an unknown compression"
  | .tooLong => "The RTF body unpacks to more than is read here"

/-- The window, the place that is written next, and what was unpacked. -/
structure State where
  window : Fin 4096 → UInt8
  write : Fin 4096
  out : Bytes

def State.start : State where
  window index := prebuf.getD index 0
  write := Fin.ofNat 4096 prebuf.length
  out := []

def State.put (state : State) (byte : UInt8) : State where
  window := Function.update state.window state.write byte
  write := state.write + 1
  out := state.out ++ [byte]

/-- The bytes of the window from an offset on, each put before the next is read. -/
def State.copy (state : State) (offset length : Nat) : State :=
  (List.range length).foldl
    (fun state n => state.put (state.window (Fin.ofNat 4096 (offset + n)))) state

/-- The value of the two bytes of a reference. -/
def refOf (high low : UInt8) : Nat := high.toNat <<< 8 ||| low.toNat

/-- The loops, with the bits of the control byte that are left. -/
def unpack (limit : Nat) : List Bool → State → Bytes → Except MsgError Bytes
  | _, state, [] => .ok state.out
  | [], state, control :: body => unpack limit (bitsOf control) state body
  | true :: _, state, [_] => .ok state.out
  | true :: bits, state, high :: low :: body =>
      let offset := refOf high low >>> 4
      let length := (refOf high low &&& 0xF) + 2
      if offset = state.write.val then .ok state.out
      else
        let next := state.copy offset length
        if limit < next.out.length then .error .tooLong else unpack limit bits next body
  | false :: bits, state, byte :: body =>
      let next := state.put byte
      if limit < next.out.length then .error .tooLong else unpack limit bits next body

/-- A number of `struct.unpack`. -/
def littleEndian (bytes : Bytes) : Nat := Nat.ofDigits 256 (bytes.map UInt8.toNat)

/-- The default of `limit`. -/
def defaultLimit : Nat := 20 * 1024 * 1024

/-- `decompress_rtf`. -/
def decompressRtf (data : Bytes) (limit : Nat) : Except MsgError Bytes :=
  if data.length < 16 then .error .truncated
  else
    let compSize := littleEndian (data.take 4)
    let rawSize := littleEndian ((data.drop 4).take 4)
    let kind := littleEndian ((data.drop 8).take 4)
    let body := (data.take (4 + compSize)).drop 16
    if kind = 0x414C454D then .ok (body.take rawSize)
    else if kind ≠ 0x75465A4C then .error .unknownCompression
    else unpack limit [] State.start body

/-! ## Packing -/

/-- A token a packer may write behind a history. -/
def Writable (history : Bytes) : Token UInt8 → Prop
  | .literal _ => True
  | .copy distance length =>
      1 ≤ distance ∧ distance ≤ history.length ∧ distance < 4096 ∧ 2 ≤ length ∧ length ≤ 17

/-- The place in the window, and the length less two. -/
def tokenBytes (history : Bytes) : Token UInt8 → Bytes
  | .literal byte => [byte]
  | .copy distance length =>
      let offset := (history.length - distance) % 4096
      [UInt8.ofNat (offset / 16), UInt8.ofNat (offset % 16 * 16 + (length - 2))]

/-- The bytes are the tokens in groups of eight, each behind its control byte, and the mark of the
end. -/
inductive Packed : Bytes → List (Token UInt8) → Bytes → Prop
  | last {history : Bytes} {tokens : List (Token UInt8)} {control high low : UInt8} {rest : Bytes}
      (writable : Along Writable history tokens)
      (flags : tokens.map Token.isCopy ++ [true] <+: bitsOf control)
      (mark : refOf high low >>> 4 = (expand history tokens).length % 4096) :
      Packed history tokens (control :: (spell tokenBytes history tokens ++ high :: low :: rest))
  | group {history : Bytes} {group tokens : List (Token UInt8)} {control : UInt8} {body : Bytes}
      (writable : Along Writable history group)
      (flags : group.map Token.isCopy = bitsOf control)
      (later : Packed (expand history group) tokens body) :
      Packed history (group ++ tokens) (control :: (spell tokenBytes history group ++ body))

/-- The data is a body that is compressed, behind its header. -/
def IsContainer (data body : Bytes) : Prop :=
  ∃ size raw crc behind : Bytes, size.length = 4 ∧ raw.length = 4 ∧ crc.length = 4 ∧
    littleEndian size = body.length + 12 ∧
    data = size ++ raw ++ ascii "LZFu" ++ crc ++ body ++ behind

/-! ## The window and the history -/

/-- The window holds the last part of the history, which is the standard text and what was unpacked. -/
structure Tracks (history : Bytes) (state : State) : Prop where
  holds : Holds 4096 state.window state.write history
  out : history = prebuf ++ state.out

private theorem length_prebuf : prebuf.length = 207 := by
  simp (disch := rfl) only [prebuf, ascii, String.toList_append, Python.toList_literal]
  decide +kernel

private theorem getD_ofNat {front : Bytes} {index : Nat} (inside : index < front.length)
    (small : front.length ≤ 4096) :
    front.getD (Fin.ofNat 4096 index).val 0 = front[index] := by
  rw [Fin.val_ofNat, Nat.mod_eq_of_lt (by omega), List.getD_eq_getElem _ _ inside]

theorem tracks_start : Tracks prebuf State.start where
  holds := {
    write_eq := by rw [State.start]
    values := by
      intro index inside _
      have most : prebuf.length ≤ 4096 := by
        rw [length_prebuf]
        omega
      simp only [State.start]
      rw [getD_ofNat inside most] }
  out := by rw [State.start, List.append_nil]

variable {history : Bytes} {state : State} {limit : Nat}

theorem Tracks.put (tracks : Tracks history state) (byte : UInt8) :
    Tracks (history ++ [byte]) (state.put byte) where
  holds := tracks.holds.push byte
  out := by rw [tracks.out, List.append_assoc]; rfl

theorem Tracks.copy (tracks : Tracks history state) {distance : Nat} (least : 1 ≤ distance)
    (most : distance ≤ history.length) (near : distance < 4096) (length : Nat) :
    Tracks (copyBack history distance length)
      (state.copy ((history.length - distance) % 4096) length) := by
  induction length with
  | zero => exact tracks
  | succ length induction =>
      obtain ⟨value, stands, copied⟩ := copyBack_snoc least most length
      obtain ⟨inside, isValue⟩ := List.getElem?_eq_some_iff.mp stands
      have place : Fin.ofNat 4096 ((history.length - distance) % 4096 + length) =
          Fin.ofNat 4096 (history.length + length - distance) := by
        refine Fin.ext ?_
        simp only [Fin.val_ofNat]
        omega
      have read := induction.holds.values _ inside (by
        rw [length_copyBack least most]
        omega)
      rw [copied, State.copy, List.range_succ, List.foldl_append, List.foldl_cons, List.foldl_nil,
        place]
      rw [isValue] at read
      rw [← State.copy, read]
      exact induction.put value

/-! ## What is written is read back -/

theorem refOf_bytes {offset length : Nat} (inside : offset < 4096) (least : 2 ≤ length)
    (most : length ≤ 17) :
    refOf (UInt8.ofNat (offset / 16)) (UInt8.ofNat (offset % 16 * 16 + (length - 2))) >>> 4 = offset ∧
      (refOf (UInt8.ofNat (offset / 16)) (UInt8.ofNat (offset % 16 * 16 + (length - 2))) &&& 0xF) + 2 =
        length := by
  have high : (UInt8.ofNat (offset / 16)).toNat = offset / 16 := by
    rw [UInt8.toNat_ofNat']
    omega
  have low : (UInt8.ofNat (offset % 16 * 16 + (length - 2))).toNat =
      offset % 16 * 16 + (length - 2) := by
    rw [UInt8.toNat_ofNat']
    omega
  have value : refOf (UInt8.ofNat (offset / 16)) (UInt8.ofNat (offset % 16 * 16 + (length - 2))) =
      offset * 16 + (length - 2) := by
    rw [refOf, high, low, ← Nat.shiftLeft_add_eq_or_of_lt (by omega), Nat.shiftLeft_eq]
    omega
  rw [value, Nat.shiftRight_eq_div_pow, show (0xF : Nat) = 2 ^ 4 - 1 from rfl,
    Nat.and_two_pow_sub_one_eq_mod]
  omega

def State.follow (history : Bytes) (state : State) : Token UInt8 → State
  | .literal byte => state.put byte
  | .copy distance length => state.copy ((history.length - distance) % 4096) length

def State.followAll : Bytes → State → List (Token UInt8) → State
  | _, state, [] => state
  | history, state, token :: tokens =>
      State.followAll (token.extend history) (state.follow history token) tokens

theorem Tracks.follow (tracks : Tracks history state) {token : Token UInt8}
    (writable : Writable history token) :
    Tracks (token.extend history) (state.follow history token) := by
  cases token with
  | literal byte => exact tracks.put byte
  | copy distance length =>
      obtain ⟨least, most, near, -⟩ := writable
      exact tracks.copy least most near length

theorem Tracks.followAll (tracks : Tracks history state) {tokens : List (Token UInt8)}
    (writable : Along Writable history tokens) :
    Tracks (expand history tokens) (State.followAll history state tokens) := by
  induction tokens generalizing history state with
  | nil => exact tracks
  | cons token tokens induction => exact induction (tracks.follow writable.1) writable.2

theorem Tracks.out_eq (tracks : Tracks history state) :
    state.out = history.drop prebuf.length := by
  rw [tracks.out, List.drop_left]

theorem Tracks.length (tracks : Tracks history state) :
    history.length = prebuf.length + state.out.length := by
  rw [tracks.out, List.length_append]

private theorem unpack_token (tracks : Tracks history state) {token : Token UInt8}
    (writable : Writable history token) (bits : List Bool) (body : Bytes) :
    unpack limit (token.isCopy :: bits) state (tokenBytes history token ++ body) =
      if limit < (state.follow history token).out.length then .error .tooLong
      else unpack limit bits (state.follow history token) body := by
  cases token with
  | literal byte => rfl
  | copy distance length =>
      obtain ⟨least, most, near, atLeast, atMost⟩ := writable
      obtain ⟨offset, isLength⟩ := refOf_bytes
        (Nat.mod_lt (history.length - distance) (by decide : 0 < 4096)) atLeast atMost
      have apart : (history.length - distance) % 4096 ≠ state.write.val := by
        rw [tracks.holds.write_eq, Fin.val_ofNat]
        omega
      simp only [Token.isCopy, tokenBytes, List.cons_append, List.nil_append, unpack, offset,
        isLength, if_neg apart, State.follow]
      rfl

private theorem unpack_tokens (tracks : Tracks history state) (short : state.out.length ≤ limit)
    {tokens : List (Token UInt8)} (writable : Along Writable history tokens) (bits : List Bool)
    (body : Bytes) :
    unpack limit (tokens.map Token.isCopy ++ bits) state (spell tokenBytes history tokens ++ body) =
      if limit < (State.followAll history state tokens).out.length then .error .tooLong
      else unpack limit bits (State.followAll history state tokens) body := by
  induction tokens generalizing history state with
  | nil => exact (if_neg (by rw [State.followAll]; omega)).symm
  | cons token tokens induction =>
      have tracksNext := tracks.follow writable.1
      rw [List.map_cons, List.cons_append, spell, List.append_assoc,
        unpack_token tracks writable.1, State.followAll]
      by_cases long : limit < (state.follow history token).out.length
      · have grows := (prefix_expand (token.extend history) tokens).length_le
        rw [tracksNext.length, (tracksNext.followAll writable.2).length] at grows
        rw [if_pos long, if_pos (by omega)]
      · rw [if_neg long]
        exact induction tracksNext (by omega) writable.2

def resultOf (limit : Nat) (history : Bytes) : Except MsgError Bytes :=
  if limit < history.length - prebuf.length then .error .tooLong
  else .ok (history.drop prebuf.length)

/-- A packed body is unpacked to the expansion of its tokens, unless that is too long. -/
theorem unpack_packed {tokens : List (Token UInt8)} {body : Bytes}
    (packed : Packed history tokens body) (tracks : Tracks history state)
    (short : state.out.length ≤ limit) :
    unpack limit [] state body = resultOf limit (expand history tokens) := by
  induction packed generalizing state with
  | @last history tokens control high low rest writable flags mark =>
      have tracksNext := tracks.followAll writable
      obtain ⟨more, bits⟩ := flags
      have ends : refOf high low >>> 4 = (State.followAll history state tokens).write.val := by
        rw [mark, tracksNext.holds.write_eq, Fin.val_ofNat]
      rw [unpack, ← bits, List.append_assoc, unpack_tokens tracks short writable,
        List.singleton_append]
      simp only [unpack, ends, if_true]
      rw [resultOf, tracksNext.length, Nat.add_sub_cancel_left, tracksNext.out_eq]
  | @group history group tokens control body writable flags later induction =>
      have tracksNext := tracks.followAll writable
      rw [unpack, ← flags, ← List.append_nil (group.map Token.isCopy),
        unpack_tokens tracks short writable, expand_append]
      by_cases long : limit < (State.followAll history state group).out.length
      · have grows := (prefix_expand (expand history group) tokens).length_le
        rw [tracksNext.length] at grows
        rw [if_pos long, resultOf, if_pos (by omega)]
      · rw [if_neg long]
        exact induction tracksNext (by omega)

/-! ## The container -/

private theorem body_of_isContainer {data body : Bytes} (container : IsContainer data body) :
    16 ≤ data.length ∧ littleEndian ((data.drop 8).take 4) = 0x75465A4C ∧
      (data.take (4 + littleEndian (data.take 4))).drop 16 = body := by
  obtain ⟨size, raw, crc, behind, isSize, isRaw, isCrc, sized, rfl⟩ := container
  have kind : (ascii "LZFu").length = 4 ∧ littleEndian (ascii "LZFu") = 0x75465A4C := by
    decide +kernel
  have front : (size ++ raw ++ ascii "LZFu" ++ crc).length = 16 := by
    simp only [List.length_append]
    omega
  have first : (size ++ raw ++ ascii "LZFu" ++ crc ++ body ++ behind).take 4 = size := by
    rw [List.append_assoc, List.append_assoc, List.append_assoc, List.append_assoc]
    exact List.take_left' isSize
  have third : ((size ++ raw ++ ascii "LZFu" ++ crc ++ body ++ behind).drop 8).take 4 =
      ascii "LZFu" := by
    rw [List.append_assoc, List.append_assoc, List.append_assoc,
      List.drop_left' (by rw [List.length_append]; omega), List.take_left' kind.1]
  refine ⟨?_, by rw [third, kind.2], ?_⟩
  · rw [List.append_assoc, List.length_append]
    omega
  · rw [first, sized, List.take_left' (by rw [List.length_append]; omega), List.drop_left' front]

private theorem decompressRtf_of_isContainer {data body : Bytes} (limit : Nat)
    (container : IsContainer data body) :
    decompressRtf data limit = unpack limit [] State.start body := by
  obtain ⟨least, kind, isBody⟩ := body_of_isContainer container
  rw [decompressRtf, if_neg (by omega)]
  simp only [kind, isBody]
  rw [if_neg (by decide), if_neg (by decide)]

/-- A container whose body is packed is unpacked to the expansion of its tokens behind the standard
text, unless that is longer than the limit. -/
theorem decompressRtf_packed {data body : Bytes} {tokens : List (Token UInt8)} (limit : Nat)
    (container : IsContainer data body) (packed : Packed prebuf tokens body) :
    decompressRtf data limit =
      if limit < (expand prebuf tokens).length - prebuf.length then .error .tooLong
      else .ok ((expand prebuf tokens).drop prebuf.length) := by
  rw [decompressRtf_of_isContainer limit container]
  exact unpack_packed packed tracks_start (Nat.zero_le limit)

/-- A letter, and five more of it by a copy that runs into itself. -/
theorem copied_letters : decompressRtf
    ([18, 0, 0, 0] ++ [0, 0, 0, 0] ++ ascii "LZFu" ++ [0, 0, 0, 0] ++
      [0b110, 0x41, 0x0c, 0xf3, 0x0d, 0x50] ++ []) defaultLimit =
    .ok [0x41, 0x41, 0x41, 0x41, 0x41, 0x41] := by
  have facts : refOf 0x0d 0x50 >>> 4 =
        (expand prebuf [.literal 0x41, .copy 1 5]).length % 4096 ∧
      spell tokenBytes prebuf [.literal 0x41, .copy 1 5] = [0x41, 0x0c, 0xf3] ∧
      ¬ defaultLimit < (expand prebuf [.literal 0x41, .copy 1 5]).length - prebuf.length ∧
      (expand prebuf [.literal 0x41, .copy 1 5]).drop prebuf.length =
        [0x41, 0x41, 0x41, 0x41, 0x41, 0x41] := by
    simp (disch := rfl) only [prebuf, ascii, String.toList_append, Python.toList_literal]
    decide +kernel
  have packed : Packed prebuf [.literal 0x41, .copy 1 5] [0b110, 0x41, 0x0c, 0xf3, 0x0d, 0x50] := by
    have written := @Packed.last prebuf [.literal 0x41, .copy 1 5] 0b110 0x0d 0x50 []
      ⟨trivial, by simp [Writable, Token.extend], trivial⟩ (by decide) facts.1
    rwa [facts.2.1] at written
  rw [decompressRtf_packed defaultLimit
    ⟨_, _, _, _, rfl, rfl, rfl, by decide +kernel, rfl⟩ packed, if_neg facts.2.2.1, facts.2.2.2]

/-! ## A body that is too long -/

/-- So many groups of eight zeros and one zero more. -/
def zeroTokens (groups : Nat) : List (Token UInt8) :=
  List.replicate (8 * groups) (.literal 0) ++ [.literal 0]

def zeroBody (groups : Nat) : Bytes := List.replicate (9 * groups) 0 ++ [2, 0, 0x0d, 0x00]

private theorem expand_zeroTokens (history : Bytes) (groups : Nat) :
    expand history (zeroTokens groups) = history ++ List.replicate (8 * groups + 1) 0 := by
  have literals : zeroTokens groups =
      (List.replicate (8 * groups + 1) (0 : UInt8)).map Token.literal := by
    rw [List.map_replicate, List.replicate_succ', zeroTokens]
  rw [literals, expand_literals]

private theorem packed_zeros (history : Bytes) (groups : Nat)
    (length : (history.length + 8 * groups + 1) % 4096 = 208) :
    Packed history (zeroTokens groups) (zeroBody groups) := by
  induction groups generalizing history with
  | zero =>
      have mark : refOf 0x0d 0x00 >>> 4 = (expand history (zeroTokens 0)).length % 4096 := by
        rw [expand_zeroTokens, List.length_append, List.length_replicate, ← Nat.add_assoc, length]
        rfl
      exact @Packed.last history (zeroTokens 0) 2 0x0d 0x00 [] ⟨trivial, trivial⟩ (by decide) mark
  | succ groups induction =>
      have eight : expand history (List.replicate 8 (.literal 0)) =
          history ++ List.replicate 8 0 := by
        rw [← List.map_replicate, expand_literals]
      have later := induction (history ++ List.replicate 8 0) (by
        rw [List.length_append, List.length_replicate]
        omega)
      have packed := @Packed.group history (List.replicate 8 (.literal 0)) (zeroTokens groups) 0
        (zeroBody groups) ⟨trivial, trivial, trivial, trivial, trivial, trivial, trivial, trivial,
          trivial⟩ (by decide) (eight ▸ later)
      have tokens : zeroTokens (groups + 1) =
          List.replicate 8 (.literal 0) ++ zeroTokens groups := by
        rw [zeroTokens, Nat.mul_add, Nat.add_comm, List.replicate_add, List.append_assoc, zeroTokens]
      have body : zeroBody (groups + 1) = 0 :: (List.replicate 8 0 ++ zeroBody groups) := by
        rw [zeroBody, Nat.mul_add, Nat.add_comm, List.replicate_add, List.append_assoc, ← zeroBody]
        rfl
      rw [tokens, body]
      exact packed

def zeroData : Bytes :=
  [0x10, 0x00, 0x68, 0x01] ++ [0, 0, 0, 0] ++ ascii "LZFu" ++ [0, 0, 0, 0] ++ zeroBody 2621440 ++ []

/-- A body that is packed as it should be is refused where it unpacks to more than 20 MB. -/
theorem zeroData_refused : IsContainer zeroData (zeroBody 2621440) ∧
    Packed prebuf (zeroTokens 2621440) (zeroBody 2621440) ∧
    decompressRtf zeroData defaultLimit ≠
      .ok ((expand prebuf (zeroTokens 2621440)).drop prebuf.length) := by
  have container : IsContainer zeroData (zeroBody 2621440) := by
    refine ⟨_, _, _, _, rfl, rfl, rfl, ?_, rfl⟩
    rw [zeroBody, List.length_append, List.length_replicate]
    decide +kernel
  have packed : Packed prebuf (zeroTokens 2621440) (zeroBody 2621440) :=
    packed_zeros prebuf 2621440 (by rw [length_prebuf])
  refine ⟨container, packed, ?_⟩
  rw [decompressRtf_of_isContainer defaultLimit container,
    unpack_packed packed tracks_start (Nat.zero_le _), resultOf, if_pos ?_]
  · nofun
  · rw [expand_zeroTokens, List.length_append, List.length_replicate, Nat.add_sub_cancel_left]
    decide

end MsgFile
end DomainLens

import DomainLens.FileScan.Files
import DomainLens.Library.Lz

/-!
# Compressed VBA

The source of a macro is stored in chunks, each as it is or as tokens that refer to what was unpacked
before in the same chunk.  How a token is split into a distance and a length depends on how much that
is.
-/

namespace DomainLens
namespace FileScan
namespace Ovba

open Lz

/-! ## Unpacking -/

inductive Err where
  | valueError (text : String)
  | indexError
deriving DecidableEq

/-- `bytes[index]` for an index that is not negative. -/
def byteAt (bytes : Bytes) (index : Nat) : Except Err UInt8 :=
  match bytes[index]? with
  | some byte => .ok byte
  | none => .error .indexError

/-- `int.from_bytes(data[pos:pos + 2], "little")`. -/
def wordAt (data : Bytes) (pos : Nat) : Nat :=
  Nat.ofDigits 256 (((data.drop pos).take 2).map UInt8.toNat)

/-- `int.bit_length`. -/
def bitLength (value : ℤ) : Nat := if value = 0 then 0 else Nat.log2 value.natAbs + 1

/-- The bits of a distance where so much of the chunk is there. -/
def bitCount (decoded : Nat) : Nat := max (bitLength ((decoded : ℤ) - 1)) 4

/-- The place that is read next, and what was unpacked. -/
structure State where
  pos : Nat
  out : Bytes

def copyOne (src : Nat) (out : Bytes) (i : Nat) : Except Err Bytes :=
  match byteAt out (src + i) with
  | .error fault => .error fault
  | .ok byte => .ok (out ++ [byte])

/-- Values from a place on, each put before the next is read. -/
def copyOut (src length : Nat) (out : Bytes) : Except Err Bytes :=
  (List.range length).foldlM (copyOne src) out

/-- A copy token of a chunk that starts where `start` says. -/
def copyToken (start token : Nat) (out : Bytes) : Except Err Bytes :=
  let bits := bitCount (out.length - start)
  let length := (token &&& 0xFFFF >>> bits) + 3
  if 16 < bits then .error (.valueError "negative shift count")
  else
    let offset := token >>> (16 - bits) + 1
    if out.length < start + offset then
      .error (.valueError "a copy token points before its chunk")
    else copyOut (out.length - offset) length out

/-- The loop over the bits of a flag byte. -/
def readTokens (data : Bytes) (chunkEnd start : Nat) : List Bool → State → Except Err State
  | [], state => .ok state
  | flag :: flags, state =>
      if chunkEnd ≤ state.pos then .ok state
      else if flag = false then
        match byteAt data state.pos with
        | .error fault => .error fault
        | .ok byte => readTokens data chunkEnd start flags ⟨state.pos + 1, state.out ++ [byte]⟩
      else if chunkEnd < state.pos + 2 then .ok ⟨chunkEnd, state.out⟩
      else
        match copyToken start (wordAt data state.pos) state.out with
        | .error fault => .error fault
        | .ok out => readTokens data chunkEnd start flags ⟨state.pos + 2, out⟩

theorem pos_le_of_readTokens {data : Bytes} {chunkEnd start : Nat} {flags : List Bool}
    {state next : State} (read : readTokens data chunkEnd start flags state = .ok next) :
    state.pos ≤ next.pos := by
  induction flags generalizing state with
  | nil =>
      obtain rfl := Except.ok.inj read
      exact le_rfl
  | cons flag flags induction =>
      rw [readTokens] at read
      split_ifs at read with ended literal short
      · obtain rfl := Except.ok.inj read
        exact le_rfl
      · cases value : byteAt data state.pos with
        | error fault => simp only [value, reduceCtorEq] at read
        | ok byte =>
            simp only [value] at read
            exact (Nat.le_succ _).trans (induction read)
      · obtain rfl := Except.ok.inj read
        exact (Nat.not_le.mp ended).le
      · cases value : copyToken start (wordAt data state.pos) state.out with
        | error fault => simp only [value, reduceCtorEq] at read
        | ok out =>
            simp only [value] at read
            exact (Nat.le_add_right _ 2).trans (induction read)

/-- The loop over the flag bytes of a chunk. -/
def readGroups (data : Bytes) (chunkEnd start : Nat) (state : State) : Except Err State :=
  if state.pos < chunkEnd then
    match byteAt data state.pos with
    | .error fault => .error fault
    | .ok flags =>
        match _moved : readTokens data chunkEnd start (bitsOf flags) ⟨state.pos + 1, state.out⟩ with
        | .error fault => .error fault
        | .ok next => readGroups data chunkEnd start next
  else .ok state
termination_by chunkEnd - state.pos
decreasing_by
  have : state.pos + 1 ≤ next.pos := pos_le_of_readTokens _moved
  omega

theorem pos_le_of_readGroups {data : Bytes} {chunkEnd start : Nat} {state next : State}
    (read : readGroups data chunkEnd start state = .ok next) : state.pos ≤ next.pos := by
  fun_induction readGroups data chunkEnd start state with
  | case1 => nomatch read
  | case2 => nomatch read
  | case3 state inside flags _ middle tokens induction =>
      have moved : state.pos + 1 ≤ middle.pos := pos_le_of_readTokens tokens
      exact (Nat.le_of_succ_le moved).trans (induction read)
  | case4 =>
      obtain rfl := Except.ok.inj read
      exact le_rfl

def readChunks (data : Bytes) (limit : Nat) (state : State) : Except Err Bytes :=
  if state.pos + 2 ≤ data.length then
    let header := wordAt data state.pos
    let chunkEnd := min (state.pos + (header &&& 0x0FFF) + 3) data.length
    if header &&& 0x8000 = 0 then
      readChunks data limit
        ⟨state.pos + 2 + 4096, state.out ++ (data.drop (state.pos + 2)).take 4096⟩
    else
      match _moved : readGroups data chunkEnd state.out.length ⟨state.pos + 2, state.out⟩ with
      | .error fault => .error fault
      | .ok next =>
          if limit < next.out.length then
            .error (.valueError "the VBA source unpacks to more than is read here")
          else readChunks data limit next
  else .ok state.out
termination_by data.length - state.pos
decreasing_by
  · omega
  · have : state.pos + 2 ≤ next.pos := pos_le_of_readGroups _moved
    omega

/-- The default of `limit`. -/
def defaultLimit : Nat := 10 * 1024 * 1024

/-- `ovba_decompress`. -/
def ovbaDecompress (data : Bytes) (limit : Nat) : Except Err Bytes :=
  if data.head? = some 1 then readChunks data limit ⟨1, []⟩
  else .error (.valueError "not a compressed VBA container")

/-! ## Nothing is read outside -/

/-- The result, where there is one, has the property, and no index is out of range. -/
def Safe {α : Type} (holds : α → Prop) : Except Err α → Prop
  | .ok value => holds value
  | .error fault => fault ≠ .indexError

theorem Safe.ok {α : Type} {holds : α → Prop} {result : Except Err α} {value : α}
    (safe : Safe holds result) (is : result = .ok value) : holds value := by
  rw [is] at safe
  exact safe

theorem Safe.error {α : Type} {holds : α → Prop} {result : Except Err α} {fault : Err}
    (safe : Safe holds result) (is : result = .error fault) : fault ≠ .indexError := by
  rw [is] at safe
  exact safe

private theorem byteAt_of_lt {bytes : Bytes} {index : Nat} (inside : index < bytes.length) :
    byteAt bytes index = .ok bytes[index] := by
  rw [byteAt, List.getElem?_eq_getElem inside]

theorem copyOut_eq {out : Bytes} {distance : Nat} (least : 1 ≤ distance)
    (most : distance ≤ out.length) (length : Nat) :
    copyOut (out.length - distance) length out = .ok (copyBack out distance length) := by
  induction length with
  | zero => rfl
  | succ length induction =>
      obtain ⟨value, stands, copied⟩ := copyBack_snoc least most length
      have place : out.length - distance + length = out.length + length - distance := by omega
      rw [copyOut] at induction ⊢
      have put : copyOne (out.length - distance) (copyBack out distance length) length =
          .ok (copyBack out distance length ++ [value]) := by
        simp only [copyOne, byteAt, place, stands]
      rw [List.range_succ, List.foldlM_append, induction, copied, ← put]
      exact bind_pure (copyOne (out.length - distance) (copyBack out distance length) length)

theorem safe_copyToken {out : Bytes} {start : Nat} (started : start ≤ out.length) (token : Nat) :
    Safe (fun next => start ≤ next.length) (copyToken start token out) := by
  simp only [copyToken]
  split_ifs with wide early
  · exact Err.noConfusion
  · exact Err.noConfusion
  · have most : token >>> (16 - bitCount (out.length - start)) + 1 ≤ out.length := by omega
    rw [copyOut_eq (Nat.le_add_left 1 _) most]
    exact started.trans (prefix_copyBack out _ _).length_le

variable {data : Bytes} {chunkEnd start : Nat}

theorem safe_readTokens (inside : chunkEnd ≤ data.length) (flags : List Bool) {state : State}
    (started : start ≤ state.out.length) :
    Safe (fun next => start ≤ next.out.length) (readTokens data chunkEnd start flags state) := by
  induction flags generalizing state with
  | nil => exact started
  | cons flag flags induction =>
      rw [readTokens]
      split_ifs with ended literal short
      · exact started
      · rw [byteAt_of_lt (by omega)]
        have grown : start ≤ (state.out ++ [data[state.pos]]).length := by
          rw [List.length_append]
          omega
        exact @induction ⟨_, _⟩ grown
      · exact started
      · have safe := safe_copyToken started (wordAt data state.pos)
        cases copied : copyToken start (wordAt data state.pos) state.out with
        | error fault => exact safe.error copied
        | ok out => exact @induction ⟨_, out⟩ (safe.ok copied)

theorem safe_readGroups (inside : chunkEnd ≤ data.length) {state : State}
    (started : start ≤ state.out.length) :
    Safe (fun next => start ≤ next.out.length) (readGroups data chunkEnd start state) := by
  fun_induction readGroups data chunkEnd start state with
  | case1 state before fault failed =>
      rw [byteAt_of_lt (before.trans_le inside)] at failed
      nomatch failed
  | case2 state before flags _ fault failed =>
      exact (safe_readTokens inside (bitsOf flags) (by exact started)).error failed
  | case3 state before flags _ next read induction =>
      exact induction ((safe_readTokens inside (bitsOf flags) (by exact started)).ok read)
  | case4 => exact started

theorem safe_readChunks (limit : Nat) (state : State) :
    Safe (fun _ => True) (readChunks data limit state) := by
  fun_induction readChunks data limit state with
  | case1 state _ _ _ induction => exact induction
  | case2 state _ _ chunkEnd _ fault failed =>
      exact (safe_readGroups (Nat.min_le_right _ _) (by exact le_rfl)).error failed
  | case3 => exact Err.noConfusion
  | case4 _ _ _ _ _ _ _ _ induction => exact induction
  | case5 => trivial

/-! ## Packing -/

/-- The bits of a distance: the fewest, but four, in which the place of a value of so much can be
told. -/
def distanceBits (decoded : Nat) : Nat := max (Nat.clog 2 decoded) 4

/-- A token a packer may write in a chunk that starts where `start` says. -/
def Writable (start : Nat) (history : Bytes) : Token UInt8 → Prop
  | .literal _ => True
  | .copy distance length =>
      1 ≤ distance ∧ distance ≤ history.length - start ∧ 3 ≤ length ∧
        length ≤ 0xFFFF >>> distanceBits (history.length - start) + 3 ∧
        history.length - start + length ≤ 4096

def wordBytes (value : Nat) : Bytes := [UInt8.ofNat (value % 256), UInt8.ofNat (value / 256)]

def tokenBytes (start : Nat) (history : Bytes) : Token UInt8 → Bytes
  | .literal byte => [byte]
  | .copy distance length =>
      wordBytes ((distance - 1) * 2 ^ (16 - distanceBits (history.length - start)) + (length - 3))

/-- The bytes are the tokens in groups of eight, each behind its flag byte. -/
inductive Groups (start : Nat) : Bytes → List (Token UInt8) → Bytes → Prop
  | last {history : Bytes} {tokens : List (Token UInt8)} {flags : UInt8}
      (writable : Along (Writable start) history tokens)
      (kinds : tokens.map Token.isCopy <+: bitsOf flags) :
      Groups start history tokens (flags :: spell (tokenBytes start) history tokens)
  | group {history : Bytes} {group tokens : List (Token UInt8)} {flags : UInt8} {body : Bytes}
      (writable : Along (Writable start) history group)
      (kinds : group.map Token.isCopy = bitsOf flags)
      (later : Groups start (expand history group) tokens body) :
      Groups start history (group ++ tokens)
        (flags :: (spell (tokenBytes start) history group ++ body))

inductive Chunk where
  | raw (bytes : Bytes)
  | compressed (tokens : List (Token UInt8))

def Chunk.extend (history : Bytes) : Chunk → Bytes
  | .raw bytes => history ++ bytes
  | .compressed tokens => expand history tokens

def unpacked (chunks : List Chunk) : Bytes := chunks.foldl Chunk.extend []

/-- The bytes are the chunks, each behind its header.  Only the last may be shorter than it could
be where it is raw. -/
inductive Written : Bytes → List Chunk → Bytes → Prop
  | nil {history : Bytes} : Written history [] []
  | raw {history bytes data : Bytes} {chunks : List Chunk} (least : 1 ≤ bytes.length)
      (most : bytes.length ≤ 4096) (full : chunks ≠ [] → bytes.length = 4096)
      (later : Written (history ++ bytes) chunks data) :
      Written history (.raw bytes :: chunks)
        (wordBytes (0x3000 + (bytes.length - 1)) ++ (bytes ++ data))
  | compressed {history body data : Bytes} {tokens : List (Token UInt8)} {chunks : List Chunk}
      (groups : Groups history.length history tokens body) (most : body.length ≤ 4096)
      (later : Written (expand history tokens) chunks data) :
      Written history (.compressed tokens :: chunks)
        (wordBytes (0xB000 + (body.length - 1)) ++ (body ++ data))

/-- More than `limit` is unpacked at the end of a chunk that is compressed. -/
def overruns (limit : Nat) : Bytes → List Chunk → Bool
  | _, [] => false
  | history, .raw bytes :: chunks => overruns limit (history ++ bytes) chunks
  | history, .compressed tokens :: chunks =>
      decide (limit < (expand history tokens).length) || overruns limit (expand history tokens) chunks

/-! ## What is written is read back -/

theorem bitCount_eq {decoded : Nat} (some : 1 ≤ decoded) : bitCount decoded = distanceBits decoded := by
  have less : ((decoded : ℤ) - 1).natAbs = decoded - 1 := by omega
  rw [bitCount, distanceBits, bitLength]
  congr 1
  by_cases one : decoded = 1
  · subst one
    simp
  · rw [if_neg (by omega), less]
    refine le_antisymm ?_ ?_
    · refine Nat.succ_le_of_lt ((Nat.log2_lt (by omega)).mpr ?_)
      have := Nat.le_pow_clog Nat.one_lt_two decoded
      omega
    · refine Nat.clog_le_of_le_pow ?_
      have := Nat.lt_log2_self (n := decoded - 1)
      omega

theorem wordAt_of_drop {data rest : Bytes} {pos value : Nat} (small : value < 65536)
    (here : data.drop pos = wordBytes value ++ rest) : wordAt data pos = value := by
  have low : (UInt8.ofNat (value % 256)).toNat = value % 256 := by
    rw [UInt8.toNat_ofNat']
    omega
  have high : (UInt8.ofNat (value / 256)).toNat = value / 256 := by
    rw [UInt8.toNat_ofNat']
    omega
  rw [wordAt, here, wordBytes]
  simp only [List.cons_append, List.nil_append, List.take_succ_cons, List.take_zero, List.map_cons,
    List.map_nil, low, high, Nat.ofDigits_cons, Nat.ofDigits_nil]
  omega

private theorem drop_of_drop {data first rest : Bytes} {pos : Nat}
    (here : data.drop pos = first ++ rest) : data.drop (pos + first.length) = rest := by
  rw [← List.drop_drop, here, List.drop_left]

private theorem length_of_drop {data first rest : Bytes} {pos : Nat}
    (here : data.drop pos = first ++ rest) (some : first ≠ []) :
    pos + first.length + rest.length = data.length := by
  have total := congrArg List.length here
  have := List.length_pos_of_ne_nil some
  rw [List.length_drop, List.length_append] at total
  omega

private theorem byteAt_of_drop {data rest : Bytes} {pos : Nat} {byte : UInt8}
    (here : data.drop pos = byte :: rest) : byteAt data pos = .ok byte := by
  have stands : data[pos]? = some byte := by
    rw [← List.head?_drop, here, List.head?_cons]
  rw [byteAt, stands]

private theorem mask_eq : ∀ bits ≤ 16, 0xFFFF >>> bits = 2 ^ (16 - bits) - 1 := by decide

theorem copyToken_written {start distance length : Nat} {out : Bytes}
    (writable : Writable start out (.copy distance length)) :
    ∃ token < 65536, tokenBytes start out (.copy distance length) = wordBytes token ∧
      copyToken start token out = .ok (copyBack out distance length) := by
  obtain ⟨least, most, atLeast, atMost, inside⟩ := writable
  refine ⟨_, ?_, rfl, ?_⟩
  all_goals
    have few : distanceBits (out.length - start) ≤ 12 :=
      max_le (Nat.clog_le_of_le_pow (by omega)) (by omega)
    have enough : out.length - start ≤ 2 ^ distanceBits (out.length - start) :=
      (Nat.le_pow_clog Nat.one_lt_two _).trans (Nat.pow_le_pow_right two_pos (le_max_left _ _))
    have count := bitCount_eq (least.trans most)
    generalize distanceBits (out.length - start) = bits at *
    rw [mask_eq bits (by omega)] at atMost
    have some : 0 < 2 ^ (16 - bits) := Nat.two_pow_pos _
    have whole : 2 ^ bits * 2 ^ (16 - bits) = 65536 := by
      rw [← Nat.pow_add, Nat.add_sub_cancel' (by omega)]
  · have := Nat.mul_le_mul_right (2 ^ (16 - bits)) (show distance - 1 + 1 ≤ 2 ^ bits by omega)
    rw [Nat.add_mul, Nat.one_mul, whole] at this
    omega
  · have isLength : ((distance - 1) * 2 ^ (16 - bits) + (length - 3) &&& 0xFFFF >>> bits) + 3 =
        length := by
      rw [mask_eq bits (by omega), Nat.and_two_pow_sub_one_eq_mod, Nat.mul_add_mod_self_right,
        Nat.mod_eq_of_lt (by omega), Nat.sub_add_cancel atLeast]
    have isDistance : ((distance - 1) * 2 ^ (16 - bits) + (length - 3)) >>> (16 - bits) + 1 =
        distance := by
      rw [Nat.shiftRight_eq_div_pow, Nat.mul_comm, Nat.mul_add_div some,
        Nat.div_eq_of_lt (by omega), Nat.add_zero, Nat.sub_add_cancel least]
    simp only [copyToken, count]
    rw [if_neg (by omega), isLength, isDistance, if_neg (by omega), copyOut_eq least (by omega)]

variable {history rest : Bytes} {pos : Nat}

theorem readTokens_token {token : Token UInt8} (writable : Writable start history token)
    (here : data.drop pos = tokenBytes start history token ++ rest)
    (room : pos + (tokenBytes start history token).length ≤ chunkEnd) (flags : List Bool) :
    readTokens data chunkEnd start (token.isCopy :: flags) ⟨pos, history⟩ =
      readTokens data chunkEnd start flags
        ⟨pos + (tokenBytes start history token).length, token.extend history⟩ := by
  cases token with
  | literal byte =>
      have short : ¬ chunkEnd ≤ pos := Nat.not_le.mpr room
      rw [readTokens, if_neg short, Token.isCopy, if_pos rfl, byteAt_of_drop here]
      rfl
  | copy distance length =>
      obtain ⟨value, small, bytes, copied⟩ := copyToken_written writable
      rw [bytes] at here room ⊢
      have short : ¬ chunkEnd < pos + 2 := Nat.not_lt.mpr room
      have before : ¬ chunkEnd ≤ pos := by omega
      rw [readTokens, if_neg before, Token.isCopy, if_neg Bool.noConfusion, if_neg short,
        wordAt_of_drop small here, copied]
      rfl

theorem readTokens_tokens {tokens : List (Token UInt8)}
    (writable : Along (Writable start) history tokens)
    (here : data.drop pos = spell (tokenBytes start) history tokens ++ rest)
    (room : pos + (spell (tokenBytes start) history tokens).length ≤ chunkEnd) (flags : List Bool) :
    readTokens data chunkEnd start (tokens.map Token.isCopy ++ flags) ⟨pos, history⟩ =
      readTokens data chunkEnd start flags
        ⟨pos + (spell (tokenBytes start) history tokens).length, expand history tokens⟩ := by
  induction tokens generalizing history pos with
  | nil => rfl
  | cons token tokens induction =>
      rw [spell, List.append_assoc] at here
      rw [spell, List.length_append] at room ⊢
      rw [List.map_cons, List.cons_append, readTokens_token writable.1 here (by omega),
        induction writable.2 (drop_of_drop here) (by omega), Nat.add_assoc]
      rfl

theorem readTokens_end (flags : List Bool) (out : Bytes) :
    readTokens data chunkEnd start flags ⟨chunkEnd, out⟩ = .ok ⟨chunkEnd, out⟩ := by
  cases flags with
  | nil => rfl
  | cons flag flags => rw [readTokens, if_pos le_rfl]

private theorem readGroups_step {state next : State} {flags : UInt8} {behind : Bytes}
    (before : state.pos < chunkEnd) (here : data.drop state.pos = flags :: behind)
    (read : readTokens data chunkEnd start (bitsOf flags) ⟨state.pos + 1, state.out⟩ = .ok next) :
    readGroups data chunkEnd start state = readGroups data chunkEnd start next := by
  rw [readGroups, if_pos before, byteAt_of_drop here]
  simp only
  split
  · next failed => nomatch read.symm.trans failed
  · next other succeeded =>
      obtain rfl := Except.ok.inj (read.symm.trans succeeded)
      rfl

theorem readGroups_groups {tokens : List (Token UInt8)} {body : Bytes}
    (groups : Groups start history tokens body) (here : data.drop pos = body ++ rest)
    (ends : chunkEnd = pos + body.length) :
    readGroups data chunkEnd start ⟨pos, history⟩ = .ok ⟨chunkEnd, expand history tokens⟩ := by
  induction groups generalizing pos with
  | @last history tokens flags writable kinds =>
      obtain ⟨more, bits⟩ := kinds
      rw [List.length_cons] at ends
      have before : pos < chunkEnd := by omega
      have behind : data.drop (pos + 1) = spell (tokenBytes start) history tokens ++ rest :=
        @drop_of_drop data [flags] _ pos here
      have atEnd : pos + 1 + (spell (tokenBytes start) history tokens).length = chunkEnd := by omega
      have read := readTokens_tokens writable behind atEnd.le more
      rw [atEnd, readTokens_end, bits] at read
      rw [readGroups_step before here read, readGroups, if_neg (Nat.lt_irrefl chunkEnd)]
  | @group history group tokens flags body writable kinds later induction =>
      rw [List.length_cons, List.length_append] at ends
      have before : pos < chunkEnd := by omega
      have behind : data.drop (pos + 1) = spell (tokenBytes start) history group ++ (body ++ rest) :=
        (@drop_of_drop data [flags] _ pos here).trans (List.append_assoc _ _ _)
      have read := readTokens_tokens writable behind
        (by omega : pos + 1 + (spell (tokenBytes start) history group).length ≤ chunkEnd) []
      rw [List.append_nil, kinds, readTokens] at read
      rw [readGroups_step before here read, induction (drop_of_drop behind) (by omega),
        expand_append]

private theorem length_wordBytes (value : Nat) : (wordBytes value).length = 2 := rfl

private theorem and_flag (header : Nat) : header &&& 0x8000 = 0 ↔ header / 32768 % 2 = 0 := by
  rw [show 0x8000 = 2 ^ 15 from rfl, Nat.and_two_pow, Nat.testBit_eq_decide_div_mod_eq]
  rcases Nat.mod_two_eq_zero_or_one (header / 32768) with even | odd
  · simp [even]
  · simp [odd]

private theorem header_raw {size : Nat} (small : size < 4096) : (0x3000 + size) &&& 0x8000 = 0 := by
  rw [and_flag]
  omega

private theorem header_compressed {size : Nat} (small : size < 4096) :
    (0xB000 + size) &&& 0x8000 ≠ 0 ∧ (0xB000 + size) &&& 0x0FFF = size := by
  rw [Ne, and_flag, show 0x0FFF = 2 ^ 12 - 1 from rfl, Nat.and_two_pow_sub_one_eq_mod]
  omega

theorem Groups.length_pos {tokens : List (Token UInt8)} {body : Bytes}
    (groups : Groups start history tokens body) : 1 ≤ body.length := by
  cases groups <;> exact Nat.succ_pos _

private theorem readChunks_raw {limit : Nat} {state : State}
    (room : state.pos + 2 ≤ data.length) (raw : wordAt data state.pos &&& 0x8000 = 0) :
    readChunks data limit state = readChunks data limit
      ⟨state.pos + 2 + 4096, state.out ++ (data.drop (state.pos + 2)).take 4096⟩ := by
  rw [readChunks, if_pos room]
  exact if_pos raw

private theorem readChunks_compressed {limit chunkEnd : Nat} {state next : State}
    (room : state.pos + 2 ≤ data.length) (compressed : wordAt data state.pos &&& 0x8000 ≠ 0)
    (ends : min (state.pos + (wordAt data state.pos &&& 0x0FFF) + 3) data.length = chunkEnd)
    (read : readGroups data chunkEnd state.out.length ⟨state.pos + 2, state.out⟩ = .ok next) :
    readChunks data limit state =
      if limit < next.out.length then
        .error (.valueError "the VBA source unpacks to more than is read here")
      else readChunks data limit next := by
  subst ends
  rw [readChunks, if_pos room]
  simp only [if_neg compressed]
  split
  · next failed => nomatch read.symm.trans failed
  · next other succeeded =>
      obtain rfl := Except.ok.inj (read.symm.trans succeeded)
      rfl

private theorem readChunks_end {limit : Nat} {state : State} (ended : data.length ≤ state.pos) :
    readChunks data limit state = .ok state.out := by
  rw [readChunks, if_neg (by omega)]

/-- What the loop over the chunks comes to. -/
def resultOf (limit : Nat) (history : Bytes) (chunks : List Chunk) : Except Err Bytes :=
  if overruns limit history chunks = true then
    .error (.valueError "the VBA source unpacks to more than is read here")
  else .ok (chunks.foldl Chunk.extend history)

theorem readChunks_written (limit : Nat) {chunks : List Chunk} {bytes : Bytes}
    (written : Written history chunks bytes) (here : data.drop pos = bytes)
    (inside : pos ≤ data.length) :
    readChunks data limit ⟨pos, history⟩ = resultOf limit history chunks := by
  induction written generalizing pos with
  | nil => exact readChunks_end (List.drop_eq_nil_iff.mp here)
  | @raw history bytes later chunks least most full written induction =>
      have isHeader := wordAt_of_drop (by omega) here
      have behind := drop_of_drop here
      rw [length_wordBytes] at behind
      have total := length_of_drop here (by exact List.cons_ne_nil _ _)
      rw [length_wordBytes, List.length_append] at total
      rw [readChunks_raw (by exact (by omega : pos + 2 ≤ data.length))
        (by rw [isHeader]; exact header_raw (by omega))]
      simp only [behind]
      cases chunks with
      | nil =>
          cases written
          rw [List.append_nil, List.take_of_length_le most]
          rw [List.length_nil] at total
          exact readChunks_end (by exact (by omega : data.length ≤ pos + 2 + 4096))
      | cons chunk chunks =>
          have size := full (List.cons_ne_nil _ _)
          rw [← size, List.take_left]
          exact induction (by rw [drop_of_drop behind]) (by omega)
  | @compressed history body later tokens chunks groups most written induction =>
      have some := groups.length_pos
      have isHeader := wordAt_of_drop (by omega) here
      have behind := drop_of_drop here
      rw [length_wordBytes] at behind
      have total := length_of_drop here (by exact List.cons_ne_nil _ _)
      rw [length_wordBytes, List.length_append] at total
      obtain ⟨compressed, size⟩ := header_compressed (by omega : body.length - 1 < 4096)
      have ends : min (pos + (wordAt data pos &&& 0x0FFF) + 3) data.length =
          pos + 2 + body.length := by
        rw [isHeader, size]
        omega
      rw [readChunks_compressed (by exact (by omega : pos + 2 ≤ data.length))
        (by rw [isHeader]; exact compressed) ends (readGroups_groups groups behind rfl)]
      rw [induction (drop_of_drop behind) (by omega), resultOf, resultOf, overruns]
      by_cases long : limit < (expand history tokens).length
      · rw [if_pos long, decide_eq_true long, Bool.true_or, if_pos rfl]
      · rw [if_neg long, decide_eq_false long, Bool.false_or]
        rfl

/-- The bytes of chunks are unpacked to what they hold, unless that is more than the limit at the end
of one that is compressed; and whatever the bytes are, no index is out of range. -/
theorem ovbaDecompress_written (limit : Nat) :
    (∀ {chunks : List Chunk} {data : Bytes}, Written [] chunks data →
      ovbaDecompress (1 :: data) limit =
        if overruns limit [] chunks = true then
          .error (.valueError "the VBA source unpacks to more than is read here")
        else .ok (unpacked chunks)) ∧
      ∀ data : Bytes, ovbaDecompress data limit ≠ .error .indexError := by
  constructor
  · intro chunks data written
    exact readChunks_written limit written rfl (Nat.succ_le_succ (Nat.zero_le _))
  · intro data failed
    rw [ovbaDecompress] at failed
    split_ifs at failed
    · exact (safe_readChunks limit ⟨1, []⟩).error failed rfl
    · nomatch failed

private theorem distanceBits_one : distanceBits 1 = 4 := by
  rw [distanceBits, Nat.clog_one_right]
  rfl

/-- A letter, and five more of it by a copy that runs into itself. -/
theorem letters_unpacked :
    Written [] [.compressed [.literal 0x41, .copy 1 5]] [0x03, 0xB0, 2, 0x41, 2, 0] ∧
      ovbaDecompress [1, 0x03, 0xB0, 2, 0x41, 2, 0] defaultLimit =
        .ok [0x41, 0x41, 0x41, 0x41, 0x41, 0x41] := by
  have bytes : spell (tokenBytes 0) [] [.literal 0x41, .copy 1 5] = [0x41, 2, 0] := by
    simp only [spell, tokenBytes, Token.extend, List.nil_append, List.length_singleton,
      Nat.sub_zero, distanceBits_one]
    decide
  have writable : Along (Writable 0) [] [Token.literal 0x41, .copy 1 5] := by
    refine ⟨trivial, ⟨le_rfl, le_rfl, by decide, ?_, by decide⟩, trivial⟩
    simp only [Token.extend, List.nil_append, List.length_singleton, Nat.sub_zero, distanceBits_one]
    decide
  have groups : Groups 0 [] [Token.literal 0x41, .copy 1 5] (2 :: [0x41, 2, 0]) :=
    bytes ▸ @Groups.last 0 [] _ 2 writable (by decide)
  have written : Written [] [.compressed [.literal 0x41, .copy 1 5]] [0x03, 0xB0, 2, 0x41, 2, 0] :=
    @Written.compressed [] [2, 0x41, 2, 0] [] _ [] groups (by decide) .nil
  exact ⟨written, ((ovbaDecompress_written defaultLimit).1 written).trans (by decide)⟩

/-! ## Too much -/

/-- So many chunks of zeros as they are, and one zero more in a chunk that is compressed. -/
def zeroChunks (count : Nat) : List Chunk :=
  List.replicate count (.raw (List.replicate 4096 0)) ++ [.compressed [.literal 0]]

/-- The chunks, each behind its header. -/
def zeroBytes (count : Nat) : Bytes :=
  (List.replicate count ([0xFF, 0x3F] ++ List.replicate 4096 0)).flatten ++ [0x01, 0xB0, 0, 0]

private theorem written_zeros (history : Bytes) (count : Nat) :
    Written history (zeroChunks count) (zeroBytes count) := by
  induction count generalizing history with
  | zero =>
      have groups : Groups history.length history [Token.literal 0] [0, 0] :=
        @Groups.last history.length history [Token.literal 0] 0 ⟨trivial, trivial⟩ (by decide)
      exact .compressed groups (by decide) .nil
  | succ count induction =>
      have length : (List.replicate 4096 (0 : UInt8)).length = 4096 := List.length_replicate
      have written := Written.raw (by rw [length]; decide) length.le (fun _ => length)
        (induction (history ++ List.replicate 4096 0))
      rw [length] at written
      have bytes : zeroBytes (count + 1) =
          wordBytes (0x3000 + (4096 - 1)) ++ (List.replicate 4096 0 ++ zeroBytes count) := by
        rw [zeroBytes, List.replicate_succ, List.flatten_cons, List.append_assoc, List.append_assoc,
          ← zeroBytes]
        rfl
      rw [bytes, zeroChunks, List.replicate_succ, List.cons_append, ← zeroChunks]
      exact written

private theorem overruns_zeros (limit count : Nat) (history : Bytes)
    (much : limit < history.length + 4096 * count + 1) :
    overruns limit history (zeroChunks count) = true := by
  induction count generalizing history with
  | zero =>
      have longer : limit < (expand history [Token.literal (0 : UInt8)]).length := by
        change limit < (history ++ [0]).length
        rw [List.length_append]
        exact much
      change (decide (limit < (expand history [Token.literal 0]).length) || false) = true
      rw [decide_eq_true longer, Bool.true_or]
  | succ count induction =>
      rw [zeroChunks, List.replicate_succ, List.cons_append, ← zeroChunks, overruns]
      refine induction _ ?_
      rw [List.length_append, List.length_replicate]
      omega

private theorem zeros_refused {limit count : Nat} (much : limit < 4096 * count + 1)
    (value : Bytes) : ovbaDecompress (1 :: zeroBytes count) limit ≠ .ok value := by
  have result := @readChunks_written (1 :: zeroBytes count) [] 1 limit _ _
    (written_zeros [] count) rfl (Nat.succ_le_succ (Nat.zero_le _))
  have above : overruns limit [] (zeroChunks count) = true :=
    overruns_zeros limit count [] (by
      rw [List.length_nil]
      omega)
  rw [resultOf, if_pos above] at result
  rw [ovbaDecompress, List.head?_cons, if_pos rfl, result]
  nofun

/-- Chunks that are written as they should be are refused where they hold more than 10 MB; and
other bytes are refused where they do not start as a container does. -/
theorem zeroBytes_refused : Written [] (zeroChunks 2560) (zeroBytes 2560) ∧
    ovbaDecompress (1 :: zeroBytes 2560) defaultLimit ≠ .ok (unpacked (zeroChunks 2560)) ∧
    ovbaDecompress [0] defaultLimit = .error (.valueError "not a compressed VBA container") :=
  ⟨written_zeros [] 2560, zeros_refused (by decide) (unpacked (zeroChunks 2560)), rfl⟩

end Ovba
end FileScan
end DomainLens

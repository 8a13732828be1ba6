import Avs.LibreText

/-!
The chunked bodies of `src/rest/chunk.c`: `chunk_encode` writes blocks with their lengths in hexadecimal, and
the decoder collects pieces of them in a buffer that it reads again from the start each time it is asked.
-/
namespace Avs.Chunk
open List Option

open Avs.LibreText

/-- `struct mbuf`: the bytes up to its end, and the position. -/
structure Mbuf where
  buf : Bytes
  pos : Nat
  deriving DecidableEq, Repr

def Mbuf.left (mb : Mbuf) : Bytes := mb.buf.drop mb.pos

def Mbuf.advance (mb : Mbuf) (n : Nat) : Mbuf := { mb with pos := mb.pos + n }

/-- `mbuf_write_mem`, over what there is at a position within the buffer. -/
def Mbuf.writeMem (mb : Mbuf) (data : Bytes) : Mbuf :=
  ⟨mb.buf.take mb.pos ++ data ++ mb.buf.drop (mb.pos + data.length), mb.pos + data.length⟩

def maxChunkSize : Nat := 65536

def maxChunks : Nat := 256

def minHdrSize : Nat := 2

/-- The expression `[0-9a-f]+[\r]*[\n]1`. -/
def header : List Item := [⟨isHex, 1, none⟩, ⟨inRange 13 13, 0, none⟩, ⟨inRange 10 10, 1, some 1⟩]

def lenDecode (mb : Mbuf) : Except Errno (Nat × Mbuf) :=
  if mb.left.length < minHdrSize then .error .EBADMSG
  else
    match reRegex header mb.left with
    | some (0, [hdr, cr, lf]) => .ok (plX32 hdr, mb.advance (hdr.length + cr.length + lf.length))
    | _ => .error .EBADMSG

/-- `chunk_decode`: the data of a chunk and the buffer behind it. A buffer with an error is rewound to where it was. -/
def chunkDecode (mb : Mbuf) : Except Errno (Bytes × Mbuf) :=
  if mb.left.length < 2 then .error .EBADMSG
  else
    match lenDecode mb with
    | .error err => .error err
    | .ok (len, mb') =>
      if maxChunkSize < len then .error .EOVERFLOW
      else if mb'.left.length < len + 2 then .error .EBADMSG
      else .ok (mb'.left.take len, mb'.advance (len + 2))

/-- `chunk_encode` of data that may be null. -/
def chunkEncode (mb : Mbuf) (p : Option Bytes) (len : Nat) : Except Errno Mbuf :=
  if maxChunkSize < len then .error .EINVAL
  else .ok (((mb.writeMem (printHex len ++ ascii "\r\n")).writeMem ((p.getD []).take len)).writeMem (ascii "\r\n"))

/-- The loop of the functions of the decoder, from the front of its buffer: chunks are decoded until one fails, `n` are
    decoded, or what is done with one ends it. -/
def walk {α : Type} (visit : α → Bytes → α × Bool) : Nat → α → Mbuf → α × Option Errno × Mbuf
  | 0, acc, mb => (acc, none, mb)
  | n + 1, acc, mb =>
    match chunkDecode mb with
    | .error err => (acc, some err, mb)
    | .ok (data, mb') =>
      match visit acc data with
      | (acc', true) => (acc', none, mb')
      | (acc', false) => walk visit n acc' mb'

def appendData (dec : Mbuf) (data : Bytes) : Mbuf := { dec with pos := dec.buf.length }.writeMem data

/-- What `chunk_decoder_count_chunks` does with the data of a chunk, and that its loop does not end there; the same for
    the functions below. -/
def visitCount (n : Nat) (_ : Bytes) : Nat × Bool := (n + 1, false)

def visitFinal (_ : Bool) (data : Bytes) : Bool × Bool := (data.isEmpty, data.isEmpty)

def visitLength (total : Nat) (data : Bytes) : Nat × Bool := (total + data.length, data.isEmpty)

def visitUnchunk (mb : Mbuf) (data : Bytes) : Mbuf × Bool :=
  if data.isEmpty then (mb, true) else (mb.writeMem data, false)

def countChunks (dec : Mbuf) : Nat × Mbuf :=
  let (n, _, dec') := walk visitCount maxChunks 0 { dec with pos := 0 }
  (n, dec')

def isFinal (dec : Mbuf) : Bool × Mbuf :=
  let (final, _, dec') := walk visitFinal maxChunks false { dec with pos := 0 }
  (final, dec')

def decoderLength (dec : Mbuf) : Nat × Mbuf :=
  let (total, _, dec') := walk visitLength maxChunks 0 { dec with pos := 0 }
  (total, dec')

/-- `chunk_decoder_unchunk`: its error, the buffer written to, and the decoder. -/
def unchunk (dec mb : Mbuf) : Option Errno × Mbuf × Mbuf :=
  let (mb', err, dec') := walk visitUnchunk maxChunks mb { dec with pos := 0 }
  (err, mb', dec')

def chunkBytes (block : Bytes) : Bytes := printHex block.length ++ ascii "\r\n" ++ block ++ ascii "\r\n"

/-- The blocks and the terminator, each as a chunk. -/
def wire (blocks : List Bytes) : Bytes := (blocks ++ [[]]).flatMap chunkBytes

/-- Writes the blocks, and the terminator as the caller does. -/
def encodeBlocks (mb : Mbuf) : List Bytes → Except Errno Mbuf
  | [] => chunkEncode mb none 0
  | block :: rest =>
    match chunkEncode mb (some block) block.length with
    | .error err => .error err
    | .ok mb' => encodeBlocks mb' rest

variable {buf data first second rest block : Bytes} {mb : Mbuf} {blocks : List Bytes}

theorem writeMem_end : (Mbuf.mk buf buf.length).writeMem data = ⟨buf ++ data, (buf ++ data).length⟩ := by
  simp [Mbuf.writeMem]

theorem writeMem_nil : mb.writeMem [] = mb := by
  simp [Mbuf.writeMem]

theorem writeMem_within (within : mb.pos ≤ mb.buf.length) (data : Bytes) :
    (mb.writeMem data).pos ≤ (mb.writeMem data).buf.length := by
  simp only [Mbuf.writeMem, length_append, length_take]
  omega

theorem writeMem_writeMem (within : mb.pos ≤ mb.buf.length) :
    (mb.writeMem first).writeMem second = mb.writeMem (first ++ second) := by
  have front : (mb.buf.take mb.pos ++ first).length = mb.pos + first.length := by
    rw [length_append, length_take_of_le within]
  have before : (mb.writeMem first).buf.take (mb.writeMem first).pos = mb.buf.take mb.pos ++ first :=
    take_left' front
  have behind : (mb.writeMem first).buf.drop ((mb.writeMem first).pos + second.length) =
      mb.buf.drop (mb.pos + (first.length + second.length)) := by
    simp only [Mbuf.writeMem]
    rw [← front, drop_length_add_append, drop_drop, front, Nat.add_assoc]
  rw [Mbuf.writeMem, before, behind]
  simp [Mbuf.writeMem, Nat.add_assoc]

theorem chunkEncode_end (p : Option Bytes) (block : Bytes) (given : p.getD [] = block)
    (fits : block.length ≤ maxChunkSize) :
    chunkEncode ⟨buf, buf.length⟩ p block.length =
      .ok ⟨buf ++ chunkBytes block, (buf ++ chunkBytes block).length⟩ := by
  rw [chunkEncode, if_neg (by omega), given, take_length, writeMem_end, writeMem_end, writeMem_end]
  simp [chunkBytes]

theorem encodeBlocks_end (fit : ∀ block ∈ blocks, block.length ≤ maxChunkSize) (buf : Bytes) :
    encodeBlocks ⟨buf, buf.length⟩ blocks = .ok ⟨buf ++ wire blocks, (buf ++ wire blocks).length⟩ := by
  induction blocks generalizing buf with
  | nil => exact chunkEncode_end none [] rfl (by decide)
  | cons block rest ih =>
    rw [encodeBlocks, chunkEncode_end (some block) block rfl (fit block (by simp))]
    simp only
    rw [ih (fun b member => fit b (by simp [member]))]
    simp [wire]

theorem left_advance {n : Nat} : (mb.advance n).left = mb.left.drop n := by
  simp [Mbuf.left, Mbuf.advance, drop_drop]

/-- The header is found in front of whatever follows it, line ends included. -/
theorem matchHere_header {digits : Bytes} (filled : digits ≠ []) (hex : ∀ c ∈ digits, isHex c = true) :
    matchHere header (digits ++ 13 :: 10 :: rest) = some [digits, [13], [10]] := by
  have some_ : 0 < digits.length := length_pos_iff.mpr filled
  have first : (Item.mk isHex 1 none).taken (digits ++ 13 :: 10 :: rest) = digits :=
    Item.taken_append rfl hex (by simp; decide)
  have second : (Item.mk (inRange 13 13) 0 none).taken ([13] ++ 10 :: rest) = [13] :=
    Item.taken_append rfl (forall_mem_singleton.mpr rfl) (by simp; decide)
  have third : (Item.mk (inRange 10 10) 1 (some 1)).taken (10 :: rest) = [10] := by
    simp only [Item.taken, take_succ_cons, take_zero]
    decide
  rw [header, matchHere, first, if_neg (by show ¬ _ < 1; omega), drop_left]
  rw [matchHere]
  simp only [singleton_append] at second
  rw [second]
  simp [matchHere, third]

theorem crlf : ascii "\r\n" = [13, 10] := by decide

theorem inRange_lf {c : UInt8} (lf : inRange 10 10 c = true) : c = 10 := by
  simp only [inRange, Bool.and_eq_true, decide_eq_true_eq] at lf
  have same : lower c = 10 := UInt8.le_antisymm lf.2 lf.1
  unfold lower at same
  split at same
  · next upper =>
    rw [UInt8.le_iff_toNat_le, UInt8.le_iff_toNat_le] at upper
    have sum := congrArg UInt8.toNat same
    simp [UInt8.toNat_add] at sum upper
    omega
  · exact same

theorem matchHere_no_lf {text : Bytes} (none_ : 10 ∉ text) : matchHere header text = none := by
  rw [eq_none_iff_forall_ne_some]
  intro runs matched
  obtain ⟨c, member, lf⟩ := @matchHere_mem _ _ _ ⟨inRange 10 10, 1, some 1⟩ matched (by simp [header]) (by decide)
  exact none_ (inRange_lf lf ▸ member)

theorem lenDecode_header {len : Nat} (fits : len ≤ maxChunkSize)
    (left_ : mb.left = printHex len ++ 13 :: 10 :: rest) : ∃ mb', lenDecode mb = .ok (len, mb') ∧ mb'.left = rest := by
  have filled : mb.left ≠ [] := by simp [left_]
  have found : reRegex header mb.left = some (0, [printHex len, [13], [10]]) := by
    rw [reRegex_zero_iff filled, left_]
    exact matchHere_header printBase_ne_nil printHex_isHex
  have long : ¬ mb.left.length < minHdrSize := by
    simp only [left_, minHdrSize, length_append, length_cons]
    omega
  have read : plX32 (printHex len) = len := plX32_printHex (by simp only [maxChunkSize] at fits; omega)
  refine ⟨mb.advance ((printHex len).length + 1 + 1), ?_, ?_⟩
  · simp only [lenDecode, if_neg long, found, read, length_singleton]
  · rw [left_advance, left_, Nat.add_assoc, drop_length_add_append]
    rfl

theorem lenDecode_no_lf (none_ : 10 ∉ mb.left) : ∃ err, lenDecode mb = .error err := by
  unfold lenDecode
  split
  · exact ⟨_, rfl⟩
  · next long =>
    have filled : mb.left ≠ [] := by
      intro empty
      simp [empty, minHdrSize] at long
    split
    · next found =>
      rw [reRegex_zero_iff filled, matchHere_no_lf none_] at found
      cases found
    · exact ⟨_, rfl⟩

theorem chunkDecode_block (fits : block.length ≤ maxChunkSize)
    (left_ : mb.left = chunkBytes block ++ rest) : ∃ mb', chunkDecode mb = .ok (block, mb') ∧ mb'.left = rest := by
  have split : mb.left = printHex block.length ++ 13 :: 10 :: (block ++ 13 :: 10 :: rest) := by
    simp [left_, chunkBytes, crlf]
  have long : ¬ mb.left.length < 2 := by
    simp only [split, length_append, length_cons]
    omega
  obtain ⟨mb', decoded, behind⟩ := lenDecode_header fits split
  refine ⟨mb'.advance (block.length + 2), ?_, ?_⟩
  · rw [chunkDecode, if_neg long, decoded]
    simp [behind, Nat.not_lt.mpr fits]
  · rw [left_advance, behind, drop_length_add_append]
    rfl

theorem chunkDecode_part {more : Bytes} (fits : block.length ≤ maxChunkSize)
    (left_ : mb.left ++ more = chunkBytes block) (missing : more ≠ []) : ∃ err, chunkDecode mb = .error err := by
  have split : mb.left ++ more = (printHex block.length ++ [13]) ++ (10 :: (block ++ [13, 10])) := by
    simp [left_, chunkBytes, crlf]
  have early : ∀ t, printHex block.length ++ [13] = mb.left ++ t → ∃ err, lenDecode mb = .error err := by
    intro t front
    apply lenDecode_no_lf
    intro member
    have inside : (10 : UInt8) ∈ printHex block.length ++ [13] := front ▸ mem_append_left t member
    rcases mem_append.mp inside with digit | cr
    · exact absurd (printHex_isHex 10 digit) (by decide)
    · exact absurd cr (by decide)
  have failed : (∃ err, lenDecode mb = .error err) ∨
      ∃ mb', lenDecode mb = .ok (block.length, mb') ∧ mb'.left.length < block.length + 2 := by
    rcases append_eq_append_iff.mp split with ⟨t, front, _⟩ | ⟨t, past, rest⟩
    · exact .inl (early t front)
    · cases t with
      | nil => exact .inl (early [] (by simpa using past.symm))
      | cons c t =>
        -- it ends behind the header, with too little of the data
        obtain ⟨rfl, rest'⟩ := List.cons.inj rest
        obtain ⟨mb', decoded, behind⟩ := lenDecode_header fits (by simpa using past)
        have total : (block ++ [13, 10]).length = (t ++ more).length := congrArg List.length rest'
        have some_ := length_pos_iff.mpr missing
        simp only [length_append, length_cons, length_nil] at total
        exact .inr ⟨mb', decoded, by rw [behind]; omega⟩
  unfold chunkDecode
  split
  · exact ⟨_, rfl⟩
  · rcases failed with ⟨err, decoded⟩ | ⟨mb', decoded, short⟩
    · rw [decoded]
      exact ⟨err, rfl⟩
    · rw [decoded]
      simp [Nat.not_lt.mpr fits, short]

section
variable {α : Type} {visit : α → Bytes → α × Bool} {mb' : Mbuf} {n : Nat} {acc : α}

theorem wire_cons {rest : List Bytes} : wire (block :: rest) = chunkBytes block ++ wire rest := by
  simp [wire]

theorem walk_ok (decoded : chunkDecode mb = .ok (data, mb')) :
    walk visit (n + 1) acc mb =
      if (visit acc data).2 then ((visit acc data).1, none, mb') else walk visit n (visit acc data).1 mb' := by
  rcases seen : visit acc data with ⟨acc', _ | _⟩
  · simp [walk, decoded, seen]
  · simp [walk, decoded, seen]

theorem walk_error {err : Errno} (failed : chunkDecode mb = .error err) :
    walk visit (n + 1) acc mb = (acc, some err, mb) := by
  rw [walk, failed]

def visited (visit : α → Bytes → α × Bool) (acc : α) (blocks : List Bytes) : α :=
  blocks.foldl (fun acc block => (visit acc block).1) acc

/-- The walk over all that was written visits all blocks and the terminator, if the visitor ends it there and not
    before. -/
theorem walk_wire (ends : ∀ acc block, (visit acc block).2 = block.isEmpty)
    (sized : ∀ block ∈ blocks, block ≠ [] ∧ block.length ≤ maxChunkSize) (few : blocks.length < n)
    (left_ : mb.left = wire blocks) :
    ∃ mb', walk visit n acc mb = ((visit (visited visit acc blocks) []).1, none, mb') := by
  induction blocks generalizing n acc mb with
  | nil =>
    obtain ⟨n, rfl⟩ : ∃ k, n = k + 1 := ⟨n - 1, by simp only [length_nil] at few; omega⟩
    have terminator : mb.left = chunkBytes [] ++ [] := by simpa [wire] using left_
    obtain ⟨mb', decoded, _⟩ := chunkDecode_block (by decide) terminator
    exact ⟨mb', by rw [walk_ok decoded, ends]; rfl⟩
  | cons block rest ih =>
    obtain ⟨n, rfl⟩ : ∃ k, n = k + 1 := ⟨n - 1, by simp only [length_cons] at few; omega⟩
    obtain ⟨filled, fits⟩ := sized block (by simp)
    rw [wire_cons] at left_
    obtain ⟨mb', decoded, behind⟩ := chunkDecode_block fits left_
    rw [walk_ok decoded, ends, isEmpty_eq_false_iff.mpr filled]
    exact ih (fun b member => sized b (by simp [member])) (by simpa using few) behind

theorem ends_in_or_past {part more : Bytes} (whole : part ++ more = first ++ second) :
    (∃ t, t ≠ [] ∧ part ++ t = first) ∨ ∃ t, part = first ++ t ∧ second = t ++ more := by
  rcases append_eq_append_iff.mp whole with ⟨t, within, behind⟩ | ⟨t, past, behind⟩
  · by_cases complete : t = []
    · subst complete
      exact .inr ⟨[], by simpa using within.symm, by simpa using behind.symm⟩
    · exact .inl ⟨t, complete, within.symm⟩
  · exact .inr ⟨t, past, behind⟩

/-- The walk over a part of it visits some of the blocks and fails. -/
theorem walk_part (ends : ∀ acc block, (visit acc block).2 = block.isEmpty)
    (sized : ∀ block ∈ blocks, block ≠ [] ∧ block.length ≤ maxChunkSize) (few : blocks.length < n)
    {more : Bytes} (left_ : mb.left ++ more = wire blocks) (missing : more ≠ []) :
    ∃ front err mb', front <+: blocks ∧ walk visit n acc mb = (visited visit acc front, some err, mb') := by
  induction blocks generalizing n acc mb with
  | nil =>
    obtain ⟨n, rfl⟩ : ∃ k, n = k + 1 := ⟨n - 1, by simp only [length_nil] at few; omega⟩
    have terminator : mb.left ++ more = chunkBytes [] := by simpa [wire] using left_
    obtain ⟨err, failed⟩ := chunkDecode_part (by decide) terminator missing
    exact ⟨[], err, mb, prefix_rfl, walk_error failed⟩
  | cons block rest ih =>
    obtain ⟨n, rfl⟩ : ∃ k, n = k + 1 := ⟨n - 1, by simp only [length_cons] at few; omega⟩
    obtain ⟨filled, fits⟩ := sized block (by simp)
    rw [wire_cons] at left_
    rcases ends_in_or_past left_ with ⟨t, incomplete, within⟩ | ⟨t, past, behind⟩
    · obtain ⟨err, failed⟩ := chunkDecode_part fits within incomplete
      exact ⟨[], err, mb, nil_prefix, walk_error failed⟩
    · obtain ⟨mb', decoded, rest_⟩ := chunkDecode_block fits past
      obtain ⟨front, err, last, inside, walked⟩ := @ih mb' n (visit acc block).1
        (fun b member => sized b (by simp [member])) (by simpa using few) (by rw [rest_, ← behind])
      refine ⟨block :: front, err, last, cons_prefix_cons.mpr ⟨rfl, inside⟩, ?_⟩
      rw [walk_ok decoded, ends, isEmpty_eq_false_iff.mpr filled]
      exact walked

theorem chunkDecode_buf (decoded : chunkDecode mb = .ok (data, mb')) : mb'.buf = mb.buf := by
  have len : ∀ {n mb''}, lenDecode mb = .ok (n, mb'') → mb''.buf = mb.buf := by
    intro n mb'' read
    unfold lenDecode at read
    split at read
    · cases read
    · split at read
      · cases read
        rfl
      · cases read
  unfold chunkDecode at decoded
  split at decoded
  · cases decoded
  · split at decoded
    · cases decoded
    · next read =>
      split at decoded
      · cases decoded
      · split at decoded
        · cases decoded
        · cases decoded
          exact (by exact len read : _ = mb.buf)

theorem walk_buf : (walk visit n acc mb).2.2.buf = mb.buf := by
  induction n generalizing acc mb with
  | zero => rfl
  | succ n ih =>
    cases decoded : chunkDecode mb with
    | error err => rw [walk_error decoded]
    | ok found =>
      rw [walk_ok decoded]
      split
      · exact chunkDecode_buf decoded
      · rw [ih, chunkDecode_buf decoded]

end

/-- The calls to a decoder. -/
inductive Call
  | append (data : Bytes)
  | countChunks
  | isFinal
  | length
  | unchunk (mb : Mbuf)

def call (dec : Mbuf) : Call → Mbuf
  | .append data => appendData dec data
  | .countChunks => (countChunks dec).2
  | .isFinal => (isFinal dec).2
  | .length => (decoderLength dec).2
  | .unchunk mb => (unchunk dec mb).2.2

def decoder (calls : List Call) : Mbuf := calls.foldl call ⟨[], 0⟩

def Call.piece : Call → Bytes
  | .append data => data
  | _ => []

def appended (calls : List Call) : Bytes := calls.flatMap Call.piece

theorem call_buf {dec : Mbuf} {c : Call} : (call dec c).buf = dec.buf ++ c.piece := by
  cases c with
  | append data => rw [call, appendData, writeMem_end]; rfl
  | countChunks => simp only [call, countChunks, walk_buf, Call.piece, append_nil]
  | isFinal => simp only [call, isFinal, walk_buf, Call.piece, append_nil]
  | length => simp only [call, decoderLength, walk_buf, Call.piece, append_nil]
  | unchunk mb => simp only [call, unchunk, walk_buf, Call.piece, append_nil]

theorem decoder_buf {calls : List Call} : (decoder calls).buf = appended calls := by
  suffices general : ∀ dec : Mbuf, (calls.foldl call dec).buf = dec.buf ++ appended calls from general ⟨[], 0⟩
  induction calls with
  | nil => intro dec; simp [appended]
  | cons c rest ih =>
    intro dec
    rw [foldl_cons, ih, call_buf]
    simp [appended]

theorem visited_writeMem (filled : ∀ block ∈ blocks, block ≠ []) {out : Mbuf}
    (within : out.pos ≤ out.buf.length) : visited visitUnchunk out blocks = out.writeMem blocks.flatten := by
  induction blocks generalizing out with
  | nil => exact writeMem_nil.symm
  | cons block rest ih =>
    have step : (visitUnchunk out block).1 = out.writeMem block := by
      simp [visitUnchunk, filled block (by simp)]
    have written := ih (fun b member => filled b (by simp [member])) (writeMem_within within block)
    rw [writeMem_writeMem within] at written
    rw [flatten_cons, ← written, ← step]
    rfl

theorem visited_length {total : Nat} :
    visited visitLength total blocks = total + blocks.flatten.length := by
  induction blocks generalizing total with
  | nil => rfl
  | cons block rest ih =>
    rw [flatten_cons, length_append, ← Nat.add_assoc, ← ih]
    rfl

theorem visited_final (filled : ∀ block ∈ blocks, block ≠ []) :
    visited visitFinal false blocks = false := by
  induction blocks with
  | nil => rfl
  | cons block rest ih =>
    have step : (visitFinal false block).1 = false := by
      simp [visitFinal, filled block (by simp)]
    rw [← ih (fun b member => filled b (by simp [member]))]
    nth_rewrite 2 [← step]
    rfl

theorem visitUnchunk_ends (mb : Mbuf) (block : Bytes) : (visitUnchunk mb block).2 = block.isEmpty := by
  cases block with
  | nil => rfl
  | cons c rest => rfl

/-- Blocks that were written and are appended to a decoder in any pieces, with whatever calls in between, are complete
    exactly when nothing is missing, and are then given back. -/
theorem chunks_reassembled (blocks : List Bytes) (few : blocks.length ≤ 255)
    (sized : ∀ block ∈ blocks, block ≠ [] ∧ block.length ≤ maxChunkSize) :
    ∃ mb, encodeBlocks ⟨[], 0⟩ blocks = .ok mb ∧
      ∀ calls missing, appended calls ++ missing = mb.buf →
        (isFinal (decoder calls)).1 = decide (missing = []) ∧
        (missing = [] →
          (decoderLength (decoder calls)).1 = blocks.flatten.length ∧
          ∀ out : Mbuf, out.pos ≤ out.buf.length →
            (unchunk (decoder calls) out).1 = none ∧
            (unchunk (decoder calls) out).2.1 = out.writeMem blocks.flatten) := by
  refine ⟨_, encodeBlocks_end (fun block member => (sized block member).2) [], ?_⟩
  intro calls missing whole
  have enough : blocks.length < maxChunks := by
    simp only [maxChunks]
    omega
  have filled : ∀ block ∈ blocks, block ≠ [] := fun block member => (sized block member).1
  have left_ : (Mbuf.mk (decoder calls).buf 0).left ++ missing = wire blocks := by
    simpa [Mbuf.left, decoder_buf] using whole
  by_cases complete : missing = []
  · rw [complete, append_nil] at left_
    refine ⟨?_, fun _ => ⟨?_, fun out within => ?_⟩⟩
    · obtain ⟨_, walked⟩ := @walk_wire _ _ _ visitFinal _ false (fun _ _ => rfl) sized enough left_
      simp [isFinal, walked, complete, visitFinal]
    · obtain ⟨_, walked⟩ := @walk_wire _ _ _ visitLength _ 0 (fun _ _ => rfl) sized enough left_
      simp [decoderLength, walked, visited_length, visitLength]
    · obtain ⟨_, walked⟩ := @walk_wire _ _ _ _ _ out visitUnchunk_ends sized enough left_
      rw [visited_writeMem filled within] at walked
      simp [unchunk, walked, visitUnchunk]
  · refine ⟨?_, fun nothing => absurd nothing complete⟩
    obtain ⟨front, _, _, inside, walked⟩ :=
      @walk_part _ _ _ visitFinal _ false (fun _ _ => rfl) sized enough _ left_ complete
    rw [visited_final (fun block member => filled block (inside.subset member))] at walked
    simp [isFinal, walked, complete]

/-- Two blocks, one of which looks like a header, in pieces cut anywhere. -/
theorem chunks_reassembled_pieces : ∃ mb, encodeBlocks ⟨[], 0⟩ [ascii "3\r\n", ascii "abc"] = .ok mb ∧
      mb.buf = ascii "3\r\n3\r\n\r\n3\r\nabc\r\n0\r\n\r\n" ∧
      (isFinal (decoder [.append (ascii "3\r\n3\r"), .isFinal, .append (ascii "\n\r\n3")])).1 = false ∧
      (unchunk (decoder [.append (ascii "3\r\n3\r"), .isFinal, .append (ascii "\n\r\n3\r\nabc\r\n0\r\n\r\n")])
        ⟨[], 0⟩).2.1 = ⟨ascii "3\r\nabc", 6⟩ := by
  obtain ⟨mb, encoded, reassembled⟩ := chunks_reassembled [ascii "3\r\n", ascii "abc"] (by decide) (by decide)
  have bytes : mb.buf = ascii "3\r\n3\r\n\r\n3\r\nabc\r\n0\r\n\r\n" := by
    have := encoded.symm.trans (encodeBlocks_end (by decide) [])
    cases this
    decide +kernel
  refine ⟨mb, encoded, bytes, ?_, ?_⟩
  · have part := reassembled [.append (ascii "3\r\n3\r"), .isFinal, .append (ascii "\n\r\n3")]
      (ascii "\r\nabc\r\n0\r\n\r\n") (by rw [bytes]; decide)
    exact part.1.trans (by decide)
  · have all := reassembled [.append (ascii "3\r\n3\r"), .isFinal, .append (ascii "\n\r\n3\r\nabc\r\n0\r\n\r\n")] []
      (by rw [bytes]; decide)
    exact ((all.2 rfl).2 ⟨[], 0⟩ (by decide)).2.trans (by decide)

end Avs.Chunk

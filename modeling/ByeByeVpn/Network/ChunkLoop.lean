import ByeByeVpn.Network.HttpFraming

/-!
# The loop over the chunks

The loop of `http_get` with its cursor, which is a `size_t`, and the streams
that it is made for: blocks of data behind their size lines, up to a line with
the size zero. Such a stream may be cut anywhere.
-/

namespace ByeByeVpn

open Search
open Http (crlf)

/-- The loop with a bound on its turns. `pos` is the cursor. -/
def chunkLoop (body : Bytes) : Nat → Nat → Bytes → Option Bytes
  | 0, _, _ => none
  | turns + 1, pos, decoded =>
    if pos < body.length then
      match findFrom crlf body pos with
      | none => some decoded
      | some nl =>
        let len := strtol 16 ((body.drop pos).take (nl - pos))
        if !len.converted || len.value < 0 then some decoded
        else if len.value = 0 then some decoded
        else
          let pos := nl + 2
          let n := len.value.toNat
          if body.length < (pos + n) % 2 ^ 64 then some decoded
          else chunkLoop body turns ((pos + n + 2) % 2 ^ 64) (decoded ++ (body.drop pos).take n)
    else some decoded

theorem strtol_le_longMax (base : Nat) (s : Bytes) : (strtol base s).value ≤ longMax := by
  have hzero : (0 : Int) ≤ longMax := by decide
  have hlow : -longMax - 1 ≤ longMax := by decide
  simp only [strtol, apply_ite Strtol.value]
  generalize (strtolSign (s.dropWhile isspace)).2 = t
  generalize (if base = 16 then skipHexPrefix t else t) = t
  split
  · exact hzero
  · exact Int.max_le.mpr ⟨hlow, Int.min_le_right _ _⟩

/-- The loop ends, and does with the cursor what `decodeChunks` does with the
rest of the body. No sum wraps around. -/
theorem chunkLoop_eq {body : Bytes} (hlen : (body.length : Int) ≤ longMax) {turns pos : Nat}
    (hturns : body.length - pos < turns) (decoded : Bytes) :
    chunkLoop body turns pos decoded = some (decodeChunks (body.drop pos) decoded) := by
  induction turns generalizing pos decoded with
  | zero => exact absurd hturns (Nat.not_lt_zero _)
  | succ turns ih =>
    rw [chunkLoop]
    split_ifs with hpos
    · cases hnl : find crlf (body.drop pos) with
      | none =>
        rw [findFrom, hnl, decodeChunks_none hnl]
        rfl
      | some nl =>
        rw [findFrom, hnl, Option.map_some, decodeChunks_some hnl]
        dsimp only
        rw [Nat.add_sub_cancel]
        have hmax := strtol_le_longMax 16 ((body.drop pos).take nl)
        have hfind := length_of_find hnl
        generalize strtol 16 ((body.drop pos).take nl) = len at hmax ⊢
        have hdrop : ∀ k, (body.drop pos).drop (nl + 2 + k) = body.drop (nl + pos + 2 + k) := by
          intro k
          rw [List.drop_drop]
          congr 1
          omega
        have hdata : (body.drop pos).drop (nl + 2) = body.drop (nl + pos + 2) := hdrop 0
        simp only [crlf, List.length_cons, List.length_nil, List.length_drop, longMax]
          at hfind hlen hmax
        rw [hdata, List.length_drop, Nat.add_assoc (nl + 2), hdrop, ← Nat.add_assoc (nl + pos + 2)]
        split_ifs with hconv hz hout hout' hin'
        · rfl
        · rfl
        · rfl
        · omega
        · omega
        · rw [Nat.mod_eq_of_lt (by omega)] at hout ⊢
          exact ih (by omega) _
    · rw [List.drop_eq_nil_of_le (Nat.not_lt.mp hpos), decodeChunks_none rfl]

-- ---------------------------------------------------------------------------
-- Streams of chunks
-- ---------------------------------------------------------------------------

/-- A line that announces `n` bytes, with extensions that may hold anything but
the end of a line. -/
structure SizeLine (n : Nat) where
  size : Bytes
  ext : Bytes
  nonempty : size ≠ []
  hex : ∀ c ∈ size, isxdigit c = true
  value : ofDigits 16 size = n
  ext_first : ∀ c ∈ ext.head?, c = chr ';'
  ext_line : ¬crlf <:+: ext

def SizeLine.text (l : SizeLine n) : Bytes := l.size ++ l.ext

structure Block where
  data : Bytes
  nonempty : data ≠ []
  line : SizeLine data.length

namespace Block

variable (b : Block)

def text : Bytes := b.line.text ++ crlf ++ b.data ++ crlf

/-- The data of the block ends here in its text. -/
def dataEnd : Nat := (b.line.text ++ crlf ++ b.data).length

theorem dataEnd_eq : b.dataEnd = b.line.text.length + 2 + b.data.length := by
  simp only [dataEnd, List.length_append]
  rfl

theorem length_text : b.text.length = b.dataEnd + 2 := List.length_append

theorem length_data_pos : 0 < b.data.length := List.length_pos_of_ne_nil b.nonempty

end Block

/-- Blocks, the line that announces nothing, and whatever follows it. -/
structure ChunkStream where
  blocks : List Block
  last : SizeLine 0
  after : Bytes

def ChunkStream.text (s : ChunkStream) : Bytes :=
  s.blocks.flatMap Block.text ++ (s.last.text ++ crlf ++ s.after)

def wholeBlocks : Nat → List Block → List Block
  | _, [] => []
  | n, b :: blocks =>
    if b.dataEnd ≤ n then b :: wholeBlocks (n - b.text.length) blocks
    else wholeBlocks (n - b.text.length) blocks

@[simp] theorem wholeBlocks_zero (blocks : List Block) : wholeBlocks 0 blocks = [] := by
  induction blocks with
  | nil => rfl
  | cons b blocks ih =>
    have hend : ¬b.dataEnd ≤ 0 := by
      have hpos := b.length_data_pos
      rw [b.dataEnd_eq]
      omega
    rw [wholeBlocks, if_neg hend, Nat.zero_sub, ih]

theorem wholeBlocks_all {blocks : List Block} {n : Nat}
    (h : (blocks.flatMap Block.text).length ≤ n) : wholeBlocks n blocks = blocks := by
  induction blocks generalizing n with
  | nil => rfl
  | cons b blocks ih =>
    have hlen := b.length_text
    rw [List.flatMap_cons, List.length_append] at h
    rw [wholeBlocks, if_pos (by omega), ih (by omega)]

-- ---------------------------------------------------------------------------
-- What the loop makes of them
-- ---------------------------------------------------------------------------

namespace SizeLine

variable (l : SizeLine n)

theorem not_crlf : ¬crlf <:+: l.text := by
  have hcr : (13 : UInt8) ∉ l.size := fun hm => absurd (l.hex 13 hm) (by decide)
  have hskip : find crlf l.text = (find crlf l.ext).map (· + l.size.length) := find_skip hcr
  rw [← find_eq_none_iff, hskip, find_eq_none_iff.mpr l.ext_line]
  rfl

theorem decode_cut {p : Bytes} (hp : p <+: l.text ++ [13]) (decoded : Bytes) :
    decodeChunks p decoded = decoded :=
  decodeChunks_none (Http.find_crlf_cut l.not_crlf hp) decoded

theorem decode (s decoded : Bytes) :
    decodeChunks (l.text ++ crlf ++ s) decoded =
      if min n longMax.toNat = 0 then decoded
      else if s.length < min n longMax.toNat then decoded
      else decodeChunks (s.drop (min n longMax.toNat + 2))
        (decoded ++ s.take (min n longMax.toNat)) := by
  have hext : ∀ c ∈ l.ext.head?, isDigitOf 16 c = false ∧ (tolower c == chr 'x') = false := by
    intro c hc
    rw [l.ext_first c hc]
    decide
  have hdec := decodeChunks_sizeLine (s := s) l.nonempty l.hex l.not_crlf hext decoded
  rw [announced, l.value] at hdec
  exact hdec

end SizeLine

/-- A line and what follows it are cut in the line, or behind it. -/
theorem take_line (l s : Bytes) (n : Nat) :
    (n < l.length + 2 ∧ (l ++ crlf ++ s).take n <+: l ++ [13]) ∨
      ∃ m, n = l.length + 2 + m ∧ (l ++ crlf ++ s).take n = l ++ crlf ++ s.take m := by
  have hlen : (l ++ crlf).length = l.length + 2 := List.length_append
  rcases Nat.lt_or_ge n (l.length + 2) with h | h
  · left
    have hsplit : l ++ crlf ++ s = (l ++ [13]) ++ 10 :: s := by simp [crlf]
    have hle : n ≤ (l ++ [13]).length := by
      rw [List.length_append]
      exact Nat.le_of_lt_succ h
    rw [hsplit, List.take_append_of_le_length hle]
    exact ⟨h, List.take_prefix ..⟩
  · right
    obtain ⟨m, rfl⟩ := Nat.exists_eq_add_of_le h
    exact ⟨m, rfl, by rw [← hlen, List.take_length_add_append]⟩

/-- However the stream is cut, the loop finds the data that is still whole. -/
theorem decodeChunks_take (s : ChunkStream) (n : Nat) (hn : (n : Int) ≤ longMax)
    (decoded : Bytes) :
    decodeChunks (s.text.take n) decoded =
      decoded ++ (wholeBlocks n s.blocks).flatMap Block.data := by
  obtain ⟨blocks, last, after⟩ := s
  simp only [ChunkStream.text]
  induction blocks generalizing n decoded with
  | nil =>
    rw [List.flatMap_nil, List.nil_append, wholeBlocks, List.flatMap_nil, List.append_nil]
    rcases take_line last.text after n with ⟨-, hp⟩ | ⟨m, -, hm⟩
    · exact last.decode_cut hp decoded
    · rw [hm, last.decode, Nat.zero_min, if_pos rfl]
  | cons b blocks ih =>
    generalize hrest : blocks.flatMap Block.text ++ (last.text ++ crlf ++ after) = rest at ih
    have htext : (b :: blocks).flatMap Block.text ++ (last.text ++ crlf ++ after) =
        b.line.text ++ crlf ++ (b.data ++ crlf ++ rest) := by
      rw [List.flatMap_cons, List.append_assoc, hrest, Block.text]
      simp only [List.append_assoc]
    have hend := b.dataEnd_eq
    have hpos := b.length_data_pos
    -- nothing is held behind a block that is cut
    have hcut : n < b.dataEnd → (wholeBlocks n (b :: blocks)).flatMap Block.data = [] := by
      intro hlt
      rw [wholeBlocks, if_neg (Nat.not_le.mpr hlt), b.length_text, Nat.sub_eq_zero_of_le (by omega),
        wholeBlocks_zero]
      rfl
    rw [htext]
    rcases take_line b.line.text (b.data ++ crlf ++ rest) n with ⟨hlt, hp⟩ | ⟨m, rfl, hm⟩
    · rw [b.line.decode_cut hp, hcut (by omega), List.append_nil]
    · rw [hm, b.line.decode]
      rcases Nat.lt_or_ge m b.data.length with hlt | hge
      · have hshort : ((b.data ++ crlf ++ rest).take m).length ≤ m := List.length_take_le ..
        rw [if_neg (by omega), if_pos (by omega), hcut (by omega), List.append_nil]
      · obtain ⟨k, rfl⟩ := Nat.exists_eq_add_of_le hge
        have hv : min b.data.length longMax.toNat = b.data.length := by omega
        have htake : ((b.data ++ crlf ++ rest).take (b.data.length + k)).take b.data.length =
            b.data := by
          rw [List.take_take, Nat.min_eq_left (Nat.le_add_right _ _), List.append_assoc,
            List.take_left]
        have hdrop : ((b.data ++ crlf ++ rest).take (b.data.length + k)).drop (b.data.length + 2) =
            rest.take (k - 2) := by
          have hlen : (b.data ++ crlf).length = b.data.length + 2 := List.length_append
          rw [List.drop_take, ← hlen, List.drop_left, hlen]
          congr 1
          omega
        have hlong :
            b.data.length ≤ ((b.data ++ crlf ++ rest).take (b.data.length + k)).length := by
          rw [List.length_take, List.append_assoc, List.length_append]
          omega
        rw [hv, if_neg (by omega), if_neg (by omega), htake, hdrop, ih _ (by omega), wholeBlocks,
          if_pos (by omega), List.flatMap_cons, List.append_assoc, b.length_text]
        congr 4
        omega

/-- Chunk decoding undoes chunk encoding, and a cut only shortens what it
finds: the loop ends with the data of the blocks that are held in whole. A
`std::string` is no longer than the largest `long`. -/
theorem chunkLoop_stream (s : ChunkStream) :
    ((s.text.length : Int) ≤ longMax → ∀ turns, s.text.length < turns →
      chunkLoop s.text turns 0 [] = some (s.blocks.flatMap Block.data)) ∧
    ∀ body, body <+: s.text → (body.length : Int) ≤ longMax → ∀ turns, body.length < turns →
      chunkLoop body turns 0 [] = some ((wholeBlocks body.length s.blocks).flatMap Block.data) := by
  have hbody : ∀ body, body <+: s.text → (body.length : Int) ≤ longMax → ∀ turns,
      body.length < turns →
      chunkLoop body turns 0 [] = some ((wholeBlocks body.length s.blocks).flatMap Block.data) := by
    intro body hp hlen turns hturns
    have hdec := decodeChunks_take s body.length hlen []
    rw [← List.prefix_iff_eq_take.mp hp, List.nil_append] at hdec
    rw [chunkLoop_eq hlen (by omega), List.drop_zero, hdec]
  refine ⟨fun hlen turns hturns => ?_, hbody⟩
  rw [hbody _ (List.prefix_refl _) hlen turns hturns, wholeBlocks_all]
  rw [ChunkStream.text, List.length_append]
  exact Nat.le_add_right _ _

def bareLine (size : Bytes) (hne : size ≠ []) (hex : size.all isxdigit = true) :
    SizeLine (ofDigits 16 size) where
  size := size
  ext := []
  nonempty := hne
  hex := List.all_eq_true.mp hex
  value := rfl
  ext_first := by simp
  ext_line := by simp [crlf]

/-- Two blocks, of which the first looks like the end of a line and a size. -/
def twoBlocks : ChunkStream where
  blocks := [⟨ascii "\r\n5", by decide, bareLine (ascii "03") (by decide) (by decide)⟩,
    ⟨ascii "0123456789", by decide, bareLine (ascii "A") (by decide) (by decide)⟩]
  last := bareLine (ascii "0") (by decide) (by decide)
  after := ascii "\r\nmore"

theorem chunkLoop_twoBlocks :
    chunkLoop twoBlocks.text 100 0 [] = some (ascii "\r\n50123456789") ∧
      chunkLoop (twoBlocks.text.take 21) 100 0 [] = some (ascii "\r\n5") := by
  have h := chunkLoop_stream twoBlocks
  exact ⟨h.1 (by decide) 100 (by decide),
    h.2 (twoBlocks.text.take 21) (List.take_prefix ..) (by decide) 100 (by decide)⟩

end ByeByeVpn

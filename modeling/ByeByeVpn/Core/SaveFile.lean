import ByeByeVpn.Lib.Ansi

/-!
# The saved report (`core/utils.cpp`)

`save_write_stripped` leaves the terminal sequences out of what it writes. The
bytes around a sequence come together in the file, and may be a sequence there.
-/

namespace ByeByeVpn

open Ansi

/-- The loop of `save_write_stripped`, in or out of a sequence. -/
def writeStripped : (inside : Bool) → Bytes → Bytes
  | _, [] => []
  | true, c :: s => writeStripped (!(chr '@' ≤ c && c ≤ chr '~')) s
  | false, 0x1b :: 0x5b :: s => writeStripped true s
  | false, c :: s => c :: writeStripped false s

def saveWriteStripped (s : Bytes) : Bytes := writeStripped false s

/-- What the file should hold of `s`. -/
structure Stripped (s written : Bytes) : Prop where
  noSequence : ¬introducer <:+: written
  again : saveWriteStripped written = written
  others : ∃ ps, Reads ps s ∧ written = ps.filterMap Piece.byte?

theorem writeStripped_alone {c : UInt8} {s : Bytes} (h : ¬introducer <+: c :: s) :
    writeStripped false (c :: s) = c :: writeStripped false s := by
  rw [writeStripped.eq_def]
  split
  · next heq => cases heq
  · next h' _ => cases h'
  · next _ heq =>
    cases heq
    exact absurd (List.prefix_append introducer _) h
  · next _ heq =>
    cases heq
    rfl

theorem writeStripped_inside {params : Bytes} (h : ∀ d ∈ params, isFinal d = false) (s : Bytes) :
    writeStripped true (params ++ s) = writeStripped true s := by
  induction params with
  | nil => rfl
  | cons d params ih =>
    have hd : (chr '@' ≤ d && d ≤ chr '~') = false := h d List.mem_cons_self
    rw [List.cons_append, writeStripped, hd]
    exact ih fun e he => h e (List.mem_cons_of_mem d he)

/-- The bytes that are written are the pieces that are not sequences. -/
theorem Ansi.Reads.written {ps : List Piece} {s : Bytes} (h : Reads ps s) :
    saveWriteStripped s = ps.filterMap Piece.byte? := by
  induction h with
  | nil => rfl
  | byte alone _ ih =>
    exact (writeStripped_alone alone).trans (congrArg _ ih)
  | @sequence ps params s c inner final _ ih =>
    have hc : (chr '@' ≤ c && c ≤ chr '~') = true := final
    calc writeStripped true (params ++ c :: s)
      _ = writeStripped true (c :: s) := writeStripped_inside inner _
      _ = writeStripped false s := by rw [writeStripped, hc]; rfl
      _ = _ := ih
  | @cut params inner =>
    have hparams := writeStripped_inside inner []
    rw [List.append_nil] at hparams
    exact hparams

theorem saveWriteStripped_plain {s : Bytes} (h : ¬introducer <:+: s) : saveWriteStripped s = s := by
  induction s with
  | nil => rfl
  | cons c s ih =>
    have hrest : ¬introducer <:+: s := fun hin => h (hin.trans (List.suffix_cons c s).isInfix)
    exact (writeStripped_alone fun hp => h hp.isInfix).trans (congrArg _ (ih hrest))

theorem introducer_infix_saveWriteStripped_iff (s : Bytes) :
    introducer <:+: saveWriteStripped s ↔ Joins s := by
  constructor
  · intro h
    obtain ⟨ps, hps⟩ := exists_reads s
    rw [hps.written, introducer_infix_filterMap_iff] at h
    obtain ⟨before, between, after, rfl, hbetween⟩ := h
    exact ⟨before, between, after, hps, hbetween⟩
  · rintro ⟨before, between, after, hps, hbetween⟩
    rw [hps.written, introducer_infix_filterMap_iff]
    exact ⟨before, between, after, rfl, hbetween⟩

/-- The file holds no sequence unless the text joins the bytes of one. All
other bytes are there in any case. -/
theorem saveWriteStripped_stripped_iff (s : Bytes) :
    Stripped s (saveWriteStripped s) ↔ ¬Joins s := by
  rw [← introducer_infix_saveWriteStripped_iff]
  refine ⟨Stripped.noSequence, fun h => ⟨h, saveWriteStripped_plain h, ?_⟩⟩
  obtain ⟨ps, hps⟩ := exists_reads s
  exact ⟨ps, hps, hps.written⟩

/-- An `ESC` before a colour code and a `[` behind it. -/
theorem saveWriteStripped_joins :
    saveWriteStripped [0x1b, 0x1b, chr '[', chr 'm', chr '['] = [0x1b, chr '['] ∧
    saveWriteStripped [0x1b, chr '['] = [] ∧
    ¬Stripped [0x1b, 0x1b, chr '[', chr 'm', chr '[']
      (saveWriteStripped [0x1b, 0x1b, chr '[', chr 'm', chr '[']) := by
  refine ⟨rfl, rfl, fun h => ?_⟩
  cases h.again

end ByeByeVpn

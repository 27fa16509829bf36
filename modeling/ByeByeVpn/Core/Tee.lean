import ByeByeVpn.Core.SaveFile

/-!
# What is printed and what is saved (`core/utils.cpp`)

All output goes to the screen and, without its terminal sequences, to the
report. The sequences are taken out of each text that is printed by itself.
-/

namespace ByeByeVpn

open Ansi

def INT_MAX : Nat := 2147483647

/-- What `vsnprintf` returns for the text of its arguments, and what stands in
a buffer of `size` bytes afterwards, up to the zero byte. Without a text its
arguments cannot be formatted. -/
def vsnprintf (size : Nat) : Option Bytes → Int × Bytes
  | none => (-1, [])
  | some text => if text.length ≤ INT_MAX then (text.length, text.take (size - 1)) else (-1, [])

/-- The bytes on the screen, and those of the report if there is one. -/
structure Output where
  screen : Bytes
  report : Option Bytes
  deriving DecidableEq

namespace Output

def fwrite (o : Output) (buf : Bytes) : Output := { o with screen := o.screen ++ buf }

/-- `if (g_save_fp) ...` -/
def save (o : Output) (written : Bytes) : Output :=
  { o with report := o.report.map (· ++ written) }

def teePrintf (o : Output) (text : Option Bytes) : Int × Output :=
  let small := vsnprintf 2048 text
  let needed := small.1
  if needed < 0 then (needed, o)
  else if needed = 0 then (0, o)
  else if needed < 2048 then
    let buf := small.2.take needed.toNat
    (needed, (o.fwrite buf).save (saveWriteStripped buf))
  else
    let big := vsnprintf (needed.toNat + 1) text
    if big.1 < 0 then (big.1, o)
    else if 0 < big.1 then
      let buf := big.2.take big.1.toNat
      (needed, (o.fwrite buf).save (saveWriteStripped buf))
    else (needed, o)

/-- The text ends before its zero byte. -/
def teePuts (o : Output) (s : Bytes) : Output :=
  let o := (o.fwrite s).fwrite [chr '\n']
  (o.save (saveWriteStripped s)).save [chr '\n']

end Output

inductive Tee
  | printf (text : Option Bytes)
  | puts (s : Bytes)

def Output.print (o : Output) : Tee → Output
  | .printf text => (o.teePrintf text).2
  | .puts s => o.teePuts s

def Output.printAll (o : Output) (calls : List Tee) : Output := calls.foldl Output.print o

-- ---------------------------------------------------------------------------
-- What a call prints
-- ---------------------------------------------------------------------------

namespace Tee

def shown : Tee → Bytes
  | .printf none => []
  | .printf (some text) => if text.length ≤ INT_MAX then text else []
  | .puts s => s ++ [chr '\n']

def saved : Tee → Bytes
  | .printf text => saveWriteStripped (printf text).shown
  | .puts s => saveWriteStripped s ++ [chr '\n']

end Tee

namespace Output

@[simp] theorem save_save (o : Output) (a b : Bytes) : (o.save a).save b = o.save (a ++ b) := by
  simp [save, Function.comp_def]

@[simp] theorem fwrite_fwrite (o : Output) (a b : Bytes) :
    (o.fwrite a).fwrite b = o.fwrite (a ++ b) := by
  simp [fwrite]

theorem save_fwrite (o : Output) (a b : Bytes) : (o.save a).fwrite b = (o.fwrite b).save a := rfl

@[simp] theorem fwrite_save_nil (o : Output) : (o.fwrite []).save [] = o := by
  cases o with
  | mk screen report => cases report <;> simp [fwrite, save]

end Output

theorem Output.teePrintf_eq (o : Output) (text : Option Bytes) : (o.teePrintf text).2 =
    (o.fwrite (Tee.printf text).shown).save (Tee.printf text).saved := by
  have hnil : o = (o.fwrite []).save [] := (fwrite_save_nil o).symm
  cases text with
  | none => exact hnil
  | some text =>
    by_cases hmax : text.length ≤ INT_MAX
    · have hfits (size : Nat) :
          vsnprintf size (some text) = ((text.length : Int), text.take (size - 1)) := if_pos hmax
      simp only [Tee.saved, Tee.shown, if_pos hmax]
      unfold teePrintf
      rw [hfits]
      dsimp only
      rw [Int.toNat_natCast, hfits, Nat.add_sub_cancel]
      dsimp only
      rw [Int.toNat_natCast, List.take_length, List.take_length, if_neg (by omega)]
      split_ifs with hzero hsmall
      · obtain rfl : text = [] := List.eq_nil_of_length_eq_zero (by omega)
        exact hnil
      · rw [List.take_take, Nat.min_eq_left (by omega), List.take_length]
      · omega
      · rfl
      · omega
    · have hfail (size : Nat) : vsnprintf size (some text) = (-1, []) := if_neg hmax
      simp only [Tee.saved, Tee.shown, if_neg hmax]
      unfold teePrintf
      rw [hfail]
      exact hnil

theorem Output.print_eq (o : Output) (c : Tee) : o.print c = (o.fwrite c.shown).save c.saved := by
  cases c with
  | printf text => exact teePrintf_eq o text
  | puts s => simp [print, teePuts, Tee.shown, Tee.saved]

theorem Output.printAll_eq (o : Output) (calls : List Tee) :
    o.printAll calls = (o.fwrite (calls.flatMap Tee.shown)).save (calls.flatMap Tee.saved) := by
  induction calls generalizing o with
  | nil => exact (fwrite_save_nil o).symm
  | cons c calls ih =>
    rw [printAll, List.foldl_cons, ← printAll, ih, print_eq, save_fwrite, fwrite_fwrite, save_save,
      List.flatMap_cons, List.flatMap_cons]

-- ---------------------------------------------------------------------------
-- Texts that end where a sequence does
-- ---------------------------------------------------------------------------

/-- The text ends neither inside a sequence nor with an `ESC`. -/
def settled : (inside : Bool) → Bytes → Bool
  | inside, [] => !inside
  | true, c :: s => settled (!(chr '@' ≤ c && c ≤ chr '~')) s
  | false, [0x1b] => false
  | false, 0x1b :: 0x5b :: s => settled true s
  | false, _ :: s => settled false s

theorem writeStripped_cons {c : UInt8} {s : Bytes} (hlone : c = 0x1b → s = [] → False)
    (hseq : ∀ s', c = 0x1b → s = 0x5b :: s' → False) (t : Bytes) :
    writeStripped false (c :: (s ++ t)) = c :: writeStripped false (s ++ t) := by
  refine writeStripped_alone fun hp => ?_
  obtain ⟨hc, hp⟩ := List.cons_prefix_cons.mp hp
  cases s with
  | nil => exact hlone hc.symm rfl
  | cons d s =>
    have hd := (List.cons_prefix_cons.mp hp).1
    exact hseq s hc.symm (by rw [← hd]; rfl)

theorem writeStripped_append {inside : Bool} {s : Bytes} (h : settled inside s = true) (t : Bytes) :
    writeStripped inside (s ++ t) = writeStripped inside s ++ writeStripped false t := by
  fun_induction settled inside s with
  | case1 inside =>
    cases inside
    · rfl
    · cases h
  | case2 c s ih => exact ih h
  | case3 => cases h
  | case4 s ih => exact ih h
  | case5 c s hlone hseq ih =>
    have hcons := writeStripped_cons hlone hseq
    have hs := hcons []
    rw [List.append_nil] at hs
    rw [List.cons_append, hcons, hs, ih h, List.cons_append]

theorem writeStripped_append_bracket {inside : Bool} {s : Bytes} (h : settled inside s = false) :
    writeStripped inside (s ++ [chr '[']) ≠ writeStripped inside s ++ [chr '['] := by
  fun_induction settled inside s with
  | case1 inside =>
    cases inside
    · cases h
    · decide
  | case2 c s ih => exact ih h
  | case3 => decide
  | case4 s ih => exact ih h
  | case5 c s hlone hseq ih =>
    have hcons := writeStripped_cons hlone hseq
    have hs := hcons []
    rw [List.append_nil] at hs
    rw [List.cons_append, hcons, hs, List.cons_append]
    exact fun heq => ih h (List.cons.inj heq).2

-- ---------------------------------------------------------------------------
-- The report and the screen
-- ---------------------------------------------------------------------------

def Tee.settles (c : Tee) : Bool :=
  match c with
  | .printf text => settled false (printf text).shown
  | .puts s => settled false s

theorem Tee.saveWriteStripped_shown_append {c : Tee} (h : c.settles = true) (t : Bytes) :
    saveWriteStripped (c.shown ++ t) = c.saved ++ saveWriteStripped t := by
  cases c with
  | printf text => exact writeStripped_append h t
  | puts s =>
    have hs := writeStripped_append h
    calc saveWriteStripped (s ++ [chr '\n'] ++ t)
      _ = saveWriteStripped (s ++ ([chr '\n'] ++ t)) := by rw [List.append_assoc]
      _ = saveWriteStripped s ++ writeStripped false ([chr '\n'] ++ t) := hs _
      _ = saveWriteStripped s ++ ([chr '\n'] ++ saveWriteStripped t) :=
        congrArg _ (writeStripped_append (s := [chr '\n']) rfl t)
      _ = _ := (List.append_assoc ..).symm

theorem flatMap_saved {calls : List Tee} (h : ∀ c ∈ calls, c.settles = true) :
    saveWriteStripped (calls.flatMap Tee.shown) = calls.flatMap Tee.saved := by
  induction calls with
  | nil => rfl
  | cons c calls ih =>
    rw [List.flatMap_cons, Tee.saveWriteStripped_shown_append (h c List.mem_cons_self),
      ih fun d hd => h d (List.mem_cons_of_mem c hd), List.flatMap_cons]

def Follows (calls : List Tee) : Prop :=
  calls.flatMap Tee.saved = saveWriteStripped (calls.flatMap Tee.shown)

/-- A text that does not end where a sequence does spoils the report before
some text that does. -/
theorem not_follows_bracket {s : Bytes} (hlen : s.length ≤ INT_MAX) (h : settled false s = false) :
    ¬Follows [.printf (some s), .printf (some [chr '['])] := by
  have hbracket : Tee.shown (.printf (some [chr '['])) = [chr '['] := by decide
  have hs : Tee.shown (.printf (some s)) = s := if_pos hlen
  intro hfollows
  have hstrip : writeStripped false [chr '['] = [chr '['] := by decide
  refine writeStripped_append_bracket h ?_
  simpa [Follows, Tee.saved, hbracket, hs, saveWriteStripped, hstrip] using hfollows.symm

/-- Whatever is printed reaches the screen as it is, and the report call by
call. The report is the screen without its sequences if each text ends where a
sequence does; behind a text that does not, not every text is saved as it is
shown. -/
theorem tee_screen_and_report (o : Output) (calls : List Tee) :
    (o.printAll calls).screen = o.screen ++ calls.flatMap Tee.shown ∧
    (o.printAll calls).report = o.report.map (· ++ calls.flatMap Tee.saved) ∧
    ((∀ c ∈ calls, c.settles = true) → Follows calls) ∧
    ∀ s : Bytes, s.length ≤ INT_MAX → (settled false s = true ↔
      ∀ rest : List Tee, (∀ c ∈ rest, c.settles = true) → Follows (.printf (some s) :: rest)) := by
  rw [Output.printAll_eq]
  refine ⟨rfl, rfl, fun h => (flatMap_saved h).symm, fun s hs => ⟨fun h rest hrest => ?_, ?_⟩⟩
  · have hsettles : Tee.settles (.printf (some s)) = true := by
      rw [Tee.settles, Tee.shown, if_pos hs, h]
    exact (flatMap_saved (List.forall_mem_cons.mpr ⟨hsettles, hrest⟩)).symm
  · intro hall
    by_contra h
    exact not_follows_bracket hs (Bool.eq_false_iff.mpr h) (hall _ (by decide))

end ByeByeVpn

import ByeByeVpn.Lib.Strtol

/-!
# Bytes in hexadecimal

A byte is written as two digits, and read back by what the digits are worth.
In a percent-encoded text only the bytes behind a `%` are written so.
-/

namespace ByeByeVpn.HexText

def octet (h l : UInt8) : Option UInt8 :=
  if isDigitOf 16 h && isDigitOf 16 l then some (UInt8.ofNat (digitVal h * 16 + digitVal l))
  else none

def read : Bytes → Option Bytes
  | [] => some []
  | [_] => none
  | h :: l :: rest => do
    let c ← octet h l
    let s ← read rest
    return c :: s

def percentDecode : Bytes → Option Bytes
  | [] => some []
  | c :: h :: l :: rest =>
    if c = chr '%' then do
      let c ← octet h l
      let s ← percentDecode rest
      return c :: s
    else (percentDecode (h :: l :: rest)).map (c :: ·)
  | c :: rest => if c = chr '%' then none else (percentDecode rest).map (c :: ·)

variable {c h l : UInt8}

theorem octet_of_digits (hh : digitVal h = c.toNat / 16) (hl : digitVal l = c.toNat % 16) :
    octet h l = some c := by
  have hc := c.toNat_lt
  have hhi : isDigitOf 16 h = true := by
    rw [isDigitOf, hh, decide_eq_true_eq]
    omega
  have hlo : isDigitOf 16 l = true := by
    rw [isDigitOf, hl, decide_eq_true_eq]
    omega
  rw [octet, hhi, hlo, Bool.and_self, if_pos rfl, hh, hl, Nat.div_add_mod', UInt8.ofNat_toNat]

theorem read_pair (ho : octet h l = some c) (rest : Bytes) :
    read (h :: l :: rest) = (read rest).map (c :: ·) := by
  rw [read, ho]
  cases read rest <;> rfl

theorem percentDecode_pair (ho : octet h l = some c) (rest : Bytes) :
    percentDecode (chr '%' :: h :: l :: rest) = (percentDecode rest).map (c :: ·) := by
  rw [percentDecode, if_pos rfl, ho]
  cases percentDecode rest <;> rfl

theorem percentDecode_plain (hc : c ≠ chr '%') (rest : Bytes) :
    percentDecode (c :: rest) = (percentDecode rest).map (c :: ·) := by
  match rest with
  | [] | [_] | _ :: _ :: _ => simp only [percentDecode, if_neg hc]

end ByeByeVpn.HexText

import ByeByeVpn.Lib.TlsHello

/-!
# The ClientHello of the junk probes (`j3_probes`, probe 6)

The bytes are written down in the source, length fields included, and two
places of them are filled at random.
-/

namespace ByeByeVpn

open Tls

def kHello : Bytes :=
  [0x16, 0x03, 0x01, 0x00, 0x70,
    0x01, 0x00, 0x00, 0x6c,
    0x03, 0x03,
    0, 0, 0, 0, 0, 0, 0, 0, 0, 0, 0, 0, 0, 0, 0, 0,
    0, 0, 0, 0, 0, 0, 0, 0, 0, 0, 0, 0, 0, 0, 0, 0,
    0x00,
    0x00, 0x02,
    0x13, 0x02,
    0x01, 0x00,
    0x00, 0x41,
    0x00, 0x00, 0x00, 0x10, 0x00, 0x0e, 0x00, 0x00, 0x0b,
    0, 0, 0, chr '.', chr 'i', chr 'n', chr 'v', chr 'a', chr 'l', chr 'i', chr 'd',
    0x00, 0x10, 0x00, 0x0b, 0x00, 0x09, 0x08,
    chr 'h', chr 't', chr 't', chr 'p', chr '/', chr '1', chr '.', chr '1',
    0x00, 0x0b, 0x00, 0x02, 0x01, 0x00,
    0x00, 0x0a, 0x00, 0x04, 0x00, 0x02, 0x00, 0x1d,
    0x00, 0x0d, 0x00, 0x0a, 0x00, 0x08, 0x04, 0x01, 0x05, 0x01, 0x08, 0x07, 0x08, 0x08,
    0x00, 0x2b, 0x00, 0x03, 0x02, 0x03, 0x04,
    0x00, 0x33, 0x00, 0x02, 0x00, 0x00]

/-- What `RAND_bytes` writes, if it succeeds. -/
abbrev Fill (n : Nat) := Option {b : Bytes // b.length = n}

/-- The search for `.invalid` from `i` on, with the turns that are left. -/
def findInvalid (hello : Bytes) : Nat → Nat → Option Nat
  | 0, _ => none
  | left + 1, i =>
    if i + 11 ≤ hello.length then
      if (hello.drop i).take 8 = ascii ".invalid" then some i else findInvalid hello left (i + 1)
    else none

def randomLetter (b : UInt8) : UInt8 := chr 'a' + b % 26

/-- Three letters before the place that was found. -/
def setLetters (hello : Bytes) (i : Nat) (r : Bytes) : Bytes :=
  ((hello.set (i - 3) (randomLetter (r.getD 0 0))).set (i - 2) (randomLetter (r.getD 1 0))).set
    (i - 1) (randomLetter (r.getD 2 0))

/-- The bytes that are sent; none when the first call fails. -/
def tlsHello (random : Fill 32) (name : Fill 3) : Option Bytes :=
  random.map fun (random : {b : Bytes // b.length = 32}) =>
    let hello := kHello.take 11 ++ random.val ++ kHello.drop (11 + 32)
    match findInvalid hello hello.length (11 + 32), name with
    | some i, some r => setLetters hello i r.val
    | _, _ => hello

-- ---------------------------------------------------------------------------
-- What is sent
-- ---------------------------------------------------------------------------

/-- The letters of the server name, or the zeros that they would replace. -/
def letters : Fill 3 → Bytes
  | none => [0, 0, 0]
  | some r => r.val.map randomLetter

def helloRest (name : Fill 3) : Bytes :=
  (kHello.drop 43).take 18 ++ letters name ++ kHello.drop 64

theorem findInvalid_append (pre s : Bytes) (left i : Nat) :
    findInvalid (pre ++ s) left (pre.length + i) = (findInvalid s left i).map (pre.length + ·) := by
  induction left generalizing i with
  | zero => rfl
  | succ left ih =>
    have hlen : pre.length + i + 11 ≤ (pre ++ s).length ↔ i + 11 ≤ s.length := by
      rw [List.length_append]
      omega
    unfold findInvalid
    rw [List.drop_length_add_append, Nat.add_assoc _ i 1, ih, if_congr hlen rfl rfl]
    split_ifs <;> rfl

theorem setLetters_append (pre s : Bytes) (i : Nat) (hi : 3 ≤ i) (r : Bytes) :
    setLetters (pre ++ s) (pre.length + i) r = pre ++ setLetters s i r := by
  have hsub : ∀ k ≤ 3, pre.length + i - k = pre.length + (i - k) := fun k hk => by omega
  simp only [setLetters, hsub 3 (by decide), hsub 2 (by decide), hsub 1 (by decide),
    List.set_append_right _ _ (Nat.le_add_right _ _), Nat.add_sub_cancel_left]

theorem tlsHello_eq (random : {b : Bytes // b.length = 32}) (name : Fill 3) :
    tlsHello (some random) name = some (kHello.take 11 ++ random ++ helloRest name) := by
  have hpre : (kHello.take 11 ++ random.val).length = 43 := by
    rw [List.length_append, random.property]
    rfl
  have hlen : (kHello.take 11 ++ random.val ++ kHello.drop 43).length = 128 := by
    rw [List.length_append, hpre]
    rfl
  have hfind : findInvalid (kHello.take 11 ++ random.val ++ kHello.drop 43) 128 43 =
      some (43 + 21) := by
    have happend := findInvalid_append (kHello.take 11 ++ random.val) (kHello.drop 43) 128 0
    rw [hpre] at happend
    rw [happend, show findInvalid (kHello.drop 43) 128 0 = some 21 by decide +kernel]
    rfl
  simp only [tlsHello, Option.map_some, hlen, hfind]
  cases name with
  | none => rfl
  | some r =>
    have hset := setLetters_append (kHello.take 11 ++ random.val) (kHello.drop 43) 21 (by decide) r
    rw [hpre] at hset
    simp only [hset]
    obtain ⟨r, hr⟩ := r
    obtain ⟨a, b, c, rfl⟩ := List.length_eq_three.mp hr
    rfl

-- ---------------------------------------------------------------------------
-- The announced lengths
-- ---------------------------------------------------------------------------

def IsName (name : Fill 3) (text : Bytes) : Prop :=
  ∃ pre : Bytes, text = pre ++ ascii ".invalid" ∧ pre.length = 3 ∧
    match name with
    | some _ => ∀ c ∈ pre, chr 'a' ≤ c ∧ c ≤ chr 'z'
    | none => pre = [0, 0, 0]

/-- One record that holds one ClientHello with one server name. -/
def IsHello (name : Fill 3) (bytes : Bytes) : Prop :=
  ∃ h : ClientHello, h.Fits ∧ bytes = h.record ∧
    ∃ text, h.serverNames = [[(0, text)]] ∧ IsName name text

theorem randomLetter_lower (b : UInt8) : chr 'a' ≤ randomLetter b ∧ randomLetter b ≤ chr 'z' := by
  have hmod : (b % 26).toNat < 26 := by
    rw [UInt8.toNat_mod]
    exact Nat.mod_lt _ (by decide)
  have ha : (chr 'a').toNat = 97 := rfl
  have hz : (chr 'z').toNat = 122 := rfl
  simp only [UInt8.le_iff_toNat_le, randomLetter, UInt8.toNat_add, ha, hz]
  omega

theorem letters_isName (name : Fill 3) : IsName name (letters name ++ ascii ".invalid") := by
  cases name with
  | none => exact ⟨_, rfl, rfl, rfl⟩
  | some r =>
    refine ⟨_, rfl, (List.length_map _).trans r.property, fun c hc => ?_⟩
    obtain ⟨b, -, rfl⟩ := List.mem_map.mp hc
    exact randomLetter_lower b

def writtenHello (random : {b : Bytes // b.length = 32}) (name : Fill 3) : ClientHello where
  recordVersion := 0x0301
  version := 0x0303
  random := random
  sessionId := []
  cipherSuites := [0x1302]
  compression := [0]
  extensions :=
    [.serverName [(0, letters name ++ ascii ".invalid")], .protocols [ascii "http/1.1"],
      .pointFormats [0], .groups [0x001d], .signatures [0x0401, 0x0501, 0x0807, 0x0808],
      .versions [0x0304], .keyShare []]

theorem letters_eq (name : Fill 3) : ∃ a b c, letters name = [a, b, c] := by
  cases name with
  | none => exact ⟨0, 0, 0, rfl⟩
  | some r => exact List.length_eq_three.mp ((List.length_map _).trans r.property)

/-- The body behind the random bytes is the array's but for the length of the extensions. -/
theorem writtenHello_body (random : {b : Bytes // b.length = 32}) (name : Fill 3) :
    ∃ rest : Bytes, (writtenHello random name).body = [0x03, 0x03] ++ (random.val ++ rest) ∧
      rest.length = 85 ∧ helloRest name = rest.set 8 0x41 := by
  obtain ⟨a, b, c, hletters⟩ := letters_eq name
  refine ⟨[0, 0, 2, 0x13, 0x02, 1, 0, 0, 0x4c, 0, 0, 0, 0x10, 0, 0x0e, 0, 0, 0x0b] ++
    [a, b, c] ++ kHello.drop 64, ?_, rfl, ?_⟩
  · simp [ClientHello.body, writtenHello, hletters, Extension.text, Extension.code,
      Extension.content, u16, vec, bigEndian, ascii, kHello]
  · rw [helloRest, hletters]
    rfl

theorem writtenHello_handshake_length (random : {b : Bytes // b.length = 32}) (name : Fill 3) :
    (writtenHello random name).body.length = 119 := by
  obtain ⟨rest, hbody, hrest, -⟩ := writtenHello_body random name
  rw [hbody, List.length_append, List.length_append, random.property, hrest]
  rfl

theorem writtenHello_fits (random : {b : Bytes // b.length = 32}) (name : Fill 3) :
    (writtenHello random name).Fits where
  random := random.property
  sessionId := Nat.zero_le 32
  compression := by simp [writtenHello]
  extensions := by
    obtain ⟨a, b, c, hletters⟩ := letters_eq name
    simp [writtenHello, hletters, Extension.Fits, Extension.content, u16, vec, bigEndian, ascii]
  handshake := by
    rw [ClientHello.length_handshake, writtenHello_handshake_length]
    decide

/-- Three lengths are too small by 11, and all else is a hello. -/
theorem tlsHello_written (random : {b : Bytes // b.length = 32}) (name : Fill 3) :
    tlsHello (some random) name =
      some ((((writtenHello random name).record.set 4 0x70).set 8 0x6c).set 51 0x41) := by
  obtain ⟨rest, hbody, -, hset⟩ := writtenHello_body random name
  have hrecord : (writtenHello random name).record =
      [0x16, 0x03, 0x01, 0x00, 0x7b, 0x01, 0x00, 0x00, 0x77, 0x03, 0x03] ++
        (random.val ++ rest) := by
    rw [ClientHello.record, ClientHello.handshake, vec, List.length_cons, vec, List.length_append,
      writtenHello_handshake_length, hbody]
    simp [writtenHello, u16, bigEndian]
  have hrest : (random.val ++ rest).set 40 0x41 = random.val ++ helloRest name := by
    rw [List.set_append_right _ _ (by rw [random.property]; decide), random.property, hset]
  rw [tlsHello_eq, hrecord, List.append_assoc, ← hrest]
  rfl

/-- What is sent for every fill: 128 bytes, of which the record announces 112. -/
theorem tlsHello_length (random : {b : Bytes // b.length = 32}) (name : Fill 3) (bytes : Bytes)
    (hsent : tlsHello (some random) name = some bytes) :
    bytes.length = 128 ∧ bytes.getD 3 0 = 0 ∧ bytes.getD 4 0 = 112 := by
  obtain ⟨a, b, c, hletters⟩ := letters_eq name
  rw [tlsHello_eq] at hsent
  obtain rfl := Option.some.inj hsent
  refine ⟨?_, rfl, rfl⟩
  simp only [helloRest, hletters, List.length_append, random.property]
  rfl

theorem writtenHello_isHello (random : {b : Bytes // b.length = 32}) (name : Fill 3) :
    IsHello name (writtenHello random name).record :=
  ⟨_, writtenHello_fits random name, rfl, _, rfl, letters_isName name⟩

theorem not_isHello_of_sent (random : {b : Bytes // b.length = 32}) (name : Fill 3)
    (bytes : Bytes) (hsent : tlsHello (some random) name = some bytes) : ¬ IsHello name bytes := by
  rintro ⟨h, hfits, rfl, -⟩
  obtain ⟨hlen, h₃, h₄⟩ := tlsHello_length random name _ hsent
  have hrecord := h.record_length hfits
  rw [hlen, h₃, h₄] at hrecord
  exact absurd hrecord (by decide)

/-- The probe sends a well-formed ClientHello only where it sends nothing. -/
theorem tlsHello_isHello_iff (random : Fill 32) (name : Fill 3) :
    (∀ bytes, tlsHello random name = some bytes → IsHello name bytes) ↔ random = none := by
  cases random with
  | none => exact iff_of_true (fun _ hsent => absurd hsent (Option.some_ne_none _).symm) rfl
  | some random =>
    refine iff_of_false (fun hall => ?_) (Option.some_ne_none _)
    exact not_isHello_of_sent random name _ (tlsHello_eq random name)
      (hall _ (tlsHello_eq random name))

theorem tlsHello_zeros :
    ∃ bytes, tlsHello (some ⟨.replicate 32 0, rfl⟩) (some ⟨[0, 0, 0], rfl⟩) = some bytes ∧
      ¬ IsHello (some ⟨[0, 0, 0], rfl⟩) bytes :=
  ⟨_, tlsHello_eq _ _, not_isHello_of_sent _ _ _ (tlsHello_eq _ _)⟩

end ByeByeVpn

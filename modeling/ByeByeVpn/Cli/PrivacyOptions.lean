import ByeByeVpn.Cli.Arguments

/-!
# The options that contact fewer parties (`main.cpp`)

`--stealth` stands for three options. Each is set by its word wherever it
stands, as no option takes such a word for its value, and no option sets
anything back.
-/

namespace ByeByeVpn

def kStealth : Bytes := ascii "--stealth"

def kNoGeoip : Bytes := ascii "--no-geoip"

def kNoCt : Bytes := ascii "--no-ct"

def kUdpJitter : Bytes := ascii "--udp-jitter"

def privacyWords : List Bytes := [kStealth, kNoGeoip, kNoCt, kUdpJitter]

structure Privacy where
  stealth : Bool := false
  noGeoip : Bool := false
  noCt : Bool := false
  udpJitter : Bool := false
  deriving DecidableEq

def Config.privacy (c : Config) : Privacy := ⟨c.stealth, c.noGeoip, c.noCt, c.udpJitter⟩

def Privacy.word (p : Privacy) (a : Bytes) : Privacy where
  stealth := p.stealth || a = kStealth
  noGeoip := p.noGeoip || a = kStealth || a = kNoGeoip
  noCt := p.noCt || a = kStealth || a = kNoCt
  udpJitter := p.udpJitter || a = kStealth || a = kUdpJitter

def privacyWord (a : Bytes) (_ : Option Bytes) : Option Bytes :=
  if privacyWords.contains a then some a else none

theorem Privacy.word_other (p : Privacy) {a : Bytes} (h : a ∉ privacyWords) : p.word a = p := by
  simp only [privacyWords, List.mem_cons, List.not_mem_nil, or_false, not_or] at h
  simp [word, h]

theorem Privacy.elim_privacyWord (p : Privacy) (a : Bytes) (next : Option Bytes) :
    (privacyWord a next).elim p p.word = p.word a := by
  unfold privacyWord
  split_ifs with ha
  · rfl
  · exact (p.word_other fun hmem => ha (List.contains_iff_mem.mpr hmem)).symm

theorem privacyWord_of_not_dashed {v : Bytes} {next : Option Bytes} (h : isDashed v = false) :
    privacyWord v next = none := by
  refine if_neg fun hv => ?_
  have hdash : ∀ w ∈ privacyWords, isDashed w = true := by decide
  exact Bool.false_ne_true (h.symm.trans (hdash v (List.contains_iff_mem.mp hv)))

theorem privacy_of_tookArg {c c' : Config} {a : Bytes} {next : Option Bytes} {used : Bool}
    (h : TookArg c next a c' used) : c'.privacy = c.privacy.word a := by
  have other (hsame : c'.privacy = c.privacy) (ha : a ∉ privacyWords) :
      c'.privacy = c.privacy.word a := by
    rw [hsame, c.privacy.word_other ha]
  have hgeoip : kNoGeoip ≠ kStealth ∧ kNoGeoip ≠ kNoCt ∧ kNoGeoip ≠ kUdpJitter := by decide
  have hct : kNoCt ≠ kStealth ∧ kNoCt ≠ kNoGeoip ∧ kNoCt ≠ kUdpJitter := by decide
  have hjitter : kUdpJitter ≠ kStealth ∧ kUdpJitter ≠ kNoGeoip ∧ kUdpJitter ≠ kNoCt := by decide
  cases h with
  | stealth =>
    change Config.privacy _ = c.privacy.word kStealth
    simp [Privacy.word, Config.privacy]
  | noGeoip =>
    change Config.privacy _ = c.privacy.word kNoGeoip
    simp [Privacy.word, Config.privacy, hgeoip]
  | noCt =>
    change Config.privacy _ = c.privacy.word kNoCt
    simp [Privacy.word, Config.privacy, hct]
  | udpJitter =>
    change Config.privacy _ = c.privacy.word kUdpJitter
    simp [Privacy.word, Config.privacy, hjitter]
  | range _ hv =>
    obtain ⟨globals, rfl⟩ := parseRange_frame hv
    exact other rfl (by decide)
  | ports _ hv =>
    obtain ⟨globals, rfl⟩ := parsePorts_frame hv
    exact other rfl (by decide)
  | verbose ha => rcases ha with rfl | rfl <;> exact other rfl (by decide)
  | positional ha =>
    have hsub : privacyWords ⊆ optionWords := by decide
    exact other rfl fun hw => ha (hsub hw)
  | _ => exact other rfl (by decide)

theorem foldl_privacyWord (args : List Bytes) (p : Privacy) :
    (optionsOf privacyWord args).foldl Privacy.word p = args.foldl Privacy.word p := by
  induction args generalizing p with
  | nil => rfl
  | cons a args ih =>
    rw [optionsOf, List.foldl_append, ih, List.foldl_cons, ← p.elim_privacyWord a args.head?]
    cases privacyWord a args.head? <;> rfl

theorem privacy_parseArgs {c c' : Config} {args : List Bytes} (h : parseArgs c args = .ok c') :
    c'.privacy = args.foldl Privacy.word c.privacy := by
  have hstep {c c' : Config} {a : Bytes} {next : Option Bytes} {used : Bool}
      (ht : TookArg c next a c' used) :
      c'.privacy = (privacyWord a next).elim c.privacy c.privacy.word ∧
        ∀ o ∈ privacyWord a next, True := by
    rw [c.privacy.elim_privacyWord]
    exact ⟨privacy_of_tookArg ht, fun _ _ => trivial⟩
  rw [← foldl_privacyWord]
  exact (parseArgs_options hstep privacyWord_of_not_dashed h).1

theorem foldl_word (args : List Bytes) (p : Privacy) :
    args.foldl Privacy.word p =
      { stealth := p.stealth || kStealth ∈ args
        noGeoip := p.noGeoip || kStealth ∈ args || kNoGeoip ∈ args
        noCt := p.noCt || kStealth ∈ args || kNoCt ∈ args
        udpJitter := p.udpJitter || kStealth ∈ args || kUdpJitter ∈ args } := by
  induction args generalizing p with
  | nil => simp
  | cons a args ih =>
    rw [List.foldl_cons, ih]
    simp only [Privacy.word, List.mem_cons, Bool.decide_or, Privacy.mk.injEq]
    refine ⟨?_, ?_, ?_, ?_⟩ <;> grind

/-- However the words stand among the arguments, each is understood: the
options are on exactly if a word for them is there. -/
theorem privacyOptions_iff (args : List Bytes) (c : Config) (h : parseArgs {} args = .ok c) :
    (c.stealth = true ↔ kStealth ∈ args) ∧
    (c.noGeoip = true ↔ kStealth ∈ args ∨ kNoGeoip ∈ args) ∧
    (c.noCt = true ↔ kStealth ∈ args ∨ kNoCt ∈ args) ∧
    (c.udpJitter = true ↔ kStealth ∈ args ∨ kUdpJitter ∈ args) := by
  have hprivacy := (privacy_parseArgs h).trans (foldl_word args _)
  simp only [Config.privacy, Privacy.mk.injEq] at hprivacy
  obtain ⟨hstealth, hgeoip, hct, hjitter⟩ := hprivacy
  rw [hstealth, hgeoip, hct, hjitter]
  simp

def stealthyArgs : List Bytes := [ascii "--save", kStealth, ascii "192.0.2.1"]

theorem privacyOptions_iff_stealthyArgs :
    ∃ c, parseArgs {} stealthyArgs = .ok c ∧ c.noGeoip = true ∧ c.noCt = true := by
  have h : parseArgs {} stealthyArgs = .ok _ := rfl
  obtain ⟨-, hgeoip, hct, -⟩ := privacyOptions_iff stealthyArgs _ h
  exact ⟨_, h, hgeoip.mpr (.inl (by decide)), hct.mpr (.inl (by decide))⟩

end ByeByeVpn

import ByeByeVpn.Cli.Arguments

/-!
# The ports that the command line asks for

In an argument vector that is accepted, each word `--full`, `--fast`,
`--range` and `--ports` is an option, never the value of another one. The port
globals are then the result of these options, one after the other, and only
the last one counts.
-/

namespace ByeByeVpn

inductive PortOption
  | full
  | fast
  | range (value : Bytes)
  | ports (value : Bytes)
  deriving DecidableEq, Repr

def portOption (a : Bytes) (next : Option Bytes) : Option PortOption :=
  if a = ascii "--full" then some .full
  else if a = ascii "--fast" then some .fast
  else if a = ascii "--range" then next.map .range
  else if a = ascii "--ports" then next.map .ports
  else none

def portOptions : List Bytes → List PortOption
  | [] => []
  | a :: rest => (portOption a rest.head?).toList ++ portOptions rest

namespace PortOption

def entries (v : Bytes) : List Int :=
  ((split v (chr ',')).filter fun tok => !tok.isEmpty).map number

def rangeStart (v : Bytes) : Int := number (v.take (v.idxOf (chr '-')))

def rangeEnd (v : Bytes) : Int := number (v.drop (v.idxOf (chr '-') + 1))

def named : PortOption → List Int
  | .full => portsBetween 1 65535
  | .fast => kTcpFastPorts
  | .range v => portsBetween (rangeStart v) (rangeEnd v)
  | .ports v => entries v

def Valid : PortOption → Prop
  | .range v => 1 ≤ rangeStart v ∧ rangeStart v ≤ rangeEnd v ∧ rangeEnd v ≤ 65535
  | .ports v => ∀ p ∈ entries v, 1 ≤ p ∧ p ≤ 65535
  | _ => True

end PortOption

def PortConfig.choose (c : PortConfig) : PortOption → PortConfig
  | .full => { c with portMode := .full }
  | .fast => { c with portMode := .fast }
  | .range v =>
    { c with
      portMode := .range
      rangeLo := PortOption.rangeStart v
      rangeHi := PortOption.rangeEnd v }
  | .ports v =>
    { c with
      portMode := if PortOption.entries v = [] then c.portMode else .list
      portList := PortOption.entries v }

-- ---------------------------------------------------------------------------
-- The loop
-- ---------------------------------------------------------------------------

theorem parseRange_eq_ok {c c' : Config} {v : Bytes} (h : parseRange c v = .ok c') :
    c'.toPortConfig = c.toPortConfig.choose (.range v) ∧ (PortOption.range v).Valid := by
  unfold parseRange at h
  dsimp only at h
  split_ifs at h
  obtain ⟨lo, hlo, h⟩ := bind_eq_ok.mp h
  obtain ⟨hi, hhi, h⟩ := bind_eq_ok.mp h
  obtain ⟨-, rfl, hlo, -⟩ := parseIntFatal_eq_ok hlo
  obtain ⟨-, rfl, -, hhi⟩ := parseIntFatal_eq_ok hhi
  split_ifs at h with hle
  obtain rfl := Except.ok.inj h
  exact ⟨rfl, hlo, Int.not_lt.mp hle, hhi⟩

theorem foldlM_pushPort {toks : List Bytes} {list list' : List Int}
    (h : toks.foldlM pushPort list = .ok list') :
    list' = list ++ (toks.filter fun tok => !tok.isEmpty).map number ∧
      ∀ p ∈ (toks.filter fun tok => !tok.isEmpty).map number, 1 ≤ p ∧ p ≤ 65535 := by
  induction toks generalizing list with
  | nil =>
    obtain rfl := Except.ok.inj h
    simp
  | cons tok toks ih =>
    rw [List.foldlM_cons] at h
    obtain ⟨mid, hmid, h⟩ := bind_eq_ok.mp h
    obtain ⟨rfl, hv⟩ := ih h
    unfold pushPort at hmid
    split_ifs at hmid with he
    · obtain rfl := Except.ok.inj hmid
      simpa [he] using hv
    · obtain ⟨n, hn, hmid⟩ := bind_eq_ok.mp hmid
      obtain rfl := Except.ok.inj hmid
      obtain ⟨-, rfl, hlo, hhi⟩ := parseIntFatal_eq_ok hn
      rw [List.filter_cons_of_pos (by simp [he]), List.map_cons]
      refine ⟨by simp, ?_⟩
      intro p hp
      rcases List.mem_cons.mp hp with rfl | hp
      · exact ⟨hlo, hhi⟩
      · exact hv p hp

theorem parsePorts_eq_ok {c c' : Config} {v : Bytes} (h : parsePorts c v = .ok c') :
    c'.toPortConfig = c.toPortConfig.choose (.ports v) ∧ (PortOption.ports v).Valid := by
  obtain ⟨list, hl, h⟩ := bind_eq_ok.mp h
  obtain ⟨he, hv⟩ := foldlM_pushPort hl
  obtain rfl : list = PortOption.entries v := he
  obtain rfl := Except.ok.inj h
  refine ⟨?_, hv⟩
  cases he : PortOption.entries v <;> simp [PortConfig.choose, he]

theorem portOption_of_not_dashed {v : Bytes} {next : Option Bytes} (h : isDashed v = false) :
    portOption v next = none := by
  have hne {w : Bytes} (hw : isDashed w = true) : v ≠ w := by
    rintro rfl
    exact Bool.false_ne_true (h.symm.trans hw)
  rw [portOption, if_neg (hne (by decide)), if_neg (hne (by decide)), if_neg (hne (by decide)),
    if_neg (hne (by decide))]

theorem ports_of_tookArg {c c' : Config} {a : Bytes} {next : Option Bytes} {used : Bool}
    (h : TookArg c next a c' used) :
    c'.toPortConfig = (portOption a next).elim c.toPortConfig c.toPortConfig.choose ∧
      ∀ o ∈ portOption a next, o.Valid := by
  have other (hnone : portOption a next = none) (hsame : c'.toPortConfig = c.toPortConfig) :
      c'.toPortConfig = (portOption a next).elim c.toPortConfig c.toPortConfig.choose ∧
        ∀ o ∈ portOption a next, o.Valid := by
    rw [hnone]
    exact ⟨hsame, fun o ho => by cases ho⟩
  have chosen {o : PortOption} (ho : portOption a next = some o)
      (hc : c'.toPortConfig = c.toPortConfig.choose o ∧ o.Valid) :
      c'.toPortConfig = (portOption a next).elim c.toPortConfig c.toPortConfig.choose ∧
        ∀ o ∈ portOption a next, o.Valid := by
    rw [ho]
    exact ⟨hc.1, fun o' ho' => Option.some.inj ho' ▸ hc.2⟩
  cases h with
  | full => exact chosen rfl ⟨rfl, trivial⟩
  | fast => exact chosen rfl ⟨rfl, trivial⟩
  | range hnext hv => exact hnext ▸ chosen (hnext ▸ rfl) (parseRange_eq_ok hv)
  | ports hnext hv => exact hnext ▸ chosen (hnext ▸ rfl) (parsePorts_eq_ok hv)
  | verbose ha => rcases ha with rfl | rfl <;> exact other rfl rfl
  | positional ha =>
    refine other ?_ rfl
    simp only [optionWords, List.map_cons, List.mem_cons, not_or] at ha
    simp [portOption, ha]
  | _ => exact other rfl rfl

theorem portOptions_eq (args : List Bytes) : portOptions args = optionsOf portOption args := by
  induction args with
  | nil => rfl
  | cons a rest ih => rw [portOptions, optionsOf, ih]

theorem parseArgs_ports {c c' : Config} {args : List Bytes} (h : parseArgs c args = .ok c') :
    c'.toPortConfig = (portOptions args).foldl PortConfig.choose c.toPortConfig ∧
      ∀ o ∈ portOptions args, o.Valid := by
  rw [portOptions_eq]
  exact parseArgs_options ports_of_tookArg portOption_of_not_dashed h

-- ---------------------------------------------------------------------------
-- The scan
-- ---------------------------------------------------------------------------

/-- The ports that the last of the options names; all ports without one. -/
def namedBy (os : List PortOption) : List Int := (os.getLast?.getD .full).named

/-- What the command line asks for: ports, and those that the last option names. -/
structure AsAsked (args : List Bytes) (ports : List Int) : Prop where
  nonempty : ports ≠ []
  inRange : ∀ p ∈ ports, 1 ≤ p ∧ p ≤ 65535
  named : ports = namedBy (portOptions args)

theorem inRange_named {o : PortOption} (h : o.Valid) : ∀ p ∈ o.named, 1 ≤ p ∧ p ≤ 65535 := by
  intro p hp
  cases o with
  | full => exact mem_portsBetween.mp hp
  | fast =>
    have hall := List.all_eq_true.mp
      (by decide : kTcpFastPorts.all fun p => 1 ≤ p ∧ p ≤ 65535) p hp
    simpa using hall
  | range v =>
    obtain ⟨h₁, -, h₃⟩ := h
    obtain ⟨hlo, hhi⟩ := mem_portsBetween.mp hp
    omega
  | ports v => exact h p hp

theorem buildTcpPorts_choose {c : PortConfig} {o : PortOption} (h : o.Valid) (hne : o.named ≠ []) :
    buildTcpPorts (c.choose o) = o.named := by
  cases o with
  | full => rfl
  | fast => rfl
  | range v =>
    obtain ⟨h₁, h₂, h₃⟩ := h
    have hlo : max kMinPortNumber (PortOption.rangeStart v) = PortOption.rangeStart v :=
      Int.max_eq_right h₁
    have hhi : min kMaxPortNumber (PortOption.rangeEnd v) = PortOption.rangeEnd v :=
      Int.min_eq_right h₃
    simp only [buildTcpPorts, PortConfig.choose, hlo, hhi, PortOption.named]
    rw [if_neg (Int.not_lt.mpr h₂)]
  | ports v =>
    have he : PortOption.entries v ≠ [] := hne
    simp only [buildTcpPorts, PortConfig.choose, if_neg he, PortOption.named]

theorem filter_splitFrom {sep : UInt8} (current s : Bytes) :
    ((splitFrom sep current s).filter fun tok => !tok.isEmpty) = [] ↔
      current = [] ∧ ∀ b ∈ s, b = sep := by
  induction s generalizing current with
  | nil => cases current <;> simp [splitFrom]
  | cons c s ih =>
    unfold splitFrom
    split_ifs with hc
    · subst hc
      cases current with
      | nil => simpa using ih []
      | cons d current => simp
    · simp [ih, hc]

theorem entries_eq_nil {v : Bytes} : PortOption.entries v = [] ↔ ∀ b ∈ v, b = chr ',' := by
  rw [PortOption.entries, List.map_eq_nil_iff, split, filter_splitFrom]
  simp

theorem named_eq_nil {o : PortOption} (h : o.Valid) :
    o.named = [] ↔ ∃ v, o = .ports v ∧ ∀ b ∈ v, b = chr ',' := by
  cases o with
  | full =>
    have hm : (1 : Int) ∈ PortOption.full.named :=
      mem_portsBetween.mpr ⟨Int.le_refl 1, by decide⟩
    simp [List.ne_nil_of_mem hm]
  | fast => simp [PortOption.named, kTcpFastPorts]
  | range v =>
    have hm : PortOption.rangeStart v ∈ (PortOption.range v).named :=
      mem_portsBetween.mpr ⟨Int.le_refl _, h.2.1⟩
    simp [List.ne_nil_of_mem hm]
  | ports v => simp [PortOption.named, entries_eq_nil]

/-- The scan covers what the command line asks for, unless the last port
option is a list without an entry: it is not rejected, and it empties the list
of an earlier `--ports`. -/
theorem asAsked_iff (args : List Bytes) (c : Config) (h : parseArgs {} args = .ok c) :
    AsAsked args (buildTcpPorts c.toPortConfig) ↔
      ¬∃ v, (portOptions args).getLast? = some (.ports v) ∧ ∀ b ∈ v, b = chr ',' := by
  obtain ⟨hc, hv⟩ := parseArgs_ports h
  rcases List.eq_nil_or_concat (portOptions args) with hos | ⟨os, o, hos⟩
  · rw [hos] at hc
    rw [hc, hos]
    have hb : buildTcpPorts {} = PortOption.full.named := rfl
    have hne : PortOption.full.named ≠ [] := by simp [named_eq_nil (o := .full) trivial]
    refine iff_of_true ⟨?_, ?_, ?_⟩ (by simp)
    · exact hb ▸ hne
    · exact hb ▸ inRange_named (o := .full) trivial
    · rw [hos]
      exact hb
  · rw [List.concat_eq_append] at hos
    have ho : o.Valid := hv o (by simp [hos])
    have hl : (portOptions args).getLast? = some o := by simp [hos]
    rw [hos, List.foldl_append, List.foldl_cons, List.foldl_nil] at hc
    simp only [hl, Option.some.injEq, ← named_eq_nil ho]
    constructor
    · intro hask hn
      have := hask.named
      rw [namedBy, hl, Option.getD_some, hn] at this
      exact hask.nonempty this
    · intro hne
      have hb := buildTcpPorts_choose (c := os.foldl PortConfig.choose ({} : Config).toPortConfig)
        ho hne
      rw [← hc] at hb
      exact ⟨hb ▸ hne, hb ▸ inRange_named ho, by rw [hb, namedBy, hl, Option.getD_some]⟩

def fullThenRange : List Bytes :=
  [ascii "--full", ascii "a.example", ascii "--range", ascii "80-81"]

theorem asAsked_iff_fullThenRange :
    ∃ c, parseArgs {} fullThenRange = .ok c ∧ buildTcpPorts c.toPortConfig = [80, 81] ∧
      AsAsked fullThenRange (buildTcpPorts c.toPortConfig) := by
  have hc : parseArgs {} fullThenRange =
      .ok { portMode := .range, rangeLo := 80, rangeHi := 81, pos := [ascii "a.example"] } := by
    decide +kernel
  refine ⟨_, hc, by decide, (asAsked_iff fullThenRange _ hc).mpr ?_⟩
  have hl : (portOptions fullThenRange).getLast? = some (.range (ascii "80-81")) := by
    decide +kernel
  simp [hl]

/-- The second list has no entry, and the first one is gone. -/
def emptiedList : List Bytes := [ascii "--ports", ascii "80", ascii "--ports", ascii ","]

theorem not_asAsked_emptiedList :
    ¬∀ args c, parseArgs {} args = .ok c → AsAsked args (buildTcpPorts c.toPortConfig) := by
  intro h
  have hc : parseArgs {} emptiedList = .ok { portMode := .list } := by decide +kernel
  exact (h emptiedList _ hc).nonempty rfl

end ByeByeVpn

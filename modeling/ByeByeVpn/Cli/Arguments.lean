import ByeByeVpn.Cli.Main

/-!
# Reading the arguments (`main.cpp`)

What one argument does, branch by branch, and what follows for the loop: the
value of an option never begins with two dashes, so a word that does is an
option wherever it stands.
-/

namespace ByeByeVpn

theorem bind_eq_ok {x : Except Exit α} {f : α → Except Exit β} {b : β} :
    x >>= f = .ok b ↔ ∃ a, x = .ok a ∧ f a = .ok b := by
  cases x <;> simp [bind, Except.bind]

theorem required_eq_ok {next : Option Bytes} {message : String} {v : Bytes} :
    required next message = .ok v ↔ next = some v := by
  cases next <;> simp [required]

def number (tok : Bytes) : Int := (strtol 10 tok).value

theorem tryParseInt_eq_some {s : Bytes} {minV maxV n : Int} (h : tryParseInt s minV maxV = some n) :
    (strtol 10 s).converted = true ∧ n = number s ∧ minV ≤ n ∧ n ≤ maxV := by
  unfold tryParseInt at h
  dsimp only at h
  split_ifs at h with he hr
  obtain rfl := Option.some.inj h
  simp only [Bool.or_eq_true, Bool.not_eq_true', decide_eq_true_eq, not_or] at hr
  obtain ⟨⟨⟨⟨-, hc⟩, -⟩, hmin⟩, hmax⟩ := hr
  exact ⟨by simpa using hc, rfl, by omega, by omega⟩

theorem parseIntFatal_eq_ok {s : Bytes} {name : String} {minV maxV n : Int}
    (h : parseIntFatal s name minV maxV = .ok n) :
    (strtol 10 s).converted = true ∧ n = number s ∧ minV ≤ n ∧ n ≤ maxV := by
  unfold parseIntFatal at h
  split at h
  · next out ho =>
    obtain rfl := Except.ok.inj h
    exact tryParseInt_eq_some ho
  · cases h

-- ---------------------------------------------------------------------------
-- One argument
-- ---------------------------------------------------------------------------

def isPath (nxt : Bytes) : Bool := !nxt.isEmpty && !startsWith nxt (ascii "-")

def optionWords : List Bytes :=
  ["--no-color", "--verbose", "-v", "--threads", "--tcp-to", "--udp-to", "--syn", "--stealth",
    "--no-geoip", "--no-ct", "--use-ip-api", "--udp-jitter", "--save", "--full", "--fast",
    "--range", "--ports", "--help", "-h", "/?"].map ascii

/-- `TookArg c next a c' used`: the argument `a` with `next` after it turns `c`
into `c'`, and uses up `next` or not. -/
inductive TookArg (c : Config) (next : Option Bytes) : Bytes → Config → Bool → Prop
  | noColor : TookArg c next (ascii "--no-color") { c with noColor := true } false
  | verbose {a : Bytes} (ha : a = ascii "--verbose" ∨ a = ascii "-v") :
    TookArg c next a { c with verbose := true } false
  | threads {v : Bytes} {threads : Int} (hnext : next = some v)
      (hv : parseIntFatal v "--threads" kMinThreadCount kMaxThreadCount = .ok threads) :
    TookArg c next (ascii "--threads") { c with threads } true
  | tcpTo {v : Bytes} {tcpTo : Int} (hnext : next = some v)
      (hv : parseIntFatal v "--tcp-to" kMinTimeoutMs kMaxTimeoutMs = .ok tcpTo) :
    TookArg c next (ascii "--tcp-to") { c with tcpTo } true
  | udpTo {v : Bytes} {udpTo : Int} (hnext : next = some v)
      (hv : parseIntFatal v "--udp-to" kMinTimeoutMs kMaxTimeoutMs = .ok udpTo) :
    TookArg c next (ascii "--udp-to") { c with udpTo } true
  | syn : TookArg c next (ascii "--syn") { c with tcpSynScan := true } false
  | stealth : TookArg c next (ascii "--stealth")
      { c with stealth := true, noGeoip := true, noCt := true, udpJitter := true } false
  | noGeoip : TookArg c next (ascii "--no-geoip") { c with noGeoip := true } false
  | noCt : TookArg c next (ascii "--no-ct") { c with noCt := true } false
  | useIpApi : TookArg c next (ascii "--use-ip-api") c false
  | udpJitter : TookArg c next (ascii "--udp-jitter") { c with udpJitter := true } false
  | saveTo {path : Bytes} (hnext : next = some path) (hpath : isPath path = true) :
    TookArg c next (ascii "--save") { c with saveRequested := true, savePath := path } true
  | save (hnext : ∀ path, next = some path → isPath path = false) :
    TookArg c next (ascii "--save") { c with saveRequested := true } false
  | full : TookArg c next (ascii "--full") { c with portMode := .full } false
  | fast : TookArg c next (ascii "--fast") { c with portMode := .fast } false
  | range {v : Bytes} {c' : Config} (hnext : next = some v) (hv : parseRange c v = .ok c') :
    TookArg c next (ascii "--range") c' true
  | ports {v : Bytes} {c' : Config} (hnext : next = some v) (hv : parsePorts c v = .ok c') :
    TookArg c next (ascii "--ports") c' true
  | positional {a : Bytes} (ha : a ∉ optionWords) :
    TookArg c next a { c with pos := c.pos ++ [a] } false

section
variable {c c' : Config} {a : Bytes} {next : Option Bytes} {used : Bool}

theorem value_eq_ok {message : String} {parse : Bytes → Except Exit α} {set : α → Config}
    (h : (required next message >>= fun v => parse v >>= fun x =>
      (.ok (set x, true) : Except Exit (Config × Bool))) = .ok (c', used)) :
    ∃ v x, next = some v ∧ parse v = .ok x ∧ c' = set x ∧ used = true := by
  obtain ⟨v, hv, h⟩ := bind_eq_ok.mp h
  obtain ⟨x, hx, h⟩ := bind_eq_ok.mp h
  obtain ⟨rfl, rfl⟩ := Prod.mk.inj (Except.ok.inj h)
  exact ⟨v, x, required_eq_ok.mp hv, hx, rfl, rfl⟩

theorem tookArg_of_parseArg (h : parseArg c a next = .ok (c', used)) :
    TookArg c next a c' used := by
  have flag {d : Config} (he : (.ok (d, false) : Except Exit (Config × Bool)) = .ok (c', used))
      (ht : TookArg c next a d false) : TookArg c next a c' used := by
    obtain ⟨rfl, rfl⟩ := Prod.mk.inj (Except.ok.inj he)
    exact ht
  unfold parseArg at h
  obtain ⟨rfl, h⟩ | ⟨hcolor, h⟩ := ite_eq_iff.mp h
  · exact flag h .noColor
  obtain ⟨ha, h⟩ | ⟨hverbose, h⟩ := ite_eq_iff.mp h
  · exact flag h (.verbose ha)
  obtain ⟨rfl, h⟩ | ⟨hthreads, h⟩ := ite_eq_iff.mp h
  · obtain ⟨v, n, hnext, hv, rfl, rfl⟩ := value_eq_ok h
    exact .threads hnext hv
  obtain ⟨rfl, h⟩ | ⟨htcpTo, h⟩ := ite_eq_iff.mp h
  · obtain ⟨v, n, hnext, hv, rfl, rfl⟩ := value_eq_ok h
    exact .tcpTo hnext hv
  obtain ⟨rfl, h⟩ | ⟨hudpTo, h⟩ := ite_eq_iff.mp h
  · obtain ⟨v, n, hnext, hv, rfl, rfl⟩ := value_eq_ok h
    exact .udpTo hnext hv
  obtain ⟨rfl, h⟩ | ⟨hsyn, h⟩ := ite_eq_iff.mp h
  · exact flag h .syn
  obtain ⟨rfl, h⟩ | ⟨hstealth, h⟩ := ite_eq_iff.mp h
  · exact flag h .stealth
  obtain ⟨rfl, h⟩ | ⟨hgeoip, h⟩ := ite_eq_iff.mp h
  · exact flag h .noGeoip
  obtain ⟨rfl, h⟩ | ⟨hct, h⟩ := ite_eq_iff.mp h
  · exact flag h .noCt
  obtain ⟨rfl, h⟩ | ⟨hipApi, h⟩ := ite_eq_iff.mp h
  · exact flag h .useIpApi
  obtain ⟨rfl, h⟩ | ⟨hjitter, h⟩ := ite_eq_iff.mp h
  · exact flag h .udpJitter
  obtain ⟨ha, hs⟩ | ⟨hsave, h⟩ := ite_eq_iff.mp h
  · cases next with
    | none => exact flag hs (ha ▸ .save fun path hpath => by cases hpath)
    | some nxt =>
      obtain ⟨hpath, he⟩ | ⟨hpath, he⟩ := ite_eq_iff.mp hs
      · obtain ⟨rfl, rfl⟩ := Prod.mk.inj (Except.ok.inj he)
        exact ha ▸ .saveTo rfl hpath
      · refine flag he (ha ▸ .save fun path heq => ?_)
        obtain rfl := Option.some.inj heq
        exact Bool.eq_false_iff.mpr hpath
  obtain ⟨rfl, h⟩ | ⟨hfull, h⟩ := ite_eq_iff.mp h
  · exact flag h .full
  obtain ⟨rfl, h⟩ | ⟨hfast, h⟩ := ite_eq_iff.mp h
  · exact flag h .fast
  obtain ⟨rfl, h⟩ | ⟨hrange, h⟩ := ite_eq_iff.mp h
  · obtain ⟨v, d, hnext, hv, rfl, rfl⟩ := @value_eq_ok c' next used _ _ (parseRange c) id h
    exact .range hnext hv
  obtain ⟨rfl, h⟩ | ⟨hports, h⟩ := ite_eq_iff.mp h
  · obtain ⟨v, d, hnext, hv, rfl, rfl⟩ := @value_eq_ok c' next used _ _ (parsePorts c) id h
    exact .ports hnext hv
  obtain ⟨-, h⟩ | ⟨hhelp, h⟩ := ite_eq_iff.mp h
  · cases h
  · refine flag h (.positional ?_)
    simp only [not_or] at hverbose hhelp
    simp [optionWords, hcolor, hverbose, hthreads, htcpTo, hudpTo, hsyn, hstealth, hgeoip, hct,
      hipApi, hjitter, hsave, hfull, hfast, hrange, hports, hhelp]

/-- The options with numbers in their value change the port globals only. -/
theorem parseRange_frame {v : Bytes} (h : parseRange c v = .ok c') :
    ∃ globals, c' = { c with toPortConfig := globals } := by
  unfold parseRange at h
  dsimp only at h
  split_ifs at h
  obtain ⟨lo, -, h⟩ := bind_eq_ok.mp h
  obtain ⟨hi, -, h⟩ := bind_eq_ok.mp h
  split_ifs at h
  exact ⟨_, (Except.ok.inj h).symm⟩

theorem parsePorts_frame {v : Bytes} (h : parsePorts c v = .ok c') :
    ∃ globals, c' = { c with toPortConfig := globals } := by
  obtain ⟨list, -, h⟩ := bind_eq_ok.mp h
  obtain rfl := Except.ok.inj h
  split_ifs <;> exact ⟨_, rfl⟩

-- ---------------------------------------------------------------------------
-- Values
-- ---------------------------------------------------------------------------

def isDashed (w : Bytes) : Bool := startsWith w (ascii "--")

theorem exists_of_isDashed {w : Bytes} (h : isDashed w = true) :
    ∃ r, w = chr '-' :: chr '-' :: r := by
  obtain ⟨r, rfl⟩ := List.isPrefixOf_iff_prefix.mp h
  exact ⟨r, rfl⟩

theorem parseIntFatal_not_dashed {v : Bytes} {name : String} {minV maxV n : Int}
    (h : parseIntFatal v name minV maxV = .ok n) : isDashed v = false := by
  rw [Bool.eq_false_iff]
  intro hdash
  obtain ⟨r, rfl⟩ := exists_of_isDashed hdash
  have hc := (parseIntFatal_eq_ok h).1
  rw [strtol_minus_minus r] at hc
  cases hc

theorem parseRange_not_dashed {v : Bytes} (h : parseRange c v = .ok c') : isDashed v = false := by
  rw [Bool.eq_false_iff]
  intro hdash
  obtain ⟨r, rfl⟩ := exists_of_isDashed hdash
  have hidx : (chr '-' :: chr '-' :: r).idxOf (chr '-') = 0 := List.idxOf_cons_self
  unfold parseRange at h
  simp [hidx] at h

theorem splitFrom_head (sep : UInt8) (current s : Bytes) :
    ∃ r toks, splitFrom sep current s = (current ++ r) :: toks := by
  induction s generalizing current with
  | nil => exact ⟨[], [], by rw [List.append_nil]; rfl⟩
  | cons b s ih =>
    rw [splitFrom]
    split_ifs with hb
    · exact ⟨[], _, by rw [List.append_nil]⟩
    · obtain ⟨r, toks, heq⟩ := ih (current ++ [b])
      exact ⟨b :: r, toks, by rw [heq, List.append_assoc]; rfl⟩

theorem parsePorts_not_dashed {v : Bytes} (h : parsePorts c v = .ok c') : isDashed v = false := by
  rw [Bool.eq_false_iff]
  intro hdash
  obtain ⟨r, rfl⟩ := exists_of_isDashed hdash
  obtain ⟨list, hl, -⟩ := bind_eq_ok.mp h
  obtain ⟨tok, toks, hsplit⟩ := splitFrom_head (chr ',') [chr '-', chr '-'] r
  have hhead : split (chr '-' :: chr '-' :: r) (chr ',') = (chr '-' :: chr '-' :: tok) :: toks :=
    hsplit
  rw [hhead, List.foldlM_cons] at hl
  obtain ⟨mid, hmid, -⟩ := bind_eq_ok.mp hl
  obtain ⟨n, hn, -⟩ := bind_eq_ok.mp hmid
  exact absurd (parseIntFatal_not_dashed hn) (by simp [isDashed, startsWith, ascii])

/-- What an option uses up does not begin like one. -/
theorem TookArg.value (h : TookArg c next a c' true) :
    ∃ v, next = some v ∧ isDashed v = false := by
  cases h with
  | threads hnext hv | tcpTo hnext hv | udpTo hnext hv =>
    exact ⟨_, hnext, parseIntFatal_not_dashed hv⟩
  | @saveTo path hnext hpath =>
    refine ⟨_, hnext, ?_⟩
    rw [Bool.eq_false_iff]
    intro hdash
    obtain ⟨r, rfl⟩ := exists_of_isDashed hdash
    cases hpath
  | range hnext hv => exact ⟨_, hnext, parseRange_not_dashed hv⟩
  | ports hnext hv => exact ⟨_, hnext, parsePorts_not_dashed hv⟩

end

-- ---------------------------------------------------------------------------
-- The loop
-- ---------------------------------------------------------------------------

def optionsOf (option : Bytes → Option Bytes → Option ω) : List Bytes → List ω
  | [] => []
  | a :: rest => (option a rest.head?).toList ++ optionsOf option rest

/-- What the options of one kind do to the part of the configuration that is
theirs, they do one after the other, and each of them was checked. -/
theorem parseArgs_options {view : Config → σ} {option : Bytes → Option Bytes → Option ω}
    {apply : σ → ω → σ} {valid : ω → Prop} {c c' : Config} {args : List Bytes}
    (hstep : ∀ {c c' a next used}, TookArg c next a c' used →
      view c' = (option a next).elim (view c) (apply (view c)) ∧ ∀ o ∈ option a next, valid o)
    (hvalue : ∀ {v next}, isDashed v = false → option v next = none)
    (h : parseArgs c args = .ok c') :
    view c' = (optionsOf option args).foldl apply (view c) ∧
      ∀ o ∈ optionsOf option args, valid o := by
  have hcons {c d : Config} {a : Bytes} {rest : List Bytes} {used : Bool}
      (ht : TookArg c rest.head? a d used)
      (hrest : view c' = (optionsOf option rest).foldl apply (view d) ∧
        ∀ o ∈ optionsOf option rest, valid o) :
      view c' = (optionsOf option (a :: rest)).foldl apply (view c) ∧
        ∀ o ∈ optionsOf option (a :: rest), valid o := by
    obtain ⟨hview, hvalid⟩ := hstep ht
    rw [optionsOf, List.foldl_append, hrest.1, hview]
    refine ⟨by cases option a rest.head? <;> rfl, fun o ho => ?_⟩
    rcases List.mem_append.mp ho with ho | ho
    · exact hvalid o (Option.mem_toList.mp ho)
    · exact hrest.2 o ho
  induction c, args using parseArgs.induct with
  | case1 c =>
    obtain rfl := Except.ok.inj h
    exact ⟨rfl, fun o ho => by cases ho⟩
  | case2 c a rest e he =>
    unfold parseArgs at h
    simp only [he] at h
    cases h
  | case3 c a d v rest hs ih =>
    unfold parseArgs at h
    simp only [hs] at h
    have ht := tookArg_of_parseArg hs
    obtain ⟨w, hw, hdash⟩ := ht.value
    obtain rfl := Option.some.inj hw
    -- the value is no option, so the options go on behind it
    refine hcons ht ?_
    rw [optionsOf, hvalue hdash]
    exact ih h
  | case4 c a d hs =>
    obtain ⟨w, hw, -⟩ := (tookArg_of_parseArg hs).value
    cases hw
  | case5 c a d rest hs ih =>
    unfold parseArgs at h
    simp only [hs] at h
    exact hcons (tookArg_of_parseArg hs) (ih h)

end ByeByeVpn

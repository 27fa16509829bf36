import ByeByeVpn.Lib.Bytes
import ByeByeVpn.Lib.Runs
import Mathlib.Algebra.Order.Group.Multiset

/-!
# The OpenSSL runtime (`network/openssl_runtime.cpp`)

`openssl_runtime_init` loads the providers of OpenSSL 3 and
`openssl_runtime_cleanup` unloads them; both hold the mutex to their end. The
library is a party of its own: it decides the outcomes of the calls and keeps
account of the loads that were not undone. `OSSL_PROVIDER_load` may return one
address twice, and then each load has to be undone once.
-/

namespace ByeByeVpn.Openssl

inductive Provider
  | default | base | legacy
  deriving DecidableEq, Repr

structure Handle where
  provider : Provider
  address : Nat
  deriving DecidableEq, Repr

/-- What the library decides during one call of `openssl_runtime_init`. -/
structure Outcomes where
  initSsl : Int
  initCrypto : Int
  load : Provider → Option Nat
  /-- `ERR_get_error()`, and the buffer that `ERR_error_string_n` fills. -/
  errorCode : Nat
  errorText : Bytes

/-- The library's own account: whether the last attempt to initialise it
succeeded, the loads that were not undone, and whether it was ever asked to
undo another. -/
structure Library where
  ready : Bool := false
  loaded : Multiset Handle := 0
  badUnload : Bool := false

structure Globals where
  initialized : Bool := false
  ok : Bool := false
  err : Bytes := []
  providerDefault : Option Handle := none
  providerBase : Option Handle := none
  providerLegacy : Option Handle := none

structure State where
  globals : Globals := {}
  library : Library := {}

-- ---------------------------------------------------------------------------
-- The library
-- ---------------------------------------------------------------------------

def Library.load (l : Library) (o : Outcomes) (p : Provider) : Library × Option Handle :=
  match o.load p with
  | some address => ({ l with loaded := ⟨p, address⟩ ::ₘ l.loaded }, some ⟨p, address⟩)
  | none => (l, none)

def Library.unload (l : Library) (h : Handle) : Library :=
  if h ∈ l.loaded then { l with loaded := l.loaded.erase h } else { l with badUnload := true }

section

variable (l : Library) (o : Outcomes) (p : Provider)

theorem loaded_load :
    (l.load o p).1.loaded = ((l.load o p).2.toList : Multiset Handle) + l.loaded := by
  unfold Library.load
  cases o.load p <;> simp

theorem provider_load {l : Library} {o : Outcomes} {p : Provider} :
    ∀ h ∈ (l.load o p).2, h.provider = p := by
  unfold Library.load
  cases o.load p <;> simp

@[simp] theorem ready_load : (l.load o p).1.ready = l.ready := by
  unfold Library.load
  cases o.load p <;> rfl

@[simp] theorem badUnload_load : (l.load o p).1.badUnload = l.badUnload := by
  unfold Library.load
  cases o.load p <;> rfl

end

-- ---------------------------------------------------------------------------
-- The two functions
-- ---------------------------------------------------------------------------

def lastSslErrorText (o : Outcomes) (fallback : Option Bytes) : Bytes :=
  if o.errorCode = 0 then fallback.getD (ascii "openssl")
  else if o.errorText.headD 0 ≠ 0 then o.errorText.takeWhile (· ≠ 0)
  else fallback.getD (ascii "openssl")

def fail (s : State) (o : Outcomes) (text : String) : State :=
  { s with
    globals := { s.globals with err := lastSslErrorText o (some (ascii text)), ok := false } }

def doInit (s : State) (o : Outcomes) : State :=
  let s := { s with library := { s.library with ready := o.initSsl = 1 ∧ o.initCrypto = 1 } }
  if o.initSsl ≠ 1 then fail s o "OPENSSL_init_ssl failed"
  else if o.initCrypto ≠ 1 then fail s o "OPENSSL_init_crypto failed"
  else
    let (library, providerDefault) := s.library.load o .default
    let s := { s with library, globals := { s.globals with providerDefault } }
    let (library, providerBase) := s.library.load o .base
    let s := { s with library, globals := { s.globals with providerBase } }
    if s.globals.providerDefault.isNone || s.globals.providerBase.isNone then
      fail s o "OSSL_PROVIDER_load failed"
    else
      let (library, providerLegacy) := s.library.load o .legacy
      { s with library, globals := { s.globals with providerLegacy, ok := true } }

/-- The state, the result, and the string that `err` points to, if it is not
null. -/
def opensslRuntimeInit (s : State) (o : Outcomes) (err : Option Bytes) :
    State × Bool × Option Bytes :=
  let s :=
    if !s.globals.initialized then
      let s := doInit s o
      { s with globals := { s.globals with initialized := true } }
    else s
  (s, s.globals.ok, if !s.globals.ok then err.map fun _ => s.globals.err else err)

/-- `if (handle) { OSSL_PROVIDER_unload(handle); handle = nullptr; }` for the library. -/
def Library.unloadIf (l : Library) : Option Handle → Library
  | some h => l.unload h
  | none => l

def opensslRuntimeCleanup (s : State) : State :=
  if !s.globals.initialized then s
  else
    let library := s.library.unloadIf s.globals.providerLegacy
    let globals := { s.globals with providerLegacy := none }
    let library := library.unloadIf globals.providerBase
    let globals := { globals with providerBase := none }
    let library := library.unloadIf globals.providerDefault
    let globals := { globals with providerDefault := none }
    { library, globals := { globals with initialized := false, ok := false, err := [] } }

inductive Call
  | init (o : Outcomes) (err : Option Bytes)
  | cleanup

def step (s : State) : Call → Option State
  | .init o err => some (opensslRuntimeInit s o err).1
  | .cleanup => some (opensslRuntimeCleanup s)

abbrev Reachable : State → Prop := Runs.Reachable step {}

-- ---------------------------------------------------------------------------
-- The invariant
-- ---------------------------------------------------------------------------

def Globals.held (g : Globals) : Multiset Handle :=
  (g.providerDefault.toList ++ g.providerBase.toList ++ g.providerLegacy.toList : List Handle)

structure Globals.Labelled (g : Globals) : Prop where
  default : ∀ h ∈ g.providerDefault, h.provider = .default
  base : ∀ h ∈ g.providerBase, h.provider = .base
  legacy : ∀ h ∈ g.providerLegacy, h.provider = .legacy

structure Sound (s : State) : Prop where
  held : s.library.loaded = s.globals.held
  sane : s.library.badUnload = false
  labelled : s.globals.Labelled
  down : s.globals.initialized = false → s.globals = {}
  up : s.globals.initialized = true →
    (s.globals.ok = true ↔ s.library.ready = true ∧ s.globals.providerDefault.isSome = true ∧
      s.globals.providerBase.isSome = true)
  failed : s.globals.initialized = true → s.globals.ok = false → s.globals.err ≠ []

theorem lastSslErrorText_ne_nil (o : Outcomes) {fallback : Bytes} (h : fallback ≠ []) :
    lastSslErrorText o (some fallback) ≠ [] := by
  unfold lastSslErrorText
  split_ifs with _ ht
  · exact h
  · cases he : o.errorText with
    | nil => simp [he] at ht
    | cons c cs =>
      rw [he, List.headD_cons] at ht
      simp [ht]
  · exact h

theorem Sound.opening : Sound {} where
  held := rfl
  sane := rfl
  labelled := ⟨by simp, by simp, by simp⟩
  down := fun _ => rfl
  up := by simp
  failed := by simp

theorem sound_fail {s : State} {o : Outcomes} {text : String} (ht : ascii text ≠ [])
    (hh : s.library.loaded = s.globals.held) (hb : s.library.badUnload = false)
    (hl : s.globals.Labelled) (hr : ¬(s.library.ready = true ∧
      s.globals.providerDefault.isSome = true ∧ s.globals.providerBase.isSome = true)) :
    Sound { fail s o text with
      globals := { (fail s o text).globals with initialized := true } } where
  held := hh
  sane := hb
  labelled := ⟨hl.default, hl.base, hl.legacy⟩
  down := by simp
  up := fun _ => iff_of_false Bool.false_ne_true hr
  failed := fun _ _ => lastSslErrorText_ne_nil o ht

theorem sound_doInit {s : State} (h : Sound s) (o : Outcomes) (hd : s.globals.initialized = false) :
    Sound { doInit s o with globals := { (doInit s o).globals with initialized := true } } := by
  have hg := h.down hd
  have hl := h.held
  rw [hg] at hl
  obtain ⟨g, ready, loaded, bad⟩ := s
  obtain rfl : g = {} := hg
  obtain rfl : loaded = 0 := hl
  obtain rfl : bad = false := h.sane
  unfold doInit
  dsimp only
  split_ifs with hs hc hn
  · exact sound_fail (by decide) rfl rfl h.labelled (by simp)
  · exact sound_fail (by decide) rfl rfl h.labelled (by simp)
  · refine sound_fail (by decide) ?_ ?_ ⟨provider_load, provider_load, by simp⟩ ?_
    · simp [loaded_load, Globals.held, ← Multiset.coe_add, add_comm]
    · simp
    · rintro ⟨-, hd, hb⟩
      dsimp only at hd hb
      rw [← Option.not_isSome, ← Option.not_isSome, hd, hb] at hn
      exact absurd hn (by decide)
  · constructor
    · simp [loaded_load, Globals.held, ← Multiset.coe_add, add_comm, add_assoc]
    · simp
    · exact ⟨provider_load, provider_load, provider_load⟩
    · simp
    · intro _
      simp only [Bool.or_eq_true, not_or, Option.isNone_iff_eq_none, ← ne_eq,
        ← Option.isSome_iff_ne_none] at hn
      simpa [not_not.mp hs, not_not.mp hc] using hn
    · simp

theorem sound_init {s : State} (h : Sound s) (o : Outcomes) (err : Option Bytes) :
    Sound (opensslRuntimeInit s o err).1 := by
  cases hi : s.globals.initialized with
  | false =>
    simp only [opensslRuntimeInit, hi, Bool.not_false, if_true]
    exact sound_doInit h o hi
  | true => simpa [opensslRuntimeInit, hi] using h

theorem unloadIf_loaded (ready bad : Bool) (rest : Multiset Handle) (h : Option Handle) :
    Library.unloadIf ⟨ready, rest + (h.toList : Multiset Handle), bad⟩ h = ⟨ready, rest, bad⟩ := by
  cases h with
  | none => simp [Library.unloadIf]
  | some h =>
    obtain ⟨hm, he⟩ := Multiset.add_singleton_eq_iff.mp (rfl : rest + {h} = rest + {h})
    simp [Library.unloadIf, Library.unload, ← he]

/-- The cleanup undoes every load and leaves the globals as they were at the
start. -/
theorem cleanup_eq {s : State} (h : Sound s) :
    opensslRuntimeCleanup s = ⟨{}, { s.library with loaded := 0 }⟩ := by
  obtain ⟨g, ready, loaded, bad⟩ := s
  have hl : loaded = g.held := h.held
  cases hi : g.initialized with
  | false =>
    obtain rfl : g = {} := h.down hi
    subst hl
    rfl
  | true =>
    simp only [Globals.held, ← Multiset.coe_add] at hl
    rw [← zero_add (g.providerDefault.toList : Multiset Handle)] at hl
    simp only [opensslRuntimeCleanup, hi, Bool.not_true, Bool.false_eq_true, if_false, hl,
      unloadIf_loaded]

theorem sound_cleanup {s : State} (h : Sound s) : Sound (opensslRuntimeCleanup s) := by
  rw [cleanup_eq h]
  exact ⟨rfl, h.sane, Sound.opening.labelled, fun _ => rfl, by simp, by simp⟩

theorem sound_step {s t : State} {c : Call} (h : Sound s) (hs : step s c = some t) : Sound t := by
  cases c with
  | init o err =>
    obtain rfl := Option.some.inj hs
    exact sound_init h o err
  | cleanup =>
    obtain rfl := Option.some.inj hs
    exact sound_cleanup h

theorem Reachable.sound {s : State} (h : Reachable s) : Sound s :=
  Runs.ReachableIf.invariant Sound.opening (fun _ hs _ hstep => sound_step hs hstep) h

-- ---------------------------------------------------------------------------
-- The calls
-- ---------------------------------------------------------------------------

def Library.Has (l : Library) (p : Provider) : Prop := ∃ h ∈ l.loaded, h.provider = p

theorem initialized_init (s : State) (o : Outcomes) (err : Option Bytes) :
    (opensslRuntimeInit s o err).1.globals.initialized = true := by
  cases hi : s.globals.initialized <;> simp [opensslRuntimeInit, hi]

theorem has_iff {s : State} (h : Sound s) :
    (s.library.Has .default ↔ s.globals.providerDefault.isSome = true) ∧
      (s.library.Has .base ↔ s.globals.providerBase.isSome = true) := by
  obtain ⟨hd, hb, hl⟩ := h.labelled
  simp only [Library.Has, h.held, Globals.held, Multiset.mem_coe, List.mem_append,
    Option.mem_toList, Option.isSome_iff_exists]
  constructor
  · constructor
    · rintro ⟨x, (hx | hx) | hx, hp⟩
      · exact ⟨x, hx⟩
      · exact absurd ((hb x hx).symm.trans hp) (by decide)
      · exact absurd ((hl x hx).symm.trans hp) (by decide)
    · rintro ⟨x, hx⟩
      exact ⟨x, .inl (.inl hx), hd x hx⟩
  · constructor
    · rintro ⟨x, (hx | hx) | hx, hp⟩
      · exact absurd ((hd x hx).symm.trans hp) (by decide)
      · exact ⟨x, hx⟩
      · exact absurd ((hl x hx).symm.trans hp) (by decide)
    · rintro ⟨x, hx⟩
      exact ⟨x, .inl (.inr hx), hb x hx⟩

/-- The call succeeds when the library is initialised and both providers that
are needed are loaded. -/
theorem init_result {s : State} (h : Sound s) (o : Outcomes) (err : Option Bytes) :
    (opensslRuntimeInit s o err).2.1 = true ↔
      (opensslRuntimeInit s o err).1.library.ready = true ∧
        (opensslRuntimeInit s o err).1.library.Has .default ∧
        (opensslRuntimeInit s o err).1.library.Has .base := by
  have hs := sound_init h o err
  rw [(has_iff hs).1, (has_iff hs).2]
  exact hs.up (initialized_init s o err)

theorem init_err {s : State} (h : Sound s) (o : Outcomes) (text : Bytes)
    (hf : (opensslRuntimeInit s o (some text)).2.1 = false) :
    ∃ e, (opensslRuntimeInit s o (some text)).2.2 = some e ∧ e ≠ [] := by
  have hs := sound_init h o (some text)
  refine ⟨_, ?_, hs.failed (initialized_init s o _) hf⟩
  have he : (opensslRuntimeInit s o (some text)).2.2 =
      if !(opensslRuntimeInit s o (some text)).2.1 then
        some (opensslRuntimeInit s o (some text)).1.globals.err
      else some text := rfl
  rw [he, hf]
  rfl

theorem init_init (s : State) (o o' : Outcomes) (err err' : Option Bytes) :
    (opensslRuntimeInit (opensslRuntimeInit s o err).1 o' err').1 = (opensslRuntimeInit s o err).1 ∧
      (opensslRuntimeInit (opensslRuntimeInit s o err).1 o' err').2.1 =
        (opensslRuntimeInit s o err).2.1 := by
  have hi := initialized_init s o err
  have he : ∀ t : State, t.globals.initialized = true →
      (opensslRuntimeInit t o' err').1 = t ∧ (opensslRuntimeInit t o' err').2.1 = t.globals.ok := by
    intro t ht
    simp [opensslRuntimeInit, ht]
  exact he _ hi

theorem init_afresh (l : Library) (o : Outcomes) (err : Option Bytes) :
    (opensslRuntimeInit ⟨{}, l⟩ o err).2.1 = true ↔
      o.initSsl = 1 ∧ o.initCrypto = 1 ∧ (o.load .default).isSome = true ∧
        (o.load .base).isSome = true := by
  by_cases hs : o.initSsl = 1
  · by_cases hc : o.initCrypto = 1
    · cases hd : o.load .default <;> cases hb : o.load .base <;>
        simp [opensslRuntimeInit, doInit, Library.load, fail, hs, hc, hd, hb]
    · simp [opensslRuntimeInit, doInit, fail, hs, hc]
  · simp [opensslRuntimeInit, doInit, fail, hs]

structure Lifecycle (s : State) : Prop where
  held : s.library.loaded = s.globals.held
  sane : s.library.badUnload = false
  result : ∀ o err, (opensslRuntimeInit s o err).2.1 = true ↔
    (opensslRuntimeInit s o err).1.library.ready = true ∧
      (opensslRuntimeInit s o err).1.library.Has .default ∧
      (opensslRuntimeInit s o err).1.library.Has .base
  err : ∀ o text, (opensslRuntimeInit s o (some text)).2.1 = false →
    ∃ e, (opensslRuntimeInit s o (some text)).2.2 = some e ∧ e ≠ []
  again : ∀ o o' err err',
    (opensslRuntimeInit (opensslRuntimeInit s o err).1 o' err').1 = (opensslRuntimeInit s o err).1 ∧
      (opensslRuntimeInit (opensslRuntimeInit s o err).1 o' err').2.1 =
        (opensslRuntimeInit s o err).2.1
  cleaned : (opensslRuntimeCleanup s).globals = {} ∧
    (opensslRuntimeCleanup s).library.loaded = 0
  afresh : ∀ o err, (opensslRuntimeInit (opensslRuntimeCleanup s) o err).2.1 = true ↔
    o.initSsl = 1 ∧ o.initCrypto = 1 ∧ (o.load .default).isSome = true ∧
      (o.load .base).isSome = true

/-- After any sequence of calls, whatever the library decided, the handles
are the loads that were not undone, and the next calls do what they should. -/
theorem opensslRuntime_lifecycle {s : State} (h : Reachable s) : Lifecycle s where
  held := h.sound.held
  sane := h.sound.sane
  result := init_result h.sound
  err := init_err h.sound
  again := init_init s
  cleaned := by
    rw [cleanup_eq h.sound]
    exact ⟨rfl, rfl⟩
  afresh := by
    rw [cleanup_eq h.sound]
    exact init_afresh _

/-- The base provider is missing, which is found out, and then it is not. -/
def baseMissing : Outcomes where
  initSsl := 1
  initCrypto := 1
  load p := if p = .base then none else some 1
  errorCode := 0
  errorText := []

def allLoaded : Outcomes := { baseMissing with load := fun _ => some 1 }

def retry : List Call := [.init baseMissing none, .cleanup, .init allLoaded none]

theorem opensslRuntime_lifecycle_retry :
    ∃ s, Runs.exec step {} retry = some s ∧ s.globals.ok = true ∧ Lifecycle s := by
  have hr : Runs.exec step {} retry = some _ := rfl
  exact ⟨_, hr, by decide +kernel, opensslRuntime_lifecycle (Runs.reachable_of_exec hr)⟩

end ByeByeVpn.Openssl

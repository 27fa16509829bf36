import ByeByeVpn.Cli.Menu

/-!
# Who hears of the target (`main.cpp`)

The services that are no part of the target are only asked as far as the
options of the command line allow it, in the menu as by a command. The lookup
that is asked for by name goes past the options.
-/

namespace ByeByeVpn

-- ---------------------------------------------------------------------------
-- The turns of the menu
-- ---------------------------------------------------------------------------

def inputOf (c : Config) : Nat → Bytes → Option Bytes
  | 0, stdin => some stdin
  | k + 1, stdin => (menuTurn c stdin).bind fun turn => inputOf c k turn.rest

def choosesLookUp (stdin : Bytes) : Prop := ∃ rest, (ask stdin).1 = chr '6' :: rest

variable {c : Config} {target stdin : Bytes} {k turns : Nat}

section
variable {world : World} {q : Contact}

theorem Asking.mem_ifGiven {m : Asking Shown} (h : q ∈ (ifGiven target m).asked world) :
    q ∈ m.asked world := by
  rw [ifGiven, Query.asked_ite] at h
  split_ifs at h
  · cases h
  · exact h

theorem fair_menuTls {portText : Bytes} (h : q ∈ (Asking.menuTls target portText).asked world) :
    Fair world c target q := by
  refine fair_addressOf (fun ip q hq => ?_) (Asking.mem_ifGiven h)
  rw [Query.asked_map] at hq
  exact Asking.address_showTls hq

theorem fair_menuJunk {portText : Bytes} (h : q ∈ (Asking.menuJunk target portText).asked world) :
    Fair world c target q := by
  rw [Asking.menuJunk, Query.asked_ite] at h
  split_ifs at h
  · cases h
  cases hport : tryParseInt portText kMinPortNumber kMaxPortNumber with
  | none =>
    rw [hport] at h
    cases h
  | some port =>
    rw [hport] at h
    exact fair_addressOf (fun ip q hq => Asking.address_showJunk hq) h

theorem fair_menuTurn {turn : Turn} (h : menuTurn c stdin = some turn)
    (hq : q ∈ turn.shows.asked world) :
    (∃ target, Fair world c target q) ∨ choosesLookUp stdin ∧ ∃ i ip, q = .geo i ip := by
  unfold menuTurn at h
  dsimp only at h
  split at h
  · obtain rfl := Option.some.inj h
    cases hq
  · next choice rest hs =>
    split_ifs at h with hleave hfull hports hudp htls hj3 hgeo
    all_goals
      obtain rfl := Option.some.inj h
      dsimp only at hq
    · exact .inl ⟨_, fair_fullCheck (Asking.mem_ifGiven hq)⟩
    · exact .inl ⟨_, fair_addressOf (fun ip q hq => Asking.address_showPorts hq)
        (Asking.mem_ifGiven hq)⟩
    · exact .inl ⟨_, fair_addressOf (fun ip q hq => Asking.address_showUdpWg hq)
        (Asking.mem_ifGiven hq)⟩
    · exact .inl ⟨_, fair_menuTls hq⟩
    · exact .inl ⟨_, fair_menuJunk hq⟩
    · obtain ⟨i, -, rfl⟩ := mem_lookUpGeo.mp hq
      exact .inr ⟨⟨rest, hgeo ▸ hs⟩, i, _, rfl⟩
    · cases hq

end

-- ---------------------------------------------------------------------------
-- The process
-- ---------------------------------------------------------------------------

variable {world : (q : Nat × Contact) → q.2.Reply} {x : Nat × Contact}

theorem mem_asked_interactive (h : x ∈ (interactive c k turns stdin).asked world) :
    ∃ n s turn, x.1 = k + n ∧ inputOf c n stdin = some s ∧ menuTurn c s = some turn ∧
      x.2 ∈ turn.shows.asked fun q => world (x.1, q) := by
  induction turns generalizing k stdin with
  | zero => cases h
  | succ turns ih =>
    cases hturn : menuTurn c stdin with
    | none =>
      rw [interactive_none hturn] at h
      cases h
    | some turn =>
      rw [interactive_some hturn, Query.asked_bind, Query.asked_mark] at h
      rcases List.mem_append.mp h with h | h
      · obtain ⟨q, hq, rfl⟩ := List.mem_map.mp h
        exact ⟨0, stdin, turn, rfl, rfl, hturn, hq⟩
      · obtain ⟨n, s, turn', hx, hs, hturn', hq⟩ := ih h
        refine ⟨n + 1, s, turn', hx.trans (Nat.add_right_comm k 1 n), ?_, hturn', hq⟩
        rw [inputOf, hturn]
        exact hs

/-- The lookup is asked for by name: as a command, or by the choice of this
turn of the menu. -/
def Startup.LooksUp (start : Startup) (k : Nat) : Prop :=
  ∃ c, parseArgs {} start.args = .ok c ∧
    (c.pos.head? = some (ascii "geoip") ∨
      c.pos = [] ∧ ∃ s, choosesLookUp s ∧
        inputOf (clampThreadsToNofileLimit start.nofile c).1 k start.stdin = some s)

/-- The contact is one that the words among the arguments leave open. -/
structure Allowed (args : List Bytes) (q : Contact) : Prop where
  ct : ∀ i url timeoutMs, q = .httpGet i url timeoutMs → kStealth ∉ args ∧ kNoCt ∉ args
  geo : ∀ i ip, q = .geo i ip → kStealth ∉ args ∧ kNoGeoip ∉ args

theorem Fair.allowed {world : World} {q : Contact} {args : List Bytes} {lim : Option UInt64}
    (h : Fair world (clampThreadsToNofileLimit lim c).1 target q) (hc : parseArgs {} args = .ok c) :
    Allowed args q := by
  have hprivacy := (privacy_clamp lim c).trans ((privacy_parseArgs hc).trans (foldl_word args _))
  simp only [Config.privacy, Privacy.mk.injEq] at hprivacy
  refine ⟨fun i url t hq => ?_, fun i ip hq => ?_⟩
  · have hct := h.ct i url t hq
    simpa [hprivacy] using hct
  · have hgeo := h.geo i ip hq
    simpa [hprivacy] using hgeo

theorem allowed_of_asked {start : Startup} (hx : x ∈ (mainImpl start turns).asked world) :
    Allowed start.args x.2 ∨ start.LooksUp x.1 ∧ ∃ i ip, x.2 = .geo i ip := by
  unfold mainImpl at hx
  split at hx
  · cases hx
  split_ifs at hx
  · cases hx
  split at hx
  · cases hx
  next c hc =>
    dsimp only at hx
    split at hx
    · next hpos =>
      rw [Query.asked_map] at hx
      obtain ⟨n, s, turn, hn, hs, hturn, hq⟩ := mem_asked_interactive hx
      rw [Nat.zero_add] at hn
      rcases fair_menuTurn hturn hq with ⟨target, hfair⟩ | ⟨hlook, hgeo⟩
      · exact .inl (hfair.allowed hc)
      · exact .inr ⟨⟨c, hc, .inr ⟨(pos_clamp _ _).symm.trans hpos, s, hlook, hn ▸ hs⟩⟩, hgeo⟩
    · next cmd rest hpos =>
      rw [Query.asked_map, Query.asked_mark] at hx
      obtain ⟨q, hq, rfl⟩ := List.mem_map.mp hx
      by_cases hcmd : cmd = ascii "geoip"
      · subst hcmd
        obtain ⟨i, -, rfl⟩ := mem_dispatch_geoip.mp hq
        refine .inr ⟨⟨c, hc, .inl ?_⟩, i, _, rfl⟩
        rw [← pos_clamp start.nofile c, hpos]
        rfl
      · exact .inl ((fair_dispatch rest hcmd hq).allowed hc)

theorem Allowed.not_thirdParty {args : List Bytes} {q : Contact} (h : Allowed args q)
    (hstealth : kStealth ∈ args) : q.thirdParty = false := by
  cases q with
  | geo i ip => exact absurd hstealth (h.geo i ip rfl).1
  | httpGet i url t => exact absurd hstealth (h.ct i url t rfl).1
  | _ => rfl

/-- Whatever the input and the answers, the CT log is only asked without
`--stealth` and `--no-ct`, and the services only without `--stealth` and
`--no-geoip`, unless the lookup is asked for by name. With `--stealth` and no
lookup the process does the same whatever these would answer. -/
theorem mainImpl_discloses (start : Startup) (turns : Nat)
    (world : (q : Nat × Contact) → q.2.Reply) :
    (∀ x ∈ (mainImpl start turns).asked world,
      Allowed start.args x.2 ∨ start.LooksUp x.1 ∧ ∃ i ip, x.2 = .geo i ip) ∧
    (kStealth ∈ start.args → (∀ k, ¬start.LooksUp k) →
      ∀ world' : (q : Nat × Contact) → q.2.Reply,
        (∀ x, x.2.thirdParty = false → world' x = world x) →
        (mainImpl start turns).run world' = (mainImpl start turns).run world ∧
          (mainImpl start turns).asked world' = (mainImpl start turns).asked world) := by
  refine ⟨fun x hx => allowed_of_asked hx, fun hstealth hnever world' hsame => ?_⟩
  refine Query.run_frame fun x hx => hsame x ?_
  rcases allowed_of_asked hx with hallowed | ⟨hlook, -⟩
  · exact hallowed.not_thirdParty hstealth
  · exact absurd hlook (hnever x.1)

end ByeByeVpn

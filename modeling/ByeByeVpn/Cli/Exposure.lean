import ByeByeVpn.Cli.Verdicts

/-!
# The exposure matrix and the advice (`cli/orchestrator.cpp`)

Behind the score the report has a line for each way of being found, advice
for the operator, and the classification. The three are read off the same
flags, each in its own way.
-/

namespace ByeByeVpn

-- ---------------------------------------------------------------------------
-- The matrix
-- ---------------------------------------------------------------------------

inductive Level
  | high | medium | low | none
  deriving DecidableEq, Repr

structure Axis where
  name : Bytes
  level : Level
  note : Bytes

def axis (name : String) (level : Level) (note : String) : Axis := ⟨ascii name, level, ascii note⟩

def exposureMatrix (R : FullReport) (s : Scoring) : List Axis :=
  let j3 := s.anyJ3Canned || s.anyJ3Badver
  [ axis "WireGuard handshake" (if wgDefault R then .high else if wgAlt R then .medium else .none)
      (if wgDefault R then "UDP/51820 handshake matched"
      else if wgAlt R then "only alt-port handshake matched" else "no WG handshake reply"),
    axis "AmneziaWG handshake" (if awgDefault R then .high else .none)
      (if awgDefault R then "UDP/55555 obfuscated handshake matched" else "no AWG reply"),
    axis "Reality cert steering" (if s.anyReality then .high else .none)
      (if s.anyReality then "SNI steering pattern matched" else "no Reality steering pattern"),
    axis "Cert impersonation" (if s.anyImpersonation then .high else .none)
      (if s.anyImpersonation then "brand cert/ASN ownership mismatch"
      else "no cert/ASN brand mismatch"),
    axis "Active probing anomalies" (if j3 then .high else .low)
      (if j3 then "canned fallback or malformed HTTP version observed"
      else "no hard active-probing anomalies"),
    axis "CT freshness mismatch" (if s.anyCtAbsentFresh then .medium else .low)
      (if s.anyCtAbsentFresh then "fresh cert absent from CT logs"
      else "no fresh CT mismatch observed"),
    axis "Open proxy exposure" (if s.anyProxyOpen then .high else .none)
      (if s.anyProxyOpen then "HTTP/SOCKS proxy reachable from WAN"
      else "no open proxy fingerprint"),
    axis "CDN/LB environment" (if s.anyCdnLbDetected then .low else .none)
      (if s.anyCdnLbDetected then
        "CDN/LB traits detected; SNI mismatch heuristics are down-weighted"
      else "no CDN/LB traits detected"),
    axis "Network-level filtering" .none "timeout-wall heuristic removed from scoring" ]

-- ---------------------------------------------------------------------------
-- The advice
-- ---------------------------------------------------------------------------

structure Suggestion where
  tag : Bytes
  text : Bytes

/-- `if (hit) suggest(tag, text)` -/
def suggest (hit : Bool) (tag text : String) : List Suggestion :=
  if hit then [⟨ascii tag, ascii text⟩] else []

/-- The suggestions; without any, none is urgent. -/
def hardening (R : FullReport) (s : Scoring) : List Suggestion :=
  suggest (wgDefault R && !awgDefault R) "wireguard"
      ("WG default signature is exposed on UDP/51820. Move to non-default ports and/or" ++
        " switch to AmneziaWG transport obfuscation for DPI resistance.") ++
    suggest (s.anyReality && s.anyImpersonation) "reality-dest"
      ("Reality dest/cert points to a brand outside your ASN footprint. Use a dest that" ++
        " is ASN-consistent with your infrastructure or terminate with your own domain cert.") ++
    suggest (s.anyJ3Canned || s.anyJ3Badver) "fallback-shape"
      ("Active probes observe canned or malformed fallback output. Route unknown traffic" ++
        " to a real web stack so fallback responses match normal HTTP server behaviour.") ++
    suggest s.anyProxyOpen "open-proxy"
      ("Close WAN exposure for SOCKS/HTTP CONNECT listeners. Restrict by source ACL or" ++
        " bind only to loopback/overlay interfaces.") ++
    suggest (awgDefault R) "amneziawg"
      ("Keep AmneziaWG parameters rotated and avoid publishing fixed fingerprints in" ++
        " public configs. Pair with regular cert/key hygiene on adjacent TLS services.")

@[simp] theorem suggest_eq_nil {hit : Bool} {tag text : String} :
    suggest hit tag text = [] ↔ hit = false := by
  cases hit <;> simp [suggest]

-- ---------------------------------------------------------------------------
-- What the book lists
-- ---------------------------------------------------------------------------

/-- The strong signals that back the rules, in their order and up to the port
or the brand. -/
def backings : List (List Bytes) :=
  [ ["WireGuard handshake accepted on UDP/51820 (default signature)"],
    ["AmneziaWG handshake accepted on UDP/55555 (obfuscated WG profile)"],
    ["open HTTP CONNECT proxy exposed on :", "open SOCKS5 proxy exposed on :"],
    ["Reality/XTLS SNI steering on :"],
    ["cert claims brand '"],
    ["canned fallback page under active probing on :",
      "malformed HTTP version under active probing on :"] ].map (·.map ascii)

def isBackedBy (text : Bytes) (backing : List Bytes) : Bool := backing.any (startsWith text)

/-- What comes behind a text does not matter if no backing goes on from there. -/
def Settled (text : Bytes) : Prop :=
  ∀ backing ∈ backings, ∀ start ∈ backing, start <+: text ∨ ¬text <+: start

instance (text : Bytes) : Decidable (Settled text) :=
  inferInstanceAs (Decidable (∀ backing ∈ backings, ∀ start ∈ backing, _))

theorem isBackedBy_append {text : Bytes} (h : Settled text) (tail : Bytes) :
    backings.map (isBackedBy (text ++ tail)) = backings.map (isBackedBy text) := by
  refine List.map_congr_left fun backing hbacking => ?_
  rw [isBackedBy, isBackedBy, Bool.eq_iff_iff, List.any_eq_true, List.any_eq_true]
  refine exists_congr fun start => and_congr_right fun hstart => ?_
  rw [startsWith_iff, startsWith_iff]
  refine ⟨fun hpre => ?_, fun hpre => hpre.trans (List.prefix_append ..)⟩
  rcases List.prefix_or_prefix_of_prefix hpre (List.prefix_append text tail) with hle | hle
  · exact hle
  · exact (h backing hbacking start hstart).resolve_right (not_not.mpr hle)

/-- The strong signals, and which of the rules they back. -/
def strongTexts : List (String × List Bool) :=
  [ ("WireGuard handshake accepted on UDP/51820 (default signature)",
      [true, false, false, false, false, false]),
    ("AmneziaWG handshake accepted on UDP/55555 (obfuscated WG profile)",
      [false, true, false, false, false, false]),
    ("open HTTP CONNECT proxy exposed on :", [false, false, true, false, false, false]),
    ("open SOCKS5 proxy exposed on :", [false, false, true, false, false, false]),
    ("self-signed certificate on :", [false, false, false, false, false, false]),
    ("Reality/XTLS SNI steering on :", [false, false, false, true, false, false]),
    ("cert claims brand '", [false, false, false, false, true, false]),
    ("invalid HTTP version over TLS on :", [false, false, false, false, false, false]),
    ("proxy-chain headers leaked by HTTPS origin on :",
      [false, false, false, false, false, false]),
    ("fresh cert missing from CT logs on :", [false, false, false, false, false, false]),
    ("canned fallback page under active probing on :",
      [false, false, false, false, false, true]),
    ("malformed HTTP version under active probing on :",
      [false, false, false, false, false, true]) ]

theorem strongTexts_backings : ∀ entry ∈ strongTexts,
    Settled (ascii entry.1) ∧ backings.map (isBackedBy (ascii entry.1)) = entry.2 := by
  decide +kernel

theorem isBackedBy_strong {text : String} {bs : List Bool} (h : (text, bs) ∈ strongTexts)
    (tail : Bytes) : backings.map (isBackedBy (ascii text ++ tail)) = bs :=
  (isBackedBy_append (strongTexts_backings _ h).1 tail).trans (strongTexts_backings _ h).2

theorem isBackedBy_onPort {text : String} {port : Int} {bs : List Bool}
    (h : (text, bs) ∈ strongTexts) : backings.map (isBackedBy (onPort text port)) = bs :=
  isBackedBy_strong h _

/-- Which rules are hit, with the answers on the two default ports. -/
def Scoring.hits (wg awg : Bool) (s : Scoring) : List Bool :=
  [wg, awg, s.anyProxyOpen, s.anyReality, s.anyImpersonation, s.anyJ3Canned || s.anyJ3Badver]

/-- A rule is hit exactly if a strong signal is listed that backs it; every
listed signal has cost something, and nothing else has. -/
structure Scoring.Listed (wg awg : Bool) (s : Scoring) : Prop where
  backed : s.hits wg awg = backings.map fun backing => s.book.strong.any (isBackedBy · backing)
  impersonation : s.anyImpersonation = true → s.anyReality = true
  le : s.book.score + (s.book.strong.length + s.book.soft.length : Nat) ≤ 100
  none : s.book.strong = [] → s.book.soft = [] → s.book.score = 100

namespace Scoring.Listed

variable {wg awg : Bool} {s : Scoring} {text : Bytes} {penalty : Int}

/-- A strong signal hits the rules that it backs. -/
theorem strong {s' : Scoring} {wg' awg' : Bool} {bs : List Bool} (h : Listed wg awg s)
    (hbook : s'.book = s.book) (hbs : backings.map (isBackedBy text) = bs)
    (hhits : s'.hits wg' awg' = List.zipWith (· || ·) (s.hits wg awg) bs)
    (himp : s'.anyImpersonation = true → s'.anyReality = true) (hp : 1 ≤ penalty) :
    Listed wg' awg' (s'.strong text penalty) where
  backed := by
    have hkept : (s'.strong text penalty).hits wg' awg' = s'.hits wg' awg' := rfl
    rw [hkept, hhits, h.backed, ← hbs, List.zipWith_map_left, List.zipWith_map_right,
      List.zipWith_self]
    simp [Scoring.strong, ScoreBook.strongSignal, hbook]
  impersonation := himp
  le := by
    have := h.le
    simp only [Scoring.strong, ScoreBook.strongSignal, hbook, List.length_append,
      List.length_singleton]
    omega
  none hnil := by simp [Scoring.strong, ScoreBook.strongSignal] at hnil

theorem soft (h : Listed wg awg s) (hp : 1 ≤ penalty) : Listed wg awg (s.soft text penalty) where
  backed := h.backed
  impersonation := h.impersonation
  le := by
    have := h.le
    simp only [Scoring.soft, ScoreBook.softSignal, List.length_append, List.length_singleton]
    omega
  none _ hnil := by simp [Scoring.soft, ScoreBook.softSignal] at hnil

theorem note {tag : String} (h : Listed wg awg s) : Listed wg awg (s.note tag text) :=
  ⟨h.backed, h.impersonation, h.le, h.none⟩

theorem strong_plain (h : Listed wg awg s)
    (hbs : backings.map (isBackedBy text) = [false, false, false, false, false, false])
    (hp : 1 ≤ penalty) : Listed wg awg (s.strong text penalty) :=
  h.strong rfl hbs (by simp [Scoring.hits]) h.impersonation hp

theorem maybe {c : Prop} [Decidable c] {f : Scoring → Scoring} (h : Listed wg awg s)
    (hf : ∀ {t}, Listed wg awg t → Listed wg awg (f t)) : Listed wg awg (if c then f s else s) := by
  split_ifs
  · exact hf h
  · exact h

variable {pf : PortFp} {cdn : Bool} {orgs : List Bytes}

theorem anyTls (h : Listed wg awg s) : Listed wg awg { s with anyTls := true } :=
  ⟨h.backed, h.impersonation, h.le, h.none⟩

theorem cdnLb (h : Listed wg awg s) : Listed wg awg (s.cdnLb pf) :=
  note ⟨h.backed, h.impersonation, h.le, h.none⟩

theorem proxyOpen (h : Listed wg awg s)
    (hbs : backings.map (isBackedBy text) = [false, false, true, false, false, false]) :
    Listed wg awg ({ s with anyProxyOpen := true }.strong text 15) :=
  h.strong rfl hbs (by simp [Scoring.hits]) h.impersonation (by decide)

theorem service (h : Listed wg awg s) : Listed wg awg (s.service pf) := by
  unfold Scoring.service
  split_ifs
  · exact h.proxyOpen (isBackedBy_onPort (by simp [strongTexts]))
  · exact h.proxyOpen (isBackedBy_onPort (by simp [strongTexts]))
  · exact h

theorem tls (h : Listed wg awg s) : Listed wg awg (s.tls pf) := by
  unfold Scoring.tls
  cases pf.tls with
  | none => exact h
  | some tls =>
    dsimp only
    split
    · exact h
    · exact maybe (f := fun t => t.note _ _)
        (maybe (f := fun t => t.strong _ 8)
          (maybe (f := fun t => t.soft _ 5) h.anyTls fun ht => ht.soft (by decide))
          fun ht => ht.strong_plain (isBackedBy_onPort (by simp [strongTexts])) (by decide))
        note

theorem reality (h : Listed wg awg s) (hp : 1 ≤ penalty) :
    Listed wg awg ({ s with anyReality := true }.strong
      (onPort "Reality/XTLS SNI steering on :" pf.port) penalty) :=
  have hbs : backings.map (isBackedBy (onPort "Reality/XTLS SNI steering on :" pf.port)) =
      [false, false, false, true, false, false] := isBackedBy_onPort (by simp [strongTexts])
  h.strong rfl hbs (by simp [Scoring.hits]) (fun _ => rfl) hp

theorem impersonated {brand : Bytes} (h : Listed wg awg s) (hr : s.anyReality = true) :
    Listed wg awg ({ s with anyImpersonation := true }.strong
      (ascii "cert claims brand '" ++ brand ++ ascii "' on non-owning ASN") 18) := by
  have hbs (tail : Bytes) : backings.map (isBackedBy (ascii "cert claims brand '" ++ tail)) =
      [false, false, false, false, true, false] := isBackedBy_strong (by simp [strongTexts]) tail
  rw [List.append_assoc]
  exact h.strong rfl (hbs _) (by simp [Scoring.hits]) (fun _ => hr) (by decide)

theorem sni (h : Listed wg awg s) : Listed wg awg (s.sni orgs cdn pf) := by
  unfold Scoring.sni
  cases pf.sni with
  | none => exact h
  | some sni =>
    have hp : (1 : Int) ≤ (if sni.passthroughMode then 20 else 16 : Nat) := by
      split_ifs <;> decide
    dsimp only
    split
    · exact h
    split
    · exact h.note
    split
    · split
      · exact (h.reality hp).impersonated rfl
      · exact h.reality hp
    · exact h.reality hp

theorem https (h : Listed wg awg s) : Listed wg awg (s.https cdn pf) := by
  unfold Scoring.https
  cases pf.https with
  | none => exact h
  | some https =>
    have hreply {c₁ c₂ c₃ : Bool} {t₂ t₃ : Bytes} : Listed wg awg
        (if c₁ then s.strong (onPort "invalid HTTP version over TLS on :" pf.port) 14
          else if c₂ then s.soft t₂ 8 else if c₃ then s.soft t₃ 4 else s) := by
      split_ifs
      · exact h.strong_plain (isBackedBy_onPort (by simp [strongTexts])) (by decide)
      · exact h.soft (by decide)
      · exact h.soft (by decide)
      · exact h
    dsimp only
    split
    · exact h
    split
    · split
      · exact hreply.note
      · exact hreply.strong_plain (isBackedBy_onPort (by simp [strongTexts])) (by decide)
    · exact hreply

theorem ct (h : Listed wg awg s) : Listed wg awg (s.ct pf) := by
  unfold Scoring.ct
  cases pf.ct with
  | none => exact h
  | some ct =>
    dsimp only
    split
    · split
      · have hbs : backings.map
            (isBackedBy (onPort "fresh cert missing from CT logs on :" pf.port)) =
              [false, false, false, false, false, false] :=
          isBackedBy_onPort (by simp [strongTexts])
        exact h.strong rfl hbs (by simp [Scoring.hits]) h.impersonation (by decide)
      · exact h.note
    · exact h

/-- Each of the two anomalies hits the rule. -/
theorem probed {s' : Scoring} (h : Listed wg awg s) (hbook : s'.book = s.book)
    (hbs : backings.map (isBackedBy text) = [false, false, false, false, false, true])
    (hhits : s'.hits wg awg = [wg, awg, s.anyProxyOpen, s.anyReality, s.anyImpersonation, true])
    (himp : s'.anyImpersonation = true → s'.anyReality = true) :
    Listed wg awg (s'.strong text 12) :=
  h.strong hbook hbs (by rw [hhits]; simp [Scoring.hits]) himp (by decide)

theorem canned {c : Prop} [Decidable c] (h : Listed wg awg s) :
    Listed wg awg (if c then { s with anyJ3Canned := true }.strong
      (onPort "canned fallback page under active probing on :" pf.port) 12 else s) := by
  split_ifs
  · exact h.probed rfl (isBackedBy_onPort (by simp [strongTexts])) rfl h.impersonation
  · exact h

theorem badver {c : Prop} [Decidable c] (h : Listed wg awg s) :
    Listed wg awg (if c then { s with anyJ3Badver := true }.strong
      (onPort "malformed HTTP version under active probing on :" pf.port) 12 else s) := by
  split_ifs
  · exact h.probed rfl (isBackedBy_onPort (by simp [strongTexts])) (by simp [Scoring.hits])
      h.impersonation
  · exact h

theorem j3 (h : Listed wg awg s) : Listed wg awg (s.j3 pf) := by
  unfold Scoring.j3
  cases pf.j3a with
  | none => exact h
  | some j3a =>
    have hraw {t : Scoring} {text : Bytes} (ht : Listed wg awg t) :
        Listed wg awg (t.soft text 6) := ht.soft (by decide)
    exact h.canned.badver.maybe (f := fun t => t.soft _ 6) hraw

theorem port (h : Listed wg awg s) : Listed wg awg (Scoring.port orgs s pf) :=
  (h.maybe (f := fun t => t.cdnLb pf) cdnLb).service.tls.sni.https.ct.j3

theorem foldl (h : Listed wg awg s) (fps : List PortFp) :
    Listed wg awg (fps.foldl (Scoring.port orgs) s) := by
  induction fps generalizing s with
  | nil => exact h
  | cons pf fps ih => exact ih h.port

end Scoring.Listed

theorem listed_scoring (R : FullReport) : (scoring R).Listed (wgDefault R) (awgDefault R) := by
  have hnone : Scoring.Listed false false {} := ⟨by decide, by decide, by decide, fun _ _ => rfl⟩
  have hwg {b : Bool} {s : Scoring} (h : s.Listed false false) : Scoring.Listed b false
      (if b then s.strong
        (ascii "WireGuard handshake accepted on UDP/51820 (default signature)") 22 else s) := by
    cases b with
    | false => exact h
    | true =>
      have hbs := (strongTexts_backings _ (.head _)).2
      exact h.strong rfl hbs (by simp [Scoring.hits]) h.impersonation (by decide)
  have hawg {b wg : Bool} {s : Scoring} (h : s.Listed wg false) : Scoring.Listed wg b
      (if b then s.strong
        (ascii "AmneziaWG handshake accepted on UDP/55555 (obfuscated WG profile)") 18 else s) := by
    cases b with
    | false => exact h
    | true =>
      have hbs := (strongTexts_backings _ (.tail _ (.head _))).2
      exact h.strong rfl hbs (by simp [Scoring.hits]) h.impersonation (by decide)
  have halt {wg awg : Bool} {s : Scoring} {t : Bytes} (h : s.Listed wg awg) :
      (s.soft t 4).Listed wg awg := h.soft (by decide)
  unfold scoring
  dsimp only
  refine Scoring.Listed.foldl ?_ R.fps
  refine Scoring.Listed.maybe (f := fun t => t.note _ _) ?_ Scoring.Listed.note
  exact hawg ((hwg hnone).maybe (f := fun t => t.soft _ 4) halt)

-- ---------------------------------------------------------------------------
-- The three readings agree
-- ---------------------------------------------------------------------------

theorem aHits_judge (R : FullReport) : (judge R).2.aHits =
    (wgDefault R).toNat + (awgDefault R).toNat + (scoring R).anyProxyOpen.toNat := by
  refine (hits_classify (rules R (scoring R))).1.trans ?_
  simp only [rules, List.countP_cons, List.countP_nil]
  cases wgDefault R <;> cases awgDefault R <;> cases (scoring R).anyProxyOpen <;> simp

theorem bHits_judge (R : FullReport) : (judge R).2.bHits =
    (scoring R).anyReality.toNat + (scoring R).anyImpersonation.toNat +
      ((scoring R).anyJ3Canned || (scoring R).anyJ3Badver).toNat := by
  refine (hits_classify (rules R (scoring R))).2.trans ?_
  simp only [rules, List.countP_cons, List.countP_nil]
  cases (scoring R).anyReality <;> cases (scoring R).anyImpersonation <;>
    cases ((scoring R).anyJ3Canned || (scoring R).anyJ3Badver) <;> simp

theorem high_eq_hits (R : FullReport) :
    (exposureMatrix R (scoring R)).countP (·.level = .high) =
      (judge R).2.aHits + (judge R).2.bHits := by
  rw [aHits_judge, bHits_judge]
  simp only [exposureMatrix, axis, List.countP_cons, List.countP_nil]
  generalize scoring R = s
  cases wgDefault R <;> cases wgAlt R <;> cases awgDefault R <;> cases s.anyReality <;>
    cases s.anyImpersonation <;> cases (s.anyJ3Canned || s.anyJ3Badver) <;> cases s.anyProxyOpen <;>
    cases s.anyCtAbsentFresh <;> cases s.anyCdnLbDetected <;> rfl

theorem hit_iff_backed (R : FullReport) : (rules R (scoring R)).map Rule.hit =
    backings.map fun backing => (scoring R).book.strong.any (isBackedBy · backing) :=
  (listed_scoring R).backed

theorem countP_le_one {p : α → Bool} {as : List α}
    (h : as.Pairwise fun a b => ¬(p a = true ∧ p b = true)) : as.countP p ≤ 1 := by
  have hmet : ∀ a ∈ as.filter p, p a = true := fun a ha => (List.mem_filter.mp ha).2
  rw [List.countP_eq_length_filter]
  cases hmany : as.filter p with
  | nil => exact Nat.zero_le 1
  | cons a more =>
    cases more with
    | nil => exact le_rfl
    | cons b more =>
      have hpair := h.filter p
      rw [hmany] at hpair hmet
      exact absurd ⟨hmet a (by simp), hmet b (by simp)⟩
        (List.rel_of_pairwise_cons hpair List.mem_cons_self)

theorem countP_isBackedBy_le (text : Bytes) : backings.countP (isBackedBy text) ≤ 1 := by
  have hapart : backings.Pairwise fun l r =>
      ∀ start ∈ l, ∀ start' ∈ r, ¬start <+: start' ∧ ¬start' <+: start := by decide +kernel
  refine countP_le_one (hapart.imp fun {l r} hlr ⟨hl, hr⟩ => ?_)
  obtain ⟨start, hstart, hpre⟩ := List.any_eq_true.mp hl
  obtain ⟨start', hstart', hpre'⟩ := List.any_eq_true.mp hr
  obtain ⟨hne, hne'⟩ := hlr start hstart start' hstart'
  exact (List.prefix_or_prefix_of_prefix (startsWith_iff.mp hpre) (startsWith_iff.mp hpre')).elim
    hne hne'

theorem countP_or_le (p q : α → Bool) (as : List α) :
    as.countP (fun a => p a || q a) ≤ as.countP p + as.countP q := by
  induction as with
  | nil => simp
  | cons a as ih =>
    simp only [List.countP_cons]
    cases p a <;> cases q a <;> simp <;> omega

/-- Where nothing meets two items, the items that are met are no more than
what meets them. -/
theorem countP_any_le {p : α → β → Bool} {as : List α} {bs : List β}
    (h : ∀ b ∈ bs, as.countP (p · b) ≤ 1) : as.countP (fun a => bs.any (p a)) ≤ bs.length := by
  induction bs with
  | nil => simp
  | cons b bs ih =>
    have hb := h b List.mem_cons_self
    have hbs := ih fun c hc => h c (List.mem_cons_of_mem b hc)
    have hle := countP_or_le (p · b) (fun a => bs.any (p a)) as
    simp only [List.any_cons, List.length_cons]
    omega

theorem hits_le_strong (R : FullReport) :
    (judge R).2.aHits + (judge R).2.bHits ≤ (scoring R).book.strong.length := by
  have hcount : (judge R).2.aHits + (judge R).2.bHits =
      ((rules R (scoring R)).map Rule.hit).countP id := by
    rw [aHits_judge, bHits_judge]
    simp only [rules, List.map_cons, List.map_nil, List.countP_cons, List.countP_nil, id]
    cases wgDefault R <;> cases awgDefault R <;> cases (scoring R).anyProxyOpen <;>
      cases (scoring R).anyReality <;> cases (scoring R).anyImpersonation <;>
      cases ((scoring R).anyJ3Canned || (scoring R).anyJ3Badver) <;> simp
  rw [hcount, hit_iff_backed, List.countP_map]
  exact countP_any_le fun text _ => countP_isBackedBy_le text

theorem tierName_classify (rs : List Rule) :
    ((classify rs).tierName = ascii "PASS / ALLOW" ↔
        (classify rs).aHits = 0 ∧ (classify rs).bHits = 0) ∧
      ((classify rs).tierName = ascii "MONITOR / THROTTLE" ↔
        (classify rs).aHits = 0 ∧ (classify rs).bHits = 1) := by
  rw [(hits_classify rs).1, (hits_classify rs).2]
  unfold classify
  dsimp only
  split_ifs with ha hb hb' <;> dsimp only
  · exact ⟨iff_of_false (by decide) (by omega), iff_of_false (by decide) (by omega)⟩
  · exact ⟨iff_of_false (by decide) (by omega), iff_of_false (by decide) (by omega)⟩
  · exact ⟨iff_of_false (by decide) (by omega), iff_of_true rfl (by omega)⟩
  · exact ⟨iff_of_true rfl (by omega), iff_of_false (by decide) (by omega)⟩

theorem hardening_eq_nil_iff (R : FullReport) :
    hardening R (scoring R) = [] ↔ (judge R).2.tierName = ascii "PASS / ALLOW" ∨
      (judge R).2.tierName = ascii "MONITOR / THROTTLE" ∧ (scoring R).anyReality = true := by
  have himp := (listed_scoring R).impersonation
  have h : (judge R).2 = classify (rules R (scoring R)) := rfl
  rw [h, (tierName_classify _).1, (tierName_classify _).2, ← h, aHits_judge, bHits_judge]
  simp only [hardening, List.append_eq_nil_iff, suggest_eq_nil]
  generalize scoring R = s at himp ⊢
  cases wgDefault R <;> cases awgDefault R <;> cases s.anyProxyOpen <;> cases hr : s.anyReality <;>
    cases hi : s.anyImpersonation <;> cases (s.anyJ3Canned || s.anyJ3Badver) <;> simp_all

theorem score_full_iff (R : FullReport) : (judge R).1.score = 100 ↔
    (scoring R).book.strong = [] ∧ (scoring R).book.soft = [] := by
  have hle := (listed_scoring R).le
  have hscore : (judge R).1.score = max 0 (min (scoring R).book.score 100) := rfl
  rw [hscore]
  constructor
  · intro h
    exact ⟨List.eq_nil_of_length_eq_zero (by omega), List.eq_nil_of_length_eq_zero (by omega)⟩
  · rintro ⟨h₁, h₂⟩
    rw [(listed_scoring R).none h₁ h₂]
    decide

theorem exposure_consistent (R : FullReport) :
    (exposureMatrix R (scoring R)).countP (·.level = .high) =
        (judge R).2.aHits + (judge R).2.bHits ∧
      (judge R).2.aHits + (judge R).2.bHits ≤ (scoring R).book.strong.length ∧
      (rules R (scoring R)).map Rule.hit =
        backings.map (fun backing => (scoring R).book.strong.any (isBackedBy · backing)) ∧
      (∀ text, backings.countP (isBackedBy text) ≤ 1) ∧
      (hardening R (scoring R) = [] ↔ (judge R).2.tierName = ascii "PASS / ALLOW" ∨
        (judge R).2.tierName = ascii "MONITOR / THROTTLE" ∧ (scoring R).anyReality = true) ∧
      ((judge R).1.score = 100 ↔ (scoring R).book.strong = [] ∧ (scoring R).book.soft = []) :=
  ⟨high_eq_hits R, hits_le_strong R, hit_iff_backed R, countP_isBackedBy_le,
    hardening_eq_nil_iff R, score_full_iff R⟩

end ByeByeVpn

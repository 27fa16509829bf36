import ByeByeVpn.Network.TcpConnect

/-!
# The address of a host

Four functions choose an address from the list of `getaddrinfo`: the scans
take the first IPv4 entry, `tcp_connect` puts all IPv4 entries first, and
`resolve_host` reports the first text that it has collected.
-/

namespace ByeByeVpn

/-- The two searches of `resolve_scan_target`, and of `udp_probe`. -/
def chooseAddress (ai : List AddrInfo) : Option AddrInfo :=
  (ai.find? fun p => p.family == .inet).or (ai.find? fun p => p.family == .inet6)

def resolveScanTarget : GetAddrInfo → Option AddrInfo
  | .error _ => none
  | .ok ai => chooseAddress ai

/-- The address that `udp_probe` sends to, or its error. -/
def udpTarget : GetAddrInfo → Except Bytes AddrInfo
  | .error _ => .error (ascii "dns")
  | .ok ai =>
    match chooseAddress ai with
    | none => .error (ascii "dns")
    | some p => .ok p

/-- The first IPv4 entry, or the first IPv6 entry where there is no IPv4. -/
def FirstPreferred (ai : List AddrInfo) (e : AddrInfo) : Prop :=
  ∃ before after, ai = before ++ e :: after ∧
    (e.family = .inet ∧ (∀ p ∈ before, p.family ≠ .inet) ∨
      e.family = .inet6 ∧ (∀ p ∈ ai, p.family ≠ .inet) ∧ ∀ p ∈ before, p.family ≠ .inet6)

def readAddr (text : AddrText) (s : Bytes) : Option AddrInfo :=
  match text.pton .inet s with
  | some a => some ⟨.inet, a⟩
  | none => (text.pton .inet6 s).map fun a => ⟨.inet6, a⟩

/-- A host that is an address is answered with this address. -/
def Numeric (text : AddrText) (host : Bytes) (ai : List AddrInfo) : Prop :=
  ∀ e, readAddr text host = some e → ∀ p ∈ ai, p.family ≠ .other → p = e

/-- The addresses of the list, each where it comes first, those of IPv4 first. -/
def addresses (ai : List AddrInfo) : List AddrInfo :=
  (ofFamily .inet ai).eraseDups ++ (ofFamily .inet6 ai).eraseDups

def familyName (ai : List AddrInfo) : Bytes :=
  if !(ofFamily .inet ai).isEmpty && !(ofFamily .inet6 ai).isEmpty then
    ascii "mixed(v4-preferred)"
  else if !(ofFamily .inet ai).isEmpty then ascii "v4"
  else ascii "v6"

-- ---------------------------------------------------------------------------
-- First occurrences
-- ---------------------------------------------------------------------------

section

variable {α : Type*} [DecidableEq α]

theorem eraseDups_concat (l : List α) (b : α) :
    (l ++ [b]).eraseDups = if b ∈ l then l.eraseDups else l.eraseDups ++ [b] := by
  rw [List.eraseDups_append]
  split_ifs with hb <;> simp [List.removeAll, hb, List.eraseDups_cons]

theorem head?_eraseDups (l : List α) : l.eraseDups.head? = l.head? := by
  cases l with
  | nil => rfl
  | cons a l => rw [List.eraseDups_cons]; rfl

theorem nodup_eraseDups (l : List α) : l.eraseDups.Nodup := by
  induction l using List.reverseRecOn with
  | nil => exact List.nodup_nil
  | append_singleton l b ih =>
    rw [eraseDups_concat]
    split_ifs with hb
    · exact ih
    · exact List.nodup_append'.mpr ⟨ih, List.nodup_singleton b, by simpa using hb⟩

end

theorem mem_ofFamily {f : AddrFamily} {ai : List AddrInfo} {p : AddrInfo} :
    p ∈ ofFamily f ai ↔ p ∈ ai ∧ p.family = f := by
  rw [ofFamily, List.mem_filter, beq_iff_eq]

theorem mem_addresses {ai : List AddrInfo} {p : AddrInfo} :
    p ∈ addresses ai ↔ p ∈ ai ∧ p.family ≠ .other := by
  simp only [addresses, List.mem_append, List.mem_eraseDups, mem_ofFamily]
  cases p.family <;> simp

theorem nodup_addresses (ai : List AddrInfo) : (addresses ai).Nodup := by
  refine List.nodup_append'.mpr ⟨nodup_eraseDups _, nodup_eraseDups _, fun p h h' => ?_⟩
  rw [List.mem_eraseDups, mem_ofFamily] at h h'
  rw [h.2] at h'
  cases h'.2

theorem head?_addresses (ai : List AddrInfo) : (addresses ai).head? = chooseAddress ai := by
  rw [addresses, List.head?_append, head?_eraseDups, head?_eraseDups, ofFamily, ofFamily,
    List.head?_filter, List.head?_filter, chooseAddress]

theorem chooseAddress_isSome {ai : List AddrInfo} (h : ∃ p ∈ ai, p.family ≠ .other) :
    ∃ e, chooseAddress ai = some e := by
  obtain ⟨p, hp, hf⟩ := h
  have hne : addresses ai ≠ [] := List.ne_nil_of_mem (mem_addresses.mpr ⟨hp, hf⟩)
  exact ⟨_, (head?_addresses ai).symm.trans (List.head?_eq_some_head hne)⟩

theorem firstPreferred_of_chooseAddress {ai : List AddrInfo} {e : AddrInfo}
    (h : chooseAddress ai = some e) : FirstPreferred ai e := by
  rw [chooseAddress, Option.or_eq_some_iff] at h
  rcases h with h | ⟨hnone, h⟩
  · obtain ⟨hf, before, after, hsplit, hbefore⟩ := List.find?_eq_some_iff_append.mp h
    exact ⟨before, after, hsplit, .inl ⟨eq_of_beq hf, fun p hp => by simpa using hbefore p hp⟩⟩
  · obtain ⟨hf, before, after, hsplit, hbefore⟩ := List.find?_eq_some_iff_append.mp h
    refine ⟨before, after, hsplit, .inr ⟨eq_of_beq hf, fun p hp => ?_, fun p hp => ?_⟩⟩
    · simpa using List.find?_eq_none.mp hnone p hp
    · simpa using hbefore p hp

-- ---------------------------------------------------------------------------
-- The texts
-- ---------------------------------------------------------------------------

variable {text : AddrText} {ai : List AddrInfo} {p q : AddrInfo}

theorem AddrText.Faithful.of_append {ai' : List AddrInfo} (h : text.Faithful (ai ++ ai')) :
    text.Faithful ai :=
  ⟨fun p hp => h.written p (List.mem_append_left ai' hp),
    fun p hp => h.back p (List.mem_append_left ai' hp),
    fun p hp => h.apart p (List.mem_append_left ai' hp)⟩

theorem extractIp_eq (hf : p.family ≠ .other) : extractIp text p = text.ntop p.family p.addr := by
  unfold extractIp
  split <;> simp_all

theorem readAddr_extractIp (h : text.Faithful ai) (hp : p ∈ ai) (hf : p.family ≠ .other) :
    readAddr text (extractIp text p) = some p := by
  have hback := h.back p hp hf
  rw [extractIp_eq hf, readAddr]
  obtain ⟨family, addr⟩ := p
  cases family with
  | inet => simp only [hback]
  | inet6 => simp only [h.apart _ hp rfl, hback, Option.map_some]
  | other => exact absurd rfl hf

theorem extractIp_mem_map_iff (h : text.Faithful ai) (hp : p ∈ ai) (hf : p.family ≠ .other)
    {l : List AddrInfo} (hl : ∀ q ∈ l, q ∈ ai ∧ q.family ≠ .other) :
    extractIp text p ∈ l.map (extractIp text) ↔ p ∈ l := by
  refine ⟨fun hm => ?_, fun hm => List.mem_map_of_mem hm⟩
  obtain ⟨q, hq, heq⟩ := List.mem_map.mp hm
  have hread := readAddr_extractIp h hp hf
  rw [← heq, readAddr_extractIp h (hl q hq).1 (hl q hq).2, Option.some.injEq] at hread
  rwa [← hread]

theorem ofFamily_concat (f : AddrFamily) (ai : List AddrInfo) (p : AddrInfo) :
    ofFamily f (ai ++ [p]) = if p.family = f then ofFamily f ai ++ [p] else ofFamily f ai := by
  rw [ofFamily, ofFamily, List.filter_append]
  split_ifs with hf <;> simp [hf]

theorem map_eraseDups_concat (h : text.Faithful (ai ++ [p])) {f : AddrFamily} (hf : f ≠ .other)
    (hp : p.family = f) :
    (ofFamily f (ai ++ [p])).eraseDups.map (extractIp text) =
      if extractIp text p ∈ (ofFamily f ai).eraseDups.map (extractIp text) then
        (ofFamily f ai).eraseDups.map (extractIp text)
      else (ofFamily f ai).eraseDups.map (extractIp text) ++ [extractIp text p] := by
  have hmem : extractIp text p ∈ (ofFamily f ai).eraseDups.map (extractIp text) ↔
      p ∈ ofFamily f ai := by
    rw [extractIp_mem_map_iff h (by simp) (hp ▸ hf), List.mem_eraseDups]
    intro q hq
    rw [List.mem_eraseDups, mem_ofFamily] at hq
    exact ⟨List.mem_append_left [p] hq.1, hq.2 ▸ hf⟩
  rw [ofFamily_concat, if_pos hp, eraseDups_concat]
  by_cases hin : p ∈ ofFamily f ai
  · rw [if_pos hin, if_pos (hmem.mpr hin)]
  · rw [if_neg hin, if_neg (hmem.not.mpr hin), List.map_append, List.map_singleton]

/-- The loop of `resolve_host` keeps the text of each address where it comes first. -/
theorem foldl_add (h : text.Faithful ai) :
    (ai.foldl (CollectedIps.add text) {}).v4 =
        (ofFamily .inet ai).eraseDups.map (extractIp text) ∧
      (ai.foldl (CollectedIps.add text) {}).v6 =
        (ofFamily .inet6 ai).eraseDups.map (extractIp text) := by
  induction ai using List.reverseRecOn with
  | nil => exact ⟨rfl, rfl⟩
  | append_singleton ai p ih =>
    obtain ⟨h4, h6⟩ := ih h.of_append
    have hp : p ∈ ai ++ [p] := List.mem_append_right ai List.mem_cons_self
    have hne (hf : p.family ≠ .other) : (extractIp text p).isEmpty = false := by
      rw [extractIp_eq hf]
      exact List.isEmpty_eq_false_iff.mpr (h.written p hp hf)
    rw [List.foldl_append, List.foldl_cons, List.foldl_nil]
    cases hf : p.family with
    | inet =>
      have hno : ofFamily .inet6 (ai ++ [p]) = ofFamily .inet6 ai := by
        rw [ofFamily_concat, hf, if_neg (by decide)]
      rw [hno, map_eraseDups_concat h (by decide) hf, ← h4, ← h6]
      simp only [CollectedIps.add, hne (by rw [hf]; decide), hf, Bool.false_eq_true, if_false,
        List.contains_iff_mem]
      split_ifs <;> exact ⟨rfl, rfl⟩
    | inet6 =>
      have hno : ofFamily .inet (ai ++ [p]) = ofFamily .inet ai := by
        rw [ofFamily_concat, hf, if_neg (by decide)]
      rw [hno, map_eraseDups_concat h (by decide) hf, ← h4, ← h6]
      simp only [CollectedIps.add, hne (by rw [hf]; decide), hf, Bool.false_eq_true, if_false,
        List.contains_iff_mem]
      split_ifs <;> exact ⟨rfl, rfl⟩
    | other =>
      have hskip : CollectedIps.add text (ai.foldl (CollectedIps.add text) {}) p =
          ai.foldl (CollectedIps.add text) {} := by
        simp [CollectedIps.add, extractIp, hf]
      rw [hskip, ofFamily_concat, ofFamily_concat, hf, if_neg (by decide), if_neg (by decide)]
      exact ⟨h4, h6⟩

-- ---------------------------------------------------------------------------
-- The host
-- ---------------------------------------------------------------------------

structure ResolvedHost.Reports (r : ResolvedHost) (text : AddrText) (ai : List AddrInfo)
    (e : AddrInfo) : Prop where
  primaryIp : readAddr text r.primaryIp = some e
  nodup : r.ips.Nodup
  ips : r.ips.map (readAddr text) = (addresses ai).map some
  family : r.family = familyName ai

theorem nodup_of_read {ips : List Bytes}
    (h : ips.map (readAddr text) = (addresses ai).map some) : ips.Nodup := by
  refine List.Nodup.of_map (readAddr text) ?_
  rw [h]
  exact (nodup_addresses ai).map (Option.some_injective _)

variable {getaddrinfo : Bytes → GetAddrInfo} {host : Bytes} {e : AddrInfo}

theorem chooseAddress_mem (he : chooseAddress ai = some e) : e ∈ ai ∧ e.family ≠ .other := by
  rw [← head?_addresses] at he
  exact mem_addresses.mp (List.mem_of_head? he)

theorem addresses_numeric (he : chooseAddress ai = some e)
    (h : ∀ p ∈ ai, p.family ≠ .other → p = e) : addresses ai = [e] := by
  have hhead := (head?_addresses ai).trans he
  have hnodup := nodup_addresses ai
  have hall : ∀ p ∈ addresses ai, p = e := fun p hp => by
    obtain ⟨hm, hf⟩ := mem_addresses.mp hp
    exact h p hm hf
  cases hl : addresses ai with
  | nil =>
    rw [hl] at hhead
    cases hhead
  | cons a l =>
    rw [hl] at hall hnodup
    obtain rfl := hall a List.mem_cons_self
    have hnil : l = [] := List.eq_nil_iff_forall_not_mem.mpr fun b hb => by
      obtain rfl := hall b (List.mem_cons_of_mem _ hb)
      exact (List.nodup_cons.mp hnodup).1 hb
    rw [hnil]

theorem ofFamily_isEmpty {f : AddrFamily} :
    (ofFamily f ai).isEmpty = true ↔ ∀ p ∈ ai, p.family ≠ f := by
  rw [List.isEmpty_iff, ofFamily, List.filter_eq_nil_iff]
  simp only [beq_iff_eq, ne_eq]

theorem reports_numeric (hread : readAddr text host = some e) (hnumeric : Numeric text host ai)
    (he : chooseAddress ai = some e) :
    (resolveHost text getaddrinfo host).Reports text ai e := by
  have hall := hnumeric e hread
  have hips : [host].map (readAddr text) = (addresses ai).map some := by
    rw [addresses_numeric he hall, List.map_singleton, List.map_singleton, hread]
  have hpresent : (ofFamily e.family ai).isEmpty = false := by
    rw [Bool.eq_false_iff, Ne, ofFamily_isEmpty]
    exact fun hno => hno e (chooseAddress_mem he).1 rfl
  have habsent (f : AddrFamily) (hf : f ≠ .other) (hne : e.family ≠ f) :
      (ofFamily f ai).isEmpty = true := by
    refine ofFamily_isEmpty.mpr fun p hp hpf => hne ?_
    rw [← hall p hp (hpf ▸ hf), hpf]
  rw [readAddr] at hread
  cases h4 : text.pton .inet host with
  | some a =>
    rw [h4] at hread
    obtain rfl := Option.some.inj hread
    have hfamily : familyName ai = ascii "v4" := by
      rw [familyName, hpresent, habsent .inet6 (by decide) (fun h => nomatch h)]
      rfl
    rw [resolveHost, isIpv4, h4, Option.isSome_some, if_pos rfl]
    exact ⟨by rw [readAddr, h4], List.nodup_singleton host, hips, hfamily.symm⟩
  | none =>
    rw [h4] at hread
    obtain ⟨a, h6, rfl⟩ := Option.map_eq_some_iff.mp hread
    have hfamily : familyName ai = ascii "v6" := by
      rw [familyName, habsent .inet (by decide) (fun h => nomatch h)]
      rfl
    rw [resolveHost, isIpv4, isIpv6, h4, h6, Option.isSome_none, if_neg Bool.false_ne_true,
      Option.isSome_some, if_pos rfl]
    exact ⟨by rw [readAddr, h4, h6]; rfl, List.nodup_singleton host, hips, hfamily.symm⟩

theorem reports_named (hread : readAddr text host = none) (hai : getaddrinfo host = .ok ai)
    (h : text.Faithful ai) (he : chooseAddress ai = some e) :
    (resolveHost text getaddrinfo host).Reports text ai e := by
  obtain ⟨h4, h6⟩ : text.pton .inet host = none ∧ text.pton .inet6 host = none := by
    rw [readAddr] at hread
    split at hread
    · cases hread
    · next h4 => exact ⟨h4, Option.map_eq_none_iff.mp hread⟩
  obtain ⟨hv4, hv6⟩ := foldl_add h
  have hempty {f : AddrFamily} : ((ofFamily f ai).eraseDups.map (extractIp text)).isEmpty =
      (ofFamily f ai).isEmpty := by
    cases hl : ofFamily f ai with
    | nil => rfl
    | cons a l => rw [List.eraseDups_cons]; rfl
  have hips : ((addresses ai).map (extractIp text)).map (readAddr text) =
      (addresses ai).map some :=
    (List.map_map ..).trans (List.map_congr_left fun p hp =>
      readAddr_extractIp h (mem_addresses.mp hp).1 (mem_addresses.mp hp).2)
  have hprimary : ((addresses ai).map (extractIp text)).headD [] = extractIp text e := by
    rw [List.headD_eq_head?_getD, List.head?_map, head?_addresses, he]
    rfl
  have hfamily : (if !(ofFamily .inet ai).isEmpty && !(ofFamily .inet6 ai).isEmpty then
      ascii "mixed(v4-preferred)" else if !(ofFamily .inet ai).isEmpty then ascii "v4"
      else if !(ofFamily .inet6 ai).isEmpty then ascii "v6" else []) = familyName ai := by
    obtain ⟨hm, hf⟩ := chooseAddress_mem he
    rw [familyName]
    cases h4 : (ofFamily .inet ai).isEmpty
    · cases (ofFamily .inet6 ai).isEmpty <;> rfl
    · cases h6 : (ofFamily .inet6 ai).isEmpty
      · rfl
      · -- the entry that was chosen is of one of the two families
        have hno4 := ofFamily_isEmpty.mp h4 e hm
        have hno6 := ofFamily_isEmpty.mp h6 e hm
        cases hfam : e.family <;> contradiction
  rw [resolveHost, isIpv4, isIpv6, h4, h6, Option.isSome_none, if_neg Bool.false_ne_true,
    if_neg Bool.false_ne_true, hai]
  simp only [hv4, hv6, hempty, ← List.map_append]
  have hread := readAddr_extractIp h (chooseAddress_mem he).1 (chooseAddress_mem he).2
  exact ⟨(congrArg _ hprimary).trans hread, nodup_of_read hips, hips, hfamily⟩

-- ---------------------------------------------------------------------------
-- One address
-- ---------------------------------------------------------------------------

theorem orderAddresses_map {α β : Type*} (f : α → β) (family : β → AddrFamily) (l : List α) :
    (orderAddresses (fun a => family (f a)) l).map f = orderAddresses family (l.map f) := by
  rw [orderAddresses, orderAddresses, List.map_append, List.filter_map, List.filter_map]
  rfl

theorem tcpConnect_first {cs : List Candidate} (he : chooseAddress ai = some e)
    (hcs : cs.map Candidate.toAddrInfo = ai) (timeoutMs : Int) (err : Bytes) :
    ∃ c rest, tried cs = c :: rest ∧ c.toAddrInfo = e ∧
      (tryCandidate timeoutMs c).calls <+: (tcpConnect (some cs) timeoutMs err).calls := by
  have hmap : (tried cs).map Candidate.toAddrInfo = orderAddresses AddrInfo.family ai := by
    rw [tried, orderAddresses_map Candidate.toAddrInfo AddrInfo.family, hcs]
  have hhead : (orderAddresses AddrInfo.family ai).head? = some e := by
    rw [orderAddresses, List.head?_append, List.head?_filter, List.head?_filter, ← he]
    rfl
  rw [← hmap, List.head?_map, Option.map_eq_some_iff] at hhead
  obtain ⟨c, hc, rfl⟩ := hhead
  obtain ⟨rest, hrest⟩ := List.head?_eq_some_iff.mp hc
  refine ⟨c, rest, hrest, rfl, ?_⟩
  rw [tcpConnect, ← tried, hrest, tryCandidates]
  split_ifs
  · exact List.prefix_rfl
  · exact List.prefix_append _ _

/-- The scans, `tcp_connect` and `resolve_host` settle on the same address. -/
theorem chosenAddress_agree (text : AddrText) (getaddrinfo : Bytes → GetAddrInfo) (host : Bytes)
    (ai : List AddrInfo) (hai : getaddrinfo host = .ok ai)
    (hsome : ∃ p ∈ ai, p.family ≠ .other) (hfaithful : text.Faithful ai)
    (hnumeric : Numeric text host ai) :
    ∃ e, FirstPreferred ai e ∧
      resolveScanTarget (getaddrinfo host) = some e ∧
      udpTarget (getaddrinfo host) = .ok e ∧
      (∀ cs timeoutMs err, cs.map Candidate.toAddrInfo = ai →
        ∃ c rest, tried cs = c :: rest ∧ c.toAddrInfo = e ∧
          (tryCandidate timeoutMs c).calls <+: (tcpConnect (some cs) timeoutMs err).calls) ∧
      (resolveHost text getaddrinfo host).Reports text ai e := by
  obtain ⟨e, he⟩ := chooseAddress_isSome hsome
  refine ⟨e, firstPreferred_of_chooseAddress he, ?_, ?_,
    fun cs timeoutMs err hcs => tcpConnect_first he hcs timeoutMs err, ?_⟩
  · rw [hai, resolveScanTarget, he]
  · simp only [hai, udpTarget, he]
  · cases hread : readAddr text host with
    | none => exact reports_named hread hai hfaithful he
    | some e' =>
      obtain ⟨hm, hf⟩ := chooseAddress_mem he
      rw [← hnumeric e' hread e hm hf] at hread
      exact reports_numeric hread hnumeric he

def exampleList : List AddrInfo :=
  [⟨.inet6, [0x20, 0x01, 0x0d, 0xb8, 0, 0, 0, 0, 0, 0, 0, 0, 0, 0, 0, 1]⟩,
    ⟨.inet, [192, 0, 2, 7]⟩, ⟨.inet, [192, 0, 2, 7]⟩]

def exampleText : AddrText where
  ntop
    | .inet, [192, 0, 2, 7] => ascii "192.0.2.7"
    | .inet6, [0x20, 0x01, 0x0d, 0xb8, 0, 0, 0, 0, 0, 0, 0, 0, 0, 0, 0, 1] => ascii "2001:db8::1"
    | _, _ => []
  pton f s :=
    if f = .inet ∧ s = ascii "192.0.2.7" then some [192, 0, 2, 7]
    else if f = .inet6 ∧ s = ascii "2001:db8::1" then
      some [0x20, 0x01, 0x0d, 0xb8, 0, 0, 0, 0, 0, 0, 0, 0, 0, 0, 0, 1]
    else none

theorem chosenAddress_agree_example :
    (∃ p ∈ exampleList, p.family ≠ .other) ∧ exampleText.Faithful exampleList ∧
    Numeric exampleText (ascii "example.org") exampleList ∧
    ∃ e, FirstPreferred exampleList e ∧
      resolveScanTarget (.ok exampleList) = some e ∧ udpTarget (.ok exampleList) = .ok e ∧
      (∀ cs timeoutMs err, cs.map Candidate.toAddrInfo = exampleList →
        ∃ c rest, tried cs = c :: rest ∧ c.toAddrInfo = e ∧
          (tryCandidate timeoutMs c).calls <+: (tcpConnect (some cs) timeoutMs err).calls) ∧
      (resolveHost exampleText (fun _ => .ok exampleList) (ascii "example.org")).Reports
        exampleText exampleList e := by
  have hsome : ∃ p ∈ exampleList, p.family ≠ .other := ⟨_, List.mem_cons_self, by decide⟩
  have hfaithful : exampleText.Faithful exampleList := ⟨by decide, by decide, by decide⟩
  have hnumeric : Numeric exampleText (ascii "example.org") exampleList :=
    fun e he => absurd (show none = some e from he) (by simp)
  exact ⟨hsome, hfaithful, hnumeric, chosenAddress_agree exampleText (fun _ => .ok exampleList)
    (ascii "example.org") exampleList rfl hsome hfaithful hnumeric⟩

end ByeByeVpn

import ByeByeVpn.Network.ServerHeader

/-!
# The peer's bytes in the details

The details of a fingerprint are printed as they are. The text of a line that
is not HTTP goes through `printable_prefix`; a banner, a status line and a
server's name are only trimmed.
-/

namespace ByeByeVpn

open Lines

/-- From the space to the tilde. -/
def Printable (s : Bytes) : Prop := ∀ c ∈ s, 32 ≤ c ∧ c ≤ 126

inductive PeerReply
  | ssh (bannerHint : Bytes) (received : Option Bytes)
  | httpPlain (received : Option Bytes)
  | httpConnect (received : Option Bytes)
  | socks5 (received : Option Bytes)

def PeerReply.details : PeerReply → Bytes
  | .ssh bannerHint received => (fpSsh bannerHint received).details
  | .httpPlain received => (fpHttpPlain received).details
  | .httpConnect received => (fpHttpConnect received).details
  | .socks5 received => (fpSocks5 received).details

def PrintableInside (text : Bytes) : Prop :=
  ∃ before core after, text = before ++ core ++ after ∧ (∀ c ∈ before, isspace c = true) ∧
    (∀ c ∈ after, isspace c = true) ∧ Printable core

def PrintableBanner (banner : Bytes) : Prop :=
  ∃ core after, banner = core ++ after ∧ (∀ c ∈ after, c = chr '\r' ∨ c = chr '\n') ∧
    Printable core

def SshBanner (bannerHint : Bytes) (received : Option Bytes) (banner : Bytes) : Prop :=
  ascii "SSH-" <+: banner ∧
    (banner = bannerHint ∨ ¬ascii "SSH-" <+: bannerHint ∧ received = some banner)

def FirstLine (resp line : Bytes) : Prop :=
  ∃ rest, resp = line ++ rest ∧ chr '\n' ∉ line ∧ EndsLine (chr '\n') rest

/-- The text behind the first `server:` in any case, up to the end of the line. -/
def ServerText (resp text : Bytes) : Prop :=
  ∃ before word rest, resp = before ++ (word ++ rest) ∧ ¬ascii "server:" <:+: tolowerS before ∧
    tolowerS word = ascii "server:" ∧ text = untilEnd rest

/-- What is shown of the reply is printable as it was sent. -/
def PeerReply.Clean : PeerReply → Prop
  | .ssh bannerHint received => ∀ banner, SshBanner bannerHint received banner →
    PrintableBanner banner
  | .httpPlain received => ∀ resp, received = some resp →
    (∀ line, FirstLine resp line → PrintableInside line) ∧
      ∀ text, ServerText resp text → PrintableInside text
  | .httpConnect received => ∀ resp, received = some resp → ∀ line, FirstLine resp line →
    ascii "HTTP/" <+: line.dropWhile isspace → PrintableInside line
  | .socks5 _ => True

-- ---------------------------------------------------------------------------
-- Printable text
-- ---------------------------------------------------------------------------

theorem printable_append {a b : Bytes} : Printable (a ++ b) ↔ Printable a ∧ Printable b :=
  List.forall_mem_append

theorem printable_nil : Printable [] := fun _ h => nomatch h

instance (s : Bytes) : Decidable (Printable s) := List.decidableBAll _ s

theorem printable_trim_iff {text : Bytes} : Printable (trim text) ↔ PrintableInside text := by
  constructor
  · intro h
    obtain ⟨before, after, hsplit, hb, ha⟩ := exists_trim text
    exact ⟨before, trim text, after, hsplit, hb, ha, h⟩
  · rintro ⟨before, core, after, rfl, hb, ha, hcore⟩ c hc
    rw [trim_around hb ha] at hc
    exact hcore c (mem_of_mem_trim hc)

theorem printable_banner_iff {banner : Bytes} :
    Printable (banner.rdropWhile fun c => c == chr '\r' || c == chr '\n') ↔
      PrintableBanner banner := by
  constructor
  · intro h
    obtain ⟨after, hsplit, hafter⟩ :=
      exists_rdropWhile (fun c => c == chr '\r' || c == chr '\n') banner
    exact ⟨_, after, hsplit, fun c hc => by simpa using hafter c hc, h⟩
  · rintro ⟨core, after, rfl, hafter, hcore⟩ c hc
    rw [rdropWhile_append_of_forall fun d hd => by simpa using hafter d hd] at hc
    exact hcore c ((List.rdropWhile_prefix _ _).subset hc)

theorem printable_hexDigit {n : UInt8} (h : n.toNat < 16) : 32 ≤ hexDigit n ∧ hexDigit n ≤ 126 := by
  have hdigits : Printable (ascii "0123456789abcdef") := by decide
  have hn : n.toNat < (ascii "0123456789abcdef").length := h
  refine hdigits (hexDigit n) ?_
  rw [hexDigit, List.getD_eq_getElem?_getD, List.getElem?_eq_getElem hn, Option.getD_some]
  exact List.getElem_mem hn

theorem printable_hexS (spaces : Bool) (s : Bytes) : Printable (hexS spaces s) := by
  have hlow (c : UInt8) : (c &&& 0xF).toNat < 16 := by
    rw [UInt8.toNat_and]
    exact Nat.lt_succ_of_le Nat.and_le_right
  induction s with
  | nil => exact printable_nil
  | cons c s ih =>
    have hspace : Printable (if spaces && !s.isEmpty then ascii " " else []) := by
      split
      · decide
      · exact printable_nil
    rw [hexS, Printable, List.forall_mem_cons, List.forall_mem_cons]
    exact ⟨printable_hexDigit (hlow _), printable_hexDigit (hlow c), printable_append.mpr
      ⟨hspace, ih⟩⟩

theorem printable_printable (c : UInt8) (room : Nat) : Printable (printable c room) := by
  unfold printable
  split_ifs with h
  · simp only [Bool.and_eq_true, decide_eq_true_eq] at h
    rw [Printable, List.forall_mem_singleton]
    exact ⟨h.1, UInt8.le_iff_toNat_le.mpr (Nat.le_of_lt_succ (UInt8.lt_iff_toNat_lt.mp h.2))⟩
  all_goals decide

theorem printable_printableFrom {out : Bytes} (h : Printable out) (lim : Nat) (s : Bytes) :
    Printable (printableFrom lim out s) := by
  induction s generalizing out with
  | nil => exact h
  | cons c s ih =>
    unfold printableFrom
    split_ifs
    · exact ih (printable_append.mpr ⟨h, printable_printable c _⟩)
    · exact h

theorem printable_printablePrefix (s : Bytes) (lim : Nat) : Printable (printablePrefix s lim) :=
  printable_printableFrom printable_nil lim s

-- ---------------------------------------------------------------------------
-- The probes
-- ---------------------------------------------------------------------------

def bannerOf (bannerHint : Bytes) (received : Option Bytes) : Bytes :=
  if startsWith bannerHint (ascii "SSH-") then bannerHint else received.getD bannerHint

theorem details_fpSsh (bannerHint : Bytes) (received : Option Bytes) :
    (fpSsh bannerHint received).details =
      if startsWith (bannerOf bannerHint received) (ascii "SSH-") then
        (bannerOf bannerHint received).rdropWhile fun c => c == chr '\r' || c == chr '\n'
      else ascii "no SSH banner (but port open)" := by
  have hb : (if bannerHint.isEmpty || !startsWith bannerHint (ascii "SSH-") then
      received.getD bannerHint else bannerHint) = bannerOf bannerHint received := by
    cases bannerHint with
    | nil => rfl
    | cons c s =>
      rw [bannerOf, List.isEmpty_cons, Bool.false_or]
      cases startsWith (c :: s) (ascii "SSH-") <;> rfl
  simp only [fpSsh, hb]
  split_ifs <;> rfl

theorem sshBanner_iff {bannerHint banner : Bytes} {received : Option Bytes} :
    SshBanner bannerHint received banner ↔
      startsWith (bannerOf bannerHint received) (ascii "SSH-") = true ∧
        banner = bannerOf bannerHint received := by
  rw [SshBanner, bannerOf]
  by_cases hhint : startsWith bannerHint (ascii "SSH-") = true
  · have hp := startsWith_iff.mp hhint
    rw [if_pos hhint]
    constructor
    · rintro ⟨-, rfl | ⟨hno, -⟩⟩
      · exact ⟨hhint, rfl⟩
      · exact absurd hp hno
    · rintro ⟨-, rfl⟩
      exact ⟨hp, .inl rfl⟩
  · have hp := startsWith_iff.not.mp hhint
    rw [if_neg hhint, startsWith_iff]
    constructor
    · rintro ⟨hbanner, rfl | ⟨-, rfl⟩⟩
      · exact absurd hbanner hp
      · exact ⟨hbanner, rfl⟩
    · rintro ⟨hbanner, rfl⟩
      cases received with
      | none => exact absurd hbanner hp
      | some b => exact ⟨hbanner, .inr ⟨hp, rfl⟩⟩

theorem printable_ssh_iff (bannerHint : Bytes) (received : Option Bytes) :
    Printable (PeerReply.ssh bannerHint received).details ↔
      (PeerReply.ssh bannerHint received).Clean := by
  rw [PeerReply.details, PeerReply.Clean, details_fpSsh]
  split_ifs with hssh
  · rw [printable_banner_iff]
    constructor
    · intro h banner hbanner
      obtain ⟨-, rfl⟩ := sshBanner_iff.mp hbanner
      exact h
    · exact fun h => h _ (sshBanner_iff.mpr ⟨hssh, rfl⟩)
  · refine iff_of_true (by decide) fun banner hbanner => ?_
    exact absurd (sshBanner_iff.mp hbanner).1 hssh

theorem FirstLine.eq {resp line : Bytes} (h : FirstLine resp line) :
    firstLine resp = trim line := by
  obtain ⟨rest, rfl, hl, hrest⟩ := h
  exact firstLine_eq hl hrest

theorem exists_line (resp : Bytes) : ∃ line, FirstLine resp line := by
  obtain ⟨l, -, rest, -, hs, hl, hrest⟩ := exists_firstLine (chr '\n') resp
  exact ⟨l, rest, hs, hl, hrest⟩

theorem printable_firstLine_iff {resp : Bytes} :
    Printable (firstLine resp) ↔ ∀ line, FirstLine resp line → PrintableInside line := by
  constructor
  · intro h line hline
    rwa [hline.eq, printable_trim_iff] at h
  · intro h
    obtain ⟨line, hline⟩ := exists_line resp
    rw [hline.eq, printable_trim_iff]
    exact h line hline

theorem ServerText.mention {resp text : Bytes} (h : ServerText resp text) :
    ∃ k, mention resp = some k ∧ text = untilEnd (resp.drop (k + 7)) := by
  obtain ⟨before, word, rest, rfl, hbefore, hword, rfl⟩ := h
  refine ⟨before.length, ?_, ?_⟩
  · have hlower : tolowerS (before ++ (word ++ rest)) =
        tolowerS before ++ (ascii "server:" ++ tolowerS rest) := by
      rw [← hword, tolowerS, List.map_append, List.map_append]
      rfl
    have hfind : Search.find (ascii "server:") (tolowerS before ++
        (ascii "server:" ++ tolowerS rest)) = some (tolowerS before).length :=
      Search.find_first (by decide) hbefore (tolowerS rest)
    have hlen : (tolowerS before).length = before.length := List.length_map tolower
    rw [ByeByeVpn.mention, hlower, hfind, hlen]
  · rw [← word_length hword, List.drop_length_add_append, List.drop_left]

theorem exists_serverText {resp : Bytes} {k : Nat} (h : mention resp = some k) :
    ∃ text, ServerText resp text := by
  obtain ⟨before, word, rest, rfl, rfl, hword⟩ := exists_mention h
  refine ⟨_, before, word, rest, rfl, ?_, hword, rfl⟩
  have hno := Search.not_infix_take_of_find (by decide) h
  rwa [tolowerS, ← List.map_take, List.take_left] at hno

theorem printable_plainServer_iff {resp : Bytes} :
    Printable (plainServer resp) ↔ ∀ text, ServerText resp text → PrintableInside text := by
  rw [plainServer_eq_of_mention]
  cases hm : mention resp with
  | none =>
    refine iff_of_true printable_nil fun text htext => ?_
    obtain ⟨k, hk, -⟩ := htext.mention
    rw [hm] at hk
    cases hk
  | some k =>
    rw [Option.map_some, Option.getD_some, printable_trim_iff]
    have htext {text : Bytes} (h : ServerText resp text) : text = untilEnd (resp.drop (k + 7)) := by
      obtain ⟨j, hj, htext⟩ := h.mention
      rw [hm, Option.some.injEq] at hj
      rw [htext, hj]
    constructor
    · intro h text hserver
      rwa [htext hserver]
    · intro h
      obtain ⟨text, hserver⟩ := exists_serverText hm
      exact htext hserver ▸ h text hserver

theorem printable_httpPlain_iff (received : Option Bytes) :
    Printable (PeerReply.httpPlain received).details ↔ (PeerReply.httpPlain received).Clean := by
  cases received with
  | none => exact iff_of_true printable_nil fun _ h => nomatch h
  | some resp =>
    have hserver : Printable (if (plainServer resp).isEmpty then []
        else ascii "  | Server: " ++ plainServer resp) ↔ Printable (plainServer resp) := by
      split_ifs with he
      · rw [List.isEmpty_iff.mp he]
      · exact printable_append.trans (and_iff_right (by decide))
    have hfront (rl : Bytes) : Printable (if contains rl (ascii "caddy") then
        ascii "  %[caddy-fronted - common Xray/Reality fallback]"
        else if contains rl (ascii "nginx") then ascii "  %[nginx - fallback host?]"
        else if contains rl (ascii "cloudflare") then ascii "  %[cloudflare]" else []) := by
      split_ifs <;> decide
    simp only [PeerReply.details, PeerReply.Clean, fpHttpPlain, printable_append, hserver,
      and_iff_left (hfront _), printable_firstLine_iff, printable_plainServer_iff,
      Option.some.injEq, forall_eq']

theorem http_prefix_trim_iff {line : Bytes} :
    ascii "HTTP/" <+: trim line ↔ ascii "HTTP/" <+: line.dropWhile isspace := by
  obtain ⟨after, hsplit, hafter⟩ := exists_rdropWhile isspace (line.dropWhile isspace)
  rw [← trim] at hsplit
  rw [hsplit]
  refine ⟨fun h => h.trans (List.prefix_append _ _), fun h => ?_⟩
  rcases Nat.le_total (ascii "HTTP/").length (trim line).length with hle | hle
  · exact List.prefix_of_prefix_length_le h (List.prefix_append _ _) hle
  · obtain ⟨u, hu⟩ := List.prefix_of_prefix_length_le (List.prefix_append _ after) h hle
    cases hcut : u.getLast? with
    | none =>
      rw [List.getLast?_eq_none_iff.mp hcut, List.append_nil] at hu
      rw [hu]
    | some c =>
      -- the slash would be white space
      have hlast : (ascii "HTTP/").getLast? = some c := by
        rw [← hu, List.getLast?_append, hcut, Option.some_or]
      have hc : c = chr '/' := (Option.some.inj hlast).symm
      rw [← hu, List.prefix_append_right_inj] at h
      have hspace := hafter c (h.subset (List.mem_of_getLast? hcut))
      rw [hc] at hspace
      cases hspace

theorem printable_httpConnect_iff (received : Option Bytes) :
    Printable (PeerReply.httpConnect received).details ↔
      (PeerReply.httpConnect received).Clean := by
  cases received with
  | none => exact iff_of_true printable_nil fun _ h => nomatch h
  | some resp =>
    simp only [PeerReply.details, PeerReply.Clean, fpHttpConnect, Option.some.injEq, forall_eq']
    by_cases hhttp : startsWith (firstLine resp) (ascii "HTTP/") = true
    · have hdetails : (if connectStatus (firstLine resp) = 200 ∨
          connectStatus (firstLine resp) = 201 ∨ connectStatus (firstLine resp) = 202 then
          ({ service := ascii "HTTP-PROXY"
             details := firstLine resp
             isVpnLike := true } : ProxyFp)
          else { service := ascii "HTTP-CONNECT-DENY", details := firstLine resp }).details =
          firstLine resp := by
        split_ifs <;> rfl
      rw [hhttp, Bool.not_true, if_neg Bool.false_ne_true, hdetails, printable_firstLine_iff]
      refine forall_congr' fun line => forall_congr' fun hline => ?_
      rw [hline.eq, startsWith_iff, http_prefix_trim_iff] at hhttp
      exact (imp_iff_right hhttp).symm
    · rw [Bool.not_eq_true] at hhttp
      rw [hhttp, Bool.not_false, if_pos rfl]
      refine iff_of_true (printable_printablePrefix _ 80) fun line hline hp => ?_
      rw [← http_prefix_trim_iff, ← hline.eq, ← startsWith_iff, hhttp] at hp
      cases hp

theorem printable_socks5 (received : Option Bytes) :
    Printable (PeerReply.socks5 received).details := by
  cases received with
  | none => exact printable_nil
  | some resp =>
    have hmethod (method : UInt8) : Printable (if method = 0x00 then ascii " (no-auth)"
        else if method = 0x02 then ascii " (user/pass)"
        else if method = 0xFF then ascii " (no acceptable)" else []) := by
      split_ifs <;> decide
    simp only [PeerReply.details, fpSocks5]
    split
    · exact printable_append.mpr
        ⟨printable_append.mpr ⟨by decide, printable_hexS false _⟩, hmethod _⟩
    · split
      · decide
      · split
        · exact printable_nil
        · exact printable_append.mpr ⟨by decide, printable_hexS false _⟩

/-- The details are printable exactly for what is shown as it was sent and was
printable then. -/
theorem printable_details_iff (r : PeerReply) : Printable r.details ↔ r.Clean := by
  cases r with
  | ssh bannerHint received => exact printable_ssh_iff bannerHint received
  | httpPlain received => exact printable_httpPlain_iff received
  | httpConnect received => exact printable_httpConnect_iff received
  | socks5 received => exact iff_of_true (printable_socks5 received) trivial

theorem details_escape :
    (PeerReply.ssh [] (some (ascii "SSH-2.0-\x1b[2J\r\n"))).details = ascii "SSH-2.0-\x1b[2J" ∧
    ¬Printable (PeerReply.ssh [] (some (ascii "SSH-2.0-\x1b[2J\r\n"))).details := by
  decide

end ByeByeVpn

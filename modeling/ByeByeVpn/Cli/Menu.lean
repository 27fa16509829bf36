import ByeByeVpn.Cli.Commands

/-!
# The menu and the process (`main.cpp`)

Without positional arguments the program reads choices from `stdin` until one
says to leave. The end of the input reads like an empty choice, which only
shows the menu again.
-/

namespace ByeByeVpn

/-- What `fgets` puts into a buffer of this size. -/
def fgets (size : Nat) (stdin : Bytes) : Bytes :=
  stdin.take (min (size - 1) (stdin.idxOf (chr '\n') + 1))

/-- The answer to a prompt, and what is left of the input. -/
def ask (stdin : Bytes) : Bytes × Bytes :=
  let buf := fgets 256 stdin
  if buf.isEmpty then ([], stdin)
  else (trim (buf.takeWhile (· != 0)), stdin.drop buf.length)

def pauseForEnter (stdin : Bytes) : Bytes := (stdin.dropWhile (· != chr '\n')).drop 1

structure Turn where
  shows : Asking Shown
  rest : Bytes

namespace Asking

def ifGiven (target : Bytes) (m : Asking Shown) : Asking Shown :=
  if target.isEmpty then pure .nothing else m

def menuTls (target portText : Bytes) : Asking Shown :=
  -- a port that cannot be read is taken for 443
  let port := (tryParseInt portText kMinPortNumber kMaxPortNumber).getD 443
  ifGiven target do
    let ip ← addressOf target
    Ended.shown <$> showTls ip port target

def menuJunk (target portText : Bytes) : Asking Shown :=
  if target.isEmpty || portText.isEmpty then pure .nothing
  else
    match tryParseInt portText kMinPortNumber kMaxPortNumber with
    | none => pure .nothing
    | some port => addressOf target >>= fun ip => showJunk ip port

end Asking

def menuTurn (c : Config) (stdin : Bytes) : Option Turn :=
  let (s, stdin) := ask stdin
  match s with
  | [] => some ⟨pure .nothing, stdin⟩
  | choice :: _ =>
    if choice = chr '0' ∨ choice = chr 'q' ∨ choice = chr 'Q' then none
    else if choice = chr '1' then
      let (t, stdin) := ask stdin
      some ⟨.ifGiven t (.fullCheck c t), pauseForEnter stdin⟩
    else if choice = chr '2' then
      let (t, stdin) := ask stdin
      some ⟨.ifGiven t (Asking.addressOf t >>= fun ip => .showPorts c ip), pauseForEnter stdin⟩
    else if choice = chr '3' then
      let (t, stdin) := ask stdin
      some ⟨.ifGiven t (Asking.addressOf t >>= fun ip => .showUdpWg ip), pauseForEnter stdin⟩
    else if choice = chr '4' then
      let (t, stdin) := ask stdin
      let (ps, stdin) := ask stdin
      some ⟨.menuTls t ps, pauseForEnter stdin⟩
    else if choice = chr '5' then
      let (t, stdin) := ask stdin
      let (ps, stdin) := ask stdin
      some ⟨.menuJunk t ps, pauseForEnter stdin⟩
    else if choice = chr '6' then
      let (t, stdin) := ask stdin
      some ⟨.lookUpGeo t, pauseForEnter stdin⟩
    else some ⟨pure .nothing, stdin⟩

/-- The contacts of a process come with the number of the turn. -/
abbrev Process := Query (Nat × Contact) fun q => q.2.Reply

/-- The loop for this many turns: the end of it, or what is left of the input. -/
def interactive (c : Config) (k : Nat) : Nat → Bytes → Process (Option Bytes)
  | 0, stdin => pure (some stdin)
  | turns + 1, stdin =>
    match menuTurn c stdin with
    | none => pure none
    | some turn => do
      let _ ← turn.shows.mark k
      interactive c (k + 1) turns turn.rest

-- ---------------------------------------------------------------------------
-- The process
-- ---------------------------------------------------------------------------

structure Startup where
  /-- what `openssl_runtime_init` fails with -/
  opensslInit : Option Bytes := none
  socketReady : Bool := true
  /-- the soft limit of `RLIMIT_NOFILE` -/
  nofile : Option UInt64 := none
  args : List Bytes := []
  stdin : Bytes := []

/-- The end of the process, if it comes within this many turns of the menu. -/
def mainImpl (start : Startup) (turns : Nat) : Process (Option Exit) :=
  match start.opensslInit with
  | some err =>
    pure (some ⟨2, ascii "fatal: OpenSSL initialization failed: " ++ err ++ ascii "\n"⟩)
  | none =>
    if !start.socketReady then
      pure (some ⟨2, ascii "fatal: socket runtime initialization failed\n"⟩)
    else
      match parseArgs {} start.args with
      | .error e => pure (some e)
      | .ok c =>
        let c := (clampThreadsToNofileLimit start.nofile c).1
        match c.pos with
        | [] => (fun rest => if rest.isNone then some ⟨0, []⟩ else none) <$>
            interactive c 0 turns start.stdin
        | cmd :: rest => (fun ended => some ended.exit) <$> (Asking.dispatch c cmd rest).mark 0

-- ---------------------------------------------------------------------------
-- The input
-- ---------------------------------------------------------------------------

theorem length_fgets {size : Nat} {stdin : Bytes} (hsize : 1 < size) (h : stdin ≠ []) :
    0 < (fgets size stdin).length := by
  have hlen := List.length_pos_iff.mpr h
  rw [fgets, List.length_take]
  omega

theorem ask_rest (stdin : Bytes) : (ask stdin).2 = stdin.drop (fgets 256 stdin).length := by
  unfold ask
  dsimp only
  split_ifs with h
  · rw [List.isEmpty_iff.mp h]
    rfl
  · rfl

theorem ask_suffix (stdin : Bytes) : (ask stdin).2 <:+ stdin := by
  rw [ask_rest]
  exact List.drop_suffix _ _

theorem length_ask_lt {stdin : Bytes} (h : stdin ≠ []) : (ask stdin).2.length < stdin.length := by
  have hlen := length_fgets (by decide : 1 < 256) h
  have := List.length_pos_iff.mpr h
  rw [ask_rest, List.length_drop]
  omega

theorem mem_of_mem_ask {stdin : Bytes} {b : UInt8} (h : b ∈ (ask stdin).1) : b ∈ stdin := by
  unfold ask at h
  dsimp only at h
  split_ifs at h
  · cases h
  · have hbuf := (List.takeWhile_prefix _).subset (mem_of_mem_trim h)
    exact (List.take_prefix _ _).subset hbuf

theorem pauseForEnter_suffix (stdin : Bytes) : pauseForEnter stdin <:+ stdin :=
  (List.drop_suffix _ _).trans (List.dropWhile_suffix _)

-- ---------------------------------------------------------------------------
-- The loop
-- ---------------------------------------------------------------------------

variable {c : Config} {stdin : Bytes} {k turns : Nat}

/-- The choices that leave the menu. -/
def leavesMenu (b : UInt8) : Prop := b = chr '0' ∨ b = chr 'q' ∨ b = chr 'Q'

theorem menuTurn_rest {turn : Turn} (h : menuTurn c stdin = some turn) :
    turn.rest <:+ (ask stdin).2 := by
  have hpause (s : Bytes) : pauseForEnter (ask s).2 <:+ s :=
    (pauseForEnter_suffix _).trans (ask_suffix s)
  unfold menuTurn at h
  dsimp only at h
  split at h
  · obtain rfl := Option.some.inj h
    exact List.suffix_refl _
  · split_ifs at h
    all_goals
      obtain rfl := Option.some.inj h
      dsimp only
    · exact hpause (ask stdin).2
    · exact hpause (ask stdin).2
    · exact hpause (ask stdin).2
    · exact (hpause (ask (ask stdin).2).2).trans (ask_suffix (ask stdin).2)
    · exact (hpause (ask (ask stdin).2).2).trans (ask_suffix (ask stdin).2)
    · exact hpause (ask stdin).2
    · exact List.suffix_refl _

theorem menuTurn_none (h : menuTurn c stdin = none) : ∃ b ∈ stdin, leavesMenu b := by
  unfold menuTurn at h
  dsimp only at h
  split at h
  · cases h
  · next choice rest hs =>
    split_ifs at h with hleave
    exact ⟨choice, mem_of_mem_ask (by rw [hs]; exact List.mem_cons_self), hleave⟩

theorem menuTurn_length {turn : Turn} (h : menuTurn c stdin = some turn)
    (hturns : stdin.length ≤ turns + 1) : turn.rest.length ≤ turns := by
  have hle := (menuTurn_rest h).length_le
  by_cases hne : stdin = []
  · subst hne
    exact hle.trans (Nat.zero_le _)
  · have := length_ask_lt hne
    omega

variable {world : (q : Nat × Contact) → q.2.Reply}

theorem interactive_none (h : menuTurn c stdin = none) :
    interactive c k (turns + 1) stdin = pure none := by
  rw [interactive, h]

theorem interactive_some {turn : Turn} (h : menuTurn c stdin = some turn) :
    interactive c k (turns + 1) stdin =
      turn.shows.mark k >>= fun _ => interactive c (k + 1) turns turn.rest := by
  rw [interactive, h]

/-- After as many turns as there are bytes another turn changes nothing. -/
theorem interactive_succ (h : stdin.length ≤ turns) :
    (interactive c k (turns + 1) stdin).run world = (interactive c k turns stdin).run world ∧
      (interactive c k (turns + 1) stdin).asked world =
        (interactive c k turns stdin).asked world := by
  induction turns generalizing k stdin with
  | zero =>
    rw [List.length_eq_zero_iff.mp (Nat.le_zero.mp h)]
    exact ⟨rfl, rfl⟩
  | succ turns ih =>
    cases hturn : menuTurn c stdin with
    | none =>
      rw [interactive_none hturn, interactive_none hturn]
      exact ⟨rfl, rfl⟩
    | some turn =>
      obtain ⟨hrun, hasked⟩ := ih (k := k + 1) (menuTurn_length hturn h)
      rw [interactive_some hturn, interactive_some hturn]
      simp only [Query.run_bind, Query.asked_bind, hrun, hasked]
      exact ⟨trivial, trivial⟩

theorem interactive_left (h : (interactive c k turns stdin).run world = none) :
    (interactive c k (turns + 1) stdin).run world = none := by
  induction turns generalizing k stdin with
  | zero => cases h
  | succ turns ih =>
    cases hturn : menuTurn c stdin with
    | none =>
      rw [interactive_none hturn]
      rfl
    | some turn =>
      rw [interactive_some hturn, Query.run_bind] at h ⊢
      exact ih h

theorem interactive_leaves (h : (interactive c k turns stdin).run world = none) :
    ∃ b ∈ stdin, leavesMenu b := by
  induction turns generalizing k stdin with
  | zero => cases h
  | succ turns ih =>
    cases hturn : menuTurn c stdin with
    | none => exact menuTurn_none hturn
    | some turn =>
      rw [interactive_some hturn, Query.run_bind] at h
      obtain ⟨b, hb, hleave⟩ := ih h
      exact ⟨b, (ask_suffix stdin).subset ((menuTurn_rest hturn).subset hb), hleave⟩

theorem interactive_le {n m : Nat} (hn : stdin.length ≤ n) (hm : n ≤ m) :
    (interactive c k m stdin).run world = (interactive c k n stdin).run world ∧
      (interactive c k m stdin).asked world = (interactive c k n stdin).asked world := by
  induction m, hm using Nat.le_induction with
  | base => exact ⟨rfl, rfl⟩
  | succ m hm ih =>
    exact ⟨(interactive_succ (hn.trans hm)).1.trans ih.1,
      (interactive_succ (hn.trans hm)).2.trans ih.2⟩

theorem interactive_left_le {n m : Nat} (hm : n ≤ m)
    (h : (interactive c k n stdin).run world = none) :
    (interactive c k m stdin).run world = none := by
  induction m, hm using Nat.le_induction with
  | base => exact h
  | succ m _ ih => exact interactive_left ih

def Startup.InMenu (start : Startup) : Prop :=
  start.opensslInit = none ∧ start.socketReady = true ∧
    ∃ c, parseArgs {} start.args = .ok c ∧ c.pos = []

theorem pos_clamp (lim : Option UInt64) (c : Config) :
    (clampThreadsToNofileLimit lim c).1.pos = c.pos := by
  unfold clampThreadsToNofileLimit
  cases lim with
  | none => rfl
  | some rlimCur =>
    dsimp only
    split_ifs <;> rfl

theorem mainImpl_menu {start : Startup} (h : start.InMenu) : ∃ c, ∀ turns,
    mainImpl start turns =
      (fun rest => if rest.isNone then some ⟨0, []⟩ else none) <$>
        interactive c 0 turns start.stdin := by
  obtain ⟨hssl, hready, c, hc, hpos⟩ := h
  refine ⟨(clampThreadsToNofileLimit start.nofile c).1, fun turns => ?_⟩
  have hclamp := (pos_clamp start.nofile c).trans hpos
  simp only [mainImpl, hssl, hready, hc, hclamp]
  rfl

theorem mainImpl_other {start : Startup} (h : ¬start.InMenu) : ∃ m : Process Exit, ∀ turns,
    mainImpl start turns = some <$> m := by
  unfold mainImpl
  cases hssl : start.opensslInit with
  | some err => exact ⟨pure _, fun _ => rfl⟩
  | none =>
    cases hready : start.socketReady with
    | false => exact ⟨pure _, fun _ => rfl⟩
    | true =>
      cases hc : parseArgs {} start.args with
      | error e => exact ⟨pure _, fun _ => rfl⟩
      | ok c =>
        cases hpos : (clampThreadsToNofileLimit start.nofile c).1.pos with
        | nil => exact absurd ⟨hssl, hready, c, hc, (pos_clamp _ _).symm.trans hpos⟩ h
        | cons cmd rest =>
          refine ⟨Ended.exit <$>
            (Asking.dispatch (clampThreadsToNofileLimit start.nofile c).1 cmd rest).mark 0,
            fun _ => ?_⟩
          simp only [hpos, Bool.not_true, Bool.false_eq_true, if_false, Functor.map_map]

end ByeByeVpn

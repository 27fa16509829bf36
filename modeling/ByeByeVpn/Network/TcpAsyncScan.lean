import ByeByeVpn.Lib.Ledger
import ByeByeVpn.Network.PortScan

/-!
# What the scanners have in common (`network/tcp_async_scan.cpp`)

The connect workers and the SYN scanner fill a `WorkerResult`. Each of them
classifies a port once and counts it with `mark_done`; `Books` says that the
counters, the ports in flight and the ports still to come are a ledger of the
requested ports.
-/

namespace ByeByeVpn

/-- A reading of the steady clock, in nanoseconds. -/
abbrev Time := Int

/-- `duration_cast<milliseconds>(now - started).count()`. -/
def elapsedMs (now started : Time) : Int := (now - started).tdiv 1000000

structure WorkerResult where
  «open» : List TcpOpen := []
  scanned : Nat := 0
  timeouts : Nat := 0
  refused : Nat := 0
  other : Nat := 0
  aborted : Bool := false
  deriving DecidableEq, Repr

inductive Verdict
  | opened | timedOut | refused | other
  deriving DecidableEq, Repr

instance : Fintype Verdict where
  elems := {.opened, .timedOut, .refused, .other}
  complete c := by cases c <;> decide

inductive Outcome
  | opened (o : TcpOpen)
  | timedOut
  | refused
  | other
  deriving DecidableEq, Repr

def Outcome.verdict : Outcome → Verdict
  | .opened _ => .opened
  | .timedOut => .timedOut
  | .refused => .refused
  | .other => .other

def Outcome.opens : Outcome → List TcpOpen
  | .opened o => [o]
  | _ => []

def Outcome.Fits (port : Int) : Outcome → Prop
  | .opened o => o.port = port
  | _ => True

namespace WorkerResult

/-- `out.open.push_back(o)`, `++out.timeouts`, `++out.refused` or `++out.other`. -/
def classify (out : WorkerResult) : Outcome → WorkerResult
  | .opened o => { out with «open» := out.open ++ [o] }
  | .timedOut => { out with timeouts := out.timeouts + 1 }
  | .refused => { out with refused := out.refused + 1 }
  | .other => { out with other := out.other + 1 }

def markDone (out : WorkerResult) : WorkerResult := { out with scanned := out.scanned + 1 }

/-- A sweep that finds `n` ports over time counts each of them. -/
def timeOut (out : WorkerResult) (n : Nat) : WorkerResult :=
  { out with timeouts := out.timeouts + n, scanned := out.scanned + n }

def failed (n : Nat) : WorkerResult := { scanned := n, other := n }

def tally (out : WorkerResult) : Verdict → Nat
  | .opened => out.open.length
  | .timedOut => out.timeouts
  | .refused => out.refused
  | .other => out.other

def openPorts (out : WorkerResult) : Multiset Int := (out.open.map TcpOpen.port : List Int)

theorem sum_tally (out : WorkerResult) :
    ∑ c, out.tally c = out.open.length + out.timeouts + out.refused + out.other := by
  rw [show (Finset.univ : Finset Verdict) = {.opened, .timedOut, .refused, .other} from rfl]
  simp [tally]
  omega

theorem tally_classify (out : WorkerResult) (oc : Outcome) (c : Verdict) :
    (out.classify oc).markDone.tally c = out.tally c + if c = oc.verdict then 1 else 0 := by
  cases oc <;> cases c <;> simp [classify, markDone, tally, Outcome.verdict]

@[simp] theorem aborted_classify (out : WorkerResult) (oc : Outcome) :
    (out.classify oc).markDone.aborted = out.aborted := by
  cases oc <;> rfl

theorem open_classify (out : WorkerResult) (oc : Outcome) :
    (out.classify oc).markDone.open = out.open ++ oc.opens := by
  cases oc <;> simp [classify, markDone, Outcome.opens]

theorem openPorts_classify (out : WorkerResult) (oc : Outcome) (hp : oc.Fits p) :
    (out.classify oc).markDone.openPorts =
      if oc.verdict = .opened then {p} + out.openPorts else out.openPorts := by
  cases oc with
  | opened o =>
    subst hp
    simp [classify, markDone, openPorts, Outcome.verdict]
  | _ => rfl

end WorkerResult

-- ---------------------------------------------------------------------------
-- The books of a scanner
-- ---------------------------------------------------------------------------

/-- A ledger shows what the result counts: the same open ports, and as many
items under each verdict. -/
structure Records (settled : Verdict → Multiset Int) (out : WorkerResult) : Prop where
  opened : settled .opened = out.openPorts
  tally : ∀ c, (settled c).card = out.tally c
  scanned : out.scanned = out.open.length + out.timeouts + out.refused + out.other

/-- The requested ports are those still `waiting`, those `inflight`, and
those the result has counted. -/
def Books (ports : List Int) (out : WorkerResult) (inflight : Multiset Int)
    (waiting : List Int) : Prop :=
  ∃ settled, Ledger.Kept ports ⟨waiting, inflight, settled⟩ ∧ Records settled out

theorem Records.classify {settled : Verdict → Multiset Int} (h : Records settled out)
    (oc : Outcome) (hp : oc.Fits p) :
    Records (Ledger.book settled oc.verdict {p}) (out.classify oc).markDone := by
  refine ⟨?_, ?_, ?_⟩
  · rw [WorkerResult.openPorts_classify out oc hp, ← h.opened]
    split
    · next ho => simp [ho]
    · next ho => exact Ledger.book_of_ne _ _ (Ne.symm ho)
  · intro c
    rw [WorkerResult.tally_classify, ← h.tally c]
    split
    · next hc =>
      subst hc
      simp [add_comm]
    · next hc => simp [Ledger.book_of_ne _ _ hc]
  · have hs := h.scanned
    cases oc <;> simp [WorkerResult.classify, WorkerResult.markDone] <;> omega

theorem Records.timeOut {settled : Verdict → Multiset Int} (h : Records settled out)
    (s : Multiset Int) : Records (Ledger.book settled .timedOut s) (out.timeOut s.card) := by
  refine ⟨?_, ?_, ?_⟩
  · rw [Ledger.book_of_ne _ _ (by decide)]
    exact h.opened
  · intro c
    have ht := h.tally c
    cases c with
    | timedOut =>
      rw [Ledger.book_self, Multiset.card_add, ht]
      exact add_comm ..
    | _ =>
      rw [Ledger.book_of_ne _ _ (by decide)]
      exact ht
  · have hs := h.scanned
    simp only [WorkerResult.timeOut]
    omega

namespace Books

variable {ports waiting : List Int} {out : WorkerResult} {inflight : Multiset Int} {p : Int}

theorem opening (ports : List Int) : Books ports {} 0 ports :=
  ⟨_, .opening, rfl, fun c => by cases c <;> rfl, rfl⟩

theorem launch (h : Books ports out inflight (p :: waiting)) :
    Books ports out (p ::ₘ inflight) waiting := by
  obtain ⟨s, hk, hr⟩ := h
  exact ⟨s, hk.move .launch, hr⟩

theorem reject (h : Books ports out inflight (p :: waiting)) (oc : Outcome) (hp : oc.Fits p) :
    Books ports (out.classify oc).markDone inflight waiting := by
  obtain ⟨s, hk, hr⟩ := h
  exact ⟨_, hk.move (.reject oc.verdict), hr.classify oc hp⟩

theorem settle (h : Books ports out (p ::ₘ inflight) waiting) (oc : Outcome) (hp : oc.Fits p) :
    Books ports (out.classify oc).markDone inflight waiting := by
  obtain ⟨s, hk, hr⟩ := h
  rw [← Multiset.singleton_add] at hk
  exact ⟨_, hk.move (.settle {p} oc.verdict), hr.classify oc hp⟩

theorem timeOut (s : Multiset Int) (h : Books ports out (s + inflight) waiting) :
    Books ports (out.timeOut s.card) inflight waiting := by
  obtain ⟨settled, hk, hr⟩ := h
  exact ⟨_, hk.move (.settle s .timedOut), hr.timeOut s⟩

theorem failed (ports : List Int) : Books ports (.failed ports.length) 0 [] := by
  have go : ∀ (w : List Int) (n : Nat),
      Books ports (.failed n) 0 w → Books ports (.failed (n + w.length)) 0 [] := by
    intro w
    induction w with
    | nil => exact fun _ h => h
    | cons p w ih =>
      intro n h
      have h' := ih (n + 1) (h.reject .other trivial)
      rwa [List.length_cons, add_comm w.length, ← add_assoc]
  simpa using go ports 0 (opening ports)

theorem scanned_eq (h : Books ports out inflight waiting) :
    out.scanned = out.open.length + out.timeouts + out.refused + out.other := by
  obtain ⟨_, _, hr⟩ := h
  exact hr.scanned

theorem scanned_add (h : Books ports out inflight waiting) :
    out.scanned + inflight.card + waiting.length = ports.length := by
  obtain ⟨s, hk, hr⟩ := h
  have hd : (∑ c, s c).card = out.scanned := by
    rw [Multiset.card_sum, hr.scanned, ← out.sum_tally]
    exact Finset.sum_congr rfl fun c _ => hr.tally c
  rw [← hd]
  have := hk.card
  simp only [Ledger.done] at this
  omega

theorem openPorts_le (h : Books ports out inflight waiting) :
    out.openPorts ≤ (ports : Multiset Int) := by
  obtain ⟨s, hk, hr⟩ := h
  rw [← hr.opened]
  exact hk.settled_le .opened

theorem setAborted (h : Books ports out inflight waiting) (b : Bool) :
    Books ports { out with aborted := b } inflight waiting := by
  obtain ⟨s, hk, hr⟩ := h
  exact ⟨s, hk, hr.opened, fun c => (hr.tally c).trans (by cases c <;> rfl), hr.scanned⟩

end Books

/-- A scanner is back; unless it was aborted, it has classified every port. -/
def Concluded (ports : List Int) (out : WorkerResult) : Prop :=
  ∃ inflight waiting, Books ports out inflight waiting ∧
    (out.aborted = false → inflight = 0 ∧ waiting = [])

theorem Concluded.failed (ports : List Int) : Concluded ports (.failed ports.length) :=
  ⟨_, _, .failed ports, fun _ => ⟨rfl, rfl⟩⟩

theorem Concluded.empty {ports : List Int} (h : ports.isEmpty) : Concluded ports {} :=
  ⟨_, _, .opening ports, fun _ => ⟨rfl, List.isEmpty_iff.mp h⟩⟩

/-- The list is rearranged in the order of the ports. `std::ranges::sort` is
not stable, so ports found twice may come in either order. -/
def SortedByPort (l sorted : List TcpOpen) : Prop :=
  sorted.Perm l ∧ sorted.Pairwise fun a b => a.port ≤ b.port

def finishScan (ports : List Int) (total : WorkerResult) : ScanStats where
  scanned := total.scanned
  timeouts := total.timeouts
  refused := total.refused
  other := total.other
  skipped := total.aborted || total.scanned < ports.length

/-- The requested ports are split up: the open ones, and as many as the
counters say that timed out, were refused, or failed in another way. -/
def Classified (ports : Multiset Int) (out : WorkerResult) : Prop :=
  ∃ timeouts refused other : Multiset Int,
    timeouts.card = out.timeouts ∧ refused.card = out.refused ∧ other.card = out.other ∧
      ports = out.openPorts + timeouts + refused + other

theorem Books.classified {ports : List Int} (h : Books ports out 0 []) :
    Classified (ports : Multiset Int) out := by
  obtain ⟨s, hk, hr⟩ := h
  refine ⟨_, _, _, hr.tally .timedOut, hr.tally .refused, hr.tally .other, ?_⟩
  rw [← hk.total, Ledger.total, Ledger.done, ← hr.opened,
    show (Finset.univ : Finset Verdict) = {.opened, .timedOut, .refused, .other} from rfl]
  simp [add_assoc]

end ByeByeVpn

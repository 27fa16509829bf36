import ByeByeVpn.Network.AddressChoice
import ByeByeVpn.Network.ConnectScan
import ByeByeVpn.Network.SynScan

/-!
# The report of a port scan (`scan_tcp_async`)

A scan is a SYN scan or a connect scan, and a SYN scan that cannot be set up
goes on as a connect scan. Whichever of them answers, and even when neither
does, the caller gets one account of the ports it asked for.
-/

namespace ByeByeVpn

open Runs

structure ScanCall where
  ports : List Int
  threads : Int
  timeoutMs : Int
  /-- `g_tcp_syn_scan` -/
  syn : Bool
  getaddrinfo : GetAddrInfo
  hw : Nat

namespace ScanCall

def synConfig (k : ScanCall) (src dst : UInt32) : SynScan.Config where
  ports := k.ports
  timeoutMs := k.timeoutMs
  maxInflight := .clamp k.threads
  src := src
  dst := dst

def connectConfig (k : ScanCall) : ConnectPool.Config where
  ports := k.ports
  threads := k.threads
  timeoutMs := k.timeoutMs
  hw := k.hw

/-- The connect scan is up: no SYN scan is asked for, or it has fallen back. -/
def Connects (k : ScanCall) : Prop :=
  k.syn = true → ∃ src dst s, Reachable (SynScan.Scan.step (k.synConfig src dst)) {} s ∧
    s.point = .fallback

/-- What `scan_tcp_async` may come to. -/
inductive Yields (k : ScanCall) : List TcpOpen → ScanStats → Prop
  | noPorts (h : k.ports = []) : Yields k [] {}
  | syn {src dst : UInt32} {s : SynScan.Scan} {opens : List TcpOpen} {stats : ScanStats}
      (ports : k.ports ≠ []) (asked : k.syn = true)
      (run : Reachable (SynScan.Scan.step (k.synConfig src dst)) {} s)
      (returns : SynScan.Returns (k.synConfig src dst) s opens stats) : Yields k opens stats
  | unresolved (ports : k.ports ≠ []) (connects : k.Connects)
      (target : resolveScanTarget k.getaddrinfo = none) :
      Yields k [] { other := k.ports.length }
  | connect {now : Time} {s : ConnectPool.Pool k.connectConfig.workers} {opens : List TcpOpen}
      {stats : ScanStats} (ports : k.ports ≠ []) (connects : k.Connects)
      (target : (resolveScanTarget k.getaddrinfo).isSome)
      (run : Reachable (ConnectPool.step k.connectConfig) (ConnectPool.start k.connectConfig now) s)
      (returns : ConnectPool.Returns k.connectConfig s opens stats) : Yields k opens stats

end ScanCall

def verdicts (opens : List TcpOpen) (stats : ScanStats) : Nat :=
  opens.length + stats.timeouts + stats.refused + stats.other

structure Accounts (ports : List Int) (opens : List TcpOpen) (stats : ScanStats) : Prop where
  sorted : opens.Pairwise fun a b => a.port ≤ b.port
  requested : (opens.map TcpOpen.port : Multiset Int) ≤ ports
  le : verdicts opens stats ≤ ports.length
  complete : stats.skipped = false → ∃ timeouts refused other : Multiset Int,
    timeouts.card = stats.timeouts ∧ refused.card = stats.refused ∧ other.card = stats.other ∧
      (ports : Multiset Int) = opens.map TcpOpen.port + timeouts + refused + other

theorem Covers.accounts {ports : List Int} {total : WorkerResult} {opens : List TcpOpen}
    (h : Covers ports total) (hsorted : SortedByPort total.open opens)
    (hclassified : total.aborted = false → Classified ports total) :
    Accounts ports opens (finishScan ports total) ∧
      (finishScan ports total).scanned = verdicts opens (finishScan ports total) := by
  have hopen : (opens.map TcpOpen.port : Multiset Int) = total.openPorts :=
    Multiset.coe_eq_coe.mpr (hsorted.1.map _)
  have hscanned : total.scanned = verdicts opens (finishScan ports total) := by
    rw [h.scanned_eq, verdicts, hsorted.1.length_eq]
    rfl
  have hle : total.scanned ≤ ports.length := h.scanned_le
  refine ⟨⟨hsorted.2, hopen ▸ h.openPorts, hscanned ▸ hle, fun hskip => ?_⟩, hscanned⟩
  rw [hopen]
  exact hclassified (Bool.or_eq_false_iff.mp hskip).1

theorem SynScan.Returns.accounts {c : SynScan.Config} {s : SynScan.Scan} {opens : List TcpOpen}
    {stats : ScanStats} (h : SynScan.Returns c s opens stats)
    (run : Reachable (SynScan.Scan.step c) {} s) :
    Accounts c.ports opens stats ∧ stats.scanned = verdicts opens stats := by
  obtain ⟨hreturned, hsorted, rfl⟩ := h
  have hinv := SynScan.Scan.reachable_inv run
  simp only [SynScan.Scan.Inv, hreturned] at hinv
  obtain ⟨inflight, waiting, hbooks, hdone⟩ := hinv
  refine hbooks.covers.accounts hsorted fun hna => ?_
  obtain ⟨rfl, rfl⟩ := hdone hna
  exact hbooks.classified

theorem ConnectPool.Returns.accounts {c : ConnectPool.Config} {now : Time}
    {s : ConnectPool.Pool c.workers} {opens : List TcpOpen} {stats : ScanStats}
    (h : ConnectPool.Returns c s opens stats)
    (run : Reachable (ConnectPool.step c) (ConnectPool.start c now) s) :
    Accounts c.ports opens stats ∧ stats.scanned = verdicts opens stats := by
  obtain ⟨hreturned, hsorted, rfl⟩ := h
  have hinv := ConnectPool.reachable_inv run
  refine (hinv.covers hreturned).accounts hsorted fun hna => hinv.classified hreturned fun i => ?_
  by_contra haborted
  rw [(hinv.aborted hreturned).mpr ⟨i, Bool.eq_true_of_not_eq_false haborted⟩] at hna
  cases hna

/-- Whichever scan makes it, the report is sorted, names requested ports only,
and never counts one twice; and unless it says that the scan was skipped, it
has a verdict on each of them. It has scanned as many ports as it has verdicts
on, except for a target that is not resolved: nothing is scanned then, and each
port is counted under `other`. -/
theorem scanReport_accounts (k : ScanCall) (opens : List TcpOpen) (stats : ScanStats)
    (h : k.Yields opens stats) :
    Accounts k.ports opens stats ∧
    (stats.scanned = verdicts opens stats ∨
      resolveScanTarget k.getaddrinfo = none ∧ opens = [] ∧
        stats = { other := k.ports.length }) := by
  cases h with
  | noPorts ports =>
    refine ⟨⟨.nil, bot_le, Nat.zero_le _, fun _ => ⟨0, 0, 0, rfl, rfl, rfl, ?_⟩⟩, .inl rfl⟩
    rw [ports]
    rfl
  | syn _ _ run returns =>
    obtain ⟨haccounts, hscanned⟩ := returns.accounts run
    exact ⟨haccounts, .inl hscanned⟩
  | unresolved _ _ target =>
    refine ⟨⟨.nil, bot_le, ?_, fun _ => ⟨0, 0, k.ports, rfl, rfl, rfl, ?_⟩⟩,
      .inr ⟨target, rfl, rfl⟩⟩
    · exact (Nat.zero_add _).le
    · simp
  | connect _ _ _ run returns =>
    obtain ⟨haccounts, hscanned⟩ := returns.accounts run
    exact ⟨haccounts, .inl hscanned⟩

def ScanCall.sample : ScanCall where
  ports := [443, 80]
  threads := 64
  timeoutMs := 1000
  syn := false
  getaddrinfo := .ok [⟨.inet, [192, 0, 2, 1]⟩]
  hw := 4

theorem scanReport_accounts_sample :
    Accounts [443, 80] [{ port := 443, connectMs := 9 }] { scanned := 2, refused := 1 } := by
  obtain ⟨s, hs⟩ := Option.isSome_iff_exists.mp
    (show (exec (ConnectPool.step ConnectPool.sample) (ConnectPool.start ConnectPool.sample 0)
      ConnectPool.sampleRun).isSome by decide)
  have hend : (exec (ConnectPool.step ConnectPool.sample) (ConnectPool.start ConnectPool.sample 0)
      ConnectPool.sampleRun).map (fun s => (s.point, s.total)) = some (.returned,
        { «open» := [{ port := 443, connectMs := 9 }], scanned := 2, refused := 1 }) := by decide
  simp only [hs, Option.map_some, Option.some.injEq, Prod.mk.injEq] at hend
  refine (scanReport_accounts .sample _ _ (.connect (by decide) (fun h => absurd h (by decide)) rfl
    (reachable_of_exec hs) ⟨hend.1, ?_, ?_⟩)).1
  · rw [hend.2]
    exact ⟨.refl _, by simp⟩
  · rw [hend.2]
    rfl

end ByeByeVpn

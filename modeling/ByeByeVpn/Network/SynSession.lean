import ByeByeVpn.Lib.Descriptors
import ByeByeVpn.Lib.Session
import ByeByeVpn.Network.AddressChoice
import ByeByeVpn.Network.TcpAsyncScan

/-!
# The descriptors of the SYN scan (`network/tcp_async_scan.cpp`)

`scan_syn_half_open_linux` opens a raw socket to send on, one to receive from,
and an epoll instance, and closes them by hand on every way out. A step that
fails makes the caller fall back to the connect scan. The loop itself is data
here: the descriptors that it uses, in order, and its result.
-/

namespace ByeByeVpn

open Descriptors Session

inductive SynUse
  | send
  | recv
  | wait

structure SynNet where
  geteuid : Int
  getaddrinfo : GetAddrInfo
  udpFd : Fd
  udpConnect : Int
  /-- The local address. -/
  getsockname : Option Bytes
  sendFd : Fd
  setHdrincl : Int
  recvFd : Fd
  epfd : Fd
  uses : List SynUse
  out : WorkerResult
  /-- The system gives no descriptor twice. -/
  recv_ne : recvFd ≠ INVALID_SOCKET → recvFd ≠ sendFd
  epoll_ne : 0 ≤ epfd → epfd ≠ sendFd ∧ epfd ≠ recvFd

abbrev FdCall := Descriptors.Call Fd Unit

def resolveIpv4Target : GetAddrInfo → Option AddrInfo
  | .error _ => none
  | .ok ai => ai.find? fun p => p.family == .inet

def fallingBack (reason : String) : Bytes :=
  ascii "  syn-scan " ++ ascii reason ++ ascii "; falling back to connect scan\n"

namespace SynNet

variable (net : SynNet)

def resolveSourceIpv4 : Session FdCall (Option Bytes) :=
  if net.udpFd = INVALID_SOCKET then return none
  else within (.opened net.udpFd ()) (.closed net.udpFd) do
    call (.used net.udpFd)
    if net.udpConnect ≠ 0 then return none
    else do
      call (.used net.udpFd)
      return net.getsockname

def fdOf : SynUse → Fd
  | .send => net.sendFd
  | .recv => net.recvFd
  | .wait => net.epfd

def loop : List SynUse → Session FdCall Unit
  | [] => return ()
  | use :: uses => do
    call (.used (net.fdOf use))
    loop uses

/-- From the raw socket on. -/
def scanRaw : Session FdCall (Except Bytes WorkerResult) :=
  if net.sendFd = INVALID_SOCKET then return .error (fallingBack "raw send socket failed")
  else do
    call (.opened net.sendFd ())
    call (.used net.sendFd)
    if net.setHdrincl ≠ 0 then do
      call (.closed net.sendFd)
      return .error (fallingBack "IP_HDRINCL setup failed")
    else if net.recvFd = INVALID_SOCKET then do
      call (.closed net.sendFd)
      return .error (fallingBack "raw receive socket failed")
    else do
      call (.opened net.recvFd ())
      call (.used net.recvFd)
      if net.epfd < 0 then do
        call (.closed net.recvFd)
        call (.closed net.sendFd)
        return .error (fallingBack "epoll setup failed")
      else do
        call (.opened net.epfd ())
        call (.used net.epfd)
        net.loop net.uses
        call (.closed net.recvFd)
        call (.closed net.sendFd)
        call (.closed net.epfd)
        return .ok net.out

/-- `scan_syn_half_open_linux`, with the message of a fallback. -/
def scan (ports : List Int) : Session FdCall (Except Bytes WorkerResult) :=
  if ports.isEmpty then return .ok {}
  else if net.geteuid ≠ 0 then return .error (fallingBack "requires root privileges")
  else
    match resolveIpv4Target net.getaddrinfo with
    | none => return .error (fallingBack "supports IPv4 targets only")
    | some _ => do
      match ← net.resolveSourceIpv4 with
      | none => return .error (fallingBack "could not resolve source address")
      | some _ => net.scanRaw

structure Ready : Prop where
  root : net.geteuid = 0
  target : (resolveIpv4Target net.getaddrinfo).isSome
  source : net.udpFd ≠ INVALID_SOCKET ∧ net.udpConnect = 0 ∧ net.getsockname.isSome
  send : net.sendFd ≠ INVALID_SOCKET ∧ net.setHdrincl = 0
  recv : net.recvFd ≠ INVALID_SOCKET
  epoll : 0 ≤ net.epfd

end SynNet

namespace SynNet

variable {net : SynNet}

/-- What a scan comes to: a result if all that is needed is there, or else the
message of a fallback. -/
structure Came (net : SynNet) (r : Except Bytes WorkerResult) : Prop where
  ready : net.Ready → r = .ok net.out
  fallback : ¬net.Ready → ∃ reason, r = .error (fallingBack reason)

theorem came_of_not_ready (h : ¬net.Ready) (reason : String) :
    net.Came (.error (fallingBack reason)) :=
  ⟨fun hready => absurd hready h, fun _ => ⟨reason, rfl⟩⟩

theorem resolveSourceIpv4_leads :
    Leads Descriptors.step empty net.resolveSourceIpv4 fun r t => t = empty ∧
      (r.isSome → net.udpFd ≠ INVALID_SOCKET ∧ net.udpConnect = 0 ∧ net.getsockname.isSome) ∧
      (r = none → ¬net.Ready) := by
  have hfail (h : ¬net.Ready) : (none : Option Bytes).isSome → net.udpFd ≠ INVALID_SOCKET ∧
      net.udpConnect = 0 ∧ net.getsockname.isSome := nofun
  refine .ite (fun hfd => .pure ⟨rfl, nofun, fun _ h => h.source.1 hfd⟩) fun hfd => ?_
  have hclosed : Descriptors.step (only net.udpFd ()) (.closed net.udpFd) = some empty :=
    step_closed_opened rfl
  have hused : Descriptors.step (only net.udpFd ()) (.used net.udpFd) = some (only net.udpFd ()) :=
    step_used (Function.update_self ..)
  refine .within (t := only net.udpFd ()) rfl (.seq hused ?_)
  refine .ite (fun hconnect => .pure ⟨_, hclosed, rfl, nofun, fun _ h => hconnect h.source.2.1⟩)
    fun hconnect => .seq hused (.pure ⟨_, hclosed, rfl, fun hsome => ?_, fun hnone h => ?_⟩)
  · exact ⟨hfd, of_not_not hconnect, hsome⟩
  · have hsome := h.source.2.2
    rw [hnone] at hsome
    cases hsome

theorem loop_leads {t : Table Fd Unit} (h : ∀ use, t (net.fdOf use) = some ())
    (uses : List SynUse) :
    Leads Descriptors.step t (net.loop uses) fun _ u => u = t := by
  induction uses with
  | nil => exact .pure rfl
  | cons use uses ih => exact .seq (step_used (h use)) ih

theorem scanRaw_leads (hroot : net.geteuid = 0)
    (htarget : (resolveIpv4Target net.getaddrinfo).isSome)
    (hsource : net.udpFd ≠ INVALID_SOCKET ∧ net.udpConnect = 0 ∧ net.getsockname.isSome) :
    Leads Descriptors.step empty net.scanRaw fun r t => t = empty ∧ net.Came r := by
  have hclosed : Descriptors.step (only net.sendFd ()) (.closed net.sendFd) = some empty :=
    step_closed_opened rfl
  have hused : Descriptors.step (only net.sendFd ()) (.used net.sendFd) =
      some (only net.sendFd ()) := step_used (Function.update_self ..)
  refine .ite (fun h => .pure ⟨rfl, came_of_not_ready (fun hr => hr.send.1 h) _⟩) fun hsend => ?_
  refine .seq (t := only net.sendFd ()) rfl (.seq hused ?_)
  refine .ite (fun h => .seq hclosed (.pure ⟨rfl, came_of_not_ready (fun hr => h hr.send.2) _⟩))
    fun hhdrincl => ?_
  refine .ite (fun h => .seq hclosed (.pure ⟨rfl, came_of_not_ready (fun hr => hr.recv h) _⟩))
    fun hrecv => ?_
  have hfree : only net.sendFd () net.recvFd = none :=
    Function.update_of_ne (net.recv_ne hrecv) _ _
  refine .seq (step_opened hfree) (.seq (step_used (Function.update_self ..)) ?_)
  refine .ite (fun h => ?_) fun hepfd => ?_
  · refine .seq (step_closed_opened hfree) (.seq hclosed (.pure ⟨rfl, ?_⟩))
    exact came_of_not_ready (fun hr => Int.not_le.mpr h hr.epoll) _
  obtain ⟨hes, her⟩ := net.epoll_ne (Int.not_lt.mp hepfd)
  have hrs := net.recv_ne hrecv
  have hopen (k : Fd) : Function.update (Function.update (only net.sendFd ()) net.recvFd (some ()))
      net.epfd (some ()) k =
        if k = net.epfd ∨ k = net.recvFd ∨ k = net.sendFd then some () else none := by
    simp only [only, Function.update_apply, empty]
    grind
  have hfreeEp : Function.update (only net.sendFd ()) net.recvFd (some ()) net.epfd = none := by
    rw [Function.update_of_ne her]
    exact Function.update_of_ne hes _ _
  refine .seq (step_opened hfreeEp) (.seq (step_used (Function.update_self ..)) ?_)
  refine (loop_leads (fun use => ?_) net.uses).bind ?_
  · rw [hopen]
    cases use <;> simp [fdOf]
  rintro _ _ rfl
  refine .seq (step_closed (m := ()) ?_) (.seq (step_closed (m := ()) ?_)
    (.seq (step_closed (m := ()) ?_) (.pure ⟨funext fun k => ?_, fun _ => rfl, fun h => ?_⟩)))
  · rw [hopen]
    simp
  · rw [Function.update_of_ne hrs.symm, hopen]
    simp
  · rw [Function.update_of_ne hes, Function.update_of_ne her, hopen]
    simp
  · rw [Function.update_apply, Function.update_apply, Function.update_apply, hopen]
    change _ = (none : Option Unit)
    grind
  · exact absurd ⟨hroot, htarget, hsource, ⟨hsend, of_not_not hhdrincl⟩, hrecv,
      Int.not_lt.mp hepfd⟩ h

end SynNet

def rootNet : SynNet where
  geteuid := 0
  getaddrinfo := .ok [{ family := .inet, addr := [192, 0, 2, 7] }]
  udpFd := 3
  udpConnect := 0
  getsockname := some [192, 0, 2, 1]
  sendFd := 3
  setHdrincl := 0
  recvFd := 4
  epfd := 5
  uses := [.send, .send, .wait, .recv, .recv]
  out := { refused := 2, scanned := 2 }
  recv_ne _ := by decide
  epoll_ne _ := by decide

end ByeByeVpn

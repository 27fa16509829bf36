import ByeByeVpn.Lib.Descriptors
import ByeByeVpn.Network.ConnectScan

/-!
# The descriptors of the connect scan (`network/tcp_async_scan.cpp`)

The workers of the pool share the descriptors of the process. Each closes
what it has opened through its guards: the socket that is being launched, the
sockets in flight, and the epoll instance.
-/

namespace ByeByeVpn

open Descriptors (Table)

namespace Epoll

def Point.InLoop : Point → Prop
  | .entry | .create | .returned | .connect _ _ | .ctlAdd _ _ => False
  | _ => True

namespace Worker

def expiredSockets (cfg : Config) (w : Worker) (now : Time) : List Fd :=
  AList.keys (w.active.eraseIf fun _ c => !expired cfg now c)

/-- The calls for an event, up to the erasure of its entry. Open descriptors
are blocking or not. -/
def settleUses (w : Worker) (se : Int) (s : Fd) : List (Descriptors.Call Fd Bool) :=
  [.used s, .used w.epfd, .used s] ++ (if se = 0 then [.set s true] else []) ++ [.closed s]

def expireUses (w : Worker) (s : Fd) : List (Descriptors.Call Fd Bool) :=
  [.used w.epfd, .used s, .closed s]

/-- The calls of one step that name a descriptor. A socket is taken to change its
mode whenever it is told to. -/
def uses (cfg : Config) (w : Worker) (a : Act) : List (Descriptors.Call Fd Bool) :=
  match w.point, a with
  | .create, .epollCreate fd => if fd < 0 then [] else [.opened fd true]
  | .launch, .socket s _ => if s = INVALID_SOCKET then [] else [.opened s true, .set s false]
  | .connect s _, .connected _ => [.used s, .set s true, .closed s]
  | .connect s _, .connectFailed err =>
    if isConnectInProgressError err then [.used s] else [.used s, .closed s]
  | .ctlAdd s _, .epollCtl rc =>
    [.used w.epfd, .used s] ++ if rc ≠ 0 then [.closed s] else []
  | .wait, .epollWait _ _ => [.used w.epfd]
  | .event (s :: _) _, .soError se => w.settleUses se s
  | .sweep now, .tick => (w.expiredSockets cfg now).flatMap w.expireUses
  | .exit, .tick => (AList.keys w.active).flatMap (fun s => [.closed s]) ++ [.closed w.epfd]
  | _, _ => []

/-- The descriptors that are open besides those of the sockets in flight. -/
def guards (w : Worker) : Table Fd Bool :=
  match w.point with
  | .entry | .create | .returned => Descriptors.empty
  | .connect s _ | .ctlAdd s _ => Function.update (Descriptors.only w.epfd true) s (some false)
  | _ => Descriptors.only w.epfd true

def table (w : Worker) : Table Fd Bool :=
  fun fd => if fd ∈ w.active then some false else w.guards fd

/-- The descriptors of the worker do not overlap, and nothing is in flight
before the loop and after it. -/
def Owns (w : Worker) : Prop :=
  match w.point with
  | .entry | .create | .returned => w.active = ∅
  | .connect s _ | .ctlAdd s _ => w.epfd ∉ w.active ∧ s ∉ w.active ∧ s ≠ w.epfd
  | _ => w.epfd ∉ w.active

variable {cfg : Config} {stop : Bool} {w w' : Worker} {a : Act} {fd s : Fd}

theorem holds_iff : w.holds fd = true ↔ (w.table fd).isSome := by
  unfold holds table guards
  by_cases hfd : fd ∈ w.active
  · simp [hfd]
  · cases w.point <;>
      simp [hfd, Descriptors.empty, Descriptors.only, Function.update_apply] <;> grind

theorem table_active (h : s ∈ w.active) : w.table s = some false := if_pos h

theorem table_of_notMem (h : s ∉ w.active) : w.table s = w.guards s := if_neg h

theorem table_of_empty {t : Table Fd Bool} (h : w.active = ∅) (hg : w.guards = t) : w.table = t :=
  funext fun fd => (table_of_notMem (h ▸ AList.notMem_empty fd)).trans (congrFun hg fd)

theorem guards_eq_table {t : Table Fd Bool} (h : w.active = ∅) (hg : w.guards = t) :
    t = w.table :=
  (table_of_empty h hg).symm

-- ---------------------------------------------------------------------------
-- What a step does to the table
-- ---------------------------------------------------------------------------

theorem table_congr (ha : w'.active = w.active) (hg : w'.guards = w.guards) :
    w'.table = w.table := by
  unfold table
  rw [ha, hg]

/-- The loop holds the epoll instance, and the map the sockets in flight. -/
structure Looping (w : Worker) : Prop where
  epfd : w.epfd ∉ w.active
  guards : w.guards = Descriptors.only w.epfd true

theorem looping_of_owns (h : Owns w) (hp : w.point.InLoop) : Looping w := by
  have hguards : w.guards = Descriptors.only w.epfd true := by
    unfold Worker.guards
    cases hw : w.point <;> simp_all [Point.InLoop]
  refine ⟨?_, hguards⟩
  unfold Owns at h
  cases hw : w.point <;> simp_all [Point.InLoop]

theorem Looping.table_epfd (h : Looping w) : w.table w.epfd = some true := by
  rw [table_of_notMem h.epfd, h.guards]
  exact Function.update_self ..

/-- The guard of `launch_connect` holds the socket `s`. -/
structure Guarded (w : Worker) (s : Fd) : Prop where
  epfd : w.epfd ∉ w.active
  notMem : s ∉ w.active
  ne : s ≠ w.epfd
  guards : w.guards = Function.update (Descriptors.only w.epfd true) s (some false)

theorem guarded_of_owns (h : Owns w)
    (hp : w.point = .connect s started ∨ w.point = .ctlAdd s started) : Guarded w s := by
  unfold Owns at h
  rcases hp with hp | hp
  all_goals
    rw [hp] at h
    exact ⟨h.1, h.2.1, h.2.2, by unfold Worker.guards; rw [hp]⟩

theorem Guarded.table (h : Guarded w s) : w.table s = some false := by
  rw [table_of_notMem h.notMem, h.guards, Function.update_self]

theorem Guarded.table_epfd (h : Guarded w s) : w.table w.epfd = some true := by
  rw [table_of_notMem h.epfd, h.guards, Function.update_of_ne h.ne.symm]
  exact Function.update_self ..

theorem Looping.table_launch (h : Looping w) (hs : s ∉ w.active) (ha : w'.active = w.active)
    (hg' : w'.guards = Function.update (Descriptors.only w.epfd true) s (some false)) :
    Function.update w.table s (some false) = w'.table := by
  funext fd
  unfold Worker.table
  rw [ha, h.guards, hg']
  by_cases hfd : fd = s
  · subst hfd
    simp [hs]
  · simp [Function.update_of_ne hfd]

/-- The socket that was opened last is closed by its guard. -/
theorem Guarded.table_reject (h : Guarded w s) (oc : Outcome) :
    Function.update w.table s none = (w.reject oc).table := by
  have hactive : (w.reject oc).active = w.active := rfl
  have hguards : (w.reject oc).guards = Descriptors.only w.epfd true := rfl
  funext fd
  unfold Worker.table
  rw [hactive, hguards, h.guards]
  by_cases hfd : fd = s
  · subst hfd
    simp [h.notMem, Descriptors.only, Function.update_of_ne h.ne, Descriptors.empty]
  · simp [Function.update_of_ne hfd]

theorem Guarded.table_emplace (h : Guarded w s) (ha : w'.active = w.active.emplace s c)
    (hg' : w'.guards = Descriptors.only w.epfd true) : w.table = w'.table := by
  funext fd
  unfold Worker.table
  rw [ha, h.guards, hg']
  by_cases hfd : fd = s
  · subst hfd
    simp [h.notMem, KeyMap.mem_emplace]
  · simp [KeyMap.mem_emplace, hfd]

theorem Looping.table_erase {closed : Fd → Prop} [DecidablePred closed] (h : Looping w)
    (hclosed : ∀ fd, closed fd → fd ∈ w.active)
    (ha : ∀ fd, fd ∈ w'.active ↔ fd ∈ w.active ∧ ¬closed fd) (hg' : w'.guards = w.guards) :
    (fun fd => if closed fd then none else w.table fd) = w'.table := by
  funext fd
  unfold Worker.table
  rw [hg', h.guards]
  by_cases hfd : closed fd
  · have hne : fd ≠ w.epfd := ne_of_mem_of_not_mem (hclosed fd hfd) h.epfd
    simp [hfd, ha, Descriptors.only, Function.update_of_ne hne, Descriptors.empty]
  · simp [hfd, ha]

-- ---------------------------------------------------------------------------
-- Every step keeps to the table
-- ---------------------------------------------------------------------------

open Descriptors (run_append run_cons step_opened step_set step_used step_closed)

/-- The step leads from the table of the worker to that of `w'`. -/
structure Keeps (cfg : Config) (w : Worker) (a : Act) (w' : Worker) : Prop where
  owns : Owns w'
  run : Descriptors.run w.table (w.uses cfg a) = some w'.table

/-- A step that names no descriptor. -/
theorem Keeps.quiet (howns : Owns w') (hu : w.uses cfg a = []) (ha : w'.active = w.active)
    (hg : w'.guards = w.guards) : Keeps cfg w a w' :=
  ⟨howns, by rw [hu, table_congr ha hg]; rfl⟩

theorem keeps_create (hp : w.point = .create) (h : w.active = ∅) (hfd : ¬fd < 0) :
    Keeps cfg w (.epollCreate fd) { w with point := .outerHead, epfd := fd } := by
  have hg : w.guards = Descriptors.empty := by unfold guards; rw [hp]
  refine ⟨h ▸ AList.notMem_empty fd, ?_⟩
  unfold uses
  simp only [hp, if_neg hfd]
  rw [table_of_empty h hg, Descriptors.run_opened]
  exact congrArg some (guards_eq_table h rfl)

theorem keeps_socket (hp : w.point = .launch) (h : Looping w)
    (hf : w.fresh (.socket s started)) (hs : s ≠ INVALID_SOCKET) :
    Keeps cfg w (.socket s started) { w with point := .connect s started } := by
  obtain ⟨hm, hse⟩ : s ∉ w.active ∧ s ≠ w.epfd := by simpa [fresh, holds, hp, hs] using hf
  have hfree : w.table s = none := by
    rw [table_of_notMem hm, h.guards]
    exact Function.update_of_ne hse _ _
  refine ⟨⟨h.epfd, hm, hse⟩, ?_⟩
  unfold uses
  simp only [hp, if_neg hs]
  rw [run_cons (step_opened hfree), run_cons (step_set (Function.update_self ..)),
    Function.update_idem]
  exact congrArg some (h.table_launch hm rfl rfl)

theorem keeps_connected (hp : w.point = .connect s started) (h : Guarded w s) :
    Keeps cfg w (.connected now) (w.reject oc) := by
  refine ⟨h.epfd, ?_⟩
  unfold uses
  simp only [hp]
  rw [run_cons (step_used h.table), run_cons (step_set h.table),
    run_cons (step_closed (Function.update_self ..)), Function.update_idem]
  exact congrArg some (h.table_reject oc)

theorem keeps_inProgress (hp : w.point = .connect s started) (h : Guarded w s)
    (herr : isConnectInProgressError err) :
    Keeps cfg w (.connectFailed err) { w with point := .ctlAdd s started } := by
  refine ⟨⟨h.epfd, h.notMem, h.ne⟩, ?_⟩
  unfold uses
  simp only [hp, if_pos herr]
  rw [run_cons (step_used h.table)]
  exact congrArg some (table_congr rfl h.guards)

theorem keeps_connectFailed (hp : w.point = .connect s started) (h : Guarded w s)
    (herr : ¬isConnectInProgressError err) :
    Keeps cfg w (.connectFailed err) (w.reject oc) := by
  refine ⟨h.epfd, ?_⟩
  unfold uses
  simp only [hp, if_neg herr]
  rw [run_cons (step_used h.table), run_cons (step_closed h.table)]
  exact congrArg some (h.table_reject oc)

theorem keeps_ctlAddFailed (hp : w.point = .ctlAdd s started) (h : Guarded w s) (hrc : rc ≠ 0) :
    Keeps cfg w (.epollCtl rc) (w.reject oc) := by
  refine ⟨h.epfd, ?_⟩
  unfold uses
  simp only [hp, if_pos hrc, List.cons_append, List.nil_append]
  rw [run_cons (step_used h.table_epfd), run_cons (step_used h.table),
    run_cons (step_closed h.table)]
  exact congrArg some (h.table_reject oc)

theorem keeps_ctlAdd (hp : w.point = .ctlAdd s started) (h : Guarded w s) :
    Keeps cfg w (.epollCtl 0) { w with
      point := .innerHead, active := w.active.emplace s c, nextIdx := w.nextIdx + 1 } := by
  refine ⟨fun hm => ?_, ?_⟩
  · rcases KeyMap.mem_emplace.mp hm with he | hm
    · exact h.ne he.symm
    · exact h.epfd hm
  · unfold uses
    simp only [hp, ne_eq, not_true_eq_false, if_false, List.append_nil]
    rw [run_cons (step_used h.table_epfd), run_cons (step_used h.table)]
    exact congrArg some (h.table_emplace rfl rfl)

theorem keeps_wait (hp : w.point = .wait) (h : Looping w) :
    Keeps cfg w (.epollWait events now) { w with point := .event events now } := by
  refine ⟨h.epfd, ?_⟩
  unfold uses
  simp only [hp]
  rw [run_cons (step_used h.table_epfd)]
  exact congrArg some (table_congr rfl h.guards)

theorem Looping.run_closes {calls : Fd → List (Descriptors.Call Fd Bool)} {keys : List Fd}
    (h : Looping w) (hnodup : keys.Nodup) (hkeys : ∀ s ∈ keys, s ∈ w.active)
    (hcalls : ∀ (u : Table Fd Bool) (s : Fd) (m : Bool), u w.epfd = some true → u s = some m →
      Descriptors.run u (calls s) = some (Function.update u s none))
    (ha : ∀ fd, fd ∈ w'.active ↔ fd ∈ w.active ∧ fd ∉ keys) (hg' : w'.guards = w.guards) :
    Descriptors.run w.table (keys.flatMap calls) = some w'.table := by
  rw [Descriptors.run_closeAll (fun u => u w.epfd = some true) hnodup (fun s hs => ?_)
    h.table_epfd fun u s hs hu hopen => ⟨?_, ?_⟩]
  · exact congrArg some (h.table_erase hkeys ha hg')
  · rw [table_active (hkeys s hs)]
    rfl
  · obtain ⟨m, hm⟩ := Option.isSome_iff_exists.mp hopen
    exact hcalls u s m hu hm
  · rwa [Function.update_of_ne (ne_of_mem_of_not_mem (hkeys s hs) h.epfd).symm]

theorem keeps_event (hp : w.point = .event (s :: rest) now) (h : Looping w)
    (hm : s ∈ w.active) : Keeps cfg w (.soError se) (w.settle s oc rest now) := by
  refine ⟨fun hm => h.epfd (KeyMap.mem_erase.mp hm).2, ?_⟩
  unfold uses
  simp only [hp]
  rw [← List.flatMap_singleton (w.settleUses se) s]
  refine h.run_closes (List.nodup_singleton s) ?_ (fun u s m hepfd hs => ?_) (fun fd => ?_)
    h.guards.symm
  · rintro _ hs
    rwa [List.mem_singleton.mp hs]
  · unfold settleUses
    split_ifs
    all_goals
      simp only [List.cons_append, List.nil_append]
      rw [run_cons (step_used hs), run_cons (step_used hepfd), run_cons (step_used hs)]
    · rw [run_cons (step_set hs), run_cons (step_closed (Function.update_self ..)),
        Function.update_idem]
      rfl
    · rw [run_cons (step_closed hs)]
      rfl
  · rw [List.mem_singleton]
    exact KeyMap.mem_erase.trans and_comm

theorem mem_expiredSockets :
    fd ∈ w.expiredSockets cfg now ↔ ∃ c, w.active.find fd = some c ∧ expired cfg now c = true := by
  have hmem : fd ∈ w.expiredSockets cfg now ↔
      ∃ c, w.active.find fd = some c ∧ (!expired cfg now c) = false := KeyMap.mem_eraseIf
  simpa only [Bool.not_eq_false'] using hmem

theorem keeps_sweep (hp : w.point = .sweep now) (h : Looping w) :
    Keeps cfg w .tick (w.sweepTimeouts cfg now) := by
  refine ⟨fun hm => ?_, ?_⟩
  · obtain ⟨c, hc, -⟩ := KeyMap.mem_eraseIf.mp hm
    exact h.epfd (KeyMap.mem_of_find hc)
  unfold uses
  simp only [hp]
  refine h.run_closes (AList.keys_nodup _) (fun s hs => ?_) (fun u s m hepfd hs => ?_)
    (fun fd => ?_) h.guards.symm
  · obtain ⟨c, hc, -⟩ := mem_expiredSockets.mp hs
    exact KeyMap.mem_of_find hc
  · unfold expireUses
    rw [run_cons (step_used hepfd), run_cons (step_used hs), run_cons (step_closed hs)]
    rfl
  · rw [mem_expiredSockets]
    refine KeyMap.mem_eraseIf.trans ⟨?_, ?_⟩
    · rintro ⟨c, hc, hearly⟩
      refine ⟨KeyMap.mem_of_find hc, ?_⟩
      rintro ⟨c', hc', hlate⟩
      obtain rfl : c = c' := Option.some.inj (hc.symm.trans hc')
      exact Bool.false_ne_true (hearly.symm.trans hlate)
    · rintro ⟨hm, hno⟩
      obtain ⟨c, hc⟩ := KeyMap.exists_find hm
      exact ⟨c, hc, Bool.eq_false_iff.mpr fun hlate => hno ⟨c, hc, hlate⟩⟩

/-- On the way out the sockets in flight go first, and then the epoll instance. -/
theorem keeps_exit (hp : w.point = .exit) (h : Looping w) :
    Keeps cfg w .tick { w with point := .returned, active := ∅, out := r } := by
  have hclosed : Descriptors.run w.table
      ((AList.keys w.active).flatMap fun s => [.closed s]) =
        some ({ w with active := ∅ } : Worker).table :=
    h.run_closes (AList.keys_nodup _) (fun s hs => hs)
      (fun u s m _ hs => run_cons (step_closed hs))
      (fun fd => ⟨fun hm => absurd hm (AList.notMem_empty fd), fun hm => absurd hm.1 hm.2⟩) rfl
  have hempty : ({ w with active := ∅ } : Worker).table = Descriptors.only w.epfd true :=
    table_of_empty rfl h.guards
  refine ⟨rfl, ?_⟩
  unfold uses
  simp only [hp]
  rw [run_append, hclosed, hempty, Option.bind_some, Descriptors.run_closed]
  exact congrArg some (guards_eq_table rfl rfl)

theorem keeps_of_step (h : Owns w) (hf : w.fresh a) (hs : step cfg stop w a = some w') :
    Keeps cfg w a w' := by
  have howns := h
  unfold Owns at h
  cases took_of_step hs with
  | noPorts hp | entry hp | outerLoop hp | outerExit hp | innerLoop hp | innerBack hp
  | innerExit hp | unknown hp | eventsDone hp =>
    rw [hp] at h
    refine .quiet h ?_ rfl ?_
    · unfold uses
      simp only [hp]
    · unfold guards
      simp only [hp]
  | createFailed hp hfd =>
    rw [hp] at h
    refine .quiet h ?_ rfl ?_
    · unfold uses
      simp only [hp, if_pos hfd]
    · unfold guards
      simp only [hp]
  | noSocket hp =>
    rw [hp] at h
    refine .quiet h ?_ rfl ?_
    · unfold uses
      simp only [hp, ite_true]
    · unfold guards
      simp only [hp, reject]
  | create hp hfd =>
    rw [hp] at h
    exact keeps_create hp h hfd
  | socket hp hne => exact keeps_socket hp (looping_of_owns howns (hp ▸ trivial)) hf hne
  | connected hp => exact keeps_connected hp (guarded_of_owns howns (.inl hp))
  | inProgress hp herr => exact keeps_inProgress hp (guarded_of_owns howns (.inl hp)) herr
  | connectFailed hp herr => exact keeps_connectFailed hp (guarded_of_owns howns (.inl hp)) herr
  | ctlAddFailed hp hrc => exact keeps_ctlAddFailed hp (guarded_of_owns howns (.inr hp)) hrc
  | ctlAdd hp => exact keeps_ctlAdd hp (guarded_of_owns howns (.inr hp))
  | wait hp => exact keeps_wait hp (looping_of_owns howns (hp ▸ trivial))
  | event hp hc =>
    exact keeps_event hp (looping_of_owns howns (hp ▸ trivial)) (KeyMap.mem_of_find hc)
  | sweep hp => exact keeps_sweep hp (looping_of_owns howns (hp ▸ trivial))
  | exit hp => exact keeps_exit hp (looping_of_owns howns (hp ▸ trivial))

theorem act_of_opened {m : Bool} (ho : .opened fd m ∈ w.uses cfg a) :
    (a = .epollCreate fd ∧ ¬fd < 0) ∨ ∃ started, a = .socket fd started ∧ fd ≠ INVALID_SOCKET := by
  unfold uses at ho
  split at ho
  · split_ifs at ho with hneg
    · cases ho
    · obtain ⟨rfl, -⟩ : fd = _ ∧ m = true := by simpa using ho
      exact .inl ⟨rfl, hneg⟩
  · split_ifs at ho with hs
    · cases ho
    · obtain ⟨rfl, -⟩ : fd = _ ∧ m = true := by simpa using ho
      exact .inr ⟨_, rfl, hs⟩
  all_goals grind [settleUses, expireUses]

/-- What a worker opens, the others have not open. -/
theorem table_of_opened {m : Bool} (ho : .opened fd m ∈ w.uses cfg a) (hf : w'.fresh a) :
    w'.table fd = none := by
  have hheld : w'.holds fd = false := by
    rcases act_of_opened ho with ⟨rfl, hneg⟩ | ⟨started, rfl, hs⟩
    · simpa [fresh, hneg] using hf
    · simpa [fresh, hs] using hf
  rw [← Option.not_isSome_iff_eq_none, ← holds_iff, hheld]
  exact Bool.false_ne_true

-- ---------------------------------------------------------------------------
-- How many descriptors a worker has open
-- ---------------------------------------------------------------------------

def fds (w : Worker) : Finset Fd :=
  (AList.keys w.active).toFinset ∪
    match w.point with
    | .entry | .create | .returned => ∅
    | .connect s _ | .ctlAdd s _ => {s, w.epfd}
    | _ => {w.epfd}

theorem mem_fds : fd ∈ w.fds ↔ w.holds fd = true := by
  have hkeys : fd ∈ AList.keys w.active ↔ fd ∈ w.active := AList.mem_keys.symm
  unfold fds holds
  cases w.point <;> simp only [Finset.mem_union, List.mem_toFinset, hkeys] <;> simp

theorem card_fds_le {extra : Finset Fd} {n : Nat} (hextra : extra.card ≤ n) {m : Int}
    (hm : (w.active.size : Int) + n ≤ m) :
    (((AList.keys w.active).toFinset ∪ extra).card : Int) ≤ m := by
  have hkeys : (AList.keys w.active).toFinset.card ≤ w.active.size := by
    refine (List.toFinset_card_le _).trans (le_of_eq ?_)
    rw [KeyMap.size, AList.keys, List.keys, List.length_map]
  have hunion := Finset.card_union_le (AList.keys w.active).toFinset extra
  omega

theorem card_fds (h : Inv cfg stop w) (howns : Owns w) :
    (w.fds.card : Int) ≤ max cfg.maxInflight 0 + 1 := by
  unfold Inv at h
  unfold Owns at howns
  unfold fds
  cases hp : w.point with
  | entry | create | returned =>
    rw [hp] at howns
    refine card_fds_le Finset.card_empty.le ?_
    rw [howns, KeyMap.size_empty]
    omega
  | launch =>
    rw [hp] at h
    have hspace := h.space
    exact card_fds_le (Finset.card_singleton _).le (by omega)
  | connect s started | ctlAdd s started =>
    rw [hp] at h
    have hspace := h.1.space
    exact card_fds_le Finset.card_le_two (by omega)
  | exit =>
    rw [hp] at h
    have hroom := h.1.room
    exact card_fds_le (Finset.card_singleton _).le (by omega)
  | _ =>
    rw [hp] at h
    have hroom := h.room
    exact card_fds_le (Finset.card_singleton _).le (by omega)

end Worker

end Epoll

namespace ConnectPool

open Runs
open Descriptors (Shared)

variable {c : Config} {s s' : Pool c.workers} {t : Table Fd Bool} {a : Act c.workers}

def uses (c : Config) (s : Pool c.workers) : Act c.workers → List (Descriptors.Call Fd Bool)
  | .worker i a => (s.workers i).uses (c.worker i) a
  | _ => []

/-- The log of a run has its latest call first. -/
def events (c : Config) (s : Pool c.workers) (a : Act c.workers) :
    List (Descriptors.Call Fd Bool) :=
  (uses c s a).reverse

/-- The descriptors of the process are those of the workers. -/
structure Owned (s : Pool n) (t : Table Fd Bool) : Prop where
  shared : Shared t fun i => (s.workers i).table
  owns : ∀ i, (s.workers i).Owns

theorem owned_start (c : Config) (now : Time) : Owned (start c now) Descriptors.empty := by
  have htable : ({} : Epoll.Worker).table = Descriptors.empty :=
    Epoll.Worker.table_of_empty rfl rfl
  refine ⟨?_, fun i => rfl⟩
  simp only [start, htable]
  exact .empty

theorem watch_workers (now : Time) : (s.watch c now).workers = s.workers := by
  unfold Pool.watch
  split
  · rfl
  · split <;> rfl

theorem workers_of_collector (hs : step c s a = some s') (ha : ∀ i b, a ≠ .worker i b) :
    s'.workers = s.workers := by
  cases a with
  | worker i b => exact absurd rfl (ha i b)
  | future =>
    simp only [step] at hs
    split at hs
    · split at hs
      · split at hs <;> cases hs <;> rfl
      · cases hs
        rfl
    · cases hs
  | progress now =>
    simp only [step] at hs
    split at hs <;> cases hs
    exact watch_workers now

theorem Owned.worker {i : Fin c.workers} {b : Epoll.Act} (h : Owned s t)
    (hs : step c s (.worker i b) = some s') :
    ∃ t', Descriptors.run t (uses c s (.worker i b)) = some t' ∧ Owned s' t' := by
  simp only [step] at hs
  split at hs
  · next hf =>
    obtain ⟨w, hw, rfl⟩ := Option.map_eq_some_iff.mp hs
    have hkeeps := Epoll.Worker.keeps_of_step (h.owns i) (hf i) hw
    obtain ⟨t', hrun, hshared⟩ := h.shared.run hkeeps.run fun k m ho j _ =>
      Epoll.Worker.table_of_opened ho (hf j)
    refine ⟨t', hrun, ?_, fun j => ?_⟩
    · have htables : (fun j => (Function.update s.workers i w j).table) =
          Function.update (fun j => (s.workers j).table) i w.table :=
        funext fun j => Function.apply_update (fun _ => Epoll.Worker.table) s.workers i w j
      exact htables ▸ hshared
    · by_cases hj : j = i
      · subst hj
        simpa using hkeeps.owns
      · simpa [Function.update_of_ne hj] using h.owns j
  · cases hs

theorem Owned.step (h : Owned s t) (hs : step c s a = some s') :
    ∃ t', Descriptors.run t (uses c s a) = some t' ∧ Owned s' t' := by
  cases a with
  | worker i b => exact h.worker hs
  | future | progress now =>
    have hw := workers_of_collector hs (by simp)
    exact ⟨t, rfl, hw ▸ h.shared, hw ▸ h.owns⟩

theorem reachable_owned (run : Reachable (step c) (start c now) s) : ∃ t, Owned s t := by
  refine ReachableIf.invariant (P := fun s => ∃ t, Owned s t) ⟨_, owned_start c now⟩
    (fun _ h _ hs => ?_) run
  obtain ⟨t, howned⟩ := h
  obtain ⟨t', -, howned'⟩ := howned.step hs
  exact ⟨t', howned'⟩

theorem owned_of_run {log : List (Descriptors.Call Fd Bool)}
    (run : Reachable (logged (step c) (events c)) (start c now, []) (s, log)) :
    ∃ t, Descriptors.run Descriptors.empty log.reverse = some t ∧ Owned s t := by
  refine ReachableIf.invariant (P := fun x => ∃ t,
    Descriptors.run Descriptors.empty x.2.reverse = some t ∧ Owned x.1 t)
    ⟨Descriptors.empty, rfl, owned_start c now⟩ (fun _ h _ hstep => ?_) run
  obtain ⟨t, hrun, howned⟩ := h
  obtain ⟨s', hs, rfl⟩ := Option.map_eq_some_iff.mp hstep
  obtain ⟨t', hrun', howned'⟩ := howned.step hs
  refine ⟨t', ?_, howned'⟩
  rw [events, List.reverse_append, List.reverse_reverse, Descriptors.run_append, hrun]
  exact hrun'

theorem Inv.returned (h : Inv c s) (hr : s.point = .returned) (i : Fin c.workers) :
    (s.workers i).point = .returned := by
  obtain ⟨order, hm⟩ := h.merged
  have hu := toFinset_order hm.nodup (hm.done.symm.trans (h.all hr))
  exact hm.returned i (List.mem_toFinset.mp (hu ▸ Finset.mem_univ i))

/-- Nothing is open any more when the scan comes back. -/
theorem Owned.closed (h : Owned s t) (hinv : Inv c s) (hr : s.point = .returned) :
    t = Descriptors.empty := by
  refine funext fun fd => h.shared.eq_none fun i => ?_
  have hp := hinv.returned hr i
  have howns := h.owns i
  unfold Epoll.Worker.Owns at howns
  rw [hp] at howns
  have htable : (s.workers i).table = Descriptors.empty :=
    Epoll.Worker.table_of_empty howns (by unfold Epoll.Worker.guards; rw [hp])
  rw [htable]
  rfl

def fds (s : Pool n) : Finset Fd := Finset.univ.biUnion fun i => (s.workers i).fds

theorem Owned.mem_fds (h : Owned s t) {fd : Fd} : fd ∈ fds s ↔ (t fd).isSome := by
  rw [h.shared.isSome_iff, fds, Finset.mem_biUnion]
  simp [Epoll.Worker.mem_fds, Epoll.Worker.holds_iff]

theorem Owned.card_fds (h : Owned s t) (hinv : Inv c s) :
    ((fds s).card : Int) ≤ c.workers * (c.inflightPerWorker + 1) := by
  have hpos := inflightPerWorker_pos c
  have hone : ∀ i ∈ Finset.univ, (s.workers i).fds.card ≤ (c.inflightPerWorker + 1).toNat := by
    intro i _
    have hworker := Epoll.Worker.card_fds (hinv.workers i) (h.owns i)
    simp only [Config.worker] at hworker
    omega
  have hall := Finset.card_biUnion_le_card_mul _ _ _ hone
  rw [Finset.card_univ, Fintype.card_fin] at hall
  calc ((fds s).card : Int) ≤ (c.workers * (c.inflightPerWorker + 1).toNat : Nat) :=
        Int.ofNat_le.mpr hall
    _ = c.workers * (c.inflightPerWorker + 1) := by
      rw [Nat.cast_mul, Int.toNat_of_nonneg (by omega)]

/-- Whatever the order of the steps, no worker uses or closes a descriptor
that is not open or that another has opened, a socket that is connected does
not block, and all are closed when the scan comes back. -/
theorem connectScan_closes (c : Config) (now : Time) (s : Pool c.workers)
    (log : List (Descriptors.Call Fd Bool))
    (run : Reachable (logged (step c) (events c)) (start c now, []) (s, log)) :
    ∃ t, Descriptors.run Descriptors.empty log.reverse = some t ∧
      (∀ fd, (t fd).isSome ↔ ∃ i, (s.workers i).holds fd = true) ∧
      (∀ i j fd, (s.workers i).holds fd = true → (s.workers j).holds fd = true → i = j) ∧
      (∀ i sock started, (s.workers i).point = .connect sock started → t sock = some false) ∧
      (∃ fds : Finset Fd, (∀ fd, fd ∈ fds ↔ (t fd).isSome) ∧
        (fds.card : Int) ≤ c.workers * (c.inflightPerWorker + 1)) ∧
      (s.point = .returned → t = Descriptors.empty ∧
        ∀ fd, Descriptors.opens fd log.reverse = Descriptors.closes fd log.reverse) := by
  obtain ⟨t, hrun, h⟩ := owned_of_run run
  have hreach : Reachable (step c) (start c now) s := ReachableIf.unlogged (x := (s, log)) run
  have hinv := reachable_inv hreach
  refine ⟨t, hrun, fun fd => ?_, fun i j fd hi hj => ?_, fun i sock started hp => ?_,
    ⟨fds s, fun fd => h.mem_fds, h.card_fds hinv⟩, fun hr => ?_⟩
  · simp only [h.shared.isSome_iff, Epoll.Worker.holds_iff]
  · exact h.shared.apart i j fd (Epoll.Worker.holds_iff.mp hi) (Epoll.Worker.holds_iff.mp hj)
  · have hguarded := Epoll.Worker.guarded_of_owns (h.owns i) (.inl hp)
    exact (h.shared.eq_iff sock false).mpr ⟨i, hguarded.table⟩
  · obtain rfl := h.closed hinv hr
    exact ⟨rfl, fun fd => by simpa using Descriptors.opens_eq hrun fd⟩

theorem connectScan_closes_sample :
    ∃ (s : Pool sample.workers) (log : List (Descriptors.Call Fd Bool)),
      Reachable (logged (step sample) (events sample)) (start sample 0, []) (s, log) ∧
      Descriptors.opens 5 log.reverse = 1 ∧
      ∀ fd, Descriptors.opens fd log.reverse = Descriptors.closes fd log.reverse := by
  obtain ⟨⟨s, log⟩, hs⟩ := Option.isSome_iff_exists.mp
    (show (exec (logged (step sample) (events sample)) (start sample 0, []) sampleRun).isSome by
      decide)
  have hend : (exec (logged (step sample) (events sample)) (start sample 0, []) sampleRun).map
      (fun x => (x.1.point, Descriptors.opens 5 x.2.reverse)) = some (.returned, 1) := by decide
  simp only [hs, Option.map_some, Option.some.injEq, Prod.mk.injEq] at hend
  have run := reachable_of_exec hs
  obtain ⟨t, -, -, -, -, -, hreturned⟩ := connectScan_closes sample 0 s log run
  exact ⟨s, log, run, hend.2, (hreturned hend.1).2⟩

end ConnectPool

end ByeByeVpn

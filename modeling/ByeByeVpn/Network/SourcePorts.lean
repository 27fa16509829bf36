import ByeByeVpn.Network.FreePorts

/-!
# The source ports of the SYN scan

`alloc_src_port` is to go round the ports 40000..59999. Its cursor has 16
bits and the difference that it takes the remainder of is signed, so below
40000 the cursor stands for a port below the block.
-/

namespace ByeByeVpn.SynScan

open Runs Scan

abbrev InBlock (q : UInt16) : Prop := 40000 ≤ q.toNat ∧ q.toNat ≤ 59999

/-- The cursors that have not wrapped, and the two wrapped ones without a remainder. -/
abbrev Unwrapped (cursor : UInt16) : Prop :=
  40000 ≤ cursor.toNat ∨ cursor.toNat = 0 ∨ cursor.toNat = 20000

def blockPort (k : Nat) : UInt16 := .ofNat (40000 + (k - 40000) % 20000)

/-- The next free port comes before the cursor leaves the block: port 40000 is
free, or a port up to the wrap is. -/
def FreeInBlock (pending : KeyMap UInt16 SynPending) (cursor : UInt16) : Prop :=
  Unwrapped cursor ∧ 40000 ∉ pending ∨
    40000 ≤ cursor.toNat ∧ ∃ k < 65536, cursor.toNat ≤ k ∧ blockPort k ∉ pending

instance (pending : KeyMap UInt16 SynPending) (cursor : UInt16) :
    Decidable (FreeInBlock pending cursor) :=
  inferInstanceAs (Decidable (_ ∨ _))

theorem inBlock_srcPortOf {cursor : UInt16} : InBlock (srcPortOf cursor) ↔ Unwrapped cursor := by
  have h := toNat_srcPortOf cursor
  have hc := cursor.toNat_lt
  rw [Int.tmod_eq_emod] at h
  unfold InBlock Unwrapped
  split at h
  · next hs => omega
  · next hs => omega

theorem srcPortOf_unwrapped {cursor : UInt16} (h : 40000 ≤ cursor.toNat) :
    srcPortOf cursor = blockPort cursor.toNat := by
  have hport := toNat_srcPortOf_eq cursor
  have hc := cursor.toNat_lt
  rw [← UInt16.toNat_inj, hport, blockPort, UInt16.toNat_ofNat']
  split_ifs <;> omega

theorem srcPortOf_turn {cursor : UInt16} (h : cursor.toNat = 0 ∨ cursor.toNat = 20000) :
    srcPortOf cursor = 40000 := by
  have hport := toNat_srcPortOf_eq cursor
  rw [if_neg (by omega), if_neg (by omega), if_pos h] at hport
  exact UInt16.toNat_inj.mp hport

theorem of_firstFree {pending : KeyMap UInt16 SynPending} {n : Nat} {cursor k : UInt16}
    (h : firstFree pending n cursor = some k) :
    ∃ i < n, k = (· + 1)^[i] cursor ∧ srcPortOf k ∉ pending ∧
      ∀ j < i, srcPortOf ((· + 1)^[j] cursor) ∈ pending := by
  obtain ⟨hfree, i, hi, hk, hbefore⟩ := List.find?_eq_some_iff_getElem.mp h
  rw [List.length_iterate] at hi
  refine ⟨i, hi, ?_, by simpa using hfree, fun j hj => ?_⟩
  · rw [← hk, List.getElem_iterate]
  · have := hbefore j hj
    rw [List.getElem_iterate] at this
    simpa using this

theorem firstFree_unwrapped_iff {pending : KeyMap UInt16 SynPending} {cursor k : UInt16}
    (hpending : ∀ q ∈ pending, InBlock q) (h : firstFree pending 20000 cursor = some k) :
    Unwrapped k ↔ FreeInBlock pending cursor := by
  obtain ⟨i, hi, hk, hfree, hbefore⟩ := of_firstFree h
  have hc := cursor.toNat_lt
  have hval : k.toNat = (cursor.toNat + i) % 65536 := by rw [hk, toNat_iterate]
  -- a port that is free is not passed over
  have hpassed (j : Nat) (hport : srcPortOf ((· + 1)^[j] cursor) ∉ pending) : i ≤ j :=
    Nat.le_of_not_lt fun hj => hport (hbefore j hj)
  constructor
  · intro hunwrapped
    rcases Nat.lt_or_ge cursor.toNat 40000 with hlow | hhigh
    · have hcursor : Unwrapped cursor := by
        rcases Nat.eq_zero_or_pos i with rfl | hpos
        · rwa [show k = cursor from hk] at hunwrapped
        · exact inBlock_srcPortOf.mp (hpending _ (hbefore 0 hpos))
      have hturn : cursor.toNat = 0 ∨ cursor.toNat = 20000 := by omega
      have hkturn : k.toNat = 0 ∨ k.toNat = 20000 := by omega
      exact .inl ⟨hcursor, srcPortOf_turn hkturn ▸ hfree⟩
    · rcases Nat.lt_or_ge (cursor.toNat + i) 65536 with hlt | hge
      · refine .inr ⟨hhigh, cursor.toNat + i, hlt, by omega, ?_⟩
        rw [Nat.mod_eq_of_lt hlt] at hval
        rw [← hval, ← srcPortOf_unwrapped (by omega)]
        exact hfree
      · have hkturn : k.toNat = 0 ∨ k.toNat = 20000 := by omega
        exact .inl ⟨.inl hhigh, srcPortOf_turn hkturn ▸ hfree⟩
  · rintro (⟨hcursor, hturn⟩ | ⟨hhigh, j, hj, hle, hport⟩)
    · rcases hcursor with hhigh | hzero
      · have := hpassed (65536 - cursor.toNat) (by
          rw [srcPortOf_turn (.inl (by rw [toNat_iterate]; omega))]
          exact hturn)
        unfold Unwrapped
        omega
      · have := hpassed 0 (by rwa [Function.iterate_zero_apply, srcPortOf_turn hzero])
        unfold Unwrapped
        omega
    · have hvalue : ((· + 1)^[j - cursor.toNat] cursor : UInt16).toNat = j := by
        rw [toNat_iterate]
        omega
      have := hpassed (j - cursor.toNat) (by
        rwa [srcPortOf_unwrapped (by rw [hvalue]; omega), hvalue])
      unfold Unwrapped
      omega

-- ---------------------------------------------------------------------------
-- The ports of a run
-- ---------------------------------------------------------------------------

def PortInBlock (s : Scan) : Prop := ∀ port q, s.point = .send port q → InBlock q

/-- If a port is handed out next, then before the cursor leaves the block. -/
def CursorInBlock (c : Config) (s : Scan) : Prop :=
  s.point = .sendHead → s.nextIdx < c.ports.length → (s.pending.size : Int) < c.maxInflight →
    FreeInBlock s.pending s.cursor

instance (c : Config) (s : Scan) : Decidable (CursorInBlock c s) :=
  inferInstanceAs (Decidable (_ → _ → _ → _))

structure AllInBlock (s : Scan) : Prop where
  port : PortInBlock s
  pending : ∀ q ∈ s.pending, InBlock q

variable {c : Config} {s t : Scan} {a : Act}

theorem take_point (s : Scan) (port : Int) :
    (s.take port).point = ((firstFree s.pending 20000 s.cursor).map srcPortOf).elim .sendHead
      (.send port) := by
  have halloc := allocSrcPort_eq s.pending 20000 s.cursor
  unfold Scan.take
  cases hfree : firstFree s.pending 20000 s.cursor with
  | none => simp [halloc, hfree]
  | some k => simp [halloc, hfree, srcPortOf_ne_zero]

theorem take_pending (s : Scan) (port : Int) : (s.take port).pending = s.pending := by
  unfold Scan.take
  dsimp only
  split <;> rfl

theorem portInBlock_take (hpending : ∀ q ∈ s.pending, InBlock q)
    (hroom : (s.pending.size : Int) < c.maxInflight) (port : Int) :
    PortInBlock (s.take port) ↔ FreeInBlock s.pending s.cursor := by
  have hle := c.maxInflight.2.2
  have hsize : s.pending.size < 4000 := by omega
  obtain ⟨k, hk⟩ := exists_firstFree (Nat.le_refl 4000) hsize s.cursor
  have hfound := firstFree_add hk 16000
  rw [PortInBlock, take_point, hfound, ← firstFree_unwrapped_iff hpending hfound,
    ← inBlock_srcPortOf]
  simp

theorem receive_point (s : Scan) (buf : Bytes) (now : Time) (hp : s.point = .recv) :
    (s.receive c buf now).point = .recv := by
  unfold Scan.receive
  split
  · exact hp
  · rfl

theorem portInBlock_step_iff (hpending : ∀ q ∈ s.pending, InBlock q) (hs : step c s a = some t) :
    PortInBlock t ↔ CursorInBlock c s := by
  -- only one step hands out a port, and only it depends on the cursor
  have other (hp : s.point = .sendHead → s.nextIdx < c.ports.length →
      ¬(s.pending.size : Int) < c.maxInflight) (ht : ∀ port q, t.point ≠ .send port q) :
      PortInBlock t ↔ CursorInBlock c s :=
    ⟨fun _ hhead hi hroom => absurd hroom (hp hhead hi), fun _ port q hsend =>
      absurd hsend (ht port q)⟩
  cases took_of_step hs with
  | take hp hport hroom =>
    obtain ⟨hi, -⟩ := List.getElem?_eq_some_iff.mp hport
    rw [portInBlock_take hpending hroom]
    exact ⟨fun h _ _ _ => h, fun h => h hp hi hroom⟩
  | sendExit hp hg => exact other (fun _ => hg) (by simp)
  | send hp => exact other (by simp [hp]) (by unfold Scan.sent; split <;> simp)
  | recv hp => exact other (by simp [hp]) (by simp [receive_point _ _ _ hp])
  | timedOut hp => exact other (by simp [hp]) (by simp [Scan.settle])
  | setup hp | noSetup hp | noPorts hp | entry hp | outerLoop hp | outerExit hp | aborted hp
  | notAborted hp | readable hp | notReadable hp | noDatagram hp | clock hp | inTime hp
  | swept hp => exact other (by simp [hp]) (by simp)

theorem AllInBlock.pending_step (h : AllInBlock s) (hs : step c s a = some t) :
    ∀ q ∈ t.pending, InBlock q := by
  have hsettle (p : Point) (q' : UInt16) (oc : Outcome) :
      ∀ q ∈ (s.settle p q' oc).pending, InBlock q :=
    fun q hq => h.pending q (KeyMap.mem_erase.mp hq).2
  cases took_of_step hs with
  | take =>
    rw [take_pending]
    exact h.pending
  | send hp =>
    unfold Scan.sent
    split
    · intro q hq
      rcases KeyMap.mem_emplace.mp hq with rfl | hq
      · exact h.port _ _ hp
      · exact h.pending q hq
    · exact h.pending
  | recv =>
    unfold Scan.receive
    split
    · exact h.pending
    · exact hsettle _ _ _
  | timedOut => exact hsettle _ _ _
  | setup | noSetup | noPorts | entry | outerLoop | outerExit | aborted | notAborted | readable
  | notReadable | noDatagram | clock | inTime | swept | sendExit => exact h.pending

/-- Source ports. In a run that hands out each port before the cursor leaves
the block, every port handed out lies in it, and the first other step hands out
a port that does not. -/
theorem srcPort_inBlock_iff (c : Config) (s : Scan)
    (run : ReachableIf (fun s _ => CursorInBlock c s) (step c) {} s) :
    PortInBlock s ∧ ∀ a t, step c s a = some t → (PortInBlock t ↔ CursorInBlock c s) := by
  have inv : AllInBlock s := by
    refine run.invariant ⟨by simp [PortInBlock], fun q hq => ?_⟩ fun _ h hok hs => ?_
    · exact absurd hq (AList.notMem_empty q)
    · exact ⟨(portInBlock_step_iff h.pending hs).mpr hok, h.pending_step hs⟩
  exact ⟨inv.port, fun a t => portInBlock_step_iff inv.pending⟩

theorem srcPort_inBlock_iff_sample :
    ∃ s, s.point = .send 443 40000 ∧ PortInBlock s := by
  have hend : (exec (guarded (fun s _ => CursorInBlock sample s) (step sample)) {}
      (sampleRun.take 5)).map Scan.point = some (.send 443 40000) := by
    decide +kernel
  obtain ⟨s, hs, hp⟩ := Option.map_eq_some_iff.mp hend
  exact ⟨s, hp, (srcPort_inBlock_iff sample s (reachable_of_exec hs).unguarded).1⟩

/-- The 25538th port is asked from port 20001. -/
theorem srcPort_below_block :
    ∃ s, Reachable (step fullScan) {} s ∧ s.point = .send 25538 20001 ∧ ¬PortInBlock s := by
  obtain ⟨s, run, hp, hpending, hidx, hcursor⟩ := reachable_unsent reachable_sendHead rfl
    (by decide) 25537 (by decide) fun j _ => AList.notMem_empty _
  change s.nextIdx = 0 + 25537 at hidx
  have hcursor' : s.cursor = 1 := by
    rw [hcursor, ← UInt16.toNat_inj, toNat_iterate]
    rfl
  have hport : fullScan.ports[s.nextIdx]? = some 25538 := by
    rw [hidx]
    exact fullScan_getElem? (by decide)
  have htake := step_take hp hport (by rw [hpending]; decide)
  have hfree : srcPortOf s.cursor ∉ s.pending := by
    rw [hpending]
    exact AList.notMem_empty _
  rw [take_free hfree, hcursor', show srcPortOf 1 = 20001 by decide] at htake
  refine ⟨_, run.next htake, rfl, fun h => ?_⟩
  exact absurd (h 25538 20001 rfl).1 (by decide)

end ByeByeVpn.SynScan

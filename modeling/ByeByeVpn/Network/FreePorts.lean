import ByeByeVpn.Network.PortScan
import ByeByeVpn.Network.SynScan
import Mathlib.Data.List.Iterate
import Mathlib.Data.List.Perm.Subperm
import Mathlib.Data.List.Range

/-!
# Free source ports

`alloc_src_port` tries one cursor after another. Cursors that are close to one
another stand for different ports, across the wrap too, so a few thousand tries
see more ports than can be pending.
-/

namespace ByeByeVpn.SynScan

open Runs Scan

abbrev tries (n : Nat) (cursor : UInt16) : List UInt16 := List.iterate (· + 1) cursor n

/-- The cursor of the first try that finds a free port. -/
def firstFree (pending : KeyMap UInt16 SynPending) (n : Nat) (cursor : UInt16) : Option UInt16 :=
  (tries n cursor).find? fun k => srcPortOf k ∉ pending

theorem toNat_srcPortOf (cursor : UInt16) :
    ((srcPortOf cursor).toNat : Int) = 40000 + ((cursor.toNat : Int) - 40000).tmod 20000 := by
  have hlo := Int.lt_tmod_of_pos ((cursor.toNat : Int) - 40000) (by decide : (0 : Int) < 20000)
  have hhi := Int.tmod_lt_of_pos ((cursor.toNat : Int) - 40000) (by decide : (0 : Int) < 20000)
  rw [srcPortOf, UInt16.ofInt, UInt16.toNat_ofNat']
  omega

theorem srcPortOf_ne_zero (cursor : UInt16) : srcPortOf cursor ≠ 0 := by
  intro h0
  have h := toNat_srcPortOf cursor
  have hlo := Int.lt_tmod_of_pos ((cursor.toNat : Int) - 40000) (by decide : (0 : Int) < 20000)
  rw [h0] at h
  simp only [UInt16.toNat_zero] at h
  omega

/-- The port that is handed out is that of the first free try. -/
theorem allocSrcPort_eq (pending : KeyMap UInt16 SynPending) (n : Nat) (cursor : UInt16) :
    (allocSrcPort pending n cursor).1 = ((firstFree pending n cursor).map srcPortOf).getD 0 := by
  fun_induction allocSrcPort pending n cursor with
  | case1 => rfl
  | case2 n cursor h ih => simpa [firstFree, List.iterate, h] using ih
  | case3 n cursor h => simp [firstFree, List.iterate, h]

theorem toNat_iterate (cursor : UInt16) (n : Nat) :
    ((· + 1)^[n] cursor : UInt16).toNat = (cursor.toNat + n) % 65536 := by
  induction n with
  | zero => exact (Nat.mod_eq_of_lt cursor.toNat_lt).symm
  | succ n ih =>
    rw [Function.iterate_succ_apply', UInt16.toNat_add, ih, UInt16.toNat_one]
    omega

theorem toNat_srcPortOf_eq (cursor : UInt16) :
    (srcPortOf cursor).toNat =
      if 60000 ≤ cursor.toNat then cursor.toNat - 20000
      else if 20000 < cursor.toNat then cursor.toNat
      else if cursor.toNat = 0 ∨ cursor.toNat = 20000 then 40000
      else cursor.toNat + 20000 := by
  have h := toNat_srcPortOf cursor
  have hc := cursor.toNat_lt
  rw [Int.tmod_eq_emod] at h
  split at h <;> split_ifs <;> omega

/-- Fewer than 4000 tries apart, cursors stand for different ports. -/
theorem srcPortOf_ne {a b : UInt16} {d : Nat} (hd : 0 < d) (hlt : d < 4000)
    (hb : b.toNat = (a.toNat + d) % 65536) : srcPortOf a ≠ srcPortOf b := by
  intro heq
  have ha := a.toNat_lt
  have hports := congrArg UInt16.toNat heq
  rw [toNat_srcPortOf_eq, toNat_srcPortOf_eq] at hports
  split_ifs at hports <;> omega

theorem nodup_tries {n : Nat} (hn : n ≤ 4000) (cursor : UInt16) :
    ((tries n cursor).map srcPortOf).Nodup := by
  have hne {i j : Nat} (hij : i < j) (hj : j < n) :
      srcPortOf ((· + 1)^[i] cursor) ≠ srcPortOf ((· + 1)^[j] cursor) := by
    refine srcPortOf_ne (d := j - i) (by omega) (by omega) ?_
    rw [toNat_iterate, toNat_iterate]
    omega
  rw [tries, ← List.range_map_iterate, List.map_map]
  refine List.Nodup.map_on (fun i hi j hj heq => ?_) List.nodup_range
  rw [List.mem_range] at hi hj
  rcases Nat.lt_trichotomy i j with hij | hij | hij
  · exact absurd heq (hne hij hj)
  · exact hij
  · exact absurd heq.symm (hne hij hi)

variable {c : Config} {s : Scan} {pending : KeyMap UInt16 SynPending}

theorem exists_firstFree {n : Nat} (hn : n ≤ 4000) (h : pending.size < n) (cursor : UInt16) :
    ∃ k, firstFree pending n cursor = some k := by
  cases hfree : firstFree pending n cursor with
  | some k => exact ⟨k, rfl⟩
  | none =>
    have hall : (tries n cursor).map srcPortOf ⊆ pending.keys := by
      intro p hp
      obtain ⟨k, hk, rfl⟩ := List.mem_map.mp hp
      have htaken := List.find?_eq_none.mp hfree k hk
      simpa [AList.mem_keys] using htaken
    have hle := (List.subperm_of_subset (nodup_tries hn cursor) hall).length_le
    rw [List.length_map, List.length_iterate, AList.keys, List.keys, List.length_map,
      ← KeyMap.size] at hle
    omega

theorem firstFree_add {n : Nat} {cursor k : UInt16} (h : firstFree pending n cursor = some k)
    (m : Nat) : firstFree pending (n + m) cursor = some k := by
  rw [firstFree, tries, List.iterate_add, List.find?_append, ← tries, ← firstFree, h,
    Option.some_or]

theorem allocSrcPort_ne_zero (h : pending.size < 4000) (cursor : UInt16) :
    (allocSrcPort pending 20000 cursor).1 ≠ 0 := by
  obtain ⟨k, hk⟩ := exists_firstFree (Nat.le_refl 4000) h cursor
  rw [allocSrcPort_eq, firstFree_add hk 16000]
  exact srcPortOf_ne_zero k

theorem take_send (hroom : (s.pending.size : Int) < c.maxInflight)
    (port : Int) : ∃ q, (s.take port).point = .send port q ∧ q ≠ 0 ∧ q ∉ s.pending := by
  have hle := c.maxInflight.2.2
  have hsize : s.pending.size < 4000 := by omega
  have hne := allocSrcPort_ne_zero hsize s.cursor
  refine ⟨_, ?_, hne, allocSrcPort_free hne⟩
  simp only [Scan.take, if_neg hne]

theorem step_take {port : Int} (hp : s.point = .sendHead) (hport : c.ports[s.nextIdx]? = some port)
    (hroom : (s.pending.size : Int) < c.maxInflight) : step c s .tick = some (s.take port) := by
  unfold step
  rw [hp]
  dsimp only
  rw [hport]
  dsimp only
  rw [if_pos hroom]

-- ---------------------------------------------------------------------------
-- A scan of all ports
-- ---------------------------------------------------------------------------

def fullScan : Config := { sample with ports := portsBetween kMinPortNumber kMaxPortNumber }

theorem fullScan_length : fullScan.ports.length = 65535 := by
  simp [fullScan, portsBetween, kMinPortNumber, kMaxPortNumber]

theorem fullScan_getElem? {n : Nat} (hn : n < 65535) :
    fullScan.ports[n]? = some ((n : Int) + 1) := by
  simp [fullScan, portsBetween, kMinPortNumber, kMaxPortNumber, hn, Int.add_comm]

theorem take_free (h : srcPortOf s.cursor ∉ s.pending) (port : Int) :
    s.take port = { s with
      point := .send port (srcPortOf s.cursor)
      cursor := s.cursor + 1
      nextIdx := s.nextIdx + 1 } := by
  have halloc : allocSrcPort s.pending (19999 + 1) s.cursor = (srcPortOf s.cursor, s.cursor + 1) :=
    if_neg h
  simp only [Scan.take, halloc, if_neg (srcPortOf_ne_zero s.cursor)]

/-- After `n` more ports to which nothing can be sent the cursor has moved by
`n`, and the same probes are pending. -/
theorem reachable_unsent (run : Reachable (step fullScan) {} s) (hp : s.point = .sendHead)
    (hroom : (s.pending.size : Int) < fullScan.maxInflight) (n : Nat)
    (hn : s.nextIdx + n ≤ 65535)
    (hfree : ∀ j < n, srcPortOf ((· + 1)^[j] s.cursor) ∉ s.pending) :
    ∃ t, Reachable (step fullScan) {} t ∧ t.point = .sendHead ∧ t.pending = s.pending ∧
      t.nextIdx = s.nextIdx + n ∧ t.cursor = (· + 1)^[n] s.cursor := by
  induction n with
  | zero => exact ⟨s, run, hp, rfl, rfl, rfl⟩
  | succ n ih =>
    obtain ⟨t, hrun, ht, hpending, hidx, hcursor⟩ :=
      ih (by omega) fun j hj => hfree j (by omega)
    have hport : fullScan.ports[t.nextIdx]? = some ((s.nextIdx + n : Nat) + 1 : Int) := by
      rw [hidx, fullScan_getElem? (by omega)]
    have hfree' : srcPortOf t.cursor ∉ t.pending := by
      rw [hpending, hcursor]
      exact hfree n (by omega)
    have htake := step_take ht hport (by rwa [hpending])
    rw [take_free hfree'] at htake
    have hsend := Reachable.next (hrun.next htake) (a := .sendto 0 (-1) 0) rfl
    refine ⟨_, hsend, rfl, hpending, ?_, ?_⟩
    · simp [sent, sendSynPacket, hidx, Nat.add_assoc]
    · simp [sent, sendSynPacket, hcursor, Function.iterate_succ_apply']

theorem reachable_sendHead : Reachable (step fullScan) {} { point := .sendHead } := by
  have hne : fullScan.ports ≠ [] := List.ne_nil_of_length_pos (by simp [fullScan_length])
  have hexec : exec (step fullScan) {} [.tick, .setup true, .tick, .abortFlag false] =
      some { point := .sendHead } := by
    simp [exec, step, hne, fullScan_length]
  exact reachable_of_exec hexec

theorem reachable_sent (run : Reachable (step fullScan) {} s) (hp : s.point = .sendHead)
    (hroom : (s.pending.size : Int) < fullScan.maxInflight) (hn : s.nextIdx < 65535)
    (hfree : srcPortOf s.cursor ∉ s.pending) :
    ∃ t e, Reachable (step fullScan) {} t ∧ t.point = .sendHead ∧ t.nextIdx = s.nextIdx + 1 ∧
      t.cursor = s.cursor + 1 ∧ t.pending = s.pending.emplace (srcPortOf s.cursor) e := by
  have htake := step_take hp (fullScan_getElem? hn) hroom
  rw [take_free hfree] at htake
  have hsend := Reachable.next (run.next htake) (a := .sendto 0 40 0) rfl
  exact ⟨_, _, hsend, rfl, rfl, rfl, rfl⟩

theorem srcPortOf_beyond {j : Nat} (hj : j < 19998) :
    srcPortOf ((· + 1)^[j] 40002) ≠ 40000 ∧ srcPortOf ((· + 1)^[j] 40002) ≠ 40001 := by
  have hport := toNat_srcPortOf_eq ((· + 1)^[j] 40002)
  rw [toNat_iterate, show (40002 : UInt16).toNat = 40002 by decide, Nat.mod_eq_of_lt (by omega),
    if_neg (by omega), if_pos (by omega)] at hport
  refine ⟨fun heq => ?_, fun heq => ?_⟩
  · rw [heq, show (40000 : UInt16).toNat = 40000 by decide] at hport
    omega
  · rw [heq, show (40001 : UInt16).toNat = 40001 by decide] at hport
    omega

/-- The SYNs for the first two ports wait for an answer, no other can be sent,
and the cursor comes round to their source ports. -/
theorem reachable_round : ∃ s, Reachable (step fullScan) {} s ∧ s.point = .sendHead ∧
    s.nextIdx = 20000 ∧ s.cursor = 60000 ∧ s.pending.size = 2 ∧
    ∀ q, q ∈ s.pending ↔ q = 40000 ∨ q = 40001 := by
  obtain ⟨s, e, run, hp, hidx, hcursor, hpending⟩ := reachable_sent reachable_sendHead rfl
    (by decide) (by decide) (AList.notMem_empty _)
  change s.cursor = 40001 at hcursor
  change s.pending = (∅ : KeyMap UInt16 SynPending).emplace 40000 e at hpending
  have hempty : (40000 : UInt16) ∉ (∅ : KeyMap UInt16 SynPending) := AList.notMem_empty _
  have hsize : s.pending.size = 1 := by rw [hpending, KeyMap.size_emplace e hempty]; rfl
  have hnew : srcPortOf s.cursor ∉ s.pending := by
    rw [hcursor, hpending, KeyMap.mem_emplace]
    rintro (heq | hmem)
    · exact absurd heq (by decide)
    · exact absurd hmem (AList.notMem_empty _)
  obtain ⟨t, e', run, hp, hidx', hcursor', hpending'⟩ := reachable_sent run hp
    (by rw [hsize]; decide) (by rw [hidx]; decide) hnew
  have hkeys : ∀ q, q ∈ t.pending ↔ q = 40000 ∨ q = 40001 := by
    intro q
    rw [hpending', hpending, hcursor, KeyMap.mem_emplace, KeyMap.mem_emplace,
      show srcPortOf 40001 = 40001 by decide]
    simp [or_comm]
  have hsize' : t.pending.size = 2 := by rw [hpending', KeyMap.size_emplace e' hnew, hsize]
  rw [hcursor] at hcursor'
  rw [hidx] at hidx'
  have hfree : ∀ j < 19998, srcPortOf ((· + 1)^[j] t.cursor) ∉ t.pending := by
    intro j hj hmem
    rw [hcursor', hkeys] at hmem
    exact hmem.elim (srcPortOf_beyond hj).1 (srcPortOf_beyond hj).2
  obtain ⟨u, run, hp, hsame, hidx'', hcursor''⟩ := reachable_unsent run hp
    (by rw [hsize']; decide) 19998 (by rw [hidx']; decide) hfree
  refine ⟨u, run, hp, by rw [hidx'', hidx'], ?_, by rw [hsame, hsize'],
    fun q => by rw [hsame, hkeys]⟩
  rw [hcursor'', ← UInt16.toNat_inj, toNat_iterate, hcursor']
  rfl

-- ---------------------------------------------------------------------------
-- Every port of a scan
-- ---------------------------------------------------------------------------

/-- `alloc_src_port` hands out a free port whatever the cursor is, and the send
loop never goes without one. -/
theorem srcPort_always (pending : KeyMap UInt16 SynPending) (cursor : UInt16)
    (h : pending.size < 4000) :
    ((allocSrcPort pending 20000 cursor).1 ≠ 0 ∧ (allocSrcPort pending 20000 cursor).1 ∉ pending) ∧
    ∀ (c : Config) (s t : Scan), Reachable (step c) {} s → s.point = .sendHead →
      (s.pending.size : Int) < c.maxInflight → step c s .tick = some t →
        ∀ port, c.ports[s.nextIdx]? = some port →
          ∃ q, t.point = .send port q ∧ q ≠ 0 ∧ q ∉ s.pending := by
  have hne := allocSrcPort_ne_zero h cursor
  refine ⟨⟨hne, allocSrcPort_free hne⟩, fun c s t _ hp hroom hs port hport => ?_⟩
  rw [step_take hp hport hroom, Option.some.injEq] at hs
  rw [← hs]
  exact take_send hroom port

theorem srcPort_always_round :
    ∃ s t, Reachable (step fullScan) {} s ∧ srcPortOf s.cursor ∈ s.pending ∧
      srcPortOf (s.cursor + 1) ∈ s.pending ∧ s.pending.size < 4000 ∧
      ((allocSrcPort s.pending 20000 s.cursor).1 ≠ 0 ∧
        (allocSrcPort s.pending 20000 s.cursor).1 ∉ s.pending) ∧
      step fullScan s .tick = some t ∧ ∃ q, t.point = .send 20001 q ∧ q ≠ 0 ∧ q ∉ s.pending := by
  obtain ⟨s, run, hp, hidx, hcursor, hsize, hkeys⟩ := reachable_round
  have hlt : s.pending.size < 4000 := by omega
  have hroom : (s.pending.size : Int) < fullScan.maxInflight := by
    rw [hsize]
    decide
  have hport : fullScan.ports[s.nextIdx]? = some 20001 := by
    rw [hidx]
    exact fullScan_getElem? (by decide)
  have hstep := step_take hp hport hroom
  obtain ⟨hfree, halways⟩ := srcPort_always s.pending s.cursor hlt
  refine ⟨s, _, run, ?_, ?_, hlt, hfree, hstep,
    halways fullScan s _ run hp hroom hstep 20001 hport⟩
  · rw [hcursor]
    exact (hkeys _).mpr (.inl (by decide))
  · rw [hcursor]
    exact (hkeys _).mpr (.inr (by decide))

end ByeByeVpn.SynScan

import ByeByeVpn.Lib.Bytes

/-!
# Names in certificates

A certificate presents names. One of them covers a host name if the two are
equal up to the case of letters, or if it is a wildcard in the place of the
first label and the other labels are equal in this sense.
-/

namespace ByeByeVpn.DnsName

def Same (a b : Bytes) : Prop := a.map tolower = b.map tolower

instance (a b : Bytes) : Decidable (Same a b) :=
  inferInstanceAs (Decidable (a.map tolower = b.map tolower))

/-- The presented name covers the host name. -/
inductive Matches : Bytes → Bytes → Prop
  | same {name pat : Bytes} (nonempty : name ≠ []) (same : Same name pat) : Matches name pat
  | wildcard {label rest suffix : Bytes} (nonempty : label ≠ []) (oneLabel : chr '.' ∉ label)
      (same : Same rest suffix) :
      Matches (label ++ chr '.' :: rest) (chr '*' :: chr '.' :: suffix)

/-- The name lies below the domain: something and a dot stand before it. -/
def Below (name domain : Bytes) : Prop :=
  ∃ labels rest, name = labels ++ chr '.' :: rest ∧ labels ≠ [] ∧ Same rest domain

/-- A certificate with this common name and these alternative names covers the
host name. -/
def Covers (name subjectCn : Bytes) (san : List Bytes) : Prop :=
  ∃ pat ∈ subjectCn :: san, Matches name pat

theorem eq_of_tolower_eq {c d : UInt8} (hd : d < chr 'a' ∨ chr 'z' < d) (h : tolower c = d) :
    c = d := by
  have hA : (chr 'A').toNat = 65 := rfl
  have hZ : (chr 'Z').toNat = 90 := rfl
  have ha : (chr 'a').toNat = 97 := rfl
  have hz : (chr 'z').toNat = 122 := rfl
  unfold tolower at h
  split at h
  · next hc =>
    simp only [Bool.and_eq_true, decide_eq_true_eq, UInt8.le_iff_toNat_le, hA, hZ] at hc
    simp only [UInt8.lt_iff_toNat_lt, ha, hz] at hd
    have ht := congrArg UInt8.toNat h
    rw [UInt8.toNat_add, show (32 : UInt8).toNat = 32 from rfl] at ht
    omega
  · exact h

theorem Same.symm {a b : Bytes} (h : Same a b) : Same b a := Eq.symm h

theorem Same.trans {a b c : Bytes} (h : Same a b) (h' : Same b c) : Same a c := Eq.trans h h'

theorem Same.eq_nil {a : Bytes} (h : Same a []) : a = [] := List.map_eq_nil_iff.mp h

theorem Same.length_eq {a b : Bytes} (h : Same a b) : a.length = b.length := by
  have := congrArg List.length h
  simpa only [List.length_map] using this

theorem same_cons {a : Bytes} {d : UInt8} {b : Bytes} (hd : d < chr 'a' ∨ chr 'z' < d)
    (hu : tolower d = d) : Same a (d :: b) ↔ ∃ rest, a = d :: rest ∧ Same rest b := by
  constructor
  · intro h
    cases a with
    | nil => cases h
    | cons c rest =>
      obtain ⟨hc, hr⟩ := List.cons.inj h
      exact ⟨rest, by rw [eq_of_tolower_eq hd (hc.trans hu)], hr⟩
  · rintro ⟨rest, rfl, hr⟩
    exact congrArg (tolower d :: ·) hr

theorem same_append {a b c : Bytes} :
    Same a (b ++ c) ↔ ∃ left right, a = left ++ right ∧ Same left b ∧ Same right c := by
  rw [Same, List.map_append, List.map_eq_append_iff]
  rfl

theorem Same.mem {a b : Bytes} {d : UInt8} (hd : d < chr 'a' ∨ chr 'z' < d) (hu : tolower d = d)
    (h : Same a b) (hm : d ∈ a) : d ∈ b := by
  have hlower : tolower d ∈ b.map tolower := h ▸ List.mem_map_of_mem hm
  obtain ⟨c, hc, hcd⟩ := List.mem_map.mp hlower
  rwa [← eq_of_tolower_eq hd (hcd.trans hu)]

theorem Matches.congr {name name' pat pat' : Bytes} (h : Matches name pat)
    (hn : Same name name') (hp : Same pat pat') : Matches name' pat' := by
  cases h with
  | same hne hs =>
    refine .same ?_ ((hn.symm.trans hs).trans hp)
    rintro rfl
    exact hne hn.eq_nil
  | wildcard hl hd hs =>
    obtain ⟨label, dotted, rfl, hlabel, hdotted⟩ := same_append.mp hn.symm
    obtain ⟨rest, rfl, hrest⟩ := (same_cons (by decide) (by decide)).mp hdotted
    obtain ⟨starred, rfl, hstarred⟩ := (same_cons (by decide) (by decide)).mp hp.symm
    obtain ⟨suffix, rfl, hsuffix⟩ := (same_cons (by decide) (by decide)).mp hstarred
    refine .wildcard ?_ ?_ ((hrest.trans hs).trans hsuffix.symm)
    · rintro rfl
      exact hl hlabel.symm.eq_nil
    · exact fun hdot => hd (hlabel.mem (by decide) (by decide) hdot)

/-- What is covered does not change with the case of the names, nor with the
order or the number of the alternative names. -/
theorem Covers.congr {name name' cn cn' : Bytes} {san san' : List Bytes} (h : Covers name cn san)
    (hn : Same name name') (hcn : Same cn cn') (hsan : ∀ s ∈ san, ∃ s' ∈ san', Same s s') :
    Covers name' cn' san' := by
  obtain ⟨pat, hpat, hmatch⟩ := h
  rcases List.mem_cons.mp hpat with rfl | hs
  · exact ⟨cn', List.mem_cons_self, hmatch.congr hn hcn⟩
  · obtain ⟨s', hs', hsame⟩ := hsan pat hs
    exact ⟨s', List.mem_cons_of_mem cn' hs', hmatch.congr hn hsame⟩

theorem matches_wildcard {name suffix : Bytes} :
    Matches name (chr '*' :: chr '.' :: suffix) ↔
      ∃ label rest, name = label ++ chr '.' :: rest ∧ label ≠ [] ∧ chr '.' ∉ label ∧
        Same rest suffix := by
  constructor
  · intro h
    cases h with
    | same _ hs =>
      obtain ⟨dotted, rfl, hd⟩ := (same_cons (by decide) (by decide)).mp hs
      obtain ⟨rest, rfl, hr⟩ := (same_cons (by decide) (by decide)).mp hd
      exact ⟨[chr '*'], rest, rfl, by simp, by decide, hr⟩
    | wildcard hl hd hs => exact ⟨_, _, rfl, hl, hd, hs⟩
  · rintro ⟨label, rest, rfl, hl, hd, hs⟩
    exact .wildcard hl hd hs

end ByeByeVpn.DnsName

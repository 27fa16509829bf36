import ByeByeVpn.Core.JsonTermination

/-!
# An object in the middle of a text

The scanner of the brackets keeps a stack of what is open. Where it comes to an
object of a text, it goes on as it would with that object alone, until the
first brace that is closed.
-/

namespace ByeByeVpn.JSON.Scan

inductive InObject : List Frame → Prop
  | base {f : Frame} (hf : f ≠ .element) : InObject [f]
  | push {f : Frame} {stack : List Frame} (h : InObject stack) : InObject (f :: stack)

/-- The scanner does the same in an object as where `below` is open around it. -/
inductive Beside (below : List Frame) : Scan → Scan → Prop
  | stopped : Beside below (.stopped false) (.stopped false)
  | reading {m : Mode} {stack : List Frame} (h : InObject stack) :
      Beside below (.reading m stack) (.reading m (stack ++ below))

variable {below stack : List Frame} {f : Frame} {c : UInt8} {m : Mode} {s s' : Scan}

theorem InObject.next (h : InObject (f :: stack)) : InObject (f.next :: stack) := by
  cases h with
  | base hf =>
    refine .base ?_
    cases f with
    | element => exact absurd rfl hf
    | key | value => simp [Frame.next]
  | push h => exact .push h

theorem InObject.comma (h : InObject (f :: stack)) : InObject (f.comma :: stack) := by
  cases h with
  | base hf =>
    refine .base ?_
    cases f with
    | element => exact absurd rfl hf
    | key | value => simp [Frame.comma]
  | push h => exact .push h

theorem after_beside (h : InObject stack) :
    Beside below (after stack) (after (stack ++ below)) := by
  cases stack with
  | nil => cases h
  | cons f stack => exact .reading h.next

theorem atToken_beside (h : InObject stack) (hc : c ≠ chr '\x7d') :
    Beside below (atToken stack c) (atToken (stack ++ below) c) := by
  cases stack with
  | nil => cases h
  | cons f stack =>
    dsimp only [atToken, List.cons_append]
    split_ifs
    · exact .reading h
    · exact .reading h
    · exact .reading h.push
    · exact .reading h.push
    · unfold atOther
      split_ifs with _ hcloser
      · exact .reading h.comma
      · cases h with
        | base hf =>
          cases f with
          | element => exact absurd rfl hf
          | key | value => exact absurd hcloser hc
        | push h => exact after_beside h
      · exact .stopped
      · exact .reading h
      · exact .reading h

theorem feed_beside (h : Beside below s s') (hc : c ≠ chr '\x7d') :
    Beside below (feed s c) (feed s' c) := by
  cases h with
  | stopped => exact .stopped
  | @reading m stack h =>
    cases m with
    | token => exact atToken_beside h hc
    | string =>
      dsimp only [feed]
      split_ifs
      · exact .reading h
      · exact after_beside h
      · exact .reading h
    | escaped => exact .reading h
    | scalar =>
      cases stack with
      | nil => cases h
      | cons f stack =>
        dsimp only [feed, List.cons_append]
        split_ifs
        · exact atToken_beside h.next hc
        · exact .reading h

theorem foldl_beside {b : Bytes} (h : Beside below s s') (hb : chr '\x7d' ∉ b) :
    Beside below (b.foldl feed s) (b.foldl feed s') := by
  induction b generalizing s s' with
  | nil => exact h
  | cons c b ih =>
    rw [List.mem_cons, not_or] at hb
    exact ih (feed_beside h (Ne.symm hb.1)) hb.2

theorem after_ne (stack : List Frame) : after stack ≠ .stopped false := by
  cases stack <;> simp [after]

theorem feed_closer_ne (h : Beside below s s') (hs : feed s' (chr '\x7d') ≠ .stopped false) :
    feed s (chr '\x7d') ≠ .stopped false := by
  have hclose (f : Frame) (stack stack' : List Frame)
      (hf : atToken (f :: stack') (chr '\x7d') ≠ .stopped false) :
      atToken (f :: stack) (chr '\x7d') ≠ .stopped false := by
    cases f with
    | element => exact absurd rfl hf
    | key | value => exact after_ne stack
  cases h with
  | stopped => exact hs
  | @reading m stack h =>
    cases stack with
    | nil => cases h
    | cons f stack =>
      cases m with
      | token => exact hclose f _ _ hs
      | string =>
        dsimp only [feed]
        rw [if_neg (by decide), if_neg (by decide)]
        simp
      | escaped => simp [feed]
      | scalar => exact hclose f.next _ _ hs

theorem fits_append (s : Scan) (a b : Bytes) : fits s (a ++ b) = fits (a.foldl feed s) b := by
  rw [fits, fits, List.foldl_append]

theorem ne_of_fits {b : Bytes} (h : fits s b = true) : s ≠ .stopped false := by
  rintro rfl
  rw [fits_stopped] at h
  cases h

/-- An object of the text, up to the first brace that is closed, fits by itself. -/
theorem fits_object {pre mid post : Bytes} (hmid : chr '\x7d' ∉ mid)
    (hpre : pre.foldl feed (.reading .token []) = .reading .token stack)
    (h : closersFit (pre ++ chr '\x7b' :: (mid ++ chr '\x7d' :: post)) = true) :
    closersFit (chr '\x7b' :: (mid ++ [chr '\x7d'])) = true := by
  rw [closersFit, fits_append, hpre, fits_cons, fits_append, fits_cons] at h
  have hbeside : Beside stack (.reading .token [.key]) (.reading .token (.key :: stack)) :=
    .reading (.base (by decide))
  have hne := feed_closer_ne (foldl_beside hbeside hmid) (ne_of_fits h)
  rw [closersFit, fits_cons, fits_append, fits, bne_iff_ne]
  exact hne

end ByeByeVpn.JSON.Scan

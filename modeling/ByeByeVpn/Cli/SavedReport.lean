import ByeByeVpn.Cli.Arguments
import ByeByeVpn.Cli.Commands

/-!
# The saved report (`main.cpp`)

`--save` asks for a report, and may be followed by the path to save it under.
Without a path the name is made from the target.
-/

namespace ByeByeVpn

def kSave : Bytes := ascii "--save"

/-- A `--save`, with the path behind it if there is one. -/
def saveOption (a : Bytes) (next : Option Bytes) : Option (Option Bytes) :=
  if a = kSave then some (next.filter isPath) else none

def savedPaths (args : List Bytes) : List Bytes := (optionsOf saveOption args).filterMap id

-- ---------------------------------------------------------------------------
-- The path
-- ---------------------------------------------------------------------------

def Config.saved (c : Config) : Bool × Bytes := (c.saveRequested, c.savePath)

def saveAs (saved : Bool × Bytes) (path : Option Bytes) : Bool × Bytes :=
  (true, path.getD saved.2)

theorem saveOption_of_not_dashed {v : Bytes} {next : Option Bytes} (h : isDashed v = false) :
    saveOption v next = none := by
  refine if_neg fun hv => ?_
  have hdash : isDashed kSave = true := by decide
  exact Bool.false_ne_true (h.symm.trans (hv ▸ hdash))

theorem saved_of_tookArg {c c' : Config} {a : Bytes} {next : Option Bytes} {used : Bool}
    (h : TookArg c next a c' used) :
    c'.saved = (saveOption a next).elim c.saved (saveAs c.saved) ∧
      ∀ o ∈ saveOption a next, ∀ path ∈ o, isPath path = true := by
  have other (hnone : saveOption a next = none) (hsame : c'.saved = c.saved) :
      c'.saved = (saveOption a next).elim c.saved (saveAs c.saved) ∧
        ∀ o ∈ saveOption a next, ∀ path ∈ o, isPath path = true := by
    rw [hnone]
    exact ⟨hsame, fun o ho => by cases ho⟩
  cases h with
  | @saveTo path hnext hpath =>
    have hoption : saveOption (ascii "--save") next = some (some path) := by
      rw [hnext]
      exact congrArg some (Option.filter_some_pos hpath)
    rw [hoption]
    refine ⟨rfl, fun o ho p hp => ?_⟩
    obtain rfl := Option.some.inj ho
    exact Option.some.inj hp ▸ hpath
  | save hnext =>
    have hoption : saveOption (ascii "--save") next = some none :=
      congrArg some (Option.filter_eq_none_iff.mpr fun path hpath => by simp [hnext path hpath])
    rw [hoption]
    refine ⟨rfl, fun o ho p hp => ?_⟩
    obtain rfl := Option.some.inj ho
    cases hp
  | range _ hv =>
    obtain ⟨globals, rfl⟩ := parseRange_frame hv
    exact other rfl rfl
  | ports _ hv =>
    obtain ⟨globals, rfl⟩ := parsePorts_frame hv
    exact other rfl rfl
  | verbose ha => rcases ha with rfl | rfl <;> exact other rfl rfl
  | positional ha =>
    refine other (if_neg ?_) rfl
    rintro rfl
    exact ha (by decide)
  | _ => exact other rfl rfl

theorem foldl_saveAs (options : List (Option Bytes)) (saved : Bool × Bytes) :
    options.foldl saveAs saved =
      (saved.1 || !options.isEmpty, (options.filterMap id).getLast?.getD saved.2) := by
  induction options generalizing saved with
  | nil => simp
  | cons o options ih =>
    rw [List.foldl_cons, ih]
    cases o with
    | none => simp [saveAs]
    | some path => simp [saveAs, List.getLast?_cons]

theorem optionsOf_saveOption (args : List Bytes) :
    (optionsOf saveOption args).isEmpty = !decide (kSave ∈ args) := by
  induction args with
  | nil => rfl
  | cons a args ih =>
    by_cases ha : a = kSave
    · simp [optionsOf, saveOption, ha]
    · simpa [optionsOf, saveOption, ha, Ne.symm ha] using ih

theorem saved_parseArgs {c : Config} {args : List Bytes} (h : parseArgs {} args = .ok c) :
    c.saved = (decide (kSave ∈ args), (savedPaths args).getLast?.getD []) ∧
      ∀ path ∈ savedPaths args, isPath path = true := by
  obtain ⟨hsaved, hvalid⟩ := parseArgs_options saved_of_tookArg saveOption_of_not_dashed h
  rw [foldl_saveAs, optionsOf_saveOption, Bool.not_not] at hsaved
  refine ⟨hsaved, fun path hpath => ?_⟩
  obtain ⟨o, ho, hid⟩ := List.mem_filterMap.mp hpath
  exact hvalid o ho path hid

-- ---------------------------------------------------------------------------
-- The name of the report
-- ---------------------------------------------------------------------------

/-- What the target is called in a name: a missing one is called "scan". -/
def calledAs (target : Bytes) : Bytes := if target.isEmpty then ascii "scan" else target

theorem defaultSavePath_eq (target : Bytes) : defaultSavePathForTarget target =
    ascii "byebyevpn-" ++ safeName (calledAs target) ++ ascii ".md" := by
  unfold defaultSavePathForTarget calledAs
  split_ifs <;> rfl

theorem isFileUnsafe_safeName {c : UInt8} {target : Bytes} (h : c ∈ safeName target) :
    isFileUnsafe c = false := by
  obtain ⟨d, -, rfl⟩ := List.mem_map.mp h
  cases hd : isFileUnsafe d with
  | true =>
    rw [if_pos rfl]
    decide
  | false => simpa using hd

/-- Characters that give the same one in a file name. -/
def FileAlike (c d : UInt8) : Prop :=
  c = d ∨ (isFileUnsafe c = true ∨ c = chr '_') ∧ (isFileUnsafe d = true ∨ d = chr '_')

theorem safeName_eq_iff (t u : Bytes) : safeName t = safeName u ↔ List.Forall₂ FileAlike t u := by
  rw [safeName, safeName, ← List.forall₂_eq_eq_eq, List.forall₂_map_left_iff,
    List.forall₂_map_right_iff]
  have hunderscore : isFileUnsafe (chr '_') = false := by decide
  have halike : ∀ c d : UInt8, ((if isFileUnsafe c then chr '_' else c) =
      if isFileUnsafe d then chr '_' else d) ↔ FileAlike c d := fun c d => by
    unfold FileAlike
    split_ifs <;> grind
  simp only [halike]

theorem savePath_eq {c : Config} {args : List Bytes} (h : parseArgs {} args = .ok c) :
    savePath c =
      if kSave ∈ args then
        some ((savedPaths args).getLast?.getD
          (defaultSavePathForTarget (extractTargetArg c.pos)))
      else none := by
  obtain ⟨hsaved, hpaths⟩ := saved_parseArgs h
  have hrequested : c.saveRequested = decide (kSave ∈ args) := congrArg Prod.fst hsaved
  have hpath : c.savePath = (savedPaths args).getLast?.getD [] := congrArg Prod.snd hsaved
  unfold savePath
  simp only [hrequested, decide_eq_true_eq, hpath]
  refine if_congr Iff.rfl (congrArg some ?_) rfl
  cases hlast : (savedPaths args).getLast? with
  | none => rfl
  | some path =>
    have hpath := hpaths path (List.mem_of_getLast? hlast)
    refine if_neg fun hempty => ?_
    rw [isPath, show path.isEmpty = true from hempty] at hpath
    cases hpath

/-- A report is saved exactly if the arguments ask for it. Its path is the last
one they name; without any it is a file of the current directory that is named
after the target, and two targets share the name exactly if they are called
alike. -/
theorem savedReport {c : Config} {args : List Bytes} (h : parseArgs {} args = .ok c) :
    ((savePath c).isSome ↔ kSave ∈ args) ∧
    (∀ path ∈ savePath c, path = (savedPaths args).getLast?.getD
      (defaultSavePathForTarget (extractTargetArg c.pos))) ∧
    ∀ t, (∀ b ∈ defaultSavePathForTarget t, isFileUnsafe b = false) ∧
      ascii "byebyevpn-" <+: defaultSavePathForTarget t ∧
      ascii ".md" <:+ defaultSavePathForTarget t ∧
      ∀ u, defaultSavePathForTarget t = defaultSavePathForTarget u ↔
        List.Forall₂ FileAlike (calledAs t) (calledAs u) := by
  rw [savePath_eq h]
  refine ⟨by simp, fun path hpath => ?_, fun t => ?_⟩
  · split_ifs at hpath with hsave
    · exact (Option.some.inj hpath).symm
    · cases hpath
  rw [defaultSavePath_eq]
  refine ⟨fun b hb => ?_, ?_, List.suffix_append _ _, fun u => ?_⟩
  · have hbefore : (ascii "byebyevpn-").all (!isFileUnsafe ·) = true := by decide
    have hafter : (ascii ".md").all (!isFileUnsafe ·) = true := by decide
    rcases List.mem_append.mp hb with hb | hb
    · rcases List.mem_append.mp hb with hb | hb
      · simpa using List.all_eq_true.mp hbefore b hb
      · exact isFileUnsafe_safeName hb
    · simpa using List.all_eq_true.mp hafter b hb
  · rw [List.append_assoc]
    exact List.prefix_append _ _
  · rw [defaultSavePath_eq, List.append_cancel_right_eq, List.append_cancel_left_eq,
      safeName_eq_iff]

theorem savedReport_twice :
    savePath { saveRequested := true, savePath := ascii "b.md", pos := [ascii "host"] } =
      some (ascii "b.md") := by
  have hargs : parseArgs {} (["--save", "a.md", "host", "--save", "b.md"].map ascii) =
      .ok { saveRequested := true, savePath := ascii "b.md", pos := [ascii "host"] } := by rfl
  obtain ⟨hasked, hpath, -⟩ := savedReport hargs
  obtain ⟨path, hsome⟩ := Option.isSome_iff_exists.mp (hasked.mpr (by decide))
  rw [hsome, hpath path hsome]
  decide

end ByeByeVpn

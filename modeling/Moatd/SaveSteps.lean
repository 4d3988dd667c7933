import Moatd.Startup

/-!
# A save, one file operation at a time

`store::save` makes the directory, serialises the list, removes an old temporary file,
creates a new one, writes the text in as many pieces as the system takes it, and renames the
file over the rules file.  Any of these may fail, and the daemon may be killed between any
two of them.  A save that comes to its end has done what `save` says, and until its rename
the rules file is the old one.

The mode of the directory and the flush before the rename are left out: the code ignores
whether they fail.
-/

namespace Moatd

open Runs

/-- How a file operation goes; a write takes so many characters. -/
inductive FileResult
  | fails
  | succeeds (written : Nat)

/-- What `save` does next. -/
inductive Saving
  | createDir
  | removeTmp (body : String)
  | createTmp (body : String)
  | write (written left : List Char)
  | rename
  | done (result : Except SaveError Unit)

/-- `write_all` goes on until nothing is left. -/
def Saving.writing (written left : List Char) : Saving :=
  if left = [] then .rename else .write written left

variable (toml : Toml)

/-- One file operation of `save`, which fails or succeeds. -/
def Saving.step (d : OnDisk) : Saving × RulesDir → FileResult → Saving × RulesDir
  | (.createDir, dir), .fails => (.done (.error (.io .createDir)), dir)
  | (.createDir, dir), .succeeds _ =>
    match toml.toStringPretty d with
    | .error e => (.done (.error (.serialize e)), dir)
    | .ok body => (.removeTmp body, dir)
  | (.removeTmp body, dir), .fails => (.createTmp body, dir)
  | (.removeTmp body, dir), .succeeds _ => (.createTmp body, { dir with tmpFile := none })
  | (.createTmp _, dir), .fails => (.done (.error (.io .createTmp)), dir)
  | (.createTmp body, dir), .succeeds _ =>
    match dir.tmpFile with
    | some _ => (.done (.error (.io .createTmp)), dir)
    | none => (.writing [] body.toList, { dir with tmpFile := some "" })
  | (.write written _, dir), .fails => (.done (.error (.io (.write written.length))), dir)
  | (.write written left, dir), .succeeds n =>
    -- a write that takes nothing is an error of its own
    if n = 0 then (.done (.error (.io (.write written.length))), dir)
    else (.writing (written ++ left.take n) (left.drop n),
      { dir with tmpFile := dir.tmpFile.map (· ++ String.ofList (left.take n)) })
  | (.rename, dir), .fails => (.done (.error (.io .rename)), dir)
  | (.rename, dir), .succeeds _ =>
    match dir.tmpFile with
    | none => (.done (.error (.io .rename)), dir)
    | some text => (.done (.ok ()), ⟨some text, none⟩)
  | (.done r, dir), _ => (.done r, dir)

/-- Where a save stands that began in this directory. -/
def Saving.Reached (d : OnDisk) (start dir : RulesDir) : Saving → Prop
  | .createDir => dir = start
  | .removeTmp body => toml.toStringPretty d = .ok body ∧ dir.rulesFile = start.rulesFile
  | .createTmp body => toml.toStringPretty d = .ok body ∧ dir.rulesFile = start.rulesFile
  | .write written left => toml.toStringPretty d = .ok (String.ofList (written ++ left)) ∧
      dir = ⟨start.rulesFile, some (String.ofList written)⟩
  | .rename => ∃ body, toml.toStringPretty d = .ok body ∧ dir = ⟨start.rulesFile, some body⟩
  | .done r => ∃ fault, r = (save toml fault start d).1 ∧
      dir.rulesFile = (save toml fault start d).2.rulesFile ∧ (r = .ok () → dir.tmpFile = none)

variable {toml} {d : OnDisk} {start dir : RulesDir}

theorem Saving.reached_writing {written left : List Char}
    (htext : toml.toStringPretty d = .ok (String.ofList (written ++ left)))
    (hdir : dir = ⟨start.rulesFile, some (String.ofList written)⟩) :
    (Saving.writing written left).Reached toml d start dir := by
  unfold Saving.writing
  by_cases hleft : left = []
  · rw [if_pos hleft]
    rw [hleft, List.append_nil] at htext
    exact ⟨_, htext, hdir⟩
  · rw [if_neg hleft]
    exact ⟨htext, hdir⟩

/-- A save that fails at an operation behind the serialising. -/
theorem Saving.reached_failed {body : String} (htext : toml.toStringPretty d = .ok body)
    (hdir : dir.rulesFile = start.rulesFile) (fault : SaveFault) (hfault : fault ≠ .createDir) :
    (Saving.done (.error (.io fault))).Reached toml d start dir := by
  refine ⟨some fault, ?_⟩
  rw [save, if_neg (by simpa using hfault), htext, hdir]
  cases fault with
  | createDir => exact absurd rfl hfault
  | createTmp | write n | rename => exact ⟨rfl, rfl, by simp⟩

/-- **Step.** -/
theorem Saving.Reached.step {saving : Saving} (h : saving.Reached toml d start dir)
    (result : FileResult) :
    (Saving.step toml d (saving, dir) result).1.Reached toml d start
      (Saving.step toml d (saving, dir) result).2 := by
  cases saving with
  | createDir =>
    subst h
    cases result with
    | fails => exact ⟨some .createDir, by simp [Saving.step, save]⟩
    | succeeds n =>
      simp only [Saving.step]
      cases htext : toml.toStringPretty d with
      | error e => exact ⟨none, by simp [save, htext]⟩
      | ok body => exact ⟨htext, rfl⟩
  | removeTmp body => cases result <;> exact h
  | createTmp body =>
    obtain ⟨htext, hdir⟩ := h
    cases result with
    | fails => exact reached_failed htext hdir .createTmp (by simp)
    | succeeds n =>
      simp only [Saving.step]
      cases dir.tmpFile with
      | some text => exact reached_failed htext hdir .createTmp (by simp)
      | none =>
        refine reached_writing ?_ ?_
        · rw [htext, List.nil_append, String.ofList_toList]
        · rw [hdir]
  | write written left =>
    obtain ⟨htext, rfl⟩ := h
    cases result with
    | fails => exact reached_failed htext (by rfl) (.write written.length) (by simp)
    | succeeds n =>
      simp only [Saving.step]
      by_cases hn : n = 0
      · rw [if_pos hn]
        exact reached_failed htext (by rfl) (.write written.length) (by simp)
      · rw [if_neg hn]
        refine reached_writing ?_ ?_
        · rw [htext, List.append_assoc, List.take_append_drop]
        · simp [String.ofList_append]
  | rename =>
    obtain ⟨body, htext, rfl⟩ := h
    cases result with
    | fails => exact reached_failed htext (by rfl) .rename (by simp)
    | succeeds n => exact ⟨none, by simp [Saving.step, save, htext]⟩
  | done r => exact h

/-- **Run**: a save that comes to its end has done what `save` does where that operation
fails. -/
theorem Saving.reached_after (results : List FileResult) :
    (after (Saving.step toml d) (.createDir, start) results).1.Reached toml d start
      (after (Saving.step toml d) (.createDir, start) results).2 :=
  invariant_after (I := fun p : Saving × RulesDir => p.1.Reached toml d start p.2)
    (fun _ result h => h.step result) results rfl

/-! ### Saves in which nothing fails -/

/-- The most operations that are left. -/
def Saving.remaining (body : String) : Saving → Nat
  | .createDir => body.length + 4
  | .removeTmp _ => body.length + 3
  | .createTmp _ => body.length + 2
  | .write _ left => left.length + 1
  | .rename => 1
  | .done _ => 0

/-- No operation has failed, and an old temporary file is out of the way. -/
def Saving.Smooth (body : String) (dir : RulesDir) : Saving → Prop
  | .createDir => True
  | .removeTmp text => text = body
  | .createTmp text => text = body ∧ dir.tmpFile = none
  | .write written left => left ≠ [] ∧ body = String.ofList (written ++ left) ∧
      dir.tmpFile = some (String.ofList written)
  | .rename => dir.tmpFile = some body
  | .done r => r = .ok () ∧ dir = ⟨some body, none⟩

theorem Saving.smooth_writing {body : String} {written left : List Char}
    (htext : body = String.ofList (written ++ left))
    (htmp : dir.tmpFile = some (String.ofList written)) :
    (Saving.writing written left).Smooth body dir ∧
      (Saving.writing written left).remaining body ≤ left.length + 1 := by
  unfold Saving.writing
  by_cases hleft : left = []
  · rw [if_pos hleft]
    rw [hleft, List.append_nil] at htext
    exact ⟨by rw [htext]; exact htmp, by simp [Saving.remaining]⟩
  · rw [if_neg hleft]
    exact ⟨⟨hleft, htext, htmp⟩, Nat.le_refl _⟩

/-- **Step**: an operation that goes through leaves at least one fewer to do. -/
theorem Saving.Smooth.step {body : String} (htext : toml.toStringPretty d = .ok body)
    {saving : Saving} (h : saving.Smooth body dir) {n : Nat} (hn : n ≠ 0) :
    (Saving.step toml d (saving, dir) (.succeeds n)).1.Smooth body
        (Saving.step toml d (saving, dir) (.succeeds n)).2 ∧
      (Saving.step toml d (saving, dir) (.succeeds n)).1.remaining body ≤
        saving.remaining body - 1 := by
  cases saving with
  | createDir =>
    simp only [Saving.step, htext]
    exact ⟨rfl, Nat.le_refl _⟩
  | removeTmp text => exact ⟨⟨h, rfl⟩, Nat.le_refl _⟩
  | createTmp text =>
    obtain ⟨rfl, htmp⟩ := h
    simp only [Saving.step, htmp]
    have hbody : text = String.ofList ([] ++ text.toList) := by
      rw [List.nil_append, String.ofList_toList]
    obtain ⟨hsmooth, hleft⟩ := smooth_writing hbody
      (show RulesDir.tmpFile { dir with tmpFile := some "" } = some "" from rfl)
    rw [String.length_toList] at hleft
    exact ⟨hsmooth, hleft⟩
  | write written left =>
    obtain ⟨hsome, hbody, htmp⟩ := h
    simp only [Saving.step, if_neg hn, htmp, Option.map_some]
    have hbody' : body = String.ofList ((written ++ left.take n) ++ left.drop n) := by
      rw [hbody, List.append_assoc, List.take_append_drop]
    have htmp' : some (String.ofList written ++ String.ofList (left.take n)) =
        some (String.ofList (written ++ left.take n)) := by
      rw [String.ofList_append]
    obtain ⟨hsmooth, hleft⟩ := smooth_writing hbody' (show RulesDir.tmpFile { dir with
      tmpFile := some (String.ofList written ++ String.ofList (left.take n)) } = _ from htmp')
    refine ⟨hsmooth, hleft.trans ?_⟩
    have hpos : 0 < left.length := List.length_pos_of_ne_nil hsome
    rw [List.length_drop, Saving.remaining]
    omega
  | rename =>
    have htmp : dir.tmpFile = some body := h
    simp only [Saving.step, htmp]
    exact ⟨⟨rfl, rfl⟩, Nat.le_refl _⟩
  | done r => exact ⟨h, Nat.le_refl _⟩

/-- **Run**: where nothing fails, the text replaces the rules file, whatever an earlier save
has left behind. -/
theorem Saving.after_smooth {body : String} (htext : toml.toStringPretty d = .ok body)
    {results : List FileResult} (hall : ∀ r ∈ results, ∃ n, n ≠ 0 ∧ r = .succeeds n)
    {saving : Saving} (h : saving.Smooth body dir)
    (henough : saving.remaining body ≤ results.length) :
    after (Saving.step toml d) (saving, dir) results = (.done (.ok ()), ⟨some body, none⟩) := by
  induction results generalizing saving dir with
  | nil =>
    cases saving with
    | done r =>
      obtain ⟨rfl, rfl⟩ := h
      rfl
    | _ => simp [Saving.remaining] at henough
  | cons r results ih =>
    obtain ⟨hr, hrest⟩ := List.forall_mem_cons.mp hall
    obtain ⟨n, hn, rfl⟩ := hr
    obtain ⟨hsmooth, hless⟩ := h.step htext hn
    rw [List.length_cons] at henough
    refine ih hrest hsmooth (hless.trans ?_)
    omega

end Moatd

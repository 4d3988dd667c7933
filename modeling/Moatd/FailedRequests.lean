import Moatd.SyncOutcome
import Moatd.Runs
import Moatd.Samples

/-!
# What a failed request leaves behind

`add_rule` and its siblings edit the in-memory list first, save it second and
compile it last, and nothing is undone when a later stage fails.  A request
refused by its own checks changes nothing, but one whose save fails keeps its edit
in memory, and one whose list does not compile keeps it in memory, in the rules
file and in `DEFAULT_POLICY`.
-/

namespace Moatd

variable (toml : Toml)

/-- Memory, file, default policy and published rules are what they were. -/
structure Unchanged (s s' : DaemonState) : Prop where
  onDisk : s'.onDisk = s.onDisk
  rulesFile : s'.dir.rulesFile = s.dir.rulesFile
  defaultPolicy : s'.maps.defaultPolicy = s.maps.defaultPolicy
  liveRules : s'.maps.liveRules = s.maps.liveRules

/-- If the request fails other than in a map update, it changes nothing. -/
def FailsClean (s : DaemonState) (l : Request × Env) : Prop :=
  ∀ e, (dispatch toml l.2 s l.1).1 = .err e → e.isMap = false → Unchanged s (serve toml s l)

/-- The condition on a request: unless its checks refuse it, the edited list is
saved and compiles, or the edit is none.  The request may also stop at one of the
two default-policy updates, before anything is compiled. -/
def Harmless (s : DaemonState) (l : Request × Env) : Prop :=
  l.1.mutates = true → ∀ d, l.1.edit s.onDisk = .ok d →
    if saves toml l.2.saveFault d = true then
      (l.2.failAt = some 0 ∨ l.2.failAt = some 1) ∨ (∀ rule ∈ d.rules, rule.compiles = true) ∨
        (d = s.onDisk ∧ s.dir.Holds toml d ∧ s.maps.HasDefaults d)
    else d = s.onDisk

/-! ### What a sync that does not compile writes -/

theorem foldl_defaultsWrites (m : Maps) (d : OnDisk) :
    (defaultsWrites d).foldl Maps.write m =
      { m with defaultPolicy := fun slot =>
          if slot = policyOut then actionByte d.defaultOut
          else if slot = policyIn then actionByte d.defaultIn else m.defaultPolicy slot } := by
  simp [defaultsWrites, Maps.write]

/-- Writing the defaults shows unless they were there already. -/
theorem defaultsWrites_defaultPolicy_iff (m : Maps) (d : OnDisk) :
    ((defaultsWrites d).foldl Maps.write m).defaultPolicy = m.defaultPolicy ↔
      m.HasDefaults d := by
  rw [foldl_defaultsWrites]
  constructor
  · intro h
    exact ⟨by simpa [policyIn, policyOut] using (congrFun h policyIn).symm,
      by simpa using (congrFun h policyOut).symm⟩
  · rintro ⟨hin, hout⟩
    funext slot
    by_cases h1 : slot = policyOut
    · simp [h1, hout]
    · by_cases h0 : slot = policyIn
      · subst h0
        simp [h1, hin]
      · simp [h0, h1]

theorem defaultsWrites_liveRules (m : Maps) (d : OnDisk) :
    ((defaultsWrites d).foldl Maps.write m).liveRules = m.liveRules := by
  rw [foldl_defaultsWrites]
  rfl

/-! ### The condition is exact -/

theorem unchanged_cleared (s : DaemonState) : Unchanged s { s with writes := [] } :=
  ⟨rfl, rfl, rfl, rfl⟩

/-- A failed save leaves the edit in memory and nothing else. -/
theorem unchanged_saveFail_iff (s : DaemonState) (d : OnDisk) (tmp : Option String) :
    Unchanged s { s with onDisk := d, dir := { s.dir with tmpFile := tmp }, writes := [] } ↔
      d = s.onDisk :=
  ⟨fun h => h.onDisk, fun h => ⟨h, rfl, rfl, rfl⟩⟩

/-- A sync that stops at the compilation leaves the edit in memory, in the file
and in the default policy. -/
theorem unchanged_compileFail_iff (s : DaemonState) (d : OnDisk) {text : String}
    (htext : toml.toStringPretty d = .ok text) :
    Unchanged s (({ s with onDisk := d, dir := ⟨some text, none⟩, writes := [] } :
        DaemonState).applied (defaultsWrites d)) ↔
      d = s.onDisk ∧ s.dir.Holds toml d ∧ s.maps.HasDefaults d := by
  constructor
  · rintro ⟨honDisk, hfile, hpolicy, -⟩
    exact ⟨honDisk, ⟨text, htext, hfile.symm⟩,
      (defaultsWrites_defaultPolicy_iff s.maps d).mp hpolicy⟩
  · rintro ⟨honDisk, ⟨text', htext', hfile⟩, hdefaults⟩
    rw [htext, Except.ok.injEq] at htext'
    subst htext'
    exact ⟨honDisk, hfile.symm, (defaultsWrites_defaultPolicy_iff s.maps d).mpr hdefaults,
      defaultsWrites_liveRules s.maps d⟩

theorem failsClean_iff_harmless (s : DaemonState) (l : Request × Env) :
    FailsClean toml s l ↔ Harmless toml s l := by
  obtain ⟨req, env⟩ := l
  unfold FailsClean Harmless serve
  have hcase := dispatch_cases toml env s req
  generalize dispatch toml env s req = out at hcase
  cases hcase with
  | query resp hmut _ herr =>
    simp only [hmut]
    exact ⟨fun _ h => (by cases h), fun _ e he => absurd he (herr e)⟩
  | refused e hmut hedit =>
    simp only [hedit]
    exact ⟨fun _ _ d hd => (by cases hd), fun _ _ _ _ => unchanged_cleared s⟩
  | saveFail d e tmp hmut hedit hsave =>
    simp only [hedit, hmut, hsave, Except.ok.injEq, forall_eq', forall_const, Bool.false_eq_true,
      if_false, ← unchanged_saveFail_iff s d tmp]
    exact ⟨fun h => h (.save e) rfl rfl, fun h _ _ _ => h⟩
  | synced d text r hmut hedit hsave htext hsync =>
    simp only [hedit, hmut, hsave, Except.ok.injEq, forall_eq', forall_const, if_true]
    cases hsync with
    | defaultFail k w hk hfail =>
      -- the error is one of a map update, and it comes before the compilation
      refine ⟨fun _ => Or.inl ?_, fun _ e he hmap => ?_⟩
      · rw [hfail]
        obtain rfl | rfl : k = 0 ∨ k = 1 := by omega
        · exact Or.inl rfl
        · exact Or.inr rfl
      · cases he
        cases hmap
    | rules hfail h =>
      have h0 : env.failAt ≠ some 0 := hfail 0 (by omega)
      have h1 : env.failAt ≠ some 1 := hfail 1 (by omega)
      cases h with
      | compileFail e hcompile =>
        have hbad : ¬ ∀ rule ∈ d.rules, rule.compiles = true :=
          (compileRules_isError_iff env.net 0 d.rules).mp ⟨e, hcompile⟩
        rw [← unchanged_compileFail_iff toml s d htext]
        simp only [h0, h1, hbad, or_self, false_or]
        exact ⟨fun h => h (.wire e) rfl rfl, fun h _ _ _ => h⟩
      | slotFail rules k w hcompile | configFail rules w hcompile =>
        refine ⟨fun _ => Or.inr (Or.inl (compiles_of_compileRules hcompile)), fun _ e he hmap => ?_⟩
        cases he
        cases hmap
      | done rules hcompile =>
        refine ⟨fun _ => Or.inr (Or.inl (compiles_of_compileRules hcompile)), fun _ e he => ?_⟩
        cases he

/-- **Exactly the harmless requests fail clean.**  Along a run, every request that
fails (refused, not saved, or not compiled) changes nothing if and only if every
request of the run is harmless at the state it meets. -/
theorem along_failsClean_iff (s : DaemonState) (run : List (Request × Env)) :
    Runs.Along (serve toml) (FailsClean toml) s run ↔
      Runs.Along (serve toml) (Harmless toml) s run :=
  Runs.along_congr_of_invariant (I := fun _ => True) (fun _ _ _ _ => trivial)
    (fun s l _ => failsClean_iff_harmless toml s l) run trivial

theorem freshDaemon_onDisk : freshDaemon.onDisk = {} :=
  (syncAll_cases { net := noNet } (boot [] noFile {})).frame.1

/-- A rule that does not compile is refused and yet stays in the list. -/
theorem icmpPortRule_not_failsClean :
    ¬ Runs.Along (serve (sampleToml sampleLists)) (FailsClean (sampleToml sampleLists)) freshDaemon
      [(.addRule icmpPortRule, { net := noNet })] := by
  rintro ⟨hclean, -⟩
  have hharm := (failsClean_iff_harmless _ _ _).mp hclean rfl { rules := [icmpPortRule] }
    (by rw [freshDaemon_onDisk]; rfl)
  rw [if_pos (sampleToml_saves _ _)] at hharm
  rcases hharm with (h | h) | h | ⟨h, -⟩
  · cases h
  · cases h
  · have := h icmpPortRule (by simp)
    rw [icmpPortRule_not_compiles] at this
    cases this
  · rw [freshDaemon_onDisk] at h
    cases h

end Moatd

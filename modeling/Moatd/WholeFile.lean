import Moatd.Enforcement
import Moatd.Startup

/-!
# Enforcing the whole file

Only `add_rule` knows the limit of the list.  What startup loads may be longer, and then
`sync_rules` and `write_config` cut it off by themselves: startup succeeds, and the rules
behind the limit are not there.
-/

namespace Moatd

variable (toml : Toml)

/-- Startup does justice to the list `d` it has loaded: if its sync succeeds, the data path
enforces all of it; and it does not succeed with a list the data path cannot hold. -/
structure EnforcesFile (env : Env) (unreadable : Bool) (attached : List String) (dir : RulesDir)
    (d : OnDisk) : Prop where
  whole : (runDaemon toml env unreadable attached dir).1 = .ok () →
    Enforces env.net (runDaemon toml env unreadable attached dir).2.maps d
  held : (runDaemon toml env unreadable attached dir).1 = .ok () → d.rules.length ≤ rulesMax

/-- A list that startup cannot sync: one of its rules does not compile, or one of its map
updates fails. -/
def SyncFails (env : Env) (d : OnDisk) : Prop :=
  (∃ rule ∈ d.rules, rule.compiles = false) ∨ ∃ k < syncLength d, env.failAt = some k

section Loaded
variable {toml} {env : Env} {unreadable : Bool} {attached : List String} {dir : RulesDir}
  {d : OnDisk}

theorem runDaemon_eq (hload : load toml unreadable dir = .ok d) :
    runDaemon toml env unreadable attached dir = syncAll env (boot attached dir d) := by
  rw [runDaemon, loadOrDefault, hload]

theorem runDaemon_ok_iff (hload : load toml unreadable dir = .ok d) :
    (runDaemon toml env unreadable attached dir).1 = .ok () ↔ ¬ SyncFails env d := by
  rw [runDaemon_eq hload, syncAll_ok_iff, SyncFails, not_or]
  refine and_congr ?_ ?_
  · simp [boot]
  · simp only [not_exists, not_and, boot, List.length_nil, Nat.zero_add]

/-- After a startup that succeeds the walk gives the verdict of the rules up to the
limit. -/
theorem runDaemon_publishes (hload : load toml unreadable dir = .ok d)
    (hok : (runDaemon toml env unreadable attached dir).1 = .ok ()) :
    ∃ rules, compileRules env.net 0 d.rules = .ok rules ∧
      (runDaemon toml env unreadable attached dir).2.maps.Publishes d
        (boot attached dir d).activeBank.other rules := by
  rw [runDaemon_eq hload] at hok ⊢
  obtain ⟨rules, hcompile, hstate⟩ := (syncAll_cases env (boot attached dir d)).of_ok hok
  refine ⟨rules, hcompile, ?_⟩
  rw [hstate]
  exact publishes_sync _ _ _ _

/-- **When startup does justice to the file**: if the data path can hold the list, or
startup fails over it anyway. -/
theorem enforcesFile_iff (hload : load toml unreadable dir = .ok d) :
    EnforcesFile toml env unreadable attached dir d ↔
      d.rules.length ≤ rulesMax ∨ SyncFails env d := by
  constructor
  · intro h
    by_cases hfails : SyncFails env d
    · exact Or.inr hfails
    · exact Or.inl (h.held ((runDaemon_ok_iff hload).mpr hfails))
  · rintro (hlen | hfails)
    · refine ⟨fun hok => ?_, fun _ => hlen⟩
      obtain ⟨rules, hcompile, hpublishes⟩ := runDaemon_publishes hload hok
      exact hpublishes.enforces hcompile hlen
    · exact ⟨fun hok => absurd hfails ((runDaemon_ok_iff hload).mp hok),
        fun hok => absurd hfails ((runDaemon_ok_iff hload).mp hok)⟩

end Loaded

/-- A list that has been written is loaded. -/
theorem load_written (d : OnDisk) :
    load (sampleToml [d]) false ⟨some (tomlText d), none⟩ = .ok d :=
  load_of_roundTrips _ (sampleToml_roundTrips (by simp)) (by simp [sampleToml]) none

/-- A file with rules of both directions and defaults of its own. -/
def mixedFile : OnDisk where
  rules := [denyTelnetIn, sshRule,
    { sshRule with direction := .outbound, dst := some "10.0.0.0/8" },
    { direction := .outbound, action := .deny, proto := some .udp }]
  defaultIn := .deny

/-- Its directory. -/
def mixedFileDir : RulesDir := ⟨some (tomlText mixedFile), none⟩

/-- Startup succeeds with the list, and the data path enforces it. -/
theorem mixedFile_enforced :
    (runDaemon (sampleToml [mixedFile]) { net := noNet } false [] mixedFileDir).1 = .ok () ∧
      EnforcesFile (sampleToml [mixedFile]) { net := noNet } false [] mixedFileDir mixedFile := by
  have hload : load (sampleToml [mixedFile]) false mixedFileDir = .ok mixedFile :=
    load_written mixedFile
  refine ⟨?_, (enforcesFile_iff hload).mpr (Or.inl (by decide))⟩
  rw [runDaemon_eq hload, syncAll_ok_iff_compiles]
  decide

/-- A file with one rule too many: it denies Telnet. -/
def longFile : OnDisk := { rules := List.replicate rulesMax sshRule ++ [denyTelnetIn] }

/-- Its directory. -/
def longFileDir : RulesDir := ⟨some (tomlText longFile), none⟩

/-- A packet of a connection to port 23. -/
def telnetSyn : Parsed :=
  ⟨familyV4, protoTcp, 0, Addr.ofList [10, 0, 0, 1], Addr.ofList [10, 0, 0, 2], 40000, 23⟩

theorem longFile_load : load (sampleToml [longFile]) false longFileDir = .ok longFile :=
  load_written longFile

theorem longFile_starts :
    (runDaemon (sampleToml [longFile]) { net := noNet } false [] longFileDir).1 = .ok () := by
  rw [runDaemon_eq longFile_load, syncAll_ok_iff_compiles]
  intro rule hrule
  rcases List.mem_append.mp hrule with hrule | hrule
  · rw [List.eq_of_mem_replicate hrule]
    exact sshRule_compiles
  · rw [List.mem_singleton.mp hrule]
    decide

theorem longFile_rule {k : Nat} (hk : k < rulesMax) : longFile.rules[k]? = some sshRule := by
  rw [longFile, List.getElem?_append_left (by rwa [List.length_replicate]),
    List.getElem?_replicate, if_pos hk]

/-- A rule for port 22 has nothing to say about Telnet. -/
theorem sshRule_misses_telnetSyn {rule : Rule} (h : buildWireRule sshRule ifaceAny = .ok rule) :
    rule.matches dirIn 1 telnetSyn = false := by
  have hmap : (buildWireRule sshRule ifaceAny).map (fun r => r.matches dirIn 1 telnetSyn) =
      .ok false := by decide
  rw [h] at hmap
  exact Except.ok.inj hmap

/-- The last rule denies Telnet, startup succeeds, and Telnet is let in. -/
theorem longFile_not_enforced :
    load (sampleToml [longFile]) false longFileDir = .ok longFile ∧
      longFile.Hits noNet .inbound 1 telnetSyn rulesMax ∧
      walkRules (runDaemon (sampleToml [longFile]) { net := noNet } false [] longFileDir).2.maps
        dirIn 1 telnetSyn = (actAllow, ruleIdDefault) ∧
      ¬ EnforcesFile (sampleToml [longFile]) { net := noNet } false [] longFileDir longFile := by
  have hhits : longFile.Hits noNet .inbound 1 telnetSyn rulesMax := by
    refine ⟨denyTelnetIn, _, ?_, rfl, by decide⟩
    rw [longFile, List.getElem?_append_right (by rw [List.length_replicate]),
      List.length_replicate, Nat.sub_self]
    rfl
  have hwalk : walkRules
      (runDaemon (sampleToml [longFile]) { net := noNet } false [] longFileDir).2.maps
      dirIn 1 telnetSyn = (actAllow, ruleIdDefault) := by
    obtain ⟨rules, hcompile, hpublishes⟩ := runDaemon_publishes longFile_load longFile_starts
    have hmiss : ∀ r ∈ rules.take rulesMax, r.matches dirIn 1 telnetSyn = false := by
      intro r hr
      obtain ⟨k, hk⟩ := List.mem_iff_getElem?.mp hr
      rw [List.getElem?_take] at hk
      split at hk
      · rename_i hlt
        obtain ⟨user, huser, hbuild⟩ := compileRules_rule hcompile hk
        rw [longFile_rule hlt] at huser
        cases huser
        exact sshRule_misses_telnetSyn hbuild
      · cases hk
    rw [hpublishes.walkRules hcompile, verdict, FirstMatch.decide_of_none hmiss]
    exact congrArg (·, ruleIdDefault) (hpublishes.defaults.policySlot .inbound)
  refine ⟨longFile_load, hhits, hwalk, fun h => ?_⟩
  have hlen := h.held longFile_starts
  rw [longFile, List.length_append, List.length_replicate] at hlen
  exact absurd hlen (Nat.not_succ_le_self _)

end Moatd

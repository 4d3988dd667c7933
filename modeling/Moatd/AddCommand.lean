import Moatd.Enforcement
import Moatd.RuleSpec
import Moatd.Samples

/-!
# Adding rules from the command line

`add` sends one request for each rule of its spec, and stops at the first that is refused.
Other clients' requests may come between.  Nothing is taken back: of an app profile that is
refused half way, the rules before that one are in force.
-/

namespace Moatd

open Fallible Runs

/-- What `add` fails with. -/
inductive AddError
  | spec (error : SpecError)
  | noRules
  /-- The connection, a timeout, or a frame that cannot be read. -/
  | transport
  | daemon (error : Error)
  | unexpected (response : Response)

/-- What becomes of a request that `call` sends. -/
inductive Delivery
  | answered
  /-- The request is served, and the answer does not arrive. -/
  | lost
  | notServed
  deriving DecidableEq, Repr

/-- What one `call` meets. -/
structure Turn where
  /-- The requests of other clients that are served before it. -/
  others : List (Request × Env)
  env : Env
  delivery : Delivery

section Add
variable (toml : Toml) (turn : Nat → Turn)

/-- The requests for the rules from number `i` on. -/
def addRules : Nat → List UserRule → DaemonState → Except AddError Unit × DaemonState
  | _, [], s => (.ok (), s)
  | i, rule :: rules, s =>
    let s := after (serve toml) s (turn i).others
    match (turn i).delivery with
    | .notServed => (.error .transport, s)
    | .lost => (.error .transport, serve toml s (.addRule rule, (turn i).env))
    | .answered =>
      match dispatch toml (turn i).env s (.addRule rule) with
      | (.ok, s) => addRules (i + 1) rules s
      | (.err e, s) => (.error (.daemon e), s)
      | (response, s) => (.error (.unexpected response), s)

/-- `add`; `load` is `apps::load`. -/
def addCommand (load : String → Except String (Option AppProfile)) (action : Action)
    (spec : List String) (s : DaemonState) : Except AddError Unit × DaemonState :=
  match parseRuleSpec load action spec with
  | .error e => (.error (.spec e), s)
  | .ok rules => if rules = [] then (.error .noRules, s) else addRules toml turn 0 rules s

/-! ### What has been added -/

/-- The rule is the last of the list, the file holds the list, and the kernel enforces it. -/
structure TookEffect (env : Env) (rule : UserRule) (s t : DaemonState) : Prop where
  list : t.onDisk = { s.onDisk with rules := s.onDisk.rules ++ [rule] }
  file : t.dir.Holds toml t.onDisk
  kernel : Enforces env.net t.maps t.onDisk

/-- These rules took effect, one after the other. -/
inductive Added : Nat → List UserRule → DaemonState → DaemonState → Prop
  | nil {i : Nat} {s : DaemonState} : Added i [] s s
  | cons {i : Nat} {rule : UserRule} {rules : List UserRule} {s t u : DaemonState}
      (htook : TookEffect toml (turn i).env rule (after (serve toml) s (turn i).others) t)
      (hrest : Added (i + 1) rules t u) : Added i (rule :: rules) s u

/-- Rule `k` is refused, and those before it took effect.  A full list is left as it is. -/
structure RefusedAt (rules : List UserRule) (e : Error) (k : Nat) (s t u : DaemonState) :
    Prop where
  before : Added toml turn 0 (rules.take k) s t
  refused : ∃ rule, rules[k]? = some rule ∧
    dispatch toml (turn k).env (after (serve toml) t (turn k).others) (.addRule rule) = (.err e, u)
  full : e = .ruleLimit → u.onDisk = (after (serve toml) t (turn k).others).onDisk

variable {toml turn}

theorem added_of_edit {rule : UserRule} {d d' : OnDisk}
    (h : (Request.addRule rule).edit d = .ok d') :
    d.rules.length < rulesMax ∧ d' = { d with rules := d.rules ++ [rule] } := by
  cases edit_cases h with
  | added _ hlimit => exact ⟨hlimit, rfl⟩
  | query _ hmut => cases hmut

/-- A rule whose request is answered `Ok` took effect. -/
theorem tookEffect_of_ok {env : Env} {s t : DaemonState} {rule : UserRule}
    (h : dispatch toml env s (.addRule rule) = (.ok, t)) : TookEffect toml env rule s t := by
  obtain ⟨d, text, rules, hedit, htext, hcompile, hstate⟩ :=
    dispatch_ok (congrArg Prod.fst h : (dispatch toml env s (.addRule rule)).1 = .ok)
  obtain ⟨hlimit, rfl⟩ := added_of_edit hedit
  have hlength : (s.onDisk.rules ++ [rule]).length ≤ rulesMax := by
    rw [List.length_append, List.length_singleton]
    exact hlimit
  rw [h] at hstate
  obtain rfl : t = _ := hstate
  exact ⟨rfl, ⟨text, htext, rfl⟩, (publishes_sync _ _ _ _).enforces hcompile hlength⟩

theorem addRules_ok {rules : List UserRule} {i : Nat} {s u : DaemonState}
    (h : addRules toml turn i rules s = (.ok (), u)) : Added toml turn i rules s u := by
  induction rules generalizing i s with
  | nil =>
    cases h
    exact .nil
  | cons rule rules ih =>
    rw [addRules] at h
    split at h
    · cases h
    · cases h
    · split at h
      · rename_i t hanswer
        exact .cons (tookEffect_of_ok hanswer) (ih h)
      · cases h
      · cases h

theorem addRules_refused {rules : List UserRule} {i : Nat} {e : Error} {s u : DaemonState}
    (h : addRules toml turn i rules s = (.error (.daemon e), u)) :
    ∃ k rule t, rules[k]? = some rule ∧ Added toml turn i (rules.take k) s t ∧
      dispatch toml (turn (i + k)).env (after (serve toml) t (turn (i + k)).others)
        (.addRule rule) = (.err e, u) := by
  induction rules generalizing i s with
  | nil => cases h
  | cons rule rules ih =>
    rw [addRules] at h
    split at h
    · cases h
    · cases h
    · split at h
      · rename_i t hanswer
        obtain ⟨k, rule', t', hrule, hadded, hrefused⟩ := ih h
        refine ⟨k + 1, rule', t', hrule, .cons (tookEffect_of_ok hanswer) hadded, ?_⟩
        rw [Nat.add_comm k 1, ← Nat.add_assoc]
        exact hrefused
      · rename_i e' t hanswer
        cases h
        exact ⟨0, rule, s, rfl, .nil, hanswer⟩
      · cases h

/-- The limit is none of the errors of a sync. -/
theorem FullSync.ne_ruleLimit {env : Env} {s : DaemonState} {r : Outcome}
    (h : FullSync env s r) : r.1 ≠ .error .ruleLimit := by
  cases h with
  | defaultFail => exact nofun
  | rules _ h => cases h <;> exact nofun

/-- A full list refuses a rule without taking it. -/
theorem onDisk_of_ruleLimit {env : Env} {s t : DaemonState} {req : Request}
    (h : dispatch toml env s req = (.err .ruleLimit, t)) : t.onDisk = s.onDisk := by
  have hcase := dispatch_cases toml env s req
  rw [h] at hcase
  generalize hout : (Response.err Error.ruleLimit, t) = out at hcase
  cases hcase with
  | query resp =>
    cases hout
    rfl
  | refused =>
    cases hout
    rfl
  | saveFail => cases hout
  | synced d text r _ _ _ _ hsync =>
    obtain ⟨result, t'⟩ := r
    rcases result with e | _
    · cases hout
      exact absurd rfl hsync.ne_ruleLimit
    · cases hout

/-- What a refused rule leaves begins with the list it met. -/
theorem prefix_of_refused {env : Env} {s t : DaemonState} {rule : UserRule} {e : Error}
    (h : dispatch toml env s (.addRule rule) = (.err e, t)) :
    s.onDisk.rules <+: t.onDisk.rules := by
  have hserve := serve_onDisk toml s (.addRule rule, env)
  rw [serve, h] at hserve
  rcases hserve with hsame | hedit
  · rw [show t.onDisk = s.onDisk from hsame]
  · obtain ⟨_, hrules⟩ := added_of_edit hedit
    rw [show t.onDisk = _ from hrules]
    exact List.prefix_append _ _

theorem Added.rules_eq {rules : List UserRule} {i : Nat} {s t : DaemonState}
    (h : Added toml turn i rules s t)
    (hothers : ∀ j < i + rules.length, (turn j).others = []) :
    t.onDisk.rules = s.onDisk.rules ++ rules := by
  induction h with
  | nil => exact (List.append_nil _).symm
  | @cons i rule rules s t u htook hrest ih =>
    rw [List.length_cons] at hothers
    have hlist := htook.list
    rw [hothers i (by omega), after_nil] at hlist
    rw [ih fun j hj => hothers j (by omega), hlist, List.append_assoc, List.singleton_append]

end Add

/-- The word is no port, so that it names a profile. -/
def NamesProfile (tok : String) : Prop :=
  (parseU16 tok.toList).isOk = false ∧
    ∀ port proto, splitOnce '/' tok.toList = some (port, proto) → (parseU16 port).isOk = false

theorem parseRuleSpec_profile {load : String → Except String (Option AppProfile)} {tok : String}
    {profile : AppProfile} {action : Action} (htok : NamesProfile tok)
    (hload : load tok = .ok (some profile)) :
    parseRuleSpec load action [tok] = expandProfile action profile := by
  have hprofile : parseShorthand.loadProfile load tok action =
      (expandProfile action profile).map some := by
    rw [parseShorthand.loadProfile, hload]
    rfl
  have hshort : parseShorthand load tok action = (expandProfile action profile).map some := by
    obtain ⟨hport, hslash⟩ := htok
    rw [parseShorthand, if_neg (by rw [hport]; exact Bool.false_ne_true)]
    split
    · rename_i port proto hsplit
      rw [if_neg (by rw [hslash port proto hsplit]; exact Bool.false_ne_true), hprofile]
    · exact hprofile
  rw [parseRuleSpec, hshort]
  cases expandProfile action profile <;> rfl

theorem expandProfile_ne_nil {action : Action} {profile : AppProfile} {rules : List UserRule}
    (h : expandProfile action profile = .ok rules) : rules ≠ [] := by
  obtain ⟨proto, -, h⟩ := bind_eq_ok_iff.mp h
  split_ifs at h with hports
  cases h
  intro hnil
  exact hports (List.map_eq_nil_iff.mp hnil)

section Profile
variable {load : String → Except String (Option AppProfile)} {tok : String} {profile : AppProfile}
  {action : Action} {rules : List UserRule}

/-- **What becomes of an app profile.**  If the command succeeds then all rules of the profile
took effect, in order.  If the daemon refuses one then those before it took effect, in order,
and no more is sent; without other clients they are still in the list, and a list that was
full is left as it was. -/
theorem addProfile_outcome {toml : Toml} {turn : Nat → Turn} (htok : NamesProfile tok)
    (hload : load tok = .ok (some profile)) (hexpand : expandProfile action profile = .ok rules)
    (s u : DaemonState) :
    (addCommand toml turn load action [tok] s = (.ok (), u) → Added toml turn 0 rules s u) ∧
    ∀ e, addCommand toml turn load action [tok] s = (.error (.daemon e), u) →
      ∃ k t, RefusedAt toml turn rules e k s t u ∧
        ((∀ j ≤ k, (turn j).others = []) → s.onDisk.rules ++ rules.take k <+: u.onDisk.rules) := by
  rw [addCommand, parseRuleSpec_profile htok hload, hexpand]
  dsimp only
  rw [if_neg (expandProfile_ne_nil hexpand)]
  refine ⟨addRules_ok, fun e h => ?_⟩
  obtain ⟨k, rule, t, hrule, hadded, hrefused⟩ := addRules_refused h
  rw [Nat.zero_add] at hrefused
  refine ⟨k, t, ⟨hadded, ⟨rule, hrule, hrefused⟩, ?_⟩, fun hothers => ?_⟩
  · rintro rfl
    exact onDisk_of_ruleLimit hrefused
  · -- alone, the refused request met the list as the last addition left it
    have hbegins := prefix_of_refused hrefused
    rw [hothers k le_rfl, after_nil] at hbegins
    rwa [hadded.rules_eq] at hbegins
    intro j hj
    rw [List.length_take] at hj
    exact hothers j (by omega)

end Profile

/-! ### A profile with a bad port -/

/-- A profile of two ports, the second of which is out of range. -/
def webProfile : AppProfile := ⟨"web", "80,70000", "tcp"⟩

/-- `apps::load` where every name is this profile. -/
def loadWeb (_ : String) : Except String (Option AppProfile) := .ok (some webProfile)

/-- No other clients, and no faults. -/
def aloneTurn (_ : Nat) : Turn := ⟨[], { net := noNet }, .answered⟩

/-- The rule of its first port. -/
def webRule : UserRule := ruleWithPort .allow "80" (some .tcp)

/-- The rule of its second port, which does not compile. -/
def badWebRule : UserRule := ruleWithPort .allow "70000" (some .tcp)

theorem web_namesProfile : NamesProfile "web" := ⟨rfl, fun _ _ h => by cases h⟩

theorem web_expand : expandProfile .allow webProfile = .ok [webRule, badWebRule] := rfl

/-- What `moatd allow web` answers, and leaves. -/
noncomputable def addedWeb : Except AddError Unit × DaemonState :=
  addCommand (sampleToml sampleLists) aloneTurn loadWeb .allow ["web"] (boot [] noFile {})

theorem addedWeb_fst :
    addedWeb.1 = .error (.daemon (.wire (.invalidPort .posOverflow))) := rfl

/-- The first rule stays in the list although the command has failed. -/
theorem web_half_added :
    expandProfile .allow webProfile = .ok [webRule, badWebRule] ∧
      addedWeb.1 = .error (.daemon (.wire (.invalidPort .posOverflow))) ∧
      webRule ∈ addedWeb.2.onDisk.rules :=
  ⟨rfl, addedWeb_fst, List.mem_cons_self⟩

theorem web_refused :
    ∃ k t, RefusedAt (sampleToml sampleLists) aloneTurn [webRule, badWebRule]
      (.wire (.invalidPort .posOverflow)) k (boot [] noFile {}) t addedWeb.2 := by
  have haddedWeb : addedWeb =
      (.error (.daemon (.wire (.invalidPort .posOverflow))), addedWeb.2) :=
    Prod.ext addedWeb_fst rfl
  have hload : loadWeb "web" = .ok (some webProfile) := rfl
  obtain ⟨k, t, hrefused, -⟩ := (addProfile_outcome web_namesProfile hload web_expand
    (boot [] noFile {}) addedWeb.2).2 (.wire (.invalidPort .posOverflow)) haddedWeb
  exact ⟨k, t, hrefused⟩

end Moatd

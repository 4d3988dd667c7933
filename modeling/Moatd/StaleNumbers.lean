import Moatd.ListEdits
import Moatd.Tracking

/-!
# Deleting a rule by its listed number

`moatd list` shows numbers, and `moatd delete` takes one.  Other requests may be served
between the two.  The number still names the listed rule as long as none of them is a reset
or deletes at that number or before it, whatever they were answered.
-/

namespace Moatd

open Runs Tracking

/-! ### Requests as edits of a list -/

/-- What the request does to a list of rules. -/
def Request.asEdit : Request → Option (Edit UserRule)
  | .addRule rule => some (.push rule)
  | .deleteRule idx => some (.erase (idx - 1).toNat)
  | .reset => some .clear
  | _ => none

/-- What it does to this list: nothing unless it passes the checks. -/
def Request.listEdit (req : Request) (d : OnDisk) : Option (Edit UserRule) :=
  match req.edit d with
  | .error _ => none
  | .ok _ => req.asEdit

/-- The daemon, and its rules with the numbers that they were listed under. -/
structure Listing where
  daemon : DaemonState
  rules : List (Tagged UserRule)

/-- The rules as the daemon has them now. -/
def Listing.start (s : DaemonState) : Listing := ⟨s, tagged s.onDisk.rules⟩

/-- One request, and what its edit does to the list that was printed. -/
def Listing.step (toml : Toml) (l : Listing) (turn : Request × Env) : Listing where
  daemon := serve toml l.daemon turn
  rules :=
    match turn.1.listEdit l.daemon.onDisk with
    | none => l.rules
    | some e => e.untagged.apply l.rules

/-- The request does not touch the rules up to this number. -/
def Request.SparesUpTo (n : Nat) (req : Request) : Prop :=
  req ≠ .reset ∧ ∀ idx, req = .deleteRule idx → idx = 0 ∨ n < idx.toNat

section Edit
variable {req : Request} {d : OnDisk}

theorem listEdit_of_error {e : Error} (h : req.edit d = .error e) : req.listEdit d = none := by
  rw [Request.listEdit, h]

theorem listEdit_of_ok {d' : OnDisk} (h : req.edit d = .ok d') : req.listEdit d = req.asEdit := by
  rw [Request.listEdit, h]

/-- The rules that an edit leaves. -/
theorem rules_of_edit {d' : OnDisk} (h : req.edit d = .ok d') :
    d'.rules =
      match req.asEdit with
      | some e => e.apply d.rules
      | none => d.rules := by
  cases edit_cases h with
  | added | deleted | reset | defaultIn | defaultOut | logging => rfl
  | query req hmut =>
    cases req with
    | ping | status | listRules => rfl
    | addRule | deleteRule | setDefault | setLogging | reset => cases hmut

/-- A request spares the rules up to a number if its edit does. -/
theorem sparesUpTo_iff {n : Nat} (hpos : 0 < n) (hn : n ≤ d.rules.length) :
    req.SparesUpTo n ↔ ∀ e, req.listEdit d = some e → e.Spares (n - 1) := by
  cases req with
  | reset => exact iff_of_false (fun h => h.1 rfl) fun h => h .clear rfl
  | deleteRule idx =>
    have hspares : (Request.deleteRule idx).SparesUpTo n ↔ idx = 0 ∨ n < idx.toNat := by
      refine ⟨fun h => h.2 idx rfl, fun h => ⟨by simp, ?_⟩⟩
      rintro idx' ⟨⟩
      exact h
    rw [hspares, Request.listEdit, Request.edit_deleteRule]
    by_cases hzero : idx = 0
    · rw [if_pos hzero]
      exact iff_of_true (Or.inl hzero) fun e he => absurd he (Option.some_ne_none e).symm
    have hidx := toNat_eq_pred hzero
    rw [if_neg hzero]
    by_cases hlong : d.rules.length ≤ (idx - 1).toNat
    · rw [if_pos hlong]
      exact iff_of_true (Or.inr (by omega)) fun e he => absurd he (Option.some_ne_none e).symm
    · rw [if_neg hlong]
      constructor
      · rintro h e ⟨⟩
        show n - 1 < (idx - 1).toNat
        rcases h with h | h
        · exact absurd h hzero
        · omega
      · intro h
        have hlt : n - 1 < (idx - 1).toNat := h _ rfl
        exact Or.inr (by omega)
  | addRule rule =>
    refine iff_of_true ⟨by simp, by simp⟩ fun e he => ?_
    cases hedit : (Request.addRule rule).edit d with
    | error e' =>
      rw [listEdit_of_error hedit] at he
      cases he
    | ok d' =>
      rw [listEdit_of_ok hedit] at he
      cases he
      trivial
  | ping | status | listRules | setLogging | setDefault =>
    refine iff_of_true ⟨by simp, by simp⟩ fun e he => ?_
    rw [Request.listEdit] at he
    split at he <;> cases he

end Edit

variable (toml : Toml)

/-- Once the checks pass, the list in memory is edited, and stays so when saving fails. -/
theorem serve_onDisk_eq (s : DaemonState) (turn : Request × Env) :
    (serve toml s turn).onDisk =
      match turn.1.edit s.onDisk with
      | .ok d => d
      | .error _ => s.onDisk := by
  obtain ⟨req, env⟩ := turn
  unfold serve
  have hcase := dispatch_cases toml env s req
  generalize dispatch toml env s req = out at hcase
  cases hcase with
  | query resp hmut =>
    cases req with
    | ping | status | listRules => rfl
    | addRule | deleteRule | setDefault | setLogging | reset => cases hmut
  | refused e _ hedit => rw [hedit]
  | saveFail d e tmp _ hedit => rw [hedit]
  | synced d text r _ hedit _ _ hsync =>
    rw [hedit, toResponse_snd, hsync.frame.1]

/-! ### The listing along a run -/

namespace Listing

/-- The rules of the listing are those of the daemon. -/
def Matches (l : Listing) : Prop := l.rules.map Prod.fst = l.daemon.onDisk.rules

theorem Matches.step {l : Listing} (h : l.Matches) (turn : Request × Env) :
    (l.step toml turn).Matches := by
  unfold Matches at h ⊢
  simp only [Listing.step]
  rw [serve_onDisk_eq]
  cases hedit : turn.1.edit l.daemon.onDisk with
  | error e =>
    rw [listEdit_of_error hedit]
    exact h
  | ok d =>
    rw [listEdit_of_ok hedit, rules_of_edit hedit]
    cases turn.1.asEdit with
    | none => exact h
    | some e =>
      dsimp only
      rw [map_apply, h]

/-- **Step**: a listed rule keeps its number under a request that spares it, and loses it for
good under any other. -/
theorem at_step {l : Listing} (h : l.Matches) {n : Nat} (hpos : 0 < n)
    (hat : At l.rules (n - 1)) (turn : Request × Env) :
    (turn.1.SparesUpTo n → At (l.step toml turn).rules (n - 1)) ∧
      (¬ turn.1.SparesUpTo n → Ahead (l.step toml turn).rules (n - 1)) := by
  obtain ⟨x, hx⟩ := hat.here
  have hlt : n - 1 < l.rules.length := (List.getElem?_eq_some_iff.mp hx).1
  have hn : n ≤ l.daemon.onDisk.rules.length := by
    rw [← h, List.length_map]
    omega
  rw [sparesUpTo_iff hpos hn]
  simp only [Listing.step]
  cases turn.1.listEdit l.daemon.onDisk with
  | none =>
    refine ⟨fun _ => hat, fun hnot => absurd (fun e he => ?_) hnot⟩
    exact absurd he (Option.some_ne_none e).symm
  | some e =>
    refine ⟨fun hspares => hat.apply (hspares e rfl), fun hnot => hat.ahead_apply fun he => ?_⟩
    refine hnot fun e' he' => ?_
    cases he'
    exact he

theorem ahead_step {l : Listing} {i : Nat} (h : Ahead l.rules i) (turn : Request × Env) :
    Ahead (l.step toml turn).rules i := by
  simp only [Listing.step]
  cases turn.1.listEdit l.daemon.onDisk with
  | none => exact h
  | some e => exact h.apply e

/-- **Run**: it keeps its number if every request spares it, and else loses it for good. -/
theorem at_after {l : Listing} (h : l.Matches) {n : Nat} (hpos : 0 < n)
    (hat : At l.rules (n - 1)) (run : List (Request × Env)) :
    ((∀ turn ∈ run, turn.1.SparesUpTo n) →
        At (after (Listing.step toml) l run).rules (n - 1)) ∧
      ((¬ ∀ turn ∈ run, turn.1.SparesUpTo n) →
        Ahead (after (Listing.step toml) l run).rules (n - 1)) := by
  induction run generalizing l with
  | nil => exact ⟨fun _ => hat, fun hnot => absurd (fun _ h => absurd h List.not_mem_nil) hnot⟩
  | cons turn run ih =>
    obtain ⟨hkeeps, hloses⟩ := at_step toml h hpos hat turn
    rw [after_cons, List.forall_mem_cons]
    by_cases hspares : turn.1.SparesUpTo n
    · obtain ⟨hall, hsome⟩ := ih (h.step toml turn) (hkeeps hspares)
      exact ⟨fun hrun => hall hrun.2, fun hnot => hsome fun hrun => hnot ⟨hspares, hrun⟩⟩
    · refine ⟨fun hrun => absurd hrun.1 hspares, fun _ => ?_⟩
      exact invariant_after (I := fun l : Listing => Ahead l.rules (n - 1))
        (fun _ turn hl => ahead_step toml hl turn) run (hloses hspares)

theorem daemon_after (l : Listing) (run : List (Request × Env)) :
    (after (Listing.step toml) l run).daemon = after (serve toml) l.daemon run := by
  induction run generalizing l with
  | nil => rfl
  | cons turn run ih => exact ih (l.step toml turn)

end Listing

/-- **A listed number names the rule it was listed with as long as no request touches the
rules up to it.**  The rules are listed, and then other requests are served, with whatever
answers.  What a delete of that number takes out is the rule that was listed under it if and
only if none of them was a reset, or deleted at the number or before it. -/
theorem delete_listed_iff (s : DaemonState) (run : List (Request × Env)) {n : UInt32}
    (hzero : n ≠ 0) (hn : n.toNat ≤ s.onDisk.rules.length) :
    let l := after (Listing.step toml) (Listing.start s) run
    l.daemon = after (serve toml) s run ∧ l.rules.map Prod.fst = l.daemon.onDisk.rules ∧
      (∀ env, (l.step toml (.deleteRule n, env)).rules = l.rules.eraseIdx (n - 1).toNat) ∧
      ((∃ rule, l.rules[(n - 1).toNat]? = some (rule, some (n - 1).toNat)) ↔
        ∀ turn ∈ run, turn.1.SparesUpTo n.toNat) := by
  intro l
  have hpred := toNat_eq_pred hzero
  have hmatches : l.Matches := invariant_after (I := Listing.Matches)
    (fun _ turn hl => hl.step toml turn) run (map_tagged s.onDisk.rules)
  refine ⟨?_, hmatches, fun env => ?_, ?_⟩
  · exact Listing.daemon_after toml (Listing.start s) run
  · have hlength : l.rules.length = l.daemon.onDisk.rules.length := by
      rw [← hmatches, List.length_map]
    simp only [Listing.step, Request.listEdit, Request.edit_deleteRule, if_neg hzero]
    by_cases hlong : l.daemon.onDisk.rules.length ≤ (n - 1).toNat
    · rw [if_pos hlong]
      show l.rules = _
      exact (List.eraseIdx_of_length_le (by omega)).symm
    · rw [if_neg hlong]
      rfl
  · have hpos : 0 < n.toNat := by omega
    have hlisted : n.toNat - 1 < s.onDisk.rules.length := by omega
    obtain ⟨hkeeps, hloses⟩ := Listing.at_after toml (l := Listing.start s)
      (map_tagged s.onDisk.rules) hpos (at_tagged hlisted) run
    rw [show (n - 1).toNat = n.toNat - 1 by omega]
    constructor
    · rintro ⟨rule, hrule⟩
      by_contra hnot
      exact Nat.lt_irrefl _ (hloses hnot _ rule hrule)
    · exact fun hall => (hkeeps hall).here

/-- Another client has deleted the first rule: the second number is out of date. -/
theorem secondNumber_stale :
    let s := boot [] noFile { rules := [sshRule, denyTelnetIn] }
    let run : List (Request × Env) := [(.deleteRule 1, { net := noNet })]
    let l := after (Listing.step (sampleToml sampleLists)) (Listing.start s) run
    l.daemon = after (serve (sampleToml sampleLists)) s run ∧
      l.rules.map Prod.fst = l.daemon.onDisk.rules ∧
      (∀ env, (l.step (sampleToml sampleLists) (.deleteRule 2, env)).rules =
        l.rules.eraseIdx ((2 : UInt32) - 1).toNat) ∧
      ((∃ rule, l.rules[((2 : UInt32) - 1).toNat]? = some (rule, some ((2 : UInt32) - 1).toNat)) ↔
        ∀ turn ∈ run, turn.1.SparesUpTo (2 : UInt32).toNat) :=
  delete_listed_iff (sampleToml sampleLists) (boot [] noFile { rules := [sshRule, denyTelnetIn] })
    [(.deleteRule 1, { net := noNet })] (by decide) (by decide)

end Moatd

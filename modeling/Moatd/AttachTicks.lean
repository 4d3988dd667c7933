import Moatd.AttachLoop
import Moatd.Daemon
import Moatd.Runs

/-!
# Ticks of the attach loops

The loops of `run_daemon` and `watch_interfaces`, one snapshot at a time.  Each time an
interface is created it is another instance, whether or not it has the number of the one
before; `attach_to_iface` is given a name, and meets the instance that has it then.  What
the code reads of all this is in the snapshot and in the results of the calls; the
instances are kept beside it, to say afterwards which of them are attached.
-/

namespace Moatd

/-- An interface of a snapshot, with what `attach_to_iface` does if it is called. -/
structure SeenLink where
  name : String
  ifindex : UInt32
  /-- It succeeds, … -/
  attaches : Bool
  /-- … for this instance. -/
  met : Nat
  deriving DecidableEq, Repr

/-- What one pass of a loop meets. -/
structure LinkTick where
  seen : List SeenLink
  hnames : (seen.map SeenLink.name).Nodup
  /-- The instance that has a name when the pass is over, or had it last. -/
  present : String → Nat

/-- The watcher and the daemon it shares the list of names with. -/
structure Attacher where
  attached : AList fun _ : String => UInt32
  daemon : DaemonState
  /-- The instances `attach_to_iface` has succeeded for. -/
  succeeded : List (String × Nat)

section Loops
variable (filter : String → Bool)

/-- The loop of `run_daemon`. -/
def attachInitial (attached : AList fun _ : String => UInt32) (l : SeenLink) :
    AList fun _ : String => UInt32 :=
  if filter l.name = false then attached
  else if l.attaches then attached.insert l.name l.ifindex
  else attached

/-- The list of names has each name once. -/
def pushName (names : List String) (name : String) : List String :=
  if names.contains name then names else names ++ [name]

/-- The loop of `watch_interfaces`. -/
def Attacher.attachSeen (w : Attacher) (l : SeenLink) : Attacher :=
  if filter l.name = false then w
  else if w.attached.lookup l.name = some l.ifindex then w
  else if l.attaches then
    { attached := w.attached.insert l.name l.ifindex
      daemon := { w.daemon with
        attachedInterfaces := pushName w.daemon.attachedInterfaces l.name }
      succeeded := w.succeeded ++ [(l.name, l.met)] }
  else w

/-- `run_daemon`, with what its initial loop meets. -/
def Attacher.start (toml : Toml) (env : Env) (unreadable : Bool) (dir : RulesDir)
    (tick : LinkTick) : Attacher :=
  let attached := tick.seen.foldl (attachInitial filter) ∅
  { attached
    daemon := (runDaemon toml env unreadable attached.keys dir).2
    succeeded :=
      (tick.seen.filter fun l => filter l.name && l.attaches).map fun l => (l.name, l.met) }

/-- What happens to the daemon's attachments, one at a time. -/
inductive AttachEvent
  | tick (tick : LinkTick)
  /-- The watcher re-syncs the rules. -/
  | resync (env : Env)
  | request (req : Request) (env : Env)

/-- One event. -/
def Attacher.step (toml : Toml) (w : Attacher) : AttachEvent → Attacher
  | .tick tick => tick.seen.foldl (Attacher.attachSeen filter) w
  | .resync env => { w with daemon := (syncRules env w.daemon).2 }
  | .request req env => { w with daemon := serve toml w.daemon (req, env) }

end Loops

/-! ### The same loops, file by file -/

/-- The two records. -/
abbrev AttachRecords := (AList fun _ : String => UInt32) × List String

/-- What the loops remember of their attachments. -/
def Links.records (w : Links) : AttachRecords := (w.attached, w.attachedInterfaces)

/-- What the daemon remembers of its attachments. -/
def Attacher.records (w : Attacher) : AttachRecords := (w.attached, w.daemon.attachedInterfaces)

section Passes
variable (filter : String → Bool)

/-- Either loop, as far as the records go. -/
def recordSeen (initial : Bool) (r : AttachRecords) (l : SeenLink) : AttachRecords :=
  if filter l.name = false then r
  else if initial = false ∧ r.1.lookup l.name = some l.ifindex then r
  else if l.attaches then
    (r.1.insert l.name l.ifindex, if initial then r.2 else pushName r.2 l.name)
  else r

theorem records_attachSeen (w : Attacher) (seen : List SeenLink) :
    (seen.foldl (Attacher.attachSeen filter) w).records =
      seen.foldl (recordSeen filter false) w.records := by
  induction seen generalizing w with
  | nil => rfl
  | cons l seen ih =>
    rw [List.foldl_cons, List.foldl_cons, ih]
    congr 1
    simp only [Attacher.attachSeen, recordSeen, Attacher.records, true_and, Bool.false_eq_true,
      if_false]
    split_ifs <;> rfl

theorem records_attachInitial (attached : AList fun _ : String => UInt32) (names : List String)
    (seen : List SeenLink) :
    seen.foldl (recordSeen filter true) (attached, names) =
      (seen.foldl (attachInitial filter) attached, names) := by
  induction seen generalizing attached with
  | nil => rfl
  | cons l seen ih =>
    rw [List.foldl_cons, List.foldl_cons, ← ih]
    congr 1
    simp only [attachInitial, recordSeen, Bool.true_eq_false, false_and, if_false, if_true]
    split_ifs <;> rfl

/-- These are the interfaces of the snapshot. -/
def Lists (seen : List SeenLink) (snapshot : IfaceSnapshot) : Prop :=
  seen.map (fun l => (l.name, l.ifindex)) = snapshot.map fun e => (e.1, e.2.1)

/-- Where a pass through the snapshot is.  The records are those of what it has gone
through; `attach_to_iface` changes them at its end. -/
inductive Links.Amid (initial : Bool) (r : AttachRecords) (snapshot : IfaceSnapshot) (w : Links) :
    Prop
  | looping {seen : List SeenLink} {passed todo : IfaceSnapshot}
      (hphase : w.phase = .looping initial todo) (hsnapshot : snapshot = passed ++ todo)
      (hlists : Lists seen passed)
      (hrecords : w.records = seen.foldl (recordSeen filter initial) r)
  | attaching {seen : List SeenLink} {passed todo : IfaceSnapshot} {name : String}
      {ifindex : UInt32} {up : Bool}
      (hphase : w.phase = .attaching initial name ifindex todo ∨
        ∃ number, w.phase = .numbered initial name ifindex number todo)
      (hsnapshot : snapshot = passed ++ (name, ifindex, up) :: todo) (hlists : Lists seen passed)
      (hrecords : w.records = seen.foldl (recordSeen filter initial) r)
      (hfilter : ¬ filter name = false)
      (hlookup : ¬ (initial = false ∧ w.attached.lookup name = some ifindex))
  | over {seen : List SeenLink} {r' : AttachRecords} (hphase : w.phase = .waiting)
      (hlists : Lists seen snapshot) (hpass : r' = seen.foldl (recordSeen filter initial) r)
      (hrecords : w.records = if initial then (r'.1, r'.1.keys) else r')

variable {filter} {initial : Bool} {r : AttachRecords} {snapshot : IfaceSnapshot} {w : Links}

theorem lists_append {seen : List SeenLink} {passed : IfaceSnapshot} (h : Lists seen passed)
    (name : String) (ifindex : UInt32) (up attaches : Bool) :
    Lists (seen ++ [⟨name, ifindex, attaches, 0⟩]) (passed ++ [(name, ifindex, up)]) := by
  unfold Lists at h ⊢
  rw [List.map_append, List.map_append, h]
  rfl

/-- An interface that is passed over leaves the records alone. -/
theorem recordSeen_of_not_attaches {r : AttachRecords} {l : SeenLink}
    (h : filter l.name = false ∨ initial = false ∧ r.1.lookup l.name = some l.ifindex ∨
      l.attaches = false) : recordSeen filter initial r l = r := by
  unfold recordSeen
  split_ifs with hfilter hlookup hattaches hinitial
  · rfl
  · rfl
  · simp [hfilter, hlookup, hattaches] at h
  · simp [hfilter, hlookup, hattaches] at h
  · rfl

theorem recordSeen_of_attaches {r : AttachRecords} {l : SeenLink}
    (hfilter : ¬ filter l.name = false)
    (hlookup : ¬ (initial = false ∧ r.1.lookup l.name = some l.ifindex))
    (hattaches : l.attaches = true) :
    recordSeen filter initial r l =
      (r.1.insert l.name l.ifindex, if initial then r.2 else pushName r.2 l.name) := by
  rw [recordSeen, if_neg hfilter, if_neg hlookup, if_pos hattaches]

/-- One more interface has been passed. -/
theorem Links.Amid.pass {seen : List SeenLink} {passed todo : IfaceSnapshot} {name : String}
    {ifindex : UInt32} {up : Bool} (attaches : Bool) (hphase : w.phase = .looping initial todo)
    (hsnapshot : snapshot = passed ++ (name, ifindex, up) :: todo) (hlists : Lists seen passed)
    (hrecords : w.records = recordSeen filter initial (seen.foldl (recordSeen filter initial) r)
      ⟨name, ifindex, attaches, 0⟩) : w.Amid filter initial r snapshot := by
  refine .looping hphase ?_ (lists_append hlists name ifindex up attaches) ?_
  · rw [hsnapshot, List.append_assoc, List.singleton_append]
  · rw [hrecords, List.foldl_append, List.foldl_cons, List.foldl_nil]

/-- **Step**: whatever changes meanwhile. -/
theorem Links.Amid.step (h : w.Amid filter initial r snapshot) (hphase : w.phase ≠ .waiting)
    (l : LinkStep) : (w.step filter l).Amid filter initial r snapshot := by
  rcases l with net | attaches
  · rcases h with ⟨hphase, hsnapshot, hlists, hrecords⟩ |
      ⟨hphase, hsnapshot, hlists, hrecords, hfilter, hlookup⟩ | ⟨hphase, hlists, hpass, hrecords⟩
    · exact .looping hphase hsnapshot hlists hrecords
    · exact .attaching hphase hsnapshot hlists hrecords hfilter hlookup
    · exact .over hphase hlists hpass hrecords
  · rcases h with @⟨seen, passed, todo, hphase', hsnapshot, hlists, hrecords⟩ |
      @⟨seen, passed, todo, name, ifindex, up, hphase' | ⟨number, hphase'⟩, hsnapshot, hlists,
        hrecords, hfilter, hlookup⟩ | ⟨hphase', -, -, -⟩
    · rcases todo with _ | ⟨⟨name, ifindex, up⟩, todo⟩
      · simp only [Links.step, Links.go, hphase']
        rw [List.append_nil] at hsnapshot
        refine .over rfl (hsnapshot ▸ hlists) hrecords ?_
        cases initial <;> rfl
      · simp only [Links.step, Links.go, hphase']
        split_ifs with hfilter hlookup hattaches
        · refine .pass false rfl hsnapshot hlists ?_
          rw [← hrecords, recordSeen_of_not_attaches (Or.inl hfilter)]
          rfl
        · refine .pass false rfl hsnapshot hlists ?_
          rw [← hrecords, recordSeen_of_not_attaches (Or.inr (Or.inl hlookup))]
          rfl
        · exact .attaching (Or.inl rfl) hsnapshot hlists hrecords hfilter hlookup
        · refine .pass false rfl hsnapshot hlists ?_
          rw [← hrecords, recordSeen_of_not_attaches (Or.inr (Or.inr rfl))]
          rfl
    · simp only [Links.step, Links.go, hphase']
      exact .attaching (Or.inr ⟨_, rfl⟩) hsnapshot hlists hrecords hfilter hlookup
    · simp only [Links.step, Links.go, hphase']
      refine .pass true rfl hsnapshot hlists ?_
      rw [← hrecords, recordSeen_of_attaches hfilter hlookup rfl]
      cases initial <;> rfl
    · exact absurd hphase' hphase

/-- **Run**: when a pass is over, whatever has changed in between, its records are those of
the interfaces it found. -/
theorem Links.pass_records (hphase : w.phase = .looping initial snapshot) {run : List LinkStep}
    (hrun : Runs.Along (Links.step filter) (fun w _ => w.phase ≠ .waiting) w run)
    (hover : (Runs.after (Links.step filter) w run).phase = .waiting) :
    ∃ seen r, Lists seen snapshot ∧ r = seen.foldl (recordSeen filter initial) w.records ∧
      (Runs.after (Links.step filter) w run).records =
        if initial then (r.1, r.1.keys) else r := by
  have hstart : w.Amid filter initial w.records snapshot :=
    .looping hphase (List.nil_append _).symm (show Lists [] [] from rfl) rfl
  have hamid := hrun.invariant (I := Links.Amid filter initial w.records snapshot)
    (fun w' l h hphase => h.step hphase l) hstart
  rcases hamid with ⟨hphase', -, -, -⟩ | ⟨hphase' | ⟨number, hphase'⟩, -, -, -, -, -⟩ |
    ⟨-, hlists, hpass, hrecords⟩
  · rw [hover] at hphase'
    cases hphase'
  · rw [hover] at hphase'
    cases hphase'
  · rw [hover] at hphase'
    cases hphase'
  · exact ⟨_, _, hlists, hpass, hrecords⟩

/-- A tick of the watcher, file by file, leaves the records that `Attacher.attachSeen` does. -/
theorem Links.pass_attachSeen {a : Attacher} (ha : w.records = a.records)
    (hphase : w.phase = .looping false snapshot) {run : List LinkStep}
    (hrun : Runs.Along (Links.step filter) (fun w _ => w.phase ≠ .waiting) w run)
    (hover : (Runs.after (Links.step filter) w run).phase = .waiting) :
    ∃ seen, Lists seen snapshot ∧ (Runs.after (Links.step filter) w run).records =
      (seen.foldl (Attacher.attachSeen filter) a).records := by
  obtain ⟨seen, r, hlists, hpass, hrecords⟩ := Links.pass_records hphase hrun hover
  refine ⟨seen, hlists, hrecords.trans ?_⟩
  rw [records_attachSeen, ← ha, hpass]
  rfl

end Passes

end Moatd

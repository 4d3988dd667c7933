import Mathlib.Logic.Function.Basic
import Moatd.Runs

/-!
# Binding the control socket

`bind_control_socket` of several daemons at once.  A daemon that finds a socket file
connects to it; where nobody listens it takes the file for a stale one, removes it and binds
its own.  Between the probe and the removal another daemon may have done the same; or the
file is that of a daemon which has bound its socket and does not listen yet.  Then what is
removed is the socket of a daemon that listens, or is about to: it goes on serving, and no
client reaches it any more.

A process is known by a number, and a socket file by the process that bound it.  Making the
directory, its mode and the umask are left out: they change neither the file nor who listens.
-/

namespace Moatd

open Runs

/-- How `bind_control_socket` fails. -/
inductive BindError
  | alreadyRunning
  | probingExistingSocket
  | removingStaleSocket
  | addrInUse
  | settingPermissions
  | io
  deriving DecidableEq, Repr

/-- `SOCKET_PATH`. -/
def socketPath : String := "/run/moatd/control.sock"

/-- The text of the error, before that of the system call. -/
def BindError.text : BindError → String
  | .alreadyRunning => "another moatd is already running and bound to " ++ socketPath
  | .probingExistingSocket => "probing existing socket: "
  | .removingStaleSocket => "removing stale socket"
  | .addrInUse | .settingPermissions | .io => ""

/-- Where a daemon is in `bind_control_socket`. -/
inductive BindPhase
  | absent
  /-- Before `path.exists()`. -/
  | checking
  /-- There is a file; before `connect`. -/
  | probing
  /-- The connection was refused; before `remove_file`.  Whose socket that was is not
  remembered. -/
  | removing (stale : Nat)
  /-- Before `bind`, the first half of `UnixListener::bind`. -/
  | binding
  /-- The file is there, and connections to it are refused; before `listen`, the second half. -/
  | bound
  /-- Clients can connect; before `set_permissions`. -/
  | settingMode
  | serving
  | failed (e : BindError)
  | exited
  deriving DecidableEq, Repr

namespace BindPhase

/-- A connection is accepted, or waits to be. -/
def listening : BindPhase → Bool
  | settingMode | serving => true
  | _ => false

/-- The daemon is inside `bind_control_socket`. -/
def starting : BindPhase → Bool
  | checking | probing | removing _ | binding | bound | settingMode => true
  | _ => false

/-- The daemon may still bind a socket; it does so once. -/
def mayBind : BindPhase → Bool
  | absent | checking | probing | removing _ | binding => true
  | _ => false

end BindPhase

/-- The socket file, by the process that bound it, and all processes. -/
structure SocketDir where
  path : Option Nat
  phase : Nat → BindPhase

/-- The file of a process that is no more, or none. -/
def SocketDir.booted (path : Option Nat) : SocketDir where
  path
  phase i := if path = some i then .exited else .absent

/-- What happens to one process. -/
inductive SocketEvent
  | start (i : Nat)
  /-- The next system call of `bind_control_socket`. -/
  | run (i : Nat)
  /-- It fails for another reason. -/
  | fail (i : Nat)
  /-- The process ends; the file stays. -/
  | exit (i : Nat)
  deriving DecidableEq, Repr

namespace SocketDir

/-- Process `i` is now in this phase. -/
def enter (s : SocketDir) (i : Nat) (phase : BindPhase) : SocketDir :=
  { s with phase := Function.update s.phase i phase }

/-- The next system call of `bind_control_socket` in process `i`. -/
def next (s : SocketDir) (i : Nat) : SocketDir :=
  match s.phase i with
  | .checking =>
    match s.path with
    | some _ => s.enter i .probing
    | none => s.enter i .binding
  | .probing =>
    match s.path with
    | some owner =>
      if (s.phase owner).listening then s.enter i (.failed .alreadyRunning)
      else s.enter i (.removing owner)
    | none => s.enter i (.failed .probingExistingSocket)
  | .removing _ =>
    match s.path with
    | some _ => { s.enter i .binding with path := none }
    | none => s.enter i (.failed .removingStaleSocket)
  | .binding =>
    match s.path with
    | some _ => s.enter i (.failed .addrInUse)
    | none => { s.enter i .bound with path := some i }
  | .bound => s.enter i .settingMode
  | .settingMode =>
    match s.path with
    | some _ => s.enter i .serving
    | none => s.enter i (.failed .settingPermissions)
  | _ => s

/-- One event. -/
def step (s : SocketDir) : SocketEvent → SocketDir
  | .start i => if s.phase i = .absent then s.enter i .checking else s
  | .run i => s.next i
  | .fail i => if (s.phase i).starting then s.enter i (.failed .io) else s
  | .exit i => if s.phase i = .absent then s else s.enter i .exited

section Enter
variable (s : SocketDir) (i : Nat) (phase : BindPhase)

@[simp] theorem enter_path : (s.enter i phase).path = s.path := rfl

@[simp] theorem enter_phase_self : (s.enter i phase).phase i = phase := by
  simp [enter]

theorem enter_phase (j : Nat) :
    (s.enter i phase).phase j = if j = i then phase else s.phase j :=
  Function.update_apply s.phase i phase j

end Enter

/-- What one event can do: a process enters a phase, with or without a change of the file. -/
inductive Stepped (s : SocketDir) : SocketEvent → SocketDir → Prop
  | idle (e : SocketEvent) : Stepped s e s
  | started (i : Nat) (h : s.phase i = .absent) : Stepped s (.start i) (s.enter i .checking)
  | found (i owner : Nat) (h : s.phase i = .checking) (hpath : s.path = some owner) :
    Stepped s (.run i) (s.enter i .probing)
  | clear (i : Nat) (h : s.phase i = .checking) (hpath : s.path = none) :
    Stepped s (.run i) (s.enter i .binding)
  | refused (i owner : Nat) (h : s.phase i = .probing) (hpath : s.path = some owner)
      (howner : (s.phase owner).listening = false) :
    Stepped s (.run i) (s.enter i (.removing owner))
  | removed (i stale owner : Nat) (h : s.phase i = .removing stale)
      (hpath : s.path = some owner) :
    Stepped s (.run i) { s.enter i .binding with path := none }
  | bound (i : Nat) (h : s.phase i = .binding) (hpath : s.path = none) :
    Stepped s (.run i) { s.enter i .bound with path := some i }
  | listens (i : Nat) (h : s.phase i = .bound) : Stepped s (.run i) (s.enter i .settingMode)
  | ready (i owner : Nat) (h : s.phase i = .settingMode) (hpath : s.path = some owner) :
    Stepped s (.run i) (s.enter i .serving)
  | failed (i : Nat) (e : SocketEvent) (error : BindError) (h : (s.phase i).starting = true) :
    Stepped s e (s.enter i (.failed error))
  | ended (i : Nat) (h : s.phase i ≠ .absent) : Stepped s (.exit i) (s.enter i .exited)

theorem next_cases (s : SocketDir) (i : Nat) : s.Stepped (.run i) (s.next i) := by
  have hstarting {phase : BindPhase} (h : s.phase i = phase) (hphase : phase.starting = true) :
      (s.phase i).starting = true := by rwa [h]
  unfold next
  split
  · rename_i h
    split
    · rename_i owner hpath
      exact .found i owner h hpath
    · rename_i hpath
      exact .clear i h hpath
  · rename_i h
    split
    · rename_i owner hpath
      split
      · exact .failed i _ _ (hstarting h rfl)
      · rename_i howner
        exact .refused i owner h hpath (Bool.eq_false_iff.mpr howner)
    · exact .failed i _ _ (hstarting h rfl)
  · rename_i stale h
    split
    · rename_i owner hpath
      exact .removed i stale owner h hpath
    · exact .failed i _ _ (hstarting h rfl)
  · rename_i h
    split
    · exact .failed i _ _ (hstarting h rfl)
    · rename_i hpath
      exact .bound i h hpath
  · rename_i h
    exact .listens i h
  · rename_i h
    split
    · rename_i owner hpath
      exact .ready i owner h hpath
    · exact .failed i _ _ (hstarting h rfl)
  · exact .idle _

theorem step_cases (s : SocketDir) (e : SocketEvent) : s.Stepped e (s.step e) := by
  cases e with
  | start i =>
    rw [step]
    split
    · rename_i h
      exact .started i h
    · exact .idle _
  | run i => exact s.next_cases i
  | fail i =>
    rw [step]
    split
    · rename_i h
      exact .failed i _ _ h
    · exact .idle _
  | exit i =>
    rw [step]
    split
    · exact .idle _
    · rename_i h
      exact .ended i h

/-! ### Who can be reached -/

/-- A daemon that listens has its socket at the path. -/
def Seated (s : SocketDir) : Prop := ∀ i, (s.phase i).listening = true → s.path = some i

/-- Then there is one at most. -/
theorem Seated.unique {s : SocketDir} (h : s.Seated) {i j : Nat}
    (hi : (s.phase i).listening = true) (hj : (s.phase j).listening = true) : i = j :=
  Option.some.inj ((h i hi).symm.trans (h j hj))

/-- The event removes the socket of a daemon that listens, or a daemon comes to listen whose
socket has been removed. -/
inductive Unseats (s : SocketDir) : SocketEvent → Prop
  | removes (i stale j : Nat) (h : s.phase i = .removing stale) (hpath : s.path = some j)
      (hj : (s.phase j).listening = true) : Unseats s (.run i)
  | listens (j : Nat) (h : s.phase j = .bound) (hpath : s.path ≠ some j) : Unseats s (.run j)

theorem seated_booted (path : Option Nat) : (booted path).Seated := by
  intro i hi
  simp only [booted] at hi
  split at hi <;> cases hi

/-- A process enters a phase in which it does not listen, or listened before. -/
theorem Seated.enter {s : SocketDir} (h : s.Seated) (i : Nat) {phase : BindPhase}
    (hphase : phase.listening = true → (s.phase i).listening = true) :
    (s.enter i phase).Seated := by
  intro j hj
  rw [enter_path]
  rw [enter_phase] at hj
  split at hj
  · rename_i hji
    exact h j (by rw [hji]; exact hphase hj)
  · exact h j hj

/-- **Step**: only the removal of its socket unseats a daemon, be it before it listens. -/
theorem Seated.step {s : SocketDir} (h : s.Seated) {e : SocketEvent} :
    (s.step e).Seated ↔ ¬ s.Unseats e := by
  constructor
  · intro hseated hunseats
    cases hunseats with
    | removes i stale j hphase hpath hj =>
      -- the file is gone, and its daemon listens on
      have hne : j ≠ i := by
        rintro rfl
        rw [hphase] at hj
        cases hj
      have hstep : s.step (.run i) = { s.enter i .binding with path := none } := by
        rw [SocketDir.step, next, hphase, hpath]
      rw [hstep] at hseated
      have hlost := hseated j (by
        show ((s.enter i .binding).phase j).listening = true
        rwa [enter_phase, if_neg hne])
      cases hlost
    | listens j hphase hpath =>
      have hstep : s.step (.run j) = s.enter j .settingMode := by
        rw [SocketDir.step, next, hphase]
      rw [hstep] at hseated
      exact hpath (hseated j (by rw [enter_phase_self]; rfl))
  · intro hnot
    have hcase := s.step_cases e
    generalize s.step e = t at hcase
    cases hcase with
    | idle => exact h
    | started i | found i | clear i | refused i | failed i | ended i => exact h.enter i nofun
    | ready i owner hphase => exact h.enter i fun _ => by rw [hphase]; rfl
    | removed i stale owner hphase hpath =>
      intro j hj
      change ((s.enter i .binding).phase j).listening = true at hj
      rw [enter_phase] at hj
      split at hj
      · cases hj
      · exact absurd (.removes i stale j hphase (h j hj) hj) hnot
    | bound i hphase hpath =>
      intro j hj
      change ((s.enter i .bound).phase j).listening = true at hj
      rw [enter_phase] at hj
      split at hj
      · cases hj
      · have howner := h j hj
        rw [hpath] at howner
        cases howner
    | listens i hphase =>
      intro j hj
      rw [enter_path]
      rw [enter_phase] at hj
      split at hj
      · rename_i hji
        subst hji
        by_contra hpath
        exact hnot (.listens j hphase hpath)
      · exact h j hj

/-! ### How a daemon is unseated -/

/-- A process that has bound its socket, or has ended, binds no other. -/
theorem mayBind_step {s : SocketDir} {j : Nat} (h : (s.phase j).mayBind = false)
    (e : SocketEvent) : ((s.step e).phase j).mayBind = false := by
  have hcase := s.step_cases e
  generalize s.step e = t at hcase
  -- nobody enters a phase before `bind` from one behind it
  have henter {i : Nat} {phase : BindPhase}
      (hphase : phase.mayBind = true → (s.phase i).mayBind = true) :
      ((s.enter i phase).phase j).mayBind = false := by
    rw [enter_phase]
    split
    · rename_i hji
      rw [Bool.eq_false_iff]
      intro hmay
      rw [hji, hphase hmay] at h
      cases h
    · exact h
  cases hcase with
  | idle => exact h
  | started i hi | found i _ hi | clear i hi | refused i _ hi =>
    exact henter fun _ => by rw [hi]; rfl
  | removed i _ _ hi =>
    show ((s.enter i .binding).phase j).mayBind = false
    exact henter fun _ => by rw [hi]; rfl
  | bound i hi =>
    show ((s.enter i .bound).phase j).mayBind = false
    exact henter nofun
  | listens | ready | failed | ended => exact henter nofun

/-- The file at the path, if any, was bound by a process that binds no other. -/
def Owned (s : SocketDir) : Prop := ∀ i, s.path = some i → (s.phase i).mayBind = false

theorem owned_booted (path : Option Nat) : (booted path).Owned := by
  intro i hi
  simp only [booted] at hi ⊢
  rw [if_pos hi]
  rfl

/-- What becomes of the path: it stays, or the file is removed, or a process binds. -/
theorem path_step (s : SocketDir) (e : SocketEvent) :
    (s.step e).path = s.path ∨ (s.step e).path = none ∨
      ∃ i, (s.step e).path = some i ∧ s.path = none ∧ s.phase i = .binding ∧
        (s.step e).phase i = .bound := by
  have hcase := s.step_cases e
  generalize s.step e = t at hcase
  cases hcase with
  | removed => exact Or.inr (Or.inl rfl)
  | bound i hi hpath => exact Or.inr (Or.inr ⟨i, rfl, hpath, hi, s.enter_phase_self i .bound⟩)
  | _ => exact Or.inl rfl

theorem Owned.step {s : SocketDir} (h : s.Owned) (e : SocketEvent) : (s.step e).Owned := by
  intro j hj
  rcases s.path_step e with hpath | hpath | ⟨i, hpath, -, -, hi⟩
  · exact mayBind_step (h j (hpath ▸ hj)) e
  · rw [hpath] at hj
    cases hj
  · rw [hpath, Option.some.injEq] at hj
    rw [← hj, hi]
    rfl

/-- The socket of the process is gone, and it binds no other. -/
structure Lost (s : SocketDir) (j : Nat) : Prop where
  spent : (s.phase j).mayBind = false
  gone : s.path ≠ some j

theorem Lost.step {s : SocketDir} {j : Nat} (h : s.Lost j) (e : SocketEvent) :
    (s.step e).Lost j := by
  refine ⟨mayBind_step h.spent e, fun hj => ?_⟩
  rcases s.path_step e with hpath | hpath | ⟨i, hpath, -, hbinding, -⟩
  · exact h.gone (hpath ▸ hj)
  · rw [hpath] at hj
    cases hj
  · rw [hpath, Option.some.injEq] at hj
    have hspent := h.spent
    rw [← hj, hbinding] at hspent
    cases hspent

/-- **Run**: a socket that is removed does not come back. -/
theorem Lost.after {s : SocketDir} {j : Nat} (h : s.Lost j) (run : List SocketEvent) :
    (after SocketDir.step s run).Lost j :=
  invariant_after (I := fun s : SocketDir => s.Lost j) (fun _ e hlost => hlost.step e) run h

/-- A process whose socket is removed has lost it. -/
theorem lost_of_removed {s : SocketDir} (hs : s.Owned) {i j stale : Nat}
    (hphase : s.phase i = .removing stale) (hpath : s.path = some j) :
    (s.step (.run i)).Lost j := by
  refine ⟨mayBind_step (hs j hpath) _, ?_⟩
  rw [SocketDir.step, next, hphase, hpath]
  exact fun h => by cases h

/-- A process that is about to remove a file has found nobody listening at it. -/
theorem exists_probe {path : Option Nat} {run : List SocketEvent} {i stale : Nat}
    (h : (after step (booted path) run).phase i = .removing stale) :
    ∃ pre post, run = pre ++ .run i :: post ∧
      (after step (booted path) pre).phase i = .probing ∧
      (after step (booted path) pre).path = some stale ∧
      ((after step (booted path) pre).phase stale).listening = false ∧
      (after step (booted path) (pre ++ [.run i])).phase i = .removing stale := by
  have hstart : ¬ (booted path).phase i = .removing stale := by
    simp only [booted]
    split <;> nofun
  obtain ⟨pre, e, post, rfl, hbefore, hentered⟩ :=
    exists_step_of_after (I := fun s : SocketDir => s.phase i = .removing stale) hstart h
  have hcase := (after step (booted path) pre).step_cases e
  have hsame := hentered
  generalize hs : after step (booted path) pre = s at *
  generalize s.step e = t at hcase hentered
  have hother {j : Nat} {phase : BindPhase} (hin : (s.enter j phase).phase i = .removing stale)
      (hphase : phase ≠ .removing stale) : False := by
    rw [enter_phase] at hin
    split at hin
    · exact hphase hin
    · exact hbefore hin
  cases hcase with
  | idle => exact absurd hentered hbefore
  | started | found | clear | listens | ready | failed | ended =>
    exact (hother hentered nofun).elim
  | removed j => exact (hother (show (s.enter j .binding).phase i = _ from hentered) nofun).elim
  | bound j => exact (hother (show (s.enter j .bound).phase i = _ from hentered) nofun).elim
  | refused j owner hphase hpath howner =>
    rw [enter_phase] at hentered
    split at hentered
    · rename_i hij
      subst hij
      cases hentered
      refine ⟨pre, post, rfl, hs ▸ hphase, hs ▸ hpath, hs ▸ howner, ?_⟩
      rw [after_append, hs]
      exact hsame
    · exact absurd hentered hbefore

/-- A process that has bound its socket, and has lost it before it listens: another has
removed it. -/
theorem exists_removal {path : Option Nat} {run : List SocketEvent} {j : Nat}
    (hphase : (after step (booted path) run).phase j = .bound)
    (hpath : (after step (booted path) run).path ≠ some j) :
    ∃ pre i stale post, run = pre ++ .run i :: post ∧
      (after step (booted path) pre).phase i = .removing stale ∧
      (after step (booted path) pre).path = some j := by
  have hstart : ¬ ((booted path).phase j = .bound ∧ (booted path).path ≠ some j) := by
    rintro ⟨h, -⟩
    simp only [booted] at h
    split at h <;> cases h
  obtain ⟨pre, e, post, rfl, hbefore, hentered, hgone⟩ :=
    exists_step_of_after (I := fun s : SocketDir => s.phase j = .bound ∧ s.path ≠ some j) hstart
      ⟨hphase, hpath⟩
  have hcase := (after step (booted path) pre).step_cases e
  generalize hs : after step (booted path) pre = s at *
  generalize s.step e = t at hcase hentered hgone
  have hother {i : Nat} {phase : BindPhase} (hin : (s.enter i phase).phase j = .bound)
      (hphase : phase ≠ .bound) (hgone : s.path ≠ some j) : False := by
    rw [enter_phase] at hin
    split at hin
    · exact hphase hin
    · exact hbefore ⟨hin, hgone⟩
  cases hcase with
  | idle => exact absurd ⟨hentered, hgone⟩ hbefore
  | started | found | clear | refused | listens | ready | failed | ended =>
    exact (hother hentered nofun hgone).elim
  | removed i stale owner hi howner =>
    change (s.enter i .binding).phase j = .bound at hentered
    rw [enter_phase] at hentered
    split at hentered
    · cases hentered
    · have hj : s.path = some j := by
        by_contra hne
        exact hbefore ⟨hentered, hne⟩
      exact ⟨pre, i, stale, post, rfl, hs ▸ hi, hs ▸ hj⟩
  | bound i hi hnone =>
    change (s.enter i .bound).phase j = .bound at hentered
    rw [enter_phase] at hentered
    split at hentered
    · rename_i hji
      exact absurd (congrArg some hji.symm) hgone
    · exact absurd ⟨hentered, by rw [hnone]; exact fun h => by cases h⟩ hbefore

/-- Process `i` probes a file at which nobody listens, when `j` does not listen yet; it removes
the file of `j`; and `j` listens, then or later. -/
structure Takeover (path : Option Nat) (i j stale : Nat) (a b c : List SocketEvent) : Prop where
  probing : (after step (booted path) a).phase i = .probing
  probed : (after step (booted path) a).path = some stale
  dead : ((after step (booted path) a).phase stale).listening = false
  notYet : ((after step (booted path) a).phase j).listening = false
  removing : (after step (booted path) (a ++ .run i :: b)).phase i = .removing stale
  removed : (after step (booted path) (a ++ .run i :: b)).path = some j
  listening : ((after step (booted path) (a ++ .run i :: b ++ .run i :: c)).phase j).listening =
    true

/-- In every state of the run the daemons that listen have their socket at the path. -/
def AlwaysSeated (path : Option Nat) (run : List SocketEvent) : Prop :=
  Along step (fun s e => (s.step e).Seated) (booted path) run

theorem AlwaysSeated.seated (path : Option Nat) {run : List SocketEvent}
    (h : AlwaysSeated path run) : (after step (booted path) run).Seated :=
  Along.invariant (I := Seated) (fun _ _ _ hstep => hstep) h (seated_booted path)

/-- Behind a takeover, a daemon listens that nobody reaches. -/
theorem Takeover.not_seated {path : Option Nat} {i j stale : Nat} {a b c : List SocketEvent}
    (h : Takeover path i j stale a b c) :
    ¬ (after step (booted path) (a ++ .run i :: b ++ .run i :: c)).Seated := by
  intro hseated
  have howned : (after step (booted path) (a ++ .run i :: b)).Owned :=
    invariant_after (fun _ e hs => hs.step e) _ (owned_booted path)
  have hlost := (lost_of_removed howned h.removing h.removed).after c
  rw [← after_cons, ← after_append] at hlost
  exact hlost.gone (hseated j h.listening)

/-- The removal that costs a daemon its socket began with a probe before it listened. -/
theorem exists_takeover {path : Option Nat} {pre c : List SocketEvent} {i j stale : Nat}
    (hpre : AlwaysSeated path pre)
    (hphase : (after step (booted path) pre).phase i = .removing stale)
    (hpath : (after step (booted path) pre).path = some j)
    (hlistening : ((after step (booted path) (pre ++ .run i :: c)).phase j).listening = true) :
    ∃ a b, pre = a ++ .run i :: b ∧ Takeover path i j stale a b c := by
  obtain ⟨a, b, rfl, hprobing, hprobed, hdead, -⟩ := exists_probe hphase
  refine ⟨a, b, rfl, hprobing, hprobed, hdead, ?_, hphase, hpath, hlistening⟩
  -- at the probe `j` did not listen: the file would have been its own
  obtain ⟨hbegins, -⟩ := along_append.mp hpre
  rw [Bool.eq_false_iff]
  intro hj
  have howner := AlwaysSeated.seated path hbegins j hj
  rw [hprobed, Option.some.injEq] at howner
  rw [howner, hj] at hdead
  cases hdead

/-- **A daemon that listens is unseated only by a takeover.**  In every run of any number of
processes, the daemons that listen can be reached, and so there is one at most, unless one
process probes a file at which nobody listens, and removes that of another that did not listen
then and listens in the end. -/
theorem alwaysSeated_iff (path : Option Nat) (run : List SocketEvent) :
    AlwaysSeated path run ↔
      ¬ ∃ i j stale a b c d, Takeover path i j stale a b c ∧
        run = a ++ .run i :: b ++ .run i :: c ++ d := by
  constructor
  · rintro halways ⟨i, j, stale, a, b, c, d, htakeover, rfl⟩
    exact htakeover.not_seated (AlwaysSeated.seated path (along_append.mp halways).1)
  · intro hnot
    by_contra hfails
    obtain ⟨pre, e, post, rfl, hpre, hunseated⟩ := exists_first_of_not_along hfails
    have hseated := AlwaysSeated.seated path hpre
    rw [hseated.step, not_not] at hunseated
    cases hunseated with
    | removes i stale j hphase hpath hj =>
      have hlistening :
          ((after step (booted path) (pre ++ [.run i])).phase j).listening = true := by
        have hne : j ≠ i := by
          rintro rfl
          rw [hphase] at hj
          cases hj
        rw [after_append, after_cons, after_nil, step, next, hphase, hpath]
        show (((after step (booted path) pre).enter i .binding).phase j).listening = true
        rwa [enter_phase, if_neg hne]
      obtain ⟨a, b, rfl, htakeover⟩ := exists_takeover hpre hphase hpath hlistening
      exact hnot ⟨i, j, stale, a, b, [], post, htakeover, by simp⟩
    | listens j hphase hpath =>
      obtain ⟨before, i, stale, c, rfl, hremoving, hfile⟩ := exists_removal hphase hpath
      have hlistening :
          ((after step (booted path) (before ++ .run i :: (c ++ [.run j]))).phase j).listening =
            true := by
        rw [show before ++ .run i :: (c ++ [.run j]) = (before ++ .run i :: c) ++ [.run j] by simp,
          after_append, after_cons, after_nil, step, next, hphase, enter_phase_self]
        rfl
      obtain ⟨a, b, rfl, htakeover⟩ :=
        exists_takeover (along_append.mp hpre).1 hremoving hfile hlistening
      exact hnot ⟨i, j, stale, a, b, c ++ [.run j], post, htakeover, by simp⟩

/-- Two daemons find the file of one that has ended. -/
def twoStarts : List SocketEvent :=
  [.start 1, .start 2, .run 1, .run 1, .run 2, .run 2, .run 1, .run 1, .run 1, .run 1, .run 2,
    .run 2, .run 2, .run 2]

/-- The second finds the file of the first before the first listens. -/
def earlyProbe : List SocketEvent :=
  [.start 1, .start 2, .run 1, .run 1, .run 2, .run 2, .run 2, .run 2, .run 2, .run 1, .run 2,
    .run 1]

/-- In both runs both serve, and only the second can be reached. -/
theorem takeovers_unseat :
    (¬ AlwaysSeated (some 0) twoStarts ∧
      (after step (booted (some 0)) twoStarts).phase 1 = .serving ∧
      (after step (booted (some 0)) twoStarts).phase 2 = .serving ∧
      (after step (booted (some 0)) twoStarts).path = some 2) ∧
    ¬ AlwaysSeated none earlyProbe ∧
      (after step (booted none) earlyProbe).phase 1 = .serving ∧
      (after step (booted none) earlyProbe).phase 2 = .serving ∧
      (after step (booted none) earlyProbe).path = some 2 := by
  refine ⟨⟨?_, by decide, by decide, by decide⟩, ?_, by decide, by decide, by decide⟩
  · -- the second has probed the stale file before the first binds its own
    rw [alwaysSeated_iff, not_not]
    refine ⟨2, 1, 0, [.start 1, .start 2, .run 1, .run 1, .run 2],
      [.run 1, .run 1, .run 1, .run 1], [.run 2], [.run 2, .run 2], ?_, rfl⟩
    exact ⟨by decide, by decide, by decide, by decide, by decide, by decide, by decide⟩
  · rw [alwaysSeated_iff, not_not]
    refine ⟨2, 1, 1, [.start 1, .start 2, .run 1, .run 1, .run 2], [],
      [.run 2, .run 2, .run 1], [.run 2, .run 1], ?_, rfl⟩
    exact ⟨by decide, by decide, by decide, by decide, by decide, by decide, by decide⟩

/-! ### One start after another -/

/-- A daemon is started when no other is inside `bind_control_socket`. -/
def Alone (s : SocketDir) : SocketEvent → Prop
  | .start _ => ∀ k, (s.phase k).starting = false
  | _ => True

/-- One process at most is inside; what it is about to remove is stale, and what it has bound
is there. -/
structure Serial (s : SocketDir) : Prop where
  seated : s.Seated
  one : ∀ i k, (s.phase i).starting = true → (s.phase k).starting = true → i = k
  bound : ∀ i, s.phase i = .bound → s.path = some i
  stale : ∀ i owner, s.phase i = .removing owner →
    s.path = some owner ∧ (s.phase owner).listening = false

theorem Serial.not_unseats {s : SocketDir} (h : s.Serial) (e : SocketEvent) : ¬ s.Unseats e := by
  intro hunseats
  cases hunseats with
  | removes i stale j hphase hpath hj =>
    obtain ⟨howner, hdead⟩ := h.stale i stale hphase
    rw [howner, Option.some.injEq] at hpath
    rw [hpath, hj] at hdead
    cases hdead
  | listens j hphase hpath => exact hpath (h.bound j hphase)

/-- A process goes on, or starts where no other does. -/
theorem Serial.enter {s : SocketDir} (h : s.Serial) (i : Nat) {phase : BindPhase}
    (hstarting : phase.starting = true →
      (s.phase i).starting = true ∨ ∀ k, (s.phase k).starting = false)
    (hlistening : phase.listening = true → (s.phase i).listening = true)
    (hbound : phase ≠ .bound)
    (hremoving : ∀ owner, phase = .removing owner →
      s.path = some owner ∧ (s.phase owner).listening = false) : (s.enter i phase).Serial := by
  have hone {k : Nat} (hphase : phase.starting = true) (hk : (s.phase k).starting = true) :
      i = k := by
    rcases hstarting hphase with hi | hnone
    · exact h.one i k hi hk
    · rw [hnone k] at hk
      cases hk
  have hsilent {owner : Nat} (hdead : (s.phase owner).listening = false) :
      ((s.enter i phase).phase owner).listening = false := by
    rw [enter_phase]
    split
    · rename_i howner
      rw [Bool.eq_false_iff]
      intro hnew
      rw [howner, hlistening hnew] at hdead
      cases hdead
    · exact hdead
  refine ⟨h.seated.enter i hlistening, fun j k hj hk => ?_, fun j hj => ?_, fun j owner hj => ?_⟩
  · rw [enter_phase] at hj hk
    split at hj <;> split at hk
    · rename_i hji hki
      rw [hji, hki]
    · rename_i hji _
      rw [hji]
      exact hone hj hk
    · rename_i _ hki
      rw [hki]
      exact (hone hk hj).symm
    · exact h.one j k hj hk
  · rw [enter_phase] at hj
    split at hj
    · exact absurd hj hbound
    · exact h.bound j hj
  · rw [enter_phase] at hj
    split at hj
    · obtain ⟨hpath, hdead⟩ := hremoving owner hj
      exact ⟨hpath, hsilent hdead⟩
    · obtain ⟨hpath, hdead⟩ := h.stale j owner hj
      exact ⟨hpath, hsilent hdead⟩

/-- While one process is inside, no other is in a phase of `bind_control_socket`. -/
theorem Serial.enter_phase_ne {s : SocketDir} (h : s.Serial) {i : Nat}
    (hi : (s.phase i).starting = true) {entered phase : BindPhase} (hentered : entered ≠ phase)
    (hphase : phase.starting = true) (j : Nat) : (s.enter i entered).phase j ≠ phase := by
  rw [enter_phase]
  split
  · exact hentered
  · rename_i hne
    intro hj
    exact hne (h.one j i (by rw [hj]; exact hphase) hi)

/-- A process goes on inside, and still is the only one. -/
theorem Serial.one_enter {s : SocketDir} (h : s.Serial) {i : Nat}
    (hi : (s.phase i).starting = true) (entered : BindPhase) (j k : Nat)
    (hj : ((s.enter i entered).phase j).starting = true)
    (hk : ((s.enter i entered).phase k).starting = true) : j = k := by
  have hsame {l : Nat} (hl : ((s.enter i entered).phase l).starting = true) : l = i := by
    rw [enter_phase] at hl
    split at hl
    · assumption
    · exact h.one l i hl hi
  rw [hsame hj, hsame hk]

theorem Serial.step {s : SocketDir} (h : s.Serial) {e : SocketEvent} (he : s.Alone e) :
    (s.step e).Serial := by
  have hseated := h.seated.step.mpr (h.not_unseats e)
  have hcase := s.step_cases e
  generalize s.step e = t at hcase hseated
  have hinside {i : Nat} {phase : BindPhase} (hi : s.phase i = phase)
      (hphase : phase.starting = true) : (s.phase i).starting = true := by rwa [hi]
  cases hcase with
  | idle => exact h
  | started i => exact h.enter i (fun _ => Or.inr he) nofun nofun nofun
  | found i owner hi => exact h.enter i (fun _ => Or.inl (hinside hi rfl)) nofun nofun nofun
  | clear i hi => exact h.enter i (fun _ => Or.inl (hinside hi rfl)) nofun nofun nofun
  | refused i owner hi hpath howner =>
    refine h.enter i (fun _ => Or.inl (hinside hi rfl)) nofun nofun fun stale hstale => ?_
    cases hstale
    exact ⟨hpath, howner⟩
  | ready i owner hi => exact h.enter i nofun (fun _ => by rw [hi]; rfl) nofun nofun
  | failed i => exact h.enter i nofun nofun nofun nofun
  | ended i => exact h.enter i nofun nofun nofun nofun
  | removed i stale owner hi =>
    have hin := hinside hi rfl
    refine ⟨hseated, h.one_enter hin .binding, fun j hj => ?_, fun j owner hj => ?_⟩
    · have hne : BindPhase.binding ≠ .bound := nofun
      exact absurd hj (h.enter_phase_ne hin hne rfl j)
    · have hne : BindPhase.binding ≠ .removing owner := nofun
      exact absurd hj (h.enter_phase_ne hin hne rfl j)
  | bound i hi =>
    have hin := hinside hi rfl
    refine ⟨hseated, h.one_enter hin .bound, fun j hj => ?_, fun j owner hj => ?_⟩
    · have hji : j = i := h.one_enter hin .bound j i
        (show ((s.enter i .bound).phase j).starting = true by
          rw [show (s.enter i .bound).phase j = .bound from hj]; rfl)
        (by rw [enter_phase_self]; rfl)
      exact congrArg some hji.symm
    · have hne : BindPhase.bound ≠ .removing owner := nofun
      exact absurd hj (h.enter_phase_ne hin hne rfl j)
  | listens i hi =>
    have hin := hinside hi rfl
    refine ⟨hseated, h.one_enter hin .settingMode, fun j hj => ?_, fun j owner hj => ?_⟩
    · have hne : BindPhase.settingMode ≠ .bound := nofun
      exact absurd hj (h.enter_phase_ne hin hne rfl j)
    · have hne : BindPhase.settingMode ≠ .removing owner := nofun
      exact absurd hj (h.enter_phase_ne hin hne rfl j)

theorem serial_booted (path : Option Nat) : (booted path).Serial := by
  have hquiet (i : Nat) : ((booted path).phase i).starting = false := by
    simp only [booted]
    split <;> rfl
  refine ⟨seated_booted path, fun i k hi _ => ?_, fun i hi => ?_, fun i owner hi => ?_⟩
  · rw [hquiet i] at hi
    cases hi
  · have hstarting := hquiet i
    rw [hi] at hstarting
    cases hstarting
  · have hstarting := hquiet i
    rw [hi] at hstarting
    cases hstarting

/-- **Daemons started one after another do not unseat each other**, whatever files are left
behind and whenever they end. -/
theorem alwaysSeated_of_alone (path : Option Nat) {run : List SocketEvent}
    (h : Along step Alone (booted path) run) : AlwaysSeated path run :=
  h.mono_of_invariant (I := Serial) (fun _ _ hserial he => hserial.step he)
    (fun _ _ hserial he => (hserial.step he).seated) (serial_booted path)

/-- A daemon that has ended leaves its file to the next. -/
theorem restart_alwaysSeated :
    AlwaysSeated none [.start 1, .run 1, .run 1, .run 1, .run 1, .exit 1, .start 2, .run 2,
      .run 2, .run 2, .run 2, .run 2, .run 2] := by
  refine alwaysSeated_of_alone none ⟨fun k => rfl, trivial, trivial, trivial, trivial, trivial,
    fun k => ?_, trivial, trivial, trivial, trivial, trivial, trivial, trivial⟩
  -- the first has ended
  by_cases hk : k = 1 <;> simp [step, next, enter, booted, hk, BindPhase.starting]

/-! ### One start alone -/

/-- A start and as many system calls as it can take. -/
def loneStart (i : Nat) : List SocketEvent :=
  [.start i, .run i, .run i, .run i, .run i, .run i, .run i]

/-- The lone start where a daemon listens at the path. -/
theorem loneStart_taken {s : SocketDir} {i owner : Nat} (hi : s.phase i = .absent)
    (hpath : s.path = some owner) (howner : (s.phase owner).listening = true) :
    after step s (loneStart i) = s.enter i (.failed .alreadyRunning) := by
  have hne : owner ≠ i := by
    rintro rfl
    rw [hi] at howner
    cases howner
  simp [loneStart, after, step, next, enter, hi, hpath, hne, howner]

/-- Where a file is stale. -/
theorem loneStart_stale {s : SocketDir} {i owner : Nat} (hi : s.phase i = .absent)
    (hpath : s.path = some owner) (howner : (s.phase owner).listening = false) :
    after step s (loneStart i) = { s.enter i .serving with path := some i } := by
  by_cases hne : owner = i
  · subst hne
    simp [loneStart, after, step, next, enter, hi, hpath, BindPhase.listening]
  · simp [loneStart, after, step, next, enter, hi, hpath, hne, howner]

/-- Where there is no file. -/
theorem loneStart_clear {s : SocketDir} {i : Nat} (hi : s.phase i = .absent)
    (hpath : s.path = none) :
    after step s (loneStart i) = { s.enter i .serving with path := some i } := by
  simp [loneStart, after, step, next, enter, hi, hpath]

/-- **A start that no other process disturbs.**  It fails if a daemon listens, and changes
nothing else; otherwise it ends with the daemon serving at its own socket, whatever file it
has found. -/
theorem start_alone {s : SocketDir} (h : s.Seated) {i : Nat} (hi : s.phase i = .absent) :
    let t := after step s (loneStart i)
    (∀ j, j ≠ i → t.phase j = s.phase j) ∧
      ((∃ j, (s.phase j).listening = true) →
        t.phase i = .failed .alreadyRunning ∧ t.path = s.path) ∧
      ((∀ j, (s.phase j).listening = false) → t.phase i = .serving ∧ t.path = some i) := by
  intro t
  have hserving (ht : t = { s.enter i .serving with path := some i })
      (hnone : ∀ j, (s.phase j).listening = false) :
      (∀ j, j ≠ i → t.phase j = s.phase j) ∧
        ((∃ j, (s.phase j).listening = true) →
          t.phase i = .failed .alreadyRunning ∧ t.path = s.path) ∧
        ((∀ j, (s.phase j).listening = false) → t.phase i = .serving ∧ t.path = some i) := by
    rw [ht]
    refine ⟨fun j hj => ?_, ?_, fun _ => ⟨s.enter_phase_self i .serving, rfl⟩⟩
    · show (s.enter i .serving).phase j = s.phase j
      rw [enter_phase, if_neg hj]
    · rintro ⟨j, hj⟩
      rw [hnone j] at hj
      cases hj
  by_cases htaken : ∃ j, (s.phase j).listening = true
  · obtain ⟨owner, howner⟩ := htaken
    have ht : t = s.enter i (.failed .alreadyRunning) :=
      loneStart_taken hi (h owner howner) howner
    rw [ht]
    refine ⟨fun j hj => ?_, fun _ => ⟨s.enter_phase_self i _, rfl⟩, fun hnone => ?_⟩
    · rw [enter_phase, if_neg hj]
    · rw [hnone owner] at howner
      cases howner
  · have hnone : ∀ j, (s.phase j).listening = false :=
      fun j => Bool.eq_false_iff.mpr fun hj => htaken ⟨j, hj⟩
    rcases Option.eq_none_or_eq_some s.path with hpath | ⟨owner, hpath⟩
    · exact hserving (loneStart_clear hi hpath) hnone
    · exact hserving (loneStart_stale hi hpath (hnone owner)) hnone

/-- Behind a daemon that has ended. -/
theorem start_behind_ended :
    let t := after step (booted (some 0)) (loneStart 1)
    (∀ j, j ≠ 1 → t.phase j = (booted (some 0)).phase j) ∧
      ((∃ j, ((booted (some 0)).phase j).listening = true) →
        t.phase 1 = .failed .alreadyRunning ∧ t.path = (booted (some 0)).path) ∧
      ((∀ j, ((booted (some 0)).phase j).listening = false) →
        t.phase 1 = .serving ∧ t.path = some 1) :=
  start_alone (seated_booted (some 0)) rfl

end SocketDir

end Moatd

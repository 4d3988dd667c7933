import Moatd.AttachLoop
import Moatd.DataPath
import Moatd.Runs

/-!
# Parsing at the right offset

The data path skips an Ethernet header unless `IFACE_L2` says that an interface has none.
The entry is made by a separate insert, which fails where the map is full, and the
interface counts as attached all the same.  Interfaces come and go and their entries stay,
so in the end a tunnel may come and find no room.  As long as this does not happen all
offsets are right (`along_offsetsRight_iff`).
-/

namespace Moatd

/-! ### The property and the condition -/

/-- An interface that is recorded as attached is parsed at the offset for its link
type. -/
def Links.OffsetsRight (w : Links) : Prop :=
  ∀ name i, w.net.index name = some i → w.attached.lookup name = some i →
    ∀ s : DataPath, s.ifaceL2 = w.ifaceL2.get → (s.l2OffFor i = 0 ↔ ifaceL2Len w.net name = 0)

/-- An interface that comes has a number no interface has had, and one that stays keeps its
link type. -/
def FreshNumbers (w : Links) : LinkStep → Prop
  | .change net => ∀ name i, net.index name = some i →
      (w.net.index name = some i ∧ w.net.type name = net.type name) ∨ i ∉ w.used
  | .go _ => True

/-- The condition on a step: if it records that an interface has no L2 header, and
`IFACE_L2` has no entry for it, then there is room for one. -/
def HasRoom (w : Links) : LinkStep → Prop
  | .change _ => True
  | .go _ => ∀ initial name i todo, w.phase = .numbered initial name i (some i) todo →
      w.net.index name = some i → ifaceL2Len w.net name = 0 → w.ifaceL2.get i = none →
      w.ifaceL2.size < ifaceL2Max

/-! ### What the loops can rely on -/

/-- The numbers of these entries have been in use. -/
def FoundIn (used : List UInt32) (entries : IfaceSnapshot) : Prop := ∀ e ∈ entries, e.2.1 ∈ used

/-- What is known of a phase.  Where the number has been read again, it is the interface's
own if the interface is still the one of the snapshot, and no other interface has it. -/
def AttachPhase.Known (net : LinkNet) (used : List UInt32) : AttachPhase → Prop
  | .waiting => True
  | .listing _ _ found => FoundIn used found
  | .looping _ todo => FoundIn used todo
  | .attaching _ _ ifindex todo => ifindex ∈ used ∧ FoundIn used todo
  | .numbered _ name ifindex number todo =>
    (ifindex ∈ used ∧ FoundIn used todo) ∧
      (net.index name = some ifindex → number = some ifindex) ∧
      ∀ k, number = some k → k ∈ used ∧ ∀ other, net.index other = some k → other = name

/-- What all steps keep, next to the offsets: which numbers have been used. -/
structure Links.Inv (w : Links) : Prop where
  usedNet : ∀ name i, w.net.index name = some i → i ∈ w.used
  usedAttached : ∀ name i, w.attached.lookup name = some i → i ∈ w.used
  known : w.phase.Known w.net w.used
  right : w.OffsetsRight

theorem LinkNet.mem_indices {net : LinkNet} {name : String} {i : UInt32}
    (h : net.index name = some i) : i ∈ net.indices := by
  have hname : name ∈ net.names := by
    by_contra hnot
    have hnone : net.sysNet.lookup name = none := by
      rw [List.lookup_eq_none_iff]
      intro e he
      obtain ⟨dir, hdir, rfl⟩ := List.mem_map.mp he
      have hne : name ≠ dir.1 := fun heq => hnot (List.mem_map.mpr ⟨dir, hdir, heq.symm⟩)
      simpa using hne
    rw [LinkNet.index, ifaceIfindex, hnone] at h
    cases h
  exact List.mem_filterMap.mpr ⟨name, hname, h⟩

theorem index_of_ifaceState {net : LinkNet} {name : String} {state : IfaceState}
    (h : ifaceState net.sysNet name = some state) : net.index name = some state.1 := by
  unfold ifaceState at h
  unfold LinkNet.index ifaceIfindex
  cases hdir : net.sysNet.lookup name with
  | none =>
    rw [hdir] at h
    cases h
  | some dir =>
    rw [hdir, Option.bind_some] at h
    obtain ⟨i, hi, rfl⟩ := Option.map_eq_some_iff.mp h
    exact hi

/-! ### Changes -/

section Change
variable {w : Links} {net : LinkNet}

/-- A number in use stays with its interface. -/
theorem index_of_used (hfresh : FreshNumbers w (.change net)) {name : String} {i : UInt32}
    (hi : net.index name = some i) (hused : i ∈ w.used) :
    w.net.index name = some i ∧ w.net.type name = net.type name := by
  rcases hfresh name i hi with h | h
  · exact h
  · exact absurd hused h

theorem AttachPhase.Known.change {phase : AttachPhase} (h : phase.Known w.net w.used)
    (hfresh : FreshNumbers w (.change net)) :
    phase.Known net (w.used ++ net.indices) := by
  have hfound : ∀ {entries}, FoundIn w.used entries → FoundIn (w.used ++ net.indices) entries :=
    fun hentries e he => List.mem_append_left _ (hentries e he)
  cases phase with
  | waiting => trivial
  | listing | looping => exact hfound h
  | attaching => exact ⟨List.mem_append_left _ h.1, hfound h.2⟩
  | numbered initial name ifindex number todo =>
    obtain ⟨⟨hused, htodo⟩, hown, hothers⟩ := h
    refine ⟨⟨List.mem_append_left _ hused, hfound htodo⟩, fun hi => ?_, fun k hk => ?_⟩
    · exact hown (index_of_used hfresh hi hused).1
    · obtain ⟨hkused, hk⟩ := hothers k hk
      exact ⟨List.mem_append_left _ hkused,
        fun other hother => hk other (index_of_used hfresh hother hkused).1⟩

theorem Links.Inv.change {filter : String → Bool} (h : w.Inv)
    (hfresh : FreshNumbers w (.change net)) : (w.step filter (.change net)).Inv where
  usedNet name i hi := List.mem_append_right _ (LinkNet.mem_indices hi)
  usedAttached name i hi := List.mem_append_left _ (h.usedAttached name i hi)
  known := h.known.change hfresh
  right name i hi hattached s hs := by
    obtain ⟨hold, htype⟩ := index_of_used hfresh hi (h.usedAttached name i hattached)
    have hlen : ifaceL2Len net name = ifaceL2Len w.net name := by
      rw [ifaceL2Len, ← htype]
      rfl
    exact (h.right name i hold hattached s hs).trans (by rw [← hlen]; rfl)

end Change

/-! ### Recording -/

section Record
variable {ifaceL2 : BoundedMap UInt32 UInt8 ifaceL2Max} {i : UInt32} {l2Len : UInt8}

theorem get_setIfaceL2_ne {k : UInt32} (hne : i ≠ k) :
    (setIfaceL2 ifaceL2 k l2Len).get i = ifaceL2.get i := by
  unfold setIfaceL2
  cases h : ifaceL2.insert k l2Len with
  | none => rfl
  | some m => exact BoundedMap.get_insert_ne h hne

/-- The data path has the right offset, unless a raw interface did not get its entry. -/
theorem l2OffFor_setIfaceL2_iff {s : DataPath} (hs : s.ifaceL2 = (setIfaceL2 ifaceL2 i l2Len).get) :
    (s.l2OffFor i = 0 ↔ l2Len = 0) ↔
      (l2Len = 0 → ifaceL2.get i = none → ifaceL2.size < ifaceL2Max) := by
  have hsize : ifaceL2.size ≤ ifaceL2Max := ifaceL2.hsize
  unfold DataPath.l2OffFor
  rw [hs, setIfaceL2]
  cases h : ifaceL2.insert i l2Len with
  | none =>
    obtain ⟨hget, hfull⟩ := BoundedMap.insert_eq_none_iff.mp h
    rw [Option.getD_none, hget, hfull]
    simp [ethHdrLen]
  | some m =>
    rw [Option.getD_some, BoundedMap.get_insert h]
    refine iff_of_true ?_ fun _ hget => ?_
    · exact UInt8.toNat_inj (b := 0)
    · by_contra hroom
      have hnone : ifaceL2.insert i l2Len = none :=
        BoundedMap.insert_eq_none_iff.mpr ⟨hget, by omega⟩
      rw [h] at hnone
      cases hnone

end Record

/-! ### The steps of the loops -/

section Go
variable {filter : String → Bool} {w : Links} {attaches : Bool}

/-- The loops leave the interfaces alone. -/
theorem Links.go_frame :
    (w.go filter attaches).net = w.net ∧ (w.go filter attaches).used = w.used := by
  unfold Links.go
  split
  · exact ⟨rfl, rfl⟩
  · exact ⟨rfl, rfl⟩
  · split <;> exact ⟨rfl, rfl⟩
  · exact ⟨rfl, rfl⟩
  · split_ifs <;> exact ⟨rfl, rfl⟩
  · exact ⟨rfl, rfl⟩
  · exact ⟨rfl, rfl⟩

/-- Only the end of `attach_to_iface` records anything. -/
theorem Links.go_recorded (filter : String → Bool) (attaches : Bool)
    (h : ∀ initial name ifindex number todo, w.phase ≠ .numbered initial name ifindex number todo) :
    (w.go filter attaches).attached = w.attached ∧ (w.go filter attaches).ifaceL2 = w.ifaceL2 := by
  unfold Links.go
  split
  · exact ⟨rfl, rfl⟩
  · exact ⟨rfl, rfl⟩
  · split <;> exact ⟨rfl, rfl⟩
  · exact ⟨rfl, rfl⟩
  · split_ifs <;> exact ⟨rfl, rfl⟩
  · exact ⟨rfl, rfl⟩
  · rename_i hphase
    exact absurd hphase (h _ _ _ _ _)

theorem Links.Inv.known_go (h : w.Inv) :
    (w.go filter attaches).phase.Known w.net w.used := by
  have hknown := h.known
  unfold Links.go
  split
  · exact fun e he => by cases he
  · rename_i hphase
    rw [hphase] at hknown
    exact hknown
  · rename_i initial name names found hphase
    rw [hphase] at hknown
    cases hstate : ifaceState w.net.sysNet name with
    | none => exact hknown
    | some state =>
      intro e he
      rcases List.mem_append.mp he with he | he
      · exact hknown e he
      · rw [List.mem_singleton.mp he]
        exact h.usedNet name _ (index_of_ifaceState hstate)
  · trivial
  · rename_i initial name ifindex up todo hphase
    rw [hphase] at hknown
    have htodo : FoundIn w.used todo := fun e he => hknown e (List.mem_cons_of_mem _ he)
    split_ifs
    · exact htodo
    · exact htodo
    · exact ⟨hknown (name, ifindex, up) List.mem_cons_self, htodo⟩
    · exact htodo
  · rename_i initial name ifindex todo hphase
    rw [hphase] at hknown
    -- the number that is read is the one the interface has now
    exact ⟨hknown, fun hi => hi, fun k hk => ⟨h.usedNet name k hk,
      fun other hother => w.net.hdistinct other name k hother hk⟩⟩
  · rename_i hphase
    rw [hphase] at hknown
    exact hknown.1.2

theorem Links.Inv.usedAttached_go (h : w.Inv) {name : String} {i : UInt32}
    (hi : (w.go filter attaches).attached.lookup name = some i) : i ∈ w.used := by
  by_cases hphase : ∃ initial name ifindex number todo,
      w.phase = .numbered initial name ifindex number todo
  · obtain ⟨initial, recorded, ifindex, number, todo, hphase⟩ := hphase
    have hknown := h.known
    simp only [Links.go, hphase] at hi hknown
    by_cases hname : name = recorded
    · subst hname
      rw [AList.lookup_insert] at hi
      cases hi
      exact hknown.1.1
    · rw [AList.lookup_insert_ne hname] at hi
      exact h.usedAttached name i hi
  · have hno : ∀ initial name ifindex number todo,
        w.phase ≠ .numbered initial name ifindex number todo :=
      fun _ _ _ _ _ heq => hphase ⟨_, _, _, _, _, heq⟩
    rw [(Links.go_recorded _ _ hno).1] at hi
    exact h.usedAttached name i hi

/-- **What a step does to the offsets**: they stay right exactly if there is room for the
entry of a raw interface. -/
theorem Links.Inv.offsetsRight_go_iff (h : w.Inv) :
    (w.go filter attaches).OffsetsRight ↔ HasRoom w (.go attaches) := by
  by_cases hphase : ∃ initial name ifindex number todo,
      w.phase = .numbered initial name ifindex number todo
  · obtain ⟨initial, recorded, ifindex, number, todo, hphase⟩ := hphase
    have hknown := h.known
    rw [hphase] at hknown
    obtain ⟨-, hown, hothers⟩ := hknown
    constructor
    · intro hright initial' name i todo' hphase' hi hlen hget
      cases hphase.symm.trans hphase'
      have hrecorded := hright recorded ifindex
      simp only [Links.go, hphase] at hrecorded
      exact (l2OffFor_setIfaceL2_iff (s := ⟨Maps.zeroed, _, fun _ => none⟩) rfl).mp
        (hrecorded hi (AList.lookup_insert _) ⟨Maps.zeroed, _, fun _ => none⟩ rfl) hlen hget
    · intro hroom name i hi hattached s hs
      simp only [Links.go, hphase] at hi hattached hs
      rw [Links.go_frame.1]
      by_cases hname : name = recorded
      · subst hname
        rw [AList.lookup_insert] at hattached
        cases hattached
        obtain rfl := hown hi
        exact (l2OffFor_setIfaceL2_iff hs).mpr fun hlen hget =>
          hroom initial name ifindex todo hphase hi hlen hget
      · -- another interface: its entry is left alone
        rw [AList.lookup_insert_ne hname] at hattached
        have hget : s.ifaceL2 i = w.ifaceL2.get i := by
          cases number with
          | none => rw [hs]
          | some k =>
            have hne : i ≠ k := by
              rintro rfl
              exact hname ((hothers i rfl).2 name hi)
            rw [hs]
            exact get_setIfaceL2_ne hne
        have hold := h.right name i hi hattached ⟨s.maps, w.ifaceL2.get, s.conntrack⟩ rfl
        unfold DataPath.l2OffFor at hold ⊢
        rwa [hget]
  · have hno : ∀ initial name ifindex number todo,
        w.phase ≠ .numbered initial name ifindex number todo :=
      fun _ _ _ _ _ heq => hphase ⟨_, _, _, _, _, heq⟩
    refine iff_of_true ?_ fun initial name i todo heq => absurd heq (hno _ _ _ _ _)
    obtain ⟨hattached, hifaceL2⟩ := Links.go_recorded filter attaches hno
    unfold Links.OffsetsRight
    rw [hattached, hifaceL2, Links.go_frame.1]
    exact h.right

theorem Links.Inv.go (h : w.Inv) (hroom : HasRoom w (.go attaches)) :
    (w.go filter attaches).Inv where
  usedNet name i hi := by
    rw [Links.go_frame.1] at hi
    rw [Links.go_frame.2]
    exact h.usedNet name i hi
  usedAttached name i hi := by
    rw [Links.go_frame.2]
    exact h.usedAttached_go hi
  known := by
    rw [Links.go_frame.1, Links.go_frame.2]
    exact h.known_go
  right := h.offsetsRight_go_iff.mpr hroom

end Go

/-! ### Runs -/

theorem Links.inv_start (net : LinkNet) : (Links.start net).Inv where
  usedNet name i hi := LinkNet.mem_indices hi
  usedAttached name i hi := by cases hi
  known e he := by cases he
  right name i hi hattached := by cases hattached

/-- **When all attached interfaces are parsed at the right offset.**  In a run in which
interfaces come with fresh numbers, the offsets are right after every step exactly if
every step has room for the entry it needs. -/
theorem along_offsetsRight_iff (filter : String → Bool) (net : LinkNet) {run : List LinkStep}
    (hfresh : Runs.Along (Links.step filter) FreshNumbers (Links.start net) run) :
    Runs.Along (Links.step filter) (fun w l => (w.step filter l).OffsetsRight)
        (Links.start net) run ↔
      Runs.Along (Links.step filter) HasRoom (Links.start net) run := by
  have hstep : ∀ (w : Links) (l : LinkStep), w.Inv → FreshNumbers w l ∧ HasRoom w l →
      (w.step filter l).Inv := by
    rintro w l h ⟨hfresh, hroom⟩
    cases l with
    | change net => exact h.change hfresh
    | go attaches => exact h.go hroom
  have hiff : ∀ (w : Links) (l : LinkStep), w.Inv →
      (FreshNumbers w l ∧ (w.step filter l).OffsetsRight ↔ FreshNumbers w l ∧ HasRoom w l) := by
    intro w l h
    refine and_congr_right fun hfresh => ?_
    cases l with
    | change net => exact iff_of_true (h.change hfresh).right trivial
    | go attaches => exact h.offsetsRight_go_iff
  have hboth := Runs.along_congr_of_invariant hstep hiff run (Links.inv_start net)
  rw [Runs.along_and, Runs.along_and] at hboth
  exact ⟨fun h => (hboth.mp ⟨hfresh, h⟩).2, fun h => (hboth.mpr ⟨hfresh, h⟩).2⟩

/-! ### One interface after another -/

/-- A machine with this interface only. -/
def oneLink (name : String) (dir : LinkDir) : LinkNet where
  dirs := [(name, dir)]
  hdistinct n n' i hn hn' := by
    have hname : ∀ m, ifaceIfindex (linkSysNet [(name, dir)]) m = some i → m = name := by
      intro m hm
      by_contra hne
      have hbeq : (m == name) = false := by simpa using hne
      simp [linkSysNet, ifaceIfindex, List.lookup_cons, hbeq] at hm
    rw [hname n hn, hname n' hn']

/-- It comes, and the next tick attaches to it. -/
def comesAlone (name : String) (dir : LinkDir) : List LinkStep :=
  .change (oneLink name dir) :: List.replicate 7 (.go true)

section Alone
variable {filter : String → Bool} {w : Links} {name : String} {dir : LinkDir} {i : UInt32}

theorem oneLink_index (name : String) (hi : dir.index = some i) :
    (oneLink name dir).index name = some i ∧ (oneLink name dir).indices = [i] ∧
      ifaceState (oneLink name dir).sysNet name = some (i, dir.isUp) := by
  have hlookup : (oneLink name dir).sysNet.lookup name = some dir.toIfaceDir :=
    List.lookup_cons_self
  have hindex : (oneLink name dir).index name = some i := by
    rw [LinkNet.index, ifaceIfindex, hlookup]
    exact hi
  refine ⟨hindex, ?_, ?_⟩
  · exact List.filterMap_cons_some hindex
  · rw [ifaceState, hlookup, Option.bind_some, hi]
    rfl

theorem after_comesAlone (hfilter : filter name = true) (hi : dir.index = some i)
    (hwaiting : w.phase = .waiting) (hnew : w.attached.lookup name ≠ some i) :
    ∃ attachedInterfaces,
      Runs.after (Links.step filter) w (comesAlone name dir) =
        { net := oneLink name dir
          used := w.used ++ [i]
          attached := w.attached.insert name i
          attachedInterfaces
          ifaceL2 := setIfaceL2 w.ifaceL2 i (ifaceL2Len (oneLink name dir) name)
          phase := .waiting } := by
  obtain ⟨hindex, hindices, hstate⟩ := oneLink_index name hi
  have hnames : (oneLink name dir).names = [name] := rfl
  simp [comesAlone, List.replicate, Runs.after, Links.step, Links.go, hwaiting, hnames, hstate,
    hindex, hindices, hnew, hfilter]

theorem comesAlone_fresh (hi : dir.index = some i) (hused : i ∉ w.used) :
    Runs.Along (Links.step filter) FreshNumbers w (comesAlone name dir) := by
  refine ⟨fun n k hk => Or.inr ?_, ?_⟩
  · have hmem := LinkNet.mem_indices hk
    rw [(oneLink_index name hi).2.1, List.mem_singleton] at hmem
    rwa [hmem]
  · exact ⟨trivial, trivial, trivial, trivial, trivial, trivial, trivial, trivial⟩

end Alone

/-- A modem. -/
def usbDir (number : Nat) : LinkDir := ⟨⟨some "up\n", some (toString number)⟩, some "1\n"⟩

/-- A tunnel. -/
def tunDir : LinkDir := ⟨⟨some "unknown\n", some "65\n"⟩, some "65534\n"⟩

/-- No interfaces. -/
def noLinks : LinkNet := ⟨[], fun _ _ _ h => by cases h⟩

/-- The initial loop without interfaces, and then a modem that is plugged in `n` times. -/
def replugged (n : Nat) : List LinkStep :=
  List.replicate 2 (.go true) ++
    (List.range n).flatMap fun k => comesAlone "usb0" (usbDir (k + 1))

theorem usb0_passes : ifaceFilter none "usb0" = true := by decide

theorem tun0_passes : ifaceFilter none "tun0" = true := by decide

theorem usbDir_index : ∀ number ≤ 64, (usbDir number).index = some (UInt32.ofNat number) := by
  decide

/-- What this leaves behind: numbers up to `n`, and as many entries. -/
structure Links.HasSeen (w : Links) (n : Nat) : Prop where
  waiting : w.phase = .waiting
  used : ∀ i ∈ w.used, i.toNat ≤ n
  attached : ∀ name i, w.attached.lookup name = some i → i.toNat ≤ n
  entries : ∀ i, w.ifaceL2.get i ≠ none → i.toNat ≤ n
  size : w.ifaceL2.size = n

theorem Links.HasSeen.next {w : Links} {n : Nat} (h : w.HasSeen n) (hn : n < ifaceL2Max) :
    Runs.Along (Links.step (ifaceFilter none)) FreshNumbers w
        (comesAlone "usb0" (usbDir (n + 1))) ∧
      (Runs.after (Links.step (ifaceFilter none)) w (comesAlone "usb0" (usbDir (n + 1)))).HasSeen
        (n + 1) := by
  have hindex := usbDir_index (n + 1) hn
  have htoNat : (UInt32.ofNat (n + 1)).toNat = n + 1 := by
    unfold ifaceL2Max at hn
    rw [UInt32.toNat_ofNat']
    omega
  generalize UInt32.ofNat (n + 1) = number at hindex htoNat
  -- numbers so far are at most `n`, so the new one is none of them
  have hused : number ∉ w.used := fun hmem => by
    have := h.used number hmem
    omega
  have hnew : w.attached.lookup "usb0" ≠ some number := fun hlookup => by
    have := h.attached _ number hlookup
    omega
  have hentry : w.ifaceL2.get number = none := by
    by_contra hget
    have := h.entries number hget
    omega
  refine ⟨comesAlone_fresh hindex hused, ?_⟩
  obtain ⟨attachedInterfaces, hafter⟩ := after_comesAlone usb0_passes hindex h.waiting hnew
  -- the new number has an entry, since there was room
  obtain ⟨ifaceL2, hinsert⟩ : ∃ m, w.ifaceL2.insert number
      (ifaceL2Len (oneLink "usb0" (usbDir (n + 1))) "usb0") = some m := by
    rw [← Option.ne_none_iff_exists', ne_eq, BoundedMap.insert_eq_none_iff, h.size]
    omega
  rw [hafter, setIfaceL2, hinsert]
  refine ⟨rfl, fun i hi => ?_, fun name i hi => ?_, fun i hi => ?_, ?_⟩
  · rcases List.mem_append.mp hi with hi | hi
    · exact Nat.le_succ_of_le (h.used i hi)
    · rw [List.mem_singleton.mp hi, htoNat]
  · by_cases hname : name = "usb0"
    · subst hname
      rw [AList.lookup_insert] at hi
      cases hi
      omega
    · rw [AList.lookup_insert_ne hname] at hi
      exact Nat.le_succ_of_le (h.attached name i hi)
  · by_cases hne : i = number
    · rw [hne, htoNat]
    · rw [Option.getD_some, BoundedMap.get_insert_ne hinsert hne] at hi
      exact Nat.le_succ_of_le (h.entries i hi)
  · rw [Option.getD_some, BoundedMap.size_insert hentry hinsert, h.size]

theorem after_replugged {n : Nat} (hn : n ≤ ifaceL2Max) :
    Runs.Along (Links.step (ifaceFilter none)) FreshNumbers (Links.start noLinks) (replugged n) ∧
      (Runs.after (Links.step (ifaceFilter none)) (Links.start noLinks) (replugged n)).HasSeen
        n := by
  induction n with
  | zero =>
    refine ⟨⟨trivial, trivial, trivial⟩, rfl, ?_, ?_, ?_, rfl⟩
    · exact fun i hi => by cases hi
    · exact fun name i hi => by cases hi
    · exact fun i hi => absurd rfl hi
  | succ n ih =>
    obtain ⟨hfresh, hseen⟩ := ih (Nat.le_of_succ_le hn)
    obtain ⟨hfresh', hseen'⟩ := hseen.next hn
    have hrun : replugged (n + 1) = replugged n ++ comesAlone "usb0" (usbDir (n + 1)) := by
      simp [replugged, List.range_succ, List.flatMap_append]
    rw [hrun, Runs.along_append, Runs.after_append]
    exact ⟨⟨hfresh, hfresh'⟩, hseen'⟩

theorem hasRoom_of_size {w : Links} (h : w.ifaceL2.size < ifaceL2Max) (l : LinkStep) :
    HasRoom w l := by
  cases l with
  | change => trivial
  | go => exact fun _ _ _ _ _ _ _ _ => h

/-- A tunnel that is there at startup gets its entry. -/
theorem tunnel_offsetsRight :
    Runs.Along (Links.step (ifaceFilter none))
      (fun w l => (w.step (ifaceFilter none) l).OffsetsRight)
      (Links.start (oneLink "tun0" tunDir)) (List.replicate 6 (.go true)) := by
  have hfresh : Runs.Along (Links.step (ifaceFilter none)) FreshNumbers
      (Links.start (oneLink "tun0" tunDir)) (List.replicate 6 (.go true)) :=
    ⟨trivial, trivial, trivial, trivial, trivial, trivial, trivial⟩
  refine (along_offsetsRight_iff (ifaceFilter none) (oneLink "tun0" tunDir) hfresh).mpr
    ⟨?_, ?_, ?_, ?_, ?_, ?_, trivial⟩
  all_goals exact hasRoom_of_size (by decide) _

/-- A tunnel that comes then gets no entry. -/
theorem Links.HasSeen.tunnel {w : Links} (h : w.HasSeen ifaceL2Max) :
    Runs.Along (Links.step (ifaceFilter none)) FreshNumbers w (comesAlone "tun0" tunDir) ∧
      (Runs.after (Links.step (ifaceFilter none)) w (comesAlone "tun0" tunDir)).phase = .waiting ∧
      ¬ (Runs.after (Links.step (ifaceFilter none)) w (comesAlone "tun0" tunDir)).OffsetsRight := by
  have hindex : tunDir.index = some 65 := by decide
  have hhigh : ¬ (65 : UInt32).toNat ≤ ifaceL2Max := by decide
  have hentry : w.ifaceL2.get 65 = none := by
    by_contra hget
    exact hhigh (h.entries 65 hget)
  have hfull : w.ifaceL2.insert 65 (ifaceL2Len (oneLink "tun0" tunDir) "tun0") = none :=
    BoundedMap.insert_eq_none_iff.mpr ⟨hentry, h.size⟩
  obtain ⟨attachedInterfaces, hafter⟩ := after_comesAlone tun0_passes hindex h.waiting
    fun hlookup => hhigh (h.attached _ _ hlookup)
  rw [hafter, setIfaceL2, hfull]
  refine ⟨comesAlone_fresh hindex fun hmem => hhigh (h.used _ hmem), rfl, fun hright => ?_⟩
  have hoff := hright "tun0" 65 (oneLink_index _ hindex).1 (AList.lookup_insert _)
    ⟨Maps.zeroed, w.ifaceL2.get, fun _ => none⟩ rfl
  simp only [DataPath.l2OffFor, hentry] at hoff
  exact absurd (hoff.mpr (by decide)) (by decide)

/-- After 64 of them the packets of a tunnel are parsed as if they had an Ethernet
header. -/
theorem tunnel_not_offsetsRight :
    Runs.Along (Links.step (ifaceFilter none)) FreshNumbers (Links.start noLinks)
        (replugged 64 ++ comesAlone "tun0" tunDir) ∧
      (Runs.after (Links.step (ifaceFilter none)) (Links.start noLinks)
        (replugged 64 ++ comesAlone "tun0" tunDir)).phase = .waiting ∧
      ¬ (Runs.after (Links.step (ifaceFilter none)) (Links.start noLinks)
        (replugged 64 ++ comesAlone "tun0" tunDir)).OffsetsRight := by
  obtain ⟨hfresh, hseen⟩ := after_replugged (n := 64) (Nat.le_refl _)
  obtain ⟨htunnel, hwaiting, hnot⟩ := hseen.tunnel
  rw [Runs.along_append, Runs.after_append]
  exact ⟨⟨hfresh, htunnel⟩, hwaiting, hnot⟩

end Moatd

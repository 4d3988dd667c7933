import Moatd.RuleSpec

/-!
# The grammar of rule specs

A rule spec is a direction, which may be absent, and clauses in any order.  No two clauses
say the same thing twice, and a port right behind an address belongs to it.  The parser
keeps a rule and two flags; they say which clauses it has read, and so whether the next one
is one too many.
-/

namespace Moatd

open Fallible

/-- A clause of the full grammar. -/
inductive Clause
  | onIface (iface : String)
  | fromAddr (addr : String) (port : Option String)
  | toAddr (addr : String) (port : Option String)
  | port (port : String)
  | proto (name : String)
  deriving DecidableEq, Repr

/-- What a spec says at most once. -/
inductive Slot
  | iface
  | src
  | dst
  | dstPort
  | proto
  deriving DecidableEq, Repr

namespace Clause

/-- The words of a port behind an address. -/
def portTokens : Option String → List String
  | some p => ["port", p]
  | none => []

/-- The words it is written with. -/
def tokens : Clause → List String
  | onIface iface => ["on", iface]
  | fromAddr addr p => "from" :: addr :: portTokens p
  | toAddr addr p => "to" :: addr :: portTokens p
  | port p => ["port", p]
  | proto name => ["proto", name]

/-- What the clause says something about. -/
def slots : Clause → List Slot
  | onIface _ => [.iface]
  | fromAddr _ _ => [.src]
  | toAddr _ none => [.dst]
  | toAddr _ (some _) => [.dst, .dstPort]
  | port _ => [.dstPort]
  | proto _ => [.proto]

/-- The words of the clause that are checked when they are read. -/
def Valid : Clause → Prop
  | onIface iface => validIfaceName iface = true
  | proto name => ∃ p, parseProto name = .ok p
  | _ => True

/-- An address without a port; one right behind it would be its own. -/
def portless : Clause → Bool
  | fromAddr _ none | toAddr _ none => true
  | _ => false

/-- The clause is a port alone. -/
def isPort : Clause → Bool
  | port _ => true
  | _ => false

/-! The values that a clause gives to a rule. -/

/-- The interface it gives the rule. -/
def iface : Clause → Option String
  | onIface v => some v
  | _ => none

/-- The protocol it gives the rule. -/
def protoValue : Clause → Option Protocol
  | proto name => (parseProto name).toOption
  | _ => none

/-- The source address it gives the rule. -/
def src : Clause → Option String
  | fromAddr addr _ => if addr = "any" then none else some addr
  | _ => none

/-- The destination address it gives the rule. -/
def dst : Clause → Option String
  | toAddr addr _ => if addr = "any" then none else some addr
  | _ => none

/-- The source port it gives the rule. -/
def srcPort : Clause → Option String
  | fromAddr _ p => p
  | _ => none

/-- The destination port it gives the rule. -/
def dstPort : Clause → Option String
  | toAddr _ p => p
  | port p => some p
  | _ => none

end Clause

/-- Each clause is valid and says something new. -/
structure Fit (clauses : List Clause) : Prop where
  valid : ∀ c ∈ clauses, c.Valid
  once : (clauses.flatMap Clause.slots).Nodup

/-- A port behind an address is part of the address's clause. -/
def Attached (clauses : List Clause) : Prop :=
  clauses.IsChain fun c c' => c.portless = true → c'.isPort = false

/-- The value is the one that a clause gives; without such a clause there is none. -/
def GivenBy {α : Type} (value : Option α) (get : Clause → Option α) (clauses : List Clause) :
    Prop :=
  ∀ v, value = some v ↔ ∃ c ∈ clauses, get c = some v

/-- A rule has the values of these clauses and no others. -/
structure UserRule.Holds (rule : UserRule) (clauses : List Clause) : Prop where
  iface : GivenBy rule.iface Clause.iface clauses
  proto : GivenBy rule.proto Clause.protoValue clauses
  src : GivenBy rule.src Clause.src clauses
  dst : GivenBy rule.dst Clause.dst clauses
  srcPort : GivenBy rule.srcPort Clause.srcPort clauses
  dstPort : GivenBy rule.dstPort Clause.dstPort clauses

/-- A rule spec by its parts. -/
structure Spec where
  direction : Option Direction
  clauses : List Clause

namespace Spec

/-- The word of a direction, if there is one. -/
def directionTokens : Option Direction → List String
  | some .inbound => ["in"]
  | some .outbound => ["out"]
  | none => []

/-- The words it is written with. -/
def tokens (s : Spec) : List String :=
  directionTokens s.direction ++ s.clauses.flatMap Clause.tokens

/-- The spec is one that the grammar accepts. -/
structure WellFormed (s : Spec) : Prop where
  fit : Fit s.clauses
  attached : Attached s.clauses

/-- The rule that the spec stands for. -/
structure Denotes (s : Spec) (action : Action) (rule : UserRule) : Prop where
  direction : rule.direction = s.direction.getD .inbound
  action : rule.action = action
  holds : rule.Holds s.clauses

end Spec

/-! ### One clause -/

namespace Clause

/-- The clause ends here: what follows is not its port. -/
def Ends (c : Clause) (rest : List String) : Prop :=
  c.portless = true → rest.head? ≠ some "port"

end Clause

namespace SpecState

/-- The clauses read so far have said something about this. -/
def filled (st : SpecState) : Slot → Bool
  | .iface => st.rule.iface.isSome
  | .src => st.fromSeen
  | .dst => st.toSeen
  | .dstPort => st.rule.dstPort.isSome
  | .proto => st.rule.proto.isSome

/-- The state behind a clause. -/
def after (st : SpecState) (c : Clause) : SpecState where
  rule := { st.rule with
    iface := c.iface.or st.rule.iface
    proto := c.protoValue.or st.rule.proto
    src := c.src.or st.rule.src
    dst := c.dst.or st.rule.dst
    srcPort := c.srcPort.or st.rule.srcPort
    dstPort := c.dstPort.or st.rule.dstPort }
  fromSeen := decide (.src ∈ c.slots) || st.fromSeen
  toSeen := decide (.dst ∈ c.slots) || st.toSeen

/-- The clause may come next. -/
structure Admits (st : SpecState) (c : Clause) : Prop where
  valid : c.Valid
  free : ∀ slot ∈ c.slots, ¬ st.filled slot = true

end SpecState

theorem validateIface_eq_ok_iff {name : String} :
    validateIface name = .ok () ↔ validIfaceName name = true := by
  unfold validateIface
  split_ifs with h <;> simp [h]

theorem addrText_eq (addr : String) (old : Option String) :
    addrText addr old = (if addr = "any" then none else some addr).or old := by
  unfold addrText
  by_cases h : addr = "any"
  · rw [if_neg (not_not.mpr h), if_pos h, Option.none_or]
  · rw [if_pos h, if_neg h, Option.some_or]

theorem setDstPort_eq_ok {rule : UserRule} {p : String} (h : ¬ rule.dstPort.isSome = true) :
    setDstPort rule p = .ok { rule with dstPort := some p } :=
  if_neg h

/-- A port is set where there was none. -/
theorem dstPort_free {rule rule' : UserRule} {p : String} (h : setDstPort rule p = .ok rule') :
    ¬ rule.dstPort.isSome = true := by
  unfold setDstPort at h
  split_ifs at h with hset
  exact hset

/-- **A clause that may come next is read.** -/
theorem parseClauses_tokens {st : SpecState} {c : Clause} (hadmits : st.Admits c)
    {rest : List String} (hends : c.Ends rest) :
    parseClauses st (c.tokens ++ rest) = parseClauses (st.after c) rest := by
  obtain ⟨hvalid, hfree⟩ := hadmits
  rcases c with v | ⟨addr, p⟩ | ⟨addr, p⟩ | p | name
  · have hiface : ¬ st.rule.iface.isSome = true := hfree .iface (List.mem_singleton_self _)
    show parseClauses st ("on" :: v :: rest) = _
    rw [parseClauses, if_neg hiface, validateIface_eq_ok_iff.mpr hvalid]
    rfl
  · have hsrc : ¬ st.fromSeen = true := hfree .src (List.mem_singleton_self _)
    rcases p with _ | p
    · show parseClauses st ("from" :: addr :: rest) = _
      rw [parseClauses, if_neg hsrc, addrText_eq]
      dsimp only
      split
      · -- the word behind the address is not `port`
        exact absurd rfl (hends rfl)
      · rfl
    · show parseClauses st ("from" :: addr :: "port" :: p :: rest) = _
      rw [parseClauses, if_neg hsrc, addrText_eq]
      rfl
  · rcases p with _ | p
    · have hdst : ¬ st.toSeen = true := hfree .dst (List.mem_singleton_self _)
      show parseClauses st ("to" :: addr :: rest) = _
      rw [parseClauses, if_neg hdst, addrText_eq]
      dsimp only
      split
      · exact absurd rfl (hends rfl)
      · rfl
    · have hdst : ¬ st.toSeen = true := hfree .dst List.mem_cons_self
      have hport : ¬ st.rule.dstPort.isSome = true :=
        hfree .dstPort (List.mem_cons_of_mem _ (List.mem_singleton_self _))
      show parseClauses st ("to" :: addr :: "port" :: p :: rest) = _
      rw [parseClauses, if_neg hdst, addrText_eq]
      show (setDstPort _ p >>= fun rule =>
        parseClauses { st with rule, toSeen := true } rest) = _
      rw [setDstPort_eq_ok]
      · rfl
      · exact hport
  · have hport : ¬ st.rule.dstPort.isSome = true := hfree .dstPort (List.mem_singleton_self _)
    show parseClauses st ("port" :: p :: rest) = _
    rw [parseClauses, setDstPort_eq_ok hport]
    rfl
  · have hproto : ¬ st.rule.proto.isSome = true := hfree .proto (List.mem_singleton_self _)
    obtain ⟨proto, hname⟩ := hvalid
    have hvalue : (Clause.proto name).protoValue = some proto := congrArg Except.toOption hname
    show parseClauses st ("proto" :: name :: rest) = _
    rw [parseClauses, if_neg hproto, SpecState.after, hname, hvalue]
    rfl

theorem SpecState.free_one {st : SpecState} (slot : Slot) (h : ¬ st.filled slot = true) :
    ∀ slot' ∈ [slot], ¬ st.filled slot' = true := by
  intro slot' hslot'
  rwa [List.mem_singleton.mp hslot']

theorem head?_ne_of_ne_cons {word : String} {rest : List String}
    (h : ∀ tokens, rest = word :: tokens → False) : rest.head? ≠ some word := by
  intro hhead
  obtain ⟨tokens, htokens⟩ := List.head?_eq_some_iff.mp hhead
  exact h tokens htokens

/-- **What is read is a clause that may come next.** -/
theorem exists_clause {st : SpecState} {tok : String} {tokens : List String} {rule : UserRule}
    (h : parseClauses st (tok :: tokens) = .ok rule) :
    ∃ c rest, tok :: tokens = c.tokens ++ rest ∧ c.Ends rest ∧ st.Admits c := by
  unfold parseClauses at h
  split at h
  · split_ifs at h with hiface
    split at h
    · cases h
    · rename_i v rest
      obtain ⟨_, hvalid, -⟩ := bind_eq_ok_iff.mp h
      exact ⟨.onIface v, rest, rfl, fun hno => Bool.noConfusion hno,
        validateIface_eq_ok_iff.mp hvalid, SpecState.free_one .iface hiface⟩
  · split_ifs at h with hsrc
    have hfree := SpecState.free_one .src hsrc
    split at h
    · cases h
    · rename_i cidr rest
      dsimp only at h
      split at h
      · split at h
        · cases h
        · rename_i p rest
          exact ⟨.fromAddr cidr (some p), rest, rfl, fun hno => Bool.noConfusion hno, trivial,
            hfree⟩
      · rename_i hnot
        exact ⟨.fromAddr cidr none, rest, rfl, fun _ => head?_ne_of_ne_cons hnot, trivial, hfree⟩
  · split_ifs at h with hdst
    have hfree := SpecState.free_one .dst hdst
    split at h
    · cases h
    · rename_i cidr rest
      dsimp only at h
      split at h
      · split at h
        · cases h
        · rename_i p rest
          -- with a port, `to` fills two slots
          obtain ⟨_, hset, -⟩ := bind_eq_ok_iff.mp h
          have hport := dstPort_free hset
          refine ⟨.toAddr cidr (some p), rest, rfl, fun hno => Bool.noConfusion hno, trivial, ?_⟩
          exact List.forall_mem_cons.mpr ⟨hdst, SpecState.free_one .dstPort hport⟩
      · rename_i hnot
        exact ⟨.toAddr cidr none, rest, rfl, fun _ => head?_ne_of_ne_cons hnot, trivial, hfree⟩
  · split at h
    · cases h
    · rename_i p rest
      obtain ⟨_, hset, -⟩ := bind_eq_ok_iff.mp h
      exact ⟨.port p, rest, rfl, fun hno => Bool.noConfusion hno, trivial,
        SpecState.free_one .dstPort (dstPort_free hset)⟩
  · split_ifs at h with hproto
    split at h
    · cases h
    · rename_i name rest
      obtain ⟨proto, hname, -⟩ := bind_eq_ok_iff.mp h
      exact ⟨.proto name, rest, rfl, fun hno => Bool.noConfusion hno, ⟨proto, hname⟩,
        SpecState.free_one .proto hproto⟩
  · cases h

/-! ### The clauses read so far -/

/-- A new clause gives the value, or leaves it as it is. -/
theorem GivenBy.append {α : Type} {value : Option α} {get : Clause → Option α}
    {clauses : List Clause} (h : GivenBy value get clauses) {c : Clause}
    (hnew : ∀ v, get c = some v → ∀ c' ∈ clauses, get c' = none) :
    GivenBy ((get c).or value) get (clauses ++ [c]) := by
  intro v
  simp only [List.mem_append, List.mem_singleton, or_and_right, exists_or, exists_eq_left,
    Option.or_eq_some_iff]
  rw [h v]
  constructor
  · rintro (hc | ⟨-, hold⟩)
    · exact Or.inr hc
    · exact Or.inl hold
  · rintro (⟨c', hc', hv⟩ | hc)
    · refine Or.inr ⟨Option.eq_none_iff_forall_ne_some.mpr fun v' hv' => ?_, c', hc', hv⟩
      rw [hnew v' hv' c' hc'] at hv
      cases hv
    · exact Or.inl hc

theorem GivenBy.isSome_iff {α : Type} {value : Option α} {get : Clause → Option α}
    {clauses : List Clause} (h : GivenBy value get clauses) :
    value.isSome = true ↔ ∃ c ∈ clauses, (get c).isSome = true := by
  simp only [Option.isSome_iff_exists]
  constructor
  · rintro ⟨v, hv⟩
    obtain ⟨c, hc, hget⟩ := (h v).mp hv
    exact ⟨c, hc, v, hget⟩
  · rintro ⟨c, hc, v, hget⟩
    exact ⟨v, (h v).mpr ⟨c, hc, hget⟩⟩

theorem GivenBy.unique {α : Type} {value value' : Option α} {get : Clause → Option α}
    {clauses clauses' : List Clause} (h : GivenBy value get clauses)
    (h' : GivenBy value' get clauses') (hsame : ∀ c, c ∈ clauses ↔ c ∈ clauses') :
    value = value' := by
  apply Option.ext
  intro v
  rw [h v, h' v]
  simp only [hsame]

namespace Clause

variable {c : Clause}

/-! Each value has a slot. -/

theorem mem_slots_iface : .iface ∈ c.slots ↔ c.iface.isSome = true := by
  rcases c with _ | _ | ⟨_, _ | _⟩ | _ | _ <;> simp [slots, iface]

theorem mem_slots_dstPort : .dstPort ∈ c.slots ↔ c.dstPort.isSome = true := by
  rcases c with _ | _ | ⟨_, _ | _⟩ | _ | _ <;> simp [slots, dstPort]

theorem mem_slots_proto (hvalid : c.Valid) : .proto ∈ c.slots ↔ c.protoValue.isSome = true := by
  rcases c with _ | _ | ⟨_, _ | _⟩ | _ | name
  case proto =>
    obtain ⟨p, hname⟩ := hvalid
    simp [slots, protoValue, hname, Except.toOption]
  all_goals simp [slots, protoValue]

theorem protoValue_slot {v : Protocol} (h : c.protoValue = some v) : .proto ∈ c.slots := by
  rcases c with _ | _ | _ | _ | _ <;> simp_all [slots, protoValue]

theorem src_slot {v : String} (h : c.src = some v) : .src ∈ c.slots := by
  rcases c with _ | _ | _ | _ | _ <;> simp_all [slots, src]

theorem srcPort_slot {v : String} (h : c.srcPort = some v) : .src ∈ c.slots := by
  rcases c with _ | _ | _ | _ | _ <;> simp_all [slots, srcPort]

theorem dst_slot {v : String} (h : c.dst = some v) : .dst ∈ c.slots := by
  rcases c with _ | _ | ⟨_, _ | _⟩ | _ | _ <;> simp_all [slots, dst]

theorem slots_nodup (c : Clause) : c.slots.Nodup := by
  rcases c with _ | _ | ⟨_, _ | _⟩ | _ | _ <;> simp [slots]

end Clause

namespace SpecState

/-- The state is that behind these clauses. -/
structure Reads (st : SpecState) (clauses : List Clause) : Prop where
  fit : Fit clauses
  holds : st.rule.Holds clauses
  fromSeen : st.fromSeen = true ↔ ∃ c ∈ clauses, .src ∈ c.slots
  toSeen : st.toSeen = true ↔ ∃ c ∈ clauses, .dst ∈ c.slots

variable {st : SpecState} {clauses : List Clause}

/-- What has been seen is what some clause has said. -/
theorem Reads.filled_iff (h : st.Reads clauses) {slot : Slot} :
    st.filled slot = true ↔ ∃ c ∈ clauses, slot ∈ c.slots := by
  rcases slot with _ | _ | _ | _ | _
  · simp only [Clause.mem_slots_iface]
    exact h.holds.iface.isSome_iff
  · exact h.fromSeen
  · exact h.toSeen
  · simp only [Clause.mem_slots_dstPort]
    exact h.holds.dstPort.isSome_iff
  · refine h.holds.proto.isSome_iff.trans (exists_congr fun c => and_congr_right fun hc => ?_)
    exact (Clause.mem_slots_proto (h.fit.valid c hc)).symm

/-- **Step**: behind a clause that may come next, the state is that of one clause more. -/
theorem Reads.after (h : st.Reads clauses) {c : Clause} (hadmits : st.Admits c) :
    (st.after c).Reads (clauses ++ [c]) := by
  have hnew : ∀ slot ∈ c.slots, ∀ c' ∈ clauses, slot ∉ c'.slots :=
    fun slot hslot c' hc' hslot' => hadmits.free slot hslot (h.filled_iff.mpr ⟨c', hc', hslot'⟩)
  have hgiven : ∀ {α : Type} {value : Option α} {get : Clause → Option α} {slot : Slot},
      (∀ {c v}, get c = some v → slot ∈ c.slots) → GivenBy value get clauses →
        GivenBy ((get c).or value) get (clauses ++ [c]) := by
    intro α value get slot hslot hvalue
    refine hvalue.append fun v hv c' hc' => Option.eq_none_iff_forall_ne_some.mpr fun v' hv' => ?_
    exact hnew slot (hslot hv) c' hc' (hslot hv')
  have hseen : ∀ {seen : Bool} {slot : Slot},
      (seen = true ↔ ∃ c ∈ clauses, slot ∈ c.slots) →
        ((decide (slot ∈ c.slots) || seen) = true ↔ ∃ c' ∈ clauses ++ [c], slot ∈ c'.slots) := by
    intro seen slot hseen
    rw [Bool.or_eq_true, decide_eq_true_iff, hseen]
    simp only [List.mem_append, List.mem_singleton, or_and_right, exists_or, exists_eq_left]
    exact or_comm
  obtain ⟨hiface, hproto, hsrc, hdst, hsrcPort, hdstPort⟩ := h.holds
  refine ⟨⟨?_, ?_⟩, ⟨?_, ?_, ?_, ?_, ?_, ?_⟩, hseen h.fromSeen, hseen h.toSeen⟩
  · rw [List.forall_mem_append, List.forall_mem_singleton]
    exact ⟨h.fit.valid, hadmits.valid⟩
  · rw [List.flatMap_append, List.flatMap_singleton, List.nodup_append]
    refine ⟨h.fit.once, c.slots_nodup, fun slot hslot slot' hslot' heq => ?_⟩
    obtain ⟨c', hc', hmem⟩ := List.mem_flatMap.mp hslot
    rw [heq] at hmem
    exact hnew slot' hslot' c' hc' hmem
  · exact hgiven (fun hv => Clause.mem_slots_iface.mpr (Option.isSome_of_eq_some hv)) hiface
  · exact hgiven Clause.protoValue_slot hproto
  · exact hgiven Clause.src_slot hsrc
  · exact hgiven Clause.dst_slot hdst
  · exact hgiven Clause.srcPort_slot hsrcPort
  · exact hgiven (fun hv => Clause.mem_slots_dstPort.mpr (Option.isSome_of_eq_some hv)) hdstPort

/-- What fits behind the clauses so far may come next. -/
theorem Reads.admits (h : st.Reads clauses) {c : Clause} {later : List Clause}
    (hfit : Fit (clauses ++ c :: later)) : st.Admits c := by
  refine ⟨hfit.valid c (List.mem_append_right _ List.mem_cons_self), fun slot hslot hfilled => ?_⟩
  obtain ⟨c', hc', hslot'⟩ := h.filled_iff.mp hfilled
  have honce := hfit.once
  rw [List.flatMap_append, List.flatMap_cons, List.nodup_append] at honce
  exact honce.2.2 slot (List.mem_flatMap.mpr ⟨c', hc', hslot'⟩) slot
    (List.mem_append_left _ hslot) rfl

end SpecState

/-! ### Lists of clauses -/

theorem Clause.head_tokens (c : Clause) (rest : List String) :
    (c.tokens ++ rest).head? = some "port" ↔ c.isPort = true := by
  rcases c with _ | _ | _ | _ | _ <;> simp [tokens, isPort]

theorem attached_cons {c : Clause} {clauses : List Clause} :
    Attached (c :: clauses) ↔ c.Ends (clauses.flatMap Clause.tokens) ∧ Attached clauses := by
  unfold Attached
  rcases clauses with _ | ⟨c', clauses⟩
  · exact iff_of_true (List.IsChain.singleton c) ⟨fun _ => nofun, List.IsChain.nil⟩
  · rw [List.isChain_cons_cons, List.flatMap_cons]
    refine and_congr_left fun _ => forall_congr' fun _ => ?_
    rw [Ne, c'.head_tokens, Bool.not_eq_true]

theorem Clause.head_portTokens {c : Clause} {rest : List String} (hends : c.Ends rest)
    (hportless : c.portless = true) (p : String) (rest' : List String) :
    rest ≠ portTokens (some p) ++ rest' := by
  rintro rfl
  exact hends hportless rfl

/-- Words are read as a clause in one way. -/
theorem Clause.eq_of_tokens {c c' : Clause} {rest rest' : List String}
    (h : c.tokens ++ rest = c'.tokens ++ rest') (hends : c.Ends rest) (hends' : c'.Ends rest') :
    c = c' ∧ rest = rest' := by
  rcases c with v | ⟨addr, p⟩ | ⟨addr, p⟩ | p | name
  all_goals
    rcases c' with v' | ⟨addr', p'⟩ | ⟨addr', p'⟩ | p' | name'
    all_goals simp [tokens] at h
  · simpa using h
  · obtain ⟨rfl, hrest⟩ := h
    rcases p with _ | p
    · rcases p' with _ | p'
      · exact ⟨rfl, hrest⟩
      · exact absurd hrest (head_portTokens hends rfl p' rest')
    · rcases p' with _ | p'
      · exact absurd hrest.symm (head_portTokens hends' rfl p rest)
      · simpa [portTokens] using hrest
  · obtain ⟨rfl, hrest⟩ := h
    rcases p with _ | p
    · rcases p' with _ | p'
      · exact ⟨rfl, hrest⟩
      · exact absurd hrest (head_portTokens hends rfl p' rest')
    · rcases p' with _ | p'
      · exact absurd hrest.symm (head_portTokens hends' rfl p rest)
      · simpa [portTokens] using hrest
  · simpa using h
  · simpa using h

theorem clauses_eq_of_tokens {clauses clauses' : List Clause} (hattached : Attached clauses)
    (hattached' : Attached clauses')
    (h : clauses.flatMap Clause.tokens = clauses'.flatMap Clause.tokens) : clauses = clauses' := by
  have hcons : ∀ (c : Clause) rest, c.tokens ++ rest ≠ [] := by
    intro c rest
    rcases c with _ | _ | _ | _ | _ <;> simp [Clause.tokens]
  induction clauses generalizing clauses' with
  | nil =>
    rcases clauses' with _ | ⟨c', clauses'⟩
    · rfl
    · exact absurd h.symm (hcons c' _)
  | cons c clauses ih =>
    rcases clauses' with _ | ⟨c', clauses'⟩
    · exact absurd h (hcons c _)
    · obtain ⟨hends, hlater⟩ := attached_cons.mp hattached
      obtain ⟨hends', hlater'⟩ := attached_cons.mp hattached'
      rw [List.flatMap_cons, List.flatMap_cons] at h
      obtain ⟨rfl, hrest⟩ := Clause.eq_of_tokens h hends hends'
      rw [ih hlater hlater' hrest]

namespace SpecState.Reads

/-- **Run**: a list of clauses that fit is read, and the rule has their values. -/
theorem parse {st : SpecState} {done clauses : List Clause} (h : st.Reads done)
    (hattached : Attached clauses) (hfit : Fit (done ++ clauses)) :
    ∃ rule, parseClauses st (clauses.flatMap Clause.tokens) = .ok rule ∧
      rule.Holds (done ++ clauses) ∧ rule.direction = st.rule.direction ∧
      rule.action = st.rule.action := by
  induction clauses generalizing st done with
  | nil =>
    rw [List.append_nil]
    exact ⟨st.rule, by rw [List.flatMap_nil, parseClauses], h.holds, rfl, rfl⟩
  | cons c clauses ih =>
    obtain ⟨hends, hattached⟩ := attached_cons.mp hattached
    have hadmits := h.admits hfit
    rw [List.append_cons] at hfit ⊢
    rw [List.flatMap_cons, parseClauses_tokens hadmits hends]
    exact ih (h.after hadmits) hattached hfit

/-- **Run**: what is read are clauses that fit. -/
theorem of_parse {st : SpecState} {done : List Clause} (h : st.Reads done)
    {tokens : List String} {rule : UserRule} (hparse : parseClauses st tokens = .ok rule) :
    ∃ clauses, tokens = clauses.flatMap Clause.tokens ∧ Attached clauses ∧
      Fit (done ++ clauses) := by
  induction hn : tokens.length using Nat.strongRecOn generalizing st done tokens with
  | ind n ih =>
    subst hn
    rcases tokens with _ | ⟨tok, tokens⟩
    · exact ⟨[], rfl, List.IsChain.nil, by rw [List.append_nil]; exact h.fit⟩
    · obtain ⟨c, rest, heq, hends, hadmits⟩ := exists_clause hparse
      have hlength : rest.length < (tok :: tokens).length := by
        rw [heq, List.length_append]
        rcases c with _ | _ | _ | _ | _ <;> simp [Clause.tokens]
      rw [heq] at hparse ⊢
      rw [parseClauses_tokens hadmits hends] at hparse
      obtain ⟨clauses, hrest, hattached, hfit⟩ := ih _ hlength (h.after hadmits) hparse rfl
      rw [hrest] at hends
      rw [← List.append_cons] at hfit
      exact ⟨c :: clauses, by rw [hrest, List.flatMap_cons],
        attached_cons.mpr ⟨hends, hattached⟩, hfit⟩

end SpecState.Reads

/-! ### The direction -/

theorem directionWord_tokens {tok : String} {dir : Direction} (h : directionWord tok = some dir) :
    Spec.directionTokens (some dir) = [tok] := by
  unfold directionWord at h
  split at h
  · cases h
    rfl
  · cases h
    rfl
  · cases h

/-- No direction comes next. -/
def NoDirection (tokens : List String) : Prop := ∀ tok ∈ tokens.head?, directionWord tok = none

theorem noDirection_clauses (clauses : List Clause) :
    NoDirection (clauses.flatMap Clause.tokens) := by
  rcases clauses with _ | ⟨c, clauses⟩
  · intro tok htok
    cases htok
  · intro tok htok
    rcases c with _ | _ | _ | _ | _ <;> cases htok <;> rfl

theorem parseDirection_of_noDirection {tokens : List String} (h : NoDirection tokens)
    (set : Option Direction) : parseDirection set tokens = .ok (set, tokens) := by
  rcases tokens with _ | ⟨tok, tokens⟩
  · rw [parseDirection]
  · rw [parseDirection, h tok rfl]

theorem parseDirection_tokens {rest : List String} (h : NoDirection rest)
    (dir : Option Direction) :
    parseDirection none (Spec.directionTokens dir ++ rest) = .ok (dir, rest) := by
  rcases dir with _ | dir
  · exact parseDirection_of_noDirection h none
  · have hset := parseDirection_of_noDirection h (some dir)
    rcases dir with _ | _
    · exact hset
    · exact hset

/-- Once a direction is set, another is refused. -/
theorem parseDirection_some {dir : Direction} {tokens : List String}
    {r : Option Direction × List String} (h : parseDirection (some dir) tokens = .ok r) :
    (some dir, tokens) = r := by
  rcases tokens with _ | ⟨tok, tokens⟩
  · exact Except.ok.inj h
  · rw [parseDirection] at h
    split at h
    · exact Except.ok.inj h
    · cases h

theorem of_parseDirection {tokens rest : List String} {dir : Option Direction}
    (h : parseDirection none tokens = .ok (dir, rest)) :
    tokens = Spec.directionTokens dir ++ rest := by
  rcases tokens with _ | ⟨tok, tokens⟩
  · cases h
    rfl
  · rw [parseDirection] at h
    split at h
    · cases h
      rfl
    · rename_i word hword
      cases parseDirection_some h
      rw [directionWord_tokens hword, List.singleton_append]

/-! ### Specs -/

/-- Nothing has been read. -/
theorem reads_nil (dir : Direction) (action : Action) :
    SpecState.Reads { rule := { direction := dir, action } } [] := by
  refine ⟨⟨?_, ?_⟩, ⟨?_, ?_, ?_, ?_, ?_, ?_⟩, ?_, ?_⟩ <;> simp [GivenBy]

/-- What a spec says is read. -/
theorem Spec.WellFormed.parse {s : Spec} (h : s.WellFormed) (action : Action) :
    ∃ rule, parseFullGrammar action s.tokens = .ok rule ∧ s.Denotes action rule := by
  obtain ⟨rule, hparse, hholds, hdirection, haction⟩ :=
    (reads_nil (s.direction.getD .inbound) action).parse h.attached h.fit
  refine ⟨rule, ?_, hdirection, haction, hholds⟩
  rw [parseFullGrammar, Spec.tokens, parseDirection_tokens (noDirection_clauses _)]
  exact hparse

/-- What is read is a spec. -/
theorem exists_spec {action : Action} {tokens : List String} {rule : UserRule}
    (h : parseFullGrammar action tokens = .ok rule) :
    ∃ s : Spec, s.WellFormed ∧ s.tokens = tokens := by
  obtain ⟨⟨dir, rest⟩, hdir, hclauses⟩ := bind_eq_ok_iff.mp h
  obtain ⟨clauses, rfl, hattached, hfit⟩ := (reads_nil _ action).of_parse hclauses
  exact ⟨⟨dir, clauses⟩, ⟨hfit, hattached⟩, (of_parseDirection hdir).symm⟩

/-- A list of words is one spec at most. -/
theorem Spec.WellFormed.eq_of_tokens {s s' : Spec} (h : s.WellFormed) (h' : s'.WellFormed)
    (htokens : s.tokens = s'.tokens) : s = s' := by
  obtain ⟨dir, clauses⟩ := s
  obtain ⟨dir', clauses'⟩ := s'
  have hdir := parseDirection_tokens (noDirection_clauses clauses) dir
  have hdir' := parseDirection_tokens (noDirection_clauses clauses') dir'
  simp only [Spec.tokens] at htokens
  rw [htokens, hdir', Except.ok.injEq, Prod.mk.injEq] at hdir
  obtain ⟨rfl, hclauses⟩ := hdir
  have hsame : clauses = clauses' := clauses_eq_of_tokens h.attached h'.attached hclauses.symm
  rw [hsame]

/-- The order of the clauses does not matter. -/
theorem Spec.Denotes.unique {s s' : Spec} {action : Action} {rule rule' : UserRule}
    (h : s.Denotes action rule) (h' : s'.Denotes action rule')
    (hdirection : s.direction.getD .inbound = s'.direction.getD .inbound)
    (hsame : ∀ c, c ∈ s.clauses ↔ c ∈ s'.clauses) : rule = rule' := by
  obtain ⟨dir, act, iface, proto, src, dst, srcPort, dstPort⟩ := rule
  obtain ⟨dir', act', iface', proto', src', dst', srcPort', dstPort'⟩ := rule'
  obtain ⟨hdir, hact, hvalues⟩ := h
  obtain ⟨hdir', hact', hvalues'⟩ := h'
  rw [UserRule.mk.injEq]
  exact ⟨hdir.trans (hdirection.trans hdir'.symm), hact.trans hact'.symm,
    hvalues.iface.unique hvalues'.iface hsame, hvalues.proto.unique hvalues'.proto hsame,
    hvalues.src.unique hvalues'.src hsame, hvalues.dst.unique hvalues'.dst hsame,
    hvalues.srcPort.unique hvalues'.srcPort hsame, hvalues.dstPort.unique hvalues'.dstPort hsame⟩

section Load
variable (load : String → Except String (Option AppProfile)) (action : Action)

/-- Two words or more go by the full grammar. -/
theorem parseRuleSpec_of_two {tokens : List String} (htokens : 2 ≤ tokens.length) :
    parseRuleSpec load action tokens = (parseFullGrammar action tokens).map fun rule => [rule] := by
  rcases tokens with _ | ⟨tok, _ | ⟨tok', tokens⟩⟩
  · exact absurd htokens (by decide)
  · exact absurd htokens (show ¬ 2 ≤ 1 by decide)
  · show (parseFullGrammar action (tok :: tok' :: tokens) >>= fun rule => .ok [rule]) = _
    cases parseFullGrammar action (tok :: tok' :: tokens) <;> rfl

theorem Spec.WellFormed.parseRuleSpec {s : Spec} (h : s.WellFormed)
    (htokens : 2 ≤ s.tokens.length) :
    ∃ rule, Moatd.parseRuleSpec load action s.tokens = .ok [rule] ∧ s.Denotes action rule := by
  obtain ⟨rule, hparse, hdenotes⟩ := h.parse action
  rw [parseRuleSpec_of_two load action htokens, hparse]
  exact ⟨rule, rfl, hdenotes⟩

/-- **The grammar of rule specs.**  Two words or more are accepted if and only if they are a
spec; then they are one spec only, and the result is the one rule that it stands for.  Two
specs with the same direction and the same set of clauses give the same rule. -/
theorem parseRuleSpec_grammar {tokens : List String} (htokens : 2 ≤ tokens.length) :
    ((∃ rules, parseRuleSpec load action tokens = .ok rules) ↔
      ∃ s : Spec, s.WellFormed ∧ s.tokens = tokens) ∧
    (∀ s : Spec, s.WellFormed → s.tokens = tokens →
      (∃ rule, parseRuleSpec load action tokens = .ok [rule] ∧ s.Denotes action rule ∧
        ∀ rule', s.Denotes action rule' → rule' = rule) ∧
      (∀ s' : Spec, s'.WellFormed → s'.tokens = tokens → s' = s) ∧
      ∀ s' : Spec, s'.WellFormed → 2 ≤ s'.tokens.length →
        s'.direction.getD .inbound = s.direction.getD .inbound →
        (∀ c, c ∈ s'.clauses ↔ c ∈ s.clauses) →
        parseRuleSpec load action s'.tokens = parseRuleSpec load action tokens) := by
  refine ⟨⟨?_, ?_⟩, ?_⟩
  · rintro ⟨rules, hparse⟩
    rw [parseRuleSpec_of_two load action htokens, map_eq_ok_iff] at hparse
    obtain ⟨rule, hrule, -⟩ := hparse
    exact exists_spec hrule
  · rintro ⟨s, hs, rfl⟩
    obtain ⟨rule, hparse, -⟩ := hs.parseRuleSpec load action htokens
    exact ⟨[rule], hparse⟩
  · rintro s hs rfl
    obtain ⟨rule, hparse, hdenotes⟩ := hs.parseRuleSpec load action htokens
    refine ⟨⟨rule, hparse, hdenotes, fun rule' hdenotes' => ?_⟩, fun s' hs' heq => ?_, ?_⟩
    · exact hdenotes'.unique hdenotes rfl fun _ => Iff.rfl
    · exact hs'.eq_of_tokens hs heq
    · intro s' hs' htokens' hdirection hsame
      obtain ⟨rule', hparse', hdenotes'⟩ := hs'.parseRuleSpec load action htokens'
      rw [hparse, hparse', hdenotes'.unique hdenotes hdirection hsame]

end Load

/-! ### One rule in two orders -/

/-- `apps::load` where there are no profiles. -/
def noProfiles (_ : String) : Except String (Option AppProfile) := .ok none

/-- The first `port` is an address, the second a keyword, and the third a port. -/
def portSpec : Spec where
  direction := some .inbound
  clauses := [.fromAddr "port" (some "port"), .proto "TCP", .onIface "tailscale0", .port "22"]

/-- The same clauses in another order. -/
def portSpecReordered : Spec where
  direction := none
  clauses := [.port "22", .onIface "tailscale0", .fromAddr "port" (some "port"), .proto "TCP"]

theorem portSpec_wellFormed : portSpec.WellFormed := by
  refine ⟨⟨?_, by decide⟩, ?_⟩
  · simp only [portSpec, List.forall_mem_cons]
    exact ⟨trivial, ⟨.tcp, rfl⟩, show validIfaceName "tailscale0" = true by decide, trivial, nofun⟩
  · simp [portSpec, Attached, Clause.portless]

theorem portSpecReordered_wellFormed : portSpecReordered.WellFormed := by
  refine ⟨⟨?_, by decide⟩, ?_⟩
  · simp only [portSpecReordered, List.forall_mem_cons]
    exact ⟨trivial, show validIfaceName "tailscale0" = true by decide, trivial, ⟨.tcp, rfl⟩, nofun⟩
  · simp [portSpecReordered, Attached, Clause.portless]

theorem portSpec_perm : portSpecReordered.clauses.Perm portSpec.clauses := by decide

theorem portSpec_anyOrder :
    parseRuleSpec noProfiles .deny ["port", "22", "on", "tailscale0", "from", "port", "port",
        "port", "proto", "TCP"] =
      parseRuleSpec noProfiles .deny ["in", "from", "port", "port", "port", "proto", "TCP", "on",
        "tailscale0", "port", "22"] :=
  ((parseRuleSpec_grammar noProfiles .deny (by decide)).2 portSpec portSpec_wellFormed rfl).2.2
    portSpecReordered portSpecReordered_wellFormed (by decide) rfl fun _ => portSpec_perm.mem_iff

end Moatd

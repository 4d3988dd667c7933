import Moatd.RuleListing
import Moatd.Samples

/-!
# Listed rules, typed in again

The words of a listed line are those of the rule spec grammar, all but `src port`.  Typed
in again behind their action, they are a rule spec whose clauses are the fields of the
rule; the port of a rule with a source address and no destination address has moved to the
other end.
-/

namespace Moatd

open Fallible

/-! ### Clauses in front of other words -/

/-- A list of clauses is read in front of what is not a port. -/
theorem SpecState.Reads.foldl {st : SpecState} {done clauses : List Clause} (h : st.Reads done)
    (hattached : Attached clauses) (hfit : Fit (done ++ clauses)) {rest : List String}
    (hrest : rest.head? ≠ some "port") :
    parseClauses st (clauses.flatMap Clause.tokens ++ rest) =
      parseClauses (clauses.foldl SpecState.after st) rest := by
  induction clauses generalizing st done with
  | nil => rfl
  | cons c clauses ih =>
    obtain ⟨hends, hattached⟩ := attached_cons.mp hattached
    have hadmits := h.admits hfit
    have hends' : c.Ends (clauses.flatMap Clause.tokens ++ rest) := by
      intro hportless
      rw [List.head?_append, Ne, Option.or_eq_some_iff, not_or]
      exact ⟨hends hportless, fun hport => hrest hport.2⟩
    rw [List.append_cons] at hfit
    rw [List.flatMap_cons, List.append_assoc, parseClauses_tokens hadmits hends', List.foldl_cons]
    exact ih (h.after hadmits) hattached hfit

/-- What the words behind a direction are read as. -/
theorem parseFullGrammar_clauses (action : Action) (dir : Direction) {clauses : List Clause}
    (hattached : Attached clauses) (hfit : Fit clauses) {rest : List String}
    (hrest : rest.head? ≠ some "port") (hdirection : NoDirection rest) :
    parseFullGrammar action (dir.name :: (clauses.flatMap Clause.tokens ++ rest)) =
      parseClauses (clauses.foldl SpecState.after { rule := { direction := dir, action } })
        rest := by
  have hno : NoDirection (clauses.flatMap Clause.tokens ++ rest) := by
    intro tok htok
    rw [List.head?_append, Option.mem_def, Option.or_eq_some_iff] at htok
    rcases htok with htok | ⟨-, htok⟩
    · exact noDirection_clauses clauses tok htok
    · exact hdirection tok htok
  have hdir : parseDirection none (dir.name :: (clauses.flatMap Clause.tokens ++ rest)) =
      .ok (some dir, clauses.flatMap Clause.tokens ++ rest) := by
    have := parseDirection_tokens hno (some dir)
    cases dir <;> exact this
  rw [parseFullGrammar, hdir]
  exact (reads_nil dir action).foldl hattached hfit hrest

/-! ### The clauses of a rule -/

namespace UserRule

variable (r : UserRule)

/-- The destination port is printed right behind the source address. -/
def portAtSource : Bool := r.src.isSome && r.dst.isNone

/-- The clauses in front of a source port. -/
def headClauses : List Clause :=
  [r.iface.map .onIface, r.src.map fun src => .fromAddr src none].reduceOption

/-- The clauses of a rule without a source port, as its line has them. -/
def clauses : List Clause :=
  [r.iface.map .onIface,
    r.src.map fun src => .fromAddr src (if r.dst.isNone then r.dstPort else none),
    r.dst.map fun dst => .toAddr dst r.dstPort,
    if r.src.isNone && r.dst.isNone then r.dstPort.map .port else none,
    r.proto.map fun proto => .proto proto.name].reduceOption

/-- The rule that its line stands for. -/
def retyped : UserRule :=
  if r.portAtSource then { r with srcPort := r.dstPort, dstPort := none } else r

end UserRule

theorem parseProto_name (p : Protocol) : parseProto p.name = .ok p := by
  cases p <;> rfl

section Lines
variable {r : UserRule}

theorem UserRule.Wordy.fit (h : r.Wordy) : Fit r.clauses := by
  refine ⟨?_, ?_⟩
  · intro c hc
    rw [clauses, List.reduceOption_mem_iff] at hc
    simp only [List.mem_cons, List.not_mem_nil, or_false] at hc
    rcases hc with hc | hc | hc | hc | hc
    · obtain ⟨v, hv, rfl⟩ := Option.map_eq_some_iff.mp hc.symm
      exact h.iface v hv
    · obtain ⟨v, -, rfl⟩ := Option.map_eq_some_iff.mp hc.symm
      exact trivial
    · obtain ⟨v, -, rfl⟩ := Option.map_eq_some_iff.mp hc.symm
      exact trivial
    · split_ifs at hc
      obtain ⟨v, -, rfl⟩ := Option.map_eq_some_iff.mp hc.symm
      exact trivial
    · obtain ⟨p, -, rfl⟩ := Option.map_eq_some_iff.mp hc.symm
      exact ⟨p, parseProto_name p⟩
  · obtain ⟨_, _, iface, proto, src, dst, _, dstPort⟩ := r
    cases iface <;> cases src <;> cases dst <;> cases dstPort <;> cases proto <;>
      simp [clauses, Clause.slots, List.reduceOption]

theorem UserRule.attached_clauses : Attached r.clauses := by
  obtain ⟨_, _, iface, proto, src, dst, _, dstPort⟩ := r
  cases iface <;> cases src <;> cases dst <;> cases dstPort <;> cases proto <;>
    simp [clauses, Attached, Clause.portless, Clause.isPort, List.reduceOption]

theorem UserRule.tokens_clauses (hsrcPort : r.srcPort = none) :
    r.specWords = r.direction.name :: r.clauses.flatMap Clause.tokens := by
  obtain ⟨_, _, iface, proto, src, dst, srcPort, dstPort⟩ := r
  obtain rfl : srcPort = none := hsrcPort
  cases iface <;> cases src <;> cases dst <;> cases dstPort <;> cases proto <;> rfl

/-- The clauses give back the fields. -/
theorem UserRule.Wordy.foldl_clauses (h : r.Wordy) (hsrcPort : r.srcPort = none) :
    (r.clauses.foldl SpecState.after
      { rule := { direction := r.direction, action := r.action } }).rule = r.retyped := by
  have hsrc := fun v hv => (h.src v hv).2
  have hdst := fun v hv => (h.dst v hv).2
  obtain ⟨_, _, iface, proto, src, dst, srcPort, dstPort⟩ := r
  obtain rfl : srcPort = none := hsrcPort
  cases iface <;> cases src <;> cases dst <;> cases dstPort <;> cases proto <;>
    simp_all [clauses, retyped, portAtSource, SpecState.after, Clause.iface, Clause.src,
      Clause.dst, Clause.srcPort, Clause.dstPort, Clause.protoValue, List.reduceOption,
      parseProto_name, Except.toOption]

/-- A source port, whose words are not in the grammar. -/
theorem UserRule.Wordy.parse_srcPort (h : r.Wordy) {sp : String} (hsrcPort : r.srcPort = some sp) :
    parseFullGrammar r.action r.specWords = .error (.unexpectedToken "src") := by
  have hfit : Fit r.headClauses := by
    refine ⟨?_, ?_⟩
    · intro c hc
      rw [headClauses, List.reduceOption_mem_iff] at hc
      simp only [List.mem_cons, List.not_mem_nil, or_false] at hc
      rcases hc with hc | hc
      · obtain ⟨v, hv, rfl⟩ := Option.map_eq_some_iff.mp hc.symm
        exact h.iface v hv
      · obtain ⟨v, -, rfl⟩ := Option.map_eq_some_iff.mp hc.symm
        exact trivial
    · rw [headClauses]
      cases r.iface <;> cases r.src <;> simp [Clause.slots, List.reduceOption]
  have hattached : Attached r.headClauses := by
    rw [headClauses]
    cases r.iface <;> cases r.src <;>
      simp [Attached, Clause.portless, Clause.isPort, List.reduceOption]
  have hwords : ∃ later, r.specWords =
      r.direction.name :: (r.headClauses.flatMap Clause.tokens ++ "src" :: later) := by
    obtain ⟨_, _, iface, proto, src, dst, srcPort, dstPort⟩ := r
    obtain rfl : srcPort = some sp := hsrcPort
    cases iface <;> cases src <;> exact ⟨_, rfl⟩
  obtain ⟨later, hwords⟩ := hwords
  have hdirection : NoDirection ("src" :: later) := by
    intro tok htok
    cases htok
    rfl
  have hhead : ("src" :: later).head? ≠ some "port" :=
    fun hport => absurd (Option.some.inj hport) (by decide)
  rw [hwords, parseFullGrammar_clauses r.action r.direction hattached hfit hhead hdirection]
  rw [parseClauses] <;> decide

theorem UserRule.Wordy.parse_noSrcPort (h : r.Wordy) (hsrcPort : r.srcPort = none) :
    parseFullGrammar r.action r.specWords = .ok r.retyped := by
  have hnil : ([] : List String).head? ≠ some "port" := nofun
  have hparse := parseFullGrammar_clauses r.action r.direction r.attached_clauses h.fit hnil nofun
  rw [List.append_nil] at hparse
  rw [tokens_clauses hsrcPort, hparse, ← h.foldl_clauses hsrcPort, parseClauses]

theorem UserRule.retyped_eq_iff (hsrcPort : r.srcPort = none) :
    r.retyped = r ↔ (r.src.isSome = true → r.dst = none → r.dstPort = none) := by
  obtain ⟨_, _, iface, proto, src, dst, srcPort, dstPort⟩ := r
  obtain rfl : srcPort = none := hsrcPort
  cases src <;> cases dst <;> cases dstPort <;> simp [retyped, portAtSource]

end Lines

/-! ### What a line says -/

/-- The words of a line. -/
def lineWords (line : String) : List String := (line.toList.splitOn ' ').map String.ofList

theorem UserRule.Wordy.lineWords {r : UserRule} (h : r.Wordy) :
    Moatd.lineWords (renderRule r) = r.words := by
  rw [Moatd.lineWords, h.splitOn, List.map_map]
  simp [Function.comp_def]

/-- A word alone goes by the full grammar where no app profile has its name. -/
theorem parseRuleSpec_word {load : String → Except String (Option AppProfile)} (action : Action)
    {dir : Direction} (hload : load dir.name = .ok none) :
    parseRuleSpec load action [dir.name] =
      (parseFullGrammar action [dir.name]).map fun rule => [rule] := by
  have hnot : parseShorthand load dir.name action = .ok none := by
    have hport : (parseU16 dir.name.toList).isOk = false := by
      cases dir <;> decide
    have hslash : splitOnce '/' dir.name.toList = none := by
      cases dir <;> decide
    rw [parseShorthand, hport, if_neg Bool.false_ne_true, hslash]
    dsimp only
    rw [parseShorthand.loadProfile, hload]
    rfl
  show (parseShorthand load dir.name action >>= _) = _
  rw [hnot]
  show (parseFullGrammar action [dir.name] >>= fun rule => .ok [rule]) = _
  cases parseFullGrammar action [dir.name] <;> rfl

/-- **A listed line, typed in again.**  The rule has no interface name that the grammar
refuses, and no profile is called `in` or `out`.  Then the line is the action and words that
are a rule spec.  They are refused at the word `src` if the rule has a source port; otherwise they
give the rule, with the port read as a source port where only the source has an address. -/
theorem retype_listed {load : String → Except String (Option AppProfile)}
    (hload : ∀ dir : Direction, load dir.name = .ok none) {r : UserRule}
    (hcompiles : r.compiles = true) (hiface : ∀ v, r.iface = some v → validIfaceName v = true) :
    ∃ tokens, lineWords (renderRule r) = r.action.name :: tokens ∧
      parseRuleSpec load r.action tokens =
        (if r.srcPort.isSome then .error (.unexpectedToken "src") else .ok [r.retyped]) ∧
      (parseRuleSpec load r.action tokens = .ok [r] ↔
        r.srcPort = none ∧ (r.src.isSome = true → r.dst = none → r.dstPort = none)) := by
  have hwordy := UserRule.wordy_of_compiles hcompiles hiface
  have hspec : parseRuleSpec load r.action r.specWords =
      (parseFullGrammar r.action r.specWords).map fun rule => [rule] := by
    by_cases htwo : 2 ≤ r.specWords.length
    · exact parseRuleSpec_of_two load r.action htwo
    · have hone : r.specWords = [r.direction.name] := by
        rw [UserRule.specWords, List.length_cons] at htwo
        have hnone : (r.keyed.flatMap fieldWords).length = 0 := by omega
        rw [UserRule.specWords, List.length_eq_zero_iff.mp hnone]
      rw [hone]
      exact parseRuleSpec_word r.action (hload r.direction)
  refine ⟨r.specWords, hwordy.lineWords, ?_⟩
  rcases hsrcPort : r.srcPort with _ | sp
  · rw [hspec, hwordy.parse_noSrcPort hsrcPort]
    refine ⟨rfl, ?_⟩
    rw [← UserRule.retyped_eq_iff hsrcPort]
    constructor
    · intro h
      exact ⟨rfl, List.singleton_inj.mp (Except.ok.inj h)⟩
    · rintro ⟨-, h⟩
      rw [h]
      rfl
  · rw [hspec, hwordy.parse_srcPort hsrcPort]
    exact ⟨rfl, iff_of_false (fun h => by cases h) (fun h => by cases h.1)⟩

/-- An address of the local network may come in at the port of the secure shell. -/
def sshFromLan : UserRule where
  direction := .inbound
  action := .allow
  src := some "10.0.0.0/8"
  dstPort := some "22"
  proto := some .tcp

/-- The port has changed ends. -/
theorem sshFromLan_retyped :
    ∃ tokens, lineWords (renderRule sshFromLan) = "allow" :: tokens ∧
      parseRuleSpec noProfiles .allow tokens =
        .ok [{ sshFromLan with srcPort := some "22", dstPort := none }] ∧
      (parseRuleSpec noProfiles .allow tokens = .ok [sshFromLan] ↔
        (none : Option String) = none ∧ (true = true → (none : Option String) = none →
          some "22" = none)) :=
  retype_listed (fun _ => rfl) (by decide) (by decide)

theorem listLines_eq {rules : List UserRule} (h : rules ≠ []) :
    listLines rules = rules.mapIdx fun i r => "[" ++ toString (i + 1) ++ "] " ++ renderRule r :=
  if_neg h

theorem listLines_ne_noRules {rules : List UserRule} (h : rules ≠ []) :
    listLines rules ≠ ["(no rules)"] := by
  obtain ⟨r, rules, rfl⟩ := List.exists_cons_of_ne_nil h
  intro heq
  rw [listLines_eq h, List.mapIdx_cons, List.cons.injEq] at heq
  have hchars := congrArg (fun line => line.toList.head?) heq.1
  simp [String.toList_append] at hchars

/-- **Listed rules are known from their list.**  Two lists of rules that compile, with valid
interface names, print the same lines only if they are the same rules in the same order. -/
theorem listLines_inj {rules rules' : List UserRule}
    (hrules : ∀ r ∈ rules, r.compiles = true ∧ ∀ v, r.iface = some v → validIfaceName v = true)
    (hrules' : ∀ r ∈ rules', r.compiles = true ∧ ∀ v, r.iface = some v → validIfaceName v = true) :
    listLines rules = listLines rules' ↔ rules = rules' := by
  refine ⟨fun h => ?_, fun h => by rw [h]⟩
  have hrender {r r' : UserRule} (hr : r ∈ rules) (hr' : r' ∈ rules')
      (heq : renderRule r = renderRule r') : r = r' := by
    have hwordy := UserRule.wordy_of_compiles (hrules r hr).1 (hrules r hr).2
    have hwordy' := UserRule.wordy_of_compiles (hrules' r' hr').1 (hrules' r' hr').2
    apply UserRule.words_injective
    rw [← hwordy.lineWords, ← hwordy'.lineWords, heq]
  by_cases hnil : rules = []
  · by_cases hnil' : rules' = []
    · rw [hnil, hnil']
    · rw [hnil] at h
      exact absurd h.symm (listLines_ne_noRules hnil')
  · by_cases hnil' : rules' = []
    · rw [hnil'] at h
      exact absurd h (listLines_ne_noRules hnil)
    · rw [listLines_eq hnil, listLines_eq hnil'] at h
      have hlength := congrArg List.length h
      rw [List.length_mapIdx, List.length_mapIdx] at hlength
      refine List.ext_getElem hlength fun i hi hi' => ?_
      have hlines := List.getElem_of_eq h (i := i) (by simpa using hi)
      rw [List.getElem_mapIdx, List.getElem_mapIdx, String.append_right_inj] at hlines
      exact hrender (List.getElem_mem hi) (List.getElem_mem hi') hlines

/-- Two rules may be listed in two orders. -/
theorem listLines_swapped :
    listLines [sshFromLan, denyTelnetIn] = listLines [denyTelnetIn, sshFromLan] ↔
      [sshFromLan, denyTelnetIn] = [denyTelnetIn, sshFromLan] :=
  listLines_inj (by decide) (by decide)

end Moatd

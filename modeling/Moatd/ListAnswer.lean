import Mathlib.Algebra.Order.BigOperators.Group.List
import Mathlib.Algebra.Order.Ring.Nat
import Moatd.AddCommand
import Moatd.ControlFrames
import Moatd.RuleText

/-!
# The answer to `list`

The daemon writes any frame whose length fits in four bytes, and the command reads a megabyte.
Whether the rule list can be read depends on the size of its JSON, and the texts of a rule may
be as long as they like: the digits of a port or of a prefix length may have any number of zeros
before them.
-/

namespace Moatd

open Fallible JsonText Runs

/-! ### Sizes -/

/-- How many bytes of JSON a rule has. -/
def UserRule.jsonSize (r : UserRule) : Nat := (r.fields.map fieldSize).sum + 1

/-- How many bytes of JSON the answer has: with the commas between the rules, and what stands
around them. -/
def listSize (rules : List UserRule) : Nat := bracketedSize UserRule.jsonSize rules + 10

theorem UserRule.size_text (r : UserRule) : size r.text = r.jsonSize := by
  rw [text, size_record, jsonSize]
  simp [fields, List.filterMap_cons, present]

theorem length_rulesText (rules : List UserRule) :
    (bytes (rulesText rules)).length = listSize rules := by
  have hname : stringSize "Rules".toList = 7 := by decide
  have hsize : (fun r => size (UserRule.text r)) = UserRule.jsonSize := funext UserRule.size_text
  rw [length_bytes, rulesText, size_variant, size_array, hname, hsize, listSize]
  omega

theorem length_listRulesText : (bytes listRulesText).length = 11 := by
  rw [length_bytes, listRulesText, size_string]
  decide

/-! ### When the list can be read -/

section List
variable (json : Json) (toml : Toml)

/-- What `call` writes for `ListRules`. -/
def listRequest : List UInt8 := frame (bytes listRulesText)

/-- `serve_client` writes the list, and `call` accepts the frame and gets the list. -/
structure ReadsList (env : Env) (s : DaemonState) (payload : List UInt8) : Prop where
  encodes : json.responseToVec (.rules s.onDisk.rules) = .ok payload
  written : (serveClient json toml env s { input := listRequest }).1 = .ok (frame payload)
  short : payload.length ≤ maxFrameBytes
  unchanged : readResponse (frame payload) = .ok payload
  answer : call json (daemonAnswers json toml env s) .listRules = .ok (.rules s.onDisk.rules)

/-- In this state the command can read the answer of the daemon. -/
def CliReads (s : DaemonState) : Prop := ∀ env, ∃ payload, ReadsList json toml env s payload

/-- A client, served in its environment. -/
def serveStep (s : DaemonState) (l : Client × Env) : DaemonState :=
  (serveClient json toml l.2 s l.1).2

/-- The daemon reads a request to add this rule, and its answer is `Ok`. -/
structure AcceptsAdd (s : DaemonState) (l : Client × Env) (rule : UserRule) : Prop where
  whole : l.1.readBreak = none
  read : ∃ payload, readFrame l.1.input = .ok payload ∧
    json.requestFromSlice payload = .ok (.addRule rule)
  answered : (dispatch toml l.2 s (.addRule rule)).1 = .ok

variable {json toml}

theorem readFrame_listRequest : readFrame listRequest = .ok (bytes listRulesText) := by
  have hlength := length_listRulesText
  rw [readFrame, listRequest, readLimited_frame (by omega),
    if_neg (by rw [hlength, maxFrameBytes]; omega)]

theorem serveClient_listRequest (hjson : json.Documented) (env : Env) (s : DaemonState) :
    (serveClient json toml env s { input := listRequest }).1 =
      (writeFrame (bytes (rulesText s.onDisk.rules))).mapError .frame := by
  have hdecode := hjson.request_roundTrips _ _ hjson.listRules
  have hencode : json.responseToVec (dispatch toml env s .listRules).1 =
      .ok (bytes (rulesText s.onDisk.rules)) := hjson.rules s.onDisk.rules
  exact serveClient_fst readFrame_listRequest hdecode hencode rfl rfl

theorem writeRequest_listRules :
    writeRequest (bytes listRulesText) = .ok listRequest := by
  rw [writeRequest, writeLimited, if_pos (by rw [length_listRulesText]; omega), listRequest]

/-- What the daemon answers: nothing if the length does not fit in four bytes. -/
theorem daemonAnswers_listRequest (hjson : json.Documented) (env : Env) (s : DaemonState) :
    daemonAnswers json toml env s listRequest =
      .ok (if listSize s.onDisk.rules ≤ 4294967295 then frame (bytes (rulesText s.onDisk.rules))
        else []) := by
  rw [daemonAnswers, serveClient_listRequest hjson, writeFrame, writeLimited, length_rulesText]
  by_cases hfits : listSize s.onDisk.rules ≤ 4294967295
  · rw [if_pos hfits, if_pos hfits]
    rfl
  · rw [if_neg hfits, if_neg hfits]
    rfl

theorem readResponse_rules {rules : List UserRule} (hfits : listSize rules ≤ 4294967295) :
    readResponse (frame (bytes (rulesText rules))) =
      if maxFrameBytes < listSize rules then .error (.responseTooLarge (listSize rules))
      else .ok (bytes (rulesText rules)) := by
  have hlength := length_rulesText rules
  rw [readResponse, readLimited_frame (by omega), hlength]

/-- What `call` makes of the answer, for a list of any size. -/
theorem call_listRules (hjson : json.Documented) (env : Env) (s : DaemonState) :
    call json (daemonAnswers json toml env s) .listRules =
      if listSize s.onDisk.rules ≤ maxFrameBytes then .ok (.rules s.onDisk.rules)
      else if listSize s.onDisk.rules ≤ 4294967295 then
        .error (.frame (.responseTooLarge (listSize s.onDisk.rules)))
      else .error (.frame .eof) := by
  have hdecode := hjson.rules_roundTrip _ _ (hjson.rules s.onDisk.rules)
  simp only [call, hjson.listRules, Except.mapError, writeRequest_listRules,
    daemonAnswers_listRequest hjson, bind, Except.bind]
  by_cases hshort : listSize s.onDisk.rules ≤ maxFrameBytes
  · have hfits : listSize s.onDisk.rules ≤ 4294967295 := by
      rw [maxFrameBytes] at hshort
      omega
    rw [if_pos hshort, if_pos hfits, readResponse_rules hfits, if_neg (Nat.not_lt.mpr hshort)]
    simp only [hdecode]
  · rw [if_neg hshort]
    by_cases hfits : listSize s.onDisk.rules ≤ 4294967295
    · rw [if_pos hfits, if_pos hfits, readResponse_rules hfits, if_pos (Nat.not_le.mp hshort)]
    · rw [if_neg hfits, if_neg hfits]
      rfl

/-- The command can read exactly the lists whose JSON is short enough. -/
theorem cliReads_iff (hjson : json.Documented) (s : DaemonState) :
    CliReads json toml s ↔ listSize s.onDisk.rules ≤ maxFrameBytes := by
  have hlength := length_rulesText s.onDisk.rules
  constructor
  · intro h
    -- the list is answered alike in every environment
    obtain ⟨payload, hreads⟩ := h { net := fun _ => [] }
    have hpayload := hreads.encodes
    rw [hjson.rules] at hpayload
    cases hpayload
    rw [← hlength]
    exact hreads.short
  · intro hshort env
    have hfits : listSize s.onDisk.rules ≤ 4294967295 := by
      rw [maxFrameBytes] at hshort
      omega
    refine ⟨_, hjson.rules _, ?_, hlength.trans_le hshort, ?_, ?_⟩
    · rw [serveClient_listRequest hjson, writeFrame, writeLimited, if_pos (hlength.trans_le hfits)]
      rfl
    · rw [readResponse_rules hfits, if_neg (Nat.not_lt.mpr hshort)]
    · rw [call_listRules hjson, if_pos hshort]

/-- Short texts are enough: a full list of such rules can be read. -/
theorem listSize_le {rules : List UserRule} (hlimit : rules.length ≤ rulesMax)
    (hshort : ∀ r ∈ rules, r.jsonSize ≤ 4094) : listSize rules ≤ maxFrameBytes := by
  have heach : ∀ n ∈ rules.map fun r => r.jsonSize + 1, n ≤ 4095 := by
    intro n hn
    obtain ⟨r, hr, rfl⟩ := List.mem_map.mp hn
    exact Nat.succ_le_succ (hshort r hr)
  have hsum := List.sum_le_card_nsmul _ _ heach
  rw [List.length_map, Nat.nsmul_eq_mul] at hsum
  rw [listSize, bracketedSize, maxFrameBytes]
  rw [rulesMax] at hlimit
  split <;> omega

theorem AcceptsAdd.rules_eq {s : DaemonState} {l : Client × Env} {rule : UserRule}
    (h : AcceptsAdd json toml s l rule) :
    (serveStep json toml s l).onDisk.rules = s.onDisk.rules ++ [rule] := by
  obtain ⟨payload, hframe, hdecode⟩ := h.read
  have hstep : serveStep json toml s l = (dispatch toml l.2 s (.addRule rule)).2 :=
    serveClient_snd h.whole hframe hdecode
  have hok : dispatch toml l.2 s (.addRule rule) =
      (.ok, (dispatch toml l.2 s (.addRule rule)).2) := Prod.ext h.answered rfl
  rw [hstep, (tookEffect_of_ok hok).list]

theorem AcceptsAdd.unique {s : DaemonState} {l : Client × Env} {rule rule' : UserRule}
    (h : AcceptsAdd json toml s l rule) (h' : AcceptsAdd json toml s l rule') : rule' = rule := by
  have hrules := h.rules_eq
  rw [h'.rules_eq] at hrules
  exact List.singleton_injective (List.append_cancel_left hrules)

/-- **When every list can be read.**  Along a run of accepted requests the command can read the
answer in every state if and only if the JSON of the list stays within the limit of its reader:
the list it begins with, and at every request the list with the new rule. -/
theorem along_cliReads_iff (hjson : json.Documented) {s : DaemonState}
    {run : List (Client × Env)}
    (hadds : Along (serveStep json toml) (fun s l => ∃ rule, AcceptsAdd json toml s l rule) s run) :
    (CliReads json toml s ∧
        Along (serveStep json toml) (fun s l => CliReads json toml (serveStep json toml s l)) s
          run) ↔
      listSize s.onDisk.rules ≤ maxFrameBytes ∧
        Along (serveStep json toml) (fun s l => ∀ rule, AcceptsAdd json toml s l rule →
          listSize (s.onDisk.rules ++ [rule]) ≤ maxFrameBytes) s run := by
  refine and_congr (cliReads_iff hjson s) ?_
  -- both sides speak of the list that the step leaves, which ends with the new rule
  refine along_congr_of_along (I := fun _ => True) (fun _ _ _ _ => trivial) ?_ hadds trivial
  rintro s l - ⟨rule, hadd⟩
  rw [cliReads_iff hjson, hadd.rules_eq]
  constructor
  · intro h rule' hadd'
    rwa [hadd.unique hadd']
  · intro h
    exact h rule hadd

end List

/-! ### Ports with many zeros -/

/-- Zeros before a number do not change it. -/
theorem parseDigits_zeros (max n : Nat) (digits : List Char) :
    parseDigits max (List.replicate n '0' ++ digits) 0 = parseDigits max digits 0 := by
  induction n with
  | zero => rfl
  | succ n ih =>
    rw [List.replicate_succ, List.cons_append, parseDigits]
    exact ih

/-- Port 22 behind this many zeros. -/
def zerosPort (n : Nat) : String := String.ofList (List.replicate n '0' ++ ['2', '2'])

/-- A rule for this port. -/
def zerosRule (n : Nat) : UserRule :=
  { direction := .inbound, action := .allow, dstPort := some (zerosPort n) }

theorem parseU16_zerosPort (n : Nat) : parseU16 (zerosPort n).toList = .ok 22 := by
  have hdigits : parseUnsigned 65535 (List.replicate n '0' ++ ['2', '2']) = .ok 22 := by
    rcases n with _ | n
    · rfl
    · have hzeros := parseDigits_zeros 65535 (n + 1) ['2', '2']
      rw [List.replicate_succ, List.cons_append] at hzeros ⊢
      exact hzeros
  rw [zerosPort, String.toList_ofList, parseU16, hdigits]
  rfl

theorem zerosRule_compiles (n : Nat) : (zerosRule n).compiles = true := by
  have hdash : splitOnce '-' (zerosPort n).toList = none := by
    rw [splitOnce_eq_none_iff, zerosPort, String.toList_ofList]
    simp
  have hport : parsePortRange (zerosPort n) = .ok (22, 22) := by
    rw [parsePortRange, hdash]
    dsimp only
    rw [parseU16_zerosPort]
    rfl
  rw [UserRule.compiles, buildWireRule]
  simp only [zerosRule, parsePortsOpt, hport]
  rfl

theorem zerosRule_jsonSize (n : Nat) : (zerosRule n).jsonSize = n + 51 := by
  have hport : stringSize (zerosPort n).toList = n + 4 := by
    have hzero : escapedSize '0' = 1 := rfl
    have htwo : escapedSize '2' = 1 := rfl
    rw [zerosPort, String.toList_ofList, stringSize, List.map_append, List.map_replicate, hzero]
    simp [htwo]
  have hfields : (zerosRule n).fields =
      [("direction".toList, some "in".toList), ("action".toList, some "allow".toList),
        ("iface".toList, none), ("proto".toList, none), ("src".toList, none), ("dst".toList, none),
        ("src_port".toList, none), ("dst_port".toList, some (zerosPort n).toList)] := rfl
  have hdirection : fieldSize ("direction".toList, some "in".toList) = 17 := by decide
  have haction : fieldSize ("action".toList, some "allow".toList) = 17 := by decide
  have hdstPort : fieldSize ("dst_port".toList, some (zerosPort n).toList) = n + 16 := by
    have hkey : stringSize "dst_port".toList = 10 := by decide
    rw [fieldSize_some, memberSize, hkey, hport]
    omega
  rw [UserRule.jsonSize, hfields]
  simp only [List.map_cons, List.map_nil, List.sum_cons, List.sum_nil, fieldSize_none, hdirection,
    haction, hdstPort]
  omega

/-! ### Two such rules -/

/-- `Request::AddRule`. -/
def addRuleText (r : UserRule) : List Char := variant "AddRule".toList r.text

/-- The texts of the requests here. -/
def sampleRequestToVec : Request → Except String (List UInt8)
  | .listRules => .ok (bytes listRulesText)
  | .addRule rule => .ok (bytes (addRuleText rule))
  | _ => .error "another request"

/-- The two responses of the example, as JSON. -/
def sampleResponseToVec : Response → Except String (List UInt8)
  | .ok => .ok (bytes (string "Ok".toList))
  | .rules rules => .ok (bytes (rulesText rules))
  | _ => .error "another response"

open Classical in
/-- Reads back what was written. -/
noncomputable def readBack {α : Type} (toVec : α → Except String (List UInt8))
    (slice : List UInt8) : Except String α :=
  if h : ∃ a, toVec a = .ok slice then .ok h.choose else .error "not JSON"

/-- A codec for the messages of the example. -/
noncomputable def sampleJson : Json where
  requestToVec := sampleRequestToVec
  requestFromSlice := readBack sampleRequestToVec
  responseToVec := sampleResponseToVec
  responseFromSlice := readBack sampleResponseToVec

theorem readBack_eq {α : Type} {toVec : α → Except String (List UInt8)} {a : α}
    {slice : List UInt8} (ha : toVec a = .ok slice)
    (hinj : ∀ a', toVec a' = .ok slice → a' = a) : readBack toVec slice = .ok a := by
  have hex : ∃ a, toVec a = .ok slice := ⟨a, ha⟩
  rw [readBack, dif_pos hex, hinj _ hex.choose_spec]

theorem addRuleText_injective : Function.Injective addRuleText :=
  (UserRule.text_prefixFree.variant "AddRule".toList).injective

/-- A variant begins with a brace and a string with a quote. -/
theorem variant_ne_string (name content s : List Char) : variant name content ≠ string s :=
  fun h => absurd (List.cons.inj h).1 (by decide)

theorem sampleRequestToVec_ok {req : Request} {slice : List UInt8}
    (h : sampleRequestToVec req = .ok slice) :
    (req = .listRules ∧ slice = bytes listRulesText) ∨
      ∃ rule, req = .addRule rule ∧ slice = bytes (addRuleText rule) := by
  cases req with
  | listRules => exact .inl ⟨rfl, (Except.ok.inj h).symm⟩
  | addRule rule => exact .inr ⟨rule, rfl, (Except.ok.inj h).symm⟩
  | _ => cases h

theorem sampleRequest_injective {req req' : Request} {slice : List UInt8}
    (h : sampleRequestToVec req = .ok slice) (h' : sampleRequestToVec req' = .ok slice) :
    req' = req := by
  obtain ⟨rfl, hslice⟩ | ⟨rule, rfl, hslice⟩ := sampleRequestToVec_ok h <;>
    obtain ⟨rfl, hslice'⟩ | ⟨rule', rfl, hslice'⟩ := sampleRequestToVec_ok h' <;>
    have htext := bytes_injective (hslice'.symm.trans hslice)
  · rfl
  · exact absurd htext (variant_ne_string _ _ _)
  · exact absurd htext.symm (variant_ne_string _ _ _)
  · rw [addRuleText_injective htext]

theorem sampleJson_documented : sampleJson.Documented where
  request_roundTrips req slice h := readBack_eq h fun _ => sampleRequest_injective h
  rules_roundTrip rules slice h := by
    refine readBack_eq h fun resp hresp => ?_
    have hslice := Except.ok.inj h
    cases resp with
    | ok =>
      have htext := bytes_injective (hslice.trans (Except.ok.inj hresp).symm)
      exact absurd htext (variant_ne_string _ _ _)
    | rules rules' =>
      have htext := bytes_injective (hslice.trans (Except.ok.inj hresp).symm)
      rw [rulesText_prefixFree.injective htext]
    | _ => cases hresp
  listRules := rfl
  rules _ := rfl

/-- A client that sends a request to add this rule. -/
def addClient (rule : UserRule) : Client × Env :=
  ({ input := frame (bytes (addRuleText rule)) }, { net := noNet })

theorem length_addRuleText (rule : UserRule) :
    (bytes (addRuleText rule)).length = rule.jsonSize + 12 := by
  have hname : stringSize "AddRule".toList = 9 := by decide
  rw [length_bytes, addRuleText, size_variant, UserRule.size_text, hname]
  omega

/-- A rule that compiles is added where there is room, if its request is short enough. -/
theorem addClient_accepted {s : DaemonState} {rule : UserRule}
    (hroom : s.onDisk.rules.length < rulesMax) (hiface : rule.iface = none)
    (hshort : rule.jsonSize + 12 ≤ maxFrameBytes)
    (hcompiles : ∀ r ∈ s.onDisk.rules ++ [rule], r.compiles = true) :
    AcceptsAdd sampleJson (sampleToml sampleLists) s (addClient rule) rule := by
  have hlength := length_addRuleText rule
  rw [maxFrameBytes] at hshort
  have hread : readFrame (addClient rule).1.input = .ok (bytes (addRuleText rule)) := by
    rw [addClient, readFrame, readLimited_frame (by omega), if_neg (by rw [maxFrameBytes]; omega)]
  have hdecode : sampleJson.requestFromSlice (bytes (addRuleText rule)) = .ok (.addRule rule) :=
    sampleJson_documented.request_roundTrips _ _ rfl
  have hedit : (Request.addRule rule).edit s.onDisk =
      .ok { s.onDisk with rules := s.onDisk.rules ++ [rule] } := by
    rw [Request.edit_addRule, if_neg (Nat.not_le.mpr hroom), hiface]
  refine ⟨rfl, ⟨_, hread, hdecode⟩, ?_⟩
  exact dispatch_ok_of_compiles rfl hedit (sampleToml_saves sampleLists _) hcompiles

/-- Two clients, each of which adds the rule. -/
def twoZeros (n : Nat) : List (Client × Env) :=
  [addClient (zerosRule n), addClient (zerosRule n)]

/-- Both requests are accepted where the texts stay below the limit of `read_frame`. -/
theorem twoZeros_accepted {n : Nat} (h : n + 63 ≤ maxFrameBytes) :
    Along (serveStep sampleJson (sampleToml sampleLists))
        (fun s l => AcceptsAdd sampleJson (sampleToml sampleLists) s l (zerosRule n))
        (boot [] noFile {}) (twoZeros n) ∧
      (after (serveStep sampleJson (sampleToml sampleLists)) (boot [] noFile {})
        (twoZeros n)).onDisk.rules = [zerosRule n, zerosRule n] := by
  have hshort : (zerosRule n).jsonSize + 12 ≤ maxFrameBytes := by
    rw [zerosRule_jsonSize]
    exact h
  have hfirst : AcceptsAdd sampleJson (sampleToml sampleLists) (boot [] noFile {})
      (addClient (zerosRule n)) (zerosRule n) := by
    apply addClient_accepted (by decide) rfl hshort
    intro r hr
    rw [List.mem_singleton.mp hr]
    exact zerosRule_compiles n
  have hone : (serveStep sampleJson (sampleToml sampleLists) (boot [] noFile {})
      (addClient (zerosRule n))).onDisk.rules = [zerosRule n] := hfirst.rules_eq
  have hsecond : AcceptsAdd sampleJson (sampleToml sampleLists)
      (serveStep sampleJson (sampleToml sampleLists) (boot [] noFile {}) (addClient (zerosRule n)))
      (addClient (zerosRule n)) (zerosRule n) := by
    apply addClient_accepted ?_ rfl hshort
    · intro r hr
      -- the sync compiles the rule before it again
      rw [hone] at hr
      have hzeros : r = zerosRule n := by simpa using hr
      rw [hzeros]
      exact zerosRule_compiles n
    · rw [hone, List.length_singleton, rulesMax]
      omega
  refine ⟨⟨hfirst, hsecond, trivial⟩, ?_⟩
  rw [twoZeros, after_cons, after_cons, after_nil, hsecond.rules_eq, hone]
  rfl

theorem twoZeros_listSize (n : Nat) : listSize [zerosRule n, zerosRule n] = 2 * n + 115 := by
  rw [listSize, bracketedSize, if_neg (List.cons_ne_nil _ _)]
  simp only [List.map_cons, List.map_nil, List.sum_cons, List.sum_nil, zerosRule_jsonSize]
  omega

/-- Each rule is accepted, and then the command cannot read the list. -/
theorem long_ports_unreadable :
    sampleJson.Documented ∧
      Along (serveStep sampleJson (sampleToml sampleLists))
        (fun s l => AcceptsAdd sampleJson (sampleToml sampleLists) s l (zerosRule 600000))
        (boot [] noFile {}) (twoZeros 600000) ∧
      ∃ s, s = after (serveStep sampleJson (sampleToml sampleLists)) (boot [] noFile {})
          (twoZeros 600000) ∧
        ¬ CliReads sampleJson (sampleToml sampleLists) s ∧
        call sampleJson (daemonAnswers sampleJson (sampleToml sampleLists) { net := noNet } s)
          .listRules = .error (.frame (.responseTooLarge 1200115)) := by
  obtain ⟨hadds, hrules⟩ := twoZeros_accepted (n := 600000) (by rw [maxFrameBytes]; omega)
  have hsize := twoZeros_listSize 600000
  refine ⟨sampleJson_documented, hadds, _, rfl, ?_, ?_⟩
  · rw [cliReads_iff sampleJson_documented, hrules, hsize, maxFrameBytes]
    omega
  · rw [call_listRules sampleJson_documented, hrules, hsize, maxFrameBytes, if_neg (by omega),
      if_pos (by omega)]

/-- Without the zeros the list can be read all along. -/
theorem short_ports_readable :
    CliReads sampleJson (sampleToml sampleLists) (boot [] noFile {}) ∧
      Along (serveStep sampleJson (sampleToml sampleLists))
        (fun s l => CliReads sampleJson (sampleToml sampleLists)
          (serveStep sampleJson (sampleToml sampleLists) s l))
        (boot [] noFile {}) (twoZeros 0) := by
  obtain ⟨⟨hfirst, hsecond, -⟩, -⟩ := twoZeros_accepted (n := 0) (by decide)
  have hone := hfirst.rules_eq
  have hsmall : ∀ k ≤ 2, listSize (List.replicate k (zerosRule 0)) ≤ maxFrameBytes := by
    intro k hk
    apply listSize_le
    · rw [List.length_replicate, rulesMax]
      omega
    · intro r hr
      rw [(List.mem_replicate.mp hr).2, zerosRule_jsonSize]
      omega
  have hadds : Along (serveStep sampleJson (sampleToml sampleLists))
      (fun s l => ∃ rule, AcceptsAdd sampleJson (sampleToml sampleLists) s l rule)
      (boot [] noFile {}) (twoZeros 0) := ⟨⟨_, hfirst⟩, ⟨_, hsecond⟩, trivial⟩
  refine (along_cliReads_iff sampleJson_documented hadds).mpr
    ⟨hsmall 0 (by omega), ?_, ?_, trivial⟩
  · intro rule hadd
    rw [hfirst.unique hadd]
    exact hsmall 1 (by omega)
  · intro rule hadd
    rw [hsecond.unique hadd, hone]
    exact hsmall 2 (by omega)

end Moatd

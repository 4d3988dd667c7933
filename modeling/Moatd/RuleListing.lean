import Mathlib.Data.List.ReduceOption
import Moatd.ControlFrames
import Moatd.RuleGrammar
import Moatd.RuleText

/-!
# The listing of rules

`moatd list` prints each rule on a line of its own, in words that look like the ones a rule
is entered with.  Different rules have different lines.  A line typed in again gives the
rule back unless it has a source port, whose words the grammar does not know, or a
destination port behind a source address, which is read as a source port.
-/

namespace Moatd

/-! ### Texts of a rule have no blanks

A reader that succeeds leaves every blank of its text to be read. -/

theorem toDigit_blank {radix : Nat} (hradix : radix = 10 ∨ radix = 16) :
    toDigit radix ' ' = none := by
  rcases hradix with rfl | rfl <;> decide

theorem blank_spanDigits {radix : Nat} (hradix : radix = 10 ∨ radix = 16) {s : List Char}
    (h : ' ' ∈ s) : ' ' ∈ (spanDigits radix s).2 := by
  induction s with
  | nil => exact h
  | cons c cs ih =>
    rw [spanDigits]
    split
    · exact h
    · rename_i hdigit
      rcases List.mem_cons.mp h with rfl | h
      · rw [toDigit_blank hradix] at hdigit
        cases hdigit
      · exact ih h

theorem blank_readNumber {radix maxDigits max n : Nat} {allowZeroPrefix : Bool}
    {s rest : List Char} (hradix : radix = 10 ∨ radix = 16)
    (hread : readNumber radix maxDigits allowZeroPrefix max s = some (n, rest)) (h : ' ' ∈ s) :
    ' ' ∈ rest := by
  unfold readNumber at hread
  dsimp only at hread
  split_ifs at hread
  cases hread
  exact blank_spanDigits hradix h

theorem blank_readSeparator {α : Type} {sep : Char} {i : Nat}
    {inner : List Char → Option (α × List Char)} {s rest : List Char} {v : α} (hsep : sep ≠ ' ')
    (hinner : ∀ s v rest, inner s = some (v, rest) → ' ' ∈ s → ' ' ∈ rest)
    (hread : readSeparator sep i inner s = some (v, rest)) (h : ' ' ∈ s) : ' ' ∈ rest := by
  unfold readSeparator at hread
  split at hread
  · exact hinner _ _ _ hread h
  · split at hread
    · rename_i c cs
      split at hread
      · rename_i hc
        rcases List.mem_cons.mp h with hblank | h
        · exact absurd (hc.symm.trans hblank.symm) hsep
        · exact hinner _ _ _ hread h
      · cases hread
    · cases hread

theorem blank_readIpv4Addr {s rest : List Char} {octets : List UInt8}
    (hread : readIpv4Addr s = some (octets, rest)) (h : ' ' ∈ s) : ' ' ∈ rest := by
  have hoctet {i : Nat} {s rest : List Char} {n : Nat}
      (hread : readSeparator '.' i (readNumber 10 3 false 255) s = some (n, rest))
      (h : ' ' ∈ s) : ' ' ∈ rest :=
    blank_readSeparator (by decide) (fun _ _ _ => blank_readNumber (Or.inl rfl)) hread h
  unfold readIpv4Addr at hread
  dsimp only at hread
  obtain ⟨a, ha, hread⟩ := Option.bind_eq_some_iff.mp hread
  obtain ⟨b, hb, hread⟩ := Option.bind_eq_some_iff.mp hread
  obtain ⟨c, hc, hread⟩ := Option.bind_eq_some_iff.mp hread
  obtain ⟨d, hd, hread⟩ := Option.bind_eq_some_iff.mp hread
  cases hread
  exact hoctet hd (hoctet hc (hoctet hb (hoctet ha h)))

theorem blank_readGroups (limit n i : Nat) {s : List Char} (h : ' ' ∈ s) :
    ' ' ∈ (readGroups limit n i s).2.2 := by
  induction n generalizing i s with
  | zero => exact h
  | succ n ih =>
    rw [readGroups]
    split
    · rename_i octets rest hread
      split at hread
      · exact blank_readSeparator (by decide) (fun _ _ _ => blank_readIpv4Addr) hread h
      · cases hread
    · split
      · rename_i group rest hread
        refine ih _ (blank_readSeparator (by decide) (fun _ _ _ => ?_) hread h)
        exact blank_readNumber (Or.inr rfl)
      · exact h

theorem blank_readIpv6Addr {s rest : List Char} {octets : List UInt8}
    (hread : readIpv6Addr s = some (octets, rest)) (h : ' ' ∈ s) : ' ' ∈ rest := by
  have hhead := blank_readGroups 8 8 0 h
  unfold readIpv6Addr at hread
  dsimp only at hread
  split_ifs at hread
  · cases hread
    exact hhead
  · split at hread
    · rename_i rest' hrest
      cases hread
      rw [hrest] at hhead
      refine blank_readGroups _ _ _ ?_
      rcases List.mem_cons.mp hhead with hcolon | hhead
      · cases hcolon
      · rcases List.mem_cons.mp hhead with hcolon | hhead
        · cases hcolon
        · exact hhead
    · cases hread

theorem blank_parseWith {inner : List Char → Option (List UInt8 × List Char)} {s : List Char}
    {octets : List UInt8} (hinner : ∀ v rest, inner s = some (v, rest) → ' ' ∈ s → ' ' ∈ rest)
    (hread : parseWith inner s = some octets) : ' ' ∉ s := by
  unfold parseWith at hread
  split at hread
  · rename_i a hinner'
    exact fun h => absurd (hinner _ _ hinner' h) List.not_mem_nil
  · cases hread

theorem blank_ipAddrFromStr {s : List Char} {addr : IpAddr} (h : ipAddrFromStr s = some addr) :
    ' ' ∉ s := by
  unfold ipAddrFromStr ipv4FromStr at h
  split at h
  · rename_i octets hread
    split_ifs at hread
    exact blank_parseWith (fun _ _ => blank_readIpv4Addr) hread
  · obtain ⟨octets, hread, -⟩ := Option.map_eq_some_iff.mp h
    exact blank_parseWith (fun _ _ => blank_readIpv6Addr) hread

theorem blank_parseDigits {max acc n : Nat} {s : List Char} (h : parseDigits max s acc = .ok n) :
    ' ' ∉ s := by
  induction s generalizing acc with
  | nil => exact List.not_mem_nil
  | cons c cs ih =>
    rw [parseDigits] at h
    split at h
    · cases h
    · rename_i d hdigit
      split at h
      · rw [List.mem_cons, not_or]
        refine ⟨?_, ih h⟩
        rintro rfl
        rw [toDigit_blank (Or.inl rfl)] at hdigit
        cases hdigit
      · cases h

theorem blank_parseUnsigned {max n : Nat} {s : List Char} (h : parseUnsigned max s = .ok n) :
    ' ' ∉ s := by
  unfold parseUnsigned at h
  split at h
  · cases h
  · cases h
  · rw [List.mem_cons, not_or]
    exact ⟨by decide, blank_parseDigits h⟩
  · exact blank_parseDigits h

theorem PortText.no_blank {text : String} {lo hi : UInt16} (h : PortText text lo hi) :
    ' ' ∉ text.toList := by
  have hport {s : List Char} {port : UInt16} (h : parseU16 s = .ok port) : ' ' ∉ s := by
    obtain ⟨n, hn, -⟩ := Fallible.map_eq_ok_iff.mp h
    exact blank_parseUnsigned hn
  cases h with
  | single _ h => exact hport h
  | range htext _ hlo hhi =>
    rw [htext, List.mem_append, List.mem_cons, not_or, not_or]
    exact ⟨hport hlo, by decide, hport hhi⟩

theorem CidrText.no_blank {text : String} {addr : IpAddr} {n : Nat} (h : CidrText text addr n) :
    ' ' ∉ text.toList := by
  cases h with
  | host _ haddr => exact blank_ipAddrFromStr haddr
  | net htext _ haddr hplen =>
    obtain ⟨m, hm, -⟩ := Fallible.map_eq_ok_iff.mp hplen
    rw [htext, List.mem_append, List.mem_cons, not_or, not_or]
    exact ⟨blank_ipAddrFromStr haddr, by decide, blank_parseUnsigned hm⟩

/-- The text is one word, and as an address not `any`. -/
structure UserRule.Wordy (r : UserRule) : Prop where
  iface : ∀ v, r.iface = some v → validIfaceName v = true
  src : ∀ v, r.src = some v → ' ' ∉ v.toList ∧ v ≠ "any"
  srcPort : ∀ v, r.srcPort = some v → ' ' ∉ v.toList
  dst : ∀ v, r.dst = some v → ' ' ∉ v.toList ∧ v ≠ "any"
  dstPort : ∀ v, r.dstPort = some v → ' ' ∉ v.toList

theorem parseCidr_word {text : String} {cidr : IpCidr} (h : parseCidr text = .ok cidr) :
    ' ' ∉ text.toList ∧ text ≠ "any" := by
  obtain ⟨addr, n, htext, -⟩ := parseCidr_ok h
  refine ⟨htext.no_blank, ?_⟩
  rintro rfl
  have hnot : (parseCidr "any").toBool = false := by decide
  rw [h] at hnot
  cases hnot

/-- The texts of a rule that compiles, with an interface that the daemon accepts. -/
theorem UserRule.wordy_of_compiles {r : UserRule} (hcompiles : r.compiles = true)
    (hiface : ∀ v, r.iface = some v → validIfaceName v = true) : r.Wordy := by
  obtain ⟨rule, hbuild⟩ := (UserRule.compiles_iff ifaceAny).mp hcompiles
  obtain ⟨src, dst, family, srcPorts, dstPorts, hsrc, hdst, -, hsrcPorts, hdstPorts, -⟩ :=
    buildWireRule_ok hbuild
  have haddr {text : Option String} {cidr : Option IpCidr} (h : parseCidrOpt text = .ok cidr)
      (v : String) (hv : text = some v) : ' ' ∉ v.toList ∧ v ≠ "any" := by
    subst hv
    obtain ⟨c, hc, -⟩ := Fallible.map_eq_ok_iff.mp h
    exact parseCidr_word hc
  have hports {text : Option String} {ports : UInt16 × UInt16} (h : parsePortsOpt text = .ok ports)
      (v : String) (hv : text = some v) : ' ' ∉ v.toList := by
    subst hv
    exact (parsePortRange_ok (show parsePortRange v = .ok ports from h)).1.no_blank
  exact ⟨hiface, haddr hsrc, hports hsrcPorts, haddr hdst, hports hdstPorts⟩

/-! ### Printing -/

/-- The action as `{:?}` prints it. -/
def Action.debug : Action → String
  | .allow => "Allow"
  | .deny => "Deny"
  | .reject => "Reject"

/-- The direction as `{:?}` prints it. -/
def Direction.debug : Direction → String
  | .inbound => "In"
  | .outbound => "Out"

/-- The protocol as `{:?}` prints it. -/
def Protocol.debug : Protocol → String
  | .tcp => "Tcp"
  | .udp => "Udp"
  | .icmp => "Icmp"
  | .any => "Any"

/-- The parts of `render_rule`, each pushed where the rule has it. -/
def ruleParts (r : UserRule) : List String :=
  toAsciiLowercase (r.action.debug ++ " " ++ r.direction.debug) ::
    [r.iface.map fun iface => "on " ++ iface,
      r.src.map fun src => "from " ++ src,
      r.srcPort.map fun sp => "src port " ++ sp,
      r.dst.map fun dst => "to " ++ dst,
      r.dstPort.map fun dp => "port " ++ dp,
      r.proto.map fun proto => toAsciiLowercase ("proto " ++ proto.debug)].reduceOption

/-- `render_rule`. -/
def renderRule (r : UserRule) : String := " ".intercalate (ruleParts r)

/-- What `list` prints. -/
def listLines (rules : List UserRule) : List String :=
  if rules = [] then ["(no rules)"]
  else rules.mapIdx fun i r => "[" ++ toString (i + 1) ++ "] " ++ renderRule r

/-! ### The words of a line -/

/-- The fields with the keywords in front of them. -/
def UserRule.keyed (r : UserRule) : List (List String × Option String) :=
  [(["on"], r.iface), (["from"], r.src), (["src", "port"], r.srcPort), (["to"], r.dst),
    (["port"], r.dstPort), (["proto"], r.proto.map Protocol.name)]

/-- The words of a field; an absent field has none. -/
def fieldWords (f : List String × Option String) : List String :=
  match f.2 with
  | some v => f.1 ++ [v]
  | none => []

/-- The words behind the action. -/
def UserRule.specWords (r : UserRule) : List String :=
  r.direction.name :: r.keyed.flatMap fieldWords

/-- The words of the listed rule. -/
def UserRule.words (r : UserRule) : List String := r.action.name :: r.specWords

/-- Parts of words, put together, are the words put together. -/
theorem intercalate_parts (sep : String) {parts : List (List String)}
    (hparts : ∀ part ∈ parts, part ≠ []) :
    sep.intercalate (parts.map sep.intercalate) = sep.intercalate parts.flatten := by
  induction parts with
  | nil => rfl
  | cons part parts ih =>
    rw [List.forall_mem_cons] at hparts
    rw [List.map_cons, List.flatten_cons]
    by_cases hnil : parts = []
    · subst hnil
      simp
    · have hflatten : parts.flatten ≠ [] := by
        obtain ⟨next, hnext⟩ := List.exists_mem_of_ne_nil parts hnil
        intro h
        exact hparts.2 next hnext (List.flatten_eq_nil_iff.mp h next hnext)
      rw [String.intercalate_cons_of_ne_nil (by simpa using hnil), ih hparts.2,
        String.intercalate_append_of_ne_nil hparts.1 hflatten]

theorem debug_lowercase (a : Action) (d : Direction) :
    toAsciiLowercase (a.debug ++ " " ++ d.debug) = " ".intercalate [a.name, d.name] := by
  cases a <;> cases d <;> decide

theorem proto_lowercase (p : Protocol) :
    toAsciiLowercase ("proto " ++ p.debug) = " ".intercalate ["proto", p.name] := by
  cases p <;> decide

/-- The words of each part. -/
def UserRule.partWords (r : UserRule) : List (List String) :=
  [r.action.name, r.direction.name] ::
    (r.keyed.map fun f => f.2.map fun v => f.1 ++ [v]).reduceOption

theorem ruleParts_eq (r : UserRule) : ruleParts r = r.partWords.map " ".intercalate := by
  have hport (v : String) : "src " ++ ("port " ++ v) = "src port " ++ v := by
    rw [← String.append_assoc]
    rfl
  rw [ruleParts, UserRule.partWords, List.map_cons, debug_lowercase, ← List.reduceOption_map]
  simp [UserRule.keyed, Option.map_map, Function.comp_def, String.intercalate_cons_cons,
    proto_lowercase, String.append_assoc, hport]

theorem UserRule.flatten_partWords (r : UserRule) : r.partWords.flatten = r.words := by
  have hfields (fields : List (List String × Option String)) :
      (fields.map fun f => f.2.map fun v => f.1 ++ [v]).reduceOption.flatten =
        fields.flatMap fieldWords := by
    induction fields with
    | nil => rfl
    | cons f fields ih =>
      obtain ⟨key, value⟩ := f
      cases value with
      | none =>
        rw [List.map_cons, Option.map_none, List.reduceOption_cons_of_none, ih]
        rfl
      | some v =>
        rw [List.map_cons, Option.map_some, List.reduceOption_cons_of_some, List.flatten_cons, ih]
        rfl
  rw [partWords, List.flatten_cons, hfields]
  rfl

/-- **A line is its words**, with blanks between them. -/
theorem renderRule_eq (r : UserRule) : renderRule r = " ".intercalate r.words := by
  rw [renderRule, ruleParts_eq, intercalate_parts, UserRule.flatten_partWords]
  intro part hpart
  rw [UserRule.partWords, List.mem_cons, List.reduceOption_mem_iff, List.mem_map] at hpart
  rcases hpart with rfl | ⟨f, -, hf⟩
  · simp
  · obtain ⟨v, -, rfl⟩ := Option.map_eq_some_iff.mp hf
    simp

/-! ### Different rules have different lines -/

theorem head_fieldWords {fields : List (List String × Option String)}
    (hkeys : ∀ f ∈ fields, f.1 ≠ []) {word : String}
    (h : (fields.flatMap fieldWords).head? = some word) :
    some word ∈ fields.map fun f => f.1.head? := by
  induction fields with
  | nil => cases h
  | cons f fields ih =>
    rw [List.forall_mem_cons] at hkeys
    rw [List.map_cons, List.mem_cons]
    rw [List.flatMap_cons, fieldWords] at h
    split at h
    · rw [List.append_assoc, List.head?_append_of_ne_nil _ hkeys.1] at h
      exact Or.inl h.symm
    · exact Or.inr (ih hkeys.2 h)

/-- Fields under the same keys, each with a first word of its own, are read off their
words. -/
theorem fields_eq_of_words {fields fields' : List (List String × Option String)}
    (hkeys : ∀ f ∈ fields, f.1 ≠ []) (hsame : fields.map Prod.fst = fields'.map Prod.fst)
    (hheads : (fields.map fun f => f.1.head?).Nodup)
    (h : fields.flatMap fieldWords = fields'.flatMap fieldWords) : fields = fields' := by
  induction fields generalizing fields' with
  | nil => exact (List.map_eq_nil_iff.mp hsame.symm).symm
  | cons f fields ih =>
    obtain ⟨key, value⟩ := f
    cases fields' with
    | nil => cases hsame
    | cons f' fields' =>
      obtain ⟨key', value'⟩ := f'
      rw [List.map_cons, List.map_cons, List.cons.injEq] at hsame
      obtain ⟨rfl, hsame⟩ := hsame
      rw [List.forall_mem_cons] at hkeys
      rw [List.map_cons, List.nodup_cons] at hheads
      rw [List.flatMap_cons, List.flatMap_cons] at h
      have hheads' : (fields'.map fun f => f.1.head?) = fields.map fun f => f.1.head? := by
        have := congrArg (List.map List.head?) hsame
        rw [List.map_map, List.map_map] at this
        exact this.symm
      have hkeys' : ∀ f ∈ fields', f.1 ≠ [] := by
        intro f hf
        have : f.1 ∈ fields.map Prod.fst := hsame ▸ List.mem_map_of_mem hf
        obtain ⟨f₀, hf₀, heq⟩ := List.mem_map.mp this
        exact heq ▸ hkeys.2 f₀ hf₀
      obtain ⟨word, key, rfl⟩ := List.exists_cons_of_ne_nil hkeys.1
      -- a word of the first key in front of the other fields would be a second key
      have hnot {v : String} {rest : List String} {fs : List (List String × Option String)}
          (hfs : ∀ f ∈ fs, f.1 ≠ [])
          (hsame : (fs.map fun f => f.1.head?) = fields.map fun f => f.1.head?)
          (heq : fs.flatMap fieldWords = (word :: key ++ [v]) ++ rest) : False := by
        have hmem : some word ∈ fs.map fun f => f.1.head? :=
          head_fieldWords hfs (by rw [heq]; rfl)
        exact hheads.1 (hsame ▸ hmem)
      cases value with
      | none =>
        cases value' with
        | none => rw [ih hkeys.2 hsame hheads.2 h]
        | some v => exact absurd h fun h => hnot hkeys.2 rfl h
      | some v =>
        cases value' with
        | none => exact absurd h.symm fun h => hnot hkeys' hheads' h
        | some v' =>
          simp only [fieldWords, List.append_assoc] at h
          have hrest := List.append_cancel_left h
          rw [List.singleton_append, List.singleton_append, List.cons.injEq] at hrest
          rw [hrest.1, ih hkeys.2 hsame hheads.2 hrest.2]

theorem UserRule.words_injective : Function.Injective UserRule.words := by
  intro r r' h
  rw [words, words, specWords, specWords, List.cons.injEq, List.cons.injEq] at h
  obtain ⟨haction, hdirection, hfields⟩ := h
  have hkeyed : r.keyed = r'.keyed :=
    fields_eq_of_words (by simp [keyed]) rfl (by simp [keyed]) hfields
  have hname : Function.Injective (Option.map Protocol.name) :=
    Option.map_injective Protocol.name_injective
  simp only [keyed, List.cons.injEq, Prod.mk.injEq, true_and, and_true, hname.eq_iff] at hkeyed
  obtain ⟨hiface, hsrc, hsrcPort, hdst, hdstPort, hproto⟩ := hkeyed
  cases r
  cases r'
  rw [UserRule.mk.injEq]
  exact ⟨Direction.name_injective hdirection, Action.name_injective haction, hiface, hproto, hsrc,
    hdst, hsrcPort, hdstPort⟩

theorem validIfaceName_no_blank {name : String} (h : validIfaceName name = true) :
    ' ' ∉ name.toList := by
  unfold validIfaceName at h
  rw [Bool.and_eq_true, Bool.not_eq_true', List.any_eq_false] at h
  intro hmem
  exact absurd (h.2 ' ' hmem) (by decide)

/-- No word of a line has a blank. -/
theorem UserRule.Wordy.no_blank {r : UserRule} (h : r.Wordy) :
    ∀ word ∈ r.words, ' ' ∉ word.toList := by
  have haction : ∀ a : Action, ' ' ∉ a.name.toList := by
    intro a
    cases a <;> decide
  have hdirection : ∀ d : Direction, ' ' ∉ d.name.toList := by
    intro d
    cases d <;> decide
  have hproto : ∀ p : Protocol, ' ' ∉ p.name.toList := by
    intro p
    cases p <;> decide
  have hfield {key : List String} {value : Option String} (hkey : ∀ word ∈ key, ' ' ∉ word.toList)
      (hvalue : ∀ v, value = some v → ' ' ∉ v.toList) :
      ∀ word ∈ fieldWords (key, value), ' ' ∉ word.toList := by
    intro word hword
    cases value with
    | none => cases hword
    | some v =>
      rcases List.mem_append.mp hword with hword | hword
      · exact hkey word hword
      · rw [List.mem_singleton.mp hword]
        exact hvalue v rfl
  intro word hword
  rw [words, specWords, List.mem_cons, List.mem_cons, List.mem_flatMap] at hword
  rcases hword with rfl | rfl | ⟨f, hf, hword⟩
  · exact haction _
  · exact hdirection _
  · simp only [keyed, List.mem_cons, List.not_mem_nil, or_false] at hf
    rcases hf with rfl | rfl | rfl | rfl | rfl | rfl
    · exact hfield (by decide) (fun v hv => validIfaceName_no_blank (h.iface v hv)) word hword
    · exact hfield (by decide) (fun v hv => (h.src v hv).1) word hword
    · exact hfield (by decide) h.srcPort word hword
    · exact hfield (by decide) (fun v hv => (h.dst v hv).1) word hword
    · exact hfield (by decide) h.dstPort word hword
    · refine hfield (by decide) (fun v hv => ?_) word hword
      obtain ⟨p, -, rfl⟩ := Option.map_eq_some_iff.mp hv
      exact hproto p

/-- **The words are read off the line.** -/
theorem UserRule.Wordy.splitOn {r : UserRule} (h : r.Wordy) :
    (renderRule r).toList.splitOn ' ' = r.words.map String.toList := by
  rw [renderRule_eq, String.toList_intercalate]
  refine List.splitOn_intercalate ' ' ?_ (by simp [words])
  intro chars hchars
  obtain ⟨word, hword, rfl⟩ := List.mem_map.mp hchars
  exact h.no_blank word hword

end Moatd

import Moatd.Common
import Moatd.Fallible
import Moatd.StdText

/-!
# Rule specs

`parser.rs`: the words behind `moatd allow` become rules, whose addresses and ports stay
text.  A single word may be a port, a port with a protocol, or the name of an app profile;
everything else goes by the full grammar.
-/

namespace Moatd

/-- A file of `applications.d`. -/
structure AppProfile where
  name : String
  /-- Ports and port ranges, separated by commas. -/
  ports : String
  proto : String
  deriving DecidableEq, Repr

/-- What reading a rule spec fails with. -/
inductive SpecError
  | empty
  | directionTwice
  | twice (keyword : String)
  | dstPortTwice
  | expected (value keyword : String)
  | unexpectedToken (tok : String)
  | unknownProtocol (name : String)
  | invalidIfaceName (name : String)
  | noPorts (profile : String)
  | app (text : String)
  deriving DecidableEq, Repr

/-- The message of the error. -/
def SpecError.text : SpecError → String
  | .empty => "empty rule spec"
  | .directionTwice => "direction specified more than once"
  | .twice keyword => s!"`{keyword}` specified more than once"
  | .dstPortTwice => "destination port specified more than once"
  | .expected value keyword => s!"expected {value} after `{keyword}`"
  | .unexpectedToken tok => s!"unexpected token `{tok}`"
  | .unknownProtocol name => s!"unknown protocol `{name}`"
  | .invalidIfaceName name => s!"invalid interface name `{name}`"
  | .noPorts profile => s!"app profile `{profile}` has no ports"
  | .app text => text

/-! ### Values -/

/-- `str::to_ascii_lowercase`. -/
def toAsciiLowercase (s : String) : String := String.ofList (s.toList.map Char.toLower)

/-- `parse_proto`. -/
def parseProto (s : String) : Except SpecError Protocol :=
  match toAsciiLowercase s with
  | "tcp" => .ok .tcp
  | "udp" => .ok .udp
  | "icmp" => .ok .icmp
  | "any" => .ok .any
  | other => .error (.unknownProtocol other)

/-- `validate_iface`. -/
def validateIface (name : String) : Except SpecError Unit :=
  if validIfaceName name then .ok () else .error (.invalidIfaceName name)

/-- `any` leaves the address as it is. -/
def addrText (cidr : String) (old : Option String) : Option String :=
  if cidr ≠ "any" then some cidr else old

/-- `set_dst_port`: a destination port may be given once. -/
def setDstPort (rule : UserRule) (port : String) : Except SpecError UserRule :=
  if rule.dstPort.isSome then .error .dstPortTwice else .ok { rule with dstPort := some port }

/-! ### The full grammar -/

/-- The rule so far, and which addresses have been seen. -/
structure SpecState where
  rule : UserRule
  fromSeen : Bool := false
  toSeen : Bool := false
  deriving DecidableEq, Repr

/-- The words for a direction. -/
def directionWord : String → Option Direction
  | "in" => some .inbound
  | "out" => some .outbound
  | _ => none

/-- The first loop of `parse_full_grammar`: the direction that has been set, and the words
behind it. -/
def parseDirection : Option Direction → List String →
    Except SpecError (Option Direction × List String)
  | set, [] => .ok (set, [])
  | set, tok :: tokens =>
    match directionWord tok with
    | none => .ok (set, tok :: tokens)
    | some dir => if set.isSome then .error .directionTwice else parseDirection (some dir) tokens

/-- The second loop. -/
def parseClauses (st : SpecState) : List String → Except SpecError UserRule
  | [] => .ok st.rule
  | tok :: tokens =>
    match tok with
    | "on" =>
      if st.rule.iface.isSome then .error (.twice "on")
      else
        match tokens with
        | [] => .error (.expected "interface" "on")
        | iface :: tokens => do
          validateIface iface
          parseClauses { st with rule := { st.rule with iface := some iface } } tokens
    | "from" =>
      if st.fromSeen then .error (.twice "from")
      else
        match tokens with
        | [] => .error (.expected "address" "from")
        | cidr :: tokens =>
          let rule := { st.rule with src := addrText cidr st.rule.src }
          match tokens with
          | "port" :: tokens =>
            match tokens with
            | [] => .error (.expected "port" "port")
            | p :: tokens =>
              parseClauses { st with rule := { rule with srcPort := some p }, fromSeen := true }
                tokens
          | tokens => parseClauses { st with rule, fromSeen := true } tokens
    | "to" =>
      if st.toSeen then .error (.twice "to")
      else
        match tokens with
        | [] => .error (.expected "address" "to")
        | cidr :: tokens =>
          let rule := { st.rule with dst := addrText cidr st.rule.dst }
          match tokens with
          | "port" :: tokens =>
            match tokens with
            | [] => .error (.expected "port" "port")
            | p :: tokens => do
              let rule ← setDstPort rule p
              parseClauses { st with rule, toSeen := true } tokens
          | tokens => parseClauses { st with rule, toSeen := true } tokens
    | "port" =>
      match tokens with
      | [] => .error (.expected "port" "port")
      | p :: tokens => do
        let rule ← setDstPort st.rule p
        parseClauses { st with rule } tokens
    | "proto" =>
      if st.rule.proto.isSome then .error (.twice "proto")
      else
        match tokens with
        | [] => .error (.expected "protocol" "proto")
        | p :: tokens => do
          let proto ← parseProto p
          parseClauses { st with rule := { st.rule with proto := some proto } } tokens
    | other => .error (.unexpectedToken other)

/-- `parse_full_grammar`. -/
def parseFullGrammar (action : Action) (tokens : List String) : Except SpecError UserRule := do
  let (dir, tokens) ← parseDirection none tokens
  parseClauses { rule := { direction := dir.getD .inbound, action } } tokens

/-! ### Shorthands and app profiles -/

/-- `rule_with_port`: an inbound rule for this port. -/
def ruleWithPort (action : Action) (port : String) (proto : Option Protocol) : UserRule where
  direction := .inbound
  action
  proto
  dstPort := some port

/-- The ports of a profile, without the blanks around them. -/
def AppProfile.portTexts (profile : AppProfile) : List String :=
  ((profile.ports.toList.splitOn ',').map fun p => String.ofList (trim p)).filter (· ≠ "")

/-- The protocol that the rules of the profile carry. -/
def AppProfile.protocol (profile : AppProfile) : Except SpecError (Option Protocol) :=
  match profile.proto with
  | "" | "any" => .ok none
  | other => (parseProto other).map some

/-- `expand_profile`: one rule for each port. -/
def expandProfile (action : Action) (profile : AppProfile) : Except SpecError (List UserRule) := do
  let proto ← profile.protocol
  if profile.portTexts = [] then .error (.noPorts profile.name)
  else .ok (profile.portTexts.map fun port => ruleWithPort action port proto)

section Load
variable (load : String → Except String (Option AppProfile))

/-- `parse_shorthand`: a port, a port and a protocol, or the name of a profile. -/
def parseShorthand (tok : String) (action : Action) : Except SpecError (Option (List UserRule)) :=
  if (parseU16 tok.toList).isOk then .ok (some [ruleWithPort action tok none])
  else
    match splitOnce '/' tok.toList with
    | some (port, proto) =>
      if (parseU16 port).isOk then do
        let proto ← parseProto (String.ofList proto)
        .ok (some [ruleWithPort action (String.ofList port) (some proto)])
      else loadProfile
    | none => loadProfile
where
  loadProfile := do
    match ← (load tok).mapError SpecError.app with
    | some profile => (expandProfile action profile).map some
    | none => .ok none

/-- `load` is `apps::load`. -/
def parseRuleSpec (action : Action) (tokens : List String) : Except SpecError (List UserRule) :=
  match tokens with
  | [] => .error .empty
  | [tok] => do
    match ← parseShorthand load tok action with
    | some rules => .ok rules
    | none => return [← parseFullGrammar action [tok]]
  | tokens => return [← parseFullGrammar action tokens]

end Load

end Moatd

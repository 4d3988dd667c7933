import Mathlib.Data.List.Nodup
import Moatd.Daemon
import Moatd.Fallible
import Moatd.JsonText

/-!
# The control socket

`moatd.rs`: a request and its answer travel as one frame each, a length of four bytes and as
many bytes of JSON.  `read_frame` and `call` refuse a frame of more than a megabyte, while
`write_frame` and `call` write whatever has a length.  JSON is a third-party format; what it is
for a rule list is written out here (`rulesText`), as the derived serialisers make it.
-/

namespace Moatd

open JsonText

/-! ### Frames -/

/-- `MAX_FRAME_BYTES`. -/
def maxFrameBytes : Nat := 1048576

/-- What reading or writing a frame fails with. -/
inductive FrameError
  | eof
  | frameTooLarge (len : Nat)
  | responseTooLarge (len : Nat)
  | payloadExceedsU32
  | requestTooLarge
  deriving DecidableEq, Repr

/-- The text of the error; that of an early end of the stream is the library's. -/
def FrameError.text : FrameError → String
  | .eof => ""
  | .frameTooLarge len => "frame too large: " ++ toString len ++ " bytes"
  | .responseTooLarge len => "response too large: " ++ toString len ++ " bytes"
  | .payloadExceedsU32 => "payload exceeds u32"
  | .requestTooLarge => "request too large"

/-- `u32::to_be_bytes`. -/
def toBeBytes (n : Nat) : List UInt8 :=
  [UInt8.ofNat (n / 16777216), UInt8.ofNat (n / 65536), UInt8.ofNat (n / 256), UInt8.ofNat n]

/-- `u32::from_be_bytes`. -/
def fromBeBytes (bytes : List UInt8) : Nat := bytes.foldl (fun n b => 256 * n + b.toNat) 0

/-- The next `n` bytes of the stream, with what is behind them. -/
def readExact (n : Nat) (input : List UInt8) : Except FrameError (List UInt8 × List UInt8) :=
  if n ≤ input.length then .ok (input.take n, input.drop n) else .error .eof

/-- A length, and as many bytes; too great a length is an error. -/
def readLimited (tooLarge : Nat → FrameError) (input : List UInt8) :
    Except FrameError (List UInt8) := do
  let (lenBuf, input) ← readExact 4 input
  if maxFrameBytes < fromBeBytes lenBuf then throw (tooLarge (fromBeBytes lenBuf))
  let (buf, _) ← readExact (fromBeBytes lenBuf) input
  return buf

/-- `read_frame` of the daemon. -/
def readFrame (input : List UInt8) : Except FrameError (List UInt8) :=
  readLimited .frameTooLarge input

/-- How `call` reads the answer. -/
def readResponse (input : List UInt8) : Except FrameError (List UInt8) :=
  readLimited .responseTooLarge input

/-- A payload behind its length, which takes four bytes. -/
def frame (payload : List UInt8) : List UInt8 := toBeBytes payload.length ++ payload

/-- The frame; only a length that does not fit in four bytes is an error. -/
def writeLimited (tooLarge : FrameError) (payload : List UInt8) :
    Except FrameError (List UInt8) :=
  if payload.length ≤ 4294967295 then .ok (frame payload) else .error tooLarge

/-- `write_frame` of the daemon. -/
def writeFrame (payload : List UInt8) : Except FrameError (List UInt8) :=
  writeLimited .payloadExceedsU32 payload

/-- How `call` writes the request. -/
def writeRequest (payload : List UInt8) : Except FrameError (List UInt8) :=
  writeLimited .requestTooLarge payload

theorem fromBeBytes_toBeBytes {n : Nat} (h : n ≤ 4294967295) : fromBeBytes (toBeBytes n) = n := by
  simp only [fromBeBytes, toBeBytes, List.foldl_cons, List.foldl_nil, UInt8.toNat_ofNat']
  omega

theorem readExact_append (pre rest : List UInt8) :
    readExact pre.length (pre ++ rest) = .ok (pre, rest) := by
  rw [readExact, if_pos (by rw [List.length_append]; omega), List.take_left, List.drop_left]

/-- Behind a length stands a payload of that length: it is read as it is unless it is too long. -/
theorem readLimited_frame {tooLarge : Nat → FrameError} {payload : List UInt8}
    (h : payload.length ≤ 4294967295) :
    readLimited tooLarge (frame payload) =
      if maxFrameBytes < payload.length then .error (tooLarge payload.length)
      else .ok payload := by
  have hlen : readExact 4 (frame payload) = .ok (toBeBytes payload.length, payload) :=
    readExact_append (toBeBytes payload.length) payload
  have hpayload : readExact payload.length payload = .ok (payload, []) := by
    simpa only [List.append_nil] using readExact_append payload []
  rw [readLimited, hlen]
  show (if maxFrameBytes < fromBeBytes (toBeBytes payload.length) then _ else _) = _
  rw [fromBeBytes_toBeBytes h]
  by_cases hlong : maxFrameBytes < payload.length
  · rw [if_pos hlong, if_pos hlong]
    rfl
  · rw [if_neg hlong, if_neg hlong, hpayload]
    rfl

/-! ### JSON -/

/-- `serde_json`, at the types the socket uses it for. -/
structure Json where
  requestToVec : Request → Except String (List UInt8)
  requestFromSlice : List UInt8 → Except String Request
  responseToVec : Response → Except String (List UInt8)
  responseFromSlice : List UInt8 → Except String Response

/-- The direction as JSON and TOML spell it. -/
def Direction.name : Direction → String
  | .inbound => "in"
  | .outbound => "out"

/-- The action as JSON and TOML spell it. -/
def Action.name : Action → String
  | .allow => "allow"
  | .deny => "deny"
  | .reject => "reject"

/-- The protocol as JSON and TOML spell it. -/
def Protocol.name : Protocol → String
  | .tcp => "tcp"
  | .udp => "udp"
  | .icmp => "icmp"
  | .any => "any"

/-- The fields of a rule under their keys; those that are `None` are skipped. -/
def UserRule.fields (r : UserRule) : List (List Char × Option (List Char)) :=
  [("direction", some r.direction.name), ("action", some r.action.name), ("iface", r.iface),
    ("proto", r.proto.map Protocol.name), ("src", r.src), ("dst", r.dst),
    ("src_port", r.srcPort), ("dst_port", r.dstPort)].map
    fun f => (f.1.toList, f.2.map String.toList)

/-- The rule as a JSON record. -/
def UserRule.text (r : UserRule) : List Char := record r.fields

/-- `Response::Rules`. -/
def rulesText (rules : List UserRule) : List Char :=
  variant "Rules".toList (array UserRule.text rules)

/-- `Request::ListRules`. -/
def listRulesText : List Char := string "ListRules".toList

theorem Direction.name_injective : Function.Injective Direction.name := by
  rintro (_ | _) (_ | _) h <;> first | rfl | exact absurd h (by decide)

theorem Action.name_injective : Function.Injective Action.name := by
  rintro (_ | _ | _) (_ | _ | _) h <;> first | rfl | exact absurd h (by decide)

theorem Protocol.name_injective : Function.Injective Protocol.name := by
  rintro (_ | _ | _ | _) (_ | _ | _ | _) h <;> first | rfl | exact absurd h (by decide)

theorem toList_injective : Function.Injective String.toList :=
  fun _ _ h => String.toList_inj.mp h

/-- The keys are the same for all rules, and no two are equal. -/
theorem UserRule.keys_nodup (r : UserRule) : (r.fields.map Prod.fst).Nodup := by
  have hkeys : ["direction", "action", "iface", "proto", "src", "dst", "src_port",
    "dst_port"].Nodup := by decide
  have hchars := List.Nodup.map toList_injective hkeys
  simpa only [fields, List.map_cons, List.map_nil] using hchars

theorem UserRule.fields_injective : Function.Injective UserRule.fields := by
  intro r r' h
  have htoList : Function.Injective (Option.map String.toList) :=
    Option.map_injective toList_injective
  have hname : Function.Injective (Option.map Protocol.name) :=
    Option.map_injective Protocol.name_injective
  simp only [fields, List.map_cons, List.map_nil, List.cons.injEq, Prod.mk.injEq, true_and,
    and_true, htoList.eq_iff, hname.eq_iff, Option.some.injEq, Direction.name_injective.eq_iff,
    Action.name_injective.eq_iff] at h
  obtain ⟨hdirection, haction, hiface, hproto, hsrc, hdst, hsrcPort, hdstPort⟩ := h
  cases r
  cases r'
  simp only [UserRule.mk.injEq]
  exact ⟨hdirection, haction, hiface, hproto, hsrc, hdst, hsrcPort, hdstPort⟩

theorem UserRule.text_prefixFree : PrefixFree UserRule.text := by
  intro r r' rest rest' h
  rw [UserRule.text, UserRule.text, record, record] at h
  -- all rules have the same keys, so the fields that are there tell the others
  obtain ⟨hpresent, hrest⟩ := object_prefixFree _ _ _ _ h
  exact ⟨fields_injective (fields_of_present rfl r.keys_nodup hpresent), hrest⟩

/-- A rule list is known from its text. -/
theorem rulesText_prefixFree : PrefixFree rulesText :=
  (UserRule.text_prefixFree.array (record_avoids (by decide))).variant "Rules".toList

/-- What the daemon and the command rely on: what was written is read back, and requests and
rule lists have the texts above. -/
structure Json.Documented (json : Json) : Prop where
  request_roundTrips : ∀ req bytes, json.requestToVec req = .ok bytes →
    json.requestFromSlice bytes = .ok req
  rules_roundTrip : ∀ rules bytes, json.responseToVec (.rules rules) = .ok bytes →
    json.responseFromSlice bytes = .ok (.rules rules)
  listRules : json.requestToVec .listRules = .ok (bytes listRulesText)
  rules : ∀ rules, json.responseToVec (.rules rules) = .ok (bytes (rulesText rules))

/-! ### The two ends -/

/-- What ends a read or a write before it is done: five seconds are over, or the system call
fails, as where the client has hung up. -/
inductive Break
  | timeout
  | io (text : String)
  deriving DecidableEq, Repr

/-- What a client of the daemon sends until it ends the stream, and what breaks off the read of
its request or the write of its answer. -/
structure Client where
  input : List UInt8
  readBreak : Option Break := none
  writeBreak : Option Break := none

/-- How `serve_client` fails. -/
inductive ClientError
  | readTimedOut
  | frame (error : FrameError)
  | decodingRequest (text : String)
  | encoding (text : String)
  | writeTimedOut
  | io (text : String)
  deriving DecidableEq, Repr

/-- The text that is logged. -/
def ClientError.text : ClientError → String
  | .readTimedOut => "client read timed out"
  | .frame e => e.text
  | .decodingRequest e => "decoding request: " ++ e
  | .encoding e => e
  | .writeTimedOut => "client write timed out"
  | .io e => e

/-- The error of a read that was broken off. -/
def Break.readError : Break → ClientError
  | .timeout => .readTimedOut
  | .io e => .io e

/-- The error of a write that was broken off. -/
def Break.writeError : Break → ClientError
  | .timeout => .writeTimedOut
  | .io e => .io e

variable (json : Json) (toml : Toml)

/-- `serve_client`: the answer that is written, and the state the request leaves. -/
def serveClient (env : Env) (s : DaemonState) (client : Client) :
    Except ClientError (List UInt8) × DaemonState :=
  match client.readBreak with
  | some b => (.error b.readError, s)
  | none =>
    match readFrame client.input with
    | .error e => (.error (.frame e), s)
    | .ok req =>
      match json.requestFromSlice req with
      | .error e => (.error (.decodingRequest e), s)
      | .ok req =>
        let (resp, s) := dispatch toml env s req
        match json.responseToVec resp with
        | .error e => (.error (.encoding e), s)
        | .ok respBytes =>
          match writeFrame respBytes with
          | .error e => (.error (.frame e), s)
          | .ok answer =>
            match client.writeBreak with
            | some b => (.error b.writeError, s)
            | none => (.ok answer, s)

section Served
variable {json toml} {env : Env} {s : DaemonState} {client : Client} {payload : List UInt8}
  {req : Request}

/-- A request that is read is served, whatever becomes of the answer. -/
theorem serveClient_snd (htime : client.readBreak = none)
    (hread : readFrame client.input = .ok payload)
    (hdecode : json.requestFromSlice payload = .ok req) :
    (serveClient json toml env s client).2 = (dispatch toml env s req).2 := by
  rw [serveClient, htime]
  dsimp only
  rw [hread]
  dsimp only
  rw [hdecode]
  dsimp only
  split
  · rfl
  · split
    · rfl
    · split <;> rfl

/-- The answer is written in a frame, where neither side is broken off. -/
theorem serveClient_fst (hread : readFrame client.input = .ok payload)
    (hdecode : json.requestFromSlice payload = .ok req) {answer : List UInt8}
    (hencode : json.responseToVec (dispatch toml env s req).1 = .ok answer)
    (htime : client.readBreak = none) (htime' : client.writeBreak = none) :
    (serveClient json toml env s client).1 = (writeFrame answer).mapError .frame := by
  rw [serveClient, htime]
  dsimp only
  rw [hread]
  dsimp only
  rw [hdecode]
  dsimp only
  rw [hencode]
  dsimp only
  cases writeFrame answer with
  | error e => rfl
  | ok frame =>
    dsimp only
    rw [htime']
    rfl

end Served

/-- What `call` fails with. -/
inductive CallError
  /-- Connecting, writing or waiting failed. -/
  | io (text : String)
  | frame (error : FrameError)
  | encoding (text : String)
  | decodingResponse (text : String)
  deriving DecidableEq, Repr

/-- What the command line prints of it. -/
def CallError.text : CallError → String
  | .io e => e
  | .frame e => e.text
  | .encoding e => e
  | .decodingResponse e => "decoding response: " ++ e

/-- `call`; `exchange` is what comes back on the connection for what is written to it. -/
def call (exchange : List UInt8 → Except String (List UInt8)) (req : Request) :
    Except CallError Response := do
  let payload ← (json.requestToVec req).mapError .encoding
  let request ← (writeRequest payload).mapError .frame
  let answer ← (exchange request).mapError .io
  let buf ← (readResponse answer).mapError .frame
  (json.responseFromSlice buf).mapError .decodingResponse

/-- The connection to the daemon: after an error it is closed without an answer. -/
def daemonAnswers (env : Env) (s : DaemonState) (request : List UInt8) :
    Except String (List UInt8) :=
  match (serveClient json toml env s { input := request }).1 with
  | .ok answer => .ok answer
  | .error _ => .ok []

end Moatd

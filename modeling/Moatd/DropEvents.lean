import Moatd.DataPath
import Moatd.LogLimiter

/-!
# Reporting drops

The data path with its reports: `emit_drop` takes a token of its processor's bucket and
submits a record to the ring buffer `EVENTS`.  The ring buffer may be full and refuse, so
whether it has room is an argument, as the processor and the clock are.  A record is the
image of a `DropEvent` in memory, numbers in the byte order of the machine, which here is
little-endian; data path and daemon run on the same one.

Reporting leaves the verdicts and the other maps alone (`ingressReporting_fst`,
`egressReporting_fst`), and a packet is reported exactly if the rules drop it.
-/

namespace Moatd

open Bytes

/-! ### The record -/

/-- What is reported about a dropped packet. -/
structure DropEvent where
  tsNs : UInt64
  ifindex : UInt32
  ruleId : UInt32
  src : Addr
  dst : Addr
  srcPort : UInt16
  dstPort : UInt16
  proto : UInt8
  family : UInt8
  tcpFlags : UInt8
  deriving DecidableEq, Repr

/-- `size_of::<DropEvent>()`. -/
def dropEventSize : Nat := 56

/-- The image of the event; the last byte is padding. -/
def DropEvent.bytes (e : DropEvent) : List UInt8 :=
  leBytes 8 e.tsNs.toNat ++ (leBytes 4 e.ifindex.toNat ++ (leBytes 4 e.ruleId.toNat ++
    (e.src.toList ++ (e.dst.toList ++ (leBytes 2 e.srcPort.toNat ++ (leBytes 2 e.dstPort.toNat ++
      ([e.proto] ++ ([e.family] ++ ([e.tcpFlags] ++ [0])))))))))

/-- `bytemuck::pod_read_unaligned` at `DropEvent`. -/
def DropEvent.read (bytes : List UInt8) : DropEvent where
  tsNs := UInt64.ofNat (ofLeBytes (field 0 8 bytes))
  ifindex := UInt32.ofNat (ofLeBytes (field 8 4 bytes))
  ruleId := UInt32.ofNat (ofLeBytes (field 12 4 bytes))
  src := Addr.ofList (field 16 16 bytes)
  dst := Addr.ofList (field 32 16 bytes)
  srcPort := UInt16.ofNat (ofLeBytes (field 48 2 bytes))
  dstPort := UInt16.ofNat (ofLeBytes (field 50 2 bytes))
  proto := (field 52 1 bytes).headD 0
  family := (field 53 1 bytes).headD 0
  tcpFlags := (field 54 1 bytes).headD 0

theorem DropEvent.length_bytes (e : DropEvent) : e.bytes.length = dropEventSize := by
  simp [DropEvent.bytes, dropEventSize]

theorem Addr.ofList_toList (a : Addr) : Addr.ofList a.toList = a := by
  ext i hi
  simp [Addr.ofList, List.getD_eq_getElem?_getD]

/-- **A record is read back.** -/
theorem DropEvent.read_bytes (e : DropEvent) : DropEvent.read e.bytes = e := by
  obtain ⟨tsNs, ifindex, ruleId, src, dst, srcPort, dstPort, proto, family, tcpFlags⟩ := e
  simp only [DropEvent.read, DropEvent.bytes, List.cons_append, List.nil_append, length_leBytes,
    field_zero_append, field_append, ofLeBytes_leBytes, Nat.reducePow, Nat.reduceLeDiff,
    Nat.reduceSub, Nat.le_refl, Nat.sub_self, Vector.length_toList, UInt64.toNat_mod_size,
    UInt64.ofNat_toNat, UInt32.toNat_mod_size, UInt32.ofNat_toNat, UInt16.toNat_mod_size,
    UInt16.ofNat_toNat, Addr.ofList_toList, DropEvent.mk.injEq, true_and]
  exact ⟨rfl, rfl, rfl⟩

/-! ### `emit_drop` -/

/-- What a report meets: its processor, the clock it reads, and whether the ring buffer
has room. -/
structure LogCall where
  cpu : Nat
  now : UInt64
  reserveOk : Bool

/-- The maps that only reports use: `LOG_TOKENS`, with a slot for each processor, and
`EVENTS`, oldest record first. -/
structure LogMaps where
  tokens : Nat → LogTokens
  events : List (List UInt8)

/-- As the kernel makes them. -/
def LogMaps.zeroed : LogMaps := ⟨fun _ => ⟨0, 0⟩, []⟩

/-- `logging_enabled`: the flag of `CONFIG`. -/
def Maps.loggingEnabled (maps : Maps) : Bool := decide (maps.config.loggingEnabled ≠ 0)

/-- The event `emit_drop` writes. -/
def dropEvent (now : UInt64) (ifindex : UInt32) (p : Parsed) (ruleId : Nat) : DropEvent where
  tsNs := now
  ifindex
  ruleId := UInt32.ofNat ruleId
  src := p.srcAddr
  dst := p.dstAddr
  srcPort := p.srcPort
  dstPort := p.dstPort
  proto := p.protoByte
  family := p.family
  tcpFlags := 0

/-- `emit_drop`, with the maps it leaves. -/
def LogMaps.emitDrop (log : LogMaps) (maps : Maps) (call : LogCall) (ifindex : UInt32)
    (p : Parsed) (ruleId : Nat) : LogMaps :=
  if maps.loggingEnabled = false then log
  else
    let (granted, bucket) := tryTakeToken (log.tokens call.cpu) call.now
    let log := { log with tokens := fun c => if c = call.cpu then bucket else log.tokens c }
    if granted = false then log
    else if call.reserveOk = false then log
    else { log with events := log.events ++ [(dropEvent call.now ifindex p ruleId).bytes] }

/-! ### The programs, with their reports -/

/-- `try_ingress`. -/
def ingressReporting (s : DataPath) (log : LogMaps) (call : LogCall) (now : Nat)
    (ifindex : UInt32) (packet : List UInt8) : Except Unit XdpAction × LogMaps :=
  match parsePacket packet (s.l2OffFor ifindex) with
  | .error () => (.error (), log)
  | .ok none => (.ok .pass, log)
  | .ok (some parsed) =>
    if isNdp parsed then (.ok .pass, log)
    else if s.admitsReply now parsed then (.ok .pass, log)
    else
      let (chosen, ruleId) := walkRules s.maps dirIn ifindex parsed
      if chosen = actAllow then (.ok .pass, log)
      else (.ok .drop, log.emitDrop s.maps call ifindex parsed ruleId)

/-- The end of `try_egress`. -/
def DataPath.admitFlowReporting (s : DataPath) (log : LogMaps) (call : LogCall) (now : Nat)
    (ifindex : UInt32) (parsed : Parsed) (insertOk : Bool) : (TcAction × DataPath) × LogMaps :=
  let (chosen, ruleId) := walkRules s.maps dirOut ifindex parsed
  if chosen ≠ actAllow then ((.shot, s), log.emitDrop s.maps call ifindex parsed ruleId)
  else ((.pipe, s.insert insertOk (forwardKey parsed) now), log)

/-- `try_egress` with conntrack enabled. -/
def DataPath.trackFlowReporting (s : DataPath) (log : LogMaps) (call : LogCall) (now : Nat)
    (ifindex : UInt32) (parsed : Parsed) (insertOk : Bool) : (TcAction × DataPath) × LogMaps :=
  match s.conntrack (forwardKey parsed) with
  | some v =>
    let age := now - v.lastSeenNs
    if age < conntrackTtlNs then
      if conntrackRefreshNs ≤ age then
        ((.pipe, s.insert insertOk (forwardKey parsed) now), log)
      else ((.pipe, s), log)
    else s.admitFlowReporting log call now ifindex parsed insertOk
  | none => s.admitFlowReporting log call now ifindex parsed insertOk

/-- `try_egress`. -/
def egressReporting (s : DataPath) (log : LogMaps) (call : LogCall) (now : Nat)
    (ifindex : UInt32) (packet : List UInt8) (insertOk : Bool) :
    (Except Unit TcAction × DataPath) × LogMaps :=
  match parsePacket packet (s.l2OffFor ifindex) with
  | .error () => ((.error (), s), log)
  | .ok none => ((.ok .pipe, s), log)
  | .ok (some parsed) =>
    if isNdp parsed then ((.ok .pipe, s), log)
    else if s.maps.conntrackEnabled = false then
      let (chosen, ruleId) := walkRules s.maps dirOut ifindex parsed
      if chosen ≠ actAllow then ((.ok .shot, s), log.emitDrop s.maps call ifindex parsed ruleId)
      else ((.ok .pipe, s), log)
    else
      let ((action, s'), log) := s.trackFlowReporting log call now ifindex parsed insertOk
      ((.ok action, s'), log)

/-! ### What a report does -/

/-- Whether `emit_drop` submits a record. -/
def LogMaps.submits (log : LogMaps) (maps : Maps) (call : LogCall) : Bool :=
  maps.loggingEnabled && (tryTakeToken (log.tokens call.cpu) call.now).1 && call.reserveOk

section EmitDrop
variable (log : LogMaps) (maps : Maps) (call : LogCall) (ifindex : UInt32) (p : Parsed)
  (ruleId : Nat)

theorem LogMaps.emitDrop_events :
    (log.emitDrop maps call ifindex p ruleId).events =
      log.events ++ if log.submits maps call then [(dropEvent call.now ifindex p ruleId).bytes]
        else [] := by
  unfold LogMaps.emitDrop LogMaps.submits
  by_cases hlogging : maps.loggingEnabled = false
  · simp [hlogging]
  · rw [if_neg hlogging]
    rw [Bool.not_eq_false] at hlogging
    by_cases hgranted : (tryTakeToken (log.tokens call.cpu) call.now).1 = false
    · simp [hlogging, hgranted]
    · rw [Bool.not_eq_false] at hgranted
      by_cases hreserve : call.reserveOk = false
      · simp [hlogging, hgranted, hreserve]
      · rw [Bool.not_eq_false] at hreserve
        simp [hlogging, hgranted, hreserve]

/-- A report touches the bucket of its processor, if logging is on. -/
theorem LogMaps.emitDrop_tokens (cpu : Nat) :
    (log.emitDrop maps call ifindex p ruleId).tokens cpu =
      if maps.loggingEnabled = true ∧ cpu = call.cpu then
        (tryTakeToken (log.tokens call.cpu) call.now).2
      else log.tokens cpu := by
  unfold LogMaps.emitDrop
  by_cases hlogging : maps.loggingEnabled = false
  · simp [hlogging]
  · rw [if_neg hlogging]
    rw [Bool.not_eq_false] at hlogging
    by_cases hgranted : (tryTakeToken (log.tokens call.cpu) call.now).1 = false
    · simp [hlogging, hgranted]
    · rw [Bool.not_eq_false] at hgranted
      by_cases hreserve : call.reserveOk = false
      · simp [hlogging, hgranted, hreserve]
      · simp [hlogging, hgranted, hreserve]

end EmitDrop

/-! ### Which packets are reported -/

/-- The rules, or the default, drop the packet under this number. -/
structure DataPath.Drops (s : DataPath) (direction : UInt8) (ifindex : UInt32)
    (packet : List UInt8) (p : Parsed) (ruleId : Nat) : Prop where
  parsed : parsePacket packet (s.l2OffFor ifindex) = .ok (some p)
  notNdp : isNdp p = false
  denied : (walkRules s.maps direction ifindex p).1 ≠ actAllow
  number : (walkRules s.maps direction ifindex p).2 = ruleId

/-- What becomes of the report maps: `dropped` says that the packet meets its end by the
rules. -/
inductive Reported (s : DataPath) (log : LogMaps) (call : LogCall) (direction : UInt8)
    (ifindex : UInt32) (packet : List UInt8) (dropped : Prop) : LogMaps → Prop
  | silent (h : ¬ dropped) : Reported s log call direction ifindex packet dropped log
  | report (p : Parsed) (ruleId : Nat) (h : dropped)
      (hdrops : s.Drops direction ifindex packet p ruleId) :
      Reported s log call direction ifindex packet dropped
        (log.emitDrop s.maps call ifindex p ruleId)

section Programs
variable (s : DataPath) (log : LogMaps) (call : LogCall) (now : Nat) (ifindex : UInt32)
  (packet : List UInt8) (insertOk : Bool)

/-- Reporting does not change what ingress does. -/
theorem ingressReporting_fst :
    (ingressReporting s log call now ifindex packet).1 = tryIngress s now ifindex packet := by
  unfold ingressReporting tryIngress
  rcases parsePacket packet (s.l2OffFor ifindex) with e | _ | p
  · rfl
  · rfl
  · dsimp only
    split_ifs <;> rfl

theorem DataPath.admitFlowReporting_fst (p : Parsed) :
    (s.admitFlowReporting log call now ifindex p insertOk).1 =
      s.admitFlow now ifindex p insertOk := by
  unfold DataPath.admitFlowReporting DataPath.admitFlow
  by_cases hwalk : (walkRules s.maps dirOut ifindex p).1 = actAllow <;> simp [hwalk]

theorem DataPath.trackFlowReporting_fst (p : Parsed) :
    (s.trackFlowReporting log call now ifindex p insertOk).1 =
      s.trackFlow now ifindex p insertOk := by
  have hadmit := s.admitFlowReporting_fst log call now ifindex insertOk p
  unfold DataPath.trackFlowReporting DataPath.trackFlow
  rcases s.conntrack (forwardKey p) with _ | v
  · exact hadmit
  · dsimp only
    split_ifs
    · rfl
    · rfl
    · exact hadmit

/-- Reporting does not change what egress does, nor the maps it leaves. -/
theorem egressReporting_fst :
    (egressReporting s log call now ifindex packet insertOk).1 =
      tryEgress s now ifindex packet insertOk := by
  unfold egressReporting tryEgress
  rcases parsePacket packet (s.l2OffFor ifindex) with e | _ | p
  · rfl
  · rfl
  · by_cases hndp : isNdp p = true
    · simp [hndp]
    · by_cases hoff : s.maps.conntrackEnabled = false
      · by_cases hwalk : (walkRules s.maps dirOut ifindex p).1 = actAllow <;>
          simp [hndp, hoff, hwalk]
      · have htrack := s.trackFlowReporting_fst log call now ifindex insertOk p
        simp [hndp, hoff, htrack]

/-- **Ingress reports the packets that it drops by the rules**, and no others. -/
theorem ingressReporting_cases :
    Reported s log call dirIn ifindex packet (tryIngress s now ifindex packet = .ok .drop)
      (ingressReporting s log call now ifindex packet).2 := by
  unfold ingressReporting tryIngress
  rcases hparse : parsePacket packet (s.l2OffFor ifindex) with e | _ | p
  · exact .silent (by simp)
  · exact .silent (by simp)
  · by_cases hndp : isNdp p = true
    · simp only [hndp, if_true]
      exact .silent (by simp)
    · by_cases hadmits : s.admitsReply now p = true
      · simp only [hndp, hadmits, if_true]
        exact .silent (by simp)
      · by_cases hwalk : (walkRules s.maps dirIn ifindex p).1 = actAllow
        · simp only [hndp, hadmits, hwalk, if_true]
          exact .silent (by simp)
        · simp only [hndp, hadmits, hwalk, if_false]
          exact .report p _ (by simp) ⟨hparse, Bool.eq_false_iff.mpr hndp, hwalk, rfl⟩

/-- The end of `try_egress` reports what it drops. -/
theorem DataPath.admitFlowReporting_cases {p : Parsed}
    (hparse : parsePacket packet (s.l2OffFor ifindex) = .ok (some p)) (hndp : isNdp p = false) :
    Reported s log call dirOut ifindex packet
      ((s.admitFlowReporting log call now ifindex p insertOk).1.1 = .shot)
      (s.admitFlowReporting log call now ifindex p insertOk).2 := by
  unfold DataPath.admitFlowReporting
  by_cases hwalk : (walkRules s.maps dirOut ifindex p).1 = actAllow
  · simp only [hwalk, ne_eq, not_true, if_false]
    exact .silent (by simp)
  · simp only [hwalk, ne_eq, not_false_eq_true, if_true]
    exact .report p _ trivial ⟨hparse, hndp, hwalk, rfl⟩

theorem DataPath.trackFlowReporting_cases {p : Parsed}
    (hparse : parsePacket packet (s.l2OffFor ifindex) = .ok (some p)) (hndp : isNdp p = false) :
    Reported s log call dirOut ifindex packet
      ((s.trackFlowReporting log call now ifindex p insertOk).1.1 = .shot)
      (s.trackFlowReporting log call now ifindex p insertOk).2 := by
  have hadmit := s.admitFlowReporting_cases log call now ifindex packet insertOk hparse hndp
  unfold DataPath.trackFlowReporting
  rcases s.conntrack (forwardKey p) with _ | v
  · exact hadmit
  · dsimp only
    split_ifs
    · exact .silent (by simp)
    · exact .silent (by simp)
    · exact hadmit

/-- **Egress reports the packets that it drops by the rules**, and no others. -/
theorem egressReporting_cases :
    Reported s log call dirOut ifindex packet
      ((tryEgress s now ifindex packet insertOk).1 = .ok .shot)
      (egressReporting s log call now ifindex packet insertOk).2 := by
  rw [← egressReporting_fst s log call]
  unfold egressReporting
  rcases hparse : parsePacket packet (s.l2OffFor ifindex) with e | _ | p
  · exact .silent (by simp)
  · exact .silent (by simp)
  · by_cases hndp : isNdp p = true
    · simp only [hndp, if_true]
      exact .silent (by simp)
    · by_cases hoff : s.maps.conntrackEnabled = false
      · by_cases hwalk : (walkRules s.maps dirOut ifindex p).1 = actAllow
        · simp only [hndp, hoff, hwalk, ne_eq, not_true, if_true, if_false]
          exact .silent (by simp)
        · simp only [hndp, hoff, hwalk, ne_eq, not_false_eq_true, if_true]
          exact .report p _ (by simp) ⟨hparse, Bool.eq_false_iff.mpr hndp, hwalk, rfl⟩
      · have htrack := s.trackFlowReporting_cases log call now ifindex packet insertOk hparse
          (Bool.eq_false_iff.mpr hndp)
        dsimp only
        rw [if_neg hndp, if_neg hoff]
        simpa only [Except.ok.injEq] using htrack

end Programs

end Moatd

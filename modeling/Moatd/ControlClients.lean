import Mathlib.Logic.Function.Basic
import Moatd.ControlFrames
import Moatd.Runs

/-!
# Clients at the same time

The daemon serves each connection in a task of its own: it reads a frame, which may come in
pieces, waits for the lock, dispatches the request and writes the answer.  The tasks take
their turns in any order.  What they do is what `serve_client` does for one connection after
another, in the order in which they got the lock.
-/

namespace Moatd

open Runs

/-- Where the task of a connection is. -/
inductive ConnPhase
  /-- In `read_frame`, with the bytes that have come in. -/
  | reading (received : List UInt8)
  /-- The request is decoded; before the lock in `dispatch`. -/
  | waiting (received : List UInt8) (req : Request)
  /-- In `write_frame`. -/
  | writing (answer : List UInt8)
  /-- What was written, or the error. -/
  | closed (result : Except ClientError (List UInt8))

/-- The daemon, and its connections by number. -/
structure Clients where
  daemon : DaemonState
  conn : Nat → ConnPhase

/-- Nothing has come in yet. -/
def Clients.start (daemon : DaemonState) : Clients := ⟨daemon, fun _ => .reading []⟩

/-- What happens, one at a time. -/
inductive ClientEvent
  | receive (i : Nat) (bytes : List UInt8)
  /-- The client sends no more. -/
  | eof (i : Nat)
  /-- Five seconds are over, or the connection fails. -/
  | breakOff (i : Nat) (b : Break)
  /-- The task goes on. -/
  | turn (i : Nat) (env : Env)

/-- A connection whose request has been dispatched. -/
structure ServedConn where
  conn : Nat
  env : Env
  received : List UInt8

/-- The connection enters this phase. -/
def Clients.enter (s : Clients) (i : Nat) (phase : ConnPhase) : Clients :=
  { s with conn := Function.update s.conn i phase }

theorem Clients.enter_conn (s : Clients) (i : Nat) (phase : ConnPhase) (j : Nat) :
    (s.enter i phase).conn j = if j = i then phase else s.conn j :=
  Function.update_apply s.conn i phase j

section Step
variable (json : Json) (toml : Toml)

/-- The end of `serve_client`, from the response on. -/
def answerPhase (resp : Response) : ConnPhase :=
  match json.responseToVec resp with
  | .error e => .closed (.error (.encoding e))
  | .ok respBytes =>
    match writeFrame respBytes with
    | .error e => .closed (.error (.frame e))
    | .ok answer => .writing answer

/-- The task of a connection goes on, up to where it waits again. -/
def Clients.turn (s : Clients) (i : Nat) (env : Env) : Clients :=
  match s.conn i with
  | .reading received =>
    match readFrame received with
    | .error .eof => s
    | .error e => s.enter i (.closed (.error (.frame e)))
    | .ok payload =>
      match json.requestFromSlice payload with
      | .error e => s.enter i (.closed (.error (.decodingRequest e)))
      | .ok req => s.enter i (.waiting received req)
  | .waiting _ req =>
    let (resp, daemon) := dispatch toml env s.daemon req
    { s.enter i (answerPhase json resp) with daemon }
  | .writing answer => s.enter i (.closed (.ok answer))
  | .closed _ => s

/-- One event. -/
def Clients.step (s : Clients) : ClientEvent → Clients
  | .receive i bytes =>
    match s.conn i with
    | .reading received => s.enter i (.reading (received ++ bytes))
    | _ => s
  | .eof i =>
    match s.conn i with
    | .reading received =>
      -- a whole frame is read all the same
      if readFrame received = .error .eof then s.enter i (.closed (.error (.frame .eof))) else s
    | _ => s
  | .breakOff i b =>
    match s.conn i with
    | .reading received =>
      if readFrame received = .error .eof then s.enter i (.closed (.error b.readError)) else s
    | .writing _ => s.enter i (.closed (.error b.writeError))
    | _ => s
  | .turn i env => s.turn json toml i env

/-- The connection that gets the lock. -/
def Clients.served (s : Clients) : ClientEvent → Option ServedConn
  | .turn i env =>
    match s.conn i with
    | .waiting received _ => some ⟨i, env, received⟩
    | _ => none
  | _ => none

/-- The connections of a run, in the order in which they get the lock. -/
def servedAlong : Clients → List ClientEvent → List ServedConn
  | _, [] => []
  | s, e :: run => (s.served e).toList ++ servedAlong (s.step json toml e) run

/-- `serve_client` for one connection after another. -/
def serveInOrder (daemon : DaemonState) (order : List ServedConn) : DaemonState :=
  order.foldl (fun s e => (serveClient json toml e.env s { input := e.received }).2) daemon

/-- What the client of this connection sends with it. -/
def ClientEvent.sentBy (i : Nat) : ClientEvent → List UInt8
  | .receive j bytes => if j = i then bytes else []
  | _ => []

/-- What the client has sent. -/
def sentAlong (i : Nat) (run : List ClientEvent) : List UInt8 :=
  run.flatMap (ClientEvent.sentBy i)

/-! ### What a phase says -/

/-- The bytes begin with a frame that holds the request. -/
def Requests (received : List UInt8) (req : Request) : Prop :=
  ∃ payload, readFrame received = .ok payload ∧ json.requestFromSlice payload = .ok req

/-- `serve_client` gives up before it dispatches, whatever the daemon's state. -/
def Rejected (sent : List UInt8) (result : Except ClientError (List UInt8)) : Prop :=
  ∃ client : Client, client.input <+: sent ∧
    ∀ env s, serveClient json toml env s client = (result, s)

/-- `serve_client` has this result where the connection stands in the order. -/
def ServedAs (daemon : DaemonState) (order : List ServedConn) (i : Nat)
    (writeBreak : Option Break) (result : Except ClientError (List UInt8)) : Prop :=
  ∃ pre e post, order = pre ++ e :: post ∧ e.conn = i ∧
    (serveClient json toml e.env (serveInOrder json toml daemon pre)
      { input := e.received, writeBreak }).1 = result

/-- What a phase says about its connection. -/
def PhaseSays (daemon : DaemonState) (order : List ServedConn) (sent : List UInt8) (i : Nat) :
    ConnPhase → Prop
  | .reading received => i ∉ order.map ServedConn.conn ∧ received = sent
  | .waiting received req =>
    i ∉ order.map ServedConn.conn ∧ received <+: sent ∧ Requests json received req
  | .writing answer =>
    ServedAs json toml daemon order i none (.ok answer) ∧
      ∀ b, ServedAs json toml daemon order i (some b) (.error b.writeError)
  | .closed result =>
    (i ∉ order.map ServedConn.conn ∧ Rejected json toml sent result) ∨
      ∃ writeBreak, ServedAs json toml daemon order i writeBreak result

/-- The state is that of the connections served in this order. -/
structure Clients.Linear (s : Clients) (daemon : DaemonState) (order : List ServedConn)
    (sent : Nat → List UInt8) : Prop where
  state : s.daemon = serveInOrder json toml daemon order
  once : (order.map ServedConn.conn).Nodup
  received : ∀ e ∈ order, e.received <+: sent e.conn
  phase : ∀ i, PhaseSays json toml daemon order (sent i) i (s.conn i)

end Step

section Linear
variable {json : Json} {toml : Toml} {daemon : DaemonState} {order : List ServedConn}

theorem ServedAs.append {i : Nat} {writeBreak : Option Break}
    {result : Except ClientError (List UInt8)}
    (h : ServedAs json toml daemon order i writeBreak result) (later : List ServedConn) :
    ServedAs json toml daemon (order ++ later) i writeBreak result := by
  obtain ⟨pre, e, post, rfl, hconn, hresult⟩ := h
  exact ⟨pre, e, post ++ later, by simp, hconn, hresult⟩

/-- The last in the order. -/
theorem servedAs_last (order : List ServedConn) (e : ServedConn) (writeBreak : Option Break) :
    ServedAs json toml daemon (order ++ [e]) e.conn writeBreak
      (serveClient json toml e.env (serveInOrder json toml daemon order)
        { input := e.received, writeBreak }).1 :=
  ⟨order, e, [], rfl, rfl, rfl⟩

theorem Rejected.append {sent : List UInt8} {result : Except ClientError (List UInt8)}
    (h : Rejected json toml sent result) (more : List UInt8) :
    Rejected json toml (sent ++ more) result := by
  obtain ⟨client, hinput, hserve⟩ := h
  exact ⟨client, hinput.trans (List.prefix_append _ _), hserve⟩

theorem rejected_of_frame {sent : List UInt8} {e : FrameError} (h : readFrame sent = .error e) :
    Rejected json toml sent (.error (.frame e)) := by
  refine ⟨{ input := sent }, List.prefix_refl _, fun env s => ?_⟩
  rw [serveClient]
  dsimp only
  rw [h]

theorem rejected_of_decode {sent payload : List UInt8} {e : String}
    (h : readFrame sent = .ok payload) (hdecode : json.requestFromSlice payload = .error e) :
    Rejected json toml sent (.error (.decodingRequest e)) := by
  refine ⟨{ input := sent }, List.prefix_refl _, fun env s => ?_⟩
  rw [serveClient]
  dsimp only
  rw [h]
  dsimp only
  rw [hdecode]

theorem rejected_of_break (sent : List UInt8) (b : Break) :
    Rejected json toml sent (.error b.readError) :=
  ⟨{ input := sent, readBreak := some b }, List.prefix_refl _, fun _ _ => rfl⟩

/-- A connection that does not move says the same when another is served. -/
theorem PhaseSays.served {sent : List UInt8} {i : Nat} {phase : ConnPhase}
    (h : PhaseSays json toml daemon order sent i phase) {e : ServedConn} (hne : i ≠ e.conn) :
    PhaseSays json toml daemon (order ++ [e]) sent i phase := by
  have hnotMem (hnot : i ∉ order.map ServedConn.conn) :
      i ∉ (order ++ [e]).map ServedConn.conn := by
    rw [List.map_append, List.mem_append, not_or]
    exact ⟨hnot, by simpa using hne⟩
  cases phase with
  | reading received => exact ⟨hnotMem h.1, h.2⟩
  | waiting received req => exact ⟨hnotMem h.1, h.2⟩
  | writing answer => exact ⟨h.1.append [e], fun b => (h.2 b).append [e]⟩
  | closed result =>
    rcases h with ⟨hnot, hrejected⟩ | ⟨writeBreak, hserved⟩
    · exact Or.inl ⟨hnotMem hnot, hrejected⟩
    · exact Or.inr ⟨writeBreak, hserved.append [e]⟩

/-- More bytes change nothing for a request that has been read. -/
theorem PhaseSays.sent {sent : List UInt8} {i : Nat} {phase : ConnPhase}
    (h : PhaseSays json toml daemon order sent i phase) (more : List UInt8)
    (hread : ∀ received, phase = .reading received → more = []) :
    PhaseSays json toml daemon order (sent ++ more) i phase := by
  cases phase with
  | reading received =>
    rw [hread received rfl, List.append_nil]
    exact h
  | waiting received req => exact ⟨h.1, h.2.1.trans (List.prefix_append _ _), h.2.2⟩
  | writing answer => exact h
  | closed result =>
    rcases h with ⟨hnot, hrejected⟩ | hserved
    · exact Or.inl ⟨hnot, hrejected.append more⟩
    · exact Or.inr hserved

/-- What `serve_client` does once the request is read. -/
theorem serveClient_requests (toml : Toml) {received : List UInt8} {req : Request}
    (h : Requests json received req) (env : Env) (s : DaemonState) :
    (serveClient json toml env s { input := received }).2 = (dispatch toml env s req).2 ∧
      match answerPhase json (dispatch toml env s req).1 with
      | .writing answer =>
        (serveClient json toml env s { input := received }).1 = .ok answer ∧
          ∀ b, (serveClient json toml env s { input := received, writeBreak := some b }).1 =
            .error b.writeError
      | .closed result => (serveClient json toml env s { input := received }).1 = result
      | _ => False := by
  obtain ⟨payload, hread, hdecode⟩ := h
  refine ⟨serveClient_snd rfl hread hdecode, ?_⟩
  unfold answerPhase serveClient
  simp only [hread, hdecode]
  cases json.responseToVec (dispatch toml env s req).1 with
  | error e => rfl
  | ok respBytes =>
    dsimp only
    cases writeFrame respBytes with
    | error e => rfl
    | ok answer => exact ⟨rfl, fun _ => rfl⟩

end Linear

/-! ### The order in which connections are served -/

namespace Clients.Linear

variable {json : Json} {toml : Toml} {s : Clients} {daemon : DaemonState}
  {order : List ServedConn} {sent : Nat → List UInt8}

theorem start (json : Json) (toml : Toml) (daemon : DaemonState) :
    (Clients.start daemon).Linear json toml daemon [] fun _ => [] :=
  ⟨rfl, List.nodup_nil, fun _ he => absurd he List.not_mem_nil, fun _ => ⟨List.not_mem_nil, rfl⟩⟩

/-- A task moves on its own. -/
theorem enter (h : s.Linear json toml daemon order sent) (i : Nat) {phase : ConnPhase}
    (hphase : PhaseSays json toml daemon order (sent i) i phase) :
    (s.enter i phase).Linear json toml daemon order sent := by
  refine ⟨h.state, h.once, h.received, fun j => ?_⟩
  rw [enter_conn]
  split
  · rename_i hji
    rw [hji]
    exact hphase
  · exact h.phase j

/-- Bytes come in. -/
theorem receive (h : s.Linear json toml daemon order sent) (i : Nat) (bytes : List UInt8) :
    (s.step json toml (.receive i bytes)).Linear json toml daemon order
      fun j => sent j ++ ClientEvent.sentBy j (.receive i bytes) := by
  have hreceived : ∀ e ∈ order,
      e.received <+: sent e.conn ++ ClientEvent.sentBy e.conn (.receive i bytes) :=
    fun e he => (h.received e he).trans (List.prefix_append _ _)
  have hsaid := h.phase i
  -- only a connection that is being read takes the bytes
  have hothers {t : Clients} (hdaemon : t.daemon = s.daemon)
      (hconn : ∀ j, j ≠ i → t.conn j = s.conn j)
      (hi : PhaseSays json toml daemon order (sent i ++ bytes) i (t.conn i)) :
      t.Linear json toml daemon order
        fun j => sent j ++ ClientEvent.sentBy j (.receive i bytes) := by
    refine ⟨hdaemon.trans h.state, h.once, hreceived, fun j => ?_⟩
    rw [ClientEvent.sentBy]
    by_cases hij : i = j
    · subst hij
      rw [if_pos rfl]
      exact hi
    · rw [if_neg hij, List.append_nil, hconn j (Ne.symm hij)]
      exact h.phase j
  rw [step]
  split
  · rename_i received hphase
    rw [hphase] at hsaid
    refine hothers rfl (fun j hji => ?_) ?_
    · rw [enter_conn, if_neg hji]
    · rw [enter_conn, if_pos rfl]
      exact ⟨hsaid.1, by rw [hsaid.2]⟩
  · rename_i hnot
    exact hothers rfl (fun _ _ => rfl)
      (hsaid.sent bytes fun received hr => absurd hr (hnot received))

/-- A task gets the lock. -/
theorem dispatch (h : s.Linear json toml daemon order sent) {i : Nat} {received : List UInt8}
    {req : Request} (hi : s.conn i = .waiting received req) (env : Env) :
    (s.step json toml (.turn i env)).Linear json toml daemon (order ++ [⟨i, env, received⟩])
      sent := by
  have hsaid := h.phase i
  rw [hi] at hsaid
  obtain ⟨hnot, hbegins, hrequests⟩ := hsaid
  obtain ⟨hstate, hphase⟩ :=
    serveClient_requests toml hrequests env (serveInOrder json toml daemon order)
  have hturn : s.step json toml (.turn i env) =
      { s.enter i (answerPhase json (Moatd.dispatch toml env s.daemon req).1) with
        daemon := (Moatd.dispatch toml env s.daemon req).2 } := by
    rw [step, turn, hi]
  rw [hturn, h.state]
  refine ⟨?_, ?_, ?_, fun j => ?_⟩
  · show (Moatd.dispatch toml env (serveInOrder json toml daemon order) req).2 = _
    rw [← hstate, serveInOrder, serveInOrder, List.foldl_append]
    rfl
  · rw [List.map_append, List.nodup_append]
    refine ⟨h.once, List.nodup_singleton _, fun k hk k' hk' heq => ?_⟩
    rw [List.map_singleton, List.mem_singleton] at hk'
    have hki : k = i := heq.trans hk'
    exact hnot (hki ▸ hk)
  · rw [List.forall_mem_append, List.forall_mem_singleton]
    exact ⟨h.received, hbegins⟩
  · show PhaseSays json toml daemon (order ++ [⟨i, env, received⟩]) (sent j) j
      ((s.enter i _).conn j)
    rw [enter_conn]
    split
    · rename_i hji
      subst hji
      have hserved (writeBreak : Option Break) : ServedAs json toml daemon _ j writeBreak _ :=
        servedAs_last order ⟨j, env, received⟩ writeBreak
      cases hanswer : answerPhase json
        (Moatd.dispatch toml env (serveInOrder json toml daemon order) req).1 with
      | reading | waiting =>
        rw [hanswer] at hphase
        exact hphase.elim
      | writing answer =>
        rw [hanswer] at hphase
        refine ⟨?_, fun b => ?_⟩
        · rw [← hphase.1]
          exact hserved none
        · rw [← hphase.2 b]
          exact hserved (some b)
      | closed result =>
        rw [hanswer] at hphase
        refine Or.inr ⟨none, ?_⟩
        rw [← hphase]
        exact hserved none
    · rename_i hji
      exact (h.phase j).served hji

/-- A task goes on reading. -/
theorem read (h : s.Linear json toml daemon order sent) {i : Nat} {received : List UInt8}
    (hi : s.conn i = .reading received) :
    (match readFrame received with
      | .error .eof => s
      | .error e => s.enter i (.closed (.error (.frame e)))
      | .ok payload =>
        match json.requestFromSlice payload with
        | .error e => s.enter i (.closed (.error (.decodingRequest e)))
        | .ok req => s.enter i (.waiting received req)).Linear json toml daemon order sent := by
  have hsaid := h.phase i
  rw [hi] at hsaid
  obtain ⟨hnot, rfl⟩ := hsaid
  split
  · exact h
  · rename_i e _ hread
    exact h.enter i (Or.inl ⟨hnot, rejected_of_frame hread⟩)
  · rename_i payload hread
    split
    · rename_i e hdecode
      exact h.enter i (Or.inl ⟨hnot, rejected_of_decode hread hdecode⟩)
    · rename_i req hdecode
      exact h.enter i ⟨hnot, List.prefix_refl _, payload, hread, hdecode⟩

/-- What a task does on its own leaves the order as it is. -/
theorem quiet (h : s.Linear json toml daemon order sent) {e : ClientEvent}
    (hnone : s.served e = none) (hbytes : ∀ j, e.sentBy j = []) :
    (s.step json toml e).Linear json toml daemon order sent := by
  cases e with
  | receive i bytes =>
    have hnil : bytes = [] := by simpa [ClientEvent.sentBy] using hbytes i
    have hreceive := h.receive i bytes
    simpa only [hbytes, List.append_nil] using hreceive
  | eof i =>
    have hsaid := h.phase i
    rw [step]
    split
    · rename_i received hi
      rw [hi] at hsaid
      obtain ⟨hnot, hall⟩ := hsaid
      split
      · rename_i heof
        refine h.enter i (Or.inl ⟨hnot, ?_⟩)
        rw [← hall]
        exact rejected_of_frame heof
      · exact h
    · exact h
  | breakOff i b =>
    have hsaid := h.phase i
    rw [step]
    split
    · rename_i received hi
      rw [hi] at hsaid
      split
      · exact h.enter i (Or.inl ⟨hsaid.1, rejected_of_break _ b⟩)
      · exact h
    · rename_i answer hi
      rw [hi] at hsaid
      exact h.enter i (Or.inr ⟨some b, hsaid.2 b⟩)
    · exact h
  | turn i env =>
    have hsaid := h.phase i
    rw [step, turn]
    cases hi : s.conn i with
    | reading received => exact h.read hi
    | waiting received req =>
      rw [served, hi] at hnone
      exact absurd hnone (Option.some_ne_none _)
    | writing answer =>
      rw [hi] at hsaid
      exact h.enter i (Or.inr ⟨none, hsaid.1⟩)
    | closed result => exact h

/-- Each event keeps the order, or puts the connection that gets the lock behind the others. -/
theorem step (h : s.Linear json toml daemon order sent) (e : ClientEvent) :
    (s.step json toml e).Linear json toml daemon (order ++ (s.served e).toList)
      fun j => sent j ++ e.sentBy j := by
  cases hserved : s.served e with
  | none =>
    rw [Option.toList_none, List.append_nil]
    cases e with
    | receive i bytes => exact h.receive i bytes
    | eof | breakOff | turn =>
      simpa only [ClientEvent.sentBy, List.append_nil] using h.quiet hserved fun _ => rfl
  | some c =>
    cases e with
    | receive | eof | breakOff => exact absurd hserved (Option.some_ne_none c).symm
    | turn i env =>
      rw [served] at hserved
      split at hserved
      · rename_i received req hi
        obtain rfl := Option.some.inj hserved
        simpa only [ClientEvent.sentBy, List.append_nil, Option.toList_some] using
          h.dispatch hi env
      · exact absurd hserved (Option.some_ne_none c).symm

theorem run (h : s.Linear json toml daemon order sent) (events : List ClientEvent) :
    (after (Clients.step json toml) s events).Linear json toml daemon
      (order ++ servedAlong json toml s events) fun j => sent j ++ sentAlong j events := by
  induction events generalizing s order sent with
  | nil => simpa [servedAlong, sentAlong, after] using h
  | cons e events ih =>
    rw [after_cons]
    simpa only [servedAlong, sentAlong, List.flatMap_cons, List.append_assoc] using ih (h.step e)

end Clients.Linear

/-! ### The daemon seen from its clients -/

section Linearized
variable (json : Json) (toml : Toml)

/-- The connections of a run are served as if one came after another, in this order. -/
structure Linearized (daemon : DaemonState) (run : List ClientEvent)
    (order : List ServedConn) : Prop where
  state : (after (Clients.step json toml) (Clients.start daemon) run).daemon =
    serveInOrder json toml daemon order
  once : (order.map ServedConn.conn).Nodup
  received : ∀ e ∈ order, e.received <+: sentAlong e.conn run
  /-- A client has the answer of its place in the order, or its connection ended before it was
  served. -/
  answered : ∀ i result,
    (after (Clients.step json toml) (Clients.start daemon) run).conn i = .closed result →
      (i ∉ order.map ServedConn.conn ∧ Rejected json toml (sentAlong i run) result) ∨
        ∃ writeBreak, ServedAs json toml daemon order i writeBreak result
  /-- A connection that is over stands before all that are served later. -/
  realTime : ∀ pre, pre <+: run →
    ∃ later, order = servedAlong json toml (Clients.start daemon) pre ++ later ∧
      ∀ e ∈ later, ∀ result,
        (after (Clients.step json toml) (Clients.start daemon) pre).conn e.conn ≠ .closed result

variable {json : Json} {toml : Toml}

theorem servedAlong_append (s : Clients) (pre post : List ClientEvent) :
    servedAlong json toml s (pre ++ post) =
      servedAlong json toml s pre ++
        servedAlong json toml (after (Clients.step json toml) s pre) post := by
  induction pre generalizing s with
  | nil => rfl
  | cons e pre ih =>
    rw [List.cons_append, servedAlong, ih, servedAlong, after_cons, List.append_assoc]

theorem Clients.step_closed {s : Clients} {i : Nat} {result : Except ClientError (List UInt8)}
    (hi : s.conn i = .closed result) (e : ClientEvent) :
    (s.step json toml e).conn i = .closed result := by
  have henter {j : Nat} (hj : s.conn j ≠ .closed result) (phase : ConnPhase) :
      (s.enter j phase).conn i = .closed result := by
    rw [enter_conn, if_neg (fun hij : i = j => hj (hij ▸ hi)), hi]
  cases e with
  | receive j bytes | eof j | breakOff j b =>
    rw [step]
    cases hj : s.conn j <;> dsimp only <;> try split
    all_goals first | exact hi | exact henter (by rw [hj]; exact ConnPhase.noConfusion) _
  | turn j env =>
    rw [step, turn]
    cases hj : s.conn j <;> dsimp only
    · split
      · exact hi
      · exact henter (by rw [hj]; exact ConnPhase.noConfusion) _
      · split <;> exact henter (by rw [hj]; exact ConnPhase.noConfusion) _
    · exact henter (by rw [hj]; exact ConnPhase.noConfusion) _
    · exact henter (by rw [hj]; exact ConnPhase.noConfusion) _
    · exact hi

/-- Who is served was waiting for the lock. -/
theorem Clients.waiting_of_served {s : Clients} {e : ClientEvent} {c : ServedConn}
    (h : s.served e = some c) : ∃ req, s.conn c.conn = .waiting c.received req := by
  cases e with
  | receive | eof | breakOff => exact absurd h (Option.some_ne_none c).symm
  | turn i env =>
    rw [served] at h
    split at h
    · rename_i received req hi
      obtain rfl := Option.some.inj h
      exact ⟨req, hi⟩
    · exact absurd h (Option.some_ne_none c).symm

theorem not_closed_of_mem_servedAlong {s : Clients} {run : List ClientEvent} {c : ServedConn}
    (h : c ∈ servedAlong json toml s run) (result : Except ClientError (List UInt8)) :
    s.conn c.conn ≠ .closed result := by
  induction run generalizing s with
  | nil => exact absurd h List.not_mem_nil
  | cons e run ih =>
    intro hclosed
    rcases List.mem_append.mp h with hnow | hlater
    · obtain ⟨req, hwaiting⟩ := Clients.waiting_of_served (Option.mem_toList.mp hnow)
      rw [hwaiting] at hclosed
      exact ConnPhase.noConfusion hclosed
    · exact ih hlater (Clients.step_closed hclosed e)

/-- Clients at the same time see a daemon that serves them one after another, each between
its request and its answer. -/
theorem clients_linearize (json : Json) (toml : Toml) (daemon : DaemonState)
    (run : List ClientEvent) :
    Linearized json toml daemon run (servedAlong json toml (Clients.start daemon) run) := by
  have hlinear := (Clients.Linear.start json toml daemon).run run
  simp only [List.nil_append] at hlinear
  refine ⟨hlinear.state, hlinear.once, hlinear.received, fun i result hi => ?_,
    fun pre hpre => ?_⟩
  · have hsaid := hlinear.phase i
    rw [hi] at hsaid
    exact hsaid
  · obtain ⟨post, rfl⟩ := hpre
    exact ⟨_, servedAlong_append _ pre post, fun e he result =>
      not_closed_of_mem_servedAlong he result⟩

end Linearized

end Moatd

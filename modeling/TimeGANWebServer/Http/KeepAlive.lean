import TimeGANWebServer.Http.Independence
import TimeGANWebServer.Http.WholeRequest
import TimeGANWebServer.Support.Batches

/-!
# Requests on a connection that is kept

The one-shot events of `epoll` make the server read, process and write on a connection in turn.
When a response has been written `init()` clears the read buffer, and with it whatever has been
read behind the request.
-/

namespace TimeGANWebServer.Http

open TimeGANWebServer.Support

/-! ## Serving a connection -/

/-- What comes next on a connection: bytes are read, a worker processes what has been read, or
the response is written. -/
inductive Stage where
  | reading | queued | writing | closed
  deriving DecidableEq, Repr

/-- What `epoll` is armed for by some calls. -/
def Stage.armedBy : List FdCall → Stage
  | [.modfd _ .epollin] => .reading
  | [.modfd _ .epollout] => .writing
  | _ => .closed

/-- A connection and its slot. -/
structure Connection where
  conn : HttpConn
  stage : Stage

/-- `read_once`, `process` and `write`, with what the calls in them return. -/
inductive ConnectionEvent where
  | read (results : List RecvResult)
  | process (env : Env) (mysql : Option Nat)
  | write (results : List WritevResult)

/-- The bytes a `recv` brings. -/
def RecvResult.bytes : RecvResult → List UInt8
  | .data bytes => bytes
  | _ => []

/-- The bytes an event brings. -/
def ConnectionEvent.bytes : ConnectionEvent → List UInt8
  | .read results => results.flatMap RecvResult.bytes
  | _ => []

namespace Connection

/-- A slot that is given to a new connection. -/
def opened (slot : HttpConn) (sockfd : Int) (root : List UInt8) (trigMode : Int) : Connection where
  conn := slot.initFor sockfd root trigMode
  stage := .reading

/-- One event on a connection, with the slots `do_request` is called on.  The connection is
closed when `read_once` or `write` returns false; then what is sent on it is lost. -/
def step (connection : Connection) (event : ConnectionEvent) :
    Option (Connection × List HttpConn) :=
  let conn := connection.conn
  match connection.stage, event with
  | .reading, .read results =>
      (conn.readOnce conn.trigMode results).map fun read =>
        ({
          conn := { conn with toRequestState := read.2 }
          stage := if read.1 then .queued else .closed }, [])
  | .queued, .process env mysql =>
      let conn := { conn with mysql := mysql }
      match conn.process env with
      | .error _ => none
      | .ok processed =>
          some ({ conn := processed.conn, stage := .armedBy processed.fdCalls },
            conn.requested.toList)
  | .writing, .write results =>
      (conn.write results).map fun outcome =>
        ({
          conn := outcome.conn
          stage := if outcome.ret then .armedBy outcome.fdCalls else .closed }, [])
  | .closed, _ => some (connection, [])
  | _, _ => none

/-- A read brings bytes for which there is room, a response fits into its buffer, and no
`writev` fails. -/
def Undisturbed (connection : Connection) (event : ConnectionEvent) : Prop :=
  match connection.stage, event with
  | .reading, .read results =>
      ∃ chunk, Delivers connection.conn.trigMode results chunk ∧
        connection.conn.readIdx + chunk.length < readBufferSize
  | .queued, .process env mysql =>
      ∀ processed, HttpConn.process { connection.conn with mysql := mysql } env = .ok processed →
        Stage.armedBy processed.fdCalls ≠ .closed
  | .writing, .write results =>
      ∀ outcome, connection.conn.write results = some outcome → outcome.ended ≠ .failed
  | _, _ => True

end Connection

/-- `do_request` is called for a request: the parser is as it is when a new slot has received
this request in one read. -/
def AskedFor (call : HttpConn) (request : BodilessRequest) : Prop :=
  ∃ slot : RequestState,
    (slot.init.receive request.text).processRead = some (.request call.toRequestState)

/-! ## What an event does -/

theorem Delivers.bytes {trigMode : Int} {results : List RecvResult} {chunk : List UInt8}
    (delivers : Delivers trigMode results chunk) : results.flatMap RecvResult.bytes = chunk := by
  induction delivers with
  | level => exact List.append_nil _
  | last => rfl
  | more _ _ _ ih => rw [List.flatMap_cons, ih, RecvResult.bytes]

/-- Whether `recv` calls with these results make a `read_once` succeed. -/
def delivered (trigMode : Int) : List RecvResult → Bool
  | [.again] => trigMode ≠ 0
  | .data bytes :: results =>
      bytes ≠ [] && if trigMode = 0 then results = [] else delivered trigMode results
  | _ => false

theorem delivers_of_delivered {trigMode : Int} {results : List RecvResult}
    (succeeds : delivered trigMode results = true) :
    Delivers trigMode results (results.flatMap RecvResult.bytes) := by
  fun_induction delivered with
  | case1 => exact .last (by simpa using succeeds)
  | case2 bytes results ih =>
      rw [Bool.and_eq_true, decide_eq_true_iff] at succeeds
      obtain ⟨some, rest⟩ := succeeds
      split at rest
      case isTrue level =>
          rw [decide_eq_true_iff] at rest
          subst rest
          rw [List.flatMap_singleton]
          exact .level level some
      case isFalse edge => exact .more edge some (ih rest)
  | case3 => contradiction

theorem Delivers.delivered {trigMode : Int} {results : List RecvResult} {chunk : List UInt8}
    (delivers : Delivers trigMode results chunk) : Http.delivered trigMode results = true := by
  induction delivers with
  | level level some => simp [Http.delivered, level, some]
  | last edge => simp [Http.delivered, edge]
  | more edge some _ ih => simp [Http.delivered, edge, some, ih]

instance (connection : Connection) :
    (event : ConnectionEvent) → Decidable (connection.Undisturbed event) :=
  match connection with
  | ⟨conn, .reading⟩ => fun
      | .read results =>
          decidable_of_iff (delivered conn.trigMode results = true ∧
              conn.readIdx + (results.flatMap RecvResult.bytes).length < readBufferSize)
            ⟨fun ⟨succeeds, room⟩ => ⟨_, delivers_of_delivered succeeds, room⟩,
              fun ⟨_, delivers, room⟩ => ⟨delivers.delivered, delivers.bytes.symm ▸ room⟩⟩
      | .process _ _ | .write _ => .isTrue trivial
  | ⟨conn, .queued⟩ => fun
      | .process env mysql =>
          match made : HttpConn.process { conn with mysql := mysql } env with
          | .error _ => .isTrue fun _ same => by rw [made] at same; contradiction
          | .ok processed =>
              decidable_of_iff (Stage.armedBy processed.fdCalls ≠ .closed)
                ⟨fun open_ _ same => Except.ok.inj (made.symm.trans same) ▸ open_, fun all =>
                  all _ made⟩
      | .read _ | .write _ => .isTrue trivial
  | ⟨conn, .writing⟩ => fun
      | .write results =>
          match made : conn.write results with
          | none => .isTrue fun _ same => by rw [made] at same; contradiction
          | some outcome =>
              decidable_of_iff (outcome.ended ≠ .failed)
                ⟨fun unfailed _ same => Option.some.inj (made.symm.trans same) ▸ unfailed,
                  fun all => all _ made⟩
      | .read _ | .process _ _ => .isTrue trivial
  | ⟨_, .closed⟩ => fun _ => .isTrue trivial

namespace HttpConn

/-- What `process` does with a slot: it waits for more, or `do_request` or a bad request has
made a response, which is written or does not fit. -/
inductive Served (conn : HttpConn) (processed : Processed) : Prop where
  | waits {next : RequestState}
    (returned : conn.toRequestState.processRead = some (.code .noRequest next))
      (same : processed.conn = { conn with toRequestState := next })
      (armed : Stage.armedBy processed.fdCalls = .reading) (noCall : conn.requested = none)
  | rejects {next : RequestState}
      (returned : conn.toRequestState.processRead = some (.code .badRequest next))
      (armed : Stage.armedBy processed.fdCalls = .writing ∨
        Stage.armedBy processed.fdCalls = .closed) (noCall : conn.requested = none)
  | asks {asked : RequestState}
      (returned : conn.toRequestState.processRead = some (.request asked))
      (linger : processed.conn.linger = asked.linger)
      (armed : Stage.armedBy processed.fdCalls = .writing ∨
        Stage.armedBy processed.fdCalls = .closed)
      (call : conn.requested = some { conn with toRequestState := asked })

theorem closeConn_linger (conn : HttpConn) : conn.closeConn.1.linger = conn.linger := by
  simp only [closeConn]
  split <;> rfl

/-- A slot that makes a response is armed for writing, or closed. -/
theorem process_response {conn : HttpConn} {env : Env} {reply : Reply} {processed : Processed}
    (read : conn.processRead env = .ok reply) (completed : reply.code ≠ .noRequest)
    (done : conn.process env = .ok processed) :
    processed.conn.linger = reply.conn.linger ∧
      (Stage.armedBy processed.fdCalls = .writing ∨ Stage.armedBy processed.fdCalls = .closed) := by
  simp only [process, read, if_neg completed] at done
  cases done
  simp only []
  split
  · exact ⟨rfl, .inl rfl⟩
  · refine ⟨closeConn_linger _, ?_⟩
    simp only [closeConn]
    split
    · exact .inr rfl
    · exact .inl rfl

theorem process_served {conn : HttpConn} {env : Env} {processed : Processed}
    (done : conn.process env = .ok processed) : Served conn processed := by
  obtain ⟨outcome, returned⟩ := Option.isSome_iff_exists.mp conn.toRequestState.processRead_isSome
  have ended : conn.toRequestState.readOutcome = outcome := by
    simp only [RequestState.readOutcome, returned, Option.get_some]
  have concluded := processRead_eq_conclude env returned
  cases outcome with
  | fault reason next =>
      simp only [process, concluded, conclude] at done
      contradiction
  | code ret next =>
      have noCall : conn.requested = none := by simp only [requested, ended]
      rcases RequestState.readOutcome_code ended with rfl | rfl
      · simp only [process, concluded, conclude, if_true] at done
        cases done
        exact .waits returned rfl rfl noCall
      · exact .rejects returned (process_response concluded (by simp) done).2 noCall
  | request asked =>
      have call : conn.requested = some { conn with toRequestState := asked } := by
        simp only [requested, ended]
      cases answered : HttpConn.doRequest { conn with toRequestState := asked } env with
      | error reason =>
          simp only [process, concluded, conclude, answered] at done
          contradiction
      | ok reply =>
          have read : conn.processRead env = .ok reply := concluded.trans answered
          obtain ⟨linger, armed⟩ := process_response read (doRequest_complete answered) done
          exact .asks returned (linger.trans (doRequest_setup answered).linger) armed call

/-- What `write` does with a slot, if no `writev` fails: it makes the slot ready for the next
request, waits, or ends a connection that is not kept. -/
theorem write_turns {conn : HttpConn} {results : List WritevResult} {outcome : WriteOutcome}
    (written : conn.write results = some outcome) (unfailed : outcome.ended ≠ .failed) :
    (outcome.ret = true ∧ Stage.armedBy outcome.fdCalls = .reading ∧
        ∃ slot : RequestState, outcome.conn.toRequestState = slot.init) ∨
      (outcome.ret = true ∧ Stage.armedBy outcome.fdCalls = .writing ∧
        outcome.conn.linger = conn.linger) ∨
      outcome.ret = false ∧ conn.linger = false := by
  simp only [write] at written
  split at written
  · cases written
    exact .inl ⟨rfl, rfl, _, rfl⟩
  · obtain ⟨loop, _, rfl⟩ := Option.map_eq_some_iff.mp written
    obtain ⟨ended, response, writevs⟩ := loop
    cases ended with
    | again => exact .inr (.inl ⟨rfl, rfl, rfl⟩)
    | complete =>
        cases linger : conn.linger with
        | true => exact .inl ⟨rfl, rfl, conn.toRequestState, rfl⟩
        | false => exact .inr (.inr ⟨rfl, rfl⟩)
    | idle | failed => exact absurd rfl unfailed

end HttpConn

/-! ## Batches of bytes -/

namespace Connection

/-- How many bytes have been read for the request to come. -/
def held (connection : Connection) : Nat :=
  match connection.stage with
  | .reading | .queued => connection.conn.readIdx.toNat
  | .writing | .closed => 0

/-- `m_read_idx` does not fall below the buffer while the connection is open. -/
def Counted (connection : Connection) : Prop :=
  connection.stage = .reading ∨ connection.stage = .queued → 0 ≤ connection.conn.readIdx

theorem opened_counted (slot : HttpConn) (sockfd : Int) (root : List UInt8) (trigMode : Int) :
    (opened slot sockfd root trigMode).Counted :=
  fun _ => Int.le_refl 0

/-- An event lets bytes arrive, hands all that have been read to `do_request`, or loses them. -/
theorem step_shift {before after : Connection} {event : ConnectionEvent} {calls : List HttpConn}
    (counted : before.Counted) (undisturbed : before.Undisturbed event)
    (stepped : before.step event = some (after, calls)) :
    Shift before.held event.bytes.length (calls.map fun call => call.readIdx.toNat) after.held ∧
      after.Counted := by
  obtain ⟨conn, stage⟩ := before
  cases stage with
  | closed =>
      cases stepped
      exact ⟨.lose 0 _, counted⟩
  | reading =>
      cases event with
      | process | write => contradiction
      | read results =>
          obtain ⟨chunk, delivers, short⟩ := undisturbed
          have read := RequestState.readOnce_of_delivers delivers short
          simp only [step] at read short stepped
          rw [read] at stepped
          cases stepped
          have nonneg : 0 ≤ conn.readIdx := counted (.inl rfl)
          have moved : ((conn.readIdx + chunk.length).toNat : Nat) =
              conn.readIdx.toNat + chunk.length := by omega
          refine ⟨?_, fun _ => ?_⟩
          · simp only [held, ConnectionEvent.bytes, delivers.bytes, RequestState.receive, if_true,
              moved]
            exact .arrive _ _
          · simp only [RequestState.receive]
            omega
  | queued =>
      cases event with
      | read | write => contradiction
      | process env mysql =>
          have nonneg : 0 ≤ conn.readIdx := counted (.inr rfl)
          simp only [step] at stepped
          split at stepped
          · contradiction
          case _ processed done =>
              cases stepped
              have emptied : ∀ stage : Stage, stage = .writing ∨ stage = .closed →
                  Connection.held ⟨processed.conn, stage⟩ = 0 ∧
                    Connection.Counted ⟨processed.conn, stage⟩ := by
                rintro _ (rfl | rfl)
                · exact ⟨rfl, by simp [Counted]⟩
                · exact ⟨rfl, by simp [Counted]⟩
              cases HttpConn.process_served done with
              | @waits next returned same armed noCall =>
                  have kept := RequestState.processRead_inside (Int.le_max_left _ _)
                    (Int.le_max_right _ _) returned
                  have sameIdx : processed.conn.readIdx = conn.readIdx := by
                    rw [same]
                    exact kept
                  rw [noCall, armed]
                  refine ⟨?_, fun _ => ?_⟩
                  · simp only [held, sameIdx]
                    exact .arrive _ 0
                  · simp only [sameIdx]
                    exact nonneg
              | rejects returned armed noCall =>
                  obtain ⟨none, after⟩ := emptied _ armed
                  rw [noCall, none]
                  exact ⟨.lose _ 0, after⟩
              | @asks asked returned _ armed call =>
                  have kept := RequestState.processRead_inside (Int.le_max_left _ _)
                    (Int.le_max_right _ _) returned
                  have sameIdx : asked.readIdx = conn.readIdx := kept.1
                  obtain ⟨none, after⟩ := emptied _ armed
                  rw [call, none]
                  refine ⟨?_, after⟩
                  simp only [Option.toList_some, List.map_cons, List.map_nil, sameIdx]
                  exact .take _
  | writing =>
      cases event with
      | read | process => contradiction
      | write results =>
          obtain ⟨outcome, written, same⟩ := Option.map_eq_some_iff.mp stepped
          cases same
          rcases HttpConn.write_turns written (undisturbed outcome written) with
            ⟨ret, armed, slot, fresh⟩ | ⟨ret, armed, _⟩ | ⟨ret, _⟩
          · have start : outcome.conn.readIdx = 0 := by
              rw [fresh]
              rfl
            simp only [ret, if_true, armed]
            refine ⟨?_, fun _ => ?_⟩
            · simp only [held, start]
              exact .lose 0 0
            · exact Int.le_of_eq start.symm
          · simp only [ret, if_true, armed]
            exact ⟨.lose 0 0, by simp [Counted]⟩
          · simp only [ret, Bool.false_eq_true, if_false]
            exact ⟨.lose 0 0, by simp [Counted]⟩

/-- So does a run. -/
theorem run_shifts {connection last : Connection} {events : List ConnectionEvent}
    {calls : List HttpConn} (counted : connection.Counted)
    (undisturbed : RunMeets step Undisturbed connection events)
    (ran : run step connection events = some (last, calls)) :
    Shifts connection.held (events.map fun event => event.bytes.length)
      (calls.map fun call => call.readIdx.toNat) := by
  induction events generalizing connection calls with
  | nil =>
      cases ran
      exact .nil _
  | cons event events ih =>
      obtain ⟨next, first, rest, stepped, later, rfl⟩ := run_cons ran
      obtain ⟨shift, kept⟩ := step_shift counted undisturbed.1 stepped
      rw [List.map_append]
      exact .cons shift (ih kept (undisturbed.2 next first stepped) later)

/-! ## From the bytes to the calls -/

/-- How a connection stands that has read a part of the first of some requests: it reads on,
has read the part, or writes the response to the last one. -/
inductive Awaits (requests : List BodilessRequest) : Connection → List UInt8 → Prop where
  | reading {conn : HttpConn} {part : List UInt8} (slot : RequestState)
      (received : conn.readIdx = part.length)
      (resumes : ∀ chunk, part.length + chunk.length ≤ readBufferSize →
        (conn.toRequestState.receive chunk).processRead =
          (slot.init.receive (part ++ chunk)).processRead)
      (missing : ∀ request ∈ requests.head?, part.length < request.text.length) :
      Awaits requests ⟨conn, .reading⟩ part
  | queued {conn : HttpConn} {part : List UInt8} (slot : RequestState)
      (received : conn.readIdx = part.length)
      (same : conn.toRequestState.processRead = (slot.init.receive part).processRead)
      (within : ∀ request ∈ requests.head?, part.length ≤ request.text.length) :
      Awaits requests ⟨conn, .queued⟩ part
  | writing {conn : HttpConn} (linger : conn.linger = true) : Awaits requests ⟨conn, .writing⟩ []

theorem text_pos (request : BodilessRequest) : 0 < request.text.length := by
  simp only [BodilessRequest.text, List.length_append]
  exact Nat.add_pos_right _ (by decide)

/-- A slot that has just been initialised. -/
theorem Awaits.fresh (requests : List BodilessRequest) {conn : HttpConn} {slot : RequestState}
    (fresh : conn.toRequestState = slot.init) : Awaits requests ⟨conn, .reading⟩ [] := by
  refine .reading slot ?_ (fun chunk _ => ?_) fun request _ => text_pos request
  · rw [fresh]
    rfl
  · rw [fresh, List.nil_append]

/-- Without a byte `process_read` waits. -/
theorem processRead_nothing (slot : RequestState) :
    (slot.init.receive []).processRead = some (.code .noRequest (slot.init.receive [])) :=
  Loop.run_of_done
    (RequestState.processPass_of_wait (by simp [RequestState.receive, RequestState.init])
    (show (slot.init.receive []).parseLine = (.open, slot.init.receive []) from rfl) (by decide))

/-- What a connection that has read a part of the requests does next: it waits, or has the whole
of the first one. -/
theorem Awaits.processRead {requests : List BodilessRequest} {slot : RequestState}
    {part rest : List UInt8} (stream : part ++ rest = (requests.map BodilessRequest.text).flatten)
    (within : ∀ request ∈ requests.head?, part.length ≤ request.text.length) :
    (∃ next, (slot.init.receive part).processRead = some (.code .noRequest next) ∧
        next.readIdx = part.length ∧
        (∀ chunk, part.length + chunk.length ≤ readBufferSize →
          (next.receive chunk).processRead = (slot.init.receive (part ++ chunk)).processRead) ∧
        ∀ request ∈ requests.head?, part.length < request.text.length) ∨
      ∃ request later asked, requests = request :: later ∧ part = request.text ∧
        (slot.init.receive part).processRead = some (.request asked) ∧ asked.linger = true := by
  cases requests with
  | nil =>
      rw [List.map_nil, List.flatten_nil, List.append_eq_nil_iff] at stream
      obtain ⟨rfl, rfl⟩ := stream
      refine .inl ⟨_, processRead_nothing slot, rfl, fun chunk _ => ?_, nofun⟩
      rw [RequestState.receive_receive]
  | cons request later =>
      have short := within request rfl
      rw [List.map_cons, List.flatten_cons] at stream
      have isPart : part <+: request.text :=
        List.prefix_of_prefix_length_le ⟨rest, stream⟩ (List.prefix_append _ _) short
      obtain ⟨missing, split⟩ := isPart
      by_cases whole : missing = []
      · rw [whole, List.append_nil] at split
        obtain ⟨asked, ends, linger, _⟩ := request.processRead_text slot
        exact .inr ⟨request, later, asked, rfl, split, split ▸ ends, linger⟩
      · obtain ⟨next, waits, received, resumes⟩ := request.processRead_part slot split.symm whole
        refine .inl ⟨next, waits, received, resumes, fun other member => ?_⟩
        cases member
        have more : 0 < missing.length := List.length_pos_iff.mpr whole
        have lengths := congrArg List.length split
        rw [List.length_append] at lengths
        omega

/-- An event on such a connection: some of the requests, none or one, have been handed to
`do_request`, and the connection has read a part of the next one. -/
theorem Awaits.step {requests : List BodilessRequest} {before after : Connection}
    {event : ConnectionEvent} {calls : List HttpConn} {part rest : List UInt8} {arrivals : List Nat}
    (awaits : Awaits requests before part)
    (stream : part ++ (event.bytes ++ rest) = (requests.map BodilessRequest.text).flatten)
    (uncrossed : Uncrossed part.length (requests.map fun request => request.text.length)
      (event.bytes.length :: arrivals))
    (undisturbed : before.Undisturbed event)
    (stepped : before.step event = some (after, calls)) :
    ∃ asked later next, requests = asked ++ later ∧ List.Forall₂ AskedFor calls asked ∧
      Awaits later after next ∧ next ++ rest = (later.map BodilessRequest.text).flatten ∧
      Uncrossed next.length (later.map fun request => request.text.length) arrivals := by
  cases awaits with
  | @reading conn part slot received resumes missing =>
      cases event with
      | process | write => contradiction
      | read results =>
          obtain ⟨chunk, delivers, short⟩ := undisturbed
          have read := RequestState.readOnce_of_delivers delivers short
          have bytes : (ConnectionEvent.read results).bytes = chunk := delivers.bytes
          simp only [Connection.step] at read short stepped
          rw [read] at stepped
          cases stepped
          rw [bytes] at stream uncrossed
          have total : (part ++ chunk).length = part.length + chunk.length := List.length_append
          refine ⟨[], requests, part ++ chunk, rfl, .nil, ?_, by rw [List.append_assoc, stream],
            total ▸ uncrossed.tail⟩
          refine .queued slot ?_ (resumes chunk (by omega)) fun request member => ?_
          · simp only [RequestState.receive, received, total, Int.natCast_add]
          · obtain ⟨later, rfl⟩ := List.head?_eq_some_iff.mp member
            rw [total]
            exact uncrossed.first (missing request member)
  | @queued conn part slot received same within =>
      cases event with
      | read | write => contradiction
      | process env mysql =>
          simp only [Connection.step] at stepped
          split at stepped
          · contradiction
          case _ processed done =>
              cases stepped
              simp only [ConnectionEvent.bytes, List.nil_append, List.length_nil]
                at stream uncrossed
              have fits := undisturbed processed done
              rcases Awaits.processRead stream within with
                ⟨next, waits, nextIdx, resumes, missing⟩ |
                  ⟨request, later, asked, rfl, rfl, ends, linger⟩
              · cases HttpConn.process_served done with
                | waits returned sameConn armed noCall =>
                    have isNext := returned.symm.trans (same.trans waits)
                    cases isNext
                    rw [noCall, armed, sameConn]
                    exact ⟨[], requests, part, rfl, .nil, .reading slot nextIdx resumes missing,
                      stream,
                      uncrossed.tail⟩
                | rejects returned =>
                    have isNext := returned.symm.trans (same.trans waits)
                    cases isNext
                | asks returned =>
                    have isNext := returned.symm.trans (same.trans waits)
                    cases isNext
              · cases HttpConn.process_served done with
                | waits returned =>
                    have isAsked := returned.symm.trans (same.trans ends)
                    cases isAsked
                | rejects returned =>
                    have isAsked := returned.symm.trans (same.trans ends)
                    cases isAsked
                | asks returned kept armed call =>
                    have isAsked := returned.symm.trans (same.trans ends)
                    cases isAsked
                    rw [call, armed.resolve_right fits]
                    rw [List.map_cons, List.flatten_cons, List.append_cancel_left_eq] at stream
                    exact ⟨[request], later, [], rfl, .cons ⟨slot, ends⟩ .nil,
                      .writing (kept.trans linger), stream, uncrossed.tail.take⟩
  | @writing conn linger =>
      cases event with
      | read | process => contradiction
      | write results =>
          obtain ⟨outcome, written, same⟩ := Option.map_eq_some_iff.mp stepped
          cases same
          refine ⟨[], requests, [], rfl, .nil, ?_, stream, uncrossed.tail⟩
          rcases HttpConn.write_turns written (undisturbed outcome written) with
            ⟨ret, armed, slot, fresh⟩ | ⟨ret, armed, kept⟩ | ⟨_, closes⟩
          · simp only [ret, if_true, armed]
            exact .fresh requests fresh
          · simp only [ret, if_true, armed]
            exact .writing (kept.trans linger)
          · rw [linger] at closes
            contradiction

/-- A run on such a connection hands all of the requests to `do_request`, in order. -/
theorem Awaits.run {requests : List BodilessRequest} {connection last : Connection}
    {events : List ConnectionEvent} {calls : List HttpConn} {part : List UInt8}
    (awaits : Awaits requests connection part)
    (stream : part ++ (events.map ConnectionEvent.bytes).flatten =
      (requests.map BodilessRequest.text).flatten)
    (uncrossed : Uncrossed part.length (requests.map fun request => request.text.length)
      (events.map fun event => event.bytes.length))
    (undisturbed : RunMeets Connection.step Undisturbed connection events)
    (ran : Support.run Connection.step connection events = some (last, calls))
    (processed : last.stage ≠ .queued) : List.Forall₂ AskedFor calls requests := by
  induction events generalizing requests connection calls part with
  | nil =>
      cases ran
      rw [List.map_nil, List.flatten_nil, List.append_nil] at stream
      cases requests with
      | nil => exact .nil
      | cons request later =>
          have lengths := congrArg List.length stream
          rw [List.map_cons, List.flatten_cons, List.length_append] at lengths
          cases awaits with
          | reading _ _ _ missing =>
              have short := missing request rfl
              omega
          | queued => exact absurd rfl processed
          | writing =>
              have some := text_pos request
              rw [List.length_nil] at lengths
              omega
  | cons event events ih =>
      obtain ⟨next, first, rest, stepped, later, rfl⟩ := run_cons ran
      obtain ⟨asked, behind, nextPart, rfl, calls, nextAwaits, nextStream, nextUncrossed⟩ :=
        awaits.step stream uncrossed undisturbed.1 stepped
      exact List.rel_append calls
        (ih nextAwaits nextStream nextUncrossed (undisturbed.2 next first stepped) later)

/-! ## From the calls to the bytes -/

theorem readIdx_of_askedFor {call : HttpConn} {request : BodilessRequest}
    (asked : AskedFor call request) : call.readIdx.toNat = request.text.length := by
  obtain ⟨slot, returned⟩ := asked
  have received := (RequestState.processRead_inside (Int.le_max_left _ _) (Int.le_max_right _ _)
    returned).1
  rw [received]
  simp [RequestState.receive, RequestState.init]

theorem sizes_of_asked {calls : List HttpConn} {requests : List BodilessRequest}
    (asked : List.Forall₂ AskedFor calls requests) :
    calls.map (fun call => call.readIdx.toNat) = requests.map fun request =>
      request.text.length := by
  induction asked with
  | nil => rfl
  | cons first _ ih => rw [List.map_cons, List.map_cons, readIdx_of_askedFor first, ih]

/-- **Keep-alive loses no request exactly if no read brings bytes of two.**  For requests without
a body that are sent back to back on one connection, however their bytes are grouped into reads,
`do_request` is called once for each of them, in order, if and only if every request ends in
front of a read or behind it.  `init()` drops what has been read behind a request. -/
theorem asked_iff_uncrossed {slot : HttpConn} {sockfd trigMode : Int} {root : List UInt8}
    {requests : List BodilessRequest} {events : List ConnectionEvent} {last : Connection}
    {calls : List HttpConn}
    (ran : Support.run step (opened slot sockfd root trigMode) events = some (last, calls))
    (undisturbed : RunMeets step Undisturbed (opened slot sockfd root trigMode) events)
    (sent : (events.map ConnectionEvent.bytes).flatten =
      (requests.map BodilessRequest.text).flatten)
    (processed : last.stage ≠ .queued) :
    List.Forall₂ AskedFor calls requests ↔
      Uncrossed 0 (requests.map fun request => request.text.length)
        (events.map fun event => event.bytes.length) := by
  constructor
  · intro asked
    have shifts := run_shifts (opened_counted slot sockfd root trigMode) undisturbed ran
    rw [sizes_of_asked asked] at shifts
    refine shifts.uncrossed ?_
    have lengths := congrArg List.length sent
    simp only [List.length_flatten, List.map_map, Function.comp_def] at lengths
    rw [← lengths]
    exact (Nat.zero_add _).symm
  · intro uncrossed
    exact (Awaits.fresh requests rfl).run sent uncrossed undisturbed ran processed

/-- A request for a page. -/
def pageRequest : BodilessRequest where
  line := ascii "GET /a HTTP/1.1"
  target := ascii "/a"
  headers := [ascii "Connection: keep-alive"]
  shaped := ⟨ascii "GET", [32], [32], ascii "HTTP/1.1", rfl, .inl (by decide),
    by unfold Gap; decide, by unfold Gap; decide, by decide, by decide⟩
  hasPath := .inl (by decide)
  clean := by
    unfold RequestState.Clean RequestState.Plain
    decide
  headersClean := by
    unfold RequestState.Clean RequestState.Plain
    decide
  bodiless := by decide
  keepAlive := by decide
  short := by decide

/-- The response to it is written. -/
def written : ConnectionEvent :=
  .write [.accepted 112]

theorem asked_iff_uncrossed_page :
    ∃ last calls,
      Support.run step (opened HttpConn.blank 7 (ascii "/root") 0)
          [.read [.data pageRequest.text], .process Env.blank none, written,
            .read [.data pageRequest.text], .process Env.blank none] = some (last, calls) ∧
        (List.Forall₂ AskedFor calls [pageRequest, pageRequest] ↔
          Uncrossed 0 [43, 43] [43, 0, 0, 43, 0]) := by
  have facts : (Support.run step (opened HttpConn.blank 7 (ascii "/root") 0)
      [.read [.data pageRequest.text], .process Env.blank none, written,
        .read [.data pageRequest.text], .process Env.blank none]).map (fun outcome =>
      outcome.1.stage) = some .writing := by
    decide +kernel
  obtain ⟨⟨last, calls⟩, ran, stage⟩ := Option.map_eq_some_iff.mp facts
  refine ⟨last, calls, ran, asked_iff_uncrossed ran (by decide +kernel) (by decide) ?_⟩
  rw [show last.stage = .writing from stage]
  decide

/-- Of two requests that one read brings, `do_request` is called for the first one only. -/
theorem not_asked_twice :
    ∃ last calls,
      Support.run step (opened HttpConn.blank 7 (ascii "/root") 0)
          [.read [.data (pageRequest.text ++ pageRequest.text)], .process Env.blank none,
            written] = some (last, calls) ∧
        RunMeets step Undisturbed (opened HttpConn.blank 7 (ascii "/root") 0)
          [.read [.data (pageRequest.text ++ pageRequest.text)], .process Env.blank none,
            written] ∧
        ([ConnectionEvent.read [.data (pageRequest.text ++ pageRequest.text)],
            .process Env.blank none, written].map ConnectionEvent.bytes).flatten =
          ([pageRequest, pageRequest].map BodilessRequest.text).flatten ∧
        last.stage = .reading ∧ ¬List.Forall₂ AskedFor calls [pageRequest, pageRequest] := by
  have facts : (Support.run step (opened HttpConn.blank 7 (ascii "/root") 0)
      [.read [.data (pageRequest.text ++ pageRequest.text)], .process Env.blank none,
        written]).map (fun outcome => (outcome.1.stage, outcome.2.length)) =
      some (.reading, 1) := by
    decide +kernel
  obtain ⟨⟨last, calls⟩, ran, ends⟩ := Option.map_eq_some_iff.mp facts
  rw [Prod.mk.injEq] at ends
  refine ⟨last, calls, ran, by decide +kernel, by decide, ends.1, fun asked => ?_⟩
  have lengths := ends.2.symm.trans asked.length_eq
  simp at lengths

end Connection

end TimeGANWebServer.Http

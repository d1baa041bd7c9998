import TimeGANWebServer.Http.Independence

/-!
# Mappings of files

`do_request` maps the file a request names, and `unmap()` releases the mapping when `write`
has sent the response or fails.  The address and the length are separate members, `init()`
keeps both, and a close by the timer does not go through `unmap()`.
-/

namespace TimeGANWebServer.Http

open TimeGANWebServer.Support

/-! ## Mappings of a slot -/

/-- A mapping of the process. -/
structure Mapping where
  address : Nat
  length : Nat
  deriving DecidableEq, Repr

/-- A slot, whether its connection is closed, and the mappings of its requests that are live. -/
structure MappedSlot where
  conn : HttpConn
  closed : Bool
  live : List Mapping

/-- A call of `munmap` with the mappings that are live before it, or a response that has been
sent completely with those that are live then. -/
inductive MappingEvent where
  | munmap (address : FileAddress) (length : Nat) (live : List Mapping)
  | sent (live : List Mapping)

/-- The mapping a call of `do_request` makes, if it comes to `mmap` and this succeeds. -/
def Reply.made (reply : Reply) : List Mapping :=
  match reply.code, reply.conn.fileAddress with
  | .fileRequest, .mapped address _ => [⟨address, reply.conn.fileStat.size⟩]
  | _, _ => []

/-- `munmap` releases a mapping when it is called with its address and its length. -/
def munmap (address : FileAddress) (length : Nat) (live : List Mapping) : List Mapping :=
  match address with
  | .mapped place _ => live.erase ⟨place, length⟩
  | _ => live

/-- A call of `write` that ends so has called `unmap()`. -/
def WriteEnd.Unmaps (ended : WriteEnd) : Prop :=
  ended = .complete ∨ ended = .failed

instance decidableUnmaps (ended : WriteEnd) : Decidable ended.Unmaps :=
  inferInstanceAs (Decidable (_ ∨ _))

/-- Whether one of the calls closes the connection. -/
def closes (fdCalls : List FdCall) : Bool :=
  fdCalls.any fun
    | .closeConn _ => true
    | _ => false

namespace MappedSlot

/-- A slot that has never been used. -/
def unused : MappedSlot where
  conn := HttpConn.blank
  closed := true
  live := []

/-- The call of `munmap` in `unmap()`. -/
def unmapCalls (slot : MappedSlot) : List MappingEvent :=
  if slot.conn.fileAddress = .null then []
  else [.munmap slot.conn.fileAddress slot.conn.fileStat.size slot.live]

/-- One event of a slot.  The connection is closed when `read_once` or `write` returns false, by
`process`, or by `cb_func` for the timer and for a hangup, which leaves the slot as it is. -/
def step (root : List UInt8) (slot : MappedSlot) :
    SlotEvent → Option (MappedSlot × List MappingEvent)
  | .connect sockfd trigMode =>
      if slot.closed then
        some ({ slot with conn := slot.conn.initFor sockfd root trigMode, closed := false }, [])
      else
        none
  | .read results =>
      (slot.conn.readOnce slot.conn.trigMode results).map fun read =>
        ({ slot with
            conn := { slot.conn with toRequestState := read.2 }
            closed := slot.closed || !read.1 }, [])
  | .process env mysql =>
      let conn := { slot.conn with mysql := mysql }
      match conn.processRead env, conn.process env with
      | .ok reply, .ok processed =>
          some ({
            conn := processed.conn
            closed := slot.closed || closes processed.fdCalls
            live := slot.live ++ reply.made }, [])
      | _, _ => none
  | .write results =>
      (slot.conn.write results).map fun outcome =>
        let live := if outcome.ended.Unmaps then
            munmap slot.conn.fileAddress slot.conn.fileStat.size slot.live
          else
            slot.live
        ({ conn := outcome.conn, closed := slot.closed || !outcome.ret, live := live },
          (if outcome.ended.Unmaps then slot.unmapCalls else []) ++
            if outcome.ended = .complete then [.sent live] else [])
  | .close => some ({ slot with closed := true }, [])

end MappedSlot

/-- A call of `munmap` releases the one live mapping with the length it was made with, and a
response that has been sent leaves no mapping. -/
def MappingEvent.Good : MappingEvent → Prop
  | .munmap address length live =>
      ∃ place bytes, address = .mapped place bytes ∧ live = [⟨place, length⟩]
  | .sent live => live = []

/-- The mappings of a slot are balanced at the end of a run. -/
structure MappedSlot.Balanced (slot : MappedSlot) (events : List MappingEvent) : Prop where
  one : slot.live.length ≤ 1
  closed : slot.closed = true → slot.live = []
  events : ∀ event ∈ events, event.Good

namespace MappedSlot

/-- A request is completed only when `m_file_address` is null, and the file it names can be mapped
and is not mapped for a closed connection. -/
def Completes (slot : MappedSlot) (env : Env) (mysql : Option Nat) : ReadOutcome → Prop
  | .code ret _ => ret = .noRequest ∨ slot.conn.fileAddress = .null
  | .request request =>
      slot.conn.fileAddress = .null ∧
        ∀ file ∈ ({ slot.conn with toRequestState := request, mysql := mysql } :
            HttpConn).served env,
          env.mapFile file ≠ .failed ∧ slot.closed = false
  | .fault _ _ => True

/-- What keeps the mappings of a slot balanced: a connection is closed only when
`m_file_address` is null, and so is a request completed. -/
def Releases (slot : MappedSlot) : SlotEvent → Prop
  | .connect _ _ => True
  | .read results =>
      ∀ read ∈ slot.conn.readOnce slot.conn.trigMode results,
        read.1 = false → slot.conn.fileAddress = .null
  | .process env mysql => slot.Completes env mysql slot.conn.toRequestState.readOutcome
  | .write _ => True
  | .close => slot.conn.fileAddress = .null

instance decidableCompletes (slot : MappedSlot) (env : Env) (mysql : Option Nat) :
    (outcome : ReadOutcome) → Decidable (slot.Completes env mysql outcome)
  | .code _ _ => inferInstanceAs (Decidable (_ ∨ _))
  | .request _ => inferInstanceAs (Decidable (_ ∧ ∀ file ∈ _, _ ∧ _))
  | .fault _ _ => .isTrue trivial

instance decidableReleases (slot : MappedSlot) :
    (event : SlotEvent) → Decidable (slot.Releases event)
  | .connect _ _ => .isTrue trivial
  | .read _ => inferInstanceAs (Decidable (∀ read ∈ _, _ → _))
  | .process _ _ => decidableCompletes slot _ _ _
  | .write _ => .isTrue trivial
  | .close => inferInstanceAs (Decidable (_ = _))

/-- The mapping of a slot is the one of `m_file_address` with the length in `m_file_stat`, and
its connection is open. -/
def Holds (slot : MappedSlot) : Prop :=
  slot.conn.fileAddress = .null ∧ slot.live = [] ∨
    ∃ address bytes, slot.conn.fileAddress = .mapped address bytes ∧
      slot.live = [⟨address, slot.conn.fileStat.size⟩] ∧ slot.closed = false

end MappedSlot

/-! ## The address and the length -/

/-- Two states with the same address and status of a file. -/
structure SameFile (before after : ResponseState) : Prop where
  address : after.fileAddress = before.fileAddress
  stat : after.fileStat = before.fileStat

theorem SameFile.refl (response : ResponseState) : SameFile response response :=
  ⟨rfl, rfl⟩

theorem SameFile.trans {first second third : ResponseState} (left : SameFile first second)
    (right : SameFile second third) : SameFile first third :=
  ⟨right.address.trans left.address, right.stat.trans left.stat⟩

namespace ResponseState

theorem Extends.sameFile {before after : ResponseState} (extends_ : Extends before after) :
    SameFile before after :=
  ⟨extends_.file.2, extends_.file.1⟩

theorem addRedirect_sameFile (response : ResponseState) (headers : List (List UInt8)) :
    SameFile response (response.addRedirect headers) := by
  have lines : ∀ (headers : List (List UInt8)) (begun : ResponseState),
      Extends begun (headers.foldl
        (fun response header => (ResponseState.addResponse response header).2) begun) := by
    intro headers
    induction headers with
    | nil => exact Extends.refl
    | cons header headers ih =>
        intro begun
        exact (extends_addResponse begun header).trans (ih _)
  have status : Extends response (response.addStatusLine 302 (ascii "Found")).2 :=
    extends_addResponse _ _
  exact ((status.trans (lines headers _)).trans (extends_addResponse _ _)).sameFile

theorem queueBuffer_sameFile (response : ResponseState) :
    SameFile response response.queueBuffer :=
  ⟨rfl, rfl⟩

theorem queueBody_sameFile (response : ResponseState) (base : IovBase) (size : Nat) :
    SameFile response (response.queueBody base size) :=
  ⟨rfl, rfl⟩

theorem finishPage_sameFile (response : ResponseState) (content : List UInt8) :
    SameFile response (response.finishPage content).2 := by
  have added : Extends response (response.addContent content).2 := extends_addResponse _ _
  simp only [finishPage]
  split
  case _ next full => exact (full ▸ added).sameFile
  case _ next fitted => exact (fitted ▸ added).sameFile.trans next.queueBuffer_sameFile

theorem addHeaders_sameFile (response : ResponseState) (linger : Bool) (contentLen : Int) :
    SameFile response (response.addHeaders linger contentLen).2 :=
  (extends_addHeaders response linger contentLen).sameFile

/-- `process_write` keeps the file. -/
theorem processWrite_sameFile (response : ResponseState) (linger : Bool) (ret : HttpCode) :
    SameFile response (response.processWrite linger ret).2 := by
  have status : ∀ code title, SameFile response (response.addStatusLine code title).2 :=
    fun code title => (extends_addResponse response _).sameFile
  cases ret
  case fileRequest =>
      rw [processWrite_fileRequest]
      simp only []
      split
      · exact (status _ _).trans
          ((addHeaders_sameFile _ _ _).trans (queueBody_sameFile _ _ _))
      · exact (status _ _).trans
          ((addHeaders_sameFile _ _ _).trans (finishPage_sameFile _ _))
  case noResource | internalError =>
      exact (status _ _).trans ((addHeaders_sameFile _ _ _).trans (finishPage_sameFile _ _))
  case diagnoseRequest =>
      simp only [processWrite]
      refine SameFile.trans (Extends.sameFile ?_) (finishPage_sameFile _ _)
      simp only [addStatusLine, addContentLength, addContentType, addLinger, addBlankLine]
      iterate 5 apply Extends.addResponse
      exact Extends.refl response
  case diagnoseCsvRequest =>
      simp only [processWrite]
      exact (extends_csvHeader response linger).sameFile.trans (queueBody_sameFile _ _ _)
  all_goals
    simp only [processWrite]
    exact (status _ _).trans ((addHeaders_sameFile _ _ _).trans (queueBuffer_sameFile _))

theorem advance_sameFile (response : ResponseState) (count : Nat) :
    SameFile response (response.advance count) :=
  ⟨fileAddress_advance response count, fileStat_advance response count⟩

/-- The loop of `write` keeps the status of the file, and the address until it unmaps. -/
theorem sendLoop_file {response : ResponseState} {results : List WritevResult} {loop : SendLoop}
    (looped : response.sendLoop results = some loop) :
    loop.ended ≠ .idle ∧ loop.response.fileStat = response.fileStat ∧
      loop.response.fileAddress =
        if loop.ended.Unmaps then .null else response.fileAddress := by
  have course := sends_of_sendLoop looped
  clear looped
  induction course with
  | again => exact ⟨WriteEnd.noConfusion, rfl, rfl⟩
  | failed => exact ⟨WriteEnd.noConfusion, rfl, rfl⟩
  | @last response count =>
      exact ⟨WriteEnd.noConfusion, (response.advance_sameFile count).stat, rfl⟩
  | @next response count _ _ _ _ _ ih =>
      have kept := response.advance_sameFile count
      obtain ⟨busy, stat, address⟩ := ih
      exact ⟨busy, stat.trans kept.stat, by rw [address, kept.address]⟩

end ResponseState

namespace HttpConn

/-- A call of `write` keeps the status of the file, and the address unless it unmaps. -/
theorem write_file {conn : HttpConn} {results : List WritevResult} {outcome : WriteOutcome}
    (written : conn.write results = some outcome) :
    outcome.conn.fileStat = conn.fileStat ∧
      outcome.conn.fileAddress =
        if outcome.ended.Unmaps then .null else conn.fileAddress := by
  simp only [write] at written
  split at written
  · cases written
    exact ⟨rfl, rfl⟩
  · obtain ⟨loop, looped, rfl⟩ := Option.map_eq_some_iff.mp written
    obtain ⟨busy, stat, address⟩ := ResponseState.sendLoop_file looped
    obtain ⟨ended, response, writevs⟩ := loop
    cases ended with
    | idle => exact absurd rfl busy
    | complete =>
        simp only []
        split
        · exact ⟨stat, address⟩
        · exact ⟨stat, address⟩
    | again => exact ⟨stat, address⟩
    | failed => exact ⟨stat, address⟩

/-- A call of `write` that returns false has unmapped. -/
theorem write_false {conn : HttpConn} {results : List WritevResult} {outcome : WriteOutcome}
    (written : conn.write results = some outcome) (refused : outcome.ret = false) :
    outcome.ended.Unmaps := by
  simp only [write] at written
  split at written
  · cases written
    contradiction
  · obtain ⟨loop, looped, rfl⟩ := Option.map_eq_some_iff.mp written
    obtain ⟨ended, response, writevs⟩ := loop
    cases ended with
    | idle => exact .inr rfl
    | complete => exact .inl rfl
    | again => contradiction
    | failed => exact .inr rfl

theorem closeConn_sameFile (conn : HttpConn) :
    SameFile conn.toResponseState conn.closeConn.1.toResponseState := by
  simp only [closeConn]
  split
  · exact ⟨rfl, rfl⟩
  · exact ⟨rfl, rfl⟩

theorem serveFile_address (conn : HttpConn) (env : Env) (checkDir : Bool)
    (users : List UInt8 → Option (List UInt8)) (sessions : List SessionCall)
    (other : (conn.serveFile env checkDir users sessions).code ≠ .fileRequest) :
    (conn.serveFile env checkDir users sessions).conn.fileAddress = conn.fileAddress := by
  simp only [serveFile] at other ⊢
  split
  · rfl
  · split
    · rfl
    · split
      · rfl
      · simp_all

theorem afterLogin_address {conn : HttpConn} {env : Env} {url : Int}
    {sessions : List SessionCall} {reply : Reply}
    (done : conn.afterLogin env url sessions = .ok reply) (other : reply.code ≠ .fileRequest) :
    reply.conn.fileAddress = conn.fileAddress := by
  simp only [afterLogin] at done
  split at done
  · simp only [diagnosePost] at done
    split at done
    · contradiction
    · split at done
      · contradiction
      · cases done
        rfl
      · cases done
        rfl
  · simp only [staticFiles] at done
    split at done
    · contradiction
    case _ redirect resolved =>
        cases done
        rcases resolve_cases resolved with ⟨_, _, same, isRedirect⟩ | ⟨_, _, _, _, same, _⟩
        · cases same
          obtain ⟨headers, _, response⟩ := isRedirect.response
          rw [response]
          exact (ResponseState.addRedirect_sameFile _ _).address
        · cases same
    case _ target users last resolved =>
        cases done
        rcases resolve_cases resolved with ⟨_, _, same, _⟩ | ⟨_, _, _, _, same, response, _⟩
        · cases same
        · cases same
          rw [serveFile_address _ _ _ _ _ other, response]

/-- A request that is not answered with a file keeps `m_file_address`. -/
theorem doRequest_address {conn : HttpConn} {env : Env} {reply : Reply}
    (done : conn.doRequest env = .ok reply) (other : reply.code ≠ .fileRequest) :
    reply.conn.fileAddress = conn.fileAddress := by
  simp only [doRequest] at done
  split at done
  · contradiction
  · split at done
    · split at done
      · cases done
        exact (ResponseState.addRedirect_sameFile _ _).address
      · split at done
        · simp only [rootPage] at done
          split at done
          · contradiction
          · cases done
            exact serveFile_address conn.rootFile env false env.users _ other
        · exact afterLogin_address done other
    · exact afterLogin_address done other

/-- `do_request` maps the file a request names, or keeps `m_file_address`. -/
theorem doRequest_file {conn : HttpConn} {env : Env} {reply : Reply}
    (done : conn.doRequest env = .ok reply) :
    (reply.code = .fileRequest ∧ ∃ file, conn.served env = some file ∧
        reply.conn.fileStat = file.stat ∧ reply.conn.fileAddress = env.mapFile file) ∨
      reply.code ≠ .fileRequest ∧ reply.conn.fileAddress = conn.fileAddress := by
  by_cases code : reply.code = .fileRequest
  · refine .inl ⟨code, ?_⟩
    rcases doRequest_cases done with ⟨_, isRedirect⟩ | ⟨_, isPage⟩
    · rw [isRedirect.code] at code
      contradiction
    · exact isPage.file code
  · exact .inr ⟨code, doRequest_address done code⟩

end HttpConn

/-- A file that can be mapped is not empty. -/
theorem Env.mapFile_mapped {env : Env} {file : File} (mappable : env.mapFile file ≠ .failed) :
    file.stat.size ≠ 0 ∧ ∃ bytes, env.mapFile file = .mapped env.mapAddress bytes := by
  have sized := file.sized
  cases content : file.content with
  | none => simp [Env.mapFile, content] at mappable
  | some bytes =>
      have length := sized bytes content
      cases bytes with
      | nil => simp [Env.mapFile, content] at mappable
      | cons byte bytes =>
          constructor
          · rw [← length]
            exact Nat.succ_ne_zero _
          · exact ⟨byte :: bytes, by simp only [Env.mapFile, content]⟩

/-- Without a file there is no mapping. -/
theorem Reply.made_of_ne {reply : Reply} (other : reply.code ≠ .fileRequest) :
    reply.made = [] := by
  simp only [Reply.made]
  split
  case h_1 isFile _ => exact absurd isFile other
  case h_2 => rfl

namespace HttpConn

/-- What `process` keeps of the file of a reply, and when it closes the connection. -/
theorem process_file {conn : HttpConn} {env : Env} {reply : Reply} {processed : Processed}
    (read : conn.processRead env = .ok reply) (done : conn.process env = .ok processed) :
    SameFile reply.conn.toResponseState processed.conn.toResponseState ∧
      (closes processed.fdCalls = true → reply.code ≠ .noRequest ∧
        (reply.conn.toResponseState.processWrite reply.conn.linger reply.code).1 = false) := by
  simp only [process, read] at done
  split at done
  case isTrue more =>
      cases done
      exact ⟨SameFile.refl _, by simp [closes]⟩
  case isFalse complete =>
      cases done
      have kept := reply.conn.toResponseState.processWrite_sameFile reply.conn.linger reply.code
      simp only []
      split
      · exact ⟨kept, by simp [closes]⟩
      case isFalse failed =>
          have closing := closeConn_sameFile { reply.conn with
            toResponseState := (reply.conn.processWrite reply.conn.linger reply.code).2 }
          refine ⟨SameFile.trans kept closing, fun _ => ⟨complete, ?_⟩⟩
          simpa using failed

end HttpConn

namespace MappedSlot

/-- The mapping a slot holds when its address is null: none. -/
theorem Holds.nothing {slot : MappedSlot} (holds : slot.Holds)
    (null : slot.conn.fileAddress = .null) : slot.live = [] := by
  rcases holds with ⟨_, nothing⟩ | ⟨address, bytes, mapped, _⟩
  · exact nothing
  · rw [null] at mapped
    contradiction

/-- What a slot holds depends on the address, the status, and whether it is closed. -/
theorem Holds.same {slot next : MappedSlot} (holds : slot.Holds)
    (file : SameFile slot.conn.toResponseState next.conn.toResponseState)
    (live : next.live = slot.live) (closed : next.closed = slot.closed) : next.Holds := by
  simp only [Holds, file.address, file.stat, live, closed]
  exact holds

theorem holds_process {root : List UInt8} {slot next : MappedSlot} {env : Env}
    {mysql : Option Nat} {events : List MappingEvent} (holds : slot.Holds)
    (releases : slot.Releases (.process env mysql))
    (stepped : slot.step root (.process env mysql) = some (next, events)) :
    next.Holds ∧ events = [] := by
  simp only [step] at stepped
  split at stepped
  case h_2 => contradiction
  case h_1 reply processed read done =>
      cases stepped
      obtain ⟨file, closing⟩ := HttpConn.process_file read done
      refine ⟨?_, rfl⟩
      simp only [HttpConn.processRead] at read
      simp only [Releases] at releases
      split at read
      case h_3 => contradiction
      case h_1 ret request ended =>
          cases read
          rw [ended] at releases
          have notFile : ret ≠ .fileRequest := by
            rcases RequestState.readOutcome_code ended with rfl | rfl
            · exact HttpCode.noConfusion
            · exact HttpCode.noConfusion
          rw [Reply.made_of_ne notFile, List.append_nil]
          rcases releases with rfl | null
          · refine holds.same file rfl ?_
            cases closed : closes processed.fdCalls with
            | true => exact absurd rfl (closing closed).1
            | false => exact Bool.or_false _
          · exact .inl ⟨file.address.trans null, holds.nothing null⟩
      case h_2 request ended =>
          rw [ended] at releases
          obtain ⟨null, mappable⟩ := releases
          have empty := holds.nothing null
          rcases HttpConn.doRequest_file read with
            ⟨code, served, isServed, stat, address⟩ | ⟨code, address⟩
          · obtain ⟨canMap, isOpen⟩ := mappable served isServed
            obtain ⟨size, bytes, mapped⟩ := Env.mapFile_mapped canMap
            rw [mapped] at address
            refine .inr ⟨env.mapAddress, bytes, file.address.trans address, ?_, ?_⟩
            · simp only [empty, List.nil_append, Reply.made, code, address]
              rw [file.stat]
            · cases closed : closes processed.fdCalls with
              | true =>
                  have failed := (closing closed).2
                  rw [code, ResponseState.processWrite_fileRequest] at failed
                  simp [stat, size] at failed
              | false => simp [isOpen]
          · refine .inl ⟨(file.address.trans address).trans null, ?_⟩
            rw [Reply.made_of_ne code, empty, List.append_nil]

theorem holds_write {root : List UInt8} {slot next : MappedSlot} {results : List WritevResult}
    {events : List MappingEvent} (holds : slot.Holds)
    (stepped : slot.step root (.write results) = some (next, events)) :
    next.Holds ∧ ∀ event ∈ events, event.Good := by
  obtain ⟨outcome, written, same⟩ := Option.map_eq_some_iff.mp stepped
  cases same
  obtain ⟨stat, address⟩ := HttpConn.write_file written
  by_cases unmaps : outcome.ended.Unmaps
  · have nothing : munmap slot.conn.fileAddress slot.conn.fileStat.size slot.live = [] := by
      rcases holds with ⟨null, empty⟩ | ⟨place, bytes, mapped, live, _⟩
      · rw [null, empty]
        rfl
      · rw [mapped, live]
        simp [munmap]
    have calls : ∀ event ∈ slot.unmapCalls, event.Good := by
      intro event member
      rcases holds with ⟨null, _⟩ | ⟨place, bytes, mapped, live, _⟩
      · simp [unmapCalls, null] at member
      · simp only [unmapCalls, mapped, reduceCtorEq, if_false, List.mem_singleton] at member
        subst member
        exact ⟨place, bytes, rfl, live⟩
    rw [if_pos unmaps] at address
    simp only [if_pos unmaps, nothing]
    refine ⟨.inl ⟨address, rfl⟩, fun event member => ?_⟩
    rcases List.mem_append.mp member with called | sent
    · exact calls event called
    · split at sent
      · rw [List.mem_singleton] at sent
        subst sent
        rfl
      · contradiction
  · have goes : outcome.ret = true := by
      cases ret : outcome.ret with
      | true => rfl
      | false => exact absurd (HttpConn.write_false written ret) unmaps
    have incomplete : outcome.ended ≠ .complete := fun complete => unmaps (.inl complete)
    rw [if_neg unmaps] at address
    simp only [if_neg unmaps, if_neg incomplete, List.append_nil, goes]
    exact ⟨holds.same ⟨address, stat⟩ rfl (Bool.or_false _), List.forall_mem_nil _⟩

/-- An event that meets the condition keeps what the slot holds. -/
theorem holds_step {root : List UInt8} {slot next : MappedSlot} {event : SlotEvent}
    {events : List MappingEvent} (holds : slot.Holds) (releases : slot.Releases event)
    (stepped : slot.step root event = some (next, events)) :
    next.Holds ∧ ∀ event ∈ events, event.Good := by
  cases event with
  | connect sockfd trigMode =>
      simp only [step] at stepped
      split at stepped
      case isTrue closed =>
          cases stepped
          refine ⟨?_, List.forall_mem_nil _⟩
          rcases holds with ⟨null, empty⟩ | ⟨_, _, _, _, isOpen⟩
          · exact .inl ⟨null, empty⟩
          · rw [closed] at isOpen
            contradiction
      case isFalse => contradiction
  | read results =>
      obtain ⟨⟨succeeds, request⟩, read, same⟩ := Option.map_eq_some_iff.mp stepped
      cases same
      refine ⟨?_, List.forall_mem_nil _⟩
      cases succeeds with
      | true => exact holds.same ⟨rfl, rfl⟩ rfl (Bool.or_false _)
      | false =>
          have null := releases _ read rfl
          exact .inl ⟨null, holds.nothing null⟩
  | process env mysql =>
      obtain ⟨kept, rfl⟩ := holds_process holds releases stepped
      exact ⟨kept, List.forall_mem_nil _⟩
  | write results => exact holds_write holds stepped
  | close =>
      cases stepped
      exact ⟨.inl ⟨releases, holds.nothing releases⟩, List.forall_mem_nil _⟩

theorem Holds.one {slot : MappedSlot} (holds : slot.Holds) : slot.live.length ≤ 1 := by
  rcases holds with ⟨_, empty⟩ | ⟨_, _, _, live, _⟩
  · rw [empty]
    exact Nat.zero_le 1
  · rw [live]
    exact Nat.le_refl 1

theorem Holds.none_of_closed {slot : MappedSlot} (holds : slot.Holds)
    (closed : slot.closed = true) : slot.live = [] := by
  rcases holds with ⟨_, empty⟩ | ⟨_, _, _, _, isOpen⟩
  · exact empty
  · rw [closed] at isOpen
    contradiction

/-- The mappings of a slot are balanced in every run whose events meet the condition. -/
theorem balanced_of_run {root : List UInt8} {last : MappedSlot} {history : List SlotEvent}
    {events : List MappingEvent} (ran : run (step root) unused history = some (last, events))
    (releases : RunMeets (step root) Releases unused history) : last.Balanced events := by
  have kept : last.Holds ∧ ∀ event ∈ [] ++ events, event.Good := by
    have fresh : unused.Holds ∧ ∀ event ∈ ([] : List MappingEvent), event.Good :=
      ⟨.inl ⟨rfl, rfl⟩, List.forall_mem_nil _⟩
    refine run_invariant (fun slot log => slot.Holds ∧ ∀ event ∈ log, event.Good) ?_ fresh
      releases ran
    intro slot log event next made held meets stepped
    obtain ⟨holds, good⟩ := holds_step held.1 meets stepped
    exact ⟨holds, List.forall_mem_append.mpr ⟨held.2, good⟩⟩
  exact ⟨kept.1.one, kept.1.none_of_closed, kept.2⟩

theorem not_balanced_of_held {slot : MappedSlot} {events : List MappingEvent}
    (closed : slot.closed = true) {mapping : Mapping} (live : slot.live = [mapping]) :
    ¬slot.Balanced events := by
  intro balanced
  have empty := balanced.closed closed
  rw [live] at empty
  exact List.cons_ne_nil _ _ empty

/-- A connection that is closed against the condition leaves its mapping. -/
theorem not_balanced_of_disconnect {root : List UInt8} {slot next : MappedSlot}
    {event : SlotEvent} {events : List MappingEvent} (holds : slot.Holds)
    (disconnects : event = .close ∨ ∃ results, event = .read results)
    (misses : ¬slot.Releases event)
    (stepped : slot.step root event = some (next, events)) : ¬next.Balanced events := by
  have mapped : slot.conn.fileAddress ≠ .null → ∃ mapping, slot.live = [mapping] := by
    intro notNull
    rcases holds with ⟨null, _⟩ | ⟨_, _, _, live, _⟩
    · exact absurd null notNull
    · exact ⟨_, live⟩
  rcases disconnects with rfl | ⟨results, rfl⟩
  · cases stepped
    obtain ⟨mapping, live⟩ := mapped misses
    exact not_balanced_of_held rfl live
  · obtain ⟨⟨succeeds, request⟩, read, same⟩ := Option.map_eq_some_iff.mp stepped
    cases same
    cases succeeds with
    | true =>
        refine absurd ?_ misses
        intro other isRead failed
        rw [Option.mem_def, read, Option.some.injEq] at isRead
        subst isRead
        contradiction
    | false =>
        obtain ⟨mapping, live⟩ := mapped fun null => misses fun _ _ _ => null
        exact not_balanced_of_held (Bool.or_true _) live

/-- A connection requests a page, and the server maps it. -/
def mapsPage : List SlotEvent :=
  [.connect 7 0, .read [.data (ascii "GET /a HTTP/1.1\r\n\r\n")],
    .process (Env.withFile (ascii "/root/a") (ascii "hi")) none]

/-- A page is requested, mapped and sent in two writes; the next connection comes after it. -/
theorem balanced_of_run_page : ∃ last events,
    run (step (ascii "/root")) unused (mapsPage ++
      [.write [.accepted 40, .again], .write [.accepted 17], .close, .connect 7 0]) =
        some (last, events) ∧ last.Balanced events := by
  have facts : (run (step (ascii "/root")) unused (mapsPage ++
      [.write [.accepted 40, .again], .write [.accepted 17], .close, .connect 7 0])).isSome := by
    decide +kernel
  obtain ⟨⟨last, events⟩, ran⟩ := Option.isSome_iff_exists.mp facts
  exact ⟨last, events, ran, balanced_of_run ran (by decide +kernel)⟩

/-- When the timer closes the connection before the response has been sent, the mapping stays. -/
theorem not_balanced_of_timer : ∃ last events,
    run (step (ascii "/root")) unused (mapsPage ++ [.close]) = some (last, events) ∧
      ¬last.Balanced events := by
  have facts : (run (step (ascii "/root")) unused (mapsPage ++ [.close])).map
      (fun outcome => (outcome.1.closed, outcome.1.live)) = some (true, [⟨4096, 2⟩]) := by
    decide +kernel
  obtain ⟨⟨last, events⟩, ran, ends⟩ := Option.map_eq_some_iff.mp facts
  rw [Prod.mk.injEq] at ends
  exact ⟨last, events, ran, not_balanced_of_held ends.1 ends.2⟩

end MappedSlot

end TimeGANWebServer.Http

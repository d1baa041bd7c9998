import TimeGANWebServer.Http.Formatting
import TimeGANWebServer.Http.Process

/-!
# Responses that do not fit

`process_write` returns false when a page does not fit into the write buffer.  The answer to
`POST /diagnose` can be as long as the client wants: an exception's message may quote the
body, and is sent back in the JSON text.
-/

namespace TimeGANWebServer.Http

open TimeGANWebServer.Support

namespace ResponseState

/-- JSON text that does not fit by itself makes `process_write` return false. -/
theorem processWrite_json_long {response : ResponseState} (linger : Bool)
    (noNul : (0 : UInt8) ∉ response.responseJson)
    (long : writeBufferSize - 1 ≤ response.responseJson.length) :
    (response.processWrite linger .diagnoseRequest).1 = false := by
  have whole := untilNul_of_notMem noNul
  have front : ∀ ready : ResponseState, ready.responseJson = response.responseJson →
      (ready.finishPage ready.responseJson).1 = false := by
    intro ready same
    rw [finishPage, addContent, same, whole, addResponse_of_le (by omega)]
  simp only [processWrite]
  refine front _ ?_
  have kept : ∀ (first second : ResponseState), Extends first second →
      second.responseJson = first.responseJson := by
    rintro first _ ⟨appended, rfl⟩
    rfl
  refine kept response _ ?_
  simp only [addStatusLine, addContentLength, addContentType, addLinger, addBlankLine]
  iterate 5 apply Extends.addResponse
  exact Extends.refl response

end ResponseState

namespace HttpConn

/-- A diagnosis is answered with JSON text that does not fit. -/
theorem overflows_diagnosis {conn : HttpConn} {env : Env} {next : RequestState} {url text : Int}
    {bytes : List UInt8} (ended : conn.toRequestState.processRead = some (.request next))
    (post : next.cgi = 1) (located : next.url = some url)
    (target : next.str url = ascii "/diagnose") (body : next.string = some text)
    (answered : diagnoseRequest env.json env.models (next.str text) = .ok (.json bytes))
    (long : writeBufferSize - 1 ≤ bytes.length) : conn.Overflows env := by
  have outcome : conn.toRequestState.readOutcome = .request next := by
    simp only [RequestState.readOutcome, ended, Option.get_some]
  have open_ : ¬HttpConn.Guarded { conn with toRequestState := next } url := by
    rintro ⟨notPost, _⟩
    have same : next.cgi = 0 := notPost
    omega
  have reply : conn.processRead env = .ok {
      code := .diagnoseRequest
      conn := { conn with toRequestState := next, responseJson := bytes }
      users := env.users
      sessions := [] } := by
    simp only [processRead, outcome, doRequest, located, if_neg open_, afterLogin, post, target,
      diagnosePost, body, answered, and_self, if_true]
  refine ⟨_, reply, by simp, ?_⟩
  exact ResponseState.processWrite_json_long _ (diagnoseRequest_json_nul answered) long

/-- A slot whose response does not fit is closed. -/
theorem Overflows.process {conn : HttpConn} {env : Env} (overflows : conn.Overflows env)
    (isOpen : conn.sockfd ≠ -1) :
    ∃ reply finished, conn.processRead env = .ok reply ∧ conn.process env = .ok finished ∧
      finished.fdCalls = [.closeConn conn.sockfd, .modfd (-1) .epollout] := by
  obtain ⟨reply, isReply, completed, overflow⟩ := overflows
  obtain ⟨sockfd, _⟩ := processRead_slot isReply
  rw [← sockfd] at isOpen ⊢
  cases done : conn.process env with
  | error fault =>
      simp only [HttpConn.process, isReply, if_neg completed] at done
      contradiction
  | ok finished =>
      refine ⟨reply, finished, isReply, rfl, ?_⟩
      simp only [HttpConn.process, isReply, if_neg completed, overflow, closeConn, if_pos isOpen,
        Bool.false_eq_true, if_false] at done
      cases done
      rfl

end HttpConn

/-! ## A body that is quoted -/

/-- How a byte is printed in a JSON string. -/
def quoted (byte : UInt8) : List UInt8 :=
  if byte = 0 then ascii "\\u0000" else if byte = 34 ∨ byte = 92 then [92, byte] else [byte]

/-- The message of the exception for a text that is one string without its end. -/
def openStringMessage (text : List UInt8) : List UInt8 :=
  ascii "[json.exception.parse_error.101] parse error at line 1, column " ++
    decimal (text.length + 1) ++
    ascii (": syntax error while parsing value - invalid string: missing closing " ++
      "quote; last read: '") ++
    text ++ ascii "'"

theorem zero_notMem_quoted (byte : UInt8) : (0 : UInt8) ∉ quoted byte := by
  simp only [quoted]
  split
  · decide
  case isFalse other =>
      split
      · simpa [eq_comm] using other
      · simpa [eq_comm] using other

theorem length_le_flatMap_quoted (text : List UInt8) :
    text.length ≤ (text.flatMap quoted).length := by
  induction text with
  | nil => exact Nat.le_refl 0
  | cons byte text ih =>
      have some : 1 ≤ (quoted byte).length := by
        simp only [quoted]
        split
        · decide
        · split
          · exact Nat.le_succ 1
          · exact Nat.le_refl 1
      simp only [List.flatMap_cons, List.length_append, List.length_cons]
      omega

/-- A JSON library as it behaves on such texts. -/
def openStringJson : Json where
  parse text := .error (openStringMessage text)
  dumpError message := .ok (ascii "\x7b\"message\":\"" ++ message.flatMap quoted ++
    ascii "\",\"status\":\"error\"\x7d")
  dumpError_nul := by
    rintro message json same
    cases same
    simp only [List.mem_append, List.mem_flatMap, not_or, not_exists, not_and]
    exact ⟨⟨by decide, fun byte _ => zero_notMem_quoted byte⟩, by decide⟩

/-- The environment of a request for a diagnosis with such a body. -/
def openStringEnv : Env :=
  { Env.blank with json := openStringJson }

/-- A string without its end that almost fills the read buffer. -/
def openString : List UInt8 :=
  34 :: List.replicate 65399 97

/-- A request for a diagnosis with this body. -/
def openStringText : List UInt8 :=
  requestText .post (47 :: ascii "diagnose") [ascii "Content-Length:65400"] openString

theorem openString_length : openString.length = 65400 := by
  rw [openString, List.length_cons, List.length_replicate]

theorem openStringText_length : openStringText.length = 65449 := by
  have front :
      (sendLines [methodName .post ++ 32 :: (47 :: ascii "diagnose" ++ 32 :: ascii "HTTP/1.1"),
    ascii "Content-Length:65400"] ++ crlf).length = 49 := by decide
  rw [openStringText, requestText, List.length_append, front, openString_length]

/-- The request makes a new slot's response overflow. -/
theorem overflows_openString {conn : HttpConn} (slot : RequestState)
    (received : conn.toRequestState = slot.init.receive openStringText) :
    conn.Overflows openStringEnv := by
  have size : readBufferSize = 65536 := rfl
  have noNul : ∀ byte ∈ openString, byte ≠ 0 := by
    intro byte member
    rcases List.mem_cons.mp member with rfl | filled
    · decide
    · rw [List.eq_of_mem_replicate filled]
      decide
  have clean : ∀ line ∈ [ascii "Content-Length:65400"], RequestState.Clean line ∧ line ≠ [] := by
    have plain : ∀ byte ∈ ascii "Content-Length:65400", byte ≠ 0 ∧ byte ≠ 13 ∧
        byte ≠ 10 := by decide
    intro line member
    rw [List.mem_singleton.mp member]
    exact ⟨plain, by decide⟩
  have path : ∀ byte ∈ ascii "diagnose", byte ≠ 0 ∧ byte ≠ 13 ∧ byte ≠ 10 := by decide
  have declared : BodyDeclared [ascii "Content-Length:65400"] openString := by
    refine .inl ⟨List.cons_ne_nil _ _, ?_⟩
    rw [openString_length]
    decide
  obtain ⟨next, ended, found, denotes⟩ := slot.processRead_requestText (.inr rfl) path (by decide)
    clean declared
      (show openStringText.length < readBufferSize by rw [openStringText_length]; omega)
  have body := (denotes (List.cons_ne_nil _ _)).2
  have whole : openString.takeWhile (· ≠ 0) = openString :=
    List.takeWhile_eq_self_iff.mpr fun byte member => by simpa using noNul byte member
  obtain ⟨text, string, str⟩ := Option.map_eq_some_iff.mp body
  obtain ⟨url, located, target⟩ := Option.map_eq_some_iff.mp found.url
  rw [whole] at str
  refine HttpConn.overflows_diagnosis ?_ found.cgi located target string rfl ?_
  · rw [received]
    exact ended
  · have printed := length_le_flatMap_quoted (openStringMessage (next.str text))
    have front : (ascii "[json.exception.parse_error.101] parse error at line 1, column ").length =
        63 := by decide
    have reason : (ascii (": syntax error while parsing value - invalid string: missing closing " ++
        "quote; last read: '")).length = 88 := by decide
    rw [str] at printed ⊢
    simp only [List.length_append]
    have message : 65400 + 63 + 88 ≤ (openStringMessage openString).length := by
      simp only [openStringMessage, List.length_append, openString_length, front, reason]
      omega
    have limit : writeBufferSize = 65536 := rfl
    omega

end TimeGANWebServer.Http

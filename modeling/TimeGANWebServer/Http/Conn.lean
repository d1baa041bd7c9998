import TimeGANWebServer.Support.CString

/-!
# Connection slots

The data of `http/http_conn.h`.  A slot `users[fd]` is reused for one connection
after the other.  Its members fall into two groups: `RequestState` is what the
parser reads and writes, `ResponseState` what the response builder and the sender
work on.  Pointers into an array of the slot are indices into that array.
-/

namespace TimeGANWebServer.Http

open TimeGANWebServer.Support

/-- `http_conn::FILENAME_LEN`. -/
abbrev filenameLen : Nat := 200

/-- `http_conn::READ_BUFFER_SIZE`. -/
abbrev readBufferSize : Nat := 65536

/-- `http_conn::WRITE_BUFFER_SIZE`. -/
abbrev writeBufferSize : Nat := 65536

/-- `http_conn::METHOD`. -/
inductive Method where
  | get | post | head | put | delete | trace | options | connect | path
  deriving DecidableEq, Repr

/-- `http_conn::CHECK_STATE`. -/
inductive CheckState where
  | requestLine | header | content
  deriving DecidableEq, Repr

/-- `http_conn::HTTP_CODE`. -/
inductive HttpCode where
  | noRequest | getRequest | badRequest | noResource | forbiddenRequest | fileRequest
  | internalError | closedConnection | diagnoseRequest | diagnoseCsvRequest
  | redirectRequest
  deriving DecidableEq, Repr

/-- `http_conn::LINE_STATUS`. -/
inductive LineStatus where
  | ok | bad | open
  deriving DecidableEq, Repr

/-- Behavior the language leaves undefined, and an exception that leaves the
worker thread; the program does not continue in a defined state. -/
inductive Fault where
  | nullPointer
  | bufferOverflow
  | integerOverflow
  | uncaughtException
  deriving DecidableEq, Repr

/-- The members the request parser works on.  `string` and `host` are the
pointers `m_string` and `m_host` into the read buffer, and so are `url` and
`version`; `none` is the null pointer. -/
structure RequestState where
  readBuf : Memory
  readIdx : Int
  checkedIdx : Int
  startLine : Int
  checkState : CheckState
  method : Method
  url : Option Int
  version : Option Int
  host : Option Int
  contentLength : Int
  linger : Bool
  cgi : Int
  string : Option Int
  cookie : List UInt8

/-- The result of `stat`: the members of `struct stat` the program reads, and the
inode that identifies the file. -/
structure FileStat where
  size : Nat
  othersRead : Bool
  isDir : Bool
  inode : Nat
  deriving DecidableEq, Repr

/-- A value of `m_file_address`: null, the error result of `mmap`, or the address
of a mapping with the bytes seen through it. -/
inductive FileAddress where
  | null
  | failed
  | mapped (address : Nat) (bytes : List UInt8)
  deriving DecidableEq, Repr

/-- The base of an I/O vector: an offset into `m_write_buf`, from
`m_file_address`, or into `m_response_csv`. -/
inductive IovBase where
  | writeBuf (offset : Int)
  | file (address : FileAddress) (offset : Int)
  | csv (offset : Int)
  deriving DecidableEq, Repr

/-- `struct iovec`. -/
structure Iovec where
  base : IovBase
  len : Nat
  deriving DecidableEq, Repr

/-- The members the response builder and the sender work on.  `writeBuf` is
`m_write_buf[0..m_write_idx)`; what lies beyond is overwritten before it can be
sent. -/
structure ResponseState where
  writeBuf : List UInt8
  fileAddress : FileAddress
  fileStat : FileStat
  iv0 : Iovec
  iv1 : Iovec
  ivCount : Nat
  bytesToSend : Int
  bytesHaveSend : Int
  responseJson : List UInt8
  responseCsv : List UInt8

/-- `m_write_idx`. -/
abbrev ResponseState.writeIdx (response : ResponseState) : Nat :=
  response.writeBuf.length

/-- `http_conn`, with the members some modeled function uses. -/
structure HttpConn extends RequestState, ResponseState where
  sockfd : Int
  realFile : Memory
  docRoot : List UInt8
  trigMode : Int
  state : Int
  mysql : Option Nat

/-- A slot that has never been used, with zeroed members. -/
def HttpConn.blank : HttpConn where
  readBuf := fun _ => 0
  readIdx := 0
  checkedIdx := 0
  startLine := 0
  checkState := .requestLine
  method := .get
  url := none
  version := none
  host := none
  contentLength := 0
  linger := false
  cgi := 0
  string := none
  cookie := []
  writeBuf := []
  fileAddress := .null
  fileStat := { size := 0, othersRead := false, isDir := false, inode := 0 }
  iv0 := { base := .writeBuf 0, len := 0 }
  iv1 := { base := .writeBuf 0, len := 0 }
  ivCount := 0
  bytesToSend := 0
  bytesHaveSend := 0
  responseJson := []
  responseCsv := []
  sockfd := -1
  realFile := fun _ => 0
  docRoot := []
  trigMode := 0
  state := 0
  mysql := none

/-- The event a descriptor is armed for. -/
inductive Interest where
  | epollin | epollout
  deriving DecidableEq, Repr

/-- The calls by which a slot's functions act on descriptors.  `closeConn` is
`removefd` followed by `m_user_count--`. -/
inductive FdCall where
  | modfd (fd : Int) (interest : Interest)
  | closeConn (fd : Int)
  deriving DecidableEq, Repr

/-- `get_line()` and the string functions read the line at an index. -/
abbrev RequestState.str (request : RequestState) (start : Int) : List UInt8 :=
  request.readBuf.cstring readBufferSize start

/-- The parser's part of `http_conn::init()`.  `m_string` is not reset. -/
def RequestState.init (request : RequestState) : RequestState where
  readBuf := fun _ => 0
  readIdx := 0
  checkedIdx := 0
  startLine := 0
  checkState := .requestLine
  method := .get
  url := none
  version := none
  host := none
  contentLength := 0
  linger := false
  cgi := 0
  string := request.string
  cookie := []

/-- The sender's part of `http_conn::init()`.  The mapping, the file's status and
the I/O vectors are not reset. -/
def ResponseState.init (response : ResponseState) : ResponseState :=
  { response with
    writeBuf := []
    bytesToSend := 0
    bytesHaveSend := 0
    responseJson := []
    responseCsv := [] }

/-- `http_conn::init()`. -/
def HttpConn.init (conn : HttpConn) : HttpConn :=
  { conn with
    toRequestState := conn.toRequestState.init
    toResponseState := conn.toResponseState.init
    mysql := none
    state := 0
    realFile := fun _ => 0 }

/-- `http_conn::init(sockfd, ...)`: the slot's members for a newly accepted
connection. -/
def HttpConn.initFor (conn : HttpConn) (sockfd : Int) (root : List UInt8)
    (trigMode : Int) : HttpConn :=
  HttpConn.init { conn with sockfd := sockfd, docRoot := root, trigMode := trigMode }

/-- `http_conn::close_conn`, called with its default argument. -/
def HttpConn.closeConn (conn : HttpConn) : HttpConn × List FdCall :=
  if conn.sockfd ≠ -1 then
    ({ conn with sockfd := -1 }, [.closeConn conn.sockfd])
  else
    (conn, [])

end TimeGANWebServer.Http

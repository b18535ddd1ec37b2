import Mathlib.Algebra.Ring.Int.Defs
import Mathlib.Data.List.DropRight
import Mathlib.Logic.Function.Basic

/-! # The FTP data server

Every file handed to a trainer gets a virtual user of its own in the token
store. Each control connection has a thread that reads a command line, handles
it and reads the next one. Threads meet in the token store, the session counts
and the pool of passive ports, each behind a mutex; a handler that takes a second
lock, or that blocks, continues in a later step of its connection, and what it
does next is its `Activity`. So one step takes one lock, and the steps of
different connections interleave in any order.

What sockets, files, clocks and random numbers answer is part of the event. The
server is the one that `start` has set up and `stop` has not ended.
-/

namespace Adai.Ftp

/-! ## Configuration -/

structure FtpConfig where
  dataDir : String
  pasvMin : Int
  pasvMax : Int
  advertiseIp : String := ""
  serverSecret : String := ""
  ftpsEnabled : Bool := false
  maxSessionsPerRun : Int := 4
  /-- The build has `BUILD_FTPS`. -/
  buildFtps : Bool

/-- FTPS is required: the build has it and it is enabled. The TLS context then
exists, since `start` gives up without it. -/
def FtpConfig.ftps (config : FtpConfig) : Bool := config.buildFtps && config.ftpsEnabled

/-- Functions of the platform: the keyed hash and the text of a time. -/
structure Platform where
  hmacSha256 : String → String → String
  utcString : Int → String

/-! ## The token store -/

structure VirtualUser where
  password : String
  ftpPath : String
  runId : String
  expiry : Int
  consumed : Bool := false
  deriving DecidableEq, Repr

abbrev TokenStore := String → Option VirtualUser

namespace TokenStore

def insert (users : TokenStore) (username : String) (user : VirtualUser) : TokenStore :=
  Function.update users username (some user)

/-- The path and run of the token that the credentials open at a time. -/
def authenticate (users : TokenStore) (username password : String) (now : Int) :
    Option (String × String) :=
  match users username with
  | none => none
  | some user =>
      if user.consumed then none
      else if user.expiry < now then none
      else if user.password ≠ password then none
      else some (user.ftpPath, user.runId)

def markConsumed (users : TokenStore) (username : String) : TokenStore :=
  Function.update users username ((users username).map fun user => { user with consumed := true })

def sweepExpired (users : TokenStore) (now : Int) : TokenStore :=
  fun username => (users username).filter fun user =>
    !(user.consumed || (!user.consumed && decide (user.expiry < now)))

def remove (users : TokenStore) (username : String) : TokenStore :=
  Function.update users username none

end TokenStore

/-- Ticks of the system clock in a minute. -/
def minute : Int := 60 * 10 ^ 9

/-- The user name and the user of a new token. -/
def issueToken (config : FtpConfig) (platform : Platform) (runId ftpPath : String)
    (ttlMin now : Int) (tokenId randomPassword : String) : String × VirtualUser :=
  let username := "adai_" ++ tokenId
  let expiry := now + ttlMin * minute
  let signed := username ++ ":" ++ ftpPath ++ ":" ++ platform.utcString expiry
  let password :=
    if config.buildFtps && !config.serverSecret.isEmpty then
      platform.hmacSha256 config.serverSecret signed
    else randomPassword
  (username, { password, ftpPath, runId, expiry })

/-! ## Connections -/

/-- What a connection's thread does next. -/
inductive Activity
  | reading
  /-- `PASS` was authenticated; the session is not counted yet. -/
  | claimingSession (ftpPath runId : String)
  /-- `PASV` closed the old listener. -/
  | allocatingPort
  | binding (port : Int)
  /-- `RETR` announced the transfer and waits for the data connection. -/
  | opening (requested : String)
  | sending (requested : String) (dataSsl : Bool) (bytesSent : Nat)
  /-- The loop ended and the session was released. -/
  | closing
  | closed
  deriving DecidableEq, Repr

structure ConnState where
  clientIp : String
  authenticated : Bool := false
  username : String := ""
  runId : String := ""
  pendingUser : String := ""
  allowedPath : String := ""
  /-- The port of the passive listener, while there is one. -/
  pasvPort : Option Int := none
  typeBinary : Bool := false
  bytesTransferred : Nat := 0
  ssl : Bool := false
  dataProtP : Bool := false
  tlsToken : String := ""
  activity : Activity := .reading
  deriving DecidableEq, Repr

/-- The log lines marked as audit entries, of a connection and of `issue_token`. -/
inductive AuditEntry
  | tokenIssued (runId ftpPath username expires : String)
  | plaintextLoginRefused (clientIp : String)
  | loginFailed (username clientIp : String)
  | login (runId username ftpPath clientIp : String)
  | sessionEnded (runId username clientIp : String) (bytesTransferred : Nat)
  | dataConnectionRefused (peer clientIp runId username : String)
  | retrDenied (runId username requested allowed : String)
  | retrRefusedWithoutProtP (runId username : String)
  | retrStart (runId username ftpPath : String) (sizeBytes : Nat)
  | retrComplete (runId username ftpPath : String) (bytes : Nat)
  | retrAborted (runId username ftpPath : String) (bytesSent : Nat)
  deriving DecidableEq, Repr

inductive FtpOutput
  | reply (code : Nat) (message : String)
  /-- The lines `FEAT` writes to the bare socket. -/
  | features (text : String)
  /-- Bytes of a file handed to the data connection, under TLS or not. -/
  | data (file : String) (encrypted : Bool) (bytes : List UInt8)
  | audit (entry : AuditEntry)
  deriving DecidableEq, Repr

/-- What the threads share. -/
structure Shared where
  tokens : TokenStore
  activeSessions : String → Nat
  availablePasv : List Int

/-- What one step of a connection does. -/
structure Reaction where
  shared : Shared
  state : ConnState
  outputs : List FtpOutput

def send (shared : Shared) (st : ConnState) (code : Nat) (message : String) : Reaction :=
  ⟨shared, st, [.reply code message]⟩

/-! ## Passive ports and sessions -/

def insertPort (port : Int) : List Int → List Int
  | [] => [port]
  | p :: rest =>
      if port < p then port :: p :: rest
      else if port = p then p :: rest
      else p :: insertPort port rest

def releasePasvPort (shared : Shared) (port : Int) : Shared :=
  { shared with availablePasv := insertPort port shared.availablePasv }

def acquireSession (config : FtpConfig) (shared : Shared) (runId : String) : Option Shared :=
  if config.maxSessionsPerRun ≤ 0 then some shared
  else if config.maxSessionsPerRun ≤ (shared.activeSessions runId : Int) then none
  else some { shared with
    activeSessions :=
      Function.update shared.activeSessions runId (shared.activeSessions runId + 1) }

def releaseSession (shared : Shared) (runId : String) : Shared :=
  { shared with
    activeSessions :=
      Function.update shared.activeSessions runId (shared.activeSessions runId - 1) }

/-! ## Command lines -/

/-- The line in what was received, up to the line feed or the end of the stream. -/
def readLine (received : List Char) : List Char :=
  (received.takeWhile (· ≠ '\n')).filter (· ≠ '\r')

def trimEnd (text : List Char) : List Char :=
  text.rdropWhile fun c => c == '\r' || c == ' '

/-- The command word in capitals, and its argument. -/
def parseLine (line : List Char) : String × String :=
  if line.contains ' ' then
    (String.ofList ((line.takeWhile (· ≠ ' ')).map Char.toUpper),
      String.ofList (trimEnd ((line.dropWhile (· ≠ ' ')).drop 1)))
  else (String.ofList ((trimEnd line).map Char.toUpper), "")

/-- The argument of `RETR` and `SIZE` without leading slashes. -/
def requestedPath (arg : String) : String :=
  String.ofList (arg.toList.dropWhile (· == '/'))

/-- The path `fs::path(data_dir_) / requested`. -/
def localPath (dataDir requested : String) : String :=
  if requested.toList.head? = some '/' then requested
  else if dataDir.isEmpty || dataDir.toList.getLast? = some '/' then dataDir ++ requested
  else dataDir ++ "/" ++ requested

/-- What the environment answers while a command is handled. -/
structure Answer where
  now : Int := 0
  tlsToken : String := ""
  tlsAccepted : Bool := false
  fileExists : Bool := false
  fileRegular : Bool := false
  fileSize : Nat := 0
  deriving DecidableEq, Repr

/-! ## Command handlers -/

section Handlers

variable (config : FtpConfig) (shared : Shared) (st : ConnState)

def tlsRequiredButMissing : Bool := config.ftps && !st.ssl

/-- What `tls_required_but_missing` sends. -/
def tlsRefusal : List FtpOutput :=
  [.audit (.plaintextLoginRefused st.clientIp),
    .reply 530 "TLS required: send AUTH TLS before USER/PASS."]

def cmdUser (arg : String) : Reaction :=
  if tlsRequiredButMissing config st then ⟨shared, st, tlsRefusal st⟩
  else
    send shared
      { st with pendingUser := arg, authenticated := false, username := "", runId := "",
                allowedPath := "" }
      331 "Password required."

def cmdPass (arg : String) (now : Int) : Reaction :=
  if tlsRequiredButMissing config st then
    ⟨shared, { st with pendingUser := "" }, tlsRefusal st⟩
  else if st.pendingUser.isEmpty then send shared st 503 "Send USER first."
  else
    match shared.tokens.authenticate st.pendingUser arg now with
    | none =>
        ⟨shared, { st with pendingUser := "" },
          [.audit (.loginFailed st.pendingUser st.clientIp), .reply 530 "Login incorrect."]⟩
    | some (ftpPath, runId) =>
        ⟨shared, { st with activity := .claimingSession ftpPath runId }, []⟩

/-- The end of `cmd_pass`, from the rate limit on. -/
def finishPass (ftpPath runId : String) : Reaction :=
  match acquireSession config shared runId with
  | none =>
      send shared { st with pendingUser := "", activity := .reading } 421
        "Too many concurrent sessions for this run_id; try again later."
  | some shared' =>
      ⟨shared',
        { st with authenticated := true, username := st.pendingUser, runId := runId,
                  allowedPath := ftpPath, pendingUser := "", activity := .reading },
        [.audit (.login runId st.pendingUser ftpPath st.clientIp),
          .reply 230 "Login successful."]⟩

def cmdAuthTls (arg : String) (answer : Answer) : Reaction :=
  if arg ≠ "TLS" ∧ arg ≠ "SSL" then send shared st 504 "Only AUTH TLS is supported."
  else if !config.ftps then send shared st 502 "FTPS not enabled on this server."
  else if st.ssl then send shared st 503 "Already in TLS mode."
  else if answer.tlsAccepted then
    send shared { st with tlsToken := answer.tlsToken, ssl := true } 234 "AUTH TLS OK."
  -- the token stays and the loop goes on in the clear
  else send shared { st with tlsToken := answer.tlsToken } 234 "AUTH TLS OK."

def cmdProt (arg : String) : Reaction :=
  if arg = "P" ∨ arg = "p" then
    send shared { st with dataProtP := true } 200 "Protection set to Private."
  else if arg = "C" ∨ arg = "c" then
    send shared { st with dataProtP := false } 200 "Protection set to Clear."
  else send shared st 504 "Only PROT C and PROT P are supported."

def featText : String :=
  if config.ftps then
    "211-Features:\r\n PASV\r\n AUTH TLS\r\n PBSZ\r\n PROT\r\n211 End\r\n"
  else "211-Features:\r\n PASV\r\n211 End\r\n"

/-- The start of `cmd_pasv`: a previous listener is closed. -/
def cmdPasv : Reaction :=
  match st.pasvPort with
  | none => ⟨shared, { st with activity := .allocatingPort }, []⟩
  | some port =>
      ⟨releasePasvPort shared port, { st with pasvPort := none, activity := .allocatingPort }, []⟩

def allocatePort : Reaction :=
  match shared.availablePasv with
  | [] => send shared { st with activity := .reading } 425 "No PASV ports available; try later."
  | port :: rest =>
      -- a negative number is taken for an empty pool, and stays out of it
      if port < 0 then
        send { shared with availablePasv := rest } { st with activity := .reading } 425
          "No PASV ports available; try later."
      else ⟨{ shared with availablePasv := rest }, { st with activity := .binding port }, []⟩

inductive BindResult
  | noSocket
  | notBound
  | bound
  deriving DecidableEq, Repr

/-- The numbers of a passive reply, with commas for dots. -/
def passiveAddress (port : Int) : String :=
  let ip := if config.advertiseIp.isEmpty then "127.0.0.1" else config.advertiseIp
  String.ofList (ip.toList.map fun c => if c = '.' then ',' else c) ++ "," ++
    toString (port.tdiv 256) ++ "," ++ toString (port.tmod 256)

def bindPort (port : Int) : BindResult → Reaction
  | .noSocket =>
      send (releasePasvPort shared port) { st with activity := .reading } 425
        "Cannot open data connection."
  | .notBound =>
      send (releasePasvPort shared port) { st with activity := .reading } 425
        "Cannot bind data port."
  | .bound =>
      send shared { st with pasvPort := some port, activity := .reading } 227
        ("Entering Passive Mode (" ++ passiveAddress config port ++ ").")

/-- The start of `cmd_retr`, up to the announcement. -/
def cmdRetr (arg : String) (answer : Answer) : Reaction :=
  let requested := requestedPath arg
  if requested ≠ st.allowedPath then
    ⟨shared, st, [.audit (.retrDenied st.runId st.username requested st.allowedPath),
      .reply 550 "Permission denied."]⟩
  else if !answer.fileExists || !answer.fileRegular then send shared st 550 "File not found."
  else if st.pasvPort.isNone then send shared st 425 "Use PASV first."
  else if config.ftps && !st.dataProtP then
    ⟨shared, st, [.audit (.retrRefusedWithoutProtP st.runId st.username),
      .reply 521 "Data connection requires PROT P on this server."]⟩
  else
    ⟨shared, { st with activity := .opening requested },
      [.audit (.retrStart st.runId st.username requested answer.fileSize),
        .reply 150 "Opening data connection."]⟩

/-- The peers closed before the client's own data connection arrives, and
whether it does before the time is over. -/
def acceptFromClient (clientIp : String) : List String → List String × Bool
  | [] => ([], false)
  | peer :: rest =>
      if clientIp = peer then ([], true)
      else
        let later := acceptFromClient clientIp rest
        (peer :: later.1, later.2)

/-- The TLS handshake on a data connection: whether it succeeded, and the data in
the ticket of the session it resumed, if it resumed one. -/
structure DataTls where
  accepted : Bool
  resumed : Option String
  deriving DecidableEq, Repr

def dataSessionMatches (tls : DataTls) (token : String) : Bool :=
  !token.isEmpty && tls.resumed = some token

/-- The middle of `cmd_retr`: the data connection is accepted and wrapped, and
the file is opened. -/
def openData (requested : String) (peers : List String) (tls : DataTls) (opened : Bool) :
    Reaction :=
  let accepted := acceptFromClient st.clientIp peers
  let refused := accepted.1.map fun peer =>
    FtpOutput.audit (.dataConnectionRefused peer st.clientIp st.runId st.username)
  let released := (st.pasvPort.map (releasePasvPort shared)).getD shared
  let idle := { st with pasvPort := none, activity := .reading }
  let dataSsl := config.ftps && st.dataProtP
  if !accepted.2 then
    ⟨released, idle, refused ++ [.reply 425 "Could not open data connection."]⟩
  else if dataSsl && !tls.accepted then
    ⟨released, idle, refused ++ [.reply 425 "TLS handshake on data connection failed."]⟩
  else if dataSsl && !dataSessionMatches tls st.tlsToken then
    ⟨released, idle, refused ++
      [.reply 522 "Data connections must reuse the control connection's TLS session."]⟩
  else if !opened then
    ⟨released, idle, refused ++ [.reply 550 "Cannot read file."]⟩
  else ⟨released, { idle with activity := .sending requested dataSsl 0 }, refused⟩

/-- One round of the transfer loop: a chunk was read and its write succeeded or
not. -/
def sendChunk (requested : String) (dataSsl : Bool) (bytesSent : Nat) (bytes : List UInt8)
    (written : Bool) : Reaction :=
  let sent := FtpOutput.data (localPath config.dataDir requested) dataSsl bytes
  if written then
    ⟨shared, { st with activity := .sending requested dataSsl (bytesSent + bytes.length) }, [sent]⟩
  else
    ⟨shared,
      { st with bytesTransferred := st.bytesTransferred + bytesSent, activity := .reading },
      [sent, .audit (.retrAborted st.runId st.username requested bytesSent),
        .reply 426 "Connection closed; transfer aborted."]⟩

/-- The end of `cmd_retr` once the whole file was written. -/
def finishFile (requested : String) (bytesSent : Nat) : Reaction :=
  ⟨{ shared with tokens := shared.tokens.markConsumed st.username },
    { st with bytesTransferred := st.bytesTransferred + bytesSent, activity := .reading },
    [.audit (.retrComplete st.runId st.username requested bytesSent),
      .reply 226 "Transfer complete."]⟩

def cmdSize (arg : String) (answer : Answer) : Reaction :=
  if requestedPath arg ≠ st.allowedPath then send shared st 550 "Permission denied."
  else if !answer.fileExists then send shared st 550 "File not found."
  else send shared st 213 (toString answer.fileSize)

/-- What follows the command loop, up to the passive listener. -/
def endSession (farewell : List FtpOutput) : Reaction :=
  if st.authenticated && !st.runId.isEmpty then
    ⟨releaseSession shared st.runId, { st with activity := .closing },
      farewell ++ [.audit (.sessionEnded st.runId st.username st.clientIp st.bytesTransferred)]⟩
  else ⟨shared, { st with activity := .closing }, farewell⟩

def closeConnection : Reaction :=
  match st.pasvPort with
  | none => ⟨shared, { st with ssl := false, activity := .closed }, []⟩
  | some port =>
      ⟨releasePasvPort shared port,
        { st with pasvPort := none, ssl := false, activity := .closed }, []⟩

def writeCommands : List String :=
  ["STOR", "STOU", "APPE", "DELE", "MKD", "RMD", "RNFR", "RNTO"]

/-- One round of the command loop. -/
def handleLine (received : List Char) (answer : Answer) : Reaction :=
  let line := readLine received
  let cmd := (parseLine line).1
  let arg := (parseLine line).2
  if line.isEmpty then endSession shared st []
  else if cmd = "QUIT" then endSession shared st [.reply 221 "Goodbye."]
  else if cmd = "NOOP" then send shared st 200 "OK."
  else if cmd = "USER" then cmdUser config shared st arg
  else if cmd = "PASS" then cmdPass config shared st arg answer.now
  else if cmd = "TYPE" then
    send shared { st with typeBinary := arg = "I" ∨ arg = "i" } 200 "Type set."
  else if cmd = "SYST" then send shared st 215 "UNIX Type: L8"
  else if config.buildFtps ∧ cmd = "AUTH" then cmdAuthTls config shared st arg answer
  else if config.buildFtps ∧ cmd = "PBSZ" then send shared st 200 "PBSZ=0"
  else if config.buildFtps ∧ cmd = "PROT" then cmdProt shared st arg
  else if cmd = "FEAT" then ⟨shared, st, [.features (featText config)]⟩
  else if cmd = "PWD" then send shared st 257 "\"/\" is the current directory"
  else if !st.authenticated then send shared st 530 "Please login first."
  else if cmd = "PASV" then cmdPasv shared st
  else if cmd = "PORT" then send shared st 502 "PORT not supported; use PASV."
  else if cmd = "RETR" then cmdRetr config shared st arg answer
  else if cmd = "SIZE" then cmdSize shared st arg answer
  else if cmd = "CWD" ∨ cmd = "CDUP" then
    send shared st 550 "Directory navigation not permitted."
  else if cmd = "LIST" ∨ cmd = "NLST" ∨ cmd = "MLSD" then
    send shared st 550 "Directory listing not permitted."
  else if cmd ∈ writeCommands then send shared st 502 "Write commands not permitted."
  else send shared st 502 "Command not implemented."

/-! ## Steps -/

inductive ConnEvent
  | line (received : List Char) (answer : Answer)
  | acquireSession
  | allocatePort
  | bindPort (result : BindResult)
  | acceptData (peers : List String) (tls : DataTls) (opened : Bool)
  | chunk (bytes : List UInt8) (written : Bool)
  | endOfFile
  | close
  deriving DecidableEq, Repr

/-- The next step of a connection's thread, if it is the one the thread takes. -/
def react : ConnEvent → Option Reaction
  | .line received answer =>
      if st.activity = .reading then some (handleLine config shared st received answer) else none
  | .acquireSession =>
      match st.activity with
      | .claimingSession ftpPath runId => some (finishPass config shared st ftpPath runId)
      | _ => none
  | .allocatePort =>
      if st.activity = .allocatingPort then some (allocatePort shared st) else none
  | .bindPort result =>
      match st.activity with
      | .binding port => some (bindPort config shared st port result)
      | _ => none
  | .acceptData peers tls opened =>
      match st.activity with
      | .opening requested => some (openData config shared st requested peers tls opened)
      | _ => none
  | .chunk bytes written =>
      match st.activity with
      | .sending requested dataSsl bytesSent =>
          if bytes = [] ∨ 65536 < bytes.length then none
          else some (sendChunk config shared st requested dataSsl bytesSent bytes written)
      | _ => none
  | .endOfFile =>
      match st.activity with
      | .sending requested _ bytesSent => some (finishFile shared st requested bytesSent)
      | _ => none
  | .close => if st.activity = .closing then some (closeConnection shared st) else none

end Handlers

inductive FtpEvent
  | issueToken (runId ftpPath : String) (ttlMin now : Int) (tokenId randomPassword : String)
  | sweepExpired (now : Int)
  | remove (username : String)
  | accept (clientIp : String)
  | connection (conn : Nat) (event : ConnEvent)
  deriving DecidableEq, Repr

/-- The server: connections are numbered in the order they were accepted. -/
structure FtpServer where
  shared : Shared
  connections : Nat → Option ConnState
  accepted : Nat

def FtpServer.initial (config : FtpConfig) : FtpServer where
  shared :=
    { tokens := fun _ => none
      activeSessions := fun _ => 0
      availablePasv := (List.range (config.pasvMax - config.pasvMin + 1).toNat).map
        fun (offset : Nat) => config.pasvMin + offset }
  connections := fun _ => none
  accepted := 0

def FtpServer.withTokens (server : FtpServer) (tokens : TokenStore) : FtpServer :=
  { server with shared := { server.shared with tokens } }

section Steps

variable (config : FtpConfig) (platform : Platform) (server : FtpServer)

def FtpServer.next : FtpEvent → Option (FtpServer × List FtpOutput)
  | .issueToken runId ftpPath ttlMin now tokenId randomPassword =>
      let issued := issueToken config platform runId ftpPath ttlMin now tokenId randomPassword
      some (server.withTokens (server.shared.tokens.insert issued.1 issued.2),
        [.audit (.tokenIssued runId ftpPath issued.1 (platform.utcString issued.2.expiry))])
  | .sweepExpired now => some (server.withTokens (server.shared.tokens.sweepExpired now), [])
  | .remove username => some (server.withTokens (server.shared.tokens.remove username), [])
  | .accept clientIp =>
      some ({ server with
              connections := Function.update server.connections server.accepted (some { clientIp })
              accepted := server.accepted + 1 },
        [.reply 220 "ADAI FTP Data Server ready."])
  | .connection conn event =>
      (server.connections conn).bind fun st =>
        (react config server.shared st event).map fun r =>
          ({ server with
              shared := r.shared
              connections := Function.update server.connections conn (some r.state) },
            r.outputs)

end Steps

/-- A step as it is seen from outside: the event and what was sent and logged. -/
structure FtpLabel where
  event : FtpEvent
  outputs : List FtpOutput
  deriving DecidableEq, Repr

def FtpStep (config : FtpConfig) (platform : Platform) (server : FtpServer) (label : FtpLabel)
    (server' : FtpServer) : Prop :=
  server.next config platform label.event = some (server', label.outputs)

end Adai.Ftp

import Adai.Ftp.FtpDataServer

/-! # What a step of a connection can do

`Effect` lists every way a step of a connection can change what authorizes it:
its login, its TLS state, its protection level, the transfer it is in, and the
token store. Every step has one of these effects (`react_effect`).
-/

namespace Adai.Ftp

/-- An output that tells of no login, no completed transfer and no change to a
clear data channel. -/
def FtpOutput.settled : FtpOutput → Bool
  | .reply code message =>
      code != 331 && !(code == 200 && message == "Protection set to Clear.")
  | .features _ => true
  | .data _ _ _ => true
  | .audit (.login _ _ _ _) => false
  | .audit (.retrComplete _ _ _ _) => false
  | .audit _ => true

/-- No file data either. -/
def FtpOutput.quiet : FtpOutput → Bool
  | .data _ _ _ => false
  | o => o.settled

def Settled (outputs : List FtpOutput) : Prop := ∀ o ∈ outputs, o.settled = true

def Quiet (outputs : List FtpOutput) : Prop := ∀ o ∈ outputs, o.quiet = true

instance (outputs : List FtpOutput) : Decidable (Settled outputs) :=
  inferInstanceAs (Decidable (∀ o ∈ outputs, o.settled = true))

instance (outputs : List FtpOutput) : Decidable (Quiet outputs) :=
  inferInstanceAs (Decidable (∀ o ∈ outputs, o.quiet = true))

theorem Quiet.nil : Quiet [] := List.forall_mem_nil _

theorem Quiet.cons {o : FtpOutput} {outputs : List FtpOutput} (first : o.quiet = true)
    (later : Quiet outputs) : Quiet (o :: outputs) :=
  List.forall_mem_cons.mpr ⟨first, later⟩

theorem Quiet.append {outputs others : List FtpOutput} (first : Quiet outputs)
    (later : Quiet others) : Quiet (outputs ++ others) :=
  List.forall_mem_append.mpr ⟨first, later⟩

theorem Quiet.settled {outputs : List FtpOutput} (quiet : Quiet outputs) : Settled outputs := by
  intro o member
  have calm := quiet o member
  cases o with
  | data file encrypted bytes => rfl
  | reply code message => exact calm
  | features text => rfl
  | audit entry => exact calm

/-- The thread is neither between the parts of a login nor in a transfer. -/
def Activity.calm : Activity → Bool
  | .claimingSession _ _ => false
  | .opening _ => false
  | .sending _ _ _ => false
  | .closed => false
  | _ => true

/-- The login, the TLS state and the protection level stay. -/
structure SameLogin (st st' : ConnState) : Prop where
  authenticated : st'.authenticated = st.authenticated
  username : st'.username = st.username
  pendingUser : st'.pendingUser = st.pendingUser
  allowedPath : st'.allowedPath = st.allowedPath
  ssl : st'.ssl = st.ssl
  dataProtP : st'.dataProtP = st.dataProtP

theorem SameLogin.refl (st : ConnState) : SameLogin st st := ⟨rfl, rfl, rfl, rfl, rfl, rfl⟩

section Effects

variable (config : FtpConfig) (shared : Shared) (st : ConnState)

inductive Effect : ConnEvent → Reaction → Prop
  | quiet {event : ConnEvent} {shared' : Shared} {st' : ConnState} {outputs : List FtpOutput}
      (tokens : shared'.tokens = shared.tokens) (same : SameLogin st st')
      (calm : st'.activity.calm = true) (quiet : Quiet outputs) :
      Effect event ⟨shared', st', outputs⟩
  | user {received : List Char} {answer : Answer} (arg : String)
      (word : (parseLine (readLine received)).1 = "USER")
      (secured : tlsRequiredButMissing config st = false) (reading : st.activity = .reading) :
      Effect (.line received answer)
        (send shared
          { st with pendingUser := arg, authenticated := false, username := "", runId := "",
                    allowedPath := "" }
          331 "Password required.")
  | refused {event : ConnEvent} {outputs : List FtpOutput} (quiet : Quiet outputs) :
      Effect event ⟨shared, { st with pendingUser := "", activity := .reading }, outputs⟩
  | password {received : List Char} {answer : Answer} {user : VirtualUser}
      (line : parseLine (readLine received) = ("PASS", user.password))
      (named : st.pendingUser ≠ "") (found : shared.tokens st.pendingUser = some user)
      (unconsumed : user.consumed = false) (unexpired : answer.now ≤ user.expiry) :
      Effect (.line received answer)
        ⟨shared, { st with activity := .claimingSession user.ftpPath user.runId }, []⟩
  | login {shared' : Shared} {ftpPath runId : String}
      (claiming : st.activity = .claimingSession ftpPath runId)
      (tokens : shared'.tokens = shared.tokens) :
      Effect .acquireSession
        ⟨shared',
          { st with authenticated := true, username := st.pendingUser, runId := runId,
                    allowedPath := ftpPath, pendingUser := "", activity := .reading },
          [.audit (.login runId st.pendingUser ftpPath st.clientIp),
            .reply 230 "Login successful."]⟩
  | upgrade {received : List Char} {answer : Answer}
      (word : (parseLine (readLine received)).1 = "AUTH") (accepted : answer.tlsAccepted = true)
      (reading : st.activity = .reading) :
      Effect (.line received answer)
        (send shared { st with tlsToken := answer.tlsToken, ssl := true } 234 "AUTH TLS OK.")
  | protect {received : List Char} {answer : Answer}
      (word : (parseLine (readLine received)).1 = "PROT") (reading : st.activity = .reading) :
      Effect (.line received answer)
        (send shared { st with dataProtP := true } 200 "Protection set to Private.")
  | clear {received : List Char} {answer : Answer}
      (word : (parseLine (readLine received)).1 = "PROT") (reading : st.activity = .reading) :
      Effect (.line received answer)
        (send shared { st with dataProtP := false } 200 "Protection set to Clear.")
  | retrieve {event : ConnEvent} {outputs : List FtpOutput}
      (authenticated : st.authenticated = true)
      (isProtected : config.ftps = true → st.dataProtP = true) (quiet : Quiet outputs) :
      Effect event ⟨shared, { st with activity := .opening st.allowedPath }, outputs⟩
  | opened {event : ConnEvent} {shared' : Shared} {st' : ConnState} {outputs : List FtpOutput}
      {requested : String} (opening : st.activity = .opening requested)
      (tokens : shared'.tokens = shared.tokens) (same : SameLogin st st')
      (sending : st'.activity = .sending requested (config.ftps && st.dataProtP) 0)
      (quiet : Quiet outputs) :
      Effect event ⟨shared', st', outputs⟩
  | chunk {event : ConnEvent} {requested : String} {dataSsl : Bool} {bytesSent : Nat}
      {bytes : List UInt8} {written : Bool}
      (sending : st.activity = .sending requested dataSsl bytesSent) :
      Effect event (sendChunk config shared st requested dataSsl bytesSent bytes written)
  | complete {event : ConnEvent} {requested : String} {dataSsl : Bool} {bytesSent : Nat}
      (sending : st.activity = .sending requested dataSsl bytesSent) :
      Effect event (finishFile shared st requested bytesSent)
  | closed {event : ConnEvent} {shared' : Shared} {st' : ConnState}
      (tokens : shared'.tokens = shared.tokens) (closed : st'.activity = .closed) :
      Effect event ⟨shared', st', []⟩

variable {config shared st}

theorem Effect.sends {event : ConnEvent} {st' : ConnState} {code : Nat} {message : String}
    (same : SameLogin st st') (calm : st'.activity.calm = true)
    (quiet : (FtpOutput.reply code message).quiet = true) :
    Effect config shared st event (send shared st' code message) :=
  .quiet rfl same calm (.cons quiet .nil)

/-! ## The token store -/

theorem TokenStore.authenticate_eq_some {users : TokenStore} {username password : String}
    {now : Int} {ftpPath runId : String}
    (granted : users.authenticate username password now = some (ftpPath, runId)) :
    ∃ user, users username = some user ∧ user.consumed = false ∧ now ≤ user.expiry ∧
      user.password = password ∧ user.ftpPath = ftpPath ∧ user.runId = runId := by
  unfold TokenStore.authenticate at granted
  split at granted
  · cases granted
  · rename_i user found
    split_ifs at granted with consumed expired mismatch
    · obtain ⟨path, run⟩ := Prod.mk.inj (Option.some.inj granted)
      exact ⟨user, found, Bool.not_eq_true _ ▸ consumed, Int.not_lt.mp expired,
        not_not.mp mismatch, path, run⟩

theorem acquireSession_tokens {runId : String} {shared' : Shared}
    (acquired : acquireSession config shared runId = some shared') :
    shared'.tokens = shared.tokens := by
  unfold acquireSession at acquired
  split_ifs at acquired
  · rw [Option.some.inj acquired]
  · rw [← Option.some.inj acquired]

/-! ## Handlers -/

theorem cmdUser_effect {received : List Char} {answer : Answer} (arg : String)
    (word : (parseLine (readLine received)).1 = "USER") (reading : st.activity = .reading) :
    Effect config shared st (.line received answer) (cmdUser config shared st arg) := by
  unfold cmdUser
  split_ifs with missing
  · exact .quiet rfl (.refl st) (by rw [reading]; rfl) (.cons rfl (.cons rfl .nil))
  · exact .user arg word (Bool.not_eq_true _ ▸ missing) reading

/-- A `PASS` that is turned down forgets the user it was for. -/
theorem Effect.turnedDown {event : ConnEvent} {outputs : List FtpOutput}
    (reading : st.activity = .reading) (quiet : Quiet outputs) :
    Effect config shared st event ⟨shared, { st with pendingUser := "" }, outputs⟩ := by
  have turned : Effect config shared st event
      ⟨shared, { st with pendingUser := "", activity := .reading }, outputs⟩ := .refused quiet
  rwa [← reading] at turned

theorem cmdPass_effect {received : List Char} {answer : Answer}
    (word : (parseLine (readLine received)).1 = "PASS") (reading : st.activity = .reading) :
    Effect config shared st (.line received answer)
      (cmdPass config shared st (parseLine (readLine received)).2 answer.now) := by
  unfold cmdPass
  split_ifs with missing empty
  · exact .turnedDown reading (.cons rfl (.cons rfl .nil))
  · exact .sends (.refl st) (by rw [reading]; rfl) rfl
  · split
    · exact .turnedDown reading (.cons rfl (.cons rfl .nil))
    · rename_i granted
      obtain ⟨user, found, unconsumed, unexpired, password, rfl, rfl⟩ :=
        TokenStore.authenticate_eq_some granted
      refine .password (Prod.ext word password.symm) ?_ found unconsumed unexpired
      intro none_
      rw [none_] at empty
      exact empty rfl

theorem finishPass_effect {ftpPath runId : String}
    (claiming : st.activity = .claimingSession ftpPath runId) :
    Effect config shared st .acquireSession (finishPass config shared st ftpPath runId) := by
  unfold finishPass
  split
  · exact .refused (.cons rfl .nil)
  · rename_i shared' acquired
    exact .login claiming (acquireSession_tokens acquired)

theorem cmdAuthTls_effect {received : List Char} {answer : Answer} (arg : String)
    (word : (parseLine (readLine received)).1 = "AUTH") (reading : st.activity = .reading) :
    Effect config shared st (.line received answer) (cmdAuthTls config shared st arg answer) := by
  have calm : st.activity.calm = true := by rw [reading]; rfl
  unfold cmdAuthTls
  split_ifs with other off already accepted
  · exact .sends (.refl st) calm rfl
  · exact .sends (.refl st) calm rfl
  · exact .sends (.refl st) calm rfl
  · exact .upgrade word accepted reading
  · exact .sends ⟨rfl, rfl, rfl, rfl, rfl, rfl⟩ calm rfl

theorem cmdProt_effect {received : List Char} {answer : Answer} (arg : String)
    (word : (parseLine (readLine received)).1 = "PROT") (reading : st.activity = .reading) :
    Effect config shared st (.line received answer) (cmdProt shared st arg) := by
  unfold cmdProt
  split_ifs
  · exact .protect word reading
  · exact .clear word reading
  · exact .sends (.refl st) (by rw [reading]; rfl) rfl

theorem cmdPasv_effect (event : ConnEvent) :
    Effect config shared st event (cmdPasv shared st) := by
  unfold cmdPasv
  split
  · exact .quiet rfl ⟨rfl, rfl, rfl, rfl, rfl, rfl⟩ rfl .nil
  · exact .quiet rfl ⟨rfl, rfl, rfl, rfl, rfl, rfl⟩ rfl .nil

theorem cmdRetr_effect (event : ConnEvent) (arg : String) (answer : Answer)
    (authenticated : st.authenticated = true) (reading : st.activity = .reading) :
    Effect config shared st event (cmdRetr config shared st arg answer) := by
  have calm : st.activity.calm = true := by rw [reading]; rfl
  unfold cmdRetr
  dsimp only
  split_ifs with other absent noPort clear
  · exact .quiet rfl (.refl st) calm (.cons rfl (.cons rfl .nil))
  · exact .sends (.refl st) calm rfl
  · exact .sends (.refl st) calm rfl
  · exact .quiet rfl (.refl st) calm (.cons rfl (.cons rfl .nil))
  · rw [not_not.mp other]
    refine .retrieve authenticated ?_ (.cons rfl (.cons rfl .nil))
    intro ftps
    simpa [ftps] using clear

theorem endSession_effect (event : ConnEvent) {farewell : List FtpOutput}
    (quiet : Quiet farewell) : Effect config shared st event (endSession shared st farewell) := by
  unfold endSession
  split_ifs
  · exact .quiet rfl ⟨rfl, rfl, rfl, rfl, rfl, rfl⟩ rfl (quiet.append (.cons rfl .nil))
  · exact .quiet rfl ⟨rfl, rfl, rfl, rfl, rfl, rfl⟩ rfl quiet

theorem cmdSize_effect (event : ConnEvent) (arg : String) (answer : Answer)
    (reading : st.activity = .reading) :
    Effect config shared st event (cmdSize shared st arg answer) := by
  have calm : st.activity.calm = true := by rw [reading]; rfl
  unfold cmdSize
  split_ifs
  · exact .sends (.refl st) calm rfl
  · exact .sends (.refl st) calm rfl
  · exact .sends (.refl st) calm rfl

/-! ## Lines and steps -/

theorem Effect.ite {event : ConnEvent} {p : Prop} [Decidable p] {yes no : Reaction}
    (holds : p → Effect config shared st event yes)
    (fails : ¬ p → Effect config shared st event no) :
    Effect config shared st event (if p then yes else no) := by
  split
  · exact holds ‹p›
  · exact fails ‹¬ p›

theorem handleLine_effect (received : List Char) (answer : Answer)
    (reading : st.activity = .reading) :
    Effect config shared st (.line received answer)
      (handleLine config shared st received answer) := by
  have calm : st.activity.calm = true := by rw [reading]; rfl
  refine .ite (fun _ => endSession_effect _ .nil) fun _ => ?_
  refine .ite (fun _ => endSession_effect _ (.cons rfl .nil)) fun _ => ?_
  refine .ite (fun _ => .sends (.refl st) calm rfl) fun _ => ?_
  refine .ite (fun word => cmdUser_effect _ word reading) fun _ => ?_
  refine .ite (fun word => cmdPass_effect word reading) fun _ => ?_
  refine .ite (fun _ => .sends ⟨rfl, rfl, rfl, rfl, rfl, rfl⟩ calm rfl) fun _ => ?_
  refine .ite (fun _ => .sends (.refl st) calm rfl) fun _ => ?_
  refine .ite (fun word => cmdAuthTls_effect _ word.2 reading) fun _ => ?_
  refine .ite (fun _ => .sends (.refl st) calm rfl) fun _ => ?_
  refine .ite (fun word => cmdProt_effect _ word.2 reading) fun _ => ?_
  refine .ite (fun _ => .quiet rfl (.refl st) calm (.cons rfl .nil)) fun _ => ?_
  refine .ite (fun _ => .sends (.refl st) calm rfl) fun _ => ?_
  refine .ite (fun _ => .sends (.refl st) calm rfl) fun guest => ?_
  refine .ite (fun _ => cmdPasv_effect _) fun _ => ?_
  refine .ite (fun _ => .sends (.refl st) calm rfl) fun _ => ?_
  refine .ite (fun _ => cmdRetr_effect _ _ answer (by simpa using guest) reading) fun _ => ?_
  refine .ite (fun _ => cmdSize_effect _ _ answer reading) fun _ => ?_
  refine .ite (fun _ => .sends (.refl st) calm rfl) fun _ => ?_
  refine .ite (fun _ => .sends (.refl st) calm rfl) fun _ => ?_
  refine .ite (fun _ => .sends (.refl st) calm rfl) fun _ => ?_
  exact .sends (.refl st) calm rfl

theorem allocatePort_effect (event : ConnEvent) :
    Effect config shared st event (allocatePort shared st) := by
  unfold allocatePort
  split
  · exact .sends ⟨rfl, rfl, rfl, rfl, rfl, rfl⟩ rfl rfl
  · split
    · exact .quiet rfl ⟨rfl, rfl, rfl, rfl, rfl, rfl⟩ rfl (.cons rfl .nil)
    · exact .quiet rfl ⟨rfl, rfl, rfl, rfl, rfl, rfl⟩ rfl .nil

theorem bindPort_effect (event : ConnEvent) (port : Int) (result : BindResult) :
    Effect config shared st event (bindPort config shared st port result) := by
  cases result with
  | noSocket => exact .quiet rfl ⟨rfl, rfl, rfl, rfl, rfl, rfl⟩ rfl (.cons rfl .nil)
  | notBound => exact .quiet rfl ⟨rfl, rfl, rfl, rfl, rfl, rfl⟩ rfl (.cons rfl .nil)
  | bound => exact .sends ⟨rfl, rfl, rfl, rfl, rfl, rfl⟩ rfl rfl

theorem openData_effect (event : ConnEvent) {requested : String} (peers : List String)
    (tls : DataTls) (opened : Bool) (opening : st.activity = .opening requested) :
    Effect config shared st event (openData config shared st requested peers tls opened) := by
  have tokens : ((st.pasvPort.map (releasePasvPort shared)).getD shared).tokens = shared.tokens := by
    cases st.pasvPort <;> rfl
  have refused : Quiet ((acceptFromClient st.clientIp peers).1.map fun peer =>
      .audit (.dataConnectionRefused peer st.clientIp st.runId st.username)) := by
    intro o member
    obtain ⟨peer, -, rfl⟩ := List.mem_map.mp member
    rfl
  have same : ∀ activity, SameLogin st { st with pasvPort := none, activity } :=
    fun _ => ⟨rfl, rfl, rfl, rfl, rfl, rfl⟩
  refine .ite (fun _ => .quiet tokens (same _) rfl (refused.append (.cons rfl .nil))) fun _ => ?_
  refine .ite (fun _ => .quiet tokens (same _) rfl (refused.append (.cons rfl .nil))) fun _ => ?_
  refine .ite (fun _ => .quiet tokens (same _) rfl (refused.append (.cons rfl .nil))) fun _ => ?_
  refine .ite (fun _ => .quiet tokens (same _) rfl (refused.append (.cons rfl .nil))) fun _ => ?_
  exact .opened opening tokens (same _) rfl refused

theorem closeConnection_effect (event : ConnEvent) :
    Effect config shared st event (closeConnection shared st) := by
  unfold closeConnection
  split
  · exact .closed rfl rfl
  · exact .closed rfl rfl

/-- A closed connection takes no step. -/
theorem react_closed {event : ConnEvent} (closed : st.activity = .closed) :
    react config shared st event = none := by
  cases event <;> simp [react, closed]

/-- **Effects.** Every step of a connection has one of the effects. -/
theorem react_effect {event : ConnEvent} {r : Reaction}
    (reacted : react config shared st event = some r) : Effect config shared st event r := by
  cases event with
  | line received answer =>
      obtain ⟨reading, ⟨⟩⟩ := Option.ite_none_right_eq_some.mp reacted
      exact handleLine_effect received answer reading
  | acquireSession =>
      simp only [react] at reacted
      split at reacted
      · rename_i claiming
        obtain rfl := Option.some.inj reacted
        exact finishPass_effect claiming
      · cases reacted
  | allocatePort =>
      obtain ⟨-, ⟨⟩⟩ := Option.ite_none_right_eq_some.mp reacted
      exact allocatePort_effect _
  | bindPort result =>
      simp only [react] at reacted
      split at reacted
      · obtain rfl := Option.some.inj reacted
        exact bindPort_effect _ _ result
      · cases reacted
  | acceptData peers tls opened =>
      simp only [react] at reacted
      split at reacted
      · rename_i opening
        obtain rfl := Option.some.inj reacted
        exact openData_effect _ peers tls opened opening
      · cases reacted
  | chunk bytes written =>
      simp only [react] at reacted
      split at reacted
      · rename_i sending
        obtain ⟨-, ⟨⟩⟩ := Option.ite_none_left_eq_some.mp reacted
        exact .chunk sending
      · cases reacted
  | endOfFile =>
      simp only [react] at reacted
      split at reacted
      · rename_i sending
        obtain rfl := Option.some.inj reacted
        exact .complete sending
      · cases reacted
  | close =>
      obtain ⟨-, ⟨⟩⟩ := Option.ite_none_right_eq_some.mp reacted
      exact closeConnection_effect _

/-- File data is sent only by a transfer, from the file it is for. -/
theorem Effect.sends_data {event : ConnEvent} {r : Reaction}
    (effect : Effect config shared st event r) {file : String} {encrypted : Bool}
    {bytes : List UInt8} (sent : .data file encrypted bytes ∈ r.outputs) :
    ∃ requested bytesSent, st.activity = .sending requested encrypted bytesSent ∧
      file = localPath config.dataDir requested := by
  cases effect with
  | quiet _ _ _ quiet => cases quiet _ sent
  | user => simp [send] at sent
  | refused quiet => cases quiet _ sent
  | password => cases sent
  | login => simp at sent
  | upgrade => simp [send] at sent
  | protect => simp [send] at sent
  | clear => simp [send] at sent
  | retrieve _ _ quiet => cases quiet _ sent
  | opened _ _ _ _ quiet => cases quiet _ sent
  | @chunk _ requested dataSsl bytesSent bytes written sending =>
      have same : file = localPath config.dataDir requested ∧ encrypted = dataSsl := by
        cases written <;> simp_all [sendChunk]
      rw [same.1, same.2]
      exact ⟨requested, bytesSent, sending, rfl⟩
  | complete => simp [finishFile] at sent
  | closed => cases sent

/-- While TLS is missing, `USER` and `PASS` are refused and nothing changes. -/
theorem handleLine_refused {received : List Char} {answer : Answer}
    (word : (parseLine (readLine received)).1 = "USER" ∨ (parseLine (readLine received)).1 = "PASS")
    (missing : tlsRequiredButMissing config st = true) (unnamed : st.pendingUser = "") :
    handleLine config shared st received answer = ⟨shared, st, tlsRefusal st⟩ := by
  have some_ : (readLine received).isEmpty = false := by
    cases line : readLine received with
    | nil =>
        rw [line] at word
        revert word
        decide
    | cons c rest => rfl
  have forgotten : { st with pendingUser := "" } = st := by rw [← unnamed]
  rcases word with user | pass
  · simp [handleLine, some_, user, cmdUser, missing]
  · simp [handleLine, some_, pass, cmdPass, missing, forgotten]

end Effects

end Adai.Ftp

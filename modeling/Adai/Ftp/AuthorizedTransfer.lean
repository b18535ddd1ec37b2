import Adai.Ftp.Effects
import Adai.Math.TransitionSystem

/-! # What the server sends, and to whom

The past of a run is the list of its steps as seen from outside. A token is live
when it was issued and has since been neither consumed, removed nor replaced
(`LiveToken`); a connection is logged in with a token when its last login was
with that token's password, given while the token was live and unexpired
(`LoggedInWith`). In every run, file data is handed to a connection only while it
is logged in with a token whose path the file is, and when FTPS is required only
on protected data channels, and no credential is acted on before the connection's
TLS upgrade (`transfer_authorized`).
-/

namespace Adai.Ftp

open PastTime TransitionSystem

/-! ## The past -/

section Past

variable (config : FtpConfig) (platform : Platform) (conn : Nat) (username : String)
  (user : VirtualUser)

def OnConnection (label : FtpLabel) : Prop :=
  ∃ event, label.event = .connection conn event

/-- A command line with the word was handled on the connection. -/
def HandlesLine (word : String) (label : FtpLabel) : Prop :=
  ∃ received answer, label.event = .connection conn (.line received answer) ∧
    (parseLine (readLine received)).1 = word

/-- File data was handed to the connection's data connection. -/
def SendsData (file : String) (encrypted : Bool) (bytes : List UInt8) (label : FtpLabel) : Prop :=
  OnConnection conn label ∧ .data file encrypted bytes ∈ label.outputs

def IssuesToken (label : FtpLabel) : Prop :=
  ∃ runId ftpPath ttlMin now tokenId randomPassword,
    label.event = .issueToken runId ftpPath ttlMin now tokenId randomPassword ∧
      issueToken config platform runId ftpPath ttlMin now tokenId randomPassword = (username, user)

/-- A complete transfer under the user name consumes the token. -/
def ConsumesToken (label : FtpLabel) : Prop :=
  ∃ runId ftpPath bytes, .audit (.retrComplete runId username ftpPath bytes) ∈ label.outputs

/-- The token is removed, or replaced by another one with its user name. -/
def WithdrawsToken (label : FtpLabel) : Prop :=
  label.event = .remove username ∨ ∃ user, IssuesToken config platform username user label

/-- The token was issued, and not consumed, removed or replaced since. -/
def LiveToken : List FtpLabel → Prop :=
  Since (fun _ label => IssuesToken config platform username user label)
    fun label => ¬ ConsumesToken username label ∧ ¬ WithdrawsToken config platform username label

/-- `PASS` was sent with the token's password, at a time not after its expiry. -/
def GivesPassword (label : FtpLabel) : Prop :=
  ∃ received answer, label.event = .connection conn (.line received answer) ∧
    parseLine (readLine received) = ("PASS", user.password) ∧ answer.now ≤ user.expiry

/-- The last thing on the connection was the password of a token live then. -/
def PasswordAccepted : List FtpLabel → Prop :=
  Since (fun early label =>
      GivesPassword conn user label ∧ LiveToken config platform username user early)
    fun label => ¬ OnConnection conn label

/-- A login was completed, and logged with its user name, run and path. -/
def CompletesLogin (runId ftpPath : String) (label : FtpLabel) : Prop :=
  label.event = .connection conn .acquireSession ∧
    ∃ clientIp, .audit (.login runId username ftpPath clientIp) ∈ label.outputs

/-- A new login was completed, or the old one was given up for another user. -/
def ChangesLogin (label : FtpLabel) : Prop :=
  (HandlesLine conn "USER" label ∧ .reply 331 "Password required." ∈ label.outputs) ∨
    ∃ username runId ftpPath, CompletesLogin conn username runId ftpPath label

/-- The connection's current login was made with the token, which was issued,
unexpired and not consumed when its password was given. -/
def LoggedInWith : List FtpLabel → Prop :=
  Since (fun early label =>
      CompletesLogin conn username user.runId user.ftpPath label ∧
        PasswordAccepted config platform conn username user early)
    fun label => ¬ ChangesLogin conn label

/-- `AUTH TLS` was accepted and the handshake succeeded. -/
def UpgradesTls (label : FtpLabel) : Prop :=
  ∃ received answer, label.event = .connection conn (.line received answer) ∧
    (parseLine (readLine received)).1 = "AUTH" ∧ answer.tlsAccepted = true ∧
    .reply 234 "AUTH TLS OK." ∈ label.outputs

def ProtectsData (label : FtpLabel) : Prop :=
  HandlesLine conn "PROT" label ∧ .reply 200 "Protection set to Private." ∈ label.outputs

def ClearsData (label : FtpLabel) : Prop :=
  HandlesLine conn "PROT" label ∧ .reply 200 "Protection set to Clear." ∈ label.outputs

/-- The last accepted `PROT` asked for protection. -/
def ProtectedData : List FtpLabel → Prop :=
  Since (fun _ label => ProtectsData conn label) fun label => ¬ ClearsData conn label

end Past

/-! ## What settled outputs exclude -/

section SettledLabels

variable {config : FtpConfig} {platform : Platform} {conn : Nat} {label : FtpLabel}

theorem Settled.not_consumes (settled : Settled label.outputs) (username : String) :
    ¬ ConsumesToken username label := by
  rintro ⟨runId, ftpPath, bytes, member⟩
  cases settled _ member

theorem Settled.not_changes (settled : Settled label.outputs) : ¬ ChangesLogin conn label := by
  rintro (⟨-, member⟩ | ⟨username, runId, ftpPath, -, clientIp, member⟩)
  · cases settled _ member
  · cases settled _ member

theorem Settled.not_clears (settled : Settled label.outputs) : ¬ ClearsData conn label := by
  rintro ⟨-, member⟩
  have told := settled _ member
  revert told
  decide

theorem OnConnection.inj {conn' : Nat} (on : OnConnection conn label)
    (on' : OnConnection conn' label) : conn = conn' := by
  obtain ⟨event, here⟩ := on
  obtain ⟨event', there⟩ := on'
  rw [here] at there
  exact (FtpEvent.connection.inj there).1

theorem HandlesLine.onConnection {word : String} (handles : HandlesLine conn word label) :
    OnConnection conn label := by
  obtain ⟨received, answer, event, -⟩ := handles
  exact ⟨_, event⟩

theorem HandlesLine.word_eq {word word' : String} (handles : HandlesLine conn word label)
    (handles' : HandlesLine conn word' label) : word = word' := by
  obtain ⟨received, answer, event, here⟩ := handles
  obtain ⟨received', answer', event', there⟩ := handles'
  rw [event] at event'
  obtain ⟨-, same⟩ := FtpEvent.connection.inj event'
  obtain ⟨rfl, -⟩ := ConnEvent.line.inj same
  exact here.symm.trans there

theorem HandlesLine.not_completes {word : String} (handles : HandlesLine conn word label)
    (username runId ftpPath : String) : ¬ CompletesLogin conn username runId ftpPath label := by
  obtain ⟨received, answer, event, -⟩ := handles
  rintro ⟨completes, -⟩
  cases event.symm.trans completes

/-- A command other than `USER` changes no login. -/
theorem HandlesLine.not_changes {word : String} (handles : HandlesLine conn word label)
    (other : word ≠ "USER") : ¬ ChangesLogin conn label := by
  rintro (⟨user, -⟩ | ⟨username, runId, ftpPath, completes⟩)
  · exact other (handles.word_eq user)
  · exact handles.not_completes username runId ftpPath completes

/-- A command other than `PROT` clears no data channel. -/
theorem HandlesLine.not_clears {word : String} (handles : HandlesLine conn word label)
    (other : word ≠ "PROT") : ¬ ClearsData conn label :=
  fun clears => other (handles.word_eq clears.1)

theorem ChangesLogin.onConnection (changes : ChangesLogin conn label) : OnConnection conn label := by
  rcases changes with ⟨handles, -⟩ | ⟨username, runId, ftpPath, event, -⟩
  · exact handles.onConnection
  · exact ⟨_, event⟩

theorem OnConnection.not_withdraws (on : OnConnection conn label) (username : String) :
    ¬ WithdrawsToken config platform username label := by
  obtain ⟨event, on⟩ := on
  rintro (removed | ⟨user, runId, ftpPath, ttlMin, now, tokenId, password, issued, -⟩)
  · cases on.symm.trans removed
  · cases on.symm.trans issued

end SettledLabels

/-! ## The invariant -/

section Invariant

variable (config : FtpConfig) (platform : Platform)

/-- Every token in the store that is not consumed is live. -/
def TokensTraced (past : List FtpLabel) (tokens : TokenStore) : Prop :=
  ∀ username user, tokens username = some user → user.consumed = false →
    LiveToken config platform username user past

/-- A transfer of the path is allowed in the connection's state. -/
structure Granted (st : ConnState) (requested : String) : Prop where
  authenticated : st.authenticated = true
  allowed : requested = st.allowedPath
  isProtected : config.ftps = true → st.dataProtP = true

/-- What the login, the TLS state and the protection level tell of the past. -/
structure LoginTraced (conn : Nat) (past : List FtpLabel) (st : ConnState) : Prop where
  upgraded : st.ssl = true → Once (UpgradesTls conn) past
  isProtected : st.dataProtP = true → ProtectedData conn past
  secured : config.ftps = true → st.ssl = false → st.authenticated = false ∧ st.pendingUser = ""
  waiting : st.pendingUser ≠ "" → st.authenticated = false
  loggedIn : st.authenticated = true → ∃ user, user.ftpPath = st.allowedPath ∧
    LoggedInWith config platform conn st.username user past

/-- What a thread in the middle of a login or a transfer tells of the past. -/
structure ActivityTraced (conn : Nat) (past : List FtpLabel) (st : ConnState) : Prop where
  claiming : ∀ ftpPath runId, st.activity = .claimingSession ftpPath runId →
    st.pendingUser ≠ "" ∧ ∃ user, user.ftpPath = ftpPath ∧ user.runId = runId ∧
      PasswordAccepted config platform conn st.pendingUser user past
  opening : ∀ requested, st.activity = .opening requested → Granted config st requested
  sending : ∀ requested dataSsl bytesSent, st.activity = .sending requested dataSsl bytesSent →
    Granted config st requested ∧ (config.ftps = true → dataSsl = true)

/-- The invariant of a run: its past explains the token store and every
connection that is not closed. -/
structure Explained (past : List FtpLabel) (server : FtpServer) : Prop where
  tokens : TokensTraced config platform past server.shared.tokens
  connections : ∀ conn st, server.connections conn = some st → st.activity ≠ .closed →
    LoginTraced config platform conn past st ∧ ActivityTraced config platform conn past st

end Invariant

section Kept

variable {config : FtpConfig} {platform : Platform} {conn : Nat} {past : List FtpLabel}
  {label : FtpLabel} {st st' : ConnState}

/-! ## Other connections -/

theorem LoginTraced.other (traced : LoginTraced config platform conn past st)
    (elsewhere : ¬ OnConnection conn label) :
    LoginTraced config platform conn (past ++ [label]) st where
  upgraded ssl := (traced.upgraded ssl).later
  isProtected prot :=
    (traced.isProtected prot).later fun clears => elsewhere clears.1.onConnection
  secured := traced.secured
  waiting := traced.waiting
  loggedIn authenticated := by
    obtain ⟨user, allowed, loggedIn⟩ := traced.loggedIn authenticated
    exact ⟨user, allowed, loggedIn.later fun changes => elsewhere changes.onConnection⟩

theorem ActivityTraced.other (traced : ActivityTraced config platform conn past st)
    (elsewhere : ¬ OnConnection conn label) :
    ActivityTraced config platform conn (past ++ [label]) st where
  claiming ftpPath runId activity := by
    obtain ⟨named, user, path, run, accepted⟩ := traced.claiming ftpPath runId activity
    exact ⟨named, user, path, run, accepted.later elsewhere⟩
  opening := traced.opening
  sending := traced.sending

/-! ## The connection that takes the step -/

theorem LoginTraced.later (traced : LoginTraced config platform conn past st)
    (same : SameLogin st st') (login : ¬ ChangesLogin conn label) (data : ¬ ClearsData conn label) :
    LoginTraced config platform conn (past ++ [label]) st' where
  upgraded ssl := (traced.upgraded (same.ssl ▸ ssl)).later
  isProtected prot := (traced.isProtected (same.dataProtP ▸ prot)).later data
  secured ftps ssl := by
    rw [same.authenticated, same.pendingUser]
    exact traced.secured ftps (same.ssl ▸ ssl)
  waiting named := by
    rw [same.authenticated]
    exact traced.waiting (same.pendingUser ▸ named)
  loggedIn authenticated := by
    rw [same.allowedPath, same.username]
    obtain ⟨user, allowed, loggedIn⟩ := traced.loggedIn (same.authenticated ▸ authenticated)
    exact ⟨user, allowed, loggedIn.later login⟩

theorem LoginTraced.settled (traced : LoginTraced config platform conn past st)
    (same : SameLogin st st') (settled : Settled label.outputs) :
    LoginTraced config platform conn (past ++ [label]) st' :=
  traced.later same settled.not_changes settled.not_clears

theorem ActivityTraced.of_calm (calm : st.activity.calm = true) :
    ActivityTraced config platform conn past st where
  claiming ftpPath runId activity := by
    rw [activity] at calm
    cases calm
  opening requested activity := by
    rw [activity] at calm
    cases calm
  sending requested dataSsl bytesSent activity := by
    rw [activity] at calm
    cases calm

theorem Granted.same {requested : String} (granted : Granted config st requested)
    (same : SameLogin st st') : Granted config st' requested where
  authenticated := same.authenticated.trans granted.authenticated
  allowed := granted.allowed.trans same.allowedPath.symm
  isProtected ftps := same.dataProtP.trans (granted.isProtected ftps)

theorem ActivityTraced.of_sending {requested : String} {dataSsl : Bool} {bytesSent : Nat}
    (activity : st.activity = .sending requested dataSsl bytesSent)
    (granted : Granted config st requested) (secured : config.ftps = true → dataSsl = true) :
    ActivityTraced config platform conn past st where
  claiming ftpPath runId other := by
    rw [activity] at other
    cases other
  opening requested other := by
    rw [activity] at other
    cases other
  sending requested dataSsl bytesSent same := by
    obtain ⟨rfl, rfl, rfl⟩ := Activity.sending.inj (activity.symm.trans same)
    exact ⟨granted, secured⟩

theorem LoginTraced.user (traced : LoginTraced config platform conn past st) (arg : String)
    (handles : HandlesLine conn "USER" label) (secured : tlsRequiredButMissing config st = false) :
    LoginTraced config platform conn (past ++ [label])
      { st with pendingUser := arg, authenticated := false, username := "", runId := "",
                allowedPath := "" } where
  upgraded ssl := (traced.upgraded ssl).later
  isProtected prot := (traced.isProtected prot).later (handles.not_clears (by decide))
  secured ftps ssl := by
    change st.ssl = false at ssl
    rw [tlsRequiredButMissing, ftps, ssl] at secured
    cases secured
  waiting _ := rfl
  loggedIn authenticated := by cases authenticated

theorem LoginTraced.forget (traced : LoginTraced config platform conn past st)
    (settled : Settled label.outputs) :
    LoginTraced config platform conn (past ++ [label])
      { st with pendingUser := "", activity := .reading } where
  upgraded ssl := (traced.upgraded ssl).later
  isProtected prot := (traced.isProtected prot).later settled.not_clears
  secured ftps ssl := ⟨(traced.secured ftps ssl).1, rfl⟩
  waiting named := absurd rfl named
  loggedIn := (traced.settled (.refl st) settled).loggedIn

theorem LoginTraced.login (traced : LoginTraced config platform conn past st) {user : VirtualUser}
    (named : st.pendingUser ≠ "")
    (accepted : PasswordAccepted config platform conn st.pendingUser user past)
    (completes : CompletesLogin conn st.pendingUser user.runId user.ftpPath label) :
    LoginTraced config platform conn (past ++ [label])
      { st with authenticated := true, username := st.pendingUser, runId := user.runId,
                allowedPath := user.ftpPath, pendingUser := "", activity := .reading } where
  upgraded ssl := (traced.upgraded ssl).later
  isProtected prot := (traced.isProtected prot).later fun clears =>
    clears.1.not_completes _ _ _ completes
  secured ftps ssl := absurd (traced.secured ftps ssl).2 named
  waiting named := absurd rfl named
  loggedIn _ := ⟨user, rfl, .now ⟨completes, accepted⟩⟩

theorem LoginTraced.upgrade (traced : LoginTraced config platform conn past st) (token : String)
    (upgrades : UpgradesTls conn label) (handles : HandlesLine conn "AUTH" label) :
    LoginTraced config platform conn (past ++ [label])
      { st with tlsToken := token, ssl := true } where
  upgraded _ := .now upgrades
  isProtected prot := (traced.isProtected prot).later (handles.not_clears (by decide))
  secured _ ssl := by cases ssl
  waiting := traced.waiting
  loggedIn authenticated := by
    obtain ⟨user, allowed, loggedIn⟩ := traced.loggedIn authenticated
    exact ⟨user, allowed, loggedIn.later (handles.not_changes (by decide))⟩

theorem LoginTraced.prot (traced : LoginTraced config platform conn past st) (level : Bool)
    (handles : HandlesLine conn "PROT" label)
    (isProtected : level = true → ProtectsData conn label) :
    LoginTraced config platform conn (past ++ [label]) { st with dataProtP := level } where
  upgraded ssl := (traced.upgraded ssl).later
  isProtected prot := .now (isProtected prot)
  secured := traced.secured
  waiting := traced.waiting
  loggedIn authenticated := by
    obtain ⟨user, allowed, loggedIn⟩ := traced.loggedIn authenticated
    exact ⟨user, allowed, loggedIn.later (handles.not_changes (by decide))⟩

theorem ActivityTraced.of_claiming {ftpPath runId : String} {user : VirtualUser}
    (activity : st.activity = .claimingSession ftpPath runId) (named : st.pendingUser ≠ "")
    (path : user.ftpPath = ftpPath) (run : user.runId = runId)
    (accepted : PasswordAccepted config platform conn st.pendingUser user past) :
    ActivityTraced config platform conn past st where
  claiming ftpPath runId same := by
    obtain ⟨rfl, rfl⟩ := Activity.claimingSession.inj (activity.symm.trans same)
    exact ⟨named, user, path, run, accepted⟩
  opening requested other := by cases activity.symm.trans other
  sending requested dataSsl bytesSent other := by cases activity.symm.trans other

theorem ActivityTraced.of_opening {requested : String}
    (activity : st.activity = .opening requested) (granted : Granted config st requested) :
    ActivityTraced config platform conn past st where
  claiming ftpPath runId other := by cases activity.symm.trans other
  opening requested same := by
    obtain rfl := Activity.opening.inj (activity.symm.trans same)
    exact granted
  sending requested dataSsl bytesSent other := by cases activity.symm.trans other

/-- A step of a connection keeps what its state tells of the past. -/
theorem Effect.traced {shared : Shared} {event : ConnEvent} {r : Reaction}
    (effect : Effect config shared st event r) (happened : label = ⟨.connection conn event, r.outputs⟩)
    (tokens : TokensTraced config platform past shared.tokens)
    (login : LoginTraced config platform conn past st)
    (activity : ActivityTraced config platform conn past st) (stays : r.state.activity ≠ .closed) :
    LoginTraced config platform conn (past ++ [label]) r.state ∧
      ActivityTraced config platform conn (past ++ [label]) r.state := by
  subst happened
  cases effect with
  | quiet tokensKept same calm quiet =>
      exact ⟨login.settled same quiet.settled, .of_calm calm⟩
  | user arg word secured reading =>
      refine ⟨login.user arg ⟨_, _, rfl, word⟩ secured, .of_calm ?_⟩
      exact congrArg Activity.calm reading
  | refused quiet => exact ⟨login.forget quiet.settled, .of_calm rfl⟩
  | password line named found unconsumed unexpired =>
      refine ⟨login.settled ⟨rfl, rfl, rfl, rfl, rfl, rfl⟩ ?_,
        .of_claiming rfl named rfl rfl (.now ⟨?_, tokens _ _ found unconsumed⟩)⟩
      · intro o member
        cases member
      · exact ⟨_, _, rfl, line, unexpired⟩
  | login claiming tokensKept =>
      obtain ⟨named, user, rfl, rfl, accepted⟩ := activity.claiming _ _ claiming
      refine ⟨login.login named accepted ⟨rfl, st.clientIp, ?_⟩, .of_calm rfl⟩
      exact List.mem_cons_self
  | upgrade word accepted reading =>
      refine ⟨login.upgrade _ ⟨_, _, rfl, word, accepted, List.mem_singleton.mpr rfl⟩
        ⟨_, _, rfl, word⟩, .of_calm ?_⟩
      exact congrArg Activity.calm reading
  | protect word reading =>
      refine ⟨login.prot true ⟨_, _, rfl, word⟩ fun _ => ⟨⟨_, _, rfl, word⟩, ?_⟩, .of_calm ?_⟩
      · exact List.mem_singleton.mpr rfl
      · exact congrArg Activity.calm reading
  | clear word reading =>
      refine ⟨login.prot false ⟨_, _, rfl, word⟩ Bool.false_ne_true.elim, .of_calm ?_⟩
      exact congrArg Activity.calm reading
  | retrieve authenticated isProtected quiet =>
      have granted : Granted config st st.allowedPath := ⟨authenticated, rfl, isProtected⟩
      have same : SameLogin st { st with activity := .opening st.allowedPath } :=
        ⟨rfl, rfl, rfl, rfl, rfl, rfl⟩
      exact ⟨login.settled same quiet.settled, .of_opening rfl (granted.same same)⟩
  | opened opening tokensKept same sending quiet =>
      have granted := activity.opening _ opening
      refine ⟨login.settled same quiet.settled, .of_sending sending (granted.same same) ?_⟩
      intro ftps
      rw [ftps, granted.isProtected ftps]
      rfl
  | @chunk _ requested dataSsl bytesSent bytes written sending =>
      obtain ⟨granted, secured⟩ := activity.sending _ _ _ sending
      cases written with
      | true =>
          have same : SameLogin st
              { st with activity := .sending requested dataSsl (bytesSent + bytes.length) } :=
            ⟨rfl, rfl, rfl, rfl, rfl, rfl⟩
          refine ⟨login.settled same ?_, .of_sending rfl (granted.same same) secured⟩
          intro o member
          rw [List.mem_singleton.mp member]
          rfl
      | false =>
          refine ⟨login.settled ⟨rfl, rfl, rfl, rfl, rfl, rfl⟩ ?_, .of_calm rfl⟩
          simp [sendChunk, Settled, FtpOutput.settled]
  | complete sending =>
      refine ⟨login.later ⟨rfl, rfl, rfl, rfl, rfl, rfl⟩ ?_ ?_, .of_calm rfl⟩
      · simp [ChangesLogin, CompletesLogin, finishFile]
      · simp [ClearsData, finishFile]
  | closed tokensKept closed => exact absurd closed stays

/-! ## The token store -/

theorem eq_or_of_update {κ υ : Type*} [DecidableEq κ] {f : κ → Option υ} {k k' : κ} {v v' : υ}
    (found : Function.update f k (some v) k' = some v') :
    (k' = k ∧ v' = v) ∨ (k' ≠ k ∧ f k' = some v') := by
  by_cases same : k' = k
  · rw [same, Function.update_self] at found
    exact .inl ⟨same, (Option.some.inj found).symm⟩
  · rw [Function.update_of_ne same] at found
    exact .inr ⟨same, found⟩

theorem TokensTraced.later {tokens : TokenStore} (traced : TokensTraced config platform past tokens)
    (consumes : ∀ username, ¬ ConsumesToken username label)
    (withdraws : ∀ username, ¬ WithdrawsToken config platform username label) :
    TokensTraced config platform (past ++ [label]) tokens := by
  intro username user found unconsumed
  exact (traced username user found unconsumed).later ⟨consumes username, withdraws username⟩

theorem TokensTraced.markConsumed {tokens : TokenStore} {username : String}
    (traced : TokensTraced config platform past tokens)
    (consumes : ∀ other, ConsumesToken other label → other = username)
    (withdraws : ∀ other, ¬ WithdrawsToken config platform other label) :
    TokensTraced config platform (past ++ [label]) (tokens.markConsumed username) := by
  intro other user found unconsumed
  by_cases same : other = username
  · rw [same, TokenStore.markConsumed, Function.update_self] at found
    obtain ⟨before, -, rfl⟩ := Option.map_eq_some_iff.mp found
    cases unconsumed
  · rw [TokenStore.markConsumed, Function.update_of_ne same] at found
    exact (traced other user found unconsumed).later
      ⟨fun consumed => same (consumes other consumed), withdraws other⟩

theorem TokensTraced.remove {tokens : TokenStore} {username : String}
    (traced : TokensTraced config platform past tokens)
    (withdraws : ∀ other, WithdrawsToken config platform other label → other = username)
    (consumes : ∀ other, ¬ ConsumesToken other label) :
    TokensTraced config platform (past ++ [label]) (tokens.remove username) := by
  intro other user found unconsumed
  by_cases same : other = username
  · rw [same, TokenStore.remove, Function.update_self] at found
    cases found
  · rw [TokenStore.remove, Function.update_of_ne same] at found
    exact (traced other user found unconsumed).later
      ⟨consumes other, fun withdrawn => same (withdraws other withdrawn)⟩

/-- A step of a connection leaves only live tokens unconsumed. -/
theorem Effect.tokensTraced {shared : Shared} {event : ConnEvent} {r : Reaction}
    (effect : Effect config shared st event r) (happened : label = ⟨.connection conn event, r.outputs⟩)
    (tokens : TokensTraced config platform past shared.tokens) :
    TokensTraced config platform (past ++ [label]) r.shared.tokens := by
  have withdraws : ∀ username, ¬ WithdrawsToken config platform username label :=
    OnConnection.not_withdraws ⟨event, by rw [happened]⟩
  subst happened
  have kept : r.shared.tokens = shared.tokens →
      (∀ username, ¬ ConsumesToken username ⟨.connection conn event, r.outputs⟩) →
      TokensTraced config platform (past ++ [⟨.connection conn event, r.outputs⟩])
        r.shared.tokens := by
    intro same consumes
    rw [same]
    exact tokens.later consumes withdraws
  cases effect with
  | quiet same _ _ quiet => exact kept same quiet.settled.not_consumes
  | user => exact kept rfl (by simp [ConsumesToken, send])
  | refused quiet => exact kept rfl quiet.settled.not_consumes
  | password => exact kept rfl (by simp [ConsumesToken])
  | login claiming same => exact kept same (by simp [ConsumesToken])
  | upgrade => exact kept rfl (by simp [ConsumesToken, send])
  | protect => exact kept rfl (by simp [ConsumesToken, send])
  | clear => exact kept rfl (by simp [ConsumesToken, send])
  | retrieve _ _ quiet => exact kept rfl quiet.settled.not_consumes
  | opened _ same _ _ quiet => exact kept same quiet.settled.not_consumes
  | @chunk _ _ _ _ _ written _ =>
      cases written with
      | true => exact kept rfl (by simp [ConsumesToken, sendChunk])
      | false => exact kept rfl (by simp [ConsumesToken, sendChunk])
  | complete =>
      refine tokens.markConsumed (fun other consumes => ?_) withdraws
      obtain ⟨runId, ftpPath, bytes, member⟩ := consumes
      simp only [finishFile, List.mem_cons, FtpOutput.audit.injEq, AuditEntry.retrComplete.injEq,
        reduceCtorEq, List.not_mem_nil, or_false] at member
      exact member.2.1
  | closed same => exact kept same (by simp [ConsumesToken])

end Kept

/-! ## Runs -/

section Runs

variable {config : FtpConfig} {platform : Platform} {past : List FtpLabel} {label : FtpLabel}
  {server server' : FtpServer}

theorem explained_initial : Explained config platform [] (FtpServer.initial config) where
  tokens username user found := by cases found
  connections conn st found := by cases found

/-- The state of a connection before its step, and what the step did. -/
theorem FtpStep.reacted {conn : Nat} (taken : FtpStep config platform server label server')
    {event : ConnEvent} (acts : label.event = .connection conn event) :
    ∃ st r, server.connections conn = some st ∧
      react config server.shared st event = some r ∧ label.outputs = r.outputs ∧
      server' = { server with
        shared := r.shared
        connections := Function.update server.connections conn (some r.state) } := by
  rw [FtpStep, acts] at taken
  obtain ⟨st, found, ran⟩ := Option.bind_eq_some_iff.mp taken
  obtain ⟨r, reacted, same⟩ := Option.map_eq_some_iff.mp ran
  obtain ⟨after, outputs⟩ := Prod.mk.inj same
  exact ⟨st, r, found, reacted, outputs.symm, after.symm⟩

/-- A connection that takes a step is not closed. -/
theorem Explained.acting (explained : Explained config platform past server) {conn : Nat}
    {st : ConnState} (found : server.connections conn = some st) {event : ConnEvent} {r : Reaction}
    (reacted : react config server.shared st event = some r) :
    LoginTraced config platform conn past st ∧ ActivityTraced config platform conn past st := by
  apply explained.connections conn st found
  intro closed
  rw [react_closed closed] at reacted
  cases reacted

/-- A step that no connection takes keeps what their states tell of the past. -/
theorem Explained.elsewhere (explained : Explained config platform past server)
    (elsewhere : ∀ conn, ¬ OnConnection conn label) {conn : Nat} {st : ConnState}
    (found : server.connections conn = some st) (stays : st.activity ≠ .closed) :
    LoginTraced config platform conn (past ++ [label]) st ∧
      ActivityTraced config platform conn (past ++ [label]) st := by
  obtain ⟨login, activity⟩ := explained.connections conn st found stays
  exact ⟨login.other (elsewhere conn), activity.other (elsewhere conn)⟩

theorem Explained.issue (explained : Explained config platform past server) {username : String}
    {user : VirtualUser} (issues : ∀ username' user',
      IssuesToken config platform username' user' label ↔ username' = username ∧ user' = user)
    (consumes : ∀ username, ¬ ConsumesToken username label)
    (removes : ∀ username, label.event ≠ .remove username) :
    TokensTraced config platform (past ++ [label])
      (server.shared.tokens.insert username user) := by
  intro username' user' found unconsumed
  rcases eq_or_of_update found with new | ⟨apart, before⟩
  · exact .now ((issues _ _).mpr new)
  · refine (explained.tokens username' user' before unconsumed).later ⟨consumes username', ?_⟩
    rintro (removed | ⟨other, issued⟩)
    · exact removes username' removed
    · exact apart ((issues _ _).mp issued).1

/-- Tokens taken out of the store leave live ones. -/
theorem TokensTraced.of_subset {tokens tokens' : TokenStore}
    (traced : TokensTraced config platform past tokens)
    (subset : ∀ username user, tokens' username = some user → tokens username = some user) :
    TokensTraced config platform past tokens' :=
  fun username user found => traced username user (subset username user found)

theorem Explained.step (explained : Explained config platform past server)
    (taken : FtpStep config platform server label server') :
    Explained config platform (past ++ [label]) server' := by
  obtain ⟨event, outputs⟩ := label
  cases event with
  | issueToken runId ftpPath ttlMin now tokenId randomPassword =>
      obtain ⟨rfl, rfl⟩ := Prod.mk.inj (Option.some.inj taken)
      refine ⟨explained.issue ?_ ?_ ?_, fun conn st found stays => explained.elsewhere ?_ found stays⟩
      · intro username user
        constructor
        · rintro ⟨_, _, _, _, _, _, same, issued⟩
          obtain ⟨rfl, rfl, rfl, rfl, rfl, rfl⟩ := FtpEvent.issueToken.inj same
          rw [issued]
          exact ⟨rfl, rfl⟩
        · rintro ⟨rfl, rfl⟩
          exact ⟨runId, ftpPath, ttlMin, now, tokenId, randomPassword, rfl, rfl⟩
      · simp [ConsumesToken]
      · simp
      · simp [OnConnection]
  | sweepExpired now =>
      obtain ⟨rfl, rfl⟩ := Prod.mk.inj (Option.some.inj taken)
      refine ⟨.later (explained.tokens.of_subset ?_) ?_ ?_,
        fun conn st found stays => explained.elsewhere ?_ found stays⟩
      · exact fun username user found => (Option.filter_eq_some_iff.mp found).1
      · simp [ConsumesToken]
      · simp [WithdrawsToken, IssuesToken]
      · simp [OnConnection]
  | remove username =>
      obtain ⟨rfl, rfl⟩ := Prod.mk.inj (Option.some.inj taken)
      refine ⟨?_, fun conn st found stays => explained.elsewhere ?_ found stays⟩
      · refine explained.tokens.remove (fun other withdraws => ?_) ?_
        · simpa [WithdrawsToken, IssuesToken, eq_comm] using withdraws
        · simp [ConsumesToken]
      · simp [OnConnection]
  | accept clientIp =>
      obtain ⟨rfl, rfl⟩ := Prod.mk.inj (Option.some.inj taken)
      refine ⟨explained.tokens.later ?_ ?_, fun conn st found stays => ?_⟩
      · simp [ConsumesToken]
      · simp [WithdrawsToken, IssuesToken]
      · rcases eq_or_of_update found with ⟨rfl, rfl⟩ | ⟨apart, before⟩
        · refine ⟨⟨?_, ?_, ?_, ?_, ?_⟩, .of_calm rfl⟩
          · exact Bool.false_ne_true.elim
          · exact Bool.false_ne_true.elim
          · exact fun _ _ => ⟨rfl, rfl⟩
          · exact fun _ => rfl
          · exact Bool.false_ne_true.elim
        · refine explained.elsewhere ?_ before stays
          simp [OnConnection]
  | connection conn event =>
      obtain ⟨st, r, found, reacted, rfl, rfl⟩ := taken.reacted rfl
      have effect := react_effect reacted
      refine ⟨effect.tokensTraced rfl explained.tokens, fun other st' found' stays => ?_⟩
      rcases eq_or_of_update found' with ⟨rfl, rfl⟩ | ⟨apart, before⟩
      · obtain ⟨login, activity⟩ := explained.acting found reacted
        exact effect.traced rfl explained.tokens login activity stays
      · obtain ⟨login, activity⟩ := explained.connections other st' before stays
        have elsewhere : ¬ OnConnection other ⟨.connection conn event, r.outputs⟩ :=
          fun on => apart (on.inj ⟨event, rfl⟩)
        exact ⟨login.other elsewhere, activity.other elsewhere⟩

theorem Explained.run (run : Run (FtpStep config platform) (FtpServer.initial config) past server) :
    Explained config platform past server :=
  run.history (Explained config platform) (fun _ _ _ _ explained taken => explained.step taken)
    explained_initial

/-- **Transfers.** File data is handed over only during a granted transfer. -/
theorem Explained.sends_data (explained : Explained config platform past server)
    (taken : FtpStep config platform server label server') {conn : Nat} {file : String}
    {encrypted : Bool} {bytes : List UInt8} (sends : SendsData conn file encrypted bytes label) :
    ∃ st, LoginTraced config platform conn past st ∧
      Granted config st st.allowedPath ∧ file = localPath config.dataDir st.allowedPath ∧
      (config.ftps = true → encrypted = true) := by
  obtain ⟨⟨event, acts⟩, sent⟩ := sends
  obtain ⟨st, r, found, reacted, outputs, -⟩ := taken.reacted acts
  obtain ⟨login, activity⟩ := explained.acting found reacted
  rw [outputs] at sent
  obtain ⟨requested, bytesSent, sending, rfl⟩ := (react_effect reacted).sends_data sent
  obtain ⟨granted, secured⟩ := activity.sending _ _ _ sending
  refine ⟨st, login, ⟨granted.authenticated, rfl, granted.isProtected⟩, ?_, secured⟩
  rw [granted.allowed]

/-- The login was refused for want of TLS. -/
def RefusesLogin (label : FtpLabel) : Prop :=
  ∃ clientIp, label.outputs = [.audit (.plaintextLoginRefused clientIp),
    .reply 530 "TLS required: send AUTH TLS before USER/PASS."]

/-- **Credentials.** Before the TLS upgrade a required `USER` or `PASS` changes
nothing. -/
theorem Explained.refuses (explained : Explained config platform past server)
    (taken : FtpStep config platform server label server') (ftps : config.ftps = true) {conn : Nat}
    (handles : HandlesLine conn "USER" label ∨ HandlesLine conn "PASS" label) :
    Once (UpgradesTls conn) past ∨ (server' = server ∧ RefusesLogin label) := by
  obtain ⟨received, answer, acts, word⟩ : ∃ received answer,
      label.event = .connection conn (.line received answer) ∧
        ((parseLine (readLine received)).1 = "USER" ∨
          (parseLine (readLine received)).1 = "PASS") := by
    rcases handles with ⟨received, answer, acts, word⟩ | ⟨received, answer, acts, word⟩
    · exact ⟨received, answer, acts, .inl word⟩
    · exact ⟨received, answer, acts, .inr word⟩
  obtain ⟨st, r, found, reacted, outputs, after⟩ := taken.reacted acts
  obtain ⟨login, -⟩ := explained.acting found reacted
  cases ssl : st.ssl with
  | true => exact .inl (login.upgraded ssl)
  | false =>
      have missing : tlsRequiredButMissing config st = true := by
        rw [tlsRequiredButMissing, ftps, ssl]
        rfl
      obtain ⟨reading, ⟨⟩⟩ := Option.ite_none_right_eq_some.mp reacted
      rw [handleLine_refused word missing (login.secured ftps ssl).2] at outputs after
      refine .inr ⟨?_, st.clientIp, outputs⟩
      rw [after, ← found, Function.update_eq_self]

/-- **Authorized transfers.** On every run, file data is handed to a connection
only while its login is one with a token that was issued, unexpired and not
consumed when its password was given, and the file is that token's path. When FTPS
is required, nothing comes of `USER` and `PASS` before the connection's TLS
upgrade, and file data is sent encrypted and only after `PROT P`. -/
theorem transfer_authorized
    (run : Run (FtpStep config platform) (FtpServer.initial config) past server)
    (taken : FtpStep config platform server label server') (conn : Nat) :
    (∀ file encrypted bytes, SendsData conn file encrypted bytes label →
      ∃ username user, LoggedInWith config platform conn username user past ∧
        file = localPath config.dataDir user.ftpPath) ∧
    (config.ftps = true → HandlesLine conn "USER" label ∨ HandlesLine conn "PASS" label →
      Once (UpgradesTls conn) past ∨ (server' = server ∧ RefusesLogin label)) ∧
    (config.ftps = true → ∀ file encrypted bytes, SendsData conn file encrypted bytes label →
      ProtectedData conn past ∧ encrypted = true) := by
  have explained := Explained.run run
  refine ⟨?_, fun ftps => explained.refuses taken ftps, ?_⟩
  · intro file encrypted bytes sends
    obtain ⟨st, login, granted, rfl, -⟩ := explained.sends_data taken sends
    obtain ⟨user, path, loggedIn⟩ := login.loggedIn granted.authenticated
    exact ⟨st.username, user, loggedIn, by rw [path]⟩
  · intro ftps file encrypted bytes sends
    obtain ⟨st, login, granted, -, secured⟩ := explained.sends_data taken sends
    exact ⟨login.isProtected (granted.isProtected ftps), secured ftps⟩

/-- The steps of a list of events, if none is refused, and where they lead. -/
def FtpServer.trace (config : FtpConfig) (platform : Platform) (server : FtpServer) :
    List FtpEvent → Option (List FtpLabel × FtpServer)
  | [] => some ([], server)
  | event :: rest =>
      (server.next config platform event).bind fun stepped =>
        (trace config platform stepped.1 rest).map fun later =>
          (⟨event, stepped.2⟩ :: later.1, later.2)

theorem FtpServer.run_of_trace {events : List FtpEvent} {traced : List FtpLabel × FtpServer}
    (steps : server.trace config platform events = some traced) :
    Run (FtpStep config platform) server traced.1 traced.2 := by
  induction events generalizing server traced with
  | nil =>
      obtain rfl := Option.some.inj steps
      exact .refl _
  | cons event rest ih =>
      obtain ⟨stepped, taken, later⟩ := Option.bind_eq_some_iff.mp steps
      obtain ⟨tail, rest, rfl⟩ := Option.map_eq_some_iff.mp later
      exact .cons taken (ih rest)

end Runs

/-- A trainer's session under FTPS, up to the transfer of its file. -/
def ftpsSession : List FtpEvent :=
  [.issueToken "run1" "shard.jsonl" 30 0 "0a1b2c3d" "secret",
    .accept "10.0.0.2",
    .connection 0 (.line "AUTH TLS\r\n".toList { tlsToken := "ticket", tlsAccepted := true }),
    .connection 0 (.line "USER adai_0a1b2c3d\r\n".toList {}),
    .connection 0 (.line "PASS secret\r\n".toList { now := 1 }),
    .connection 0 .acquireSession,
    .connection 0 (.line "PROT P\r\n".toList {}),
    .connection 0 (.line "PASV\r\n".toList {}),
    .connection 0 .allocatePort,
    .connection 0 (.bindPort .bound),
    .connection 0 (.line "RETR /shard.jsonl\r\n".toList { fileExists := true, fileRegular := true }),
    .connection 0 (.acceptData ["10.0.0.9", "10.0.0.2"] ⟨true, some "ticket"⟩ true)]

theorem transfer_authorized_session :
    let config : FtpConfig :=
      { dataDir := "/data", pasvMin := 50000, pasvMax := 50001, ftpsEnabled := true,
        buildFtps := true }
    let platform : Platform := ⟨fun _ text => text, fun _ => ""⟩
    ∃ past label, SendsData 0 "/data/shard.jsonl" true [104, 105] label ∧
      (∃ username user, LoggedInWith config platform 0 username user past ∧
        "/data/shard.jsonl" = localPath "/data" user.ftpPath) ∧
      ProtectedData 0 past := by
  intro config platform
  have session : ((FtpServer.initial config).trace config platform ftpsSession).bind
      (fun traced => (traced.2.next config platform
        (.connection 0 (.chunk [104, 105] true))).map Prod.snd) =
      some [.data "/data/shard.jsonl" true [104, 105]] := by
    decide
  obtain ⟨⟨past, server⟩, steps, last⟩ := Option.bind_eq_some_iff.mp session
  obtain ⟨⟨server', outputs⟩, next, rfl⟩ := Option.map_eq_some_iff.mp last
  have taken : FtpStep config platform server
      ⟨.connection 0 (.chunk [104, 105] true), [.data "/data/shard.jsonl" true [104, 105]]⟩
      server' := next
  have sends : SendsData 0 "/data/shard.jsonl" true [104, 105]
      ⟨.connection 0 (.chunk [104, 105] true), [.data "/data/shard.jsonl" true [104, 105]]⟩ :=
    ⟨⟨_, rfl⟩, List.mem_singleton.mpr rfl⟩
  obtain ⟨login, -, data⟩ := transfer_authorized (FtpServer.run_of_trace steps) taken 0
  exact ⟨past, _, sends, login _ _ _ sends, (data (by decide) _ _ _ sends).1⟩

end Adai.Ftp

import Adai.Ftp.AuthorizedTransfer
import Adai.Math.ResourcePool

/-! # Session counts

A connection that is logged in holds a slot of its run. `USER` on such a connection
forgets the login and keeps the slot, and the end of one for the run without a name keeps
it too. On every run without these steps the count of each run is the number of
connections logged in for it, and at most the maximum (`sessions_counted`). With one of
them it is not: the slot is lost (`relogin_keeps_slot`).
-/

namespace Adai.Ftp

open TransitionSystem SlotCounts

/-! ## Logged in -/

/-- The session of the connection was given up. -/
def Activity.ended : Activity → Bool
  | .closing => true
  | .closed => true
  | _ => false

/-- The run that the connection is logged in for. -/
def ConnState.session (st : ConnState) : Option String :=
  if st.authenticated && !st.activity.ended then some st.runId else none

theorem ConnState.session_of_open {st : ConnState} (goesOn : st.activity.ended = false) :
    st.session = if st.authenticated then some st.runId else none := by
  rw [session, goesOn, Bool.not_false, Bool.and_true]

theorem ConnState.session_of_ended {st : ConnState} (ended : st.activity.ended = true) :
    st.session = none := by
  rw [session, ended, Bool.not_true, Bool.and_false]
  rfl

/-! ## What a step does with the counts -/

/-- The line ends the command loop. -/
def EndsLoop (received : List Char) : Prop :=
  (readLine received).isEmpty = true ∨ (parseLine (readLine received)).1 = "QUIT"

section Effects

variable {config : FtpConfig} {shared : Shared} {st : ConnState}

inductive SessionEffect (config : FtpConfig) (shared : Shared) (st : ConnState) (r : Reaction) :
    Prop
  | keeps (counts : r.shared.activeSessions = shared.activeSessions)
      (same : r.state.session = st.session)
  | claims (runId : String) (free : st.session = none) (own : r.state.session = some runId)
      (room : (shared.activeSessions runId : Int) < config.maxSessionsPerRun)
      (counts : r.shared.activeSessions =
        Function.update shared.activeSessions runId (shared.activeSessions runId + 1))
  | frees (runId : String) (held : st.session = some runId) (own : r.state.session = none)
      (counts : r.shared.activeSessions =
        Function.update shared.activeSessions runId (shared.activeSessions runId - 1))

theorem SessionEffect.same {r : Reaction}
    (counts : r.shared.activeSessions = shared.activeSessions)
    (authenticated : r.state.authenticated = st.authenticated) (runId : r.state.runId = st.runId)
    (before : st.activity.ended = false) (after : r.state.activity.ended = false) :
    SessionEffect config shared st r := by
  refine .keeps counts ?_
  rw [ConnState.session_of_open before, ConnState.session_of_open after, authenticated, runId]

theorem SessionEffect.ite {p : Prop} [Decidable p] {yes no : Reaction}
    (holds : p → SessionEffect config shared st yes)
    (fails : ¬ p → SessionEffect config shared st no) :
    SessionEffect config shared st (if p then yes else no) := by
  split
  · rename_i holds'
    exact holds holds'
  · rename_i fails'
    exact fails fails'

/-! ## Handlers -/

theorem cmdUser_session (reading : st.activity.ended = false) (out : st.authenticated = false)
    (arg : String) : SessionEffect config shared st (cmdUser config shared st arg) := by
  refine .ite (fun _ => .same rfl rfl rfl reading reading) fun _ => .keeps rfl ?_
  rw [ConnState.session_of_open reading, out]
  rfl

theorem cmdPass_session (reading : st.activity.ended = false) (arg : String) (now : Int) :
    SessionEffect config shared st (cmdPass config shared st arg now) := by
  refine .ite (fun _ => .same rfl rfl rfl reading reading) fun _ => ?_
  refine .ite (fun _ => .same rfl rfl rfl reading reading) fun _ => ?_
  split
  · exact .same rfl rfl rfl reading reading
  · exact .same rfl rfl rfl reading rfl

theorem finishPass_session (limited : 0 < config.maxSessionsPerRun)
    (claiming : st.activity.ended = false) (out : st.authenticated = false)
    (ftpPath runId : String) :
    SessionEffect config shared st (finishPass config shared st ftpPath runId) := by
  unfold finishPass
  cases acquired : acquireSession config shared runId with
  | none => exact .same rfl rfl rfl claiming rfl
  | some shared' =>
      rw [acquireSession, if_neg (not_le.mpr limited)] at acquired
      obtain ⟨room, ⟨⟩⟩ := Option.ite_none_left_eq_some.mp acquired
      refine .claims runId ?_ rfl (not_le.mp room) rfl
      rw [ConnState.session_of_open claiming, out]
      rfl

theorem endSession_session (reading : st.activity.ended = false)
    (named : st.authenticated = true → st.runId ≠ "") (farewell : List FtpOutput) :
    SessionEffect config shared st (endSession shared st farewell) := by
  have gone {outputs : List FtpOutput} {shared' : Shared} :
      (Reaction.mk shared' { st with activity := .closing } outputs).state.session = none :=
    ConnState.session_of_ended rfl
  refine .ite (fun loggedIn => ?_) fun loggedOut => ?_
  · refine .frees st.runId ?_ gone rfl
    rw [ConnState.session_of_open reading, if_pos (Bool.and_eq_true_iff.mp loggedIn).1]
  · refine .keeps rfl (gone.trans ?_)
    rw [ConnState.session_of_open reading, if_neg]
    exact fun authenticated => loggedOut (by simp [authenticated, named authenticated])

theorem handleLine_session (reading : st.activity.ended = false) {received : List Char}
    (answer : Answer)
    (user : st.authenticated = true → (parseLine (readLine received)).1 ≠ "USER")
    (ending : st.authenticated = true → EndsLoop received → st.runId ≠ "") :
    SessionEffect config shared st (handleLine config shared st received answer) := by
  have sends {code : Nat} {message : String} {p : Prop} :
      p → SessionEffect config shared st (send shared st code message) :=
    fun _ => .same rfl rfl rfl reading reading
  have tells {st' : ConnState} {outputs : List FtpOutput}
      (same : st'.authenticated = st.authenticated ∧ st'.runId = st.runId ∧
        st'.activity.ended = false) : SessionEffect config shared st ⟨shared, st', outputs⟩ :=
    .same rfl same.1 same.2.1 reading same.2.2
  refine .ite (fun empty => ?_) fun _ => .ite (fun quit => ?_) fun _ => .ite sends fun _ => ?_
  · exact endSession_session reading (fun loggedIn => ending loggedIn (.inl empty)) _
  · exact endSession_session reading (fun loggedIn => ending loggedIn (.inr quit)) _
  refine .ite (fun word => ?_) fun _ => .ite (fun _ => cmdPass_session reading _ _) fun _ => ?_
  · exact cmdUser_session reading (Bool.eq_false_iff.mpr fun loggedIn => user loggedIn word) _
  refine .ite (fun _ => tells ⟨rfl, rfl, reading⟩) fun _ => .ite sends fun _ => ?_
  refine .ite (fun _ => ?_) fun _ => .ite sends fun _ => .ite (fun _ => ?_) fun _ => ?_
  · refine .ite sends fun _ => .ite sends fun _ => .ite sends fun _ => ?_
    exact .ite (fun _ => tells ⟨rfl, rfl, reading⟩) fun _ => tells ⟨rfl, rfl, reading⟩
  · refine .ite (fun _ => tells ⟨rfl, rfl, reading⟩) fun _ => ?_
    exact .ite (fun _ => tells ⟨rfl, rfl, reading⟩) sends
  refine .ite (fun _ => tells ⟨rfl, rfl, reading⟩) fun _ => .ite sends fun _ => .ite sends fun _ => ?_
  refine .ite (fun _ => ?_) fun _ => .ite sends fun _ => .ite (fun _ => ?_) fun _ => ?_
  · unfold cmdPasv
    split
    · exact tells ⟨rfl, rfl, rfl⟩
    · exact .same rfl rfl rfl reading rfl
  · refine .ite (fun _ => tells ⟨rfl, rfl, reading⟩) fun _ => .ite sends fun _ => .ite sends fun _ => ?_
    exact .ite (fun _ => tells ⟨rfl, rfl, reading⟩) fun _ => tells ⟨rfl, rfl, rfl⟩
  refine .ite (fun _ => .ite sends fun _ => .ite sends sends) fun _ => .ite sends fun _ => ?_
  exact .ite sends fun _ => .ite sends sends

/-! ## Steps that keep the balance -/

/-- The event neither names a user on a connection that is logged in, nor ends one that
is logged in for the run without a name. -/
def Keeping (st : ConnState) : ConnEvent → Prop
  | .line received _ =>
      st.authenticated = true →
        (parseLine (readLine received)).1 ≠ "USER" ∧ (EndsLoop received → st.runId ≠ "")
  | _ => True

instance (st : ConnState) (event : ConnEvent) : Decidable (Keeping st event) :=
  match event with
  | .line received _ => inferInstanceAs (Decidable (st.authenticated = true →
      (parseLine (readLine received)).1 ≠ "USER" ∧
        (((readLine received).isEmpty = true ∨ (parseLine (readLine received)).1 = "QUIT") →
          st.runId ≠ "")))
  | .acquireSession | .allocatePort | .bindPort _ | .acceptData _ _ _ | .chunk _ _ | .endOfFile
  | .close => inferInstanceAs (Decidable True)

theorem react_session (limited : 0 < config.maxSessionsPerRun)
    (claiming : ∀ ftpPath runId, st.activity = .claimingSession ftpPath runId →
      st.authenticated = false)
    {event : ConnEvent} (keeping : Keeping st event) {r : Reaction}
    (reacted : react config shared st event = some r) : SessionEffect config shared st r := by
  cases event with
  | line received answer =>
      obtain ⟨reading, ⟨⟩⟩ := Option.ite_none_right_eq_some.mp reacted
      exact handleLine_session (by rw [reading]; rfl) answer (fun loggedIn => (keeping loggedIn).1)
        fun loggedIn => (keeping loggedIn).2
  | acquireSession =>
      simp only [react] at reacted
      split at reacted
      · rename_i ftpPath runId activity
        obtain rfl := Option.some.inj reacted
        exact finishPass_session limited (by rw [activity]; rfl) (claiming _ _ activity) ftpPath runId
      · cases reacted
  | allocatePort =>
      obtain ⟨allocating, ⟨⟩⟩ := Option.ite_none_right_eq_some.mp reacted
      have goesOn : st.activity.ended = false := by rw [allocating]; rfl
      unfold allocatePort
      split
      · exact .same rfl rfl rfl goesOn rfl
      · exact .ite (fun _ => .same rfl rfl rfl goesOn rfl) fun _ => .same rfl rfl rfl goesOn rfl
  | bindPort result =>
      simp only [react] at reacted
      split at reacted
      · rename_i binding
        obtain rfl := Option.some.inj reacted
        have goesOn : st.activity.ended = false := by rw [binding]; rfl
        cases result with
        | noSocket => exact .same rfl rfl rfl goesOn rfl
        | notBound => exact .same rfl rfl rfl goesOn rfl
        | bound => exact .same rfl rfl rfl goesOn rfl
      · cases reacted
  | acceptData peers tls opened =>
      simp only [react] at reacted
      split at reacted
      · rename_i opening
        obtain rfl := Option.some.inj reacted
        have goesOn : st.activity.ended = false := by rw [opening]; rfl
        have counts : ((st.pasvPort.map (releasePasvPort shared)).getD shared).activeSessions =
            shared.activeSessions := by
          cases st.pasvPort with
          | none => rfl
          | some port => rfl
        refine .ite (fun _ => .same counts rfl rfl goesOn rfl) fun _ => ?_
        refine .ite (fun _ => .same counts rfl rfl goesOn rfl) fun _ => ?_
        refine .ite (fun _ => .same counts rfl rfl goesOn rfl) fun _ => ?_
        refine .ite (fun _ => .same counts rfl rfl goesOn rfl) fun _ => ?_
        exact .same counts rfl rfl goesOn rfl
      · cases reacted
  | chunk bytes written =>
      simp only [react] at reacted
      split at reacted
      · rename_i sending
        obtain ⟨-, ⟨⟩⟩ := Option.ite_none_left_eq_some.mp reacted
        have goesOn : st.activity.ended = false := by rw [sending]; rfl
        exact .ite (fun _ => .same rfl rfl rfl goesOn rfl) fun _ => .same rfl rfl rfl goesOn rfl
      · cases reacted
  | endOfFile =>
      simp only [react] at reacted
      split at reacted
      · rename_i sending
        obtain rfl := Option.some.inj reacted
        exact .same rfl rfl rfl (by rw [sending]; rfl) rfl
      · cases reacted
  | close =>
      obtain ⟨closing, ⟨⟩⟩ := Option.ite_none_right_eq_some.mp reacted
      have before : st.session = none := ConnState.session_of_ended (by rw [closing]; rfl)
      unfold closeConnection
      split
      · exact .keeps rfl ((ConnState.session_of_ended rfl).trans before.symm)
      · exact .keeps rfl ((ConnState.session_of_ended rfl).trans before.symm)

end Effects

/-! ## Runs -/

section Runs

variable {config : FtpConfig} {platform : Platform} {server server' : FtpServer}
  {label : FtpLabel} {past : List FtpLabel}

def FtpServer.sessions (server : FtpServer) (conn : Nat) : Option String :=
  (server.connections conn).bind ConnState.session

/-- How many connections are logged in for the run. -/
def FtpServer.loggedIn (server : FtpServer) (runId : String) : Nat :=
  holders server.sessions server.accepted runId

/-- No step of the label loses a slot. -/
def Balanced (server : FtpServer) (label : FtpLabel) : Prop :=
  ∀ conn event st, label.event = .connection conn event → server.connections conn = some st →
    Keeping st event

structure SessionsCounted (config : FtpConfig) (server : FtpServer) : Prop where
  exact_ : Exact server.shared.activeSessions server.sessions server.accepted
  bounded : ∀ runId, (server.shared.activeSessions runId : Int) ≤ config.maxSessionsPerRun
  numbered : ∀ conn, server.accepted ≤ conn → server.connections conn = none

theorem sessionsCounted_initial (limited : 0 < config.maxSessionsPerRun) :
    SessionsCounted config (FtpServer.initial config) where
  exact_ := exact_initial _
  bounded _ := limited.le
  numbered _ _ := rfl

theorem sessions_update (shared : Shared) (conn : Nat) (st : ConnState) :
    FtpServer.sessions
        { server with shared, connections := Function.update server.connections conn (some st) } =
      Function.update server.sessions conn st.session := by
  funext other
  by_cases same : other = conn
  · subst same
    simp only [FtpServer.sessions, Function.update_self]
    rfl
  · simp only [FtpServer.sessions, Function.update_of_ne same]

/-- A step of a connection keeps the counts exact. -/
theorem SessionEffect.counted {conn : Nat} {st : ConnState} {r : Reaction}
    (effect : SessionEffect config server.shared st r) (found : server.connections conn = some st)
    (counted : SessionsCounted config server) :
    Exact r.shared.activeSessions (Function.update server.sessions conn r.state.session)
        server.accepted ∧
      ∀ runId, (r.shared.activeSessions runId : Int) ≤ config.maxSessionsPerRun := by
  obtain ⟨exact_, bounded, numbered⟩ := counted
  have before : server.sessions conn = st.session := by
    rw [FtpServer.sessions, found]
    rfl
  have accepted : conn < server.accepted := by
    by_contra beyond
    rw [numbered conn (not_lt.mp beyond)] at found
    cases found
  cases effect with
  | keeps counts same =>
      rw [counts, same, ← before, Function.update_eq_self]
      exact ⟨exact_, bounded⟩
  | claims runId free own room counts =>
      rw [counts, own]
      refine ⟨exact_.take accepted (before.trans free), fun other => ?_⟩
      by_cases same : other = runId
      · rw [same, Function.update_self]
        push_cast
        omega
      · rw [Function.update_of_ne same]
        exact bounded other
  | frees runId held own counts =>
      rw [counts, own]
      refine ⟨exact_.giveBack accepted (before.trans held), fun other => ?_⟩
      by_cases same : other = runId
      · rw [same, Function.update_self]
        have := bounded runId
        omega
      · rw [Function.update_of_ne same]
        exact bounded other

theorem SessionsCounted.step (counted : SessionsCounted config server)
    (limited : 0 < config.maxSessionsPerRun) (explained : Explained config platform past server)
    (taken : FtpStep config platform server label server') (balanced : Balanced server label) :
    SessionsCounted config server' := by
  obtain ⟨event, outputs⟩ := label
  cases event with
  | issueToken =>
      obtain ⟨rfl, -⟩ := Prod.mk.inj (Option.some.inj taken)
      exact ⟨counted.exact_, counted.bounded, counted.numbered⟩
  | sweepExpired =>
      obtain ⟨rfl, -⟩ := Prod.mk.inj (Option.some.inj taken)
      exact ⟨counted.exact_, counted.bounded, counted.numbered⟩
  | remove =>
      obtain ⟨rfl, -⟩ := Prod.mk.inj (Option.some.inj taken)
      exact ⟨counted.exact_, counted.bounded, counted.numbered⟩
  | accept clientIp =>
      obtain ⟨rfl, -⟩ := Prod.mk.inj (Option.some.inj taken)
      have same := @sessions_update server server.shared server.accepted { clientIp }
      have empty : server.sessions server.accepted = none := by
        rw [FtpServer.sessions, counted.numbered server.accepted (le_refl _)]
        rfl
      have own : ConnState.session { clientIp } = server.sessions server.accepted := empty.symm
      rw [own, Function.update_eq_self] at same
      refine ⟨?_, counted.bounded, fun conn above => ?_⟩
      · change Exact _ (FtpServer.sessions { server with
          shared := server.shared
          connections := Function.update server.connections server.accepted (some { clientIp }) })
          (server.accepted + 1)
        rw [same]
        exact counted.exact_.arrive empty
      · change server.accepted + 1 ≤ conn at above
        change Function.update server.connections server.accepted (some { clientIp }) conn = none
        rw [Function.update_of_ne (by omega)]
        exact counted.numbered conn (by omega)
  | connection conn event =>
      obtain ⟨st, r, found, reacted, -, rfl⟩ := taken.reacted rfl
      obtain ⟨login, activity⟩ := explained.acting found reacted
      have effect := react_session limited
        (fun ftpPath runId claiming =>
          login.waiting (activity.claiming ftpPath runId claiming).1)
        (balanced conn event st rfl found) reacted
      obtain ⟨exact_, bounded⟩ := effect.counted found counted
      rw [← sessions_update] at exact_
      refine ⟨exact_, bounded, fun other above => ?_⟩
      have apart : other ≠ conn := by
        rintro rfl
        rw [counted.numbered other above] at found
        cases found
      change Function.update server.connections conn (some r.state) other = none
      rw [Function.update_of_ne apart]
      exact counted.numbered other above

/-- **Session counts.** On every run whose steps lose no slot, the count of a run is the
number of connections logged in for it, and at most the maximum. -/
theorem sessions_counted (limited : 0 < config.maxSessionsPerRun)
    (run : Run (Restrict (FtpStep config platform) Balanced) (FtpServer.initial config) past server)
    (runId : String) :
    server.shared.activeSessions runId = server.loggedIn runId ∧
      (server.shared.activeSessions runId : Int) ≤ config.maxSessionsPerRun := by
  have counted : Explained config platform past server ∧ SessionsCounted config server :=
    run.history (fun past server =>
        Explained config platform past server ∧ SessionsCounted config server)
      (fun _ _ _ _ holds taken => ⟨holds.1.step taken.1,
        holds.2.step limited holds.1 taken.1 taken.2⟩)
      ⟨explained_initial, sessionsCounted_initial limited⟩
  exact ⟨counted.2.exact_ runId, counted.2.bounded runId⟩

/-- No event of the list loses a slot. -/
def FtpServer.balanced (config : FtpConfig) (platform : Platform) (server : FtpServer) :
    List FtpEvent → Bool
  | [] => true
  | event :: rest =>
      (match event with
        | .connection conn event =>
            (server.connections conn).all fun st => decide (Keeping st event)
        | _ => true) &&
      (server.next config platform event).all fun stepped => balanced config platform stepped.1 rest

theorem FtpServer.run_of_balanced {events : List FtpEvent} {traced : List FtpLabel × FtpServer}
    (steps : server.trace config platform events = some traced)
    (keeps : server.balanced config platform events = true) :
    Run (Restrict (FtpStep config platform) Balanced) server traced.1 traced.2 := by
  induction events generalizing server traced with
  | nil =>
      obtain rfl := Option.some.inj steps
      exact .refl _
  | cons event rest ih =>
      obtain ⟨stepped, taken, later⟩ := Option.bind_eq_some_iff.mp steps
      obtain ⟨tail, others, rfl⟩ := Option.map_eq_some_iff.mp later
      obtain ⟨now, after⟩ := Bool.and_eq_true_iff.mp keeps
      rw [taken] at after
      refine .cons ⟨taken, fun conn event' st acts found => ?_⟩ (ih others after)
      obtain rfl : event = .connection conn event' := acts
      simp only [found] at now
      exact of_decide_eq_true now

end Runs

/-- Two connections of a trainer, one of which is refused and one of which ends. -/
def limitedSession : List FtpEvent :=
  [.issueToken "run1" "shard.jsonl" 30 0 "0a1b2c3d" "secret",
    .accept "10.0.0.2",
    .accept "10.0.0.3",
    .connection 0 (.line "USER adai_0a1b2c3d\r\n".toList {}),
    .connection 1 (.line "USER adai_0a1b2c3d\r\n".toList {}),
    .connection 0 (.line "PASS secret\r\n".toList { now := 1 }),
    .connection 0 .acquireSession,
    .connection 1 (.line "PASS secret\r\n".toList { now := 1 }),
    .connection 1 .acquireSession]

/-- A configuration with one session for each run. -/
def limitedConfig : FtpConfig :=
  { dataDir := "/data", pasvMin := 50000, pasvMax := 50001, maxSessionsPerRun := 1,
    buildFtps := false }

theorem sessions_counted_limited :
    ∃ past server, Run (Restrict (FtpStep limitedConfig ⟨fun _ text => text, fun _ => ""⟩) Balanced)
        (FtpServer.initial limitedConfig) past server ∧
      server.loggedIn "run1" = 1 ∧
      server.shared.activeSessions "run1" = server.loggedIn "run1" := by
  have session : ((FtpServer.initial limitedConfig).trace limitedConfig
        ⟨fun _ text => text, fun _ => ""⟩ limitedSession).any (fun traced =>
          traced.2.loggedIn "run1" == 1) = true ∧
      (FtpServer.initial limitedConfig).balanced limitedConfig ⟨fun _ text => text, fun _ => ""⟩
        limitedSession = true := by
    decide
  obtain ⟨⟨past, server⟩, steps, one⟩ := (Option.any_eq_true _ _).mp session.1
  have run := FtpServer.run_of_balanced steps session.2
  exact ⟨past, server, run, beq_iff_eq.mp one, (sessions_counted (by decide) run "run1").1⟩

/-- `USER` on a connection that is logged in: the slot stays taken and no connection is
logged in. -/
theorem relogin_keeps_slot :
    ¬ ∀ (config : FtpConfig) (platform : Platform) (past : List FtpLabel) (server : FtpServer),
      0 < config.maxSessionsPerRun →
      Run (FtpStep config platform) (FtpServer.initial config) past server → ∀ runId,
        server.shared.activeSessions runId = server.loggedIn runId ∧
          (server.shared.activeSessions runId : Int) ≤ config.maxSessionsPerRun := by
  have session : ((FtpServer.initial limitedConfig).trace limitedConfig
      ⟨fun _ text => text, fun _ => ""⟩
      (limitedSession ++ [.connection 0 (.line "USER adai_0a1b2c3d\r\n".toList {})])).any
        (fun traced => traced.2.shared.activeSessions "run1" != traced.2.loggedIn "run1") = true := by
    decide
  obtain ⟨⟨past, server⟩, steps, differs⟩ := (Option.any_eq_true _ _).mp session
  intro claim
  have counted := claim limitedConfig _ past server (by decide) (FtpServer.run_of_trace steps) "run1"
  exact bne_iff_ne.mp differs counted.1

end Adai.Ftp

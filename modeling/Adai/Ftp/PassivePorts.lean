import Adai.Ftp.AuthorizedTransfer
import Adai.Math.ResourcePool
import Mathlib.Data.List.Nodup

/-! # Passive ports are conserved

A connection owns the port that it binds, and then that of its passive listener. Every
step of a connection keeps, returns or takes a port, or loses a number that is no port
(`react_ports`): the pool and the connections are a resource pool. So on every run each
port of the configuration is free once, or owned by one connection, and free when all
connections have ended (`ports_conserved`).
-/

namespace Adai.Ftp

open TransitionSystem ResourcePool

/-! ## Ownership -/

/-- The port that the connection's thread holds. -/
def ConnState.ownPort (st : ConnState) : Option Int :=
  match st.activity with
  | .binding port => some port
  | _ => st.pasvPort

/-- A thread that is to get a port, or that has ended, has no listener. -/
def Activity.mayListen : Activity → Bool
  | .allocatingPort => false
  | .binding _ => false
  | .closed => false
  | _ => true

def ConnState.Tidy (st : ConnState) : Prop := st.activity.mayListen = false → st.pasvPort = none

theorem ConnState.ownPort_of_mayListen {st : ConnState} (listens : st.activity.mayListen = true) :
    st.ownPort = st.pasvPort := by
  unfold ConnState.ownPort
  split
  · rename_i binding
    rw [binding] at listens
    cases listens
  · rfl

theorem ConnState.ownPort_of_none {st : ConnState} (none : st.pasvPort = none)
    (idle : ∀ port, st.activity ≠ .binding port) : st.ownPort = Option.none := by
  unfold ConnState.ownPort
  split
  · rename_i port binding
    exact absurd binding (idle port)
  · exact none

/-! ## The pool -/

theorem mem_insertPort {port other : Int} {ports : List Int} :
    other ∈ insertPort port ports ↔ other = port ∨ other ∈ ports := by
  induction ports with
  | nil => simp [insertPort]
  | cons first rest ih =>
      unfold insertPort
      split
      · exact List.mem_cons
      · split
        · rename_i same
          rw [same, List.mem_cons]
          exact (or_iff_right_of_imp .inl).symm
        · rw [List.mem_cons, ih, List.mem_cons]
          exact or_left_comm

theorem insertPort_sorted {port : Int} {ports : List Int} (sorted : ports.Pairwise (· < ·)) :
    (insertPort port ports).Pairwise (· < ·) := by
  induction ports with
  | nil => exact List.pairwise_singleton _ _
  | cons first rest ih =>
      obtain ⟨below, later⟩ := List.pairwise_cons.mp sorted
      unfold insertPort
      split
      · rename_i before
        refine List.pairwise_cons.mpr ⟨fun other member => ?_, sorted⟩
        rcases List.mem_cons.mp member with rfl | further
        · exact before
        · exact before.trans (below other further)
      · rename_i notBefore
        split
        · exact sorted
        · rename_i apart
          refine List.pairwise_cons.mpr ⟨fun other member => ?_, ih later⟩
          rcases mem_insertPort.mp member with rfl | further
          · omega
          · exact below other further

/-! ## What a step does with ports -/

section Effects

variable {config : FtpConfig} {shared : Shared} {st : ConnState}

inductive PortEffect (shared : Shared) (st : ConnState) (r : Reaction) : Prop
  | keeps (pool : r.shared.availablePasv = shared.availablePasv)
      (own : r.state.ownPort = st.ownPort)
  | returns (port : Int) (owned : st.ownPort = some port)
      (pool : r.shared.availablePasv = insertPort port shared.availablePasv)
      (own : r.state.ownPort = none)
  | takes (port : Int) (pool : shared.availablePasv = port :: r.shared.availablePasv)
      (empty : st.ownPort = none) (own : r.state.ownPort = some port)
  | loses (number : Int) (negative : number < 0)
      (pool : shared.availablePasv = number :: r.shared.availablePasv)
      (own : r.state.ownPort = st.ownPort)

structure PortStep (shared : Shared) (st : ConnState) (r : Reaction) : Prop where
  effect : PortEffect shared st r
  tidy : r.state.Tidy

theorem PortStep.same {r : Reaction} (pool : r.shared.availablePasv = shared.availablePasv)
    (port : r.state.pasvPort = st.pasvPort) (before : st.activity.mayListen = true)
    (after : r.state.activity.mayListen = true) : PortStep shared st r where
  effect := by
    apply PortEffect.keeps pool
    rw [ConnState.ownPort_of_mayListen after, ConnState.ownPort_of_mayListen before, port]
  tidy none := by
    rw [after] at none
    cases none

theorem PortStep.sends {st' : ConnState} {code : Nat} {message : String}
    (port : st'.pasvPort = st.pasvPort) (before : st.activity.mayListen = true)
    (after : st'.activity.mayListen = true) : PortStep shared st (send shared st' code message) :=
  .same rfl port before after

/-- The port of a listener is returned. -/
theorem PortStep.returned {r : Reaction} {port : Int} (owned : st.pasvPort = some port)
    (before : st.activity.mayListen = true)
    (pool : r.shared.availablePasv = insertPort port shared.availablePasv)
    (gone : r.state.pasvPort = none) (idle : ∀ other, r.state.activity ≠ .binding other) :
    PortStep shared st r where
  effect := .returns port (by rw [ConnState.ownPort_of_mayListen before, owned]) pool
    (ConnState.ownPort_of_none gone idle)
  tidy _ := gone

theorem PortStep.ite {p : Prop} [Decidable p] {yes no : Reaction} (holds : PortStep shared st yes)
    (fails : PortStep shared st no) : PortStep shared st (if p then yes else no) := by
  split
  · exact holds
  · exact fails

/-! ## Handlers -/

theorem acquireSession_availablePasv {runId : String} {shared' : Shared}
    (acquired : acquireSession config shared runId = some shared') :
    shared'.availablePasv = shared.availablePasv := by
  unfold acquireSession at acquired
  split_ifs at acquired
  · rw [Option.some.inj acquired]
  · rw [← Option.some.inj acquired]

theorem cmdUser_ports (reading : st.activity.mayListen = true) (arg : String) :
    PortStep shared st (cmdUser config shared st arg) :=
  .ite (.same rfl rfl reading reading) (.sends rfl reading reading)

theorem cmdPass_ports (reading : st.activity.mayListen = true) (arg : String) (now : Int) :
    PortStep shared st (cmdPass config shared st arg now) := by
  refine .ite (.same rfl rfl reading reading) (.ite (.sends rfl reading reading) ?_)
  split
  · exact .same rfl rfl reading reading
  · exact .same rfl rfl reading rfl

theorem cmdAuthTls_ports (reading : st.activity.mayListen = true) (arg : String) (answer : Answer) :
    PortStep shared st (cmdAuthTls config shared st arg answer) := by
  refine .ite (.sends rfl reading reading) (.ite (.sends rfl reading reading) ?_)
  exact .ite (.sends rfl reading reading)
    (.ite (.sends rfl reading reading) (.sends rfl reading reading))

theorem cmdProt_ports (reading : st.activity.mayListen = true) (arg : String) :
    PortStep shared st (cmdProt shared st arg) :=
  .ite (.sends rfl reading reading) (.ite (.sends rfl reading reading) (.sends rfl reading reading))

theorem cmdPasv_ports (reading : st.activity.mayListen = true) :
    PortStep shared st (cmdPasv shared st) := by
  unfold cmdPasv
  cases listener : st.pasvPort with
  | none =>
      refine ⟨.keeps rfl ?_, fun _ => rfl⟩
      rw [ConnState.ownPort_of_mayListen reading, listener]
      rfl
  | some port => exact .returned listener reading rfl rfl (fun _ binding => by cases binding)

theorem cmdRetr_ports (reading : st.activity.mayListen = true) (arg : String) (answer : Answer) :
    PortStep shared st (cmdRetr config shared st arg answer) := by
  refine .ite (.same rfl rfl reading reading) (.ite (.sends rfl reading reading) ?_)
  refine .ite (.sends rfl reading reading) (.ite (.same rfl rfl reading reading) ?_)
  exact .same rfl rfl reading rfl

theorem cmdSize_ports (reading : st.activity.mayListen = true) (arg : String) (answer : Answer) :
    PortStep shared st (cmdSize shared st arg answer) :=
  .ite (.sends rfl reading reading) (.ite (.sends rfl reading reading) (.sends rfl reading reading))

theorem endSession_ports (reading : st.activity.mayListen = true) (farewell : List FtpOutput) :
    PortStep shared st (endSession shared st farewell) :=
  .ite (.same rfl rfl reading rfl) (.same rfl rfl reading rfl)

theorem handleLine_ports (reading : st.activity.mayListen = true) (received : List Char)
    (answer : Answer) : PortStep shared st (handleLine config shared st received answer) := by
  have sends {code : Nat} {message : String} : PortStep shared st (send shared st code message) :=
    .sends rfl reading reading
  refine .ite (endSession_ports reading _) (.ite (endSession_ports reading _) ?_)
  refine .ite sends (.ite (cmdUser_ports reading _) (.ite (cmdPass_ports reading _ _) ?_))
  refine .ite (.sends rfl reading reading) (.ite sends (.ite (cmdAuthTls_ports reading _ _) ?_))
  refine .ite sends (.ite (cmdProt_ports reading _) (.ite (.same rfl rfl reading reading) ?_))
  refine .ite sends (.ite sends (.ite (cmdPasv_ports reading) (.ite sends ?_)))
  refine .ite (cmdRetr_ports reading _ _) (.ite (cmdSize_ports reading _ _) ?_)
  exact .ite sends (.ite sends (.ite sends sends))

theorem allocatePort_ports (tidy : st.Tidy) (allocating : st.activity = .allocatingPort) :
    PortStep shared st (allocatePort shared st) := by
  have portless : st.pasvPort = none := tidy (by rw [allocating]; rfl)
  have empty : st.ownPort = none :=
    ConnState.ownPort_of_none portless fun port binding => by
      rw [allocating] at binding
      cases binding
  unfold allocatePort
  cases pool : shared.availablePasv with
  | nil =>
      refine ⟨.keeps rfl ?_, fun none => by cases none⟩
      rw [empty]
      exact portless
  | cons port rest =>
      simp only
      by_cases negative : port < 0
      · rw [if_pos negative]
        refine ⟨.loses port negative pool ?_, fun none => by cases none⟩
        rw [empty]
        exact portless
      · rw [if_neg negative]
        exact ⟨.takes port pool empty rfl, fun _ => portless⟩

theorem bindPort_ports (tidy : st.Tidy) {port : Int} (binding : st.activity = .binding port)
    (result : BindResult) : PortStep shared st (bindPort config shared st port result) := by
  have portless : st.pasvPort = none := tidy (by rw [binding]; rfl)
  have owned : st.ownPort = some port := by rw [ConnState.ownPort, binding]
  cases result with
  | noSocket => exact ⟨.returns port owned rfl portless, fun none => by cases none⟩
  | notBound => exact ⟨.returns port owned rfl portless, fun none => by cases none⟩
  | bound => exact ⟨.keeps rfl owned.symm, fun none => by cases none⟩

theorem openData_ports {requested : String} (opening : st.activity = .opening requested)
    (peers : List String) (tls : DataTls) (opened : Bool) :
    PortStep shared st (openData config shared st requested peers tls opened) := by
  have listens : st.activity.mayListen = true := by rw [opening]; rfl
  -- Whatever comes of the connection, the listener is closed and its port returned.
  have closed {st' : ConnState} {outputs : List FtpOutput} (gone : st'.pasvPort = none)
      (after : st'.activity.mayListen = true) :
      PortStep shared st ⟨(st.pasvPort.map (releasePasvPort shared)).getD shared, st', outputs⟩ := by
    cases listener : st.pasvPort with
    | none => exact .same rfl (by rw [gone, listener]) listens after
    | some port =>
        refine .returned listener listens rfl gone fun other binding => ?_
        rw [binding] at after
        cases after
  refine .ite (closed rfl rfl) (.ite (closed rfl rfl) ?_)
  exact .ite (closed rfl rfl) (.ite (closed rfl rfl) (closed rfl rfl))

theorem closeConnection_ports (closing : st.activity = .closing) :
    PortStep shared st (closeConnection shared st) := by
  have listens : st.activity.mayListen = true := by rw [closing]; rfl
  unfold closeConnection
  cases listener : st.pasvPort with
  | none =>
      refine ⟨.keeps rfl ?_, fun _ => rfl⟩
      rw [ConnState.ownPort_of_mayListen listens, listener]
      rfl
  | some port => exact .returned listener listens rfl rfl (fun _ binding => by cases binding)

/-- **Ports.** What a step of a connection does with the ports. -/
theorem react_ports (tidy : st.Tidy) {event : ConnEvent} {r : Reaction}
    (reacted : react config shared st event = some r) : PortStep shared st r := by
  cases event with
  | line received answer =>
      obtain ⟨reading, ⟨⟩⟩ := Option.ite_none_right_eq_some.mp reacted
      exact handleLine_ports (by rw [reading]; rfl) received answer
  | acquireSession =>
      simp only [react] at reacted
      split at reacted
      · rename_i claiming
        obtain rfl := Option.some.inj reacted
        have listens : st.activity.mayListen = true := by rw [claiming]; rfl
        unfold finishPass
        split
        · exact .sends rfl listens rfl
        · rename_i acquired
          exact .same (acquireSession_availablePasv acquired) rfl listens rfl
      · cases reacted
  | allocatePort =>
      obtain ⟨allocating, ⟨⟩⟩ := Option.ite_none_right_eq_some.mp reacted
      exact allocatePort_ports tidy allocating
  | bindPort result =>
      simp only [react] at reacted
      split at reacted
      · rename_i binding
        obtain rfl := Option.some.inj reacted
        exact bindPort_ports tidy binding result
      · cases reacted
  | acceptData peers tls opened =>
      simp only [react] at reacted
      split at reacted
      · rename_i opening
        obtain rfl := Option.some.inj reacted
        exact openData_ports opening peers tls opened
      · cases reacted
  | chunk bytes written =>
      simp only [react] at reacted
      split at reacted
      · rename_i sending
        obtain ⟨-, ⟨⟩⟩ := Option.ite_none_left_eq_some.mp reacted
        have listens : st.activity.mayListen = true := by rw [sending]; rfl
        exact .ite (.same rfl rfl listens rfl) (.same rfl rfl listens rfl)
      · cases reacted
  | endOfFile =>
      simp only [react] at reacted
      split at reacted
      · rename_i sending
        obtain rfl := Option.some.inj reacted
        exact .same rfl rfl (by rw [sending]; rfl) rfl
      · cases reacted
  | close =>
      obtain ⟨closing, ⟨⟩⟩ := Option.ite_none_right_eq_some.mp reacted
      exact closeConnection_ports closing

end Effects

/-! ## Runs -/

section Runs

variable {config : FtpConfig} {platform : Platform} {server server' : FtpServer}
  {label : FtpLabel} {past : List FtpLabel}

def FtpServer.ports (server : FtpServer) : Pool Nat Int where
  free := {port | port ∈ server.shared.availablePasv}
  holds := fun conn => (server.connections conn).bind ConnState.ownPort

/-- The ports of the configuration. -/
def FtpConfig.IsPasvPort (config : FtpConfig) (port : Int) : Prop :=
  config.pasvMin ≤ port ∧ port ≤ config.pasvMax ∧ 0 ≤ port

structure PortsConserved (config : FtpConfig) (server : FtpServer) : Prop where
  sorted : server.shared.availablePasv.Pairwise (· < ·)
  conserved : Conserved {port | config.IsPasvPort port} server.ports
  tidy : ∀ conn st, server.connections conn = some st → st.Tidy
  numbered : ∀ conn, server.accepted ≤ conn → server.connections conn = none

theorem portsConserved_initial : PortsConserved config (FtpServer.initial config) where
  sorted := by
    refine List.pairwise_map.mpr (List.pairwise_lt_range.imp fun before => ?_)
    omega
  conserved := by
    refine conserved_of_free fun port isPort => ?_
    obtain ⟨above, below, -⟩ := isPort
    refine List.mem_map.mpr ⟨(port - config.pasvMin).toNat, List.mem_range.mpr ?_, ?_⟩
    · omega
    · omega
  tidy conn st found := by cases found
  numbered _ _ := rfl

theorem ports_update (shared : Shared) (conn : Nat) (st : ConnState) :
    ({ server with shared, connections := Function.update server.connections conn (some st) } :
        FtpServer).ports =
      ⟨{port | port ∈ shared.availablePasv}, Function.update server.ports.holds conn st.ownPort⟩ := by
  unfold FtpServer.ports
  congr 1
  funext other
  by_cases same : other = conn
  · subst same
    simp only [Function.update_self]
    rfl
  · simp only [Function.update_of_ne same]

/-- A step of a connection is a move of the pool. -/
theorem PortEffect.conserves {conn : Nat} {st : ConnState} {r : Reaction}
    (effect : PortEffect server.shared st r) (found : server.connections conn = some st)
    (sorted : server.shared.availablePasv.Pairwise (· < ·))
    (conserved : Conserved {port | config.IsPasvPort port} server.ports) :
    r.shared.availablePasv.Pairwise (· < ·) ∧
      Conserved {port | config.IsPasvPort port}
        ⟨{port | port ∈ r.shared.availablePasv},
          Function.update server.ports.holds conn r.state.ownPort⟩ := by
  have holds : server.ports.holds conn = st.ownPort := by
    change (server.connections conn).bind _ = _
    rw [found]
    rfl
  have lasting : ∀ port ∈ {port | config.IsPasvPort port}, port ∉ {number : Int | number < 0} :=
    fun port isPort negative => absurd isPort.2.2 (not_le.mpr negative)
  have without {port : Int} {rest : List Int}
      (pool : server.shared.availablePasv = port :: rest) :
      {other | other ∈ rest} = {other | other ∈ server.ports.free ∧ other ≠ port} := by
    rw [pool] at sorted
    have below := (List.pairwise_cons.mp sorted).1
    ext other
    change other ∈ rest ↔ other ∈ server.shared.availablePasv ∧ other ≠ port
    rw [pool, List.mem_cons]
    constructor
    · exact fun later => ⟨.inr later, (below other later).ne'⟩
    · rintro ⟨same | later, apart⟩
      · exact absurd same apart
      · exact later
  cases effect with
  | keeps pool own =>
      rw [pool, own, ← holds, Function.update_eq_self]
      exact ⟨sorted, conserved⟩
  | returns port owned pool own =>
      rw [pool, own]
      refine ⟨insertPort_sorted sorted, ?_⟩
      have moved : Move {number : Int | number < 0} server.ports _ :=
        .giveBack conn port (holds.trans owned)
      have free : {other | other ∈ insertPort port server.shared.availablePasv} =
          {other | other = port ∨ other ∈ server.ports.free} := Set.ext fun _ => mem_insertPort
      rw [free]
      exact moved.conserves conserved lasting
  | takes port pool empty own =>
      have moved : Move {number : Int | number < 0} server.ports _ :=
        .take conn port (show port ∈ server.shared.availablePasv by
          rw [pool]
          exact List.mem_cons_self) (holds.trans empty)
      rw [own, without pool]
      rw [pool] at sorted
      exact ⟨(List.pairwise_cons.mp sorted).2, moved.conserves conserved lasting⟩
  | loses number negative pool own =>
      have moved : Move {number : Int | number < 0} server.ports _ := .lose number negative
      rw [own, ← holds, Function.update_eq_self, without pool]
      rw [pool] at sorted
      exact ⟨(List.pairwise_cons.mp sorted).2, moved.conserves conserved lasting⟩

theorem PortsConserved.step (ports : PortsConserved config server)
    (taken : FtpStep config platform server label server') : PortsConserved config server' := by
  obtain ⟨sorted, conserved, tidy, numbered⟩ := ports
  obtain ⟨event, outputs⟩ := label
  cases event with
  | issueToken =>
      obtain ⟨rfl, -⟩ := Prod.mk.inj (Option.some.inj taken)
      exact ⟨sorted, conserved, tidy, numbered⟩
  | sweepExpired =>
      obtain ⟨rfl, -⟩ := Prod.mk.inj (Option.some.inj taken)
      exact ⟨sorted, conserved, tidy, numbered⟩
  | remove =>
      obtain ⟨rfl, -⟩ := Prod.mk.inj (Option.some.inj taken)
      exact ⟨sorted, conserved, tidy, numbered⟩
  | accept clientIp =>
      obtain ⟨rfl, -⟩ := Prod.mk.inj (Option.some.inj taken)
      have same := @ports_update server server.shared server.accepted { clientIp }
      have empty : server.ports.holds server.accepted = none := by
        change (server.connections server.accepted).bind _ = _
        rw [numbered server.accepted (le_refl _)]
        rfl
      have own : ConnState.ownPort { clientIp } = server.ports.holds server.accepted :=
        empty.symm
      rw [own, Function.update_eq_self] at same
      refine ⟨sorted, ?_, fun conn st found => ?_, fun conn above => ?_⟩
      · change Conserved _ (FtpServer.ports { server with
          shared := server.shared
          connections := Function.update server.connections server.accepted (some { clientIp }) })
        rw [same]
        exact conserved
      · rcases eq_or_of_update found with ⟨-, rfl⟩ | ⟨-, before⟩
        · exact fun _ => rfl
        · exact tidy conn st before
      · change server.accepted + 1 ≤ conn at above
        change Function.update server.connections server.accepted (some { clientIp }) conn = none
        rw [Function.update_of_ne (by omega)]
        exact numbered conn (by omega)
  | connection conn event =>
      obtain ⟨st, r, found, reacted, -, rfl⟩ := taken.reacted rfl
      obtain ⟨effect, tidy'⟩ := react_ports (tidy conn st found) reacted
      obtain ⟨sorted', conserved'⟩ := effect.conserves found sorted conserved
      rw [← ports_update] at conserved'
      refine ⟨sorted', conserved', fun other st' found' => ?_, fun other above => ?_⟩
      · rcases eq_or_of_update found' with ⟨-, rfl⟩ | ⟨-, before⟩
        · exact tidy'
        · exact tidy other st' before
      · have apart : other ≠ conn := by
          rintro rfl
          rw [numbered other above] at found
          cases found
        change Function.update server.connections conn (some r.state) other = none
        rw [Function.update_of_ne apart]
        exact numbered other above

/-- The connection binds the port, or has its listener there. -/
def FtpServer.Owns (server : FtpServer) (conn : Nat) (port : Int) : Prop :=
  ∃ st, server.connections conn = some st ∧ (st.activity = .binding port ∨ st.pasvPort = some port)

theorem PortsConserved.owns_iff (ports : PortsConserved config server) (conn : Nat) (port : Int) :
    server.Owns conn port ↔ server.ports.holds conn = some port := by
  change _ ↔ (server.connections conn).bind _ = _
  cases found : server.connections conn with
  | none => simp [FtpServer.Owns, found]
  | some st =>
      have owns : server.Owns conn port ↔
          st.activity = .binding port ∨ st.pasvPort = some port := by
        simp [FtpServer.Owns, found]
      rw [owns, Option.bind_some]
      by_cases listens : st.activity.mayListen = true
      · rw [ConnState.ownPort_of_mayListen listens, or_iff_right]
        intro binding
        rw [binding] at listens
        cases listens
      · rw [ports.tidy conn st found (Bool.eq_false_iff.mpr listens)]
        unfold ConnState.ownPort
        split
        · rename_i other binding
          simp [binding]
        · rename_i idle
          rw [ports.tidy conn st found (Bool.eq_false_iff.mpr listens)]
          exact iff_of_false (fun owned => owned.elim (idle port) nofun) nofun

theorem portsConserved_of_run
    (run : Run (FtpStep config platform) (FtpServer.initial config) past server) :
    PortsConserved config server :=
  run.invariant (PortsConserved config) (fun _ _ _ ports taken => ports.step taken)
    portsConserved_initial

/-- **Ports.** On every run each port of the configuration is free once, or owned by one
connection; when all connections have ended, it is free. -/
theorem ports_conserved
    (run : Run (FtpStep config platform) (FtpServer.initial config) past server) {port : Int}
    (isPort : config.IsPasvPort port) :
    ((server.shared.availablePasv.count port = 1 ∧ ∀ conn, ¬ server.Owns conn port) ∨
      (port ∉ server.shared.availablePasv ∧ ∃! conn, server.Owns conn port)) ∧
    ((∀ conn st, server.connections conn = some st → st.activity = .closed) →
      server.shared.availablePasv.count port = 1) := by
  have ports := portsConserved_of_run run
  have once (free : port ∈ server.shared.availablePasv) :
      server.shared.availablePasv.count port = 1 :=
    List.count_eq_one_of_mem (ports.sorted.imp fun less => less.ne) free
  have owns (conn : Nat) : server.Owns conn port ↔ server.ports.holds conn = some port :=
    ports.owns_iff conn port
  simp only [owns]
  have split := ports.conserved.free_or_held isPort
  refine ⟨split.imp_left fun free => ⟨once free.1, free.2⟩, fun ended => ?_⟩
  rcases split with ⟨free, -⟩ | ⟨-, conn, held, -⟩
  · exact once free
  · obtain ⟨st, found, own⟩ := Option.bind_eq_some_iff.mp held
    have closed := ended conn st found
    have portless := ports.tidy conn st found (by rw [closed]; rfl)
    rw [ConnState.ownPort, closed] at own
    rw [portless] at own
    cases own

end Runs

/-- A listener that is replaced, and a port that cannot be bound. -/
def passiveSession : List FtpEvent :=
  [.issueToken "run1" "shard.jsonl" 30 0 "0a1b2c3d" "secret",
    .accept "10.0.0.2",
    .connection 0 (.line "USER adai_0a1b2c3d\r\n".toList {}),
    .connection 0 (.line "PASS secret\r\n".toList { now := 1 }),
    .connection 0 .acquireSession,
    .connection 0 (.line "PASV\r\n".toList {}),
    .connection 0 .allocatePort,
    .connection 0 (.bindPort .notBound),
    .connection 0 (.line "PASV\r\n".toList {}),
    .connection 0 .allocatePort,
    .connection 0 (.bindPort .bound),
    .connection 0 (.line [] {}),
    .connection 0 .close]

theorem ports_conserved_session :
    let config : FtpConfig :=
      { dataDir := "/data", pasvMin := 50000, pasvMax := 50001, buildFtps := false }
    ∃ past server, Run (FtpStep config ⟨fun _ text => text, fun _ => ""⟩)
      (FtpServer.initial config) past server ∧ server.shared.availablePasv.count 50000 = 1 := by
  intro config
  have session : ((FtpServer.initial config).trace config ⟨fun _ text => text, fun _ => ""⟩
      passiveSession).any (fun traced => traced.2.accepted == 1 &&
        (traced.2.connections 0).all fun st => st.activity == .closed) = true := by
    decide
  obtain ⟨⟨past, server⟩, steps, ended⟩ := (Option.any_eq_true _ _).mp session
  obtain ⟨accepted, closed⟩ := Bool.and_eq_true_iff.mp ended
  have run := FtpServer.run_of_trace steps
  refine ⟨past, server, run, (ports_conserved run ⟨by decide, by decide, by decide⟩).2 ?_⟩
  intro conn st found
  by_cases first : conn = 0
  · rw [← first, found] at closed
    exact beq_iff_eq.mp closed
  · have later : server.accepted ≤ conn := by
      rw [beq_iff_eq.mp accepted]
      omega
    rw [(portsConserved_of_run run).numbered conn later] at found
    cases found

end Adai.Ftp

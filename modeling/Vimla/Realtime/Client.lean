import Vimla.Lib.Runs

/-!
# The realtime client

`subscribeRealtime` and the sockets it makes. `close` throws for a code that a
page may not use, and the handler that called it ends there. A socket delivers
frames until its close event, which may come long after `close`.
-/

namespace Vimla.Realtime.Client

open List Function

def RECONNECT_BASE_MS : Nat := 500
def RECONNECT_MAX_MS : Nat := 10000
def TERMINAL_CLOSE_CODES : List Nat := [1002, 4002, 4003, 4004, 4005]

/-- What is read of a frame that `realtimeServerFrameSchema` accepts. -/
inductive RealtimeServerFrame (E : Type)
  | HELLO (installationId : String)
  | HEARTBEAT (heartbeatId : String)
  | EVENT (envelope : E)

inductive Payload
  | text (value : String)
  | arrayBuffer (bytes : List UInt8)
  | other

/-- The installation's id as the contract parses it, `JSON.parse` and
`TextDecoder`, and the schema; `none` is `null`, or what does not parse. -/
structure Options (J E : Type) where
  installationId : String
  parseJson : String → Option J
  decode : List UInt8 → String
  safeParse : Option J → Option (RealtimeServerFrame E)

variable {J E : Type} (o : Options J E)

def Options.parseSocketPayload : Payload → Option J
  | .text value => o.parseJson value
  | .arrayBuffer bytes => o.parseJson (o.decode bytes)
  | .other => none

def Options.parsed (data : Payload) : Option (RealtimeServerFrame E) := o.safeParse (o.parseSocketPayload data)

def reconnectDelay (attempt : Nat) : Nat := min RECONNECT_MAX_MS (RECONNECT_BASE_MS * 2 ^ min attempt 8)

inductive ReadyState | CONNECTING | OPEN | CLOSING | CLOSED
  deriving DecidableEq

inductive Callback (E : Type)
  | onOpen
  | onHeartbeat
  | onEvent (envelope : E)

structure State (E : Type) where
  stopped : Bool := false
  socket : Option Nat := none
  retryTimer : Option Nat := none
  retryAttempt : Nat := 0
  /-- How many sockets there are, and their states. -/
  opened : Nat := 0
  readyState : Nat → ReadyState := fun _ => .CLOSED
  /-- The pending timers and their delays, and the next handle. -/
  timers : List (Nat × Nat) := []
  handle : Nat := 0
  /-- The calls that were made, and the socket that caused each. -/
  called : List (Nat × Callback E) := []
  /-- The heartbeats that were answered. -/
  pongs : List (Nat × String) := []

variable (s : State E)

def State.move (i : Nat) (state : ReadyState) : State E := { s with readyState := update s.readyState i state }

def State.call (i : Nat) (callback : Callback E) : State E := { s with called := s.called ++ [(i, callback)] }

/-- `connect`, unless it is stopped. -/
def State.connect : State E :=
  if s.stopped then s else { s.move s.opened .CONNECTING with socket := some s.opened, opened := s.opened + 1 }

/-- `close` of a socket; where it throws, nothing more is done. -/
def State.close (i code : Nat) : State E :=
  if (code = 1000 ∨ 3000 ≤ code ∧ code ≤ 4999) ∧ s.readyState i ≠ .CLOSED then s.move i .CLOSING else s

def State.onmessage (i : Nat) (data : Payload) : State E :=
  match o.parsed data with
  | none => s.close i 1002
  | some (.HELLO installationId) =>
    if installationId ≠ o.installationId then s.close i 1002 else { s with retryAttempt := 0 }.call i .onOpen
  | some (.HEARTBEAT heartbeatId) => { s with pongs := s.pongs ++ [(i, heartbeatId)] }.call i .onHeartbeat
  | some (.EVENT envelope) => s.call i (.onEvent envelope)

def State.onclose (i code : Nat) : State E :=
  let s := { s with socket := s.socket.filter fun current => current ≠ i }
  if s.stopped ∨ code ∈ TERMINAL_CLOSE_CODES then s
  else { s with
    timers := s.timers ++ [(s.handle, reconnectDelay s.retryAttempt)]
    retryAttempt := s.retryAttempt + 1
    retryTimer := some s.handle
    handle := s.handle + 1 }

def State.clearTimeout (handle : Nat) : State E := { s with timers := s.timers.filter fun t => t.1 ≠ handle, retryTimer := none }

/-- The function that `subscribeRealtime` returns. -/
def State.stop : State E :=
  let s := { s with stopped := true }
  let s := s.retryTimer.elim s s.clearTimeout
  s.socket.elim s fun i => { s with socket := none }.close i 1000

inductive Event
  | opened (i : Nat)
  | message (i : Nat) (data : Payload)
  | closed (i code : Nat)
  | timer (handle : Nat)
  | stop

def State.delivers (i : Nat) : Bool := s.readyState i = .OPEN ∨ s.readyState i = .CLOSING

/-- What cannot happen in a state changes nothing. -/
def State.step : Event → State E
  | .opened i => if s.readyState i = .CONNECTING then s.move i .OPEN else s
  | .message i data => if s.delivers i then s.onmessage o i data else s
  | .closed i code => if s.readyState i = .CLOSED then s else (s.move i .CLOSED).onclose i code
  | .timer handle => if handle ∈ s.timers.map Prod.fst then (s.clearTimeout handle).connect else s
  | .stop => s.stop

def run (events : List Event) : State E := events.foldl (State.step o) (State.connect {})

/-- The frame does not pass, or names another installation. -/
def Options.refuses (data : Payload) : Bool :=
  match o.parsed data with
  | none => true
  | some (.HELLO installationId) => installationId ≠ o.installationId
  | some _ => false

def State.live (i : Nat) : Bool := s.readyState i = .CONNECTING ∨ s.readyState i = .OPEN

/-- The events of a socket that were passed on. -/
def State.events (i : Nat) : List E := s.called.filterMap fun (j, callback) =>
  match callback with
  | .onEvent envelope => if j = i then some envelope else none
  | _ => none

/-- What holds of `s`, and of `t` if it comes after `more`. -/
structure RealtimeHolds (s : State E) (more : List Event) (t : State E) : Prop where
  single : ∀ i j, s.live i → s.live j → i = j
  waiting : s.timers ≠ [] → ∀ i, ¬ s.live i
  retries : ∀ i code, s.readyState i ≠ .CLOSED → code ∉ TERMINAL_CLOSE_CODES → ¬ s.stopped →
    (s.step o (.closed i code)).timers.length = 1
  silent : s.stopped → t.opened = s.opened ∧ t.called = s.called
  refused : ∀ i data rest, more = .message i data :: rest → s.delivers i → o.refuses data →
    ¬ t.live i ∧ t.events i = s.events i

/-- Before the stop every frame passes, and after it none does. -/
def Agreeable (s : State E) : Event → Prop
  | .message i data => s.delivers i → o.refuses data = s.stopped
  | _ => True

structure Sound (s : State E) : Prop where
  live : ∀ i, s.live i → s.socket = some i
  closing : ∀ i, s.readyState i = .CLOSING → s.stopped
  stopped : s.stopped → s.socket = none
  timers : s.timers.map Prod.fst = s.retryTimer.toList
  idle : s.retryTimer.isSome → s.socket = none ∧ ¬ s.stopped

variable {o s}

theorem close_1002 (i : Nat) : s.close i 1002 = s := by simp [State.close]

theorem onmessage_refused {data : Payload} (refused : o.refuses data) (i : Nat) : s.onmessage o i data = s := by
  unfold State.onmessage
  unfold Options.refuses at refused
  split <;> simp_all [close_1002]

theorem Sound.onmessage (sound : Sound s) (i : Nat) (data : Payload) : Sound (s.onmessage o i data) := by
  unfold State.onmessage
  split
  · rwa [close_1002]
  · split
    · rwa [close_1002]
    · exact ⟨sound.live, sound.closing, sound.stopped, sound.timers, sound.idle⟩
  · exact ⟨sound.live, sound.closing, sound.stopped, sound.timers, sound.idle⟩
  · exact ⟨sound.live, sound.closing, sound.stopped, sound.timers, sound.idle⟩

theorem Sound.connect (sound : Sound s) (alone : s.socket = none) (rests : s.retryTimer = none) : Sound s.connect := by
  unfold State.connect
  split
  · exact sound
  rename_i active
  constructor
  · intro i live
    have old := sound.live i
    simp only [State.live, State.move, update_apply] at live old ⊢
    grind
  · intro i closing
    have old := sound.closing i
    simp only [State.move, update_apply] at closing
    grind
  · exact fun stopped => absurd stopped active
  · exact sound.timers
  · simp [rests, State.move]

theorem Sound.timers_nil (sound : Sound s) (rests : s.retryTimer = none) : s.timers = [] := by
  simpa [rests] using sound.timers

/-- Before the stop, a socket that closes is the current one, and no timer is pending. -/
theorem Sound.current (sound : Sound s) (active : ¬ s.stopped) {i : Nat} (known : s.readyState i ≠ .CLOSED) :
    s.socket = some i ∧ s.retryTimer = none := by
  have live : s.live i := by
    have := sound.closing i
    cases is : s.readyState i <;> simp_all [State.live]
  have mine := sound.live i live
  refine ⟨mine, Option.not_isSome_iff_eq_none.1 fun pending => ?_⟩
  simp [(sound.idle pending).1] at mine

theorem Sound.cleared (sound : Sound s) {handle : Nat} (pending : s.retryTimer = some handle) :
    (s.clearTimeout handle).timers = [] := by
  refine filter_eq_nil_iff.2 fun timer mem => ?_
  have only := mem_map_of_mem (f := Prod.fst) mem
  rw [sound.timers, pending] at only
  simpa using only

theorem Sound.closed (sound : Sound s) {i : Nat} (known : s.readyState i ≠ .CLOSED) (code : Nat) :
    Sound ((s.move i .CLOSED).onclose i code) := by
  have gone : Sound { s.move i .CLOSED with socket := s.socket.filter fun current => current ≠ i } := by
    refine ⟨fun j live => ?_, fun j closing => ?_, fun stopped => ?_, sound.timers, fun pending => ?_⟩
    · have old := sound.live j
      simp only [State.live, State.move, update_apply] at live old
      grind
    · have old := sound.closing j
      simp only [State.move, update_apply] at closing ⊢
      grind
    · simp [sound.stopped stopped]
    · exact ⟨by simp [(sound.idle pending).1], (sound.idle pending).2⟩
  simp only [State.onclose]
  split
  · exact gone
  · rename_i stays
    obtain ⟨mine, rests⟩ := sound.current (fun stopped => stays (.inl stopped)) known
    refine ⟨gone.live, gone.closing, gone.stopped, ?_, fun _ => ⟨?_, fun stopped => stays (.inl stopped)⟩⟩
    · simp [State.move, sound.timers_nil rests]
    · simp [State.move, mine]

theorem Sound.stop_eq (sound : Sound s) : s.stop = { s with
    stopped := true, socket := none, retryTimer := none, timers := [],
    readyState := fun i => if s.socket = some i ∧ s.readyState i ≠ .CLOSED then .CLOSING else s.readyState i } := by
  unfold State.stop
  cases pending : s.retryTimer with
  | none =>
    have nil := sound.timers_nil pending
    cases current : s.socket with
    | none => simp [nil]
    | some i =>
      have moved (j : Nat) : (if i = j ∧ s.readyState j ≠ .CLOSED then ReadyState.CLOSING else s.readyState j) =
          if s.readyState i ≠ .CLOSED then update s.readyState i .CLOSING j else s.readyState j := by
        by_cases same : i = j <;> simp_all [eq_comm]
      simp only [Option.elim, State.close, State.move, true_or, true_and, nil, Option.some.injEq, moved]
      split <;> rfl
  | some handle =>
    have cleared := sound.cleared pending
    cases current : s.socket with
    | none => simpa [State.clearTimeout] using cleared
    | some i => simp [(sound.idle (by simp [pending])).1] at current

theorem Sound.stop (sound : Sound s) : Sound s.stop := by
  rw [sound.stop_eq]
  refine ⟨fun i live => ?_, fun _ _ => rfl, fun _ => rfl, rfl, nofun⟩
  have old := sound.live i
  simp only [State.live] at live old
  grind

theorem Sound.step (sound : Sound s) (e : Event) : Sound (s.step o e) := by
  cases e with
  | opened i =>
    simp only [State.step]
    split
    · rename_i connecting
      have mine := sound.live i (by simp [State.live, connecting])
      have old := sound.closing
      have old' := sound.live
      refine ⟨fun j live => ?_, fun j closing => ?_, sound.stopped, sound.timers, sound.idle⟩
      all_goals simp only [State.live, State.move, update_apply] at *
      all_goals grind
    · exact sound
  | message i data =>
    simp only [State.step]
    split
    · exact sound.onmessage i data
    · exact sound
  | closed i code =>
    simp only [State.step]
    split
    · exact sound
    · exact sound.closed ‹_› code
  | timer handle =>
    simp only [State.step]
    split
    · rename_i pending
      rw [sound.timers, Option.mem_toList] at pending
      have idle := sound.idle (by simp [pending])
      refine Sound.connect ⟨sound.live, sound.closing, sound.stopped, ?_, nofun⟩ idle.1 rfl
      rw [sound.cleared pending]
      rfl
    · exact sound
  | stop => exact sound.stop

theorem start_sound : Sound (State.connect {} : State E) :=
  Sound.connect ⟨nofun, nofun, nofun, rfl, nofun⟩ rfl rfl

/-- A stopped client at which no frame passes. -/
theorem Sound.silent (sound : Sound s) (stopped : s.stopped) (e : Event) (agreeable : Agreeable o s e) :
    (s.step o e).stopped ∧ (s.step o e).opened = s.opened ∧ (s.step o e).called = s.called := by
  cases e with
  | opened i =>
    simp only [State.step]
    split <;> exact ⟨stopped, rfl, rfl⟩
  | message i data =>
    simp only [State.step]
    split
    · rw [onmessage_refused ((agreeable ‹_›).trans stopped)]
      exact ⟨stopped, rfl, rfl⟩
    · exact ⟨stopped, rfl, rfl⟩
  | closed i code =>
    simp only [State.step]
    split
    · exact ⟨stopped, rfl, rfl⟩
    · simp [State.onclose, State.move, stopped]
  | timer handle =>
    have rests : s.retryTimer = none := Option.not_isSome_iff_eq_none.1 fun pending => (sound.idle pending).2 stopped
    simp [State.step, sound.timers_nil rests, stopped]
  | stop => simp [State.step, sound.stop_eq]

/-- A run in which frames pass until the stop, and none from then on. -/
theorem realtime_holds (events more : List Event)
    (agreeable : Runs.Along (State.step o) (Agreeable o) (State.connect {}) (events ++ more)) :
    RealtimeHolds o (run o events) more (run o (events ++ more)) := by
  have sound : Sound (run o events) := Runs.invariant (fun _ e sound => sound.step e) events start_sound
  obtain ⟨-, rest⟩ := Runs.along_append.1 agreeable
  change Runs.Along _ _ (run o events) more at rest
  have onward : run o (events ++ more) = more.foldl (State.step o) (run o events) := foldl_append
  rw [onward]
  generalize run o events = s at sound rest
  have silent (stopped : s.stopped) : (more.foldl (State.step o) s).stopped ∧
      (more.foldl (State.step o) s).opened = s.opened ∧ (more.foldl (State.step o) s).called = s.called := by
    have kept := Runs.invariant_along (P := fun t => Sound t ∧ t.stopped ∧ t.opened = s.opened ∧ t.called = s.called)
      (fun t e agreeable ⟨sound, stopped, opened, called⟩ => ?_) rest ⟨sound, stopped, rfl, rfl⟩
    · exact kept.2
    · obtain ⟨stopped', opened', called'⟩ := sound.silent stopped e agreeable
      exact ⟨sound.step e, stopped', opened'.trans opened, called'.trans called⟩
  have after : Sound (more.foldl (State.step o) s) := Runs.invariant (fun _ e sound => sound.step e) more sound
  generalize more.foldl (State.step o) s = t at silent after
  constructor
  · intro i j live live'
    exact Option.some.inj ((sound.live i live).symm.trans (sound.live j live'))
  · intro pending i live
    have waits : s.retryTimer.isSome := by
      by_contra rests
      exact pending (sound.timers_nil (Option.not_isSome_iff_eq_none.1 rests))
    simpa [(sound.idle waits).1] using sound.live i live
  · intro i code known again active
    obtain ⟨-, rests⟩ := sound.current active known
    simp [State.step, known, State.onclose, State.move, active, again, sound.timers_nil rests]
  · exact fun stopped => (silent stopped).2
  · rintro i data rest' rfl delivers refused
    obtain ⟨stopped, -, called⟩ := silent ((rest.1 delivers).symm.trans refused)
    refine ⟨fun live => ?_, by rw [State.events, called, State.events]⟩
    simpa [after.stopped stopped] using after.live i live

namespace Ana

/-- A contract of three frames. -/
def options : Options String Unit where
  installationId := "phone"
  parseJson value := some value
  decode _ := ""
  safeParse json := match json with
    | some "hello" => some (.HELLO "phone")
    | some "event" => some (.EVENT ())
    | _ => none

def frame (value : String) : Event := .message 0 (.text value)

end Ana

open Ana in
theorem realtime_holds_reconnected :
    RealtimeHolds options (run options [.opened 0, frame "hello", .closed 0 1006]) [.timer 0, .stop, .closed 1 1006]
      (run options ([.opened 0, frame "hello", .closed 0 1006] ++ [.timer 0, .stop, .closed 1 1006])) :=
  realtime_holds _ _ ⟨trivial, fun _ => rfl, trivial, trivial, trivial, trivial, trivial⟩

open Ana in
/-- A frame that does not pass closes nothing, and the next reaches `onEvent`. So
does one between the stop and the close event. -/
theorem refused_frame_closes_nothing :
    (¬ ∀ events more, RealtimeHolds options (run options events) more (run options (events ++ more))) ∧
    (run options [.opened 0, frame "", frame "event"]).events 0 = [()] ∧
    (run options [.opened 0, .stop, frame "event"]).events 0 = [()] := by
  refine ⟨fun holds => ?_, by decide +kernel, by decide +kernel⟩
  have closed := ((holds [.opened 0] [frame ""]).refused 0 (.text "") [] rfl (by decide) (by decide)).1
  exact closed (by decide)

end Vimla.Realtime.Client
